import Mathlib.Data.Finset.Card
import Mathlib.Data.Finset.Range
import DataflowSql.Graph
import DataflowSql.Proofs.Node

/-! Graphs without cycles. Unfolded as deep as there are entries, such a graph loses nothing: every
input of one of its nodes is again one of its nodes, and nodes are told apart by their ids. -/
namespace DataflowSql

open Relation

/-- Nodes with different ids, and with each node all nodes it reads. -/
structure Node.Complete (nodes : List Node) : Prop where
  eq_of_id : ∀ n ∈ nodes, ∀ m ∈ nodes, n.id = m.id → n = m
  mem_of_reads : ∀ n ∈ nodes, ∀ m, n.Reads m → m ∈ nodes

theorem Node.Complete.mem_of_transGen {nodes : List Node} (h : Node.Complete nodes) {n m : Node}
    (hn : n ∈ nodes) (hr : TransGen Node.Reads n m) : m ∈ nodes := by
  induction hr with
  | single hr => exact h.mem_of_reads _ hn _ hr
  | tail _ hr ih => exact h.mem_of_reads _ ih _ hr

theorem Node.Complete.mem_of_below {nodes : List Node} (h : Node.Complete nodes) {n m : Node}
    (hn : n ∈ nodes) (hr : ReflTransGen Node.Reads n m) : m ∈ nodes := by
  rcases reflTransGen_iff_eq_or_transGen.mp hr with rfl | hr
  · exact hn
  · exact h.mem_of_transGen hn hr

namespace Graph

/-- The node at position `k` declares the one at position `j` as an input. -/
def Links (g : Graph) (k j : Nat) : Prop :=
  ∃ e, g.entries[k]? = some e ∧ ∃ l ∈ e.inputs, l.target = some j

/-- No chain of declared inputs leads from a node back to it. -/
def Acyclic (g : Graph) : Prop := ∀ k, ¬ TransGen g.Links k k

variable {g : Graph}

theorem acyclic_of_rank (rank : Nat → Nat) (h : ∀ k j, g.Links k j → rank j < rank k) :
    g.Acyclic := by
  have hlt : ∀ k j, TransGen g.Links k j → rank j < rank k := by
    intro k j hkj
    induction hkj with
    | single hl => exact h _ _ hl
    | tail _ hl ih => exact Nat.lt_trans (h _ _ hl) ih
  intro k hk
  exact Nat.lt_irrefl _ (hlt k k hk)

/-- Inputs declared before the nodes that read them make no cycle. -/
theorem acyclic_of_earlier
    (h : ∀ e ∈ g.entries.zipIdx, ∀ l ∈ e.1.inputs, l.target.all (· < e.2) = true) : g.Acyclic := by
  apply acyclic_of_rank fun k => k
  intro k j hlink
  obtain ⟨e, he, l, hl, hj⟩ := hlink
  have hlt := h (e, k) (List.mem_zipIdx_iff_getElem?.mpr he) l hl
  simpa [hj] using hlt

open Classical in
/-- The positions a chain of inputs leads to from `k`. -/
noncomputable def reachable (g : Graph) (k : Nat) : Finset Nat :=
  (Finset.range g.size).filter (TransGen g.Links k)

/-- How many nodes lie below position `k`. -/
noncomputable def height (g : Graph) (k : Nat) : Nat := (g.reachable k).card

theorem height_le (k : Nat) : g.height k ≤ g.size := by
  classical
  have h := Finset.card_le_card (Finset.filter_subset (TransGen g.Links k) (Finset.range g.size))
  rwa [Finset.card_range] at h

theorem height_lt (ha : g.Acyclic) {k j : Nat} (h : g.Links k j) (hj : j < g.size) :
    g.height j < g.height k := by
  apply Finset.card_lt_card
  rw [Finset.ssubset_iff_of_subset]
  · refine ⟨j, ?_, ?_⟩
    · simp [reachable, hj, TransGen.single h]
    · simp [reachable, ha j]
  · intro i hi
    simp only [reachable, Finset.mem_filter] at hi ⊢
    exact ⟨hi.1, TransGen.head h hi.2⟩

end Graph

theorem Entry.node_congr {e : Entry} {a b : Array Node}
    (h : ∀ l ∈ e.inputs, ∀ k, l.target = some k → a[k]? = b[k]?) : e.node a = e.node b := by
  simp only [Entry.node, Node.mk.injEq, true_and]
  apply List.map_congr_left
  intro l hl
  cases ht : l.target with
  | none => rfl
  | some k => simp only [h l hl k ht]

theorem Entry.reads_node {e : Entry} {a : Array Node} {m : Node} (h : (e.node a).Reads m) :
    ∃ l ∈ e.inputs, ∃ k, l.target = some k ∧ a[k]? = some m := by
  simp only [Node.Reads, Entry.node, Node.inputs, List.mem_map] at h
  obtain ⟨l, hl, hm⟩ := h
  refine ⟨l, hl, ?_⟩
  cases ht : l.target with
  | none => simp [ht] at hm
  | some k =>
    refine ⟨k, rfl, ?_⟩
    cases hk : a[k]? with
    | none => simp [ht, hk] at hm
    | some n => simpa [ht, hk] using hm

/-- The nodes an unfolding to this depth is built over. -/
def unfoldBelow (entries : List Entry) : Nat → Array Node
  | 0 => #[]
  | depth + 1 => (unfoldTo entries depth).toArray

theorem unfoldTo_eq_map (entries : List Entry) (depth : Nat) :
    unfoldTo entries depth = entries.map fun e => e.node (unfoldBelow entries depth) := by
  cases depth <;> simp [unfoldTo, unfoldBelow]

theorem unfoldTo_length (entries : List Entry) (depth : Nat) :
    (unfoldTo entries depth).length = entries.length := by
  rw [unfoldTo_eq_map, List.length_map]

/-- No chain of inputs that starts with the node has more than this many nodes. -/
def Node.Within : Nat → Node → Prop
  | 0, _ => False
  | depth + 1, n => ∀ m, n.Reads m → m.Within depth

namespace Node.Within

variable {n m : Node} {depth : Nat}

theorem succ (h : n.Within depth) : n.Within (depth + 1) := by
  induction depth generalizing n with
  | zero => exact h.elim
  | succ depth ih => exact fun m hm => ih (h m hm)

theorem of_transGen (h : n.Within (depth + 1)) (hr : TransGen Reads n m) : m.Within depth := by
  induction hr with
  | single hr => exact h _ hr
  | tail _ hr ih =>
    cases depth with
    | zero => exact ih.elim
    | succ depth => exact (ih _ hr).succ

end Node.Within

theorem within_of_mem_unfoldTo {entries : List Entry} {depth : Nat} {n : Node}
    (h : n ∈ unfoldTo entries depth) : n.Within (depth + 1) := by
  induction depth generalizing n with
  | zero =>
    obtain ⟨e, _, rfl⟩ := List.mem_map.mp h
    intro m hm
    obtain ⟨_, _, k, _, hk⟩ := Entry.reads_node hm
    simp at hk
  | succ depth ih =>
    obtain ⟨e, _, rfl⟩ := List.mem_map.mp h
    intro m hm
    obtain ⟨_, _, k, _, hk⟩ := Entry.reads_node hm
    rw [List.getElem?_toArray] at hk
    exact ih (List.mem_of_getElem? hk)

theorem getElem?_unfoldBelow_of_le {entries : List Entry} {depth k : Nat}
    (h : entries.length ≤ k) : (unfoldBelow entries depth)[k]? = none := by
  cases depth with
  | zero => simp [unfoldBelow]
  | succ depth => simp [unfoldBelow, unfoldTo_length, h]

namespace Graph

variable {g : Graph}

/-- Beyond its height a node does not change any more. -/
theorem unfoldTo_stable (ha : g.Acyclic) (depth : Nat) :
    ∀ k, g.height k ≤ depth →
      (unfoldTo g.entries depth)[k]? = (unfoldTo g.entries (depth + 1))[k]? := by
  have hbelow (depth : Nat) (hstep : ∀ j, g.height j < depth → j < g.size →
      (unfoldBelow g.entries depth)[j]? = (unfoldBelow g.entries (depth + 1))[j]?) :
      ∀ k, g.height k ≤ depth →
        (unfoldTo g.entries depth)[k]? = (unfoldTo g.entries (depth + 1))[k]? := by
    intro k hk
    simp only [unfoldTo_eq_map, List.getElem?_map]
    cases he : g.entries[k]? with
    | none => rfl
    | some e =>
      simp only [Option.map_some, Option.some.injEq]
      apply Entry.node_congr
      intro l hl j hj
      by_cases hlt : j < g.size
      · have hh := height_lt ha ⟨e, he, l, hl, hj⟩ hlt
        exact hstep j (by omega) hlt
      · have hge : g.entries.length ≤ j := Nat.le_of_not_lt hlt
        rw [getElem?_unfoldBelow_of_le hge, getElem?_unfoldBelow_of_le hge]
  induction depth with
  | zero => exact hbelow 0 fun j hj => absurd hj (by omega)
  | succ depth ih =>
    apply hbelow (depth + 1)
    intro j hj _
    simpa [unfoldBelow] using ih j (by omega)

theorem mem_nodes_of_reads (ha : g.Acyclic) {n m : Node} (hn : n ∈ g.nodes) (hr : n.Reads m) :
    m ∈ g.nodes := by
  rw [nodes, unfoldTo_eq_map] at hn
  obtain ⟨e, he, rfl⟩ := List.mem_map.mp hn
  obtain ⟨k, hk⟩ := List.getElem?_of_mem he
  obtain ⟨l, hl, j, hj, hm⟩ := Entry.reads_node hr
  have hlink : g.Links k j := ⟨e, hk, l, hl, hj⟩
  cases hsize : g.entries.length with
  | zero => simp [hsize, unfoldBelow] at hm
  | succ depth =>
    rw [hsize, unfoldBelow, List.getElem?_toArray] at hm
    have hlt : j < g.size := by
      obtain ⟨hlt, _⟩ := List.getElem?_eq_some_iff.mp hm
      rwa [unfoldTo_length] at hlt
    have hheight : g.height j ≤ depth := by
      have h₁ := height_lt ha hlink hlt
      have h₂ : g.height k ≤ g.size := height_le k
      have h₃ : g.size = depth + 1 := hsize
      omega
    rw [unfoldTo_stable ha depth j hheight] at hm
    rw [nodes, hsize]
    exact List.mem_of_getElem? hm

theorem nodes_map_id (g : Graph) : g.nodes.map Node.id = g.entries.map Entry.id := by
  rw [nodes, unfoldTo_eq_map, List.map_map]
  rfl

theorem mem_nodes_of_node {id : String} {n : Node} (h : (g.node id).result = .ok n) :
    n ∈ g.nodes := by
  simp only [node, Outcome.ofOption_eq_ok] at h
  exact List.mem_of_find?_eq_some h

theorem within_of_mem_nodes {n : Node} (h : n ∈ g.nodes) : n.Within (g.size + 1) :=
  within_of_mem_unfoldTo h

theorem repeatedId?_eq_none {seen ids : List String} :
    repeatedId? seen ids = none ↔ ids.Nodup ∧ ∀ id ∈ ids, id ∉ seen := by
  induction ids generalizing seen with
  | nil => simp [repeatedId?]
  | cons id ids ih =>
    rw [repeatedId?]
    by_cases hid : id ∈ seen
    · simp [hid]
    · simp only [hid, if_false, ih, List.mem_cons, List.nodup_cons, not_or, forall_eq_or_imp,
        not_false_eq_true, true_and]
      constructor
      · intro h
        obtain ⟨hnodup, hseen⟩ := h
        exact ⟨⟨fun hmem => (hseen id hmem).1 rfl, hnodup⟩, fun x hx => (hseen x hx).2⟩
      · intro h
        obtain ⟨⟨hfresh, hnodup⟩, hseen⟩ := h
        exact ⟨hnodup, fun x hx => ⟨fun heq => hfresh (heq ▸ hx), hseen x hx⟩⟩

/-- Nodes are wired exactly when all ids differ. -/
theorem exists_build_iff {specs : List NodeSpec} {catalog : Catalog} {d : Dialect} :
    (∃ notes, build specs catalog d = .ok (g, notes)) ↔
      (specs.map NodeSpec.id).Nodup ∧
        g = ⟨d, d.defaultStrategy, specs.map (entry (specs.map NodeSpec.id) catalog)⟩ := by
  unfold build
  dsimp only
  cases hrepeated : repeatedId? [] (specs.map NodeSpec.id) with
  | some id =>
    have hids : ¬ (specs.map NodeSpec.id).Nodup := by
      intro hnodup
      rw [repeatedId?_eq_none.mpr ⟨hnodup, by simp⟩] at hrepeated
      cases hrepeated
    simp [hids]
  | none =>
    have hids := (repeatedId?_eq_none.mp hrepeated).1
    simp [hids, eq_comm]

theorem nodup_ids_of_build {specs : List NodeSpec} {catalog : Catalog} {d : Dialect}
    {notes : List BuildNote} (h : build specs catalog d = .ok (g, notes)) :
    (g.entries.map Entry.id).Nodup := by
  obtain ⟨hids, rfl⟩ := exists_build_iff.mp ⟨notes, h⟩
  simpa [entry, Function.comp_def] using hids

/-- No input of a wired node is cut off: the nodes it may name are all there. -/
theorem endless_notMem_inputs {specs : List NodeSpec} {catalog : Catalog} {d : Dialect}
    {notes : List BuildNote} (hb : build specs catalog d = .ok (g, notes)) {n : Node}
    (hn : n ∈ g.nodes) (id : String) : .endless id ∉ n.inputs := by
  obtain ⟨_, rfl⟩ := exists_build_iff.mp ⟨notes, hb⟩
  intro hmem
  rw [nodes, unfoldTo_eq_map, List.length_map] at hn
  obtain ⟨e, he, rfl⟩ := List.mem_map.mp hn
  obtain ⟨spec, hspec, rfl⟩ := List.mem_map.mp he
  simp only [Entry.node, entry, Node.inputs, List.map_map, List.mem_map, Function.comp_apply,
    link] at hmem
  obtain ⟨i, _, hi⟩ := hmem
  cases htarget : (specs.map NodeSpec.id).idxOf? i with
  | none => simp [htarget] at hi
  | some k =>
    have hlt : k < specs.length := by
      obtain ⟨hlt, _⟩ := List.idxOf?_eq_some_iff.mp htarget
      rwa [List.length_map] at hlt
    cases hsize : specs.length with
    | zero => omega
    | succ depth =>
      -- every depth has a node at every position
      have hsome :
          k < (unfoldTo (specs.map (entry (specs.map NodeSpec.id) catalog)) depth).length := by
        rwa [unfoldTo_length, List.length_map]
      simp [htarget, hsize, unfoldBelow, List.getElem?_eq_getElem hsome] at hi

/-- The nodes of a wired graph without cycles. -/
theorem nodes_complete {specs : List NodeSpec} {catalog : Catalog} {d : Dialect}
    {notes : List BuildNote} (hb : build specs catalog d = .ok (g, notes)) (ha : g.Acyclic) :
    Node.Complete g.nodes where
  eq_of_id n hn m hm hid := by
    have hnodup := nodup_ids_of_build hb
    rw [← nodes_map_id] at hnodup
    exact List.inj_on_of_nodup_map hnodup hn hm hid
  mem_of_reads n hn m hr := mem_nodes_of_reads ha hn hr

end Graph

end DataflowSql

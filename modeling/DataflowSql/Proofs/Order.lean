import DataflowSql.Proofs.Acyclic
import DataflowSql.Proofs.Dependencies
import DataflowSql.Statement

/-! The dependency order of a target. Blocks are moved to the front over and over, and each move
keeps the list free of repetitions and every node behind its own dependencies: a block holds all its
nodes depend on, so what it takes away from the rest is still in front of the rest. -/
namespace DataflowSql.Node

open Relation

variable {d : Dialect} {s : Strategy} {nodes : List Node}

/-- Every node of the list has its dependencies before it. -/
def DependenciesFirst (d : Dialect) (s : Strategy) (order : List Node) : Prop :=
  ∀ before n after, order = before ++ n :: after →
    ∃ ds, (n.dependencies d s).result = .ok ds ∧ ∀ m ∈ ds, m ∈ before

/-- The list holds `roots` and all they depend on, each once and behind its dependencies. -/
structure Covers (d : Dialect) (s : Strategy) (roots order : List Node) : Prop where
  nodup : (order.map Node.id).Nodup
  mem_iff : ∀ m, m ∈ order ↔ ∃ r ∈ roots, ReflTransGen (DependsOn d s) r m
  first : DependenciesFirst d s order

theorem covers_nil : Covers d s [] [] where
  nodup := by simp
  mem_iff := by simp
  first := by
    intro before n after h
    simp at h

/-- Reachable nodes stay inside a complete list. -/
theorem Complete.mem_of_reaches (hc : Complete nodes) {n m : Node} (hn : n ∈ nodes)
    (h : ReflTransGen (DependsOn d s) n m) : m ∈ nodes :=
  hc.mem_of_below hn (below_of_reaches h)

theorem Covers.subset (hc : Complete nodes) {roots order : List Node} (hroots : roots ⊆ nodes)
    (h : Covers d s roots order) : order ⊆ nodes := by
  intro m hm
  obtain ⟨r, hr, hrm⟩ := (h.mem_iff m).mp hm
  exact hc.mem_of_reaches (hroots hr) hrm

/-- What stays behind a block that moves to the front. -/
theorem mem_filter_block {block : List Node} {rest : List Node} {k : Node} :
    k ∈ rest.filter (fun n => !block.any fun m => m.id = n.id) ↔
      k ∈ rest ∧ ∀ m ∈ block, m.id ≠ k.id := by
  simp

theorem nodup_moveToFront {block rest : List Node} (hb : (block.map Node.id).Nodup)
    (hr : (rest.map Node.id).Nodup) : ((moveToFront block rest).map Node.id).Nodup := by
  rw [moveToFront, List.map_append, List.nodup_append]
  refine ⟨hb, hr.sublist (List.filter_sublist.map _), ?_⟩
  intro a ha b hb' hab
  obtain ⟨m, hm, rfl⟩ := List.mem_map.mp ha
  obtain ⟨k, hk, rfl⟩ := List.mem_map.mp hb'
  exact (mem_filter_block.mp hk).2 m hm hab

/-- Moving a block neither adds nor loses a node. -/
theorem mem_moveToFront (hc : Complete nodes) {block rest : List Node} (hb : block ⊆ nodes)
    (hr : rest ⊆ nodes) {k : Node} : k ∈ moveToFront block rest ↔ k ∈ block ∨ k ∈ rest := by
  rw [moveToFront, List.mem_append, mem_filter_block]
  constructor
  · intro h
    exact h.imp_right And.left
  · intro h
    by_cases hk : k ∈ block
    · exact .inl hk
    · refine .inr ⟨h.resolve_left hk, ?_⟩
      intro m hm hid
      obtain rfl := hc.eq_of_id m (hb hm) k (hr (h.resolve_left hk)) hid
      exact hk hm

/-- What stays behind keeps its dependencies before it: those that are gone moved to the front. -/
theorem dependencies_of_filter_block (hc : Complete nodes) {block rest : List Node}
    (hb : block ⊆ nodes) (hr : rest ⊆ nodes) (hrest : DependenciesFirst d s rest)
    {before after : List Node} {n : Node}
    (h : rest.filter (fun n => !block.any fun m => m.id = n.id) = before ++ n :: after) :
    ∃ ds, (n.dependencies d s).result = .ok ds ∧ ∀ m ∈ ds, m ∈ block ++ before := by
  obtain ⟨l₁, l₂, rfl, rfl, h₂⟩ := List.filter_eq_append_iff.mp h
  obtain ⟨l₃, l₄, rfl, hgone, _, _⟩ := List.filter_eq_cons_iff.mp h₂
  obtain ⟨ds, hds, hmem⟩ := hrest (l₁ ++ l₃) n l₄ (by simp)
  refine ⟨ds, hds, ?_⟩
  intro m hm
  by_cases hblock : m ∈ block
  · simp [hblock]
  · have hbefore : m ∈ l₁ ++ l₃ := hmem m hm
    have hnodes : m ∈ nodes := by
      apply hr
      rw [← List.append_assoc]
      exact List.mem_append_left _ hbefore
    have hfresh : ∀ k ∈ block, k.id ≠ m.id := by
      intro k hk hid
      exact hblock (hc.eq_of_id k (hb hk) m hnodes hid ▸ hk)
    rcases List.mem_append.mp hbefore with h₁ | h₃
    · exact List.mem_append_right _ (mem_filter_block.mpr ⟨h₁, hfresh⟩)
    · have hno := hgone m h₃
      simp only [Bool.not_eq_true', List.any_eq_false, decide_eq_true_eq] at hno
      exact absurd hfresh hno

theorem dependenciesFirst_moveToFront (hc : Complete nodes) {block rest : List Node}
    (hb : block ⊆ nodes) (hr : rest ⊆ nodes) (hblock : DependenciesFirst d s block)
    (hrest : DependenciesFirst d s rest) : DependenciesFirst d s (moveToFront block rest) := by
  intro before n after h
  rw [moveToFront, List.append_eq_append_iff] at h
  rcases h with ⟨as, rfl, has⟩ | ⟨bs, rfl, hn⟩
  · exact dependencies_of_filter_block hc hb hr hrest has
  · cases bs with
    | nil =>
      have h := dependencies_of_filter_block hc hb hr hrest (show _ = [] ++ n :: after from hn.symm)
      simpa using h
    | cons b bs =>
      rw [List.cons_append, List.cons.injEq] at hn
      obtain ⟨rfl, _⟩ := hn
      exact hblock before n bs rfl

theorem covers_moveToFront (hc : Complete nodes) {root : Node} {roots block order : List Node}
    (hroot : root ∈ nodes) (hroots : roots ⊆ nodes) (hblock : Covers d s [root] block)
    (horder : Covers d s roots order) : Covers d s (roots ++ [root]) (moveToFront block order) := by
  have hb : block ⊆ nodes := hblock.subset hc (by simp [hroot])
  have ho : order ⊆ nodes := horder.subset hc hroots
  refine ⟨nodup_moveToFront hblock.nodup horder.nodup, ?_,
    dependenciesFirst_moveToFront hc hb ho hblock.first horder.first⟩
  intro m
  rw [mem_moveToFront hc hb ho, hblock.mem_iff, horder.mem_iff]
  simp only [List.mem_singleton, List.mem_append, or_and_right, exists_or, exists_eq_left]
  exact or_comm

theorem split_snoc {α : Type} {order before after : List α} {n m : α}
    (h : order ++ [n] = before ++ m :: after) :
    (before = order ∧ m = n) ∨ ∃ bs, order = before ++ m :: bs := by
  rcases List.eq_nil_or_concat after with rfl | ⟨as, a, rfl⟩
  · obtain ⟨rfl, hm⟩ := List.append_inj' h rfl
    exact .inl ⟨rfl, by simpa using hm.symm⟩
  · have h' : order ++ [n] = (before ++ m :: as) ++ [a] := by simpa using h
    exact .inr ⟨as, (List.append_inj' h' rfl).1⟩

/-- A node behind all it depends on completes its block. -/
theorem covers_snoc {n : Node} {ds order : List Node} (hds : (n.dependencies d s).result = .ok ds)
    (horder : Covers d s ds order) (hfresh : n.id ∉ order.map Node.id) :
    Covers d s [n] (order ++ [n]) where
  nodup := by
    rw [List.map_append, List.map_singleton, List.nodup_append]
    refine ⟨horder.nodup, by simp, ?_⟩
    intro a ha b hb hab
    rw [List.mem_singleton] at hb
    subst hb
    exact hfresh (hab ▸ ha)
  mem_iff m := by
    rw [List.mem_append, horder.mem_iff, List.mem_singleton]
    simp only [List.mem_singleton, exists_eq_left]
    rw [ReflTransGen.cases_head_iff]
    constructor
    · intro h
      rcases h with ⟨r, hr, hrm⟩ | rfl
      · exact .inr ⟨r, ⟨ds, hds, hr⟩, hrm⟩
      · exact .inl rfl
    · intro h
      rcases h with rfl | ⟨r, ⟨ds', hds', hr⟩, hrm⟩
      · exact .inr rfl
      · obtain rfl := Outcome.result_unique hds hds'
        exact .inl ⟨r, hr, hrm⟩
  first := by
    intro before m after h
    rcases split_snoc h with ⟨rfl, rfl⟩ | ⟨bs, hbs⟩
    · refine ⟨ds, hds, fun k hk => ?_⟩
      exact (horder.mem_iff k).mpr ⟨k, hk, .refl⟩
    · exact horder.first before m bs hbs

/-- Blocks worked out so far are blocks of nodes of the list. -/
def Known (d : Dialect) (s : Strategy) (nodes : List Node) (known : Blocks) : Prop :=
  ∀ e ∈ known, ∃ n ∈ nodes, n.id = e.1 ∧ Covers d s [n] e.2

/-- The walk over `ds`, with `tail` at the end of the list and out of its reach. -/
theorem prepend_covers (hc : Complete nodes)
    {block : Node → Blocks → Outcome (List Node × Blocks)}
    (hblock : ∀ m ∈ nodes, ∀ known b known', Known d s nodes known →
      (block m known).result = .ok (b, known') → Covers d s [m] b ∧ Known d s nodes known')
    {ds roots order tail out : List Node} {known known' : Blocks}
    (hds : ds ⊆ nodes) (hroots : roots ⊆ nodes) (horder : Covers d s roots order)
    (htail : ∀ m ∈ ds, ∀ k, ReflTransGen (DependsOn d s) m k → ∀ t ∈ tail, k.id ≠ t.id)
    (hknown : Known d s nodes known)
    (h : (prepend block ds (order ++ tail) known).result = .ok (out, known')) :
    ∃ order', out = order' ++ tail ∧ Covers d s (roots ++ ds) order' ∧ Known d s nodes known' := by
  induction ds generalizing roots order known with
  | nil =>
    simp only [prepend, Outcome.ok_eq_ok, Prod.mk.injEq] at h
    obtain ⟨rfl, rfl⟩ := h
    exact ⟨order, rfl, by simpa using horder, hknown⟩
  | cons m ds ih =>
    simp only [prepend, Outcome.bind_eq_ok] at h
    obtain ⟨⟨b, known₁⟩, hb, h⟩ := h
    have hm : m ∈ nodes := hds (by simp)
    obtain ⟨hcovers, hknown₁⟩ := hblock m hm known b known₁ hknown hb
    have hstay : moveToFront b (order ++ tail) = moveToFront b order ++ tail := by
      simp only [moveToFront, List.filter_append, List.append_assoc, List.append_cancel_left_eq]
      rw [List.filter_eq_self]
      intro t ht
      simp only [Bool.not_eq_true', List.any_eq_false, decide_eq_true_eq]
      intro k hk
      obtain ⟨r, hr, hrk⟩ := (hcovers.mem_iff k).mp hk
      rw [List.mem_singleton] at hr
      subst hr
      exact htail r (by simp) k hrk t ht
    rw [hstay] at h
    have hnext := ih (fun k hk => hds (by simp [hk])) (by simpa [hm] using hroots)
      (covers_moveToFront hc hm hroots hcovers horder)
      (fun k hk => htail k (by simp [hk])) hknown₁ h
    simpa using hnext

theorem dependencies_subset (hc : Complete nodes) {n : Node} {ds : List Node} (hn : n ∈ nodes)
    (hds : (n.dependencies d s).result = .ok ds) : ds ⊆ nodes := by
  intro m hm
  exact hc.mem_of_transGen hn (below_of_dependsOn ⟨ds, hds, hm⟩)

theorem within_of_mem_dependencies {depth : Nat} {n : Node} (h : n.Within (depth + 1))
    {ds : List Node} (hds : (n.dependencies d s).result = .ok ds) : ∀ m ∈ ds, m.Within depth :=
  fun _ hm => h.of_transGen (below_of_dependsOn ⟨ds, hds, hm⟩)

/-- Nothing that a node depends on has its id. -/
theorem id_ne_of_reaches (hc : Complete nodes) {n m : Node} (hn : n ∈ nodes)
    (h : TransGen (DependsOn d s) n m) : m.id ≠ n.id := by
  have hbelow := below_of_transGen_dependsOn h
  intro hid
  obtain rfl := hc.eq_of_id m (hc.mem_of_transGen hn hbelow) n hn hid
  exact Nat.lt_irrefl _ (sizeOf_lt_of_transGen_reads hbelow)

/-- The block of a node is the node behind all it depends on, looked up or worked out. -/
theorem frontBlock_covers (hc : Complete nodes) (depth : Nat) :
    ∀ n ∈ nodes, ∀ known b known', Known d s nodes known →
      (frontBlock d s depth n known).result = .ok (b, known') →
        Covers d s [n] b ∧ Known d s nodes known' := by
  induction depth with
  | zero =>
    intro n _ known b known' _ h
    simp [frontBlock] at h
  | succ depth ih =>
    intro n hn known b known' hknown h
    unfold frontBlock at h
    cases hlookup : known.lookup n.id with
    | some block =>
      simp only [hlookup, Outcome.ok_eq_ok, Prod.mk.injEq] at h
      obtain ⟨rfl, rfl⟩ := h
      obtain ⟨l₁, l₂, hsplit, _⟩ := List.lookup_eq_some_iff.mp hlookup
      obtain ⟨m, hm, hid, hcovers⟩ := hknown (n.id, block) (by simp [hsplit])
      obtain rfl := hc.eq_of_id m hm n hn hid
      exact ⟨hcovers, hknown⟩
    | none =>
      simp only [hlookup, Outcome.bind_eq_ok, Outcome.pure_eq_ok, Prod.mk.injEq] at h
      obtain ⟨ds, hds, ⟨order, known₁⟩, hprepend, rfl, rfl⟩ := h
      have hsub := dependencies_subset hc hn hds
      have hfresh : ∀ m ∈ ds, ∀ k, ReflTransGen (DependsOn d s) m k →
          ∀ t ∈ [n], k.id ≠ t.id := by
        intro m hm k hk t ht
        rw [List.mem_singleton] at ht
        subst ht
        exact id_ne_of_reaches hc hn (TransGen.head' ⟨ds, hds, hm⟩ hk)
      obtain ⟨below, rfl, hbelow, hknown₁⟩ :=
        prepend_covers hc ih hsub (List.nil_subset _) covers_nil hfresh hknown hprepend
      rw [List.nil_append] at hbelow
      have hid : n.id ∉ below.map Node.id := by
        intro hmem
        obtain ⟨k, hk, hkn⟩ := List.mem_map.mp hmem
        obtain ⟨m, hm, hmk⟩ := (hbelow.mem_iff k).mp hk
        exact hfresh m hm k hmk n (by simp) hkn
      have hcovers := covers_snoc hds hbelow hid
      refine ⟨hcovers, ?_⟩
      intro e he
      rcases List.mem_cons.mp he with rfl | he
      · exact ⟨n, hn, rfl, hcovers⟩
      · exact hknown₁ e he

/-- The whole order covers the dependencies of the target. -/
theorem dependencyOrder_covers (hc : Complete nodes) {depth : Nat} {target : Node}
    {order : List Node} (ht : target ∈ nodes)
    (h : (target.dependencyOrder d s depth).result = .ok order) :
    ∃ ds, (target.dependencies d s).result = .ok ds ∧ Covers d s ds order := by
  simp only [dependencyOrder, Outcome.bind_eq_ok, Outcome.pure_eq_ok] at h
  obtain ⟨ds, hds, ⟨out, known⟩, hprepend, rfl⟩ := h
  have hknown : Known d s nodes [] := by
    intro e he
    simp at he
  obtain ⟨order, rfl, horder, _⟩ :=
    prepend_covers hc (frontBlock_covers hc depth) (dependencies_subset hc ht hds)
      (List.nil_subset _) covers_nil (by simp) hknown hprepend
  refine ⟨ds, hds, ?_⟩
  simpa using horder

theorem transGen_dependsOn_iff {target m : Node} {ds : List Node}
    (hds : (target.dependencies d s).result = .ok ds) :
    TransGen (DependsOn d s) target m ↔ ∃ r ∈ ds, ReflTransGen (DependsOn d s) r m := by
  rw [TransGen.head'_iff]
  constructor
  · intro h
    obtain ⟨r, ⟨ds', hds', hr⟩, hrm⟩ := h
    obtain rfl := Outcome.result_unique hds hds'
    exact ⟨r, hr, hrm⟩
  · intro h
    obtain ⟨r, hr, hrm⟩ := h
    exact ⟨r, ⟨ds, hds, hr⟩, hrm⟩

/-- A target behind all it depends on. -/
theorem covers_target (hc : Complete nodes) (ht : target ∈ nodes) {depth : Nat}
    {order : List Node} (h : (target.dependencyOrder d s depth).result = .ok order) :
    Covers d s [target] (order ++ [target]) := by
  obtain ⟨ds, hds, hcovers⟩ := dependencyOrder_covers hc ht h
  refine covers_snoc hds hcovers ?_
  intro hid
  obtain ⟨m, hm, hid⟩ := List.mem_map.mp hid
  exact id_ne_of_reaches hc ht
    ((transGen_dependsOn_iff hds).mpr ((hcovers.mem_iff m).mp hm)) hid

end DataflowSql.Node

namespace DataflowSql.Graph

open Relation

/-- In a graph without cycles the dependency order of a target holds exactly the nodes it reaches,
each once, without the target itself, and every node behind all it depends on. -/
theorem dependencyOrder_topological {specs : List NodeSpec} {catalog : Catalog} {d : Dialect}
    {g : Graph} {notes : List BuildNote} (hb : build specs catalog d = .ok (g, notes))
    (ha : g.Acyclic) (s : Strategy) (id : String) {target : Node} {order : List Node}
    (ht : (g.node id).result = .ok target)
    (ho : (target.dependencyOrder g.dialect s g.size).result = .ok order) :
    (order.map Node.id).Nodup ∧ target.id ∉ order.map Node.id ∧
      (∀ m, m ∈ order ↔ TransGen (Node.DependsOn g.dialect s) target m) ∧
      ∀ n ∈ order, ∃ ds, (n.dependencies g.dialect s).result = .ok ds ∧
        ∀ m ∈ ds, ∃ before after, order = before ++ n :: after ∧ m ∈ before := by
  have hc := nodes_complete hb ha
  have htarget := mem_nodes_of_node ht
  obtain ⟨ds, hds, hcovers⟩ := Node.dependencyOrder_covers hc htarget ho
  have hmem : ∀ m, m ∈ order ↔ TransGen (Node.DependsOn g.dialect s) target m := by
    intro m
    rw [hcovers.mem_iff, Node.transGen_dependsOn_iff hds]
  refine ⟨hcovers.nodup, ?_, hmem, ?_⟩
  · intro hid
    obtain ⟨m, hm, hid⟩ := List.mem_map.mp hid
    exact Node.id_ne_of_reaches hc htarget ((hmem m).mp hm) hid
  · intro n hn
    obtain ⟨before, after, hsplit⟩ := List.append_of_mem hn
    obtain ⟨ds, hds, hfirst⟩ := hcovers.first before n after hsplit
    exact ⟨ds, hds, fun m hm => ⟨before, after, hsplit, hfirst m hm⟩⟩

/-- Two selections from one sorted table, joined again. -/
def diamondSpecs : List NodeSpec :=
  [⟨"orders", [], .tableSource ⟨some "orders"⟩⟩,
    ⟨"sorted", ["orders"], .sort ⟨[1], []⟩⟩,
    ⟨"left", ["sorted"], .select ⟨some [0], []⟩⟩,
    ⟨"right", ["sorted"], .select ⟨some [0, 1], []⟩⟩,
    ⟨"joined", ["left", "right"], .join ⟨.inner, some 0, some 0⟩⟩]

def diamondCatalog : Catalog := ⟨[⟨"orders", none, none, [⟨"id", "int"⟩, ⟨"total", "decimal"⟩]⟩]⟩

def diamond : Graph where
  dialect := .postgreSql
  strategy := .commonTableExpressions
  entries := diamondSpecs.map (entry (diamondSpecs.map NodeSpec.id) diamondCatalog)

theorem build_diamond : build diamondSpecs diamondCatalog .postgreSql =
    .ok (diamond, [.built 5 .postgreSql]) := rfl

theorem acyclic_diamond : diamond.Acyclic := acyclic_of_earlier (by decide)

/-- The shared input stands once, before both of its readers. -/
theorem dependencyOrder_diamond :
    ∃ target order, (diamond.node "joined").result = .ok target ∧
      (target.dependencyOrder .postgreSql .commonTableExpressions 5).result = .ok order ∧
      order.map Node.id = ["orders", "sorted", "right", "left"] ∧
      target.id ∉ order.map Node.id ∧
      ∀ n ∈ order, ∃ ds, (n.dependencies .postgreSql .commonTableExpressions).result = .ok ds ∧
        ∀ m ∈ ds, ∃ before after, order = before ++ n :: after ∧ m ∈ before := by
  refine ⟨_, _, rfl, rfl, rfl, ?_⟩
  obtain ⟨_, hout, _, hfirst⟩ := dependencyOrder_topological build_diamond acyclic_diamond
    .commonTableExpressions "joined" rfl rfl
  exact ⟨hout, hfirst⟩

end DataflowSql.Graph

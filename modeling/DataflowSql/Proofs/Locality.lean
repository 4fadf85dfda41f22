import DataflowSql.Compile.Configured
import DataflowSql.Proofs.Order

/-! Locality. What is answered for a node depends on the ids its inputs lead to and on what is
declared for them. Where those nodes stand in the list, and what else stands there, does not matter,
as long as the inputs do not lead round in a circle. -/
namespace DataflowSql

open Relation

/-- A declared node, with its inputs given by id. -/
def NodeSpec.node (catalog : Catalog) (input : String → Input) (s : NodeSpec) : Node :=
  .mk s.id s.operation (Graph.schemaOf catalog s.operation) (s.inputs.map input)

namespace Graph

/-- What is declared under an id. -/
def specOf? (specs : List NodeSpec) (id : String) : Option NodeSpec :=
  specs.find? fun s => s.id = id

/-- The node `a` declares `b` as an input, whether or not there is such a node. -/
def Declares (specs : List NodeSpec) (a b : String) : Prop :=
  ∃ s, specOf? specs a = some s ∧ b ∈ s.inputs

/-- No id that the inputs of `id` lead to leads back to itself. -/
def AcyclicBelow (specs : List NodeSpec) (id : String) : Prop :=
  ∀ k, ReflTransGen (Declares specs) id k → ¬ TransGen (Declares specs) k k

/-- Every id that the inputs of `id` lead to stands for the same in both lists, or is in neither. -/
def AgreeBelow (specs₁ specs₂ : List NodeSpec) (id : String) : Prop :=
  ∀ k, ReflTransGen (Declares specs₁) id k → specOf? specs₁ k = specOf? specs₂ k

/-- The input of an id, with everything up to `depth` steps below it. Positions play no part. -/
def inputTo (specs : List NodeSpec) (catalog : Catalog) : (depth : Nat) → String → Input
  | 0, id => if (specOf? specs id).isSome then .endless id else .absent id
  | depth + 1, id =>
    match specOf? specs id with
    | none => .absent id
    | some s => .found (s.node catalog (inputTo specs catalog depth))

variable {specs specs₁ specs₂ : List NodeSpec} {catalog : Catalog} {id : String}

theorem AcyclicBelow.input {s : NodeSpec} (h : AcyclicBelow specs id)
    (hs : specOf? specs id = some s) {i : String} (hi : i ∈ s.inputs) : AcyclicBelow specs i :=
  fun k hk => h k (.head ⟨s, hs, hi⟩ hk)

theorem AgreeBelow.input {s : NodeSpec} (h : AgreeBelow specs₁ specs₂ id)
    (hs : specOf? specs₁ id = some s) {i : String} (hi : i ∈ s.inputs) :
    AgreeBelow specs₁ specs₂ i :=
  fun k hk => h k (.head ⟨s, hs, hi⟩ hk)

theorem mem_ids_iff : id ∈ specs.map NodeSpec.id ↔ (specOf? specs id).isSome := by
  simp [specOf?]

section Unfolding

variable (specs catalog)

/-- The first node of an id stands where the first id stands. -/
theorem getElem?_unfoldTo_of_idxOf? {depth k : Nat}
    (h : (specs.map NodeSpec.id).idxOf? id = some k) :
    (unfoldTo (specs.map (entry (specs.map NodeSpec.id) catalog)) depth)[k]? =
      (unfoldTo (specs.map (entry (specs.map NodeSpec.id) catalog)) depth).find?
        fun n => n.id = id := by
  rw [List.find?_eq_bind_findIdx?_getElem?]
  have hids : (unfoldTo (specs.map (entry (specs.map NodeSpec.id) catalog)) depth).findIdx?
      (fun n => n.id = id) = some k := by
    rw [← h, List.idxOf?, List.findIdx?_map, unfoldTo_eq_map, List.map_map, List.findIdx?_map]
    rfl
  rw [hids, Option.bind_some]

/-- A wired entry over some nodes reads what following ids gives. -/
theorem node_entry {input : String → Input} {below : Array Node} (s : NodeSpec)
    (habsent : ∀ i, specOf? specs i = none → input i = .absent i)
    (hpresent : ∀ i k, (specs.map NodeSpec.id).idxOf? i = some k →
      input i = below[k]?.elim (.endless i) .found) :
    (entry (specs.map NodeSpec.id) catalog s).node below = s.node catalog input := by
  simp only [entry, Entry.node, NodeSpec.node, List.map_map, Node.mk.injEq, true_and]
  apply List.map_congr_left
  intro i _
  simp only [Function.comp_apply, link]
  cases htarget : (specs.map NodeSpec.id).idxOf? i with
  | none =>
    have hnone : specOf? specs i = none := by
      rw [List.idxOf?_eq_none_iff, mem_ids_iff] at htarget
      simpa using htarget
    rw [habsent i hnone]
  | some k =>
    rw [hpresent i k htarget]
    cases hbelow : below[k]? <;> simp [hbelow]

/-- The nodes of wired entries are those that following ids gives. -/
theorem find?_unfoldTo (depth : Nat) (id : String) :
    (unfoldTo (specs.map (entry (specs.map NodeSpec.id) catalog)) depth).find?
        (fun n => n.id = id) =
      (specOf? specs id).map (NodeSpec.node catalog (inputTo specs catalog depth)) := by
  -- the nodes below matter only where an id stands for one of them
  have hstep (depth : Nat) (hpresent : ∀ i k, (specs.map NodeSpec.id).idxOf? i = some k →
      inputTo specs catalog depth i =
        (unfoldBelow (specs.map (entry (specs.map NodeSpec.id) catalog)) depth)[k]?.elim
          (.endless i) .found) (id : String) :
      (unfoldTo (specs.map (entry (specs.map NodeSpec.id) catalog)) depth).find?
          (fun n => n.id = id) =
        (specOf? specs id).map (NodeSpec.node catalog (inputTo specs catalog depth)) := by
    have habsent : ∀ i, specOf? specs i = none → inputTo specs catalog depth i = .absent i := by
      intro i hi
      cases depth <;> simp [inputTo, hi]
    rw [unfoldTo_eq_map, List.map_map, List.find?_map]
    exact congrArg (Option.map · (specOf? specs id))
      (funext fun s => node_entry specs catalog s habsent hpresent)
  have hsome {i : String} {k : Nat} (hk : (specs.map NodeSpec.id).idxOf? i = some k) :
      ∃ s, specOf? specs i = some s := by
    have hmem : i ∈ specs.map NodeSpec.id := by
      by_contra hmem
      rw [List.idxOf?_eq_none_iff.mpr hmem] at hk
      cases hk
    exact Option.isSome_iff_exists.mp (mem_ids_iff.mp hmem)
  induction depth generalizing id with
  | zero =>
    refine hstep 0 (fun i k hk => ?_) id
    obtain ⟨s, hs⟩ := hsome hk
    simp [inputTo, hs, unfoldBelow]
  | succ depth ih =>
    refine hstep (depth + 1) (fun i k hk => ?_) id
    obtain ⟨s, hs⟩ := hsome hk
    rw [unfoldBelow, List.getElem?_toArray, getElem?_unfoldTo_of_idxOf? specs catalog hk, ih i]
    simp [inputTo, hs]

end Unfolding

/-- A node of a wired graph, by following ids. -/
theorem node_of_build {d : Dialect} {g : Graph} {notes : List BuildNote}
    (h : build specs catalog d = .ok (g, notes)) (id : String) :
    g.node id = Outcome.ofOption (.unknownNode id)
      ((specOf? specs id).map (NodeSpec.node catalog (inputTo specs catalog specs.length))) := by
  obtain ⟨_, rfl⟩ := exists_build_iff.mp ⟨notes, h⟩
  rw [node, nodes, List.length_map, find?_unfoldTo]

section Agreement

/-- Lists that agree below an id unfold it alike. -/
theorem inputTo_of_agreeBelow (h : AgreeBelow specs₁ specs₂ id) (depth : Nat) :
    inputTo specs₁ catalog depth id = inputTo specs₂ catalog depth id := by
  induction depth generalizing id with
  | zero => simp only [inputTo, h id .refl]
  | succ depth ih =>
    have hid := h id .refl
    simp only [inputTo, ← hid]
    cases hs : specOf? specs₁ id with
    | none => rfl
    | some s =>
      simp only [NodeSpec.node, Input.found.injEq, Node.mk.injEq, true_and]
      exact List.map_congr_left fun i hi => ih (h.input hs hi)

open Classical in
/-- The ids that stand for a node and that `id` leads to, itself included. -/
noncomputable def declaredBelow (specs : List NodeSpec) (id : String) : Finset String :=
  (specs.map NodeSpec.id).toFinset.filter (ReflTransGen (Declares specs) id)

theorem mem_declaredBelow {k : String} :
    k ∈ declaredBelow specs id ↔
      (specOf? specs k).isSome ∧ ReflTransGen (Declares specs) id k := by
  classical
  rw [declaredBelow, Finset.mem_filter, List.mem_toFinset, mem_ids_iff]

theorem card_declaredBelow_le (h : AgreeBelow specs₁ specs₂ id) :
    (declaredBelow specs₁ id).card ≤ specs₂.length := by
  have hsub : declaredBelow specs₁ id ⊆ (specs₂.map NodeSpec.id).toFinset := by
    intro k hk
    obtain ⟨hsome, hreach⟩ := mem_declaredBelow.mp hk
    rw [List.mem_toFinset, mem_ids_iff, ← h k hreach]
    exact hsome
  calc (declaredBelow specs₁ id).card
      ≤ (specs₂.map NodeSpec.id).toFinset.card := Finset.card_le_card hsub
    _ ≤ (specs₂.map NodeSpec.id).length := List.toFinset_card_le _
    _ = specs₂.length := List.length_map _

theorem card_declaredBelow_lt (h : AcyclicBelow specs id) {s : NodeSpec}
    (hs : specOf? specs id = some s) {i : String} (hi : i ∈ s.inputs) :
    (declaredBelow specs i).card < (declaredBelow specs id).card := by
  have hdeclares : Declares specs id i := ⟨s, hs, hi⟩
  apply Finset.card_lt_card
  rw [Finset.ssubset_iff_of_subset]
  · refine ⟨id, mem_declaredBelow.mpr ⟨by simp [hs], .refl⟩, fun hid => ?_⟩
    exact h id .refl (TransGen.head' hdeclares (mem_declaredBelow.mp hid).2)
  · intro k hk
    obtain ⟨hsome, hreach⟩ := mem_declaredBelow.mp hk
    exact mem_declaredBelow.mpr ⟨hsome, .head hdeclares hreach⟩

/-- An unfolding as deep as there are nodes below does not change any more. -/
theorem inputTo_succ (h : AcyclicBelow specs id) {depth : Nat}
    (hdepth : (declaredBelow specs id).card ≤ depth) :
    inputTo specs catalog (depth + 1) id = inputTo specs catalog depth id := by
  induction depth generalizing id with
  | zero =>
    -- a declared id would count itself
    have hnone : specOf? specs id = none := by
      by_contra hsome
      have hmem : id ∈ declaredBelow specs id :=
        mem_declaredBelow.mpr ⟨Option.isSome_iff_ne_none.mpr hsome, .refl⟩
      have hpos := Finset.card_pos.mpr ⟨id, hmem⟩
      omega
    simp [inputTo, hnone]
  | succ depth ih =>
    rw [inputTo, inputTo]
    cases hs : specOf? specs id with
    | none => rfl
    | some s =>
      simp only [NodeSpec.node, Input.found.injEq, Node.mk.injEq, true_and]
      apply List.map_congr_left
      intro i hi
      have hlt := card_declaredBelow_lt h hs hi
      exact ih (h.input hs hi) (by omega)

theorem inputTo_of_le (h : AcyclicBelow specs id) {depth : Nat}
    (hdepth : (declaredBelow specs id).card ≤ depth) :
    inputTo specs catalog depth id =
      inputTo specs catalog (declaredBelow specs id).card id := by
  induction depth, hdepth using Nat.le_induction with
  | base => rfl
  | succ depth hle ih => rw [inputTo_succ h hle, ih]

/-- Lists that agree below an id have the same node there. -/
theorem node_of_agreeBelow {d : Dialect} {g₁ g₂ : Graph} {notes₁ notes₂ : List BuildNote}
    (hb₁ : build specs₁ catalog d = .ok (g₁, notes₁))
    (hb₂ : build specs₂ catalog d = .ok (g₂, notes₂)) (ha : AcyclicBelow specs₁ id)
    (h : AgreeBelow specs₁ specs₂ id) : g₁.node id = g₂.node id := by
  have hinput {s : NodeSpec} (hs : specOf? specs₁ id = some s) {i : String} (hi : i ∈ s.inputs) :
      inputTo specs₁ catalog specs₁.length i = inputTo specs₂ catalog specs₂.length i := by
    have ha := ha.input hs hi
    have h := h.input hs hi
    have hself : AgreeBelow specs₁ specs₁ i := fun _ _ => rfl
    rw [← inputTo_of_agreeBelow h, inputTo_of_le ha (card_declaredBelow_le hself),
      inputTo_of_le ha (card_declaredBelow_le h)]
  rw [node_of_build hb₁, node_of_build hb₂, ← h id .refl]
  cases hs : specOf? specs₁ id with
  | none => rfl
  | some s =>
    simp only [Option.map_some, NodeSpec.node]
    rw [List.map_congr_left fun i hi => hinput hs hi]

end Agreement

end Graph

namespace Node

variable {d : Dialect} {s : Strategy}

theorem prepend_congr {block block' : Node → Blocks → Outcome (List Node × Blocks)}
    {ns : List Node} (h : ∀ m ∈ ns, ∀ known, block m known = block' m known)
    (order : List Node) (known : Blocks) :
    prepend block ns order known = prepend block' ns order known := by
  induction ns generalizing order known with
  | nil => rfl
  | cons n ns ih =>
    rw [prepend, prepend, h n (by simp)]
    congr 1
    funext r
    exact ih (fun m hm => h m (by simp [hm])) _ _

/-- Two depths that no chain of inputs exceeds make no difference, not even to a failure. -/
theorem frontBlock_of_within {depth depth' : Nat} {n : Node} (h : n.Within depth)
    (h' : n.Within depth') (known : Blocks) :
    frontBlock d s depth n known = frontBlock d s depth' n known := by
  induction depth generalizing depth' n known with
  | zero => exact h.elim
  | succ depth ih =>
    cases depth' with
    | zero => exact h'.elim
    | succ depth' =>
      rw [frontBlock, frontBlock]
      split
      · rfl
      · apply Outcome.bind_congr
        intro ds hds
        rw [prepend_congr fun m hm => ih (within_of_mem_dependencies h hds m hm)
          (within_of_mem_dependencies h' hds m hm)]

theorem dependencyOrder_of_within {depth depth' : Nat} {target : Node}
    (h : target.Within (depth + 1)) (h' : target.Within (depth' + 1)) :
    target.dependencyOrder d s depth = target.dependencyOrder d s depth' := by
  rw [dependencyOrder, dependencyOrder]
  apply Outcome.bind_congr
  intro ds hds
  rw [prepend_congr fun m hm => frontBlock_of_within (within_of_mem_dependencies h hds m hm)
    (within_of_mem_dependencies h' hds m hm)]

theorem fetch_of_within {depth depth' : Nat} {target : Node} (h : target.Within (depth + 1))
    (h' : target.Within (depth' + 1)) (page : Option Page) :
    target.fetch d s depth page = target.fetch d s depth' page := by
  rw [fetch, fetch, dependencyOrder_of_within h h']

theorem count_of_within {depth depth' : Nat} {target : Node} (h : target.Within (depth + 1))
    (h' : target.Within (depth' + 1)) : target.count d s depth = target.count d s depth' := by
  rw [count, count, dependencyOrder_of_within h h']

end Node

namespace Graph

/-- Two graphs answer alike whatever is asked about an id, down to the error and the warnings. -/
structure SameAnswers (g₁ g₂ : Graph) (id : String) : Prop where
  fetch : ∀ s page, (g₁.withStrategy s).fetchStatement id page =
    (g₂.withStrategy s).fetchStatement id page
  count : ∀ s, (g₁.withStrategy s).countStatement id = (g₂.withStrategy s).countStatement id
  projection : (g₁.node id >>= fun n => n.projection g₁.dialect) =
    (g₂.node id >>= fun n => n.projection g₂.dialect)
  sortKey : (g₁.node id >>= fun n => n.sortKey g₁.dialect) =
    (g₂.node id >>= fun n => n.sortKey g₂.dialect)
  isConfigured : (g₁.node id >>= fun n => n.isConfigured g₁.dialect) =
    (g₂.node id >>= fun n => n.isConfigured g₂.dialect)
  query : ∀ s, (g₁.node id >>= fun n => n.query g₁.dialect s) =
    (g₂.node id >>= fun n => n.query g₂.dialect s)
  dependencies : ∀ s, (g₁.node id >>= fun n => n.dependencies g₁.dialect s) =
    (g₂.node id >>= fun n => n.dependencies g₂.dialect s)
  dependencyOrder : ∀ s, (g₁.node id >>= fun n => n.dependencyOrder g₁.dialect s g₁.size) =
    (g₂.node id >>= fun n => n.dependencyOrder g₂.dialect s g₂.size)

variable {specs specs₁ specs₂ : List NodeSpec} {catalog : Catalog} {id : String}

/-- Who has the same node under an id answers alike: no answer looks at anything else. -/
theorem sameAnswers_of_node {g₁ g₂ : Graph} (hd : g₁.dialect = g₂.dialect)
    (h : g₁.node id = g₂.node id) : SameAnswers g₁ g₂ id := by
  have hwithin {n : Node} (hn : (g₁.node id).result = .ok n) :
      n.Within (g₁.size + 1) ∧ n.Within (g₂.size + 1) :=
    ⟨within_of_mem_nodes (mem_nodes_of_node hn),
      within_of_mem_nodes (mem_nodes_of_node (h ▸ hn))⟩
  have hask {α : Type} {f₁ f₂ : Node → Outcome α}
      (hf : ∀ n, n.Within (g₁.size + 1) → n.Within (g₂.size + 1) → f₁ n = f₂ n) :
      g₁.node id >>= f₁ = g₂.node id >>= f₂ := by
    rw [← h]
    exact Outcome.bind_congr fun n hn => hf n (hwithin hn).1 (hwithin hn).2
  obtain ⟨d, strategy₁, entries₁⟩ := g₁
  obtain ⟨_, strategy₂, entries₂⟩ := g₂
  subst hd
  exact {
    fetch := fun s page => hask fun n h₁ h₂ =>
      congrArg (· >>= fun st => pure (st.sql d)) (Node.fetch_of_within h₁ h₂ page)
    count := fun s => hask fun n h₁ h₂ =>
      congrArg (· >>= fun st => pure (st.sql d)) (Node.count_of_within h₁ h₂)
    projection := hask fun _ _ _ => rfl
    sortKey := hask fun _ _ _ => rfl
    isConfigured := hask fun _ _ _ => rfl
    query := fun _ => hask fun _ _ _ => rfl
    dependencies := fun _ => hask fun _ _ _ => rfl
    dependencyOrder := fun _ => hask fun n h₁ h₂ => Node.dependencyOrder_of_within h₁ h₂ }

theorem specOf?_eq_some_iff (hnodup : (specs.map NodeSpec.id).Nodup) {s : NodeSpec} :
    specOf? specs id = some s ↔ s ∈ specs ∧ s.id = id := by
  constructor
  · intro hs
    exact ⟨List.mem_of_find?_eq_some hs, by simpa using List.find?_some hs⟩
  · rintro ⟨hs, rfl⟩
    cases hfind : specOf? specs s.id with
    | none => simpa using List.find?_eq_none.mp hfind s hs
    | some r =>
      have hid : r.id = s.id := by simpa using List.find?_some hfind
      rw [List.inj_on_of_nodup_map hnodup (List.mem_of_find?_eq_some hfind) hs hid]

/-- Where ids differ, what stands under an id does not depend on the order. -/
theorem specOf?_of_perm (hnodup : (specs₁.map NodeSpec.id).Nodup) (h : specs₁.Perm specs₂)
    (k : String) : specOf? specs₁ k = specOf? specs₂ k := by
  apply Option.ext
  intro s
  rw [specOf?_eq_some_iff hnodup, specOf?_eq_some_iff ((h.map _).nodup_iff.mp hnodup), h.mem_iff]

/-- As long as the inputs of an id do not lead round in a circle, a graph answers for it as any
other one does that has the same nodes where those inputs lead. In particular nodes may be declared
in any order. -/
theorem answers_local {d : Dialect} {g₁ : Graph} {notes₁ : List BuildNote}
    (hb₁ : build specs₁ catalog d = .ok (g₁, notes₁)) (ha : AcyclicBelow specs₁ id) :
    (∀ specs₂ g₂ notes₂, build specs₂ catalog d = .ok (g₂, notes₂) →
      AgreeBelow specs₁ specs₂ id → SameAnswers g₁ g₂ id) ∧
    ∀ specs₂, specs₁.Perm specs₂ →
      ∃ g₂ notes₂, build specs₂ catalog d = .ok (g₂, notes₂) ∧ SameAnswers g₁ g₂ id := by
  have hdialect {specs : List NodeSpec} {g : Graph} {notes : List BuildNote}
      (hb : build specs catalog d = .ok (g, notes)) : g.dialect = d := by
    obtain ⟨_, rfl⟩ := exists_build_iff.mp ⟨notes, hb⟩
    rfl
  have hagree (specs₂ : List NodeSpec) (g₂ : Graph) (notes₂ : List BuildNote)
      (hb₂ : build specs₂ catalog d = .ok (g₂, notes₂)) (h : AgreeBelow specs₁ specs₂ id) :
      SameAnswers g₁ g₂ id :=
    sameAnswers_of_node ((hdialect hb₁).trans (hdialect hb₂).symm)
      (node_of_agreeBelow hb₁ hb₂ ha h)
  refine ⟨hagree, fun specs₂ hperm => ?_⟩
  have hnodup := (exists_build_iff.mp ⟨notes₁, hb₁⟩).1
  obtain ⟨notes₂, hb₂⟩ := exists_build_iff.mpr ⟨(hperm.map _).nodup_iff.mp hnodup, rfl⟩
  exact ⟨_, notes₂, hb₂, hagree _ _ _ hb₂ fun k _ => specOf?_of_perm hnodup hperm k⟩

/-- Ids listed so that every input stands behind the ids that declare it. -/
theorem reaches_of_listed {ids : List String} (hid : id ∈ ids)
    (h : ∀ a ∈ ids, ∀ s ∈ specOf? specs a, ∀ b ∈ s.inputs, b ∈ ids ∧ ids.idxOf a < ids.idxOf b) :
    (∀ k, ReflTransGen (Declares specs) id k → k ∈ ids) ∧ AcyclicBelow specs id := by
  have hmem : ∀ k, ReflTransGen (Declares specs) id k → k ∈ ids := by
    intro k hk
    induction hk with
    | refl => exact hid
    | tail _ hdeclares ih =>
      obtain ⟨s, hs, hb⟩ := hdeclares
      exact (h _ ih s hs _ hb).1
  refine ⟨hmem, fun k hk hcycle => ?_⟩
  have hlater : ∀ j, TransGen (Declares specs) k j → j ∈ ids ∧ ids.idxOf k < ids.idxOf j := by
    intro j hj
    induction hj with
    | single hdeclares =>
      obtain ⟨s, hs, hb⟩ := hdeclares
      exact h _ (hmem k hk) s hs _ hb
    | tail _ hdeclares ih =>
      obtain ⟨s, hs, hb⟩ := hdeclares
      obtain ⟨hj, hlt⟩ := h _ ih.1 s hs _ hb
      exact ⟨hj, ih.2.trans hlt⟩
  exact Nat.lt_irrefl _ (hlater k hcycle).2

/-- A filter that declares one input too many, and a node that reads it. -/
def nearSpecs : List NodeSpec :=
  [⟨"orders", [], .tableSource ⟨some "orders"⟩⟩,
    ⟨"kept", ["orders", "gone"], .filter ⟨some 1, some .isNotEmpty, none, false⟩⟩,
    ⟨"other", ["kept"], .sort ⟨[1], []⟩⟩]

/-- The same filter in other surroundings: a node that reads itself, and a different reader. -/
def farSpecs : List NodeSpec :=
  [⟨"loop", ["loop"], .append ⟨false⟩⟩,
    ⟨"kept", ["orders", "gone"], .filter ⟨some 1, some .isNotEmpty, none, false⟩⟩,
    ⟨"other", ["loop", "kept"], .append ⟨true⟩⟩,
    ⟨"orders", [], .tableSource ⟨some "orders"⟩⟩]

/-- Both graphs have an answer with one strategy and the same error with the other. -/
theorem answers_local_kept :
    ∃ near notes₁ far notes₂, build nearSpecs diamondCatalog .postgreSql = .ok (near, notes₁) ∧
      build farSpecs diamondCatalog .postgreSql = .ok (far, notes₂) ∧ SameAnswers near far "kept" ∧
      (∃ g notes, build nearSpecs.reverse diamondCatalog .postgreSql = .ok (g, notes) ∧
        SameAnswers near g "kept") ∧
      (∃ sql, ((far.withStrategy .inline).countStatement "kept").result = .ok sql) ∧
      ((far.withStrategy .commonTableExpressions).countStatement "kept").result =
        .error (.unknownInput "kept" "gone") := by
  obtain ⟨hmem, hacyclic⟩ :=
    @reaches_of_listed nearSpecs "kept" ["kept", "orders", "gone"] (by decide) (by decide)
  have hagree : AgreeBelow nearSpecs farSpecs "kept" := by
    intro k hk
    have hsame : ∀ k ∈ ["kept", "orders", "gone"],
        specOf? nearSpecs k = specOf? farSpecs k := by decide
    exact hsame k (hmem k hk)
  have hnear : build nearSpecs diamondCatalog .postgreSql = .ok (_, _) := rfl
  have hfar : build farSpecs diamondCatalog .postgreSql = .ok (_, _) := rfl
  obtain ⟨hlocal, hperm⟩ := answers_local hnear hacyclic
  exact ⟨_, _, _, _, hnear, hfar, hlocal _ _ _ hfar hagree,
    hperm _ (List.reverse_perm nearSpecs).symm, ⟨_, rfl⟩, rfl⟩

end Graph

end DataflowSql

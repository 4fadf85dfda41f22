import DataflowSql.Proofs.Order

/-! The plain walk over dependencies. It remembers nothing, so it walks on from a node every time it
meets it. Moving whole blocks to the front, each worked out once, comes to the same list, or to the
same error. -/
namespace DataflowSql.Node

/-- Takes a node out of a list, if it is there, and puts it in front. -/
def insertFront (n : Node) (order : List Node) : List Node :=
  n :: order.filter fun m => m.id ≠ n.id

/-- Puts the dependencies of a node in front of a list one after the other, and walks on from each
before the next. -/
def walk (d : Dialect) (s : Strategy) (n : Node) (order : List Node) :
    Except CompileError (List Node) :=
  match _ : (n.dependencies d s).result with
  | .error e => .error e
  | .ok deps => deps.attach.foldlM (fun order m => walk d s m.1 (insertFront m.1 order)) order
termination_by sizeOf n
decreasing_by exact sizeOf_lt_of_transGen_reads (below_of_dependsOn ⟨deps, ‹_›, m.2⟩)

/-- One dependency of a walk. -/
def visit (d : Dialect) (s : Strategy) (order : List Node) (m : Node) :
    Except CompileError (List Node) :=
  m.walk d s (insertFront m order)

variable {d : Dialect} {s : Strategy} {n : Node} {nodes : List Node}

theorem walk_of_error {e : CompileError} (h : (n.dependencies d s).result = .error e)
    (order : List Node) : n.walk d s order = .error e := by
  rw [walk]
  split
  · rename_i e' he'
    rw [h] at he'
    exact he'.symm
  · rename_i deps hdeps
    simp [h] at hdeps

theorem walk_of_ok {deps : List Node} (h : (n.dependencies d s).result = .ok deps)
    (order : List Node) : n.walk d s order = deps.foldlM (visit d s) order := by
  rw [walk]
  split
  · rename_i e he
    simp [h] at he
  · rename_i deps' hdeps
    obtain rfl := Except.ok.inj (h.symm.trans hdeps)
    rw [List.foldlM_subtype (g := visit d s) fun _ _ _ => rfl, List.unattach_attach]

theorem insertFront_eq (n : Node) (order : List Node) :
    insertFront n order = moveToFront [n] order := by
  simp [insertFront, moveToFront, eq_comm]

/-- Moving a block and then another one is moving the two as one block. -/
theorem moveToFront_assoc (a b c : List Node) :
    moveToFront (moveToFront a b) c = moveToFront a (moveToFront b c) := by
  simp only [moveToFront, List.filter_append, List.filter_filter, List.append_assoc,
    List.append_cancel_left_eq]
  refine List.filter_congr fun n _ => ?_
  rw [Bool.eq_iff_iff]
  simp only [List.any_append, Bool.not_or, Bool.and_eq_true, Bool.not_eq_true', List.any_eq_false,
    mem_filter_block, decide_eq_true_eq]
  refine and_congr_right fun ha => ⟨fun hb m hm hid => ?_, fun hb m hm => hb m hm.1⟩
  -- A node of `b` that `a` takes over has an id of `a`.
  exact hb m ⟨hm, fun k hk => hid ▸ ha k hk⟩ hid

/-- What is walked onto the front of a list leaves the end of the list alone. -/
theorem foldlM_visit {deps : List Node}
    (h : ∀ m ∈ deps, ∀ order, visit d s order m = (m.walk d s [m]).map (moveToFront · order))
    (front rest : List Node) :
    deps.foldlM (visit d s) (moveToFront front rest) =
      (deps.foldlM (visit d s) front).map (moveToFront · rest) := by
  induction deps generalizing front with
  | nil => rfl
  | cons m deps ih =>
    rw [List.foldlM_cons, List.foldlM_cons, h m (by simp), h m (by simp)]
    cases m.walk d s [m] with
    | error e => rfl
    | ok b =>
      have hnext := ih (fun k hk => h k (by simp [hk])) (moveToFront b front)
      rw [moveToFront_assoc] at hnext
      exact hnext

/-- The walk from a node always comes to the same block in front of the list. -/
theorem visit_eq (m : Node) (order : List Node) :
    visit d s order m = (m.walk d s [m]).map (moveToFront · order) := by
  induction m using below_induction generalizing order with
  | step m ih =>
    rw [visit, insertFront_eq]
    cases hdeps : (m.dependencies d s).result with
    | error e =>
      rw [walk_of_error hdeps, walk_of_error hdeps]
      rfl
    | ok deps =>
      rw [walk_of_ok hdeps, walk_of_ok hdeps]
      exact foldlM_visit (fun k hk => ih k (below_of_dependsOn ⟨deps, hdeps, hk⟩)) [m] order

/-- Every block in the table is what the walk from its node comes to. -/
def Remembers (d : Dialect) (s : Strategy) (nodes : List Node) (known : Blocks) : Prop :=
  ∀ e ∈ known, ∃ n ∈ nodes, n.id = e.1 ∧ n.walk d s [n] = .ok e.2

/-- Work with the table gives this list or this error, and leaves a right table. -/
structure Matches (d : Dialect) (s : Strategy) (nodes : List Node)
    (x : Outcome (List Node × Blocks)) (y : Except CompileError (List Node)) : Prop where
  result : x.result.map Prod.fst = y
  remembers : ∀ b known, x.result = .ok (b, known) → Remembers d s nodes known

theorem matches_ok {b : List Node} {known : Blocks} (h : Remembers d s nodes known) :
    Matches d s nodes (Outcome.ok (b, known)) (.ok b) where
  result := rfl
  remembers b' known' hok := by
    rw [Outcome.ok_eq_ok, Prod.mk.injEq] at hok
    exact hok.2 ▸ h

theorem matches_of_error {x : Outcome (List Node × Blocks)} {e : CompileError}
    (h : x.result = .error e) : Matches d s nodes x (.error e) where
  result := by rw [h]; rfl
  remembers b known hok := by simp [h] at hok

theorem Matches.of_result {x x' : Outcome (List Node × Blocks)}
    {y : Except CompileError (List Node)} (hx : Matches d s nodes x y)
    (h : x'.result = x.result) : Matches d s nodes x' y where
  result := h ▸ hx.result
  remembers := h ▸ hx.remembers

theorem Matches.bind {x : Outcome (List Node × Blocks)} {y : Except CompileError (List Node)}
    {f : List Node × Blocks → Outcome (List Node × Blocks)}
    {k : List Node → Except CompileError (List Node)} (hx : Matches d s nodes x y)
    (hf : ∀ b known, Remembers d s nodes known → y = .ok b →
      Matches d s nodes (f (b, known)) (k b)) :
    Matches d s nodes (x >>= f) (y >>= k) := by
  obtain ⟨rfl, hremembers⟩ := hx
  cases hres : x.result with
  | error e =>
    exact matches_of_error (Outcome.bind_eq_error.mpr (.inl hres))
  | ok p =>
    obtain ⟨hresult, hnext⟩ := hf p.1 p.2 (hremembers p.1 p.2 hres) (by rw [hres]; rfl)
    refine ⟨?_, fun b known hok => hnext b known ?_⟩
    · rw [Outcome.result_bind_of_ok hres]
      exact hresult
    · rwa [Outcome.result_bind_of_ok hres] at hok

/-- Blocks that match moved to the front one after the other are the plain walk. -/
theorem prepend_matches {block : Node → Blocks → Outcome (List Node × Blocks)} {deps : List Node}
    (hblock : ∀ m ∈ deps, ∀ known, Remembers d s nodes known →
      Matches d s nodes (block m known) (m.walk d s [m]))
    {known : Blocks} (hknown : Remembers d s nodes known) (order : List Node) :
    Matches d s nodes (prepend block deps order known) (deps.foldlM (visit d s) order) := by
  induction deps generalizing order known with
  | nil => exact matches_ok hknown
  | cons m deps ih =>
    have hwalk : visit d s order m = m.walk d s [m] >>= fun b => .ok (moveToFront b order) := by
      rw [visit_eq]
      rfl
    rw [prepend, List.foldlM_cons, hwalk, bind_assoc]
    refine (hblock m (by simp) known hknown).bind fun b known' hknown' _ => ?_
    exact ih (fun k hk => hblock k (by simp [hk])) hknown' (moveToFront b order)

/-- The block of a node, looked up or worked out, is what the walk from the node comes to. -/
theorem frontBlock_matches (hc : Complete nodes) {depth : Nat} {n : Node} (hn : n ∈ nodes)
    (hw : n.Within depth) {known : Blocks} (hknown : Remembers d s nodes known) :
    Matches d s nodes (frontBlock d s depth n known) (n.walk d s [n]) := by
  induction depth generalizing n known with
  | zero => exact hw.elim
  | succ depth ih =>
    rw [frontBlock]
    cases hlookup : known.lookup n.id with
    | some block =>
      obtain ⟨_, _, hsplit, _⟩ := List.lookup_eq_some_iff.mp hlookup
      obtain ⟨m, hm, hid, hwalk⟩ := hknown (n.id, block) (by simp [hsplit])
      obtain rfl := hc.eq_of_id m hm n hn hid
      rw [hwalk]
      exact matches_ok hknown
    | none =>
      cases hdeps : (n.dependencies d s).result with
      | error e =>
        rw [walk_of_error hdeps]
        exact matches_of_error (Outcome.bind_eq_error.mpr (.inl hdeps))
      | ok deps =>
        have hbelow : ∀ m ∈ deps, ∀ known, Remembers d s nodes known →
            Matches d s nodes (frontBlock d s depth m known) (m.walk d s [m]) :=
          fun m hm _ => ih (dependencies_subset hc hn hdeps hm)
            (within_of_mem_dependencies hw hdeps m hm)
        rw [walk_of_ok hdeps, ← bind_pure (deps.foldlM (visit d s) [n])]
        refine ((prepend_matches hbelow hknown [n]).bind fun b known' hknown' hb => ?_).of_result
          (Outcome.result_bind_of_ok hdeps _)
        refine matches_ok fun e he => ?_
        rcases List.mem_cons.mp he with rfl | he
        · exact ⟨n, hn, rfl, (walk_of_ok hdeps [n]).trans hb⟩
        · exact hknown' e he

end DataflowSql.Node

namespace DataflowSql.Graph

/-- In a graph without cycles, moving remembered blocks gives the list of the plain walk, or its
error. -/
theorem dependencyOrder_eq_walk {specs : List NodeSpec} {catalog : Catalog} {d : Dialect}
    {g : Graph} {notes : List BuildNote} (hb : build specs catalog d = .ok (g, notes))
    (ha : g.Acyclic) (s : Strategy) (id : String) {target : Node}
    (ht : (g.node id).result = .ok target) :
    (target.dependencyOrder g.dialect s g.size).result = target.walk g.dialect s [] := by
  have hc := nodes_complete hb ha
  have htarget := mem_nodes_of_node ht
  rw [Node.dependencyOrder]
  cases hdeps : (target.dependencies g.dialect s).result with
  | error e =>
    rw [Node.walk_of_error hdeps]
    exact Outcome.bind_eq_error.mpr (.inl hdeps)
  | ok deps =>
    have hblock : ∀ m ∈ deps, ∀ known, Node.Remembers g.dialect s g.nodes known →
        Node.Matches g.dialect s g.nodes (Node.frontBlock g.dialect s g.size m known)
          (m.walk g.dialect s [m]) :=
      fun m hm _ => Node.frontBlock_matches hc (Node.dependencies_subset hc htarget hdeps hm)
        (Node.within_of_mem_dependencies (within_of_mem_nodes htarget) hdeps m hm)
    have hmatch := Node.prepend_matches hblock (fun e he => absurd he List.not_mem_nil) []
    rw [Node.walk_of_ok hdeps, Outcome.result_bind_of_ok hdeps, ← hmatch.result]
    exact Outcome.result_bind_pure _ Prod.fst

/-- The walk comes to the sorted table twice, and leaves it once. -/
theorem walk_diamond :
    ∃ target order, (diamond.node "joined").result = .ok target ∧
      target.walk .postgreSql .commonTableExpressions [] = .ok order ∧
      order.map Node.id = ["orders", "sorted", "right", "left"] := by
  have hwalk := dependencyOrder_eq_walk build_diamond acyclic_diamond .commonTableExpressions
    "joined" rfl
  exact ⟨_, _, rfl, hwalk.symm.trans rfl, rfl⟩

end DataflowSql.Graph

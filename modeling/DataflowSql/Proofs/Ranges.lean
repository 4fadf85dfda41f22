import DataflowSql.Proofs.Names
import DataflowSql.Proofs.Scope
import DataflowSql.Proofs.Splicing

/-! Ranges of a join. A join takes over the ranges of both inputs where they have none in common;
else it reads its second input as a whole under one new range. So a range is repeated only where a
join that is taken over finds its new range among those of its first input. -/
namespace DataflowSql

open Relation Sql

namespace Join

variable {id range : String} {left right : List String}

theorem rename?_eq_some (h : rename? id left right = some range) : range = rightRange id := by
  unfold rename? at h
  split at h
  · exact (Option.some.inj h).symm
  · simp at h

theorem disjoint_of_rename?_eq_none (h : rename? id left right = none) : left.Disjoint right := by
  unfold rename? at h
  split at h
  · simp at h
  · rename_i hany
    intro x hleft hright
    exact hany (List.any_eq_true.mpr ⟨x, hright, decide_eq_true hleft⟩)

end Join

namespace Node

variable {n l r : Node} {rs ls qs : List String}

theorem isJoinClause_iff :
    n.isJoinClause = true ↔ ∃ j, n.operation = .join j ∧ j.joinType.shape?.isSome = true := by
  unfold isJoinClause
  cases n.operation <;> simp

theorem renameRight?_eq_ok (hl : l.ranges.result = .ok ls) (hr : r.ranges.result = .ok qs)
    {id : String} {range : Option String} :
    (renameRight? id l r).result = .ok range ↔ Join.rename? id ls qs = range := by
  simp only [renameRight?, Outcome.bind_eq_ok, Outcome.pure_eq_ok, hl, hr, Except.ok.injEq,
    exists_eq_left']

/-- The ranges of a join of one clause. -/
theorem ranges_of_join (hn : n.isJoinClause = true) (h : n.ranges.result = .ok rs) :
    ∃ l r ls qs, (n.input 0).result = .ok l ∧ (n.input 1).result = .ok r ∧
      l.ranges.result = .ok ls ∧ r.ranges.result = .ok qs ∧
      rs = ls ++ (Join.rename? n.id ls qs).elim qs fun range => [range] := by
  obtain ⟨j, hop, hshape⟩ := isJoinClause_iff.mp hn
  rw [ranges_eq] at h
  simp only [hop, if_pos hshape, Outcome.bind_eq_ok, Outcome.pure_eq_ok] at h
  obtain ⟨l, hl, ls, hls, r, hr, qs, hqs, rfl⟩ := h
  exact ⟨l, r, ls, qs, hl, hr, hls, hqs, rfl⟩

/-- Any other node has one range, that of its table or its name. -/
theorem ranges_of_not_join (hn : n.isJoinClause = false) (h : n.ranges.result = .ok rs) :
    rs = [tableRange n.id] ∨ rs = [n.name] := by
  rw [ranges_eq] at h
  cases hop : n.operation with
  | tableSource t =>
    rw [hop, Outcome.ok_eq_ok] at h
    exact .inl h.symm
  | join j =>
    have hshape : ¬ j.joinType.shape?.isSome = true := by simpa [isJoinClause, hop] using hn
    simp only [hop, if_neg hshape, Outcome.ok_eq_ok] at h
    exact .inr h.symm
  | _ =>
    rw [hop, Outcome.ok_eq_ok] at h
    exact .inr h.symm

/-- The ranges of `m` are among those of `n`, which takes its source over. -/
inductive Splices (n : Node) : Node → Prop
  | left {l : Node} (clause : n.isJoinClause = true) (first : (n.input 0).result = .ok l) :
      Splices n l
  | right {l r : Node} (clause : n.isJoinClause = true) (first : (n.input 0).result = .ok l)
      (second : (n.input 1).result = .ok r)
      (kept : (renameRight? n.id l r).result = .ok none) : Splices n r

/-- If the node gives its second input a new range, no range of the first input is called so. -/
def RenamesApart (n : Node) : Prop :=
  ∀ l r range ls, n.isJoinClause = true → (n.input 0).result = .ok l → (n.input 1).result = .ok r →
    (renameRight? n.id l r).result = .ok (some range) → l.ranges.result = .ok ls → range ∉ ls

theorem reads_of_splices {m : Node} (h : n.Splices m) : n.Reads m := by
  cases h with
  | left _ first => exact reads_of_input first
  | right _ _ second _ => exact reads_of_input second

/-- The nodes taken over by a node: itself, and what its inputs take over. -/
theorem forall_spliced_iff {P : Node → Prop} :
    (∀ k, ReflTransGen Splices n k → P k) ↔
      P n ∧ ∀ m, n.Splices m → ∀ k, ReflTransGen Splices m k → P k := by
  constructor
  · intro h
    exact ⟨h n .refl, fun m hm k hk => h k (.head hm hk)⟩
  · intro h k hk
    rcases ReflTransGen.cases_head hk with rfl | ⟨m, hm, hk⟩
    · exact h.1
    · exact h.2 m hm k hk

theorem splices_iff (hn : n.isJoinClause = true) (hl : (n.input 0).result = .ok l)
    (hr : (n.input 1).result = .ok r) {m : Node} :
    n.Splices m ↔ m = l ∨ m = r ∧ (renameRight? n.id l r).result = .ok none := by
  constructor
  · intro h
    cases h with
    | left _ first => exact .inl (Outcome.result_unique first hl)
    | right _ first second kept =>
      obtain rfl := Outcome.result_unique first hl
      obtain rfl := Outcome.result_unique second hr
      exact .inr ⟨rfl, kept⟩
  · rintro (rfl | ⟨rfl, kept⟩)
    · exact .left hn hl
    · exact .right hn hl hr kept

theorem renamesApart_iff (hn : n.isJoinClause = true) (hl : (n.input 0).result = .ok l)
    (hr : (n.input 1).result = .ok r) (hls : l.ranges.result = .ok ls) :
    n.RenamesApart ↔
      ∀ range, (renameRight? n.id l r).result = .ok (some range) → range ∉ ls := by
  constructor
  · intro h range hrange
    exact h l r range ls hn hl hr hrange hls
  · intro h l' r' range ls' _ hl' hr' hrange hls'
    obtain rfl := Outcome.result_unique hl hl'
    obtain rfl := Outcome.result_unique hr hr'
    obtain rfl := Outcome.result_unique hls hls'
    exact h range hrange

/-- A node that is no join of one clause takes nothing over and renames nothing. -/
theorem renamesApart_of_not_join (hn : n.isJoinClause = false) :
    ∀ k, ReflTransGen Splices n k → k.RenamesApart := by
  refine forall_spliced_iff.mpr ⟨?_, ?_⟩
  · intro l r range ls hclause
    simp [hn] at hclause
  · intro m hm
    cases hm with
    | left clause _ => simp [hn] at clause
    | right clause _ _ _ => simp [hn] at clause

/-- A node has different ranges exactly where every new range in what it takes over is new. -/
theorem nodup_ranges_iff (h : n.ranges.result = .ok rs) :
    rs.Nodup ↔ ∀ k, ReflTransGen Splices n k → k.RenamesApart := by
  induction n using reads_induction generalizing rs with
  | step n ih =>
    cases hn : n.isJoinClause with
    | false =>
      refine iff_of_true ?_ (renamesApart_of_not_join hn)
      rcases ranges_of_not_join hn h with rfl | rfl <;> simp
    | true =>
      obtain ⟨l, r, ls, qs, hl, hr, hls, hqs, rfl⟩ := ranges_of_join hn h
      have hleft := ih l (reads_of_input hl) hls
      have hright := ih r (reads_of_input hr) hqs
      rw [forall_spliced_iff, renamesApart_iff hn hl hr hls]
      simp only [splices_iff hn hl hr, renameRight?_eq_ok hls hqs]
      cases hrename : Join.rename? n.id ls qs with
      | some range =>
        -- the second input adds the new range only, so just the first is taken over
        rw [Option.elim_some, ← List.concat_eq_append, List.nodup_concat, hleft]
        simp
      | none =>
        have hdisjoint := Join.disjoint_of_rename?_eq_none hrename
        rw [Option.elim_none, List.nodup_append', hleft, hright]
        simp [hdisjoint, or_imp, forall_and]

/-- Every range is that of a table, the name of a node or the new range of a join. -/
theorem origin_of_mem_ranges (h : n.ranges.result = .ok rs) {x : String} (hx : x ∈ rs) :
    ∃ m, ReflTransGen Reads n m ∧ (x = tableRange m.id ∨ x = m.name ∨ x = rightRange m.id) := by
  induction n using reads_induction generalizing rs with
  | step n ih =>
    cases hn : n.isJoinClause with
    | false =>
      refine ⟨n, .refl, ?_⟩
      rcases ranges_of_not_join hn h with rfl | rfl
      · exact .inl (List.mem_singleton.mp hx)
      · exact .inr (.inl (List.mem_singleton.mp hx))
    | true =>
      obtain ⟨l, r, ls, qs, hl, hr, hls, hqs, rfl⟩ := ranges_of_join hn h
      rcases List.mem_append.mp hx with hx | hx
      · obtain ⟨m, hm, hx⟩ := ih l (reads_of_input hl) hls hx
        exact ⟨m, .head (reads_of_input hl) hm, hx⟩
      · cases hrename : Join.rename? n.id ls qs with
        | none =>
          rw [hrename] at hx
          obtain ⟨m, hm, hx⟩ := ih r (reads_of_input hr) hqs hx
          exact ⟨m, .head (reads_of_input hr) hm, hx⟩
        | some range =>
          rw [hrename, Option.elim_some, List.mem_singleton] at hx
          exact ⟨n, .refl, .inr (.inr (hx.trans (Join.rename?_eq_some hrename)))⟩

theorem rightRange_ne_tableRange (v w : String) : rightRange v ≠ tableRange w := by
  intro h
  have hlast := congrArg (fun u => u.toList.getLast?) h
  simp [rightRange, tableRange] at hlast

/-- Where ids are plain names that do not end as new ranges do, a new range is new. -/
theorem renamesApart_of_plainIds {nodes : List Node} (hc : Complete nodes)
    (hplain : PlainIds nodes "_rhs") (hn : n ∈ nodes) : n.RenamesApart := by
  intro l r range ls _ hl _ hrename hls hmem
  simp only [renameRight?, Outcome.bind_eq_ok, Outcome.pure_eq_ok] at hrename
  obtain ⟨_, _, _, _, hrename⟩ := hrename
  obtain rfl := Join.rename?_eq_some hrename
  obtain ⟨m, hlm, horigin⟩ := origin_of_mem_ranges hls hmem
  -- the range comes from below, so not from the join itself
  have hbelow : TransGen Reads n m := .head' (reads_of_input hl) hlm
  have hm := hc.mem_of_transGen hn hbelow
  rcases horigin with h | h | h
  · exact rightRange_ne_tableRange _ _ h
  · exact hplain.name_ne hm hn h.symm
  · obtain rfl := hplain.injOn_name hc hn hm ((String.append_left_inj _).mp h)
    exact Nat.lt_irrefl _ (sizeOf_lt_of_transGen_reads hbelow)

end Node

namespace Graph

/-- In a graph without cycles, the ranges of a node differ exactly where every join in what it takes
over either keeps the ranges of its second input or finds its new range unused by the first. If all
ids are plain names that do not end as new ranges do, they always differ. -/
theorem ranges_nodup_iff {specs : List NodeSpec} {catalog : Catalog} {d : Dialect} {g : Graph}
    {notes : List BuildNote} (hb : build specs catalog d = .ok (g, notes)) (ha : g.Acyclic)
    {n : Node} (hn : n ∈ g.nodes) {rs : List String} (h : n.ranges.result = .ok rs) :
    (rs.Nodup ↔ ∀ k, ReflTransGen Node.Splices n k → k.RenamesApart) ∧
      (Node.PlainIds g.nodes "_rhs" → rs.Nodup) := by
  have hc := nodes_complete hb ha
  have hiff := Node.nodup_ranges_iff h
  refine ⟨hiff, fun hplain => hiff.mpr fun k hk => ?_⟩
  apply Node.renamesApart_of_plainIds hc hplain
  rcases reflTransGen_iff_eq_or_transGen.mp hk with rfl | hk
  · exact hn
  · exact hc.mem_of_transGen hn (TransGen.mono (fun _ _ => Node.reads_of_splices) _ _ hk)

/-- A join that reads one node twice, the second time under a new range. -/
theorem ranges_nodup_mirrored :
    Node.PlainIds mirrored.nodes "_rhs" ∧
      ∃ n, (mirrored.node "paired").result = .ok n ∧ n.isJoinClause = true ∧
        n.ranges.result = .ok ["node_sorted", "node_paired_rhs"] ∧
        ["node_sorted", "node_paired_rhs"].Nodup := by
  have hplain : Node.PlainIds mirrored.nodes "_rhs" := by decide +kernel
  have hn : (mirrored.node "paired").result = .ok _ := rfl
  obtain ⟨_, hnodup⟩ :=
    ranges_nodup_iff build_mirrored acyclic_mirrored (mem_nodes_of_node hn) rfl
  exact ⟨hplain, _, hn, rfl, rfl, hnodup hplain⟩

/-- A join of a node with itself, which is called as the new range of the join. -/
def echoSpecs : List NodeSpec :=
  [⟨"orders", [], .tableSource ⟨some "orders"⟩⟩,
    ⟨"j_rhs", ["orders"], .sort ⟨[0], []⟩⟩,
    ⟨"j", ["j_rhs", "j_rhs"], .join ⟨.inner, some 0, some 0⟩⟩]

def echo : Graph where
  dialect := .postgreSql
  strategy := .commonTableExpressions
  entries := echoSpecs.map (entry (echoSpecs.map NodeSpec.id) diamondCatalog)

/-- The new range may be one that the join has already. -/
theorem ranges_repeat :
    build echoSpecs diamondCatalog .postgreSql = .ok (echo, [.built 3 .postgreSql]) ∧
      echo.Acyclic ∧
      ∃ n, (echo.node "j").result = .ok n ∧ n.isJoinClause = true ∧
        n.ranges.result = .ok ["node_j_rhs", "node_j_rhs"] := by
  exact ⟨rfl, acyclic_of_earlier (by decide), _, rfl, rfl, rfl⟩

end Graph

end DataflowSql

import Mathlib.Data.Multiset.UnionInter
import Mathlib.Tactic.Tauto
import DataflowSql.Proofs.Rows

/-! Full outer joins, which are written as the union of a left and a right outer join. A union keeps
one of each row, so the query has the rows of the full outer join, but each of them once. -/
namespace DataflowSql

open Sql

section Bags

variable {β γ δ : Type} {meets : β → γ → Bool} {ls : Multiset β} {rs : Multiset γ}
  {pair : β → γ → δ} {loneLeft : β → δ} {loneRight : γ → δ}

/-- A full outer join: the pairs that meet, then the lone sides of the left and of the right. -/
def outerJoined (meets : β → γ → Bool) (pair : β → γ → δ) (loneLeft : β → δ) (loneRight : γ → δ)
    (ls : Multiset β) (rs : Multiset γ) : Multiset δ :=
  (matched meets ls rs).map (fun p => pair p.1 p.2) +
    ((unmatched meets ls rs).map loneLeft + (unmatched (flip meets) rs ls).map loneRight)

/-- Both one-sided joins together have what the full outer join has, the pairs that meet twice. -/
theorem dedup_outerJoined [DecidableEq δ] :
    (joined .leftOuter meets pair loneLeft loneRight ls rs +
        joined .rightOuter meets pair loneLeft loneRight ls rs).dedup =
      (outerJoined meets pair loneLeft loneRight ls rs).dedup := by
  refine Multiset.dedup_ext.mpr fun x => ?_
  simp only [joined, outerJoined, Multiset.mem_add]
  tauto

theorem matched_flip :
    matched (flip meets) rs ls = (matched meets ls rs).map Prod.swap := by
  have hswap : rs ×ˢ ls = (ls ×ˢ rs).map Prod.swap := (Multiset.map_swap_product ls rs).symm
  rw [matched, matched, hswap, Multiset.filter_map]
  rfl

/-- What stands twice on the left is twice in a pair, or twice alone. -/
theorem nodup_of_matched (hpairs : (matched meets ls rs).Nodup)
    (hlone : (unmatched meets ls rs).Nodup) : ls.Nodup := by
  rw [Multiset.nodup_iff_ne_cons_cons]
  rintro l rest rfl
  by_cases halone : ∀ r ∈ rs, meets l r = false
  · rw [unmatched, Multiset.filter_cons_of_pos _ halone,
      Multiset.filter_cons_of_pos _ halone] at hlone
    exact (Multiset.nodup_cons.mp hlone).1 (Multiset.mem_cons_self l _)
  · have hmeets : ∃ r ∈ rs, meets l r = true := by
      simpa using halone
    obtain ⟨r, hr, hmeets⟩ := hmeets
    rw [matched, Multiset.cons_product, Multiset.cons_product, Multiset.filter_add,
      Multiset.filter_add] at hpairs
    have hpair : (l, r) ∈ (rs.map (Prod.mk l)).filter fun p => meets p.1 p.2 :=
      Multiset.mem_filter.mpr ⟨Multiset.mem_map_of_mem _ hr, hmeets⟩
    have hapart := (Multiset.nodup_add.mp hpairs).2.2
    exact Multiset.disjoint_left.mp hapart hpair (Multiset.mem_add.mpr (.inl hpair))

/-- A full outer join that can be taken apart repeats nothing just where neither side does and no
lone left side looks like a lone right side. -/
theorem nodup_outerJoined_iff
    (hpair : ∀ p ∈ matched meets ls rs, ∀ q ∈ matched meets ls rs,
      pair p.1 p.2 = pair q.1 q.2 → p = q)
    (hleft : ∀ l ∈ ls, ∀ l' ∈ ls, loneLeft l = loneLeft l' → l = l')
    (hright : ∀ r ∈ rs, ∀ r' ∈ rs, loneRight r = loneRight r' → r = r')
    (hpairLeft : ∀ p ∈ matched meets ls rs, ∀ l ∈ ls, pair p.1 p.2 ≠ loneLeft l)
    (hpairRight : ∀ p ∈ matched meets ls rs, ∀ r ∈ rs, pair p.1 p.2 ≠ loneRight r) :
    (outerJoined meets pair loneLeft loneRight ls rs).Nodup ↔
      ls.Nodup ∧ rs.Nodup ∧ ∀ l ∈ unmatched meets ls rs, ∀ r ∈ unmatched (flip meets) rs ls,
        loneLeft l ≠ loneRight r := by
  have hpairs := Multiset.nodup_map_iff_of_inj_on hpair
  have hlefts := Multiset.nodup_map_iff_of_inj_on (s := unmatched meets ls rs) fun l hl l' hl' =>
    hleft l (mem_unmatched.mp hl).1 l' (mem_unmatched.mp hl').1
  have hrights := Multiset.nodup_map_iff_of_inj_on (s := unmatched (flip meets) rs ls)
    fun r hr r' hr' => hright r (mem_unmatched.mp hr).1 r' (mem_unmatched.mp hr').1
  rw [outerJoined, Multiset.nodup_add, Multiset.nodup_add, hpairs, hlefts, hrights]
  constructor
  · intro h
    obtain ⟨hm, ⟨hl, hr, hlone⟩, _⟩ := h
    have hm' : (matched (flip meets) rs ls).Nodup := by
      rw [matched_flip]
      exact hm.map Prod.swap_injective
    refine ⟨nodup_of_matched hm hl, nodup_of_matched hm' hr, fun l hl r hr heq => ?_⟩
    have hr' := Multiset.mem_map_of_mem loneRight hr
    rw [← heq] at hr'
    exact Multiset.disjoint_left.mp hlone (Multiset.mem_map_of_mem loneLeft hl) hr'
  · intro h
    obtain ⟨hl, hr, hlone⟩ := h
    refine ⟨(hl.product hr).filter _, ⟨hl.filter _, hr.filter _, ?_⟩, ?_⟩
    · rw [Multiset.disjoint_left]
      intro x hx hx'
      obtain ⟨l, hl, rfl⟩ := Multiset.mem_map.mp hx
      obtain ⟨r, hr, heq⟩ := Multiset.mem_map.mp hx'
      exact hlone l hl r hr heq.symm
    · rw [Multiset.disjoint_left]
      intro x hx hx'
      obtain ⟨p, hp, rfl⟩ := Multiset.mem_map.mp hx
      rcases Multiset.mem_add.mp hx' with hx' | hx'
      · obtain ⟨l, hl, heq⟩ := Multiset.mem_map.mp hx'
        exact hpairLeft p hp l (mem_unmatched.mp hl).1 heq.symm
      · obtain ⟨r, hr, heq⟩ := Multiset.mem_map.mp hx'
        exact hpairRight p hp r (mem_unmatched.mp hr).1 heq.symm

end Bags

namespace Database

variable {α : Type} {db : Database α} {i k lw rw : Nat} {ls rs : Multiset (Row α)}

/-- The rows of a full outer join: every pair of rows with equal values in column `i` of the left
and column `k` of the right one, and all other rows of both sides, filled up with NULLs. -/
def fullOuterJoin (db : Database α) (i k lw rw : Nat) (ls rs : Multiset (Row α)) :
    Multiset (Row α) :=
  outerJoined (fun l r => db.agree l[i]?.join r[k]?.join) (· ++ ·) (· ++ List.replicate rw none)
    (List.replicate lw none ++ ·) ls rs

theorem agree_none_left (x : Option α) : db.agree none x = false := rfl

theorem agree_none_right (x : Option α) : db.agree x none = false := by
  cases x <;> rfl

theorem join_getElem?_replicate_none (i w : Nat) :
    (List.replicate w (none : Option α))[i]?.join = none := by
  rw [List.getElem?_replicate]
  split <;> rfl

/-- Rows that meet are not NULL throughout. -/
theorem ne_replicate_of_matched {p : Row α × Row α}
    (hp : p ∈ matched (fun l r => db.agree l[i]?.join r[k]?.join) ls rs) (w : Nat) :
    p.1 ≠ List.replicate w none ∧ p.2 ≠ List.replicate w none := by
  have hmeets := (mem_matched.mp hp).2
  constructor
  · intro hblank
    rw [hblank, join_getElem?_replicate_none, agree_none_left] at hmeets
    exact absurd hmeets (by simp)
  · intro hblank
    rw [hblank, join_getElem?_replicate_none, agree_none_right] at hmeets
    exact absurd hmeets (by simp)

/-- Rows repeat in a full outer join where they do on a side. Besides these, a left and a right row
that are both NULL throughout give the same row. -/
theorem nodup_fullOuterJoin_iff (hls : ∀ l ∈ ls, l.length = lw) :
    (db.fullOuterJoin i k lw rw ls rs).Nodup ↔
      ls.Nodup ∧ rs.Nodup ∧ ¬(List.replicate lw none ∈ ls ∧ List.replicate rw none ∈ rs) := by
  have hsame {l l' r r' : Row α} (hl : l.length = lw) (hl' : l'.length = lw)
      (h : l ++ r = l' ++ r') : l = l' ∧ r = r' := List.append_inj h (hl.trans hl'.symm)
  have hblank : (List.replicate lw (none : Option α)).length = lw := List.length_replicate
  rw [fullOuterJoin, nodup_outerJoined_iff]
  · refine and_congr_right fun _ => and_congr_right fun _ => ?_
    constructor
    · intro h hblanks
      refine h _ (mem_unmatched.mpr ⟨hblanks.1, ?_⟩) _ (mem_unmatched.mpr ⟨hblanks.2, ?_⟩) rfl
      · intro r _
        rw [join_getElem?_replicate_none, agree_none_left]
      · intro l _
        rw [flip, join_getElem?_replicate_none, agree_none_right]
    · intro h l hl r hr heq
      have hl := (mem_unmatched.mp hl).1
      have hr := (mem_unmatched.mp hr).1
      obtain ⟨rfl, rfl⟩ := hsame (hls l hl) hblank heq
      exact h ⟨hl, hr⟩
  · intro p hp q hq heq
    have hp := (mem_matched.mp hp).1.1
    have hq := (mem_matched.mp hq).1.1
    obtain ⟨hl, hr⟩ := hsame (hls _ hp) (hls _ hq) heq
    exact Prod.ext hl hr
  · intro l hl l' hl' heq
    exact (hsame (hls l hl) (hls l' hl') heq).1
  · intro r _ r' _ heq
    exact List.append_cancel_left heq
  · intro p hp l hl heq
    have hp' := (mem_matched.mp hp).1.1
    exact (ne_replicate_of_matched hp rw).2 (hsame (hls _ hp') (hls l hl) heq).2
  · intro p hp r _ heq
    have hp' := (mem_matched.mp hp).1.1
    exact (ne_replicate_of_matched hp lw).1 (hsame (hls _ hp') hblank heq).1

end Database

namespace Node

variable {d : Dialect} {s : Strategy} {n l r : Node}

/-- The two outer joins that a full outer join is written as, on the same columns. -/
def outerUnion (a b : Operand) (x y : Expr ColumnRef) : Query Node :=
  .union (.plain (a.columns ++ b.columns) (.join a.source (.on .leftOuter x y) b.source))
    (.plain (a.columns ++ b.columns) (.join a.source (.on .rightOuter x y) b.source))

/-- The text that selects all columns of both operands over an outer join of this name. -/
def outerText (d : Dialect) (a b : Operand) (x y : Expr ColumnRef) (join : String) : String :=
  "SELECT " ++ ", ".intercalate (((a.columns ++ b.columns).map fun e =>
      e.sql d (ColumnRef.sql d)).zipIdx.map fun c => c.1 ++ " AS " ++ columnName c.2) ++
    " FROM " ++ a.source.sql d Node.name ++ " " ++ join ++ " " ++
    b.source.enclosed (b.source.sql d Node.name) ++
    " ON " ++ x.sql d (ColumnRef.sql d) ++ " = " ++ y.sql d (ColumnRef.sql d)

theorem sql_outerHalf (a b : Operand) (kind : JoinKind) (x y : Expr ColumnRef) :
    (Query.plain (a.columns ++ b.columns) (.join a.source (.on kind x y) b.source)).sql d
      Node.name = outerText d a b x y kind.text := by
  unfold outerText
  rw [sql_plain, Operand.fragment, Fragment.text, Source.sql, Meeting.sql, Source.enclosed]
  simp only [String.append_assoc]

theorem sql_outerUnion (a b : Operand) (x y : Expr ColumnRef) :
    (outerUnion a b x y).sql d Node.name =
      outerText d a b x y "LEFT OUTER JOIN" ++ " UNION " ++
        outerText d a b x y "RIGHT OUTER JOIN" := by
  have hleft : _ = outerText d a b x y "LEFT OUTER JOIN" := sql_outerHalf a b .leftOuter x y
  have hright : _ = outerText d a b x y "RIGHT OUTER JOIN" := sql_outerHalf a b .rightOuter x y
  rw [outerUnion, Query.sql, hleft, hright]

theorem query_of_fullOuter {j : Join} (hop : n.operation = .join j)
    (htype : j.joinType = .fullOuter) (hl : (n.input 0).result = .ok l)
    (hr : (n.input 1).result = .ok r) {a b : Operand} (ha : (l.operand d s).result = .ok a)
    (hb : (rightOperand d s n.id l r).result = .ok b) {q : Query Node}
    (hq : (n.query d s).result = .ok q) :
    ∃ x y, j.table1Column.bind (fun i => a.columns[i]?) = some x ∧
      j.table2Column.bind (fun i => b.columns[i]?) = some y ∧ q = outerUnion a b x y := by
  simp only [query, queryStep, hop, htype, JoinType.shape?, Outcome.bind_eq_ok, Outcome.pure_eq_ok,
    joinQuery_keyed_eq_ok hop hl hr ha hb] at hq
  obtain ⟨_, ⟨x, y, hx, hy, rfl⟩, _, ⟨x', y', hx', hy', rfl⟩, rfl⟩ := hq
  -- both halves meet on the same columns
  obtain rfl := Option.some.inj (hx.symm.trans hx')
  obtain rfl := Option.some.inj (hy.symm.trans hy')
  exact ⟨x, y, hx, hy, rfl⟩

/-- If no two ranges clash, a full outer join of two nodes gives back each row of the full outer
join of their rows, once. So these are the same rows just where neither node repeats one and not
both have a row that is NULL throughout. It is written as a left and a right outer join, with
`UNION` between them. -/
theorem full_outer_join_distinct {α : Type} [DecidableEq α] {j : Join}
    (hop : n.operation = .join j) (htype : j.joinType = .fullOuter)
    (hl : (n.input 0).result = .ok l) (hr : (n.input 1).result = .ok r) {q : Query Node}
    (hq : (n.query d s).result = .ok q)
    (hranges : ∀ src ∈ q.sources, (src.ranges Node.name).Nodup)
    (db : Database α) (hldb : l.Suits db d s) (hrdb : r.Suits db d s) :
    ∃ i k lp rp, j.table1Column = some i ∧ j.table2Column = some k ∧
      (l.projection d).result = .ok lp ∧ i < lp.length ∧
      (r.projection d).result = .ok rp ∧ k < rp.length ∧
      (∃ a b x y, (l.operand d s).result = .ok a ∧ (rightOperand d s n.id l r).result = .ok b ∧
        a.columns[i]? = some x ∧ b.columns[k]? = some y ∧ q = outerUnion a b x y ∧
        q.sql d Node.name = outerText d a b x y "LEFT OUTER JOIN" ++ " UNION " ++
          outerText d a b x y "RIGHT OUTER JOIN") ∧
      q.rows? db =
        some (db.fullOuterJoin i k lp.length rp.length (db.rows l) (db.rows r)).dedup ∧
      (q.rows? db = some (db.fullOuterJoin i k lp.length rp.length (db.rows l) (db.rows r)) ↔
        (db.rows l).Nodup ∧ (db.rows r).Nodup ∧
          ¬(List.replicate lp.length none ∈ db.rows l ∧
            List.replicate rp.length none ∈ db.rows r)) := by
  obtain ⟨a, b, ha, hb⟩ := operands_of_query hop hl hr hq
  obtain ⟨x, y, hx, hy, rfl⟩ := query_of_fullOuter hop htype hl hr ha hb hq
  obtain ⟨i, hi, hx⟩ := Option.bind_eq_some_iff.mp hx
  obtain ⟨k, hk, hy⟩ := Option.bind_eq_some_iff.mp hy
  obtain ⟨lp, hlp, hacolumns, _⟩ := operand_eq_ok.mp ha
  obtain ⟨range, rp, _, hrp, hbcolumns, _⟩ := rightOperand_eq_ok.mp hb
  have halength := (Outcome.mapM_range_eq_ok.mp hacolumns).1
  have hblength := (Outcome.mapM_range_eq_ok.mp hbcolumns).1
  have hdisjoint : (a.source.ranges Node.name).Disjoint (b.source.ranges Node.name) :=
    List.disjoint_of_nodup_append (hranges _ (List.mem_append_left _ (List.mem_singleton_self _)))
  have hhalf (kind : JoinKind) :
      (Query.plain (a.columns ++ b.columns) (.join a.source (.on kind x y) b.source)).rows? db =
        some (db.join kind i k lp.length rp.length (db.rows l) (db.rows r)) := by
    rw [← halength, ← hblength, ← rows_of_operand hldb ha, ← rows_of_rightOperand hrdb hb]
    exact Operand.rows?_joined (inScope_of_operand ha) (inScope_of_rightOperand hb) hdisjoint hx hy
      kind
  have hrows : (outerUnion a b x y).rows? db =
      some (db.fullOuterJoin i k lp.length rp.length (db.rows l) (db.rows r)).dedup := by
    rw [Database.fullOuterJoin, ← dedup_outerJoined]
    simp only [outerUnion, Query.rows?, hhalf]
    rfl
  refine ⟨i, k, lp, rp, hi, hk, hlp, ?_, hrp, ?_,
    ⟨a, b, x, y, ha, hb, hx, hy, rfl, sql_outerUnion a b x y⟩, hrows, ?_⟩
  · rw [← halength]
    exact (List.getElem?_eq_some_iff.mp hx).1
  · rw [← hblength]
    exact (List.getElem?_eq_some_iff.mp hy).1
  · rw [hrows, Option.some.injEq, Multiset.dedup_eq_self]
    exact Database.nodup_fullOuterJoin_iff (hldb.width lp hlp)

/-- Orders by id and total. Every order node has these rows. -/
def orderDatabase (orders : List (Nat × Nat)) : Database Nat where
  table _ := orders.map fun order name =>
    if name = "id" then some order.1 else if name = "total" then some order.2 else none
  rows _ := orders.map fun order => [some order.1, some order.2]
  equal := BEq.beq
  constant _ := none
  unary _ := some
  binary _ _ _ := none
  ternary _ _ _ _ := none

theorem suits_ordersNode (orders : List (Nat × Nat)) (id : String) :
    (ordersNode id).Suits (orderDatabase orders) .postgreSql s where
  width p hp row hrow := by
    have hcolumns : ((ordersNode id).projection .postgreSql).result = .ok _ := rfl
    obtain rfl := Outcome.result_unique hcolumns hp
    obtain ⟨order, _, rfl⟩ := List.mem_map.mp (Multiset.mem_coe.mp hrow)
    rfl
  own _ q hq := by
    have hquery : ((ordersNode id).query .postgreSql s).result = .ok (.plain
        [.column (.field (tableRange id) "id"), .column (.field (tableRange id) "total")]
        (.table ["orders"] (tableRange id))) := rfl
    obtain rfl := Outcome.result_unique hquery hq
    rw [Operand.rows?_plain (by simp [Expr.isRowwise])]
    simp [Source.bindings, orderDatabase, Expr.value, Binding.ofRecord, Function.comp_def]

/-- A full outer join of orders with orders, on an id that is a total. -/
def balancedNode : Node :=
  .mk "balanced" (.join ⟨.fullOuter, some 0, some 1⟩) none
    [.found (ordersNode "sales"), .found (ordersNode "refunds")]

/-- The select over one of the two outer joins. -/
def balancedText (join : String) : String :=
  "SELECT node_sales_table.\"id\" AS Column_0, node_sales_table.\"total\" AS Column_1, " ++
    "node_refunds_table.\"id\" AS Column_2, node_refunds_table.\"total\" AS Column_3 " ++
    "FROM \"orders\" AS node_sales_table " ++ join ++ " \"orders\" AS node_refunds_table " ++
    "ON node_sales_table.\"id\" = node_refunds_table.\"total\""

/-- An order that equals another, and two that stay alone. -/
theorem full_outer_join_distinct_balanced :
    ∃ q, (balancedNode.query .postgreSql .inline).result = .ok q ∧
      (∃ a b x y, q = outerUnion a b x y ∧
        q.sql .postgreSql Node.name = outerText .postgreSql a b x y "LEFT OUTER JOIN" ++
          " UNION " ++ outerText .postgreSql a b x y "RIGHT OUTER JOIN") ∧
      q.sql .postgreSql Node.name =
        balancedText "LEFT OUTER JOIN" ++ " UNION " ++ balancedText "RIGHT OUTER JOIN" ∧
      q.rows? (orderDatabase [(1, 1), (2, 7)]) = some {[some 1, some 1, some 1, some 1],
        [some 2, some 7, none, none], [none, none, some 2, some 7]} := by
  have hquery : (balancedNode.query .postgreSql .inline).result = .ok _ := rfl
  obtain ⟨i, k, lp, rp, hi, hk, hlp, _, hrp, _, hwritten, hrows, _⟩ :=
    full_outer_join_distinct rfl rfl rfl rfl hquery (by decide +kernel)
      (orderDatabase [(1, 1), (2, 7)]) (suits_ordersNode _ "sales") (suits_ordersNode _ "refunds")
  cases hi
  cases hk
  cases hlp
  cases hrp
  obtain ⟨a, b, x, y, _, _, _, _, hunion, htext⟩ := hwritten
  refine ⟨_, hquery, ⟨a, b, x, y, hunion, htext⟩, by decide +kernel, ?_⟩
  rw [hrows]
  decide +kernel

/-- An order that is placed twice comes back once from either side. -/
theorem full_outer_join_drops :
    ∃ q, (balancedNode.query .postgreSql .inline).result = .ok q ∧
      q.sql .postgreSql Node.name =
        balancedText "LEFT OUTER JOIN" ++ " UNION " ++ balancedText "RIGHT OUTER JOIN" ∧
      (∀ src ∈ q.sources, (src.ranges Node.name).Nodup) ∧
      (ordersNode "sales").Suits (orderDatabase [(1, 5), (1, 5)]) .postgreSql .inline ∧
      (ordersNode "refunds").Suits (orderDatabase [(1, 5), (1, 5)]) .postgreSql .inline ∧
      q.rows? (orderDatabase [(1, 5), (1, 5)]) =
        some {[some 1, some 5, none, none], [none, none, some 1, some 5]} ∧
      q.rows? (orderDatabase [(1, 5), (1, 5)]) ≠
        some ((orderDatabase [(1, 5), (1, 5)]).fullOuterJoin 0 1 2 2
          ((orderDatabase [(1, 5), (1, 5)]).rows (ordersNode "sales"))
          ((orderDatabase [(1, 5), (1, 5)]).rows (ordersNode "refunds"))) := by
  have hquery : (balancedNode.query .postgreSql .inline).result = .ok _ := rfl
  exact ⟨_, hquery, by decide +kernel, by decide +kernel, suits_ordersNode _ _,
    suits_ordersNode _ _, by decide +kernel, by decide +kernel⟩

end Node

end DataflowSql

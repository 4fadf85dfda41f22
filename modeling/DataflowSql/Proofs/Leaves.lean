import DataflowSql.Proofs.Qualifiers

/-! The leaves of a join. A join of joins has the columns of its leaves together, and each of its
columns is written as a column of one leaf. -/
namespace DataflowSql

open Sql

/-- What a join reads its columns from, in the end. -/
inductive Leaf where
  | table (node : Node)
  /-- A node under its own name. -/
  | whole (node : Node)
  /-- The second input of a join, under the range the join gives it. -/
  | renamed (join node : Node)

namespace Leaf

def node : Leaf → Node
  | .table n => n
  | .whole n => n
  | .renamed _ n => n

def projection (d : Dialect) (leaf : Leaf) : Outcome Projection := leaf.node.projection d

/-- How a column of the leaf is written. -/
def column (d : Dialect) : Leaf → Nat → Option (Expr ColumnRef)
  | .table n, i => (TableSource.columnsOf n.schema)[i]?.map (TableSource.columnExpr d n.id)
  | .whole n, i => some (.column (.ranged n.name i))
  | .renamed join _, i => some (.column (.ranged (rightRange join.id) i))

/-- The text of a column of the leaf. -/
def text (d : Dialect) : Leaf → Nat → Option String
  | .table n, i => (TableSource.columnsOf n.schema)[i]?.map fun c =>
    if d.isExposedAsText c.type then
      (d.castToText (.column (tableRange n.id ++ "." ++ d.quoteIdentifier c.name)) c.type).sql d id
    else tableRange n.id ++ "." ++ d.quoteIdentifier c.name
  | .whole n, i => some (n.name ++ "." ++ columnName i)
  | .renamed join _, i => some (rightRange join.id ++ "." ++ columnName i)

/-- Casts write the column they are given. -/
theorem sql_castToText {d : Dialect} (c : ColumnRef) (type : String) :
    (d.castToText (.column c) type).sql d (ColumnRef.sql d) =
      (d.castToText (.column (c.sql d)) type).sql d id := by
  unfold Dialect.castToText
  cases d with
  | mySql => rfl
  | postgreSql => rfl
  | sqlServer =>
    dsimp only
    split <;> rfl

theorem text_of_column {d : Dialect} {leaf : Leaf} {i : Nat} {e : Expr ColumnRef}
    (h : leaf.column d i = some e) : leaf.text d i = some (e.sql d (ColumnRef.sql d)) := by
  cases leaf with
  | table n =>
    rw [column, Option.map_eq_some_iff] at h
    obtain ⟨c, hc, rfl⟩ := h
    rw [text, hc, Option.map_some, TableSource.columnExpr]
    split
    · rw [sql_castToText]
      rfl
    · rfl
  | whole n =>
    rw [column, Option.some.injEq] at h
    subst h
    rfl
  | renamed join n =>
    rw [column, Option.some.injEq] at h
    subst h
    rfl

end Leaf

/-- Number `i` of the lists laid end to end is number `j` of list `k`. -/
def IsPosition {α : Type} (lists : List (List α)) (i k j : Nat) : Prop :=
  ∃ list, lists[k]? = some list ∧ j < list.length ∧ (lists.take k).flatten.length + j = i

section Positions

variable {α : Type} {front back : List (List α)} {list : List α} {i k j : Nat}

theorem isPosition_singleton (h : i < list.length) : IsPosition [list] i 0 i :=
  ⟨list, rfl, h, by simp⟩

theorem IsPosition.append_right (h : IsPosition front i k j) (back : List (List α)) :
    IsPosition (front ++ back) i k j := by
  obtain ⟨list, hlist, hj, hi⟩ := h
  obtain ⟨hk, _⟩ := List.getElem?_eq_some_iff.mp hlist
  refine ⟨list, ?_, hj, ?_⟩
  · rw [List.getElem?_append_left hk, hlist]
  · rw [List.take_append_of_le_length hk.le, hi]

theorem IsPosition.append_left (h : IsPosition back i k j) (front : List (List α)) :
    IsPosition (front ++ back) (front.flatten.length + i) (front.length + k) j := by
  obtain ⟨list, hlist, hj, rfl⟩ := h
  refine ⟨list, ?_, hj, ?_⟩
  · rw [List.getElem?_append_right (by omega), Nat.add_sub_cancel_left, hlist]
  · rw [List.take_length_add_append, List.flatten_append, List.length_append, Nat.add_assoc]

end Positions

/-- The projections belong to the leaves, and each column is written as the leaf writes it where the
column has its position. -/
structure LaidOut (d : Dialect) (leaves : List Leaf) (ps : List Projection)
    (column : Nat → Outcome (Expr ColumnRef)) : Prop where
  projections : (leaves.mapM (Leaf.projection d)).result = .ok ps
  written : ∀ i < ps.flatten.length, ∃ k j leaf e, IsPosition ps i k j ∧
    leaves[k]? = some leaf ∧ leaf.column d j = some e ∧ (column i).result = .ok e

section LaidOut

variable {d : Dialect} {f g : Nat → Outcome (Expr ColumnRef)}

theorem mapM_projection_singleton {leaf : Leaf} {ps : List Projection} :
    (([leaf].mapM (Leaf.projection d)).result = .ok ps) ↔
      ∃ p, (leaf.projection d).result = .ok p ∧ [p] = ps := by
  simp only [List.mapM_cons, List.mapM_nil, Outcome.bind_eq_ok, Outcome.pure_eq_ok,
    exists_eq_left']

theorem laidOut_singleton {leaf : Leaf} {p : Projection} (hp : (leaf.projection d).result = .ok p)
    (hcolumn : ∀ i < p.length, ∃ e, leaf.column d i = some e ∧ (f i).result = .ok e) :
    LaidOut d [leaf] [p] f where
  projections := mapM_projection_singleton.mpr ⟨p, hp, rfl⟩
  written i hi := by
    rw [List.flatten_singleton] at hi
    obtain ⟨e, hleaf, he⟩ := hcolumn i hi
    exact ⟨0, i, leaf, e, isPosition_singleton hi, rfl, hleaf, he⟩

theorem LaidOut.length_eq {leaves : List Leaf} {ps : List Projection} (h : LaidOut d leaves ps f) :
    leaves.length = ps.length :=
  (Outcome.mapM_eq_ok.mp h.projections).length_eq

/-- Each column has the text that its leaf gives it. -/
theorem LaidOut.texts {leaves : List Leaf} {ps : List Projection} (h : LaidOut d leaves ps f) :
    ∀ i < ps.flatten.length, ∃ k j leaf e, IsPosition ps i k j ∧ leaves[k]? = some leaf ∧
      (f i).result = .ok e ∧ leaf.text d j = some (e.sql d (ColumnRef.sql d)) := by
  intro i hi
  obtain ⟨k, j, leaf, e, hposition, hleaf, hwritten, he⟩ := h.written i hi
  exact ⟨k, j, leaf, e, hposition, hleaf, he, Leaf.text_of_column hwritten⟩

/-- The columns of some leaves stand before those of others. -/
theorem LaidOut.append {column : Nat → Outcome (Expr ColumnRef)} {ls rs : List Leaf}
    {lps rps : List Projection} (hl : LaidOut d ls lps f) (hr : LaidOut d rs rps g)
    (hfirst : ∀ i e, i < lps.flatten.length → (f i).result = .ok e → (column i).result = .ok e)
    (hsecond : ∀ i e, i < rps.flatten.length → (g i).result = .ok e →
      (column (lps.flatten.length + i)).result = .ok e) :
    LaidOut d (ls ++ rs) (lps ++ rps) column where
  projections := by
    simp only [List.mapM_append, Outcome.bind_eq_ok, Outcome.pure_eq_ok]
    exact ⟨lps, hl.projections, rps, hr.projections, rfl⟩
  written i hi := by
    rw [List.flatten_append, List.length_append] at hi
    by_cases hlt : i < lps.flatten.length
    · obtain ⟨k, j, leaf, e, hpos, hleaf, hwritten, he⟩ := hl.written i hlt
      obtain ⟨hk, _⟩ := List.getElem?_eq_some_iff.mp hleaf
      exact ⟨k, j, leaf, e, hpos.append_right rps, (List.getElem?_append_left hk).trans hleaf,
        hwritten, hfirst i e hlt he⟩
    · obtain ⟨i, rfl⟩ := Nat.exists_eq_add_of_le (Nat.le_of_not_lt hlt)
      have hrest : i < rps.flatten.length := by omega
      obtain ⟨k, j, leaf, e, hpos, hleaf, hwritten, he⟩ := hr.written i hrest
      refine ⟨lps.length + k, j, leaf, e, hpos.append_left lps, ?_, hwritten,
        hsecond i e hrest he⟩
      rw [← hl.length_eq, List.getElem?_append_right (by omega), Nat.add_sub_cancel_left, hleaf]

end LaidOut

namespace Node

/-- What a join adds to the leaves of its first input, given the leaves of the second. -/
def rightLeaves (join right : Node) (own : Outcome (List Leaf)) :
    Option String → Outcome (List Leaf)
  | some _ => Outcome.ok [.renamed join right]
  | none => own

def leavesStep (n : Node) (slots : List (Slot (Outcome (List Leaf)))) : Outcome (List Leaf) :=
  match n.operation with
  | .tableSource _ => Outcome.ok [.table n]
  | .join j =>
    if j.joinType.shape?.isSome then do
      let left ← Slot.reachAt n.id slots 0
      let right ← Slot.reachAt n.id slots 1
      let range ← renameRight? n.id left.node right.node
      return (← left.answer ()) ++ (← rightLeaves n right.node (right.answer ()) range)
    else Outcome.ok [.whole n]
  | _ => Outcome.ok [.whole n]

/-- The leaves of a node, from left to right: those of both inputs of a join, unless it reads the
second input under a new range. Any other node is a leaf. -/
def leaves : Node → Outcome (List Leaf) := fold leavesStep

variable {d : Dialect} {n l r : Node} {p : Projection}

theorem leaves_of_table {t : TableSource} (hop : n.operation = .tableSource t) :
    n.leaves.result = .ok [.table n] := by
  rw [leaves, fold_eq, leavesStep, hop, Outcome.ok_eq_ok]

theorem leaves_of_whole (hn : n.isSpliceable = false) : n.leaves.result = .ok [.whole n] := by
  unfold isSpliceable Operation.isSpliceable at hn
  rw [leaves, fold_eq, leavesStep]
  cases hop : n.operation <;> simp_all

theorem leaves_of_join_iff (hn : n.isJoinClause = true) {leaves : List Leaf} :
    n.leaves.result = .ok leaves ↔
      ∃ l r range ls rs, (n.input 0).result = .ok l ∧ (n.input 1).result = .ok r ∧
        (renameRight? n.id l r).result = .ok range ∧ l.leaves.result = .ok ls ∧
        (rightLeaves n r r.leaves range).result = .ok rs ∧ ls ++ rs = leaves := by
  obtain ⟨j, hop, hshape⟩ := isJoinClause_iff.mp hn
  rw [Node.leaves, fold_eq, leavesStep]
  simp only [hop, if_pos hshape, Slot.reachAt_slotsOf, Outcome.bind_eq_ok, Outcome.pure_eq_ok]
  constructor
  · intro h
    obtain ⟨_, ⟨l, hl, rfl⟩, _, ⟨r, hr, rfl⟩, range, hrange, ls, hls, rs, hrs, rfl⟩ := h
    exact ⟨l, r, range, ls, rs, hl, hr, hrange, hls, hrs, rfl⟩
  · intro h
    obtain ⟨l, r, range, ls, rs, hl, hr, hrange, hls, hrs, rfl⟩ := h
    exact ⟨_, ⟨l, hl, rfl⟩, _, ⟨r, hr, rfl⟩, range, hrange, ls, hls, rs, hrs, rfl⟩

/-- The second input of a join, under a new range or taken over. -/
theorem laidOut_right {rp : Projection} {range : Option String}
    (hrp : (r.projection d).result = .ok rp)
    (hrange : (renameRight? n.id l r).result = .ok range)
    (hown : ∃ rs ps, r.leaves.result = .ok rs ∧ LaidOut d rs ps (r.column d) ∧ ps.flatten = rp) :
    ∃ rs ps, (rightLeaves n r r.leaves range).result = .ok rs ∧
      LaidOut d rs ps (rightColumn n.id l r (r.column d)) ∧ ps.flatten = rp := by
  cases range with
  | none =>
    obtain ⟨rs, ps, hrs, hlaid, hflat⟩ := hown
    refine ⟨rs, ps, hrs, ⟨hlaid.projections, fun i hi => ?_⟩, hflat⟩
    obtain ⟨k, j, leaf, e, hpos, hleaf, hwritten, he⟩ := hlaid.written i hi
    refine ⟨k, j, leaf, e, hpos, hleaf, hwritten, ?_⟩
    rw [rightColumn, Outcome.result_bind_of_ok hrange]
    exact he
  | some range =>
    obtain ⟨ls, qs, hls, hqs⟩ := exists_ranges_of_renameRight? hrange
    have hname := Join.rename?_eq_some ((renameRight?_eq_ok hls hqs).mp hrange)
    refine ⟨_, [rp], rfl, laidOut_singleton hrp fun i _ => ⟨_, rfl, ?_⟩, by simp⟩
    rw [rightColumn, Outcome.result_bind_of_ok hrange, hname]
    rfl

/-- Where a node has columns it has leaves, and they lie end to end. -/
theorem laidOut_leaves (hp : (n.projection d).result = .ok p) :
    ∃ leaves ps, n.leaves.result = .ok leaves ∧ LaidOut d leaves ps (n.column d) ∧
      ps.flatten = p := by
  induction n using reads_induction generalizing p with
  | step n ih =>
    rcases kind_of_node n with ⟨t, hop⟩ | hn | hn
    · refine ⟨_, [p], leaves_of_table hop, laidOut_singleton hp fun i hi => ?_, by simp⟩
      obtain ⟨e, he⟩ := exists_column hp hi
      exact ⟨e, (column_of_table hop).mp he, he⟩
    · obtain ⟨l, r, lp, rp, hl, hr, hlp, hrp, rfl⟩ := inputs_of_projection hn hp
      obtain ⟨ls, lps, hls, hleft, rfl⟩ := ih l (reads_of_input hl) hlp
      obtain ⟨lranges, hlr⟩ := exists_ranges hlp
      obtain ⟨rranges, hrr⟩ := exists_ranges hrp
      have hrange := (renameRight?_eq_ok hlr hrr).mpr (Eq.refl (Join.rename? n.id lranges rranges))
      obtain ⟨rs, rps, hrs, hright, rfl⟩ := laidOut_right hrp hrange (ih r (reads_of_input hr) hrp)
      refine ⟨ls ++ rs, lps ++ rps,
        (leaves_of_join_iff hn).mpr ⟨l, r, _, ls, rs, hl, hr, hrange, hls, hrs, rfl⟩,
        hleft.append hright ?_ ?_, by simp⟩
      · intro i e hi he
        rwa [column_of_join_iff hn hl hr, joinColumn_eq_ok hlp hrp, if_pos hi]
      · intro i e hi he
        rw [column_of_join_iff hn hl hr, joinColumn_eq_ok hlp hrp, if_neg (by omega),
          Nat.add_sub_cancel_left]
        exact ⟨hi, he⟩
    · refine ⟨_, [p], leaves_of_whole hn, laidOut_singleton hp fun i _ => ?_, by simp⟩
      exact ⟨_, rfl, column_of_whole hn i⟩

theorem projection_of_leaf {x : Outcome (List Leaf)} {leaf : Leaf} {leaves : List Leaf}
    {ps : List Projection} (hleaves : x.result = .ok leaves) (hx : x.result = .ok [leaf])
    (hnode : leaf.node = n) (hps : (leaves.mapM (Leaf.projection d)).result = .ok ps) :
    (n.projection d).result = .ok ps.flatten := by
  obtain rfl := Outcome.result_unique hx hleaves
  obtain ⟨p, hp, rfl⟩ := mapM_projection_singleton.mp hps
  rwa [List.flatten_singleton, ← hnode]

/-- Where the leaves of a node have columns the node has them. -/
theorem projection_of_leaves {leaves : List Leaf} {ps : List Projection}
    (hleaves : n.leaves.result = .ok leaves)
    (hps : (leaves.mapM (Leaf.projection d)).result = .ok ps) :
    (n.projection d).result = .ok ps.flatten := by
  induction n using reads_induction generalizing leaves ps with
  | step n ih =>
    rcases kind_of_node n with ⟨t, hop⟩ | hn | hn
    · exact projection_of_leaf hleaves (leaves_of_table hop) rfl hps
    · obtain ⟨l, r, range, ls, rs, hl, hr, _, hls, hrs, rfl⟩ :=
        (leaves_of_join_iff hn).mp hleaves
      simp only [List.mapM_append, Outcome.bind_eq_ok, Outcome.pure_eq_ok] at hps
      obtain ⟨lps, hlps, rps, hrps, rfl⟩ := hps
      have hleft := ih l (reads_of_input hl) hls hlps
      have hright : (r.projection d).result = .ok rps.flatten := by
        cases range with
        | none => exact ih r (reads_of_input hr) hrs hrps
        | some range =>
          have hleaf : (rightLeaves n r r.leaves (some range)).result = .ok [.renamed n r] := rfl
          exact projection_of_leaf hrs hleaf rfl hrps
      obtain ⟨j, hop, _⟩ := isJoinClause_iff.mp hn
      exact (projection_of_join hop hl hr).mpr ⟨_, _, hleft, hright, by simp⟩
    · exact projection_of_leaf hleaves (leaves_of_whole hn) rfl hps

/-- The columns of a node are those of its leaves from left to right, and column `i` of the node is
written as the leaf writes the column that stands there, with the same text. -/
theorem columns_of_leaves (d : Dialect) (n : Node) (p : Projection) :
    (n.projection d).result = .ok p ↔
      ∃ leaves ps, n.leaves.result = .ok leaves ∧ LaidOut d leaves ps (n.column d) ∧
        (∀ i < p.length, ∃ k j leaf e, IsPosition ps i k j ∧ leaves[k]? = some leaf ∧
          (n.column d i).result = .ok e ∧ leaf.text d j = some (e.sql d (ColumnRef.sql d))) ∧
        ps.flatten = p := by
  constructor
  · intro hp
    obtain ⟨leaves, ps, hleaves, hlaid, rfl⟩ := laidOut_leaves hp
    exact ⟨leaves, ps, hleaves, hlaid, hlaid.texts, rfl⟩
  · intro h
    obtain ⟨leaves, ps, hleaves, hlaid, _, rfl⟩ := h
    exact projection_of_leaves hleaves hlaid.projections

def sortedNode : Node := .mk "sorted" (.sort ⟨[1], []⟩) none [.found (ordersNode "items")]

/-- A sorted table beside a join with a renamed second input. -/
def mixedNode : Node :=
  .mk "mixed" (.join ⟨.cross, none, none⟩) none [.found sortedNode, .found echoedNode]

/-- Column 8 is column 2 of the fourth leaf, which the inner join renames. -/
theorem columns_of_leaves_mixed :
    ∃ ps, mixedNode.leaves.result = .ok [.whole sortedNode, .table (ordersNode "sales"),
        .table (ordersNode "refunds"), .renamed echoedNode pairedNode] ∧
      LaidOut .postgreSql [.whole sortedNode, .table (ordersNode "sales"),
        .table (ordersNode "refunds"), .renamed echoedNode pairedNode] ps
        (mixedNode.column .postgreSql) ∧
      ps.map List.length = [2, 2, 2, 4] ∧ IsPosition ps 8 3 2 ∧
      (mixedNode.column .postgreSql 8).result = .ok (.column (.ranged "node_echoed_rhs" 2)) ∧
      Leaf.text .postgreSql (.renamed echoedNode pairedNode) 2 = some "node_echoed_rhs.Column_2" ∧
      ∀ i < 10, ∃ leaf j e, (mixedNode.column .postgreSql i).result = .ok e ∧
        Leaf.text .postgreSql leaf j = some (e.sql .postgreSql (ColumnRef.sql .postgreSql)) := by
  have hp : (mixedNode.projection .postgreSql).result = .ok _ := rfl
  obtain ⟨leaves, ps, hleaves, hlaid, htexts, _⟩ :=
    (columns_of_leaves .postgreSql mixedNode _).mp hp
  have hknown : mixedNode.leaves.result = .ok [.whole sortedNode, .table (ordersNode "sales"),
      .table (ordersNode "refunds"), .renamed echoedNode pairedNode] := rfl
  obtain rfl := Outcome.result_unique hknown hleaves
  obtain rfl := Outcome.result_unique rfl hlaid.projections
  refine ⟨_, hknown, hlaid, rfl, ⟨_, rfl, by decide, rfl⟩, rfl, rfl, fun i hi => ?_⟩
  obtain ⟨_, j, leaf, e, _, _, he, htext⟩ := htexts i hi
  exact ⟨leaf, j, e, he, htext⟩

end Node

end DataflowSql

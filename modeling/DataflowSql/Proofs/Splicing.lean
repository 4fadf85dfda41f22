import DataflowSql.Proofs.Inputs
import DataflowSql.Proofs.Layout

/-! What a consumer that takes over the source of a node writes. The node's own query, a selection
over it and a join that takes it in are all made of the same texts: one for the source and one for
each column. -/
namespace DataflowSql

namespace Sql

/-- The text of a source, and of the expression for each column that is read from it. -/
structure Fragment where
  columns : List String
  source : String
deriving DecidableEq, Repr

namespace Fragment

/-- The query that puts out all columns. -/
def text (f : Fragment) : String :=
  "SELECT " ++ ", ".intercalate (f.columns.zipIdx.map fun c => c.1 ++ " AS " ++ columnName c.2) ++
    " FROM " ++ f.source

/-- The columns at these positions; those out of range are passed over. -/
def pick (f : Fragment) (positions : List Nat) : Fragment :=
  ⟨positions.filterMap fun i => f.columns[i]?, f.source⟩

def enclosed (f : Fragment) : Fragment := ⟨f.columns, "(" ++ f.source ++ ")"⟩

/-- The columns of both, read from another source. -/
def beside (left right : Fragment) (source : String) : Fragment :=
  ⟨left.columns ++ right.columns, source⟩

/-- The pairs of rows on which two expressions agree. -/
def meet (left right : Fragment) (kind : JoinKind) (x y : String) : Fragment :=
  left.beside right
    (left.source ++ " " ++ kind.text ++ " " ++ right.source ++ " ON " ++ x ++ " = " ++ y)

end Fragment

end Sql

open Sql

/-- The keyed joins whose rows a join puts together. -/
def JoinType.kinds : JoinType → List JoinKind
  | .inner => [.inner]
  | .leftOuter => [.leftOuter]
  | .rightOuter => [.rightOuter]
  | .fullOuter => [.leftOuter, .rightOuter]
  | .cross => []

/-- A join of two fragments: all columns of both, met on the columns that are set. -/
def Join.text? (j : Join) (left right : Fragment) : Option String :=
  if j.joinType = .cross then
    some (left.beside right (left.source ++ " CROSS JOIN " ++ right.source)).text
  else do
    let x ← left.columns[← j.table1Column]?
    let y ← right.columns[← j.table2Column]?
    return " UNION ".intercalate (j.joinType.kinds.map fun kind => (left.meet right kind x y).text)

theorem Join.text?_keyed {j : Join} (hj : j.joinType ≠ .cross) {left right : Fragment}
    {w : String} :
    j.text? left right = some w ↔
      ∃ x y, j.table1Column.bind (fun i => left.columns[i]?) = some x ∧
        j.table2Column.bind (fun i => right.columns[i]?) = some y ∧
        " UNION ".intercalate (j.joinType.kinds.map fun kind =>
          (left.meet right kind x y).text) = w := by
  simp only [Join.text?, if_neg hj, Option.bind_eq_bind, Option.bind_eq_some_iff, Option.pure_def,
    Option.some.injEq]
  constructor
  · intro h
    obtain ⟨i, hi, x, hx, k, hk, y, hy, rfl⟩ := h
    exact ⟨x, y, ⟨i, hi, hx⟩, ⟨k, hk, hy⟩, rfl⟩
  · intro h
    obtain ⟨x, y, ⟨i, hi, hx⟩, ⟨k, hk, hy⟩, rfl⟩ := h
    exact ⟨i, hi, x, hx, k, hk, y, hy, rfl⟩

/-- The requested positions that exist are those that are picked. -/
theorem Select.filterMap_picks {α : Type} (s : Select) (xs : List α) :
    (s.picks xs.length).filterMap (fun pick => xs[pick.index]?) =
      (s.includedColumnIndexes.getD []).filterMap fun i => xs[i]? := by
  have hfst := (s.includedColumnIndexes.getD []).zipIdx_map_fst 0
  conv_rhs => rw [← hfst]
  rw [Select.picks, List.filterMap_map, List.filterMap_map, List.filterMap_filter]
  refine List.filterMap_congr fun e _ => ?_
  simp only [Function.comp_apply, decide_eq_true_eq]
  split
  · rfl
  · exact (List.getElem?_eq_none (by omega)).symm

namespace Node

/-- What a consumer takes over: a source, and an expression for each column. -/
structure Operand where
  columns : List (Expr ColumnRef)
  source : Source Node

namespace Operand

def fragment (d : Dialect) (o : Operand) : Fragment :=
  ⟨o.columns.map fun e => e.sql d (ColumnRef.sql d), o.source.sql d Node.name⟩

/-- On the right of a join, another join is enclosed. -/
def rightFragment (d : Dialect) (o : Operand) : Fragment :=
  if o.source.isJoin then (o.fragment d).enclosed else o.fragment d

end Operand

def operand (d : Dialect) (s : Strategy) (n : Node) : Outcome Operand := do
  let p ← n.projection d
  let columns ← (List.range p.length).mapM (n.column d)
  return ⟨columns, ← n.read d s .spliced⟩

/-- The second input of a join beside the first. -/
def rightOperand (d : Dialect) (s : Strategy) (id : String) (l r : Node) : Outcome Operand := do
  let range ← renameRight? id l r
  let p ← r.projection d
  let columns ← (List.range p.length).mapM (rightColumn id l r (r.column d))
  return ⟨columns, ← r.read d s (rightMode range)⟩

/-- The texts of the source of a node and of its columns. -/
def fragment (d : Dialect) (s : Strategy) (n : Node) : Outcome Fragment := do
  return (← n.operand d s).fragment d

/-- The texts of the second input of a join beside the first. -/
def rightFragment (d : Dialect) (s : Strategy) (id : String) (l r : Node) : Outcome Fragment := do
  return (← rightOperand d s id l r).rightFragment d

def queryText (d : Dialect) (s : Strategy) (n : Node) : Outcome String := do
  return (← n.query d s).sql d Node.name

/-- A consumer that takes over the node's source takes over a join. -/
def isJoinClause (n : Node) : Bool :=
  match n.operation with
  | .join j => j.joinType.shape?.isSome
  | _ => false

variable {d : Dialect} {s : Strategy} {n l r : Node}

theorem operand_eq_ok {o : Operand} :
    (n.operand d s).result = .ok o ↔
      ∃ p, (n.projection d).result = .ok p ∧
        ((List.range p.length).mapM (n.column d)).result = .ok o.columns ∧
        (n.read d s .spliced).result = .ok o.source := by
  simp only [operand, Outcome.bind_eq_ok, Outcome.pure_eq_ok]
  constructor
  · intro h
    obtain ⟨p, hp, columns, hcolumns, source, hsource, rfl⟩ := h
    exact ⟨p, hp, hcolumns, hsource⟩
  · intro h
    obtain ⟨p, hp, hcolumns, hsource⟩ := h
    exact ⟨p, hp, _, hcolumns, _, hsource, rfl⟩

theorem rightOperand_eq_ok {id : String} {o : Operand} :
    (rightOperand d s id l r).result = .ok o ↔
      ∃ range p, (renameRight? id l r).result = .ok range ∧ (r.projection d).result = .ok p ∧
        ((List.range p.length).mapM (rightColumn id l r (r.column d))).result = .ok o.columns ∧
        (r.read d s (rightMode range)).result = .ok o.source := by
  simp only [rightOperand, Outcome.bind_eq_ok, Outcome.pure_eq_ok]
  constructor
  · intro h
    obtain ⟨range, hrange, p, hp, columns, hcolumns, source, hsource, rfl⟩ := h
    exact ⟨range, p, hrange, hp, hcolumns, hsource⟩
  · intro h
    obtain ⟨range, p, hrange, hp, hcolumns, hsource⟩ := h
    exact ⟨range, hrange, p, hp, _, hcolumns, _, hsource, rfl⟩

theorem fragment_eq_ok {f : Fragment} :
    (n.fragment d s).result = .ok f ↔
      ∃ o, (n.operand d s).result = .ok o ∧ o.fragment d = f := by
  simp only [fragment, Outcome.bind_eq_ok, Outcome.pure_eq_ok]

theorem rightFragment_eq_ok {id : String} {f : Fragment} :
    (rightFragment d s id l r).result = .ok f ↔
      ∃ o, (rightOperand d s id l r).result = .ok o ∧ o.rightFragment d = f := by
  simp only [rightFragment, Outcome.bind_eq_ok, Outcome.pure_eq_ok]

theorem queryText_eq_ok {w : String} :
    (n.queryText d s).result = .ok w ↔
      ∃ q, (n.query d s).result = .ok q ∧ q.sql d Node.name = w := by
  simp only [queryText, Outcome.bind_eq_ok, Outcome.pure_eq_ok]

theorem queryText_eq_error {e : CompileError} :
    (n.queryText d s).result = .error e ↔ (n.query d s).result = .error e := by
  simp only [queryText, Outcome.bind_eq_error, Outcome.pure_ne_error, and_false, exists_false,
    or_false]

/-- A query with nothing but items and a source is the text of a fragment. -/
theorem sql_plain (exprs : List (Expr ColumnRef)) (source : Source Node) :
    (Query.plain exprs source).sql d Node.name = ((Operand.mk exprs source).fragment d).text := by
  simp [Query.plain, Query.sql, selectList, Item.number, conditionText, groupsText,
    Operand.fragment, Fragment.text, List.zipIdx_map, Function.comp_def, Item.sql]

section Own

/-- The columns of a table are read as its own query reads them. -/
theorem mapM_column_of_table {t : TableSource} (hop : n.operation = .tableSource t) :
    ((List.range (TableSource.projection d n.schema).length).mapM (n.column d)).result =
      .ok ((TableSource.columnsOf n.schema).map (TableSource.columnExpr d n.id)) := by
  refine Outcome.mapM_range_eq_ok.mpr ⟨by simp [TableSource.projection], fun i e he => ?_⟩
  rw [List.getElem?_map, Option.map_eq_some_iff] at he
  obtain ⟨c, hc, rfl⟩ := he
  simp only [column_eq, hop, TableSource.rawColumn, Projection.column, Outcome.bind_eq_ok,
    Outcome.ofOption_eq_ok, Outcome.pure_eq_ok]
  exact ⟨c, hc, rfl⟩

theorem column_of_join {j : Join} (hop : n.operation = .join j)
    (hshape : j.joinType.shape?.isSome) (hl : (n.input 0).result = .ok l)
    (hr : (n.input 1).result = .ok r) {i : Nat} {e : Expr ColumnRef}
    (h : (joinColumn d n.id l r (l.column d) (r.column d) i).result = .ok e) :
    (n.column d i).result = .ok e := by
  simp only [column_eq, hop, if_pos hshape, Outcome.bind_eq_ok]
  exact ⟨l, hl, r, hr, h⟩

/-- The query of a node whose source can be taken over is made of what a consumer takes over. -/
theorem operand_of_query (hn : n.isSpliceable = true) {q : Query Node}
    (h : (n.query d s).result = .ok q) :
    ∃ o, (n.operand d s).result = .ok o ∧ .plain o.columns o.source = q := by
  obtain ⟨layout, hlayout, hq⟩ := query_eq_ok.mp h
  unfold Node.layout at hlayout
  cases hop : n.operation with
  | tableSource t =>
    simp only [hop, Outcome.bind_eq_ok, Outcome.pure_eq_ok] at hlayout
    obtain ⟨place, hplace, rfl⟩ := hlayout
    obtain ⟨src, hsrc, rfl⟩ := branch_query_eq_ok.mp hq
    have hread : (n.read d s .spliced).result = .ok src :=
      read_spliced_eq_ok.mpr ⟨place, by rwa [splice, hop], hsrc⟩
    have hp : (n.projection d).result = .ok (TableSource.projection d n.schema) := by
      rw [projection_eq, hop, Outcome.ok_eq_ok]
    exact ⟨⟨_, src⟩, operand_eq_ok.mpr ⟨_, hp, mapM_column_of_table hop, hread⟩, rfl⟩
  | join j =>
    rw [isSpliceable, hop] at hn
    obtain ⟨shape, hshape⟩ := Option.isSome_iff_exists.mp hn
    simp only [hop, hshape, joinBranch, Outcome.bind_eq_ok, Outcome.pure_eq_ok] at hlayout
    obtain ⟨_, ⟨l, hl, r, hr, p, hp, exprs, hexprs, place, hplace, rfl⟩, rfl⟩ := hlayout
    obtain ⟨src, hsrc, rfl⟩ := branch_query_eq_ok.mp hq
    have hread : (n.read d s .spliced).result = .ok src :=
      read_spliced_eq_ok.mpr ⟨place, by simpa only [splice, hop, hshape], hsrc⟩
    -- position by position, the select list is what a consumer reads
    obtain ⟨hlength, hcolumn⟩ := Outcome.mapM_range_eq_ok.mp hexprs
    have hcolumns : ((List.range p.length).mapM (n.column d)).result = .ok exprs :=
      Outcome.mapM_range_eq_ok.mpr
        ⟨hlength, fun i e he => column_of_join hop hn hl hr (hcolumn i e he)⟩
    exact ⟨⟨exprs, src⟩, operand_eq_ok.mpr ⟨p, hp, hcolumns, hread⟩, rfl⟩
  | _ => simp [isSpliceable, Operation.isSpliceable, hop] at hn

end Own

section Selection

/-- Positions out of range are passed over by both, and every other one has a column. -/
theorem mapM_picks_eq_ok {st : Select} {p : Projection} {columns exprs : List (Expr ColumnRef)}
    (hcolumns : ((List.range p.length).mapM (n.column d)).result = .ok columns) :
    ((st.picks p.length).mapM fun pick => n.column d pick.index).result = .ok exprs ↔
      ((st.includedColumnIndexes.getD []).filterMap fun i => columns[i]?) = exprs := by
  obtain ⟨hlength, hcolumn⟩ := Outcome.mapM_range_eq_ok.mp hcolumns
  have hpicked : ((st.picks p.length).mapM fun pick => n.column d pick.index).result =
      .ok ((st.picks p.length).filterMap fun pick => columns[pick.index]?) := by
    refine Outcome.mapM_eq_filterMap fun pick hpick => ?_
    have he := List.getElem?_eq_getElem (hlength ▸ Select.lt_of_mem_picks hpick)
    exact ⟨_, he, hcolumn _ _ he⟩
  rw [← hlength, Select.filterMap_picks, hlength] at hpicked
  rw [hpicked, Except.ok.injEq]

theorem picks_isEmpty_iff {st : Select} {columns : List (Expr ColumnRef)} :
    (st.picks columns.length).isEmpty ↔
      ((st.includedColumnIndexes.getD []).filterMap fun i => columns[i]?) = [] := by
  rw [← Select.filterMap_picks, List.isEmpty_iff, List.filterMap_eq_nil_iff]
  constructor
  · intro h
    simp [h]
  · intro h
    refine List.eq_nil_iff_forall_not_mem.mpr fun pick hpick => ?_
    exact absurd (Select.lt_of_mem_picks hpick) (by simpa using h pick hpick)

theorem pick_fragment (o : Operand) (positions : List Nat) :
    (o.fragment d).pick positions =
      (Operand.mk (positions.filterMap fun i => o.columns[i]?) o.source).fragment d := by
  simp [Fragment.pick, Operand.fragment, List.map_filterMap]

theorem query_of_select {k : Node} {st : Select} (hop : k.operation = .select st)
    (hin : (k.input 0).result = .ok n) {o : Operand} (ho : (n.operand d s).result = .ok o)
    {q : Query Node} :
    (k.query d s).result = .ok q ↔
      ((st.includedColumnIndexes.getD []).filterMap fun i => o.columns[i]?) ≠ [] ∧
        .plain ((st.includedColumnIndexes.getD []).filterMap fun i => o.columns[i]?) o.source =
          q := by
  obtain ⟨p, hp, hcolumns, hsource⟩ := operand_eq_ok.mp ho
  have hlength := (Outcome.mapM_range_eq_ok.mp hcolumns).1
  rw [query_eq_ok]
  simp only [layout, hop, headingOver, Outcome.bind_eq_ok, Outcome.guarded_eq_ok,
    Outcome.pure_eq_ok]
  constructor
  · intro h
    obtain ⟨_, ⟨m, hm, _, ⟨p', hp', hne, exprs, hexprs, rfl⟩, rfl⟩, hq⟩ := h
    obtain rfl := Outcome.result_unique hin hm
    obtain rfl := Outcome.result_unique hp hp'
    obtain ⟨src, hsrc, rfl⟩ := branch_query_eq_ok.mp hq
    obtain rfl := Outcome.result_unique hsource hsrc
    obtain rfl := (mapM_picks_eq_ok hcolumns).mp hexprs
    rw [← hlength, picks_isEmpty_iff] at hne
    exact ⟨hne, rfl⟩
  · intro h
    obtain ⟨hne, rfl⟩ := h
    rw [Ne, ← picks_isEmpty_iff, hlength] at hne
    exact ⟨_, ⟨n, hin, _, ⟨p, hp, hne, _, (mapM_picks_eq_ok hcolumns).mpr rfl, rfl⟩, rfl⟩,
      branch_query_eq_ok.mpr ⟨_, hsource, rfl⟩⟩

/-- A selection reads its columns out of the fragment of its input. -/
theorem queryText_of_select {k : Node} {st : Select} (hop : k.operation = .select st)
    (hin : (k.input 0).result = .ok n) {f : Fragment} (hf : (n.fragment d s).result = .ok f)
    {w : String} :
    (k.queryText d s).result = .ok w ↔
      (f.pick (st.includedColumnIndexes.getD [])).columns ≠ [] ∧
        (f.pick (st.includedColumnIndexes.getD [])).text = w := by
  obtain ⟨o, ho, rfl⟩ := fragment_eq_ok.mp hf
  simp only [queryText_eq_ok, query_of_select hop hin ho, pick_fragment, and_assoc,
    exists_and_left, exists_eq_left', sql_plain]
  simp [Operand.fragment]

end Selection

section Joining

variable {id : String} {lp rp : Projection}

theorem joinColumn_eq_ok (hl : (l.projection d).result = .ok lp)
    (hr : (r.projection d).result = .ok rp) {f g : Nat → Outcome (Expr ColumnRef)} {i : Nat}
    {e : Expr ColumnRef} :
    (joinColumn d id l r f g i).result = .ok e ↔
      if i < lp.length then (f i).result = .ok e
      else i - lp.length < rp.length ∧
        (rightColumn id l r g (i - lp.length)).result = .ok e := by
  simp only [joinColumn, Outcome.bind_eq_ok]
  constructor
  · intro h
    obtain ⟨lp', hl', h⟩ := h
    obtain rfl := Outcome.result_unique hl hl'
    split at h
    · rwa [if_pos ‹_›]
    · rw [if_neg ‹_›]
      simp only [Outcome.bind_eq_ok] at h
      obtain ⟨rp', hr', h⟩ := h
      obtain rfl := Outcome.result_unique hr hr'
      split at h
      · exact ⟨‹_›, h⟩
      · simp at h
  · intro h
    refine ⟨lp, hl, ?_⟩
    split at h
    · rwa [if_pos ‹_›]
    · rw [if_neg ‹_›, Outcome.bind_eq_ok]
      exact ⟨rp, hr, by rw [if_pos h.1]; exact h.2⟩

/-- The columns of a join are those of its first input and, behind them, those of its second. -/
theorem mapM_joinColumn_eq_ok (hl : (l.projection d).result = .ok lp)
    (hr : (r.projection d).result = .ok rp) {f g : Nat → Outcome (Expr ColumnRef)}
    {es : List (Expr ColumnRef)} :
    ((List.range (lp ++ rp).length).mapM (joinColumn d id l r f g)).result = .ok es ↔
      ∃ xs ys, ((List.range lp.length).mapM f).result = .ok xs ∧
        ((List.range rp.length).mapM (rightColumn id l r g)).result = .ok ys ∧ xs ++ ys = es := by
  simp only [Outcome.mapM_range_eq_ok, joinColumn_eq_ok hl hr, List.length_append]
  constructor
  · intro h
    obtain ⟨hlength, hes⟩ := h
    refine ⟨es.take lp.length, es.drop lp.length, ⟨by simp [hlength], fun i e he => ?_⟩,
      ⟨by simp [hlength], fun i e he => ?_⟩, List.take_append_drop _ _⟩
    · rw [List.getElem?_take, Option.ite_none_right_eq_some] at he
      have hleft := hes i e he.2
      rwa [if_pos he.1] at hleft
    · rw [List.getElem?_drop] at he
      have hright := hes _ e he
      rw [if_neg (by omega), Nat.add_sub_cancel_left] at hright
      exact hright.2
  · intro h
    obtain ⟨xs, ys, ⟨hxs, hx⟩, ⟨hys, hy⟩, rfl⟩ := h
    refine ⟨by simp [hxs, hys], fun i e he => ?_⟩
    split
    · rw [List.getElem?_append_left (by omega)] at he
      exact hx i e he
    · rw [List.getElem?_append_right (by omega), hxs] at he
      have hlt := (List.getElem?_eq_some_iff.mp he).1
      exact ⟨by omega, hy _ e he⟩

theorem projection_of_join {j : Join} (hop : n.operation = .join j)
    (hl : (n.input 0).result = .ok l) (hr : (n.input 1).result = .ok r) {p : Projection} :
    (n.projection d).result = .ok p ↔
      ∃ lp rp, (l.projection d).result = .ok lp ∧ (r.projection d).result = .ok rp ∧
        lp ++ rp = p := by
  rw [projection_eq d n]
  simp only [hop, Outcome.bind_eq_ok, Outcome.pure_eq_ok]
  constructor
  · intro h
    obtain ⟨l', hl', r', hr', lp, hlp, rp, hrp, rfl⟩ := h
    obtain rfl := Outcome.result_unique hl hl'
    obtain rfl := Outcome.result_unique hr hr'
    exact ⟨lp, rp, hlp, hrp, rfl⟩
  · intro h
    obtain ⟨lp, rp, hlp, hrp, rfl⟩ := h
    exact ⟨l, hl, r, hr, lp, hlp, rp, hrp, rfl⟩

/-- One form of a join puts the operands beside each other. -/
theorem joinQuery_beside {j₀ j : Join} {shape : JoinShape} (hop : n.operation = .join j₀)
    (hl : (n.input 0).result = .ok l) (hr : (n.input 1).result = .ok r) {q : Query Node} :
    (joinQuery d n j shape (n.readers d s)).result = .ok q ↔
      ∃ a b m, (l.operand d s).result = .ok a ∧ (rightOperand d s n.id l r).result = .ok b ∧
        (meeting d n j l r shape).result = .ok m ∧
        .plain (a.columns ++ b.columns) (.join a.source m b.source) = q := by
  simp only [joinQuery_eq_ok, joinBranch, joinPlace, Outcome.bind_eq_ok, Outcome.pure_eq_ok,
    operand_eq_ok, rightOperand_eq_ok]
  constructor
  · intro h
    obtain ⟨_, ⟨l', hl', r', hr', p, hp, exprs, hexprs, _,
      ⟨l'', hl'', r'', hr'', range, hrange, m, hm, rfl⟩, rfl⟩, hq⟩ := h
    obtain rfl := Outcome.result_unique hl hl'
    obtain rfl := Outcome.result_unique hr hr'
    obtain rfl := Outcome.result_unique hl hl''
    obtain rfl := Outcome.result_unique hr hr''
    obtain ⟨lp, rp, hlp, hrp, rfl⟩ := (projection_of_join hop hl hr).mp hp
    obtain ⟨xs, ys, hxs, hys, rfl⟩ := (mapM_joinColumn_eq_ok hlp hrp).mp hexprs
    obtain ⟨src, hsrc, rfl⟩ := branch_query_eq_ok.mp hq
    obtain ⟨ls, rs, hls, hrs, rfl⟩ := place_join_eq_ok.mp hsrc
    exact ⟨⟨xs, ls⟩, ⟨ys, rs⟩, m, ⟨lp, hlp, hxs, hls⟩, ⟨range, rp, hrange, hrp, hys, hrs⟩, hm, rfl⟩
  · intro h
    obtain ⟨a, b, m, ⟨lp, hlp, hxs, hls⟩, ⟨range, rp, hrange, hrp, hys, hrs⟩, hm, rfl⟩ := h
    have hp := (projection_of_join hop hl hr).mpr ⟨lp, rp, hlp, hrp, rfl⟩
    have hexprs := (mapM_joinColumn_eq_ok hlp hrp).mpr ⟨_, _, hxs, hys, rfl⟩
    refine ⟨_, ⟨l, hl, r, hr, _, hp, _, hexprs, _,
      ⟨l, hl, r, hr, range, hrange, m, hm, rfl⟩, rfl⟩, ?_⟩
    exact branch_query_eq_ok.mpr ⟨_, place_join_eq_ok.mpr ⟨_, _, hls, hrs, rfl⟩, rfl⟩

theorem checkIndex_eq_ok {p : Projection} (hp : (n.projection d).result = .ok p) {i : Nat}
    {u : Unit} : (checkIndex d id n i).result = .ok u ↔ i < p.length := by
  simp only [checkIndex, Outcome.bind_eq_ok]
  constructor
  · intro h
    obtain ⟨p', hp', h⟩ := h
    obtain rfl := Outcome.result_unique hp hp'
    split at h
    · simp at h
    · omega
  · intro h
    refine ⟨p, hp, ?_⟩
    rw [if_neg (by omega), Outcome.pure_eq_ok]

/-- A keyed join meets on columns of its operands. -/
theorem meeting_keyed_eq_ok {a b : Operand} (ha : (l.operand d s).result = .ok a)
    (hb : (rightOperand d s n.id l r).result = .ok b) {j : Join} {kind : JoinKind} {m : Meeting} :
    (meeting d n j l r (.keyed kind)).result = .ok m ↔
      ∃ x y, j.table1Column.bind (fun i => a.columns[i]?) = some x ∧
        j.table2Column.bind (fun i => b.columns[i]?) = some y ∧ .on kind x y = m := by
  obtain ⟨lp, hlp, hxs, _⟩ := operand_eq_ok.mp ha
  obtain ⟨range, rp, _, hrp, hys, _⟩ := rightOperand_eq_ok.mp hb
  obtain ⟨hxlength, hx⟩ := Outcome.mapM_range_eq_ok.mp hxs
  obtain ⟨hylength, hy⟩ := Outcome.mapM_range_eq_ok.mp hys
  simp only [meeting, Outcome.bind_eq_ok, Outcome.pure_eq_ok, Outcome.ofOption_eq_ok,
    checkIndex_eq_ok hlp, checkIndex_eq_ok hrp, Option.bind_eq_some_iff]
  constructor
  · intro h
    obtain ⟨i, hi, k, hk, _, hil, _, hkl, x, hxi, y, hyk, rfl⟩ := h
    have hxs := List.getElem?_eq_getElem (hxlength ▸ hil)
    have hys := List.getElem?_eq_getElem (hylength ▸ hkl)
    obtain rfl := Outcome.result_unique (hx _ _ hxs) hxi
    obtain rfl := Outcome.result_unique (hy _ _ hys) hyk
    exact ⟨_, _, ⟨i, hi, hxs⟩, ⟨k, hk, hys⟩, rfl⟩
  · intro h
    obtain ⟨x, y, ⟨i, hi, hxi⟩, ⟨k, hk, hyk⟩, rfl⟩ := h
    have hil := (List.getElem?_eq_some_iff.mp hxi).1
    have hkl := (List.getElem?_eq_some_iff.mp hyk).1
    exact ⟨i, hi, k, hk, (), by omega, (), by omega, x, hx _ _ hxi, y, hy _ _ hyk, rfl⟩

theorem columns_fragment (o : Operand) :
    (o.fragment d).columns = o.columns.map fun e => e.sql d (ColumnRef.sql d) := rfl

theorem columns_rightFragment (o : Operand) :
    (o.rightFragment d).columns = o.columns.map fun e => e.sql d (ColumnRef.sql d) := by
  unfold Operand.rightFragment
  split <;> rfl

theorem sql_beside (a b : Operand) (m : Meeting) :
    (Query.plain (a.columns ++ b.columns) (.join a.source m b.source)).sql d Node.name =
      ((a.fragment d).beside (b.rightFragment d)
        (m.sql d (a.fragment d).source (b.rightFragment d).source)).text := by
  have hsource : (b.rightFragment d).source = if b.source.isJoin then
      "(" ++ b.source.sql d Node.name ++ ")" else b.source.sql d Node.name := by
    unfold Operand.rightFragment
    split <;> rfl
  rw [sql_plain, Fragment.beside, columns_rightFragment, hsource]
  simp only [Operand.fragment, Source.sql, List.map_append]

theorem joinQuery_of_operands {j₀ j : Join} (hop : n.operation = .join j₀)
    (hl : (n.input 0).result = .ok l) (hr : (n.input 1).result = .ok r) {a b : Operand}
    (ha : (l.operand d s).result = .ok a) (hb : (rightOperand d s n.id l r).result = .ok b)
    {shape : JoinShape} {q : Query Node} :
    (joinQuery d n j shape (n.readers d s)).result = .ok q ↔
      ∃ m, (meeting d n j l r shape).result = .ok m ∧
        .plain (a.columns ++ b.columns) (.join a.source m b.source) = q := by
  rw [joinQuery_beside hop hl hr]
  constructor
  · intro h
    obtain ⟨a', b', m, ha', hb', hm, rfl⟩ := h
    obtain rfl := Outcome.result_unique ha ha'
    obtain rfl := Outcome.result_unique hb hb'
    exact ⟨m, hm, rfl⟩
  · intro h
    obtain ⟨m, hm, rfl⟩ := h
    exact ⟨a, b, m, ha, hb, hm, rfl⟩

/-- A join that has a query has both operands. -/
theorem operands_of_query {j : Join} (hop : n.operation = .join j)
    (hl : (n.input 0).result = .ok l) (hr : (n.input 1).result = .ok r) {q : Query Node}
    (h : (n.query d s).result = .ok q) :
    ∃ a b, (l.operand d s).result = .ok a ∧ (rightOperand d s n.id l r).result = .ok b := by
  have hclause : ∃ shape q, (joinQuery d n j shape (n.readers d s)).result = .ok q := by
    simp only [query, queryStep, hop] at h
    cases hshape : j.joinType.shape? with
    | some shape =>
      rw [hshape] at h
      exact ⟨shape, q, h⟩
    | none =>
      simp only [hshape, Outcome.bind_eq_ok] at h
      obtain ⟨ql, hql, _⟩ := h
      exact ⟨_, ql, hql⟩
  obtain ⟨shape, q, hq⟩ := hclause
  obtain ⟨a, b, _, ha, hb, _⟩ := (joinQuery_beside hop hl hr).mp hq
  exact ⟨a, b, ha, hb⟩

/-- The query of a keyed join over its operands. -/
theorem joinQuery_keyed_eq_ok {j₀ j : Join} (hop : n.operation = .join j₀)
    (hl : (n.input 0).result = .ok l) (hr : (n.input 1).result = .ok r) {a b : Operand}
    (ha : (l.operand d s).result = .ok a) (hb : (rightOperand d s n.id l r).result = .ok b)
    {kind : JoinKind} {q : Query Node} :
    (joinQuery d n j (.keyed kind) (n.readers d s)).result = .ok q ↔
      ∃ x y, j.table1Column.bind (fun i => a.columns[i]?) = some x ∧
        j.table2Column.bind (fun i => b.columns[i]?) = some y ∧
        .plain (a.columns ++ b.columns) (.join a.source (.on kind x y) b.source) = q := by
  simp only [joinQuery_of_operands hop hl hr ha hb, meeting_keyed_eq_ok ha hb]
  constructor
  · intro h
    obtain ⟨_, ⟨x, y, hx, hy, rfl⟩, rfl⟩ := h
    exact ⟨x, y, hx, hy, rfl⟩
  · intro h
    obtain ⟨x, y, hx, hy, rfl⟩ := h
    exact ⟨_, ⟨x, y, hx, hy, rfl⟩, rfl⟩

theorem text?_of_operands {j : Join} (hj : j.joinType ≠ .cross) (a b : Operand) {w : String} :
    j.text? (a.fragment d) (b.rightFragment d) = some w ↔
      ∃ x y, j.table1Column.bind (fun i => a.columns[i]?) = some x ∧
        j.table2Column.bind (fun i => b.columns[i]?) = some y ∧
        " UNION ".intercalate (j.joinType.kinds.map fun kind =>
          (Query.plain (a.columns ++ b.columns) (.join a.source (.on kind x y) b.source)).sql d
            Node.name) = w := by
  have hmap (i : Option Nat) (es : List (Expr ColumnRef)) :
      i.bind (fun k => (es.map fun e => e.sql d (ColumnRef.sql d))[k]?) =
        (i.bind fun k => es[k]?).map fun e => e.sql d (ColumnRef.sql d) := by
    cases i <;> simp
  simp only [Join.text?_keyed hj, columns_fragment, columns_rightFragment, hmap,
    Option.map_eq_some_iff, sql_beside, Meeting.sql, Fragment.meet]
  constructor
  · intro h
    obtain ⟨_, _, ⟨x, hx, rfl⟩, ⟨y, hy, rfl⟩, rfl⟩ := h
    exact ⟨x, y, hx, hy, rfl⟩
  · intro h
    obtain ⟨x, y, hx, hy, rfl⟩ := h
    exact ⟨_, _, ⟨x, hx, rfl⟩, ⟨y, hy, rfl⟩, rfl⟩

theorem queryText_of_operands {j : Join} (hop : n.operation = .join j)
    (hl : (n.input 0).result = .ok l) (hr : (n.input 1).result = .ok r) {a b : Operand}
    (ha : (l.operand d s).result = .ok a) (hb : (rightOperand d s n.id l r).result = .ok b)
    {w : String} :
    (n.queryText d s).result = .ok w ↔ j.text? (a.fragment d) (b.rightFragment d) = some w := by
  have hclause {kind : JoinKind} (hkinds : j.joinType.kinds = [kind])
      (hj : j.joinType ≠ .cross) :
      (∃ q, (joinQuery d n j (.keyed kind) (n.readers d s)).result = .ok q ∧
        q.sql d Node.name = w) ↔ j.text? (a.fragment d) (b.rightFragment d) = some w := by
    simp only [joinQuery_keyed_eq_ok hop hl hr ha hb, text?_of_operands hj, hkinds]
    constructor
    · intro h
      obtain ⟨_, ⟨x, y, hx, hy, rfl⟩, rfl⟩ := h
      exact ⟨x, y, hx, hy, rfl⟩
    · intro h
      obtain ⟨x, y, hx, hy, rfl⟩ := h
      exact ⟨_, ⟨x, y, hx, hy, rfl⟩, rfl⟩
  simp only [queryText_eq_ok, query, queryStep, hop]
  cases ht : j.joinType with
  | inner => exact hclause (by rw [ht]; rfl) (by simp [ht])
  | leftOuter => exact hclause (by rw [ht]; rfl) (by simp [ht])
  | rightOuter => exact hclause (by rw [ht]; rfl) (by simp [ht])
  | cross =>
    simp [JoinType.shape?, joinQuery_of_operands hop hl hr ha hb, meeting, Join.text?, ht,
      sql_beside, Meeting.sql]
  | fullOuter =>
    have hj : j.joinType ≠ .cross := by simp [ht]
    simp only [JoinType.shape?, Outcome.bind_eq_ok, Outcome.pure_eq_ok,
      joinQuery_keyed_eq_ok hop hl hr ha hb, text?_of_operands hj, ht]
    constructor
    · intro h
      obtain ⟨_, ⟨_, ⟨x, y, hx, hy, rfl⟩, _, ⟨x', y', hx', hy', rfl⟩, rfl⟩, rfl⟩ := h
      -- both clauses meet on the same columns
      obtain rfl := Option.some.inj (hx.symm.trans hx')
      obtain rfl := Option.some.inj (hy.symm.trans hy')
      exact ⟨x, y, hx, hy, by rw [Query.sql]; rfl⟩
    · intro h
      obtain ⟨x, y, hx, hy, rfl⟩ := h
      exact ⟨_, ⟨_, ⟨x, y, hx, hy, rfl⟩, _, ⟨x, y, hx, hy, rfl⟩, rfl⟩, by rw [Query.sql]; rfl⟩

/-- A join writes the fragments of its inputs beside each other. -/
theorem queryText_of_join {j : Join} (hop : n.operation = .join j)
    (hl : (n.input 0).result = .ok l) (hr : (n.input 1).result = .ok r) {w : String} :
    (n.queryText d s).result = .ok w ↔
      ∃ f g, (l.fragment d s).result = .ok f ∧ (rightFragment d s n.id l r).result = .ok g ∧
        j.text? f g = some w := by
  simp only [fragment_eq_ok, rightFragment_eq_ok]
  constructor
  · intro h
    obtain ⟨q, hq, _⟩ := queryText_eq_ok.mp h
    obtain ⟨a, b, ha, hb⟩ := operands_of_query hop hl hr hq
    exact ⟨_, _, ⟨a, ha, rfl⟩, ⟨b, hb, rfl⟩, (queryText_of_operands hop hl hr ha hb).mp h⟩
  · intro h
    obtain ⟨_, _, ⟨a, ha, rfl⟩, ⟨b, hb, rfl⟩, h⟩ := h
    exact (queryText_of_operands hop hl hr ha hb).mpr h

theorem isJoin_of_read_whole {range : Option String} {src : Source Node}
    (h : (n.read d s (.whole range)).result = .ok src) : src.isJoin = false := by
  cases s with
  | commonTableExpressions =>
    rw [read_whole_named, Outcome.ok_eq_ok] at h
    subst h
    rfl
  | inline =>
    obtain ⟨q, _, rfl⟩ := read_whole_nested_eq_ok.mp h
    rfl

/-- What is taken over is a join just where the node is a join of one clause. -/
theorem isJoin_of_read_spliced {src : Source Node} (h : (n.read d s .spliced).result = .ok src) :
    src.isJoin = n.isJoinClause := by
  obtain ⟨place, hplace, hsrc⟩ := read_spliced_eq_ok.mp h
  have hwhole (hinput : place = .input n (.whole none)) : src.isJoin = false := by
    subst hinput
    exact isJoin_of_read_whole hsrc
  unfold splice at hplace
  unfold isJoinClause
  cases hop : n.operation with
  | tableSource t =>
    rw [hop] at hplace
    obtain ⟨path, rfl⟩ := eq_table_of_tablePlace hplace
    rw [Place.source, Outcome.pure_eq_ok] at hsrc
    subst hsrc
    rfl
  | join j =>
    simp only [hop] at hplace
    cases hshape : j.joinType.shape? with
    | some shape =>
      simp only [hshape, joinPlace, Outcome.bind_eq_ok, Outcome.pure_eq_ok] at hplace
      obtain ⟨l, _, r, _, range, _, m, _, rfl⟩ := hplace
      obtain ⟨ls, rs, _, _, rfl⟩ := place_join_eq_ok.mp hsrc
      simp [Source.isJoin, hshape]
    | none =>
      rw [hshape, Outcome.pure_eq_ok] at hplace
      simp [hwhole hplace.symm, hshape]
  | _ =>
    rw [hop, Outcome.pure_eq_ok] at hplace
    exact hwhole hplace.symm

theorem rightOperand_of_kept (hkept : (renameRight? id l r).result = .ok none) {o : Operand} :
    (rightOperand d s id l r).result = .ok o ↔ (r.operand d s).result = .ok o := by
  have hcolumn {i : Nat} {e : Expr ColumnRef} :
      (rightColumn id l r (r.column d) i).result = .ok e ↔ (r.column d i).result = .ok e := by
    simp only [rightColumn, Outcome.bind_eq_ok, hkept, Except.ok.injEq, exists_eq_left']
  simp only [rightOperand_eq_ok, operand_eq_ok, hkept, Except.ok.injEq, Outcome.mapM_range_eq_ok,
    hcolumn, rightMode, exists_and_left, exists_eq_left']

/-- A second input that keeps its ranges is written as its own fragment, a join enclosed. -/
theorem rightFragment_of_kept (hkept : (renameRight? id l r).result = .ok none) {g : Fragment} :
    (rightFragment d s id l r).result = .ok g ↔
      ∃ f, (r.fragment d s).result = .ok f ∧ (if r.isJoinClause then f.enclosed else f) = g := by
  have henclosed {o : Operand} (ho : (r.operand d s).result = .ok o) :
      o.rightFragment d = if r.isJoinClause then (o.fragment d).enclosed else o.fragment d := by
    obtain ⟨_, _, _, hsource⟩ := operand_eq_ok.mp ho
    rw [Operand.rightFragment, isJoin_of_read_spliced hsource]
  simp only [rightFragment_eq_ok, rightOperand_of_kept hkept, fragment_eq_ok]
  constructor
  · intro h
    obtain ⟨o, ho, rfl⟩ := h
    exact ⟨_, ⟨o, ho, rfl⟩, (henclosed ho).symm⟩
  · intro h
    obtain ⟨_, ⟨o, ho, rfl⟩, rfl⟩ := h
    exact ⟨o, ho, henclosed ho⟩

end Joining

/-- Taking over the source of a node is faithful. The node's own query is the text of its fragment.
A selection over the node writes the picked columns of that fragment over its source; a join writes
the fragment on its left, and on its right unless it has to rename its second input. -/
theorem splicing_faithful (d : Dialect) (s : Strategy) {n : Node} (hn : n.isSpliceable = true)
    {w : String} (h : (n.queryText d s).result = .ok w) :
    ∃ f, (n.fragment d s).result = .ok f ∧ f.text = w ∧
      (∀ (k : Node) (st : Select), k.operation = .select st → (k.input 0).result = .ok n →
        ∀ v, (k.queryText d s).result = .ok v ↔
          (f.pick (st.includedColumnIndexes.getD [])).columns ≠ [] ∧
            (f.pick (st.includedColumnIndexes.getD [])).text = v) ∧
      (∀ (k : Node) (j : Join) (r : Node), k.operation = .join j →
        (k.input 0).result = .ok n → (k.input 1).result = .ok r →
        ∀ v, (k.queryText d s).result = .ok v ↔
          ∃ g, (rightFragment d s k.id n r).result = .ok g ∧ j.text? f g = some v) ∧
      ∀ (k : Node) (j : Join) (l : Node), k.operation = .join j →
        (k.input 0).result = .ok l → (k.input 1).result = .ok n →
        (renameRight? k.id l n).result = .ok none →
        ∀ v, (k.queryText d s).result = .ok v ↔
          ∃ g, (l.fragment d s).result = .ok g ∧
            j.text? g (if n.isJoinClause then f.enclosed else f) = some v := by
  obtain ⟨q, hq, rfl⟩ := queryText_eq_ok.mp h
  obtain ⟨o, ho, rfl⟩ := operand_of_query hn hq
  have hf : (n.fragment d s).result = .ok (o.fragment d) := fragment_eq_ok.mpr ⟨o, ho, rfl⟩
  refine ⟨_, hf, (sql_plain _ _).symm, ?_, ?_, ?_⟩
  · intro k st hop hin v
    exact queryText_of_select hop hin hf
  · intro k j r hop hl hr v
    simp only [queryText_of_join hop hl hr, hf, Except.ok.injEq, exists_and_left, exists_eq_left']
  · intro k j l hop hl hr hkept v
    simp only [queryText_of_join hop hl hr, rightFragment_of_kept hkept, hf, Except.ok.injEq,
      exists_eq_left', exists_and_left]

/-- A table of two columns under this id. -/
def ordersNode (id : String) : Node :=
  .mk id (.tableSource ⟨some "orders"⟩)
    (some ⟨"orders", none, none, [⟨"id", "int"⟩, ⟨"total", "decimal"⟩]⟩) []

def pairedNode : Node :=
  .mk "paired" (.join ⟨.inner, some 0, some 1⟩) none
    [.found (ordersNode "sales"), .found (ordersNode "refunds")]

def itemsFragment : Fragment where
  columns := ["node_items_table.\"id\"", "node_items_table.\"total\""]
  source := "\"orders\" AS node_items_table"

def pairedFragment : Fragment where
  columns := ["node_sales_table.\"id\"", "node_sales_table.\"total\"", "node_refunds_table.\"id\"",
    "node_refunds_table.\"total\""]
  source := "\"orders\" AS node_sales_table INNER JOIN \"orders\" AS node_refunds_table ON " ++
    "node_sales_table.\"id\" = node_refunds_table.\"total\""

/-- A selection over a join, a join with it on the left, and one with it on the right. -/
theorem splicing_faithful_paired :
    (pairedNode.queryText .postgreSql .commonTableExpressions).result = .ok pairedFragment.text ∧
      (queryText .postgreSql .commonTableExpressions
        (.mk "picked" (.select ⟨some [3, 7, 0], []⟩) none [.found pairedNode])).result =
        .ok (Fragment.mk ["node_refunds_table.\"total\"", "node_sales_table.\"id\""]
          pairedFragment.source).text ∧
      (queryText .postgreSql .commonTableExpressions
        (.mk "left" (.join ⟨.cross, none, none⟩) none
          [.found pairedNode, .found (ordersNode "items")])).result =
        .ok (pairedFragment.beside itemsFragment
          (pairedFragment.source ++ " CROSS JOIN " ++ itemsFragment.source)).text ∧
      (queryText .postgreSql .commonTableExpressions
        (.mk "right" (.join ⟨.leftOuter, some 1, some 3⟩) none
          [.found (ordersNode "items"), .found pairedNode])).result =
        .ok (itemsFragment.beside pairedFragment
          (itemsFragment.source ++ " LEFT OUTER JOIN (" ++ pairedFragment.source ++
            ") ON node_items_table.\"total\" = node_refunds_table.\"total\"")).text := by
  have hquery : (pairedNode.queryText .postgreSql .commonTableExpressions).result = .ok _ := rfl
  have hpaired : (pairedNode.fragment .postgreSql .commonTableExpressions).result =
      .ok pairedFragment := rfl
  have hitems : ((ordersNode "items").fragment .postgreSql .commonTableExpressions).result =
      .ok itemsFragment := rfl
  have hbeside : (rightFragment .postgreSql .commonTableExpressions "left" pairedNode
      (ordersNode "items")).result = .ok itemsFragment := rfl
  obtain ⟨f, hf, htext, hselect, hleft, hright⟩ :=
    splicing_faithful .postgreSql .commonTableExpressions rfl hquery
  obtain rfl := Outcome.result_unique hpaired hf
  refine ⟨htext ▸ hquery, ?_, ?_, ?_⟩
  · exact (hselect _ _ rfl rfl _).mpr ⟨by decide, congrArg Fragment.text rfl⟩
  · exact (hleft _ _ _ rfl rfl rfl _).mpr ⟨itemsFragment, hbeside, by decide +kernel⟩
  · exact (hright _ _ _ rfl rfl rfl rfl _).mpr ⟨itemsFragment, hitems, by decide +kernel⟩

end Node

end DataflowSql

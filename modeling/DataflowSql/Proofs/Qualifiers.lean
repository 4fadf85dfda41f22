import DataflowSql.Proofs.Ranges
import DataflowSql.Proofs.Spelling

/-! Ranges in scope. The ranges of a node are those its source introduces, and each of its columns
is read from one of them. Wherever two sources meet on equal values, also deep inside a source, the
values are columns of these very sources. In the text every column stands behind its range. -/
namespace DataflowSql

namespace Sql

variable {ρ : Type}

/-- The ranges a source introduces, in order. Those inside a nested query stay there. -/
def Source.ranges (name : ρ → String) : Source ρ → List String
  | .table _ range => [range]
  | .named t range => [range.getD (name t)]
  | .nested _ _ range => [range]
  | .join l _ r => l.ranges name ++ r.ranges name

/-- A column written behind the name of its range, or one such field of a table cast to text. -/
inductive Expr.ReadsFrom (d : Dialect) (range : String) : Expr ColumnRef → Prop
  | output (index : Nat) : ReadsFrom d range (.column (.ranged range index))
  | field (name : String) : ReadsFrom d range (.column (.field range name))
  | cast (name type : String) : ReadsFrom d range (d.castToText (.column (.field range name)) type)

/-- The casts to text of a dialect. -/
def textCasts : Dialect → List Unary
  | .mySql => [.castChar]
  | .postgreSql => [.castText]
  | .sqlServer => [.convertDate, .castNVarChar]

/-- The texts of a column behind the name of its range, and of one such field cast to text. -/
inductive Qualified (d : Dialect) (range : String) : String → Prop
  | output (index : Nat) : Qualified d range (range ++ "." ++ columnName index)
  | field (name : String) : Qualified d range (range ++ "." ++ d.quoteIdentifier name)
  | cast {form : Unary} (name : String) (casts : form ∈ textCasts d) :
      Qualified d range (form.frame.1 ++ (range ++ "." ++ d.quoteIdentifier name) ++ form.frame.2)

theorem Expr.ReadsFrom.qualified {d : Dialect} {range : String} {e : Expr ColumnRef}
    (h : e.ReadsFrom d range) : Qualified d range (e.sql d (ColumnRef.sql d)) := by
  cases h with
  | output index => exact .output index
  | field name => exact .field name
  | cast name type =>
    unfold Dialect.castToText
    cases d with
    | mySql => exact .cast name (by simp [textCasts])
    | postgreSql => exact .cast name (by simp [textCasts])
    | sqlServer =>
      dsimp only
      split
      · exact .cast name (by simp [textCasts])
      · exact .cast name (by simp [textCasts])

/-- Two sources that meet. -/
structure JoinClause (ρ : Type) where
  left : Source ρ
  meeting : Meeting
  right : Source ρ

/-- If the sources meet on equal values, these are read from a range of the left source and from one
of the right. -/
def JoinClause.MeetsWithin (d : Dialect) (name : ρ → String) (c : JoinClause ρ) : Prop :=
  ∀ kind x y, c.meeting = .on kind x y →
    (∃ range ∈ c.left.ranges name, x.ReadsFrom d range) ∧
      ∃ range ∈ c.right.ranges name, y.ReadsFrom d range

/-- If the sources meet on equal values, the text names a range of the left source before the sign
of equality and one of the right source behind it. -/
def JoinClause.WritesWithin (d : Dialect) (c : JoinClause Node) : Prop :=
  ∀ kind x y, c.meeting = .on kind x y → ∃ u v,
    (Source.join c.left c.meeting c.right).sql d Node.name =
      c.left.sql d Node.name ++ " " ++ kind.text ++ " " ++
        c.right.enclosed (c.right.sql d Node.name) ++ " ON " ++ u ++ " = " ++ v ∧
    (∃ range ∈ c.left.ranges Node.name, Qualified d range u) ∧
    ∃ range ∈ c.right.ranges Node.name, Qualified d range v

theorem JoinClause.MeetsWithin.writesWithin {d : Dialect} {c : JoinClause Node}
    (h : c.MeetsWithin d Node.name) : c.WritesWithin d := by
  intro kind x y hmeeting
  obtain ⟨⟨left, hleft, hx⟩, ⟨right, hright, hy⟩⟩ := h kind x y hmeeting
  refine ⟨_, _, ?_, ⟨left, hleft, hx.qualified⟩, ⟨right, hright, hy.qualified⟩⟩
  rw [hmeeting, Source.sql, Meeting.sql, Source.enclosed]

/-- What the branches of a query read. -/
def Query.sources : Query ρ → List (Source ρ)
  | .select _ _ source _ _ => [source]
  | .union l r => l.sources ++ r.sources
  | .unionAll l r => l.sources ++ r.sources

mutual

/-- The joins in a query, at any depth. -/
def Query.joins : Query ρ → List (JoinClause ρ)
  | .select _ _ source _ _ => source.joins
  | .union l r => l.joins ++ r.joins
  | .unionAll l r => l.joins ++ r.joins

def Source.joins : Source ρ → List (JoinClause ρ)
  | .table _ _ => []
  | .named _ _ => []
  | .nested _ q _ => q.joins
  | .join l m r => ⟨l, m, r⟩ :: (l.joins ++ r.joins)

end

theorem Query.mem_joins_iff {c : JoinClause ρ} : ∀ q : Query ρ,
    c ∈ q.joins ↔ ∃ src ∈ q.sources, c ∈ src.joins
  | .select _ _ _ _ _ => by simp [Query.joins, Query.sources]
  | .union l r => by
    simp only [Query.joins, Query.sources, List.mem_append, mem_joins_iff l, mem_joins_iff r,
      or_and_right, exists_or]
  | .unionAll l r => by
    simp only [Query.joins, Query.sources, List.mem_append, mem_joins_iff l, mem_joins_iff r,
      or_and_right, exists_or]

end Sql

open Sql

namespace Node

variable {d : Dialect} {s : Strategy} {n l r : Node}

section Sources

theorem sources_stack (q : Query Node) (qs : List (Query Node)) :
    (stack q qs).sources = (q :: qs).flatMap Query.sources := by
  induction qs generalizing q with
  | nil => simp [stack]
  | cons p qs ih =>
    have hstep : stack q (p :: qs) = stack (.unionAll q p) qs := rfl
    rw [hstep, ih]
    simp [Query.sources]

/-- The branches of a layout read what the branches of its query read. -/
theorem branch_of_mem_sources {layout : Layout} {q : Query Node} {src : Source Node}
    (h : (layout.query d s).result = .ok q) (hsrc : src ∈ q.sources) :
    ∃ b ∈ layout.branches, (b.place.source d s).result = .ok src := by
  have hbranch {b : Branch} {q : Query Node} (hq : (b.query d s).result = .ok q)
      (hsrc : src ∈ q.sources) : (b.place.source d s).result = .ok src := by
    obtain ⟨src', hsrc', rfl⟩ := branch_query_eq_ok.mp hq
    rw [Heading.selectFrom, Query.sources, List.mem_singleton] at hsrc
    exact hsrc ▸ hsrc'
  cases layout with
  | single b => exact ⟨b, by simp [Layout.branches], hbranch h hsrc⟩
  | union l r =>
    simp only [Layout.query, Outcome.bind_eq_ok, Outcome.pure_eq_ok] at h
    obtain ⟨ql, hl, qr, hr, rfl⟩ := h
    rcases List.mem_append.mp hsrc with hsrc | hsrc
    · exact ⟨l, by simp [Layout.branches], hbranch hl hsrc⟩
    · exact ⟨r, by simp [Layout.branches], hbranch hr hsrc⟩
  | stack b bs =>
    obtain ⟨p, ps, hps, rfl⟩ := stack_query_eq_ok.mp h
    rw [sources_stack] at hsrc
    obtain ⟨p', hp', hsrc⟩ := List.mem_flatMap.mp hsrc
    obtain ⟨c, hc, hcp⟩ := Outcome.exists_of_mem_mapM hps p' hp'
    exact ⟨c, hc, hbranch hcp hsrc⟩

end Sources

section Kinds

variable {t : TableSource}

/-- A node is a table source, a join of one clause, or read whole. -/
theorem kind_of_node (n : Node) :
    (∃ t, n.operation = .tableSource t) ∨ n.isJoinClause = true ∨ n.isSpliceable = false := by
  unfold isJoinClause isSpliceable Operation.isSpliceable
  cases n.operation with
  | join j => cases h : j.joinType.shape? <;> simp [h]
  | _ => simp

theorem ranges_of_table (hop : n.operation = .tableSource t) :
    n.ranges.result = .ok [tableRange n.id] := by
  rw [ranges_eq, hop, Outcome.ok_eq_ok]

theorem ranges_of_whole (hn : n.isSpliceable = false) : n.ranges.result = .ok [n.name] := by
  unfold isSpliceable Operation.isSpliceable at hn
  rw [ranges_eq]
  cases hop : n.operation <;> simp_all

theorem column_of_whole (hn : n.isSpliceable = false) (i : Nat) :
    (n.column d i).result = .ok (.column (.ranged n.name i)) := by
  unfold isSpliceable Operation.isSpliceable at hn
  rw [column_eq]
  cases hop : n.operation <;> simp_all

theorem read_spliced_of_whole (hn : n.isSpliceable = false) :
    n.read d s .spliced = n.read d s (.whole none) := by
  unfold isSpliceable Operation.isSpliceable at hn
  rw [read_eq, read_eq]
  unfold readStep
  cases hop : n.operation <;> simp_all

theorem projection_of_table (hop : n.operation = .tableSource t) {p : Projection}
    (hp : (n.projection d).result = .ok p) :
    p.length = (TableSource.columnsOf n.schema).length := by
  rw [projection_eq, hop, Outcome.ok_eq_ok] at hp
  rw [← hp, TableSource.projection, List.length_map]

/-- The columns of a join of one clause are those of both inputs. -/
theorem inputs_of_projection (hn : n.isJoinClause = true) {p : Projection}
    (hp : (n.projection d).result = .ok p) :
    ∃ l r lp rp, (n.input 0).result = .ok l ∧ (n.input 1).result = .ok r ∧
      (l.projection d).result = .ok lp ∧ (r.projection d).result = .ok rp ∧ lp ++ rp = p := by
  obtain ⟨j, hop, _⟩ := isJoinClause_iff.mp hn
  rw [projection_eq] at hp
  simp only [hop, Outcome.bind_eq_ok, Outcome.pure_eq_ok] at hp
  obtain ⟨l, hl, r, hr, lp, hlp, rp, hrp, he⟩ := hp
  exact ⟨l, r, lp, rp, hl, hr, hlp, hrp, he⟩

end Kinds

section Ranges

variable {ls qs rs : List String} {src : Source Node}

/-- What a join of one clause adds to the ranges of its first input. -/
def rightRanges (id : String) (ls qs : List String) : List String :=
  (Join.rename? id ls qs).elim qs fun range => [range]

theorem ranges_of_inputs (hn : n.isJoinClause = true) (hl : (n.input 0).result = .ok l)
    (hr : (n.input 1).result = .ok r) (hls : l.ranges.result = .ok ls)
    (hqs : r.ranges.result = .ok qs) :
    n.ranges.result = .ok (ls ++ rightRanges n.id ls qs) := by
  obtain ⟨j, hop, hshape⟩ := isJoinClause_iff.mp hn
  rw [ranges_eq]
  simp only [hop, if_pos hshape, Outcome.bind_eq_ok, Outcome.pure_eq_ok]
  exact ⟨l, hl, ls, hls, r, hr, qs, hqs, rfl⟩

theorem ranges_of_read_whole {range : Option String}
    (h : (n.read d s (.whole range)).result = .ok src) :
    src.ranges Node.name = [range.getD n.name] := by
  cases s with
  | commonTableExpressions =>
    rw [read_whole_named, Outcome.ok_eq_ok] at h
    subst h
    rfl
  | inline =>
    obtain ⟨q, _, rfl⟩ := read_whole_nested_eq_ok.mp h
    rfl

/-- What is read as the second input of a join introduces what the join adds. -/
theorem ranges_of_read_right {id : String} {range : Option String}
    (hspliced : ∀ src, (r.read d s .spliced).result = .ok src →
      r.ranges.result = .ok (src.ranges Node.name))
    (hls : l.ranges.result = .ok ls) (hqs : r.ranges.result = .ok qs)
    (hrange : (renameRight? id l r).result = .ok range)
    (h : (r.read d s (rightMode range)).result = .ok src) :
    src.ranges Node.name = rightRanges id ls qs := by
  rw [renameRight?_eq_ok hls hqs] at hrange
  rw [rightRanges, hrange]
  cases range with
  | none => exact Outcome.result_unique (hspliced src h) hqs
  | some range => exact ranges_of_read_whole h

theorem isJoinPlace_of_splice (hn : n.isJoinClause = true) {place : Place}
    (h : (n.splice d).result = .ok place) : IsJoinPlace d n place := by
  obtain ⟨j, hop, hshape⟩ := isJoinClause_iff.mp hn
  obtain ⟨shape, hshape⟩ := Option.isSome_iff_exists.mp hshape
  simp only [splice, hop, hshape] at h
  exact isJoinPlace_of_joinPlace h

theorem exists_ranges_of_renameRight? {id : String} {range : Option String}
    (h : (renameRight? id l r).result = .ok range) :
    ∃ ls qs, l.ranges.result = .ok ls ∧ r.ranges.result = .ok qs := by
  simp only [renameRight?, Outcome.bind_eq_ok] at h
  obtain ⟨ls, hls, qs, hqs, _⟩ := h
  exact ⟨ls, qs, hls, hqs⟩

/-- The ranges of a node are those that its source introduces where it is taken over. -/
theorem ranges_of_read_spliced (h : (n.read d s .spliced).result = .ok src) :
    n.ranges.result = .ok (src.ranges Node.name) := by
  induction n using reads_induction generalizing src with
  | step n ih =>
    rcases kind_of_node n with ⟨t, hop⟩ | hn | hn
    · obtain ⟨place, hplace, hsrc⟩ := read_spliced_eq_ok.mp h
      rw [splice, hop] at hplace
      obtain ⟨path, rfl⟩ := eq_table_of_tablePlace hplace
      rw [Place.source, Outcome.pure_eq_ok] at hsrc
      subst hsrc
      exact ranges_of_table hop
    · obtain ⟨place, hplace, hsrc⟩ := read_spliced_eq_ok.mp h
      obtain ⟨hl, hr, hrange, _⟩ := isJoinPlace_of_splice hn hplace
      obtain ⟨ls, rs, hls, hrs, rfl⟩ := place_join_eq_ok.mp hsrc
      have hleft := ih _ (reads_of_input hl) hls
      obtain ⟨_, qs, _, hqs⟩ := exists_ranges_of_renameRight? hrange
      have hright := ranges_of_read_right (fun _ => ih _ (reads_of_input hr)) hleft hqs hrange hrs
      rw [Source.ranges, hright]
      exact ranges_of_inputs hn hl hr hleft hqs
    · rw [read_spliced_of_whole hn] at h
      rw [ranges_of_read_whole h]
      exact ranges_of_whole hn

/-- Ranges can be told wherever columns can. -/
theorem exists_ranges {p : Projection} (hp : (n.projection d).result = .ok p) :
    ∃ rs, n.ranges.result = .ok rs := by
  induction n using reads_induction generalizing p with
  | step n ih =>
    rcases kind_of_node n with ⟨t, hop⟩ | hn | hn
    · exact ⟨_, ranges_of_table hop⟩
    · obtain ⟨l, r, lp, rp, hl, hr, hlp, hrp, _⟩ := inputs_of_projection hn hp
      obtain ⟨ls, hls⟩ := ih l (reads_of_input hl) hlp
      obtain ⟨qs, hqs⟩ := ih r (reads_of_input hr) hrp
      exact ⟨_, ranges_of_inputs hn hl hr hls hqs⟩
    · exact ⟨_, ranges_of_whole hn⟩

end Ranges

section Columns

variable {p : Projection} {i : Nat} {e : Expr ColumnRef} {ls qs rs : List String}

theorem column_of_table {t : TableSource} (hop : n.operation = .tableSource t) :
    (n.column d i).result = .ok e ↔
      ((TableSource.columnsOf n.schema)[i]?.map (TableSource.columnExpr d n.id)) = some e := by
  simp only [column_eq, hop, TableSource.rawColumn, Projection.column, Outcome.bind_eq_ok,
    Outcome.ofOption_eq_ok, Outcome.pure_eq_ok, Option.map_eq_some_iff]

theorem column_of_join_iff (hn : n.isJoinClause = true) (hl : (n.input 0).result = .ok l)
    (hr : (n.input 1).result = .ok r) :
    (n.column d i).result = .ok e ↔
      (joinColumn d n.id l r (l.column d) (r.column d) i).result = .ok e := by
  obtain ⟨j, hop, hshape⟩ := isJoinClause_iff.mp hn
  rw [column_eq]
  simp only [hop, if_pos hshape, Outcome.bind_eq_ok, hl, hr, Except.ok.injEq, exists_eq_left']

theorem rightColumn_eq_ok {id : String} {own : Nat → Outcome (Expr ColumnRef)}
    (hls : l.ranges.result = .ok ls) (hqs : r.ranges.result = .ok qs) :
    (rightColumn id l r own i).result = .ok e ↔
      match Join.rename? id ls qs with
      | some range => .column (.ranged range i) = e
      | none => (own i).result = .ok e := by
  simp only [rightColumn, Outcome.bind_eq_ok, renameRight?_eq_ok hls hqs, exists_eq_left']
  cases Join.rename? id ls qs <;> simp

/-- Every column of a join can be read if those of its inputs can. -/
theorem exists_joinColumn {id : String} {lp rp : Projection}
    (hlp : (l.projection d).result = .ok lp) (hrp : (r.projection d).result = .ok rp)
    (hl : ∀ i < lp.length, ∃ e, (l.column d i).result = .ok e)
    (hr : ∀ i < rp.length, ∃ e, (r.column d i).result = .ok e) (hi : i < lp.length + rp.length) :
    ∃ e, (joinColumn d id l r (l.column d) (r.column d) i).result = .ok e := by
  obtain ⟨ls, hls⟩ := exists_ranges hlp
  obtain ⟨qs, hqs⟩ := exists_ranges hrp
  simp only [joinColumn_eq_ok hlp hrp]
  by_cases hlt : i < lp.length
  · simp only [if_pos hlt]
    exact hl i hlt
  · have hrest : i - lp.length < rp.length := by omega
    simp only [if_neg hlt, hrest, true_and, rightColumn_eq_ok hls hqs]
    cases Join.rename? id ls qs with
    | some range => exact ⟨_, rfl⟩
    | none => exact hr _ hrest

/-- Every column of a node can be read. -/
theorem exists_column (hp : (n.projection d).result = .ok p) (hi : i < p.length) :
    ∃ e, (n.column d i).result = .ok e := by
  induction n using reads_induction generalizing p i with
  | step n ih =>
    rcases kind_of_node n with ⟨t, hop⟩ | hn | hn
    · rw [projection_of_table hop hp] at hi
      simp only [column_of_table hop, List.getElem?_eq_getElem hi, Option.map_some,
        Option.some.injEq, exists_eq']
    · obtain ⟨l, r, lp, rp, hl, hr, hlp, hrp, rfl⟩ := inputs_of_projection hn hp
      rw [List.length_append] at hi
      simp only [column_of_join_iff hn hl hr]
      exact exists_joinColumn hlp hrp (fun _ => ih l (reads_of_input hl) hlp)
        (fun _ => ih r (reads_of_input hr) hrp) hi
    · exact ⟨_, column_of_whole hn i⟩

/-- Where the source of a node is taken over, no other columns can be read. -/
theorem lt_of_column (hn : n.isSpliceable = true) (hp : (n.projection d).result = .ok p)
    (he : (n.column d i).result = .ok e) : i < p.length := by
  rcases kind_of_node n with ⟨t, hop⟩ | hjoin | hwhole
  · rw [column_of_table hop, Option.map_eq_some_iff] at he
    obtain ⟨c, hc, _⟩ := he
    obtain ⟨hlt, _⟩ := List.getElem?_eq_some_iff.mp hc
    rwa [projection_of_table hop hp]
  · obtain ⟨l, r, lp, rp, hl, hr, hlp, hrp, rfl⟩ := inputs_of_projection hjoin hp
    rw [column_of_join_iff hjoin hl hr, joinColumn_eq_ok hlp hrp] at he
    rw [List.length_append]
    by_cases hlt : i < lp.length
    · omega
    · rw [if_neg hlt] at he
      omega
  · simp [hn] at hwhole

/-- A column of the second input is read from a range that the join adds. -/
theorem readsFrom_of_rightColumn {id : String} (hls : l.ranges.result = .ok ls)
    (hqs : r.ranges.result = .ok qs)
    (hown : ∀ e, (r.column d i).result = .ok e → ∃ range ∈ qs, e.ReadsFrom d range)
    (he : (rightColumn id l r (r.column d) i).result = .ok e) :
    ∃ range ∈ rightRanges id ls qs, e.ReadsFrom d range := by
  rw [rightColumn_eq_ok hls hqs] at he
  rw [rightRanges]
  cases hrename : Join.rename? id ls qs with
  | some range =>
    rw [hrename] at he
    exact ⟨range, by simp, he ▸ .output i⟩
  | none =>
    rw [hrename] at he
    exact hown e he

/-- A column is read from a range of its node. -/
theorem readsFrom_of_column (hrs : n.ranges.result = .ok rs)
    (he : (n.column d i).result = .ok e) : ∃ range ∈ rs, e.ReadsFrom d range := by
  induction n using reads_induction generalizing rs i e with
  | step n ih =>
    rcases kind_of_node n with ⟨t, hop⟩ | hn | hn
    · obtain rfl := Outcome.result_unique (ranges_of_table hop) hrs
      rw [column_of_table hop, Option.map_eq_some_iff] at he
      obtain ⟨c, _, rfl⟩ := he
      refine ⟨tableRange n.id, List.mem_singleton_self _, ?_⟩
      unfold TableSource.columnExpr
      split
      · exact .cast c.name c.type
      · exact .field c.name
    · obtain ⟨l, r, ls, qs, hl, hr, hls, hqs, rfl⟩ := ranges_of_join hn hrs
      rw [column_of_join_iff hn hl hr] at he
      simp only [joinColumn, Outcome.bind_eq_ok] at he
      obtain ⟨lp, _, he⟩ := he
      split at he
      · obtain ⟨range, hrange, hreads⟩ := ih l (reads_of_input hl) hls he
        exact ⟨range, List.mem_append_left _ hrange, hreads⟩
      · simp only [Outcome.bind_eq_ok] at he
        obtain ⟨rp, _, he⟩ := he
        split at he
        · have hown := fun e => ih r (reads_of_input hr) (i := i - lp.length) (e := e) hqs
          obtain ⟨range, hrange, hreads⟩ := readsFrom_of_rightColumn hls hqs hown he
          exact ⟨range, List.mem_append_right _ hrange, hreads⟩
        · simp at he
    · obtain rfl := Outcome.result_unique (ranges_of_whole hn) hrs
      obtain rfl := Outcome.result_unique (column_of_whole hn i) he
      exact ⟨_, by simp, .output i⟩

end Columns

section Meetings

variable {src : Source Node}

/-- The node is read by sources that meet within their ranges. -/
def MeetsWithin (d : Dialect) (s : Strategy) (n : Node) : Prop :=
  ∀ mode src, (n.read d s mode).result = .ok src → ∀ c ∈ src.joins, c.MeetsWithin d Node.name

theorem meetsWithin_of_meeting {j : Join} {shape : JoinShape} {m : Meeting}
    {left right : Source Node}
    (hleft : l.ranges.result = .ok (left.ranges Node.name)) {qs : List String}
    (hqs : r.ranges.result = .ok qs)
    (hright : right.ranges Node.name = rightRanges n.id (left.ranges Node.name) qs)
    (hm : (meeting d n j l r shape).result = .ok m) :
    (JoinClause.mk left m right).MeetsWithin d Node.name := by
  intro kind x y hmeeting
  cases shape with
  | cross =>
    rw [meeting, Outcome.pure_eq_ok] at hm
    subst hm
    cases hmeeting
  | keyed kind' =>
    simp only [meeting, Outcome.bind_eq_ok, Outcome.pure_eq_ok] at hm
    obtain ⟨i, _, k, _, _, _, _, _, x', hx, y', hy, rfl⟩ := hm
    cases hmeeting
    rw [hright]
    exact ⟨readsFrom_of_column hleft hx,
      readsFrom_of_rightColumn hleft hqs (fun _ => readsFrom_of_column hqs) hy⟩

theorem meetsWithin_of_isJoinPlace {place : Place} (hreads : ∀ m, n.Reads m → m.MeetsWithin d s)
    (hplace : IsJoinPlace d n place) (hsrc : (place.source d s).result = .ok src) :
    ∀ c ∈ src.joins, c.MeetsWithin d Node.name := by
  obtain ⟨hl, hr, hrange, hm⟩ := hplace
  obtain ⟨left, right, hleft, hright, rfl⟩ := place_join_eq_ok.mp hsrc
  obtain ⟨_, qs, _, hqs⟩ := exists_ranges_of_renameRight? hrange
  have hls := ranges_of_read_spliced hleft
  have hrs := ranges_of_read_right (fun _ => ranges_of_read_spliced) hls hqs hrange hright
  intro c hc
  rw [Source.joins, List.mem_cons, List.mem_append] at hc
  rcases hc with rfl | hc | hc
  · exact meetsWithin_of_meeting hls hqs hrs hm
  · exact hreads _ (reads_of_input hl) _ _ hleft c hc
  · exact hreads _ (reads_of_input hr) _ _ hright c hc

theorem meetsWithin_of_branch {b : Branch} (hreads : ∀ m, n.Reads m → m.MeetsWithin d s)
    (hb : IsBranch d n b) (hsrc : (b.place.source d s).result = .ok src) :
    ∀ c ∈ src.joins, c.MeetsWithin d Node.name := by
  cases hb with
  | table path none =>
    obtain rfl := Outcome.pure_eq_ok.mp hsrc
    simp [Source.joins]
  | input one first heading => exact hreads _ (reads_of_input first) _ src hsrc
  | join two columns clause => exact meetsWithin_of_isJoinPlace hreads clause hsrc
  | append out available all reads => exact hreads _ reads _ src hsrc

theorem meetsWithin_of_read_whole {range : Option String}
    (hreads : ∀ m, n.Reads m → m.MeetsWithin d s)
    (h : (n.read d s (.whole range)).result = .ok src) :
    ∀ c ∈ src.joins, c.MeetsWithin d Node.name := by
  cases s with
  | commonTableExpressions =>
    rw [read_whole_named, Outcome.ok_eq_ok] at h
    subst h
    simp [Source.joins]
  | inline =>
    obtain ⟨q, hq, rfl⟩ := read_whole_nested_eq_ok.mp h
    obtain ⟨layout, hlayout, hq⟩ := query_eq_ok.mp hq
    intro c hc
    rw [Source.joins, Query.mem_joins_iff] at hc
    obtain ⟨src, hsrc, hc⟩ := hc
    obtain ⟨b, hb, hsrc⟩ := branch_of_mem_sources hq hsrc
    exact meetsWithin_of_branch hreads (isBranch_of_layout hlayout hb) hsrc c hc

theorem meetsWithin (n : Node) : n.MeetsWithin d s := by
  induction n using reads_induction with
  | step n ih =>
    intro mode src h
    cases mode with
    | whole range => exact meetsWithin_of_read_whole ih h
    | spliced =>
      obtain ⟨place, hplace, hsrc⟩ := read_spliced_eq_ok.mp h
      cases isSplice_of_splice hplace with
      | whole => exact meetsWithin_of_read_whole ih hsrc
      | table path =>
        obtain rfl := Outcome.pure_eq_ok.mp hsrc
        simp [Source.joins]
      | join clause => exact meetsWithin_of_isJoinPlace ih clause hsrc

end Meetings

/-- All names are in scope where the source of a node is taken over: the ranges of the node are
those the source introduces, in order; the node's columns and no others can be read, each from one
of these ranges; and every join in the source meets on columns of its own two operands. So it is
written: behind `AS` or by name in the text of the source, and before the dot of a column. -/
theorem spliced_names_in_scope (d : Dialect) (s : Strategy) {n : Node} (hn : n.isSpliceable = true)
    {src : Source Node} (hsrc : (n.read d s .spliced).result = .ok src) {p : Projection}
    (hp : (n.projection d).result = .ok p) :
    n.ranges.result = .ok (src.ranges Node.name) ∧
      (∀ i, (∃ e, (n.column d i).result = .ok e) ↔ i < p.length) ∧
      (∀ i e, (n.column d i).result = .ok e →
        ∃ range ∈ src.ranges Node.name, e.ReadsFrom d range ∧
          Qualified d range (e.sql d (ColumnRef.sql d))) ∧
      (∀ w, src.Spelled d w ↔ w = src.sql d Node.name) ∧
      ∀ c ∈ src.joins, c.MeetsWithin d Node.name ∧ c.WritesWithin d := by
  have hranges := ranges_of_read_spliced hsrc
  refine ⟨hranges, fun i => ⟨?_, exists_column hp⟩, ?_, fun _ => Source.spelled_iff, ?_⟩
  · intro h
    obtain ⟨e, he⟩ := h
    exact lt_of_column hn hp he
  · intro i e he
    obtain ⟨range, hrange, hreads⟩ := readsFrom_of_column hranges he
    exact ⟨range, hrange, hreads, hreads.qualified⟩
  · intro c hc
    have hmeets := meetsWithin n _ src hsrc c hc
    exact ⟨hmeets, hmeets.writesWithin⟩

/-- A join of a join with itself, the second time under a new range. -/
def echoedNode : Node :=
  .mk "echoed" (.join ⟨.leftOuter, some 1, some 2⟩) none [.found pairedNode, .found pairedNode]

/-- Written in place, the second operand holds one more join. -/
theorem spliced_names_in_scope_echoed :
    ∃ src, (echoedNode.read .sqlServer .inline .spliced).result = .ok src ∧
      src.sql .sqlServer Node.name =
        "[orders] AS node_sales_table INNER JOIN [orders] AS node_refunds_table ON " ++
          "node_sales_table.[id] = node_refunds_table.[total] LEFT OUTER JOIN (SELECT " ++
          "node_sales_table.[id] AS Column_0, node_sales_table.[total] AS Column_1, " ++
          "node_refunds_table.[id] AS Column_2, node_refunds_table.[total] AS Column_3 FROM " ++
          "[orders] AS node_sales_table INNER JOIN [orders] AS node_refunds_table ON " ++
          "node_sales_table.[id] = node_refunds_table.[total]) AS node_echoed_rhs ON " ++
          "node_sales_table.[total] = node_echoed_rhs.Column_2" ∧
      src.Spelled .sqlServer (src.sql .sqlServer Node.name) ∧
      echoedNode.ranges.result =
        .ok ["node_sales_table", "node_refunds_table", "node_echoed_rhs"] ∧
      src.ranges Node.name = ["node_sales_table", "node_refunds_table", "node_echoed_rhs"] ∧
      (∃ e, (echoedNode.column .sqlServer 7).result = .ok e ∧
        ∃ range ∈ src.ranges Node.name, e.ReadsFrom .sqlServer range ∧
          Qualified .sqlServer range (e.sql .sqlServer (ColumnRef.sql .sqlServer))) ∧
      (¬ ∃ e, (echoedNode.column .sqlServer 8).result = .ok e) ∧
      src.joins.length = 3 ∧
      ∀ c ∈ src.joins, c.MeetsWithin .sqlServer Node.name ∧ c.WritesWithin .sqlServer := by
  have hsrc : (echoedNode.read .sqlServer .inline .spliced).result = .ok _ := rfl
  have hp : (echoedNode.projection .sqlServer).result = .ok _ := rfl
  obtain ⟨hranges, hcolumns, hreads, hspelled, hjoins⟩ :=
    spliced_names_in_scope .sqlServer .inline rfl hsrc hp
  obtain ⟨e, he⟩ := (hcolumns 7).mpr (by decide)
  refine ⟨_, hsrc, by decide +kernel, (hspelled _).mpr rfl, hranges, rfl, ⟨e, he, hreads 7 e he⟩,
    ?_, rfl, hjoins⟩
  rw [hcolumns 8]
  decide

end Node

end DataflowSql

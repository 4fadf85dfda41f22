import DataflowSql.Proofs.OutputColumns
import DataflowSql.Proofs.Qualifiers

/-! Picked columns. A selection and a chart each take a list of columns from their input. What they
put out, what their queries list and how their rows are ordered all follow this one list. -/
namespace DataflowSql

open Sql

/-- Where every entry gives a result, the results stand in the places of the entries. -/
theorem forall₂_filterMap {α β : Type} {f : α → Option β} {xs : List α}
    (h : ∀ x ∈ xs, ∃ y, f x = some y) :
    List.Forall₂ (fun x y => f x = some y) xs (xs.filterMap f) := by
  induction xs with
  | nil => exact .nil
  | cons x xs ih =>
    obtain ⟨y, hy⟩ := h x (by simp)
    rw [List.filterMap_cons_some hy]
    exact .cons hy (ih fun z hz => h z (by simp [hz]))

/-- An entry that is kept moves to the place that counts the kept entries before it. -/
theorem exists_of_getElem?_filter {α : Type} {keep : α → Bool} {xs : List α} {k : Nat} {x : α}
    (h : (xs.filter keep)[k]? = some x) :
    ∃ position, xs[position]? = some x ∧ (xs.take position).countP keep = k := by
  induction xs generalizing k with
  | nil => simp at h
  | cons y xs ih =>
    by_cases hy : keep y = true
    · rw [List.filter_cons_of_pos hy] at h
      cases k with
      | zero => exact ⟨0, by simpa using h, by simp⟩
      | succ k =>
        obtain ⟨position, hx, hcount⟩ := ih (by simpa using h)
        exact ⟨position + 1, by simpa using hx, by simp [hy, hcount]⟩
    · rw [List.filter_cons_of_neg hy] at h
      obtain ⟨position, hx, hcount⟩ := ih h
      exact ⟨position + 1, by simpa using hx, by simp [hy, hcount]⟩

namespace SortKey

/-- The entries of a key whose columns are picked. -/
def kept (key : SortKey) (picks : List Nat) : SortKey := key.filter fun c => c.index ∈ picks

/-- The same direction, and the first place the column is picked for. -/
def Moved (picks : List Nat) (c c' : SortColumn) : Prop :=
  picks.idxOf? c.index = some c'.index ∧ c'.direction = c.direction

/-- The order of rows behind picked columns: the entries that are kept follow their columns, and
the standard key takes the place of none. -/
inductive Behind (picks : List Nat) (key : SortKey) : SortKey → Prop
  | moved {moved : SortKey} (ne : key.kept picks ≠ [])
      (each : List.Forall₂ (Moved picks) (key.kept picks) moved) : Behind picks key moved
  | lost (nil : key.kept picks = []) : Behind picks key standard

theorem forall₂_moved (key : SortKey) (picks : List Nat) :
    List.Forall₂ (Moved picks) (key.kept picks)
      (key.filterMap fun c => (picks.idxOf? c.index).map fun j => ⟨j, c.direction⟩) := by
  unfold kept
  induction key with
  | nil => exact .nil
  | cons c key ih =>
    cases hj : picks.idxOf? c.index with
    | none =>
      have hc : c.index ∉ picks := List.idxOf?_eq_none_iff.mp hj
      rw [List.filter_cons_of_neg (by simpa using hc), List.filterMap_cons_none (by simp [hj])]
      exact ih
    | some j =>
      obtain ⟨hlt, hc, _⟩ := List.idxOf?_eq_some_iff.mp hj
      have hc : c.index ∈ picks := hc ▸ List.getElem_mem hlt
      rw [List.filter_cons_of_pos (by simpa using hc),
        List.filterMap_cons_some (b := SortColumn.mk j c.direction) (by simp [hj])]
      exact .cons ⟨hj, rfl⟩ ih

theorem behind_remap (key : SortKey) (picks : List Nat) : Behind picks key (key.remap picks) := by
  have hmoved := forall₂_moved key picks
  unfold remap
  dsimp only
  split
  · rename_i hempty
    rw [List.isEmpty_iff] at hempty
    rw [hempty, List.forall₂_nil_right_iff] at hmoved
    exact .lost hmoved
  · rename_i hempty
    refine .moved (fun hnone => hempty ?_) hmoved
    rw [hnone, List.forall₂_nil_left_iff] at hmoved
    rw [hmoved, List.isEmpty_nil]

end SortKey

namespace Select

variable {st : Select} {length : Nat}

theorem map_index_picks (st : Select) (length : Nat) :
    (st.picks length).map Pick.index =
      (st.includedColumnIndexes.getD []).filter fun i => decide (i < length) := by
  have hfst := (st.includedColumnIndexes.getD []).zipIdx_map_fst 0
  conv_rhs => rw [← hfst]
  rw [picks, List.map_map, List.filter_map]
  rfl

/-- An alias belongs to the place of the request it stands at, before any index is passed over. -/
theorem position_of_pick {k : Nat} {pick : Pick} (h : (st.picks length)[k]? = some pick) :
    ∃ position, (st.includedColumnIndexes.getD [])[position]? = some pick.index ∧
      ((st.includedColumnIndexes.getD []).take position).countP (fun i => decide (i < length)) = k ∧
      pick.newName = st.aliasAt position := by
  rw [picks, List.getElem?_map, Option.map_eq_some_iff] at h
  obtain ⟨e, he, rfl⟩ := h
  obtain ⟨position, he, hcount⟩ := exists_of_getElem?_filter he
  rw [List.getElem?_zipIdx, Option.map_eq_some_iff] at he
  obtain ⟨i, hi, rfl⟩ := he
  refine ⟨position, hi, ?_, by simp⟩
  rw [← hcount, ← List.zipIdx_map_fst 0 (st.includedColumnIndexes.getD []), ← List.map_take,
    List.countP_map]
  simp [Function.comp_def]

theorem forall₂_projection (st : Select) (input : Projection) :
    List.Forall₂ (fun pick c => pick.column? input = some c) (st.picks input.length)
      (st.projection input) := by
  refine forall₂_filterMap fun pick hpick => ?_
  simp [Pick.column?, lt_of_mem_picks hpick]

end Select

namespace ChartProjection

variable {c : ChartProjection} {id : String} {input : Projection} {picks : List Nat}

/-- Axis first, then the series. -/
theorem picks_eq (h : (c.picks id input).result = .ok picks) :
    picks = (c.axis? input.length).toList ++ c.series := by
  unfold ChartProjection.picks at h
  split at h
  · simp at h
  · split at h
    · simp at h
    · exact (Outcome.ok_eq_ok.mp h).symm

theorem exists_getElem? {α : Type} {xs : List α} (hxs : xs.length = input.length)
    (h : (c.picks id input).result = .ok picks) : ∀ i ∈ picks, ∃ x, xs[i]? = some x := by
  intro i hi
  exact ⟨_, List.getElem?_eq_getElem (hxs ▸ lt_of_mem_picks h i hi)⟩

end ChartProjection

namespace Operation

/-- The columns that an operation takes from an input with so many columns, in the order they are
put out. A selection passes over indexes out of range, and gives a column the name that stands at
the same place of its request; blanks are no name. -/
inductive Picks (length : Nat) : Operation → List Pick → Prop
  | select {st : Select} {picks : List Pick}
      (indexes : picks.map Pick.index =
        (st.includedColumnIndexes.getD []).filter fun i => decide (i < length))
      (names : ∀ k pick, picks[k]? = some pick → ∃ position,
        (st.includedColumnIndexes.getD [])[position]? = some pick.index ∧
        ((st.includedColumnIndexes.getD []).take position).countP
          (fun i => decide (i < length)) = k ∧
        pick.newName = st.columnAliases[position]?.join.filter fun a => !Text.isAllBlank a) :
      Picks length (.select st) picks
  | chart (c : ChartProjection) :
      Picks length (.chartProjection c)
        (((c.horizontalColumnIndex.filter fun i => decide (i < length)).toList ++ c.series).map
          fun i => ⟨i, none⟩)

/-- A line chart over an axis that its input has. -/
def FollowsAxis (length : Nat) : Operation → Prop
  | .chartProjection c => c.chartType = .line ∧ ∃ i < length, c.horizontalColumnIndex = some i
  | _ => False

end Operation

namespace Node

variable {d : Dialect} {s : Strategy} {n m : Node} {p : Projection}

/-- Where the source of a node can be taken over, all its columns can be read. -/
theorem exists_operand (hp : (n.projection d).result = .ok p) {src : Source Node}
    (hsrc : (n.read d s .spliced).result = .ok src) :
    ∃ columns, (n.operand d s).result = .ok ⟨columns, src⟩ := by
  have hcolumns : ∀ i ∈ List.range p.length,
      ∃ e, (n.column d i).result.toOption = some e ∧ (n.column d i).result = .ok e := by
    intro i hi
    obtain ⟨e, he⟩ := exists_column hp (List.mem_range.mp hi)
    exact ⟨e, Outcome.toOption_eq_some.mpr he, he⟩
  exact ⟨_, operand_eq_ok.mpr ⟨p, hp, Outcome.mapM_eq_filterMap hcolumns, hsrc⟩⟩

/-- What a consumer takes over is what the node's own query is made of. -/
theorem query_of_operand (hn : n.isSpliceable = true) {o : Operand}
    (ho : (n.operand d s).result = .ok o) :
    (n.query d s).result = .ok (.plain o.columns o.source) := by
  obtain ⟨p, hp, hcolumns, hsource⟩ := operand_eq_ok.mp ho
  obtain ⟨place, hplace, hsrc⟩ := read_spliced_eq_ok.mp hsource
  rw [query_eq_ok]
  rcases kind_of_node n with ⟨t, hop⟩ | hjoin | hwhole
  · rw [splice, hop] at hplace
    have hschema : (n.projection d).result = .ok (TableSource.projection d n.schema) := by
      rw [projection_eq, hop, Outcome.ok_eq_ok]
    obtain rfl := Outcome.result_unique hp hschema
    refine ⟨.single ⟨.plain o.columns, place⟩, ?_, branch_query_eq_ok.mpr ⟨_, hsrc, rfl⟩⟩
    rw [Outcome.result_unique hcolumns (mapM_column_of_table hop)]
    simp only [layout, hop, Outcome.bind_eq_ok, Outcome.pure_eq_ok]
    exact ⟨place, hplace, rfl⟩
  · obtain ⟨j, hop, hshape⟩ := isJoinClause_iff.mp hjoin
    obtain ⟨shape, hshape⟩ := Option.isSome_iff_exists.mp hshape
    obtain ⟨l, r, lp, rp, hl, hr, _, _, _⟩ := inputs_of_projection hjoin hp
    simp only [splice, hop, hshape] at hplace
    obtain ⟨hlength, hcolumn⟩ := Outcome.mapM_range_eq_ok.mp hcolumns
    have hexprs : ((List.range p.length).mapM
        (joinColumn d n.id l r (l.column d) (r.column d))).result = .ok o.columns :=
      Outcome.mapM_range_eq_ok.mpr
        ⟨hlength, fun i e he => (column_of_join_iff hjoin hl hr).mp (hcolumn i e he)⟩
    refine ⟨.single ⟨.plain o.columns, place⟩, ?_, branch_query_eq_ok.mpr ⟨_, hsrc, rfl⟩⟩
    simp only [layout, hop, hshape, joinBranch, Outcome.bind_eq_ok, Outcome.pure_eq_ok]
    exact ⟨_, ⟨l, hl, r, hr, p, hp, _, hexprs, place, hplace, rfl⟩, rfl⟩
  · simp [hn] at hwhole

/-- How a node that picks columns refers to those of its input `m`. A selection takes over the
expressions and the source of the input's own query if there is one to take over, and else writes
the input's name before those of the columns. A chart writes these names alone. -/
inductive PicksFrom (d : Dialect) (s : Strategy) (n m : Node) : Operand → Prop
  | own {st : Select} {o : Operand} (operation : n.operation = .select st)
      (spliceable : m.isSpliceable = true)
      (query : (m.query d s).result = .ok (.plain o.columns o.source)) : PicksFrom d s n m o
  | ranged {st : Select} {o : Operand} (operation : n.operation = .select st)
      (whole : m.isSpliceable = false)
      (source : (m.read d s (.whole none)).result = .ok o.source)
      (columns : ∀ i (e : Expr ColumnRef), o.columns[i]? = some e →
        e = .column (.ranged m.name i)) :
      PicksFrom d s n m o
  | output {c : ChartProjection} {o : Operand} (operation : n.operation = .chartProjection c)
      (source : (m.read d s (.whole none)).result = .ok o.source)
      (columns : ∀ i (e : Expr ColumnRef), o.columns[i]? = some e → e = .column (.output i)) :
      PicksFrom d s n m o

theorem picksFrom_of_operand {st : Select} (hop : n.operation = .select st) {o : Operand}
    (ho : (m.operand d s).result = .ok o) : n.PicksFrom d s m o := by
  cases hm : m.isSpliceable with
  | true => exact .own hop hm (query_of_operand hm ho)
  | false =>
    obtain ⟨p, _, hcolumns, hsource⟩ := operand_eq_ok.mp ho
    rw [read_spliced_of_whole hm] at hsource
    refine .ranged hop hm hsource fun i e he => ?_
    have hcolumn := (Outcome.mapM_range_eq_ok.mp hcolumns).2 i e he
    exact Outcome.result_unique hcolumn (column_of_whole hm i)

/-- One list of picks stands behind all that a node answers: its columns, the items of its query and
the order of its rows. -/
structure PicksAgree (d : Dialect) (s : Strategy) (n m : Node) (p : Projection) (picks : List Pick)
    (o : Operand) (out : Projection) (q : Query Node) : Prop where
  input : (n.input 0).result = .ok m
  projection : (m.projection d).result = .ok p
  picked : n.operation.Picks p.length picks
  columns : List.Forall₂ (fun pick c => ∃ source, p[pick.index]? = some source ∧
    c = Column.mk (pick.newName.getD source.name) source.type) picks out
  reads : n.PicksFrom d s m o
  complete : o.columns.length = p.length
  /-- The item of a pick is the expression behind the input column, and its place names it. -/
  items : ∃ exprs, q = .plain exprs o.source ∧
    List.Forall₂ (fun pick e => o.columns[pick.index]? = some e) picks exprs ∧
    q.sql d Node.name = "SELECT " ++
      ", ".intercalate ((exprs.map fun e => e.sql d (ColumnRef.sql d)).zipIdx.map fun c =>
        c.1 ++ " AS " ++ columnName c.2) ++ " FROM " ++ o.source.sql d Node.name
  axis : n.operation.FollowsAxis p.length → (n.sortKey d).result = .ok SortKey.standard
  order : ¬ n.operation.FollowsAxis p.length → ∀ key, (m.sortKey d).result = .ok key →
    ∃ moved, (n.sortKey d).result = .ok moved ∧ SortKey.Behind (picks.map Pick.index) key moved

theorem sortKey_of_select {st : Select} (hop : n.operation = .select st)
    (hm : (n.input 0).result = .ok m) (hp : (m.projection d).result = .ok p) {key : SortKey}
    (hkey : (m.sortKey d).result = .ok key) :
    (n.sortKey d).result = .ok (key.remap ((st.picks p.length).map Pick.index)) := by
  rw [sortKey_eq]
  simp only [hop, Outcome.bind_eq_ok, Outcome.pure_eq_ok]
  exact ⟨m, hm, p, hp, key, hkey, rfl⟩

theorem picksAgree_of_select {st : Select} (hop : n.operation = .select st) {out : Projection}
    (hout : (n.projection d).result = .ok out) {q : Query Node}
    (hq : (n.query d s).result = .ok q) :
    ∃ m p picks o, n.PicksAgree d s m p picks o out q := by
  rw [projection_eq] at hout
  simp only [hop, Outcome.bind_eq_ok, Outcome.pure_eq_ok, inputProjection_eq_ok] at hout
  obtain ⟨p, ⟨m, hm, hp⟩, rfl⟩ := hout
  obtain ⟨layout, hlayout, hquery⟩ := query_eq_ok.mp hq
  simp only [Node.layout, hop, inputMode, Outcome.bind_eq_ok, Outcome.pure_eq_ok] at hlayout
  obtain ⟨m', hm', h, _, rfl⟩ := hlayout
  obtain rfl := Outcome.result_unique hm hm'
  obtain ⟨src, hsrc, _⟩ := branch_query_eq_ok.mp hquery
  obtain ⟨columns, ho⟩ := exists_operand hp hsrc
  have hlength : columns.length = p.length := by
    obtain ⟨p', hp', hcolumns, _⟩ := operand_eq_ok.mp ho
    obtain rfl := Outcome.result_unique hp hp'
    exact (Outcome.mapM_range_eq_ok.mp hcolumns).1
  refine ⟨m, p, st.picks p.length, ⟨columns, src⟩, hm, hp, ?_, ?_, picksFrom_of_operand hop ho,
    hlength, ?_, ?_, ?_⟩
  · rw [hop]
    exact .select (st.map_index_picks p.length) fun k pick => Select.position_of_pick
  · refine (st.forall₂_projection p).imp fun pick c hc => ?_
    rw [Pick.column?, Option.map_eq_some_iff] at hc
    obtain ⟨source, hsource, rfl⟩ := hc
    exact ⟨source, hsource, rfl⟩
  · obtain ⟨_, rfl⟩ := (query_of_select hop hm ho).mp hq
    refine ⟨_, rfl, ?_, sql_plain _ _⟩
    rw [← Select.filterMap_picks, hlength]
    refine forall₂_filterMap fun pick hpick => ?_
    exact ⟨_, List.getElem?_eq_getElem (hlength ▸ Select.lt_of_mem_picks hpick)⟩
  · rw [hop]
    exact False.elim
  · intro _ key hkey
    exact ⟨_, sortKey_of_select hop hm hp hkey, key.behind_remap _⟩

theorem sortKey_of_axis {c : ChartProjection} (hop : n.operation = .chartProjection c)
    (hm : (n.input 0).result = .ok m) (hp : (m.projection d).result = .ok p)
    (haxis : n.operation.FollowsAxis p.length) :
    (n.sortKey d).result = .ok SortKey.standard := by
  rw [hop] at haxis
  obtain ⟨hline, i, hi, hindex⟩ := haxis
  have hfollows : (c.followsAxis fun _ => n.inputProjection d 0).result = .ok true := by
    simp only [ChartProjection.followsAxis, hline, Outcome.bind_eq_ok, Outcome.pure_eq_ok]
    exact ⟨p, inputProjection_eq_ok.mpr ⟨m, hm, hp⟩, by simp [ChartProjection.axis?, hindex, hi]⟩
  rw [sortKey_eq]
  simp only [hop, Outcome.bind_eq_ok]
  exact ⟨m, hm, true, hfollows, rfl⟩

theorem sortKey_of_chart {c : ChartProjection} (hop : n.operation = .chartProjection c)
    (hm : (n.input 0).result = .ok m) (hp : (m.projection d).result = .ok p) {picks : List Nat}
    (hpicks : (c.picks n.id p).result = .ok picks)
    (haxis : ¬ n.operation.FollowsAxis p.length) {key : SortKey}
    (hkey : (m.sortKey d).result = .ok key) : (n.sortKey d).result = .ok (key.remap picks) := by
  have hfirst := inputProjection_eq_ok.mpr ⟨m, hm, hp⟩
  have hfollows : (c.followsAxis fun _ => n.inputProjection d 0).result = .ok false := by
    rw [hop] at haxis
    unfold ChartProjection.followsAxis
    split
    · rename_i hline
      simp only [Outcome.bind_eq_ok, Outcome.pure_eq_ok]
      refine ⟨p, hfirst, ?_⟩
      rw [ChartProjection.axis?, Option.isSome_eq_false_iff, Option.isNone_iff_eq_none,
        Option.filter_eq_none_iff]
      intro i hi hlt
      exact haxis ⟨hline, i, of_decide_eq_true hlt, hi⟩
    · rfl
  rw [sortKey_eq]
  simp only [hop, Outcome.bind_eq_ok]
  refine ⟨m, hm, false, hfollows, ?_⟩
  simp only [Bool.false_eq_true, if_false, Outcome.bind_eq_ok, Outcome.pure_eq_ok]
  exact ⟨key, hkey, p, hfirst, picks, hpicks, rfl⟩

theorem picksAgree_of_chart {c : ChartProjection} (hop : n.operation = .chartProjection c)
    {out : Projection} (hout : (n.projection d).result = .ok out) {q : Query Node}
    (hq : (n.query d s).result = .ok q) :
    ∃ m p picks o, n.PicksAgree d s m p picks o out q := by
  rw [projection_eq] at hout
  simp only [hop, ChartProjection.projection, Outcome.bind_eq_ok, Outcome.pure_eq_ok,
    inputProjection_eq_ok] at hout
  obtain ⟨p, ⟨m, hm, hp⟩, picks, hpicks, rfl⟩ := hout
  obtain ⟨layout, hlayout, hquery⟩ := query_eq_ok.mp hq
  simp only [Node.layout, hop, inputMode, headingOver, Outcome.bind_eq_ok,
    Outcome.pure_eq_ok] at hlayout
  obtain ⟨m', hm', h, ⟨p', hp', picks', hpicks', rfl⟩, rfl⟩ := hlayout
  obtain rfl := Outcome.result_unique hm hm'
  obtain rfl := Outcome.result_unique hp hp'
  obtain rfl := Outcome.result_unique hpicks hpicks'
  obtain ⟨src, hsrc, rfl⟩ := branch_query_eq_ok.mp hquery
  refine ⟨m, p, picks.map fun i => ⟨i, none⟩,
    ⟨(List.range p.length).map fun i => .column (.output i), src⟩, hm, hp, ?_, ?_,
    .output hop hsrc ?_, by simp, ⟨_, rfl, ?_, sql_plain _ _⟩, sortKey_of_axis hop hm hp, ?_⟩
  · rw [hop, ChartProjection.picks_eq hpicks]
    exact .chart c
  · rw [List.forall₂_map_left_iff]
    refine (forall₂_filterMap (ChartProjection.exists_getElem? rfl hpicks)).imp fun i c hc => ?_
    exact ⟨c, hc, rfl⟩
  · intro i e he
    simp only [List.getElem?_map, Option.map_eq_some_iff] at he
    obtain ⟨j, hj, rfl⟩ := he
    obtain ⟨_, rfl⟩ := List.getElem?_eq_some_iff.mp hj
    simp
  · rw [List.forall₂_map_left_iff, List.forall₂_map_right_iff, List.forall₂_same]
    intro i hi
    simp [List.getElem?_range (ChartProjection.lt_of_mem_picks hpicks i hi)]
  · intro haxis key hkey
    refine ⟨_, sortKey_of_chart hop hm hp hpicks haxis hkey, ?_⟩
    simpa [Function.comp_def] using key.behind_remap picks

/-- A selection or a chart with columns and a query takes one list of columns from its input, and
everything follows it: what is put out, what the query lists, also in its text, and the order of the
rows. -/
theorem picks_agree (d : Dialect) (s : Strategy) {n : Node}
    (hn : (∃ st, n.operation = .select st) ∨ ∃ c, n.operation = .chartProjection c)
    {out : Projection} (hout : (n.projection d).result = .ok out) {q : Query Node}
    (hq : (n.query d s).result = .ok q) :
    ∃ m p picks o, n.PicksAgree d s m p picks o out q := by
  rcases hn with ⟨st, hop⟩ | ⟨c, hop⟩
  · exact picksAgree_of_select hop hout hq
  · exact picksAgree_of_chart hop hout hq

def rankedOrders : Node :=
  .mk "ranked" (.sort ⟨[1, 0], [.descending]⟩) none [.found (ordersNode "orders")]

/-- One index out of range, one column twice, and an alias for each place of the request. -/
def renamedNode : Node :=
  .mk "renamed" (.select ⟨some [1, 9, 1, 0], [some " ", some "lost", some "again"]⟩) none
    [.found rankedOrders]

/-- A chart whose series stands before the column its rows are ordered by. -/
def plottedNode : Node :=
  .mk "plotted" (.chartProjection ⟨.bar, some 7, some [0, 1], none⟩) none [.found rankedOrders]

/-- Aliases keep their places, and both orders follow the picked columns. -/
theorem picks_agree_renamed :
    (∃ m p picks o q, renamedNode.PicksAgree .postgreSql .commonTableExpressions m p picks o
        [⟨"total", "decimal"⟩, ⟨"again", "decimal"⟩, ⟨"id", "int"⟩] q ∧
      q.sql .postgreSql Node.name = "SELECT node_ranked.Column_1 AS Column_0, " ++
        "node_ranked.Column_1 AS Column_1, node_ranked.Column_0 AS Column_2 FROM node_ranked" ∧
      picks.map Pick.index = [1, 1, 0] ∧
      (renamedNode.sortKey .postgreSql).result = .ok [⟨0, .descending⟩, ⟨2, .ascending⟩]) ∧
    ∃ m p picks o q, plottedNode.PicksAgree .postgreSql .commonTableExpressions m p picks o
        [⟨"id", "int"⟩, ⟨"total", "decimal"⟩] q ∧
      q.sql .postgreSql Node.name =
        "SELECT Column_0 AS Column_0, Column_1 AS Column_1 FROM node_ranked" ∧
      picks.map Pick.index = [0, 1] ∧
      (plottedNode.sortKey .postgreSql).result = .ok [⟨1, .descending⟩, ⟨0, .ascending⟩] := by
  constructor
  · obtain ⟨m, p, picks, o, h⟩ := picks_agree .postgreSql .commonTableExpressions
      (n := renamedNode) (.inl ⟨_, rfl⟩) rfl rfl
    obtain rfl := Outcome.result_unique h.input rfl
    obtain rfl := Outcome.result_unique h.projection rfl
    refine ⟨_, _, picks, o, _, h, by decide +kernel, ?_, rfl⟩
    cases h.picked with
    | select indexes names => exact indexes
  · obtain ⟨m, p, picks, o, h⟩ := picks_agree .postgreSql .commonTableExpressions
      (n := plottedNode) (.inr ⟨_, rfl⟩) rfl rfl
    obtain rfl := Outcome.result_unique h.input rfl
    obtain rfl := Outcome.result_unique h.projection rfl
    refine ⟨_, _, picks, o, _, h, by decide +kernel, ?_, rfl⟩
    cases h.picked
    rfl

end Node

end DataflowSql

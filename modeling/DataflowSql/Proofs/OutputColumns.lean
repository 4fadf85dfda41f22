import DataflowSql.Proofs.Inputs
import DataflowSql.Proofs.Scope

/-! The columns a query puts out, as its select lists give them: the names written behind `AS`, and
for a star those of the query that is read. They are `Column_0`, `Column_1` and so on, one for each
column of the node's projection. -/
namespace DataflowSql

namespace Sql

/-- The item is written with this name behind `AS`. -/
def Item.Writes (d : Dialect) (i : Item) (column : String) : Prop :=
  i.sql d = i.expr.sql d (ColumnRef.sql d) ++ " AS " ++ column

theorem writes_iff {d : Dialect} {i : Item} {column : String} :
    i.Writes d column ↔ i.name = column := by
  rw [Item.Writes, Item.sql, String.append_right_inj, Item.name]

theorem forall₂_writes_iff {d : Dialect} {items : List Item} {columns : List String} :
    List.Forall₂ (Item.Writes d) items columns ↔ items.map Item.name = columns := by
  have hrel : Item.Writes d = fun i column => i.name = column := by
    funext i column
    exact propext writes_iff
  rw [hrel, ← List.forall₂_eq_eq_eq, List.forall₂_map_left_iff]

theorem columnName_injective : Function.Injective columnName := by
  intro i j h
  have hdigits : Nat.toDigits 10 i = Nat.toDigits 10 j := by
    rw [← Nat.toList_repr, ← Nat.toList_repr]
    exact congrArg String.toList ((String.append_right_inj "Column_").mp h)
  rw [← Nat.ofDigitChars_ten_toDigits (n := i), hdigits, Nat.ofDigitChars_ten_toDigits]

theorem nodup_columnNames (count : Nat) : (columnNames count).Nodup :=
  List.nodup_range.map columnName_injective

theorem map_index_number (exprs : List (Expr ColumnRef)) :
    (Item.number exprs).map Item.index = List.range exprs.length := by
  simp [Item.number, Function.comp_def, List.range_eq_range', List.zipIdx_map_snd]

theorem map_name_eq (items : List Item) :
    items.map Item.name = (items.map Item.index).map columnName := by
  simp [Item.name, Function.comp_def]

/-- The columns that a query puts out, in order, behind these definitions. The sides of a union put
out the same columns. A star stands for the columns of the one query that is read, by name or in
place; over anything else it stands for nothing known here. -/
inductive Query.Yields (d : Dialect) (definitions : List Definition) :
    Query Node → List String → Prop
  | items {items : List Item} {columns : List String} (source : Source Node)
      (condition : Option (Predicate ColumnRef)) (groups : List (Expr ColumnRef))
      (list : List.Forall₂ (Item.Writes d) items columns) :
      Yields d definitions (.select false items source condition groups) columns
  | named {node : Node} {q : Query Node} {items : List Item} {columns added : List String}
      (range : Option String) (condition : Option (Predicate ColumnRef))
      (groups : List (Expr ColumnRef)) (defined : .rows node q ∈ definitions)
      (rows : Yields d definitions q columns) (list : List.Forall₂ (Item.Writes d) items added) :
      Yields d definitions (.select true items (.named node range) condition groups)
        (columns ++ added)
  | nested {q : Query Node} {items : List Item} {columns added : List String} (node : Node)
      (range : String) (condition : Option (Predicate ColumnRef)) (groups : List (Expr ColumnRef))
      (rows : Yields d definitions q columns) (list : List.Forall₂ (Item.Writes d) items added) :
      Yields d definitions (.select true items (.nested node q range) condition groups)
        (columns ++ added)
  | union {l r : Query Node} {columns : List String} (left : Yields d definitions l columns)
      (right : Yields d definitions r columns) : Yields d definitions (.union l r) columns
  | unionAll {l r : Query Node} {columns : List String} (left : Yields d definitions l columns)
      (right : Yields d definitions r columns) : Yields d definitions (.unionAll l r) columns

end Sql

open Sql

theorem Select.length_projection (s : Select) (input : Projection) :
    (s.projection input).length = (s.picks input.length).length := by
  rw [Select.projection, List.filterMap_length_eq_length]
  intro pick hpick
  simp [Pick.column?, Select.lt_of_mem_picks hpick]

namespace ChartProjection

variable {c : ChartProjection} {id : String} {input : Projection} {picks : List Nat}

/-- Axis and series are columns of the input. -/
theorem lt_of_mem_picks (h : (c.picks id input).result = .ok picks) :
    ∀ i ∈ picks, i < input.length := by
  unfold ChartProjection.picks at h
  split at h
  · simp at h
  · split at h
    · simp at h
    · rename_i hnone
      rw [Outcome.ok_eq_ok] at h
      subst h
      intro i hi
      rcases List.mem_append.mp hi with hi | hi
      · rw [Option.mem_toList, axis?, Option.filter_eq_some_iff] at hi
        exact of_decide_eq_true hi.2
      · simpa using List.find?_eq_none.mp hnone i hi

theorem length_picked (h : (c.picks id input).result = .ok picks) :
    (picks.filterMap fun i => input[i]?).length = picks.length := by
  rw [List.filterMap_length_eq_length]
  intro i hi
  simp [lt_of_mem_picks h i hi]

end ChartProjection

namespace Node

variable {d : Dialect} {n m : Node}

theorem inputProjection_eq_ok {index : Nat} {p : Projection} :
    (n.inputProjection d index).result = .ok p ↔
      ∃ m, (n.input index).result = .ok m ∧ (m.projection d).result = .ok p := by
  rw [inputProjection, Outcome.bind_eq_ok]

/-- The heading lists this many columns, in order and without a star. -/
structure Heading.Lists (h : Heading) (count : Nat) : Prop where
  star : h.star = false
  indexes : h.items.map Item.index = List.range count

theorem lists_plain {exprs : List (Expr ColumnRef)} {count : Nat} (h : exprs.length = count) :
    (Heading.plain exprs).Lists count := ⟨rfl, by rw [Heading.plain, map_index_number, h]⟩

/-- How the select lists of a layout stand to the columns of its node. -/
inductive Layout.Fits (d : Dialect) (n : Node) : Layout → Prop
  /-- Every branch lists all columns. -/
  | listed {layout : Layout} {p : Projection} (projection : (n.projection d).result = .ok p)
      (branches : ∀ b ∈ layout.branches, b.heading.Lists p.length) : Fits d n layout
  /-- The columns of the input are passed on, and the items follow them. -/
  | passed {h : Heading} {m : Node} (star : h.star = true) (first : (n.input 0).result = .ok m)
      (projection : ∀ ps, (m.projection d).result = .ok ps → ∃ p, (n.projection d).result = .ok p ∧
        List.range ps.length ++ h.items.map Item.index = List.range p.length) :
      Fits d n (.single ⟨h, .input m (.whole none)⟩)

theorem fits_single {h : Heading} {place : Place} {p : Projection}
    (hp : (n.projection d).result = .ok p) (hh : h.Lists p.length) :
    Layout.Fits d n (.single ⟨h, place⟩) := by
  refine .listed hp fun b hb => ?_
  rw [Layout.branches, List.mem_singleton] at hb
  subst hb
  exact hh

/-- A node with one input lists its columns or passes on those of the input. -/
theorem fits_of_headingOver {h : Heading} (one : arity n.operation = .one)
    (first : (n.input 0).result = .ok m) (heading : (headingOver d n m).result = .ok h) :
    Layout.Fits d n (.single ⟨h, .input m (inputMode n.operation)⟩) := by
  have hprojection {ps : Projection} (hps : (m.projection d).result = .ok ps) :
      (n.inputProjection d 0).result = .ok ps := inputProjection_eq_ok.mpr ⟨m, first, hps⟩
  unfold headingOver at heading
  cases hop : n.operation with
  | tableSource t => simp [arity, hop] at one
  | join j => simp [arity, hop] at one
  | append a => simp [arity, hop] at one
  | select st =>
    simp only [hop, Outcome.bind_eq_ok, Outcome.guarded_eq_ok, Outcome.pure_eq_ok] at heading
    obtain ⟨ps, hps, _, exprs, hexprs, rfl⟩ := heading
    have hp : (n.projection d).result = .ok (st.projection ps) := by
      simp only [projection_eq, hop, Outcome.bind_eq_ok, Outcome.pure_eq_ok]
      exact ⟨ps, hprojection hps, rfl⟩
    rw [Outcome.mapM_eq_ok] at hexprs
    exact fits_single hp (lists_plain (by rw [← hexprs.length_eq, Select.length_projection]))
  | filter f =>
    simp only [hop, Outcome.bind_eq_ok, Outcome.pure_eq_ok] at heading
    obtain ⟨condition, _, rfl⟩ := heading
    refine .passed rfl first fun ps hps => ⟨ps, ?_, by simp⟩
    rw [projection_eq, hop]
    exact hprojection hps
  | sort st =>
    simp only [hop, Outcome.pure_eq_ok] at heading
    subst heading
    refine .passed rfl first fun ps hps => ⟨ps, ?_, by simp⟩
    rw [projection_eq, hop]
    exact hprojection hps
  | summarize st =>
    simp only [hop, Outcome.bind_eq_ok, Outcome.guarded_eq_ok, Outcome.pure_eq_ok] at heading
    obtain ⟨ps, hps, outputs, houtputs, _, rfl⟩ := heading
    have hp : (n.projection d).result = .ok (outputs.all.map (·.column)) := by
      simp only [projection_eq, hop, Outcome.bind_eq_ok, Outcome.pure_eq_ok]
      exact ⟨ps, hprojection hps, outputs, houtputs, rfl⟩
    exact fits_single hp ⟨rfl, by simp [map_index_number]⟩
  | extract e =>
    simp only [hop, Outcome.bind_eq_ok, Outcome.pure_eq_ok] at heading
    obtain ⟨ps, hps, slice, hslice, rfl⟩ := heading
    simp only [Extract.slice, Outcome.bind_eq_ok] at hslice
    obtain ⟨index, hindex, ps', hps', source, hsource, _⟩ := hslice
    obtain rfl := Outcome.result_unique hps hps'
    refine .passed rfl first fun ps' hps' => ?_
    obtain rfl := Outcome.result_unique hps hps'
    refine ⟨ps ++ [e.newColumn d source], ?_, by simp [List.range_succ]⟩
    simp only [projection_eq, hop, Extract.projection, Outcome.bind_eq_ok, Outcome.pure_eq_ok]
    exact ⟨ps, hprojection hps, index, hindex, source, hsource, rfl⟩
  | chartProjection c =>
    simp only [hop, Outcome.bind_eq_ok, Outcome.pure_eq_ok] at heading
    obtain ⟨ps, hps, picks, hpicks, rfl⟩ := heading
    have hp : (n.projection d).result = .ok (picks.filterMap fun i => ps[i]?) := by
      simp only [projection_eq, hop, ChartProjection.projection, Outcome.bind_eq_ok,
        Outcome.pure_eq_ok]
      exact ⟨ps, hprojection hps, picks, hpicks, rfl⟩
    refine fits_single hp (lists_plain ?_)
    rw [List.length_map, ChartProjection.length_picked hpicks]

theorem lists_of_joinBranch {j : Join} {shape : JoinShape} {b : Branch} {p : Projection}
    (hp : (n.projection d).result = .ok p) (h : (joinBranch d n j shape).result = .ok b) :
    b.heading.Lists p.length := by
  simp only [joinBranch, Outcome.bind_eq_ok, Outcome.pure_eq_ok] at h
  obtain ⟨l, _, r, _, p', hp', exprs, hexprs, place, _, rfl⟩ := h
  obtain rfl := Outcome.result_unique hp hp'
  rw [Outcome.mapM_eq_ok] at hexprs
  exact lists_plain (by rw [← hexprs.length_eq, List.length_range])

theorem exists_projection_of_joinBranch {j : Join} {shape : JoinShape} {b : Branch}
    (h : (joinBranch d n j shape).result = .ok b) : ∃ p, (n.projection d).result = .ok p := by
  simp only [joinBranch, Outcome.bind_eq_ok] at h
  obtain ⟨l, _, r, _, p, hp, _⟩ := h
  exact ⟨p, hp⟩

theorem lists_of_appendBranch {out : Projection} {b : Branch}
    (h : (appendBranch d out m).result = .ok b) : b.heading.Lists out.length := by
  simp only [appendBranch, Outcome.bind_eq_ok, Outcome.pure_eq_ok] at h
  obtain ⟨available, _, rfl⟩ := h
  exact lists_plain (by rw [Append.branch, List.length_map])

/-- The select lists of a node's layout fit its columns. -/
theorem fits_of_layout {layout : Layout} (h : (n.layout d).result = .ok layout) :
    layout.Fits d n := by
  unfold Node.layout at h
  cases hop : n.operation with
  | tableSource t =>
    simp only [hop, Outcome.bind_eq_ok, Outcome.pure_eq_ok] at h
    obtain ⟨place, _, rfl⟩ := h
    have hp : (n.projection d).result = .ok (TableSource.projection d n.schema) := by
      rw [projection_eq, hop, Outcome.ok_eq_ok]
    exact fits_single hp (lists_plain (by simp [TableSource.projection]))
  | join j =>
    simp only [hop] at h
    cases hshape : j.joinType.shape? with
    | some shape =>
      simp only [hshape, Outcome.bind_eq_ok, Outcome.pure_eq_ok] at h
      obtain ⟨b, hb, rfl⟩ := h
      obtain ⟨p, hp⟩ := exists_projection_of_joinBranch hb
      exact fits_single hp (lists_of_joinBranch hp hb)
    | none =>
      simp only [hshape, Outcome.bind_eq_ok, Outcome.pure_eq_ok] at h
      obtain ⟨l, hl, r, hr, rfl⟩ := h
      obtain ⟨p, hp⟩ := exists_projection_of_joinBranch hl
      refine .listed hp fun b hb => ?_
      simp only [Layout.branches, List.mem_cons, List.not_mem_nil, or_false] at hb
      rcases hb with rfl | rfl
      · exact lists_of_joinBranch hp hl
      · exact lists_of_joinBranch hp hr
  | append a =>
    simp only [hop, Outcome.bind_eq_ok] at h
    obtain ⟨out, hout, ms, _, bs, hbs, h⟩ := h
    cases bs with
    | nil => simp at h
    | cons b bs =>
      rw [Outcome.pure_eq_ok] at h
      subst h
      refine .listed hout fun b' hb' => ?_
      obtain ⟨m, _, hm⟩ := Outcome.exists_of_mem_mapM hbs b' hb'
      exact lists_of_appendBranch hm
  | _ =>
    simp only [hop, Outcome.bind_eq_ok, Outcome.pure_eq_ok] at h
    obtain ⟨m, hm, heading, hheading, rfl⟩ := h
    have hfits := fits_of_headingOver (by rw [hop]; rfl) hm hheading
    rwa [hop] at hfits

section Yields

variable {s : Strategy} {definitions : List Definition} {columns : List String}

theorem yields_union_iff {l r : Query Node} : (Query.union l r).Yields d definitions columns ↔
    l.Yields d definitions columns ∧ r.Yields d definitions columns := by
  constructor
  · intro h
    cases h with
    | union left right => exact ⟨left, right⟩
  · intro h
    exact .union h.1 h.2

theorem yields_unionAll_iff {l r : Query Node} : (Query.unionAll l r).Yields d definitions columns ↔
    l.Yields d definitions columns ∧ r.Yields d definitions columns := by
  constructor
  · intro h
    cases h with
    | unionAll left right => exact ⟨left, right⟩
  · intro h
    exact .unionAll h.1 h.2

theorem yields_stack_iff {q : Query Node} {qs : List (Query Node)} :
    (stack q qs).Yields d definitions columns ↔ ∀ p ∈ q :: qs, p.Yields d definitions columns := by
  induction qs generalizing q with
  | nil => simp [stack]
  | cons p qs ih =>
    have hstep : stack q (p :: qs) = stack (.unionAll q p) qs := rfl
    rw [hstep, ih]
    simp only [List.forall_mem_cons, yields_unionAll_iff, and_assoc]

theorem Heading.Lists.yields_iff {h : Heading} {count : Nat} (hh : h.Lists count)
    (src : Source Node) :
    (h.selectFrom src).Yields d definitions columns ↔ columns = columnNames count := by
  have hnames : h.items.map Item.name = columnNames count := by
    rw [map_name_eq, hh.indexes, columnNames]
  rw [Heading.selectFrom, hh.star, ← hnames]
  constructor
  · intro h
    cases h with
    | items _ _ _ list => exact (forall₂_writes_iff.mp list).symm
  · rintro rfl
    exact .items _ _ _ (forall₂_writes_iff.mpr rfl)

/-- A query whose branches all list the same columns puts out these. -/
theorem yields_iff_of_lists {layout : Layout} {q : Query Node} {count : Nat}
    (hlists : ∀ b ∈ layout.branches, b.heading.Lists count)
    (h : (layout.query d s).result = .ok q) :
    q.Yields d definitions columns ↔ columns = columnNames count := by
  have hbranch {b : Branch} {q : Query Node} (hb : b ∈ layout.branches)
      (hq : (b.query d s).result = .ok q) :
      q.Yields d definitions columns ↔ columns = columnNames count := by
    obtain ⟨src, _, rfl⟩ := branch_query_eq_ok.mp hq
    exact (hlists b hb).yields_iff src
  cases layout with
  | single b => exact hbranch (by simp [Layout.branches]) h
  | union l r =>
    simp only [Layout.query, Outcome.bind_eq_ok, Outcome.pure_eq_ok] at h
    obtain ⟨ql, hl, qr, hr, rfl⟩ := h
    rw [yields_union_iff, hbranch (by simp [Layout.branches]) hl,
      hbranch (by simp [Layout.branches]) hr, and_self]
  | stack b bs =>
    obtain ⟨p, ps, hps, rfl⟩ := stack_query_eq_ok.mp h
    have hall : ∀ r ∈ p :: ps, (r.Yields d definitions columns ↔ columns = columnNames count) := by
      intro r hr
      obtain ⟨c, hc, hcr⟩ := Outcome.exists_of_mem_mapM hps r hr
      exact hbranch hc hcr
    rw [yields_stack_iff]
    constructor
    · intro hyields
      exact (hall p (by simp)).mp (hyields p (by simp))
    · intro hcolumns r hr
      exact (hall r hr).mpr hcolumns

theorem yields_nested_iff {h : Heading} (star : h.star = true) {q : Query Node} {range : String} :
    (h.selectFrom (.nested m q range)).Yields d definitions columns ↔
      ∃ below, q.Yields d definitions below ∧ columns = below ++ h.items.map Item.name := by
  rw [Heading.selectFrom, star]
  constructor
  · intro h
    cases h with
    | nested _ _ _ _ rows list => exact ⟨_, rows, by rw [forall₂_writes_iff.mp list]⟩
  · intro h
    obtain ⟨below, rows, rfl⟩ := h
    exact .nested m range _ _ rows (forall₂_writes_iff.mpr rfl)

theorem yields_named_iff {h : Heading} (star : h.star = true) {range : Option String} :
    (h.selectFrom (.named m range)).Yields d definitions columns ↔
      ∃ q, .rows m q ∈ definitions ∧
        ∃ below, q.Yields d definitions below ∧ columns = below ++ h.items.map Item.name := by
  rw [Heading.selectFrom, star]
  constructor
  · intro h
    cases h with
    | named _ _ _ defined rows list =>
      exact ⟨_, defined, _, rows, by rw [forall₂_writes_iff.mp list]⟩
  · intro h
    obtain ⟨q, defined, below, rows, rfl⟩ := h
    exact .named range _ _ defined rows (forall₂_writes_iff.mpr rfl)

/-- Each definition holds the query of its node, and what that names is defined as well. -/
def Consistent (d : Dialect) (s : Strategy) (definitions : List Definition) : Prop :=
  ∀ m q, .rows m q ∈ definitions → (m.query d s).result = .ok q ∧
    ∀ k ∈ q.mentions, ∃ r, .rows k r ∈ definitions

/-- The columns that a query puts out are numbered through, as many as the node has. -/
theorem yields_iff_of_query (hc : Consistent d s definitions) {q : Query Node}
    (hq : (n.query d s).result = .ok q)
    (hnamed : s = .commonTableExpressions → ∀ k ∈ q.mentions, ∃ r, .rows k r ∈ definitions) :
    ∃ p, (n.projection d).result = .ok p ∧
      ∀ columns, q.Yields d definitions columns ↔ columns = columnNames p.length := by
  induction n using reads_induction generalizing q with
  | step n ih =>
    obtain ⟨layout, hlayout, hquery⟩ := query_eq_ok.mp hq
    cases fits_of_layout hlayout with
    | listed projection branches =>
      exact ⟨_, projection, fun _ => yields_iff_of_lists branches hquery⟩
    | @passed h m star first projection =>
      obtain ⟨src, hsrc, rfl⟩ := branch_query_eq_ok.mp hquery
      have hnames {ps p : Projection}
          (hrange : List.range ps.length ++ h.items.map Item.index = List.range p.length) :
          columnNames ps.length ++ h.items.map Item.name = columnNames p.length := by
        rw [columnNames, columnNames, ← hrange, List.map_append, map_name_eq]
      cases s with
      | inline =>
        obtain ⟨r, hr, rfl⟩ := read_whole_nested_eq_ok.mp hsrc
        obtain ⟨ps, hps, hyields⟩ := ih m (reads_of_input first) hr (by simp)
        obtain ⟨p, hp, hrange⟩ := projection ps hps
        refine ⟨p, hp, fun columns => ?_⟩
        simp only [yields_nested_iff star, hyields, exists_eq_left, hnames hrange]
      | commonTableExpressions =>
        rw [Place.source, read_whole_named, Outcome.ok_eq_ok] at hsrc
        subst hsrc
        obtain ⟨r, hr⟩ := hnamed rfl m (by simp [mentions_selectFrom, Source.mentions])
        obtain ⟨hrows, hbelow⟩ := hc m r hr
        obtain ⟨ps, hps, hyields⟩ := ih m (reads_of_input first) hrows fun _ => hbelow
        obtain ⟨p, hp, hrange⟩ := projection ps hps
        -- the node is defined by its query only, so there is one list behind the star
        have hone : ∀ q, .rows m q ∈ definitions ↔ q = r := by
          intro q
          constructor
          · intro hmem
            exact Outcome.result_unique (hc m q hmem).1 hrows
          · rintro rfl
            exact hr
        refine ⟨p, hp, fun columns => ?_⟩
        simp only [yields_named_iff star, hone, exists_eq_left, hyields, hnames hrange]

end Yields

/-- The definitions of a statement that counts rows are consistent. -/
theorem consistent_of_scoped {order : List Node} {rows : List Definition} {body : Body}
    (hrows : (definitions d order).result = .ok rows) (hscoped : Statement.Scoped ⟨rows, body⟩) :
    Consistent d .commonTableExpressions rows := by
  intro m q hmem
  obtain ⟨n, _, hn⟩ := Outcome.exists_of_mem_mapM hrows _ hmem
  simp only [Outcome.bind_eq_ok, Outcome.pure_eq_ok, Definition.rows.injEq] at hn
  obtain ⟨q', hq, rfl, rfl⟩ := hn
  refine ⟨hq, fun k hk => ?_⟩
  obtain ⟨before, after, hsplit⟩ := List.append_of_mem hmem
  obtain ⟨r, hr⟩ := hscoped.definitions before _ after hsplit k hk
  exact ⟨r, by simp [hsplit, hr]⟩

/-- A statement that counts rows counts those of a query with the columns of the target. -/
theorem yields_iff_of_count {nodes : List Node} (hc : Complete nodes) {target : Node}
    (ht : target ∈ nodes) {s : Strategy} {depth : Nat} {st : Statement}
    (h : (target.count d s depth).result = .ok st) :
    ∃ q p, st.body = .count q target.name ∧ (target.query d s).result = .ok q ∧
      (target.projection d).result = .ok p ∧
      ∀ columns, q.Yields d st.definitions columns ↔ columns = columnNames p.length := by
  cases s with
  | inline =>
    simp only [count, Outcome.bind_eq_ok, Outcome.pure_eq_ok] at h
    obtain ⟨q, hq, rfl⟩ := h
    have hnone : Consistent d .inline [] := by simp [Consistent]
    obtain ⟨p, hp, hyields⟩ := yields_iff_of_query hnone hq (by simp)
    exact ⟨q, p, rfl, hq, hp, hyields⟩
  | commonTableExpressions =>
    have hscoped := scoped_of_count hc ht h
    simp only [count, Outcome.bind_eq_ok, Outcome.pure_eq_ok] at h
    obtain ⟨q, hq, order, _, rows, hrows, rfl⟩ := h
    obtain ⟨p, hp, hyields⟩ := yields_iff_of_query (consistent_of_scoped hrows hscoped) hq
      fun _ => hscoped.body
    exact ⟨q, p, rfl, hq, hp, hyields⟩

end Node

namespace Graph

/-- In a graph without cycles, the query whose rows a statement counts puts out the columns of the
target's projection: `Column_0`, `Column_1` and so on, each once and no others. They are the names
behind `AS` in its text. -/
theorem query_yields_projection {specs : List NodeSpec} {catalog : Catalog} {d : Dialect}
    {g : Graph} {notes : List BuildNote} (hb : build specs catalog d = .ok (g, notes))
    (ha : g.Acyclic) (s : Strategy) {id sql : String}
    (h : ((g.withStrategy s).countStatement id).result = .ok sql) :
    ∃ target st q p, (g.node id).result = .ok target ∧
      (target.count g.dialect s g.size).result = .ok st ∧ st.sql g.dialect = sql ∧
      st.Spelled g.dialect sql ∧
      st.body = .count q target.name ∧ (target.query g.dialect s).result = .ok q ∧
      st.body.sql g.dialect =
        "SELECT COUNT(*) FROM (" ++ q.sql g.dialect Node.name ++ ") AS " ++ target.name ∧
      (∀ w, q.Spelled g.dialect w ↔ w = q.sql g.dialect Node.name) ∧
      (target.projection g.dialect).result = .ok p ∧
      (∀ columns, q.Yields g.dialect st.definitions columns ↔ columns = columnNames p.length) ∧
      (columnNames p.length).Nodup := by
  obtain ⟨target, st, ht, hst, hsql, hspelled⟩ := statement_of_count h
  obtain ⟨q, p, hbody, hq, hp, hyields⟩ :=
    Node.yields_iff_of_count (nodes_complete hb ha) (mem_nodes_of_node ht) hst
  have hcounted : st.body.sql g.dialect =
      "SELECT COUNT(*) FROM (" ++ q.sql g.dialect Node.name ++ ") AS " ++ target.name := by
    rw [hbody]
    rfl
  exact ⟨target, st, q, p, ht, hst, hsql, hspelled, hbody, hq, hcounted,
    fun _ => Query.spelled_iff, hp, hyields, nodup_columnNames p.length⟩

/-- A slice of a column, and a filter over it that passes on all columns. -/
def slicedSpecs : List NodeSpec :=
  [⟨"orders", [], .tableSource ⟨some "orders"⟩⟩,
    ⟨"sliced", ["orders"], .extract
      ⟨some 1, .beginning, none, none, .length, none, some 2, none, none⟩⟩,
    ⟨"kept", ["sliced"], .filter ⟨some 2, some .isNotEmpty, none, false⟩⟩]

def sliced : Graph where
  dialect := .postgreSql
  strategy := .commonTableExpressions
  entries := slicedSpecs.map (entry (slicedSpecs.map NodeSpec.id) diamondCatalog)

theorem build_sliced : build slicedSpecs diamondCatalog .postgreSql =
    .ok (sliced, [.built 3 .postgreSql]) := rfl

theorem acyclic_sliced : sliced.Acyclic := acyclic_of_earlier (by decide)

/-- Behind two stars stand the table's own columns, and the slice stands after them. -/
theorem query_yields_projection_sliced :
    ∃ target st q p sql, (sliced.node "kept").result = .ok target ∧
      (target.count .postgreSql .commonTableExpressions 3).result = .ok st ∧
      (target.query .postgreSql .commonTableExpressions).result = .ok q ∧
      (target.projection .postgreSql).result = .ok p ∧
      p.names = ["id", "total", "total (extract)"] ∧
      sql = "WITH node_orders AS (SELECT node_orders_table.\"id\" AS Column_0, " ++
        "node_orders_table.\"total\" AS Column_1 FROM \"orders\" AS node_orders_table), " ++
        "node_sliced AS (SELECT *, SUBSTRING(CAST(Column_1 AS TEXT) FROM 1 FOR 2) AS Column_2 " ++
        "FROM node_orders) SELECT COUNT(*) FROM (SELECT * FROM node_sliced WHERE " ++
        "Column_2 IS NOT NULL) AS node_kept" ∧
      st.Spelled .postgreSql sql ∧
      ∀ columns, q.Yields .postgreSql st.definitions columns ↔
        columns = ["Column_0", "Column_1", "Column_2"] := by
  have hcount : ((sliced.withStrategy .commonTableExpressions).countStatement "kept").result =
      .ok _ := rfl
  obtain ⟨target, st, q, p, ht, hst, _, hspelled, _, hq, _, _, hp, hyields, _⟩ :=
    query_yields_projection build_sliced acyclic_sliced .commonTableExpressions hcount
  have htarget : (sliced.node "kept").result = .ok _ := rfl
  obtain rfl := Outcome.result_unique htarget ht
  obtain rfl := Outcome.result_unique hp rfl
  exact ⟨_, st, q, _, _, rfl, hst, hq, rfl, by decide +kernel, by decide +kernel, hspelled, hyields⟩

end Graph

end DataflowSql

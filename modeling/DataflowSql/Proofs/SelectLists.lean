import DataflowSql.Proofs.Picks
import DataflowSql.Proofs.RowOrder
import DataflowSql.Proofs.Spare
import DataflowSql.Proofs.Written

/-! Select lists. Every operation but the append makes sure that it puts out a column, or passes on
those of an input. So a statement has an empty select list exactly if it writes out an append whose
inputs have no column in common. -/
namespace DataflowSql

open Sql

namespace Sql

variable {ρ : Type}

mutual

/-- The select lists of a query, at any depth. -/
def Query.selectLists (d : Dialect) : Query ρ → List String
  | .select star items source _ _ => selectList d star items :: source.selectLists d
  | .union l r => l.selectLists d ++ r.selectLists d
  | .unionAll l r => l.selectLists d ++ r.selectLists d

def Source.selectLists (d : Dialect) : Source ρ → List String
  | .table _ _ => []
  | .named _ _ => []
  | .nested _ q _ => q.selectLists d
  | .join l _ r => l.selectLists d ++ r.selectLists d

end

/-- There is a `SELECT` with this list in the text. -/
def Selects (text list : String) : Prop :=
  ∃ before after, text = before ++ ("SELECT " ++ list ++ " FROM ") ++ after

namespace Selects

variable {text list : String}

theorem within (h : Selects text list) (left right : String) :
    Selects (left ++ text ++ right) list := by
  obtain ⟨before, after, rfl⟩ := h
  exact ⟨left ++ before, after ++ right, by simp only [String.append_assoc]⟩

theorem append_right (h : Selects text list) (right : String) : Selects (text ++ right) list := by
  simpa using h.within "" right

theorem append_left (h : Selects text list) (left : String) : Selects (left ++ text) list := by
  simpa using h.within left ""

theorem of_sides {left right : String} (h : Selects left list ∨ Selects right list)
    (middle : String) : Selects (left ++ middle ++ right) list := by
  rcases h with h | h
  · rw [String.append_assoc]
    exact h.append_right _
  · exact h.append_left _

theorem of_opening {start : String} (opening : String)
    (h : start = " FROM " ++ opening) : Selects ("SELECT " ++ list ++ start) list := by
  subst h
  exact ⟨"", opening, by simp only [String.append_assoc, String.empty_append]⟩

/-- A list that stands between the parts of two texts. -/
theorem of_frame {first last before after : String}
    (hfirst : first = "SELECT " ++ before) (hlast : last = after ++ " FROM ") (text : String) :
    Selects (first ++ text ++ last) (before ++ text ++ after) := by
  subst hfirst hlast
  exact ⟨"", "", by simp only [String.append_assoc, String.empty_append, String.append_empty]⟩

theorem of_intercalate (separator : String) {text : String} {texts : List String}
    (hmem : text ∈ texts) (h : Selects text list) :
    Selects (separator.intercalate texts) list := by
  induction texts with
  | nil => cases hmem
  | cons t ts ih =>
    cases ts with
    | nil =>
      rw [List.mem_singleton] at hmem
      subst hmem
      simpa using h
    | cons u us =>
      rw [String.intercalate_cons_cons]
      rcases List.mem_cons.mp hmem with rfl | hmem
      · rw [String.append_assoc]
        exact h.append_right _
      · exact (ih hmem).append_left _

end Selects

theorem Meeting.selects {d : Dialect} {left right list : String} (m : Meeting)
    (h : Selects left list ∨ Selects right list) : Selects (m.sql d left right) list := by
  cases m with
  | cross => exact .of_sides h _
  | on kind x y =>
    have hsides := Selects.of_sides h (" " ++ kind.text ++ " ")
    simp only [← String.append_assoc] at hsides
    exact (((hsides.append_right _).append_right _).append_right _).append_right _

mutual

/-- What counts as a select list stands in the text behind a `SELECT`. -/
theorem Query.selects_of_mem {d : Dialect} {name : ρ → String} {list : String} :
    (q : Query ρ) → list ∈ q.selectLists d → Selects (q.sql d name) list
  | .select star items source condition groups, h => by
    rw [Query.selectLists, List.mem_cons] at h
    rw [Query.sql]
    refine Selects.append_right (Selects.append_right ?_ _) _
    rcases h with rfl | h
    · exact ⟨"", source.sql d name, by rw [String.empty_append]⟩
    · exact (Source.selects_of_mem source h).append_left _
  | .union l r, h => by
    rw [Query.selectLists, List.mem_append] at h
    rw [Query.sql]
    exact .of_sides (h.imp (Query.selects_of_mem l) (Query.selects_of_mem r)) _
  | .unionAll l r, h => by
    rw [Query.selectLists, List.mem_append] at h
    rw [Query.sql]
    exact .of_sides (h.imp (Query.selects_of_mem l) (Query.selects_of_mem r)) _

theorem Source.selects_of_mem {d : Dialect} {name : ρ → String} {list : String} :
    (src : Source ρ) → list ∈ src.selectLists d → Selects (src.sql d name) list
  | .table _ _, h => by simp [Source.selectLists] at h
  | .named _ _, h => by simp [Source.selectLists] at h
  | .nested _ q range, h => by
    rw [Source.selectLists] at h
    rw [Source.sql]
    refine Selects.append_right ?_ _
    exact (Query.selects_of_mem q h).within "(" ") AS "
  | .join l m r, h => by
    rw [Source.selectLists, List.mem_append] at h
    rw [Source.sql]
    refine m.selects (h.imp (Source.selects_of_mem l) fun h => ?_)
    have hright : Selects (r.sql d name) list := Source.selects_of_mem r h
    split
    · exact hright.within "(" ")"
    · exact hright

end

theorem intercalate_ne_empty {text : String} (h : text ≠ "") (texts : List String) :
    ", ".intercalate (text :: texts) ≠ "" := by
  cases texts with
  | nil => simpa using h
  | cons t ts => simp [String.intercalate_cons_cons]

theorem selectList_eq_empty_iff {d : Dialect} {star : Bool} {items : List Item} :
    selectList d star items = "" ↔ star = false ∧ items = [] := by
  constructor
  · intro h
    cases star with
    | true => exact absurd h (intercalate_ne_empty (by decide) _)
    | false =>
      cases items with
      | nil => exact ⟨rfl, rfl⟩
      | cons i is => exact absurd h (intercalate_ne_empty (by simp [Item.sql]) _)
  · rintro ⟨rfl, rfl⟩
    rfl

theorem splits_selectLists (d : Dialect) : Query.Splits (Query.selectLists (ρ := ρ) d) :=
  ⟨fun _ _ => by rw [Query.selectLists], fun _ _ => by rw [Query.selectLists]⟩

end Sql

theorem ChartProjection.picks_ne_nil {c : ChartProjection} {id : String} {input : Projection}
    {picks : List Nat} (h : (c.picks id input).result = .ok picks) : picks ≠ [] := by
  rw [picks_eq h]
  intro hnone
  simp [ChartProjection.picks, List.append_eq_nil_iff.mp hnone] at h

namespace Node

variable {d : Dialect} {s : Strategy} {n : Node} {q : Query Node} {layout : Layout}

section Columns

/-- A join or an append without columns. -/
def Bare (d : Dialect) (n : Node) : Prop :=
  ((∃ j, n.operation = .join j) ∨ ∃ a, n.operation = .append a) ∧ (n.projection d).result = .ok []

/-- An append without columns. -/
def BareAppend (d : Dialect) (n : Node) : Prop :=
  (∃ a, n.operation = .append a) ∧ (n.projection d).result = .ok []

theorem BareAppend.bare (h : n.BareAppend d) : n.Bare d := ⟨.inr h.1, h.2⟩

theorem layout_of_sort {st : Sorting} (hop : n.operation = .sort st)
    (h : (n.layout d).result = .ok layout) :
    ∃ m, (n.input 0).result = .ok m ∧ (n.projection d).result = (m.projection d).result ∧
      layout = .single ⟨⟨true, [], none, []⟩, .input m (.whole none)⟩ := by
  simp only [Node.layout, hop, headingOver, Outcome.bind_eq_ok, Outcome.pure_eq_ok] at h
  obtain ⟨m, hm, _, rfl, rfl⟩ := h
  refine ⟨m, hm, ?_, rfl⟩
  rw [projection_eq, hop]
  exact Outcome.result_bind_of_ok hm _

theorem projection_ne_nil_of_table {t : TableSource} (hop : n.operation = .tableSource t)
    {place : Place} (h : (tablePlace t n).result = .ok place) :
    (n.projection d).result ≠ .ok [] := by
  intro hp
  have hnone := List.eq_nil_of_length_eq_zero (projection_of_table hop hp).symm
  simp only [tablePlace, TableSource.requireColumns, Outcome.bind_eq_ok] at h
  obtain ⟨_, ⟨_, _, hcolumns⟩, _⟩ := h
  simp [hnone] at hcolumns

/-- An operation over one input that goes without columns is a sort. -/
theorem sort_of_no_columns {m : Node} {h : Heading} (one : arity n.operation = .one)
    (first : (n.input 0).result = .ok m) (heading : (headingOver d n m).result = .ok h)
    (hp : (n.projection d).result = .ok []) : ∃ st, n.operation = .sort st := by
  have hinput {p : Projection} (hinput : (n.inputProjection d 0).result = .ok p) :
      (m.projection d).result = .ok p := by
    rwa [inputProjection, Outcome.result_bind_of_ok first] at hinput
  unfold headingOver at heading
  rw [projection_eq] at hp
  cases hop : n.operation with
  | tableSource t => simp [arity, hop] at one
  | join j => simp [arity, hop] at one
  | append a => simp [arity, hop] at one
  | sort st => exact ⟨st, rfl⟩
  | select st =>
    simp only [hop, Outcome.bind_eq_ok, Outcome.guarded_eq_ok, Outcome.pure_eq_ok] at heading hp
    obtain ⟨ps, hps, hpicks, _⟩ := heading
    obtain ⟨ps', hps', hnone⟩ := hp
    obtain rfl := Outcome.result_unique hps (hinput hps')
    have hlength := Select.length_projection st ps
    rw [hnone] at hlength
    simp [List.eq_nil_of_length_eq_zero hlength.symm] at hpicks
  | filter f =>
    simp only [hop, Outcome.bind_eq_ok, Filter.predicate, Projection.column,
      Outcome.ofOption_eq_ok] at heading hp
    obtain ⟨_, ⟨index, _, operator, _, ps, hps, column, hcolumn, _⟩, _⟩ := heading
    obtain rfl := Outcome.result_unique hps (hinput hp)
    simp at hcolumn
  | summarize st =>
    simp only [hop, Outcome.bind_eq_ok, Outcome.guarded_eq_ok, Outcome.pure_eq_ok] at heading hp
    obtain ⟨ps, hps, outputs, houtputs, hall, _⟩ := heading
    obtain ⟨ps', hps', outputs', houtputs', hnone⟩ := hp
    obtain rfl := Outcome.result_unique hps (hinput hps')
    obtain rfl := Outcome.result_unique houtputs houtputs'
    simp [List.map_eq_nil_iff.mp hnone] at hall
  | extract e =>
    simp only [hop, Extract.projection, Outcome.bind_eq_ok, Outcome.pure_eq_ok] at hp
    obtain ⟨_, _, _, _, _, _, hnone⟩ := hp
    simp at hnone
  | chartProjection c =>
    simp only [hop, ChartProjection.projection, Outcome.bind_eq_ok, Outcome.pure_eq_ok] at hp
    obtain ⟨ps, _, picks, hpicks, hnone⟩ := hp
    have hlength := ChartProjection.length_picked hpicks
    rw [hnone] at hlength
    exact absurd (List.eq_nil_of_length_eq_zero hlength.symm) (ChartProjection.picks_ne_nil hpicks)

theorem sort_or_bare_of_no_columns (hlayout : (n.layout d).result = .ok layout)
    (hp : (n.projection d).result = .ok []) : (∃ st, n.operation = .sort st) ∨ n.Bare d := by
  have hone (one : arity n.operation = .one) (h : (do
      let m ← n.input 0
      return .single ⟨← headingOver d n m, .input m (inputMode n.operation)⟩ :
        Outcome Layout).result = .ok layout) : ∃ st, n.operation = .sort st := by
    simp only [Outcome.bind_eq_ok] at h
    obtain ⟨m, hm, heading, hheading, _⟩ := h
    exact sort_of_no_columns one hm hheading hp
  unfold Node.layout at hlayout
  cases hop : n.operation with
  | tableSource t =>
    simp only [hop, Outcome.bind_eq_ok] at hlayout
    obtain ⟨place, hplace, _⟩ := hlayout
    exact absurd hp (projection_ne_nil_of_table hop hplace)
  | join j => exact .inr ⟨.inl ⟨j, hop⟩, hp⟩
  | append a => exact .inr ⟨.inr ⟨a, hop⟩, hp⟩
  | _ =>
    rw [hop] at hlayout
    rw [← hop]
    exact .inl (hone (by rw [hop]; rfl) (by rw [hop]; exact hlayout))

/-- Joins and appends list their columns. -/
theorem star_of_branch (hop : (∃ j, n.operation = .join j) ∨ ∃ a, n.operation = .append a)
    {b : Branch} (hb : IsBranch d n b) : b.heading.star = false := by
  cases hb with
  | table path none => rfl
  | input one first heading => rcases hop with ⟨_, hop⟩ | ⟨_, hop⟩ <;> simp [arity, hop] at one
  | join two columns clause => rfl
  | append out available all reads => rfl

/-- A node lists nothing if it is bare, and only then. -/
theorem bare_iff (hlayout : (n.layout d).result = .ok layout) : n.Bare d ↔
    ∃ b ∈ layout.branches, b.heading.star = false ∧ b.heading.items = [] := by
  constructor
  · rintro ⟨hop, hp⟩
    obtain ⟨b, hb⟩ := layout.exists_branch
    refine ⟨b, hb, ?_⟩
    cases fits_of_layout hlayout with
    | listed projection branches =>
      obtain rfl := Outcome.result_unique projection hp
      obtain ⟨hstar, hitems⟩ := branches b hb
      exact ⟨hstar, List.map_eq_nil_iff.mp hitems⟩
    | passed star first _ =>
      have hstar := star_of_branch hop (isBranch_of_layout hlayout hb)
      rw [Layout.branches, List.mem_singleton] at hb
      subst hb
      rw [star] at hstar
      cases hstar
  · rintro ⟨b, hb, hstar, hitems⟩
    cases fits_of_layout hlayout with
    | listed projection branches =>
      have hindexes := (branches b hb).indexes
      rw [hitems, List.map_nil, eq_comm, List.range_eq_nil, List.length_eq_zero_iff] at hindexes
      subst hindexes
      rcases sort_or_bare_of_no_columns hlayout projection with ⟨st, hop⟩ | hbare
      · obtain ⟨m, _, _, rfl⟩ := layout_of_sort hop hlayout
        rw [Layout.branches, List.mem_singleton] at hb
        subst hb
        cases hstar
      · exact hbare
    | passed star first _ =>
      rw [Layout.branches, List.mem_singleton] at hb
      subst hb
      rw [star] at hstar
      cases hstar

end Columns

theorem selectLists_selectFrom (h : Heading) (src : Source Node) :
    (h.selectFrom src).selectLists d = selectList d h.star h.items :: src.selectLists d := by
  rw [Heading.selectFrom, Query.selectLists]

/-- A query has an empty select list exactly if a node is bare whose query is written out. -/
theorem empty_mem_selectLists_iff (hq : (n.query d s).result = .ok q) :
    "" ∈ q.selectLists d ↔ ∃ m ∈ n :: q.places, m.Bare d := by
  refine (read_induction (P := fun n q => "" ∈ q.selectLists d ↔ ∃ m ∈ n :: q.places, m.Bare d)
    (S := fun src => "" ∈ src.selectLists d ↔ ∃ m ∈ src.places, m.Bare d) ?_ ?_ ?_ ?_ ?_ n).1 q hq
  · intro path range
    simp [Source.selectLists, Source.places]
  · intro _ m range
    simp [Source.selectLists, Source.places]
  · intro _ m q range h
    rwa [Source.selectLists, Source.places]
  · intro l m r hl hr
    simp only [Source.selectLists, Source.places, List.mem_append, or_and_right, exists_or, hl, hr]
  · intro n layout q hlayout hq hsources
    rw [mem_view_iff (splits_selectLists d) hq]
    simp only [selectLists_selectFrom, List.mem_cons, exists_eq_or_imp, bare_iff hlayout,
      mem_view_iff splits_places hq, places_selectFrom]
    constructor
    · rintro ⟨b, hb, src, hsrc, hempty | hempty⟩
      · exact .inl ⟨b, hb, selectList_eq_empty_iff.mp hempty.symm⟩
      · obtain ⟨m, hm, hbare⟩ := (hsources b hb src hsrc).mp hempty
        exact .inr ⟨m, ⟨b, hb, src, hsrc, hm⟩, hbare⟩
    · rintro (⟨b, hb, hempty⟩ | ⟨m, ⟨b, hb, src, hsrc, hm⟩, hbare⟩)
      · obtain ⟨src, hsrc, _⟩ := mentions_of_mem_branches hq hb
        exact ⟨b, hb, src, hsrc, .inl (selectList_eq_empty_iff.mpr hempty).symm⟩
      · exact ⟨b, hb, src, hsrc, .inr ((hsources b hb src hsrc).mpr ⟨m, hm, hbare⟩)⟩

section Written

variable {W : List Node}

/-- A node without columns that is spliced in is read as a whole, or it is a join. -/
theorem splice_of_no_columns (hp : (n.projection d).result = .ok []) {place : Place}
    (h : (n.splice d).result = .ok place) :
    place = .input n (.whole none) ∨ (∃ j, n.operation = .join j) ∧ IsJoinPlace d n place := by
  unfold splice at h
  cases hop : n.operation with
  | tableSource t =>
    rw [hop] at h
    exact absurd hp (projection_ne_nil_of_table hop h)
  | join j =>
    simp only [hop] at h
    cases hshape : j.joinType.shape? with
    | some shape =>
      rw [hshape] at h
      exact .inr ⟨⟨j, rfl⟩, isJoinPlace_of_joinPlace h⟩
    | none =>
      rw [hshape, Outcome.pure_eq_ok] at h
      exact .inl h.symm
  | _ =>
    rw [hop, Outcome.pure_eq_ok] at h
    exact .inl h.symm

theorem left_of_no_columns {j : Join} (hop : n.operation = .join j)
    (hp : (n.projection d).result = .ok []) {l : Node} (hl : (n.input 0).result = .ok l) :
    (l.projection d).result = .ok [] := by
  rw [projection_eq] at hp
  simp only [hop, Outcome.bind_eq_ok, Outcome.pure_eq_ok] at hp
  obtain ⟨l', hl', _, _, ls, hls, rs, _, hnone⟩ := hp
  obtain rfl := Outcome.result_unique hl hl'
  rwa [(List.append_eq_nil_iff.mp hnone).1] at hls

/-- Where a node without columns is written or read in a closed set, the set has an append without
columns: sorts and joins only pass on what is below them, and all else puts out a column. -/
theorem exists_bareAppend (hW : Closed d s W) (n : Node) (hp : (n.projection d).result = .ok []) :
    (n ∈ W → ∃ m ∈ W, m.BareAppend d) ∧
      ∀ mode src, (n.read d s mode).result = .ok src → src.reads ⊆ W →
        ∃ m ∈ W, m.BareAppend d := by
  induction n using reads_induction with
  | step n ih =>
    have hjoin {j : Join} (hop : n.operation = .join j) {place : Place}
        (clause : IsJoinPlace d n place) {src : Source Node}
        (hsrc : (place.source d s).result = .ok src) (hsub : src.reads ⊆ W) :
        ∃ m ∈ W, m.BareAppend d := by
      obtain ⟨hl, _, _, _⟩ := clause
      obtain ⟨ls, rs, hls, _, rfl⟩ := place_join_eq_ok.mp hsrc
      rw [Source.reads, List.append_subset] at hsub
      exact (ih _ (reads_of_input hl) (left_of_no_columns hop hp hl)).2 _ _ hls hsub.1
    have hwritten (hn : n ∈ W) : ∃ m ∈ W, m.BareAppend d := by
      obtain ⟨q, hq, hsub⟩ := hW n hn
      obtain ⟨layout, hlayout, hq⟩ := query_eq_ok.mp hq
      obtain ⟨b, hb⟩ := layout.exists_branch
      obtain ⟨src, hsrc, hreads⟩ := reads_of_mem_branches hq hb
      -- The columns of a sort or a join are those below it, so the induction goes on there.
      rcases sort_or_bare_of_no_columns hlayout hp with ⟨st, hop⟩ | ⟨⟨j, hop⟩ | hop, _⟩
      · obtain ⟨m, hm, hproj, rfl⟩ := layout_of_sort hop hlayout
        rw [Layout.branches, List.mem_singleton] at hb
        subst hb
        exact (ih m (reads_of_input hm) (hproj ▸ hp)).2 _ _ hsrc (List.Subset.trans hreads hsub)
      · cases isBranch_of_layout hlayout hb with
        | table path none => simp [arity, hop] at none
        | input one first heading => simp [arity, hop] at one
        | join two columns clause => exact hjoin hop clause hsrc (List.Subset.trans hreads hsub)
        | append out available all reads => simp [arity, hop] at all
      · exact ⟨n, hn, hop, hp⟩
    refine ⟨hwritten, fun mode src hsrc hsub => ?_⟩
    have hwhole {range : Option String} (h : (n.read d s (.whole range)).result = .ok src) :
        ∃ m ∈ W, m.BareAppend d := hwritten (hsub (by simp [reads_of_whole h]))
    cases mode with
    | whole range => exact hwhole hsrc
    | spliced =>
      obtain ⟨place, hplace, hsrc⟩ := read_spliced_eq_ok.mp hsrc
      rcases splice_of_no_columns hp hplace with rfl | ⟨⟨j, hop⟩, clause⟩
      · exact hwhole hsrc
      · exact hjoin hop clause hsrc hsub

theorem bareAppend_iff_bare (hW : Closed d s W) :
    (∃ m ∈ W, m.Bare d) ↔ ∃ m ∈ W, m.BareAppend d := by
  constructor
  · rintro ⟨m, hm, _, hp⟩
    exact (exists_bareAppend hW m hp).1 hm
  · rintro ⟨m, hm, hbare⟩
    exact ⟨m, hm, hbare.bare⟩

end Written

end Node

def Definition.selectLists (d : Dialect) : Definition → List String
  | .rows _ q => q.selectLists d
  | .numbered _ key => ["*, ROW_NUMBER() OVER (ORDER BY " ++ key.text ++ ") AS ROW_NUM"]

def Body.selectLists (d : Dialect) : Body → List String
  | .nested columns q _ _ => columnList columns :: q.selectLists d
  | .listed columns _ _ => [columnList columns]
  | .windowed columns _ _ _ _ => [columnList columns]
  | .count q _ => "COUNT(*)" :: q.selectLists d

/-- All select lists of a statement. -/
def Statement.selectLists (d : Dialect) (st : Statement) : List String :=
  st.definitions.flatMap (Definition.selectLists d) ++ st.body.selectLists d

section Texts

variable {d : Dialect} {list : String}

theorem Definition.selects_of_mem {e : Definition} (h : list ∈ e.selectLists d) :
    Selects (e.sql d) list := by
  rw [Definition.sql]
  refine Selects.append_right (Selects.append_left ?_ _) _
  cases e with
  | rows n q => exact Query.selects_of_mem q h
  | numbered n key =>
    rw [Definition.selectLists, List.mem_singleton] at h
    subst h
    exact (Selects.of_frame (by decide) (by decide) key.text).append_right _

theorem Body.selects_of_mem {body : Body} (h : list ∈ body.selectLists d) :
    Selects (body.sql d) list := by
  have hstart : Selects ("SELECT " ++ list ++ " FROM ") list := ⟨"", "", by simp⟩
  have hopen : Selects ("SELECT " ++ list ++ " FROM (") list := .of_opening "(" (by decide)
  cases body with
  | nested columns q key page =>
    unfold Body.sql
    rw [Body.selectLists, List.mem_cons] at h
    refine Selects.append_right (Selects.append_right (Selects.append_right ?_ _) _) _
    rcases h with rfl | h
    · exact hopen.append_right _
    · exact (Query.selects_of_mem q h).append_left _
  | listed columns name key =>
    rw [Body.selectLists, List.mem_singleton] at h
    subst h
    exact ((hstart.append_right _).append_right _).append_right _
  | windowed columns name first last key =>
    rw [Body.selectLists, List.mem_singleton] at h
    subst h
    unfold Body.sql
    iterate 7 refine Selects.append_right ?_ _
    exact hstart
  | count q name =>
    unfold Body.sql
    rw [Body.selectLists, List.mem_cons] at h
    refine Selects.append_right (Selects.append_right ?_ _) _
    rcases h with rfl | h
    · exact Selects.append_right ⟨"", "(", by decide⟩ _
    · exact (Query.selects_of_mem q h).append_left _

theorem Statement.selects_of_mem {st : Statement} (h : list ∈ st.selectLists d) :
    Selects (st.sql d) list := by
  rw [Statement.selectLists, List.mem_append, List.mem_flatMap] at h
  rw [Statement.sql]
  rcases h with ⟨e, he, h⟩ | h
  · rw [if_neg (by simpa using List.ne_nil_of_mem he)]
    have hentry := Selects.of_intercalate ", " (List.mem_map_of_mem he)
      (Definition.selects_of_mem h)
    exact ((hentry.append_left _).append_right _).append_right _
  · have hbody := Body.selects_of_mem h
    split
    · exact hbody
    · exact hbody.append_left _

end Texts

theorem columnList_ne_empty {columns : Nat} (h : 0 < columns) : columnList columns ≠ "" := by
  obtain ⟨count, rfl⟩ := Nat.exists_eq_succ_of_ne_zero h.ne'
  rw [columnList, List.range_succ_eq_map, List.map_cons]
  exact intercalate_ne_empty (by simp [columnName]) _

section Statements

variable {d : Dialect} {s : Strategy} {target : Node} {nodes : List Node} {q : Query Node}
  {st : Statement} {depth : Nat}

/-- The select lists of the definitions are those of the queries, and the numbers of the rows. -/
theorem Statement.empty_mem_iff
    (h : ∀ m q, .rows m q ∈ st.definitions → (m.query d s).result = .ok q) :
    "" ∈ st.selectLists d ↔ (∃ m ∈ st.definitions.flatMap Definition.places, m.Bare d) ∨
      "" ∈ st.body.selectLists d := by
  rw [Statement.selectLists, List.mem_append, List.mem_flatMap]
  refine or_congr_left ?_
  constructor
  · rintro ⟨e, he, hempty⟩
    cases e with
    | rows n q =>
      obtain ⟨m, hm, hbare⟩ := (Node.empty_mem_selectLists_iff (h n q he)).mp hempty
      exact ⟨m, List.mem_flatMap.mpr ⟨_, he, hm⟩, hbare⟩
    | numbered n key => simp [Definition.selectLists] at hempty
  · rintro ⟨m, hm, hbare⟩
    obtain ⟨e, he, hm⟩ := List.mem_flatMap.mp hm
    cases e with
    | rows n q => exact ⟨_, he, (Node.empty_mem_selectLists_iff (h n q he)).mpr ⟨m, hm, hbare⟩⟩
    | numbered n key => cases hm

/-- A body that writes out the query of its target. -/
theorem Statement.empty_mem_of_query
    (h : ∀ m q, .rows m q ∈ st.definitions → (m.query d s).result = .ok q)
    (hq : (target.query d s).result = .ok q)
    (hlists : "" ∈ st.body.selectLists d ↔ "" ∈ q.selectLists d)
    (hplaces : st.body.places = q.places) (hclosed : Node.Closed d s (target :: st.places)) :
    "" ∈ st.selectLists d ↔ ∃ m ∈ target :: st.places, m.BareAppend d := by
  rw [← Node.bareAppend_iff_bare hclosed, Statement.empty_mem_iff h, hlists,
    Node.empty_mem_selectLists_iff hq, Statement.places, hplaces]
  simp only [List.mem_cons, List.mem_append, or_and_right, exists_or]
  exact or_left_comm

namespace Node

/-- A statement that counts rows has an empty select list exactly if it writes out an append without
columns. -/
theorem empty_mem_of_count (hc : Complete nodes) (ht : target ∈ nodes)
    (h : (target.count d s depth).result = .ok st) :
    "" ∈ st.selectLists d ↔ ∃ m ∈ target :: st.places, m.BareAppend d := by
  cases s with
  | inline =>
    simp only [count, Outcome.bind_eq_ok, Outcome.pure_eq_ok] at h
    obtain ⟨q, hq, rfl⟩ := h
    refine Statement.empty_mem_of_query (by simp) hq (by simp [Body.selectLists]) rfl ?_
    exact closed_of_inline hq
  | commonTableExpressions =>
    have hscoped := scoped_of_count hc ht h
    simp only [count, Outcome.bind_eq_ok, Outcome.pure_eq_ok] at h
    obtain ⟨q, hq, order, _, rows, hrows, rfl⟩ := h
    have hconsistent := consistent_of_scoped hrows hscoped
    refine Statement.empty_mem_of_query (fun m r hr => (hconsistent m r hr).1) hq
      (by simp [Body.selectLists]) rfl ?_
    have hclosed := closed_of_definitions hconsistent hq hscoped.body
    rwa [Statement.places, Body.places, places_of_named hq, List.append_nil]

/-- What a statement for rows that are defined by name consists of. -/
theorem parts_of_fetch (hc : Complete nodes) (ht : target ∈ nodes) {page : Option Page}
    (h : (target.fetch d .commonTableExpressions depth page).result = .ok st) :
    ∃ rows columns q, Consistent d .commonTableExpressions rows ∧ .rows target q ∈ rows ∧
      0 < columns ∧ (∀ m q, .rows m q ∈ st.definitions ↔ .rows m q ∈ rows) ∧
      st.definitions.flatMap Definition.places = rows.flatMap Definition.places ∧
      st.body.places = [] ∧ st.body.selectLists d = [columnList columns] := by
  simp only [fetch, Outcome.bind_eq_ok] at h
  obtain ⟨p, hp, key, hkey, order, horder, rows, hrows, h⟩ := h
  -- Without the page the statement is there as well, and defines just the rows.
  have hall : (target.fetch d .commonTableExpressions depth none).result =
      .ok ⟨rows, .listed p.length target.name key⟩ := by
    simp only [fetch, Outcome.bind_eq_ok, Outcome.pure_eq_ok]
    exact ⟨p, hp, key, hkey, order, horder, rows, hrows, rfl⟩
  obtain ⟨q, hq⟩ := rows_mem_of_definitions hrows target (by simp)
  refine ⟨rows, p.length, q, consistent_of_scoped hrows (scoped_of_fetch hc ht hall), hq,
    (wellFormed_of_checkedSortKey hp hkey).1, ?_⟩
  cases page with
  | none =>
    rw [Outcome.pure_eq_ok] at h
    subst h
    exact ⟨fun _ _ => Iff.rfl, rfl, rfl, rfl⟩
  | some page =>
    simp only [Outcome.bind_eq_ok, Outcome.pure_eq_ok] at h
    obtain ⟨_, _, rfl⟩ := h
    exact ⟨fun m q => by simp, by simp [Definition.places], rfl, rfl⟩

/-- A statement for rows has an empty select list exactly if it writes out an append without
columns. Its own list is not empty, since rows without columns cannot be ordered. -/
theorem empty_mem_of_fetch (hc : Complete nodes) (ht : target ∈ nodes) {page : Option Page}
    (h : (target.fetch d s depth page).result = .ok st) :
    "" ∈ st.selectLists d ↔ ∃ m ∈ target :: st.places, m.BareAppend d := by
  cases s with
  | inline =>
    simp only [fetch, Outcome.bind_eq_ok, Outcome.pure_eq_ok] at h
    obtain ⟨p, hp, key, hkey, q, hq, rfl⟩ := h
    have hown := columnList_ne_empty (wellFormed_of_checkedSortKey hp hkey).1
    refine Statement.empty_mem_of_query (by simp) hq ?_ rfl (closed_of_inline hq)
    simp [Body.selectLists, hown.symm]
  | commonTableExpressions =>
    obtain ⟨rows, columns, q, hrows, htarget, hpos, hsame, hplaces, hnone, hbody⟩ :=
      parts_of_fetch hc ht h
    obtain ⟨hq, hnamed⟩ := hrows target q htarget
    have hclosed := closed_of_definitions hrows hq hnamed
    have hmem : target ∈ rows.flatMap Definition.places :=
      List.mem_flatMap.mpr ⟨_, htarget, List.mem_cons_self⟩
    rw [Statement.places, hplaces, hnone, List.append_nil, ← bareAppend_iff_bare hclosed,
      Statement.empty_mem_iff fun m r hr => (hrows m r ((hsame m r).mp hr)).1, hplaces, hbody]
    constructor
    · rintro (⟨m, hm, hbare⟩ | hempty)
      · exact ⟨m, .tail _ hm, hbare⟩
      · exact absurd (List.mem_singleton.mp hempty).symm (columnList_ne_empty hpos)
    · rintro ⟨m, hm, hbare⟩
      rcases List.mem_cons.mp hm with rfl | hm
      · exact .inl ⟨m, hmem, hbare⟩
      · exact .inl ⟨m, hm, hbare⟩

end Node

end Statements

namespace Graph

/-- In a graph without cycles, with either strategy, the query of a node has no empty select list
exactly if no join or append whose query is written out goes without columns, and a statement has
none exactly if no append whose query it writes out does. -/
theorem select_lists_nonempty_iff {specs : List NodeSpec} {catalog : Catalog} {d : Dialect}
    {g : Graph} {notes : List BuildNote} (hb : build specs catalog d = .ok (g, notes))
    (ha : g.Acyclic) (s : Strategy) :
    (∀ n ∈ g.nodes, ∀ q, (n.query g.dialect s).result = .ok q →
      (∀ list ∈ q.selectLists g.dialect, Selects (q.sql g.dialect Node.name) list) ∧
      ((∀ list ∈ q.selectLists g.dialect, list ≠ "") ↔
        ∀ m ∈ n :: q.places, ¬m.Bare g.dialect)) ∧
    (∀ id page sql, ((g.withStrategy s).fetchStatement id page).result = .ok sql →
      ∃ target st, (g.node id).result = .ok target ∧
        (target.fetch g.dialect s g.size page).result = .ok st ∧ st.sql g.dialect = sql ∧
        (∀ list ∈ st.selectLists g.dialect, Selects sql list) ∧
        ((∀ list ∈ st.selectLists g.dialect, list ≠ "") ↔
          ∀ m ∈ target :: st.places, ¬m.BareAppend g.dialect)) ∧
    (∀ id sql, ((g.withStrategy s).countStatement id).result = .ok sql →
      ∃ target st, (g.node id).result = .ok target ∧
        (target.count g.dialect s g.size).result = .ok st ∧ st.sql g.dialect = sql ∧
        (∀ list ∈ st.selectLists g.dialect, Selects sql list) ∧
        ((∀ list ∈ st.selectLists g.dialect, list ≠ "") ↔
          ∀ m ∈ target :: st.places, ¬m.BareAppend g.dialect)) := by
  have hc := nodes_complete hb ha
  have hnone {lists : List String} {nodes : List Node} {P : Node → Prop}
      (h : "" ∈ lists ↔ ∃ m ∈ nodes, P m) : (∀ list ∈ lists, list ≠ "") ↔ ∀ m ∈ nodes, ¬P m := by
    have hmem : (∀ list ∈ lists, list ≠ "") ↔ "" ∉ lists :=
      ⟨fun hall hempty => hall "" hempty rfl, fun hempty list hlist heq => hempty (heq ▸ hlist)⟩
    rw [hmem, h]
    simp
  refine ⟨fun n _ q hq => ?_, fun id page sql h => ?_, fun id sql h => ?_⟩
  · exact ⟨fun _ => Query.selects_of_mem q, hnone (Node.empty_mem_selectLists_iff hq)⟩
  · simp only [fetchStatement, Outcome.bind_eq_ok, Outcome.pure_eq_ok] at h
    obtain ⟨target, ht, st, hst, rfl⟩ := h
    exact ⟨target, st, ht, hst, rfl, fun _ => Statement.selects_of_mem,
      hnone (Node.empty_mem_of_fetch hc (mem_nodes_of_node ht) hst)⟩
  · simp only [countStatement, Outcome.bind_eq_ok, Outcome.pure_eq_ok] at h
    obtain ⟨target, ht, st, hst, rfl⟩ := h
    exact ⟨target, st, ht, hst, rfl, fun _ => Statement.selects_of_mem,
      hnone (Node.empty_mem_of_count hc (mem_nodes_of_node ht) hst)⟩

/-- Two tables with no column in common, below each other with all their columns and with those they
share, all pairs of the latter and their number. -/
def strangersSpecs : List NodeSpec :=
  [⟨"orders", [], .tableSource ⟨some "orders"⟩⟩,
    ⟨"notes", [], .tableSource ⟨some "notes"⟩⟩,
    ⟨"mixed", ["orders", "notes"], .append ⟨true⟩⟩,
    ⟨"shared", ["orders", "notes"], .append ⟨false⟩⟩,
    ⟨"pairs", ["shared", "shared"], .join ⟨.cross, none, none⟩⟩,
    ⟨"tally", ["shared"], .summarize ⟨[], [], [], [.count]⟩⟩]

def strangersCatalog : Catalog :=
  ⟨[⟨"orders", none, none, [⟨"id", "int"⟩]⟩, ⟨"notes", none, none, [⟨"body", "text"⟩]⟩]⟩

def strangers : Graph where
  dialect := .postgreSql
  strategy := .commonTableExpressions
  entries := strangersSpecs.map (entry (strangersSpecs.map NodeSpec.id) strangersCatalog)

theorem build_strangers : build strangersSpecs strangersCatalog .postgreSql =
    .ok (strangers, [.built 6 .postgreSql]) := rfl

theorem acyclic_strangers : strangers.Acyclic := acyclic_of_earlier (by decide)

/-- With all columns every list has one. With shared ones some have none, also above the append and
written in place. -/
theorem select_lists_nonempty_strangers :
    (∃ target st, (strangers.node "mixed").result = .ok target ∧
      (target.count .postgreSql .commonTableExpressions 6).result = .ok st ∧
      (st.selectLists .postgreSql).length = 5 ∧ ∀ list ∈ st.selectLists .postgreSql, list ≠ "") ∧
    (∃ target st, (strangers.node "pairs").result = .ok target ∧
      (target.count .postgreSql .commonTableExpressions 6).result = .ok st ∧
      ¬∀ list ∈ st.selectLists .postgreSql, list ≠ "") ∧
    ∃ target st, (strangers.node "tally").result = .ok target ∧
      (target.fetch .postgreSql .inline 6 none).result = .ok st ∧
      ¬∀ list ∈ st.selectLists .postgreSql, list ≠ "" := by
  obtain ⟨_, _, hcount⟩ :=
    select_lists_nonempty_iff build_strangers acyclic_strangers .commonTableExpressions
  obtain ⟨_, hfetch, _⟩ := select_lists_nonempty_iff build_strangers acyclic_strangers .inline
  refine ⟨?_, ?_, ?_⟩
  · obtain ⟨target, st, ht, hst, _, _, hiff⟩ := hcount "mixed" _ rfl
    have htarget : (strangers.node "mixed").result = .ok _ := rfl
    obtain rfl := Outcome.result_unique htarget ht
    obtain rfl := Outcome.result_unique hst rfl
    refine ⟨_, _, rfl, rfl, rfl, hiff.mpr fun m hm hbare => ?_⟩
    obtain ⟨⟨a, ha⟩, hp⟩ := hbare
    rcases List.mem_cons.mp hm with rfl | hm
    · cases hp
    rcases List.mem_cons.mp hm with rfl | hm
    · cases ha
    rcases List.mem_cons.mp hm with rfl | hm
    · cases ha
    · cases hm
  · obtain ⟨target, st, ht, hst, _, _, hiff⟩ := hcount "pairs" _ rfl
    have htarget : (strangers.node "pairs").result = .ok _ := rfl
    obtain rfl := Outcome.result_unique htarget ht
    obtain rfl := Outcome.result_unique hst rfl
    refine ⟨_, _, rfl, rfl, fun hall => ?_⟩
    exact hiff.mp hall _ (.tail _ (.tail _ (.tail _ (.head _)))) ⟨⟨_, rfl⟩, rfl⟩
  · obtain ⟨target, st, ht, hst, _, _, hiff⟩ := hfetch "tally" none _ rfl
    have htarget : (strangers.node "tally").result = .ok _ := rfl
    obtain rfl := Outcome.result_unique htarget ht
    obtain rfl := Outcome.result_unique hst rfl
    refine ⟨_, _, rfl, rfl, fun hall => ?_⟩
    exact hiff.mp hall _ (.tail _ (.head _)) ⟨⟨_, rfl⟩, rfl⟩

/-- An append without columns is counted, and the rows of a summary above it are fetched. -/
theorem select_list_empty :
    strangers.Acyclic ∧
    (∃ sql, (strangers.countStatement "shared").result = .ok sql ∧ Selects sql "" ∧
      sql = "WITH node_notes AS (SELECT node_notes_table.\"body\" AS Column_0 FROM \"notes\"" ++
        " AS node_notes_table), node_orders AS (SELECT node_orders_table.\"id\" AS Column_0" ++
        " FROM \"orders\" AS node_orders_table) SELECT COUNT(*) FROM (SELECT  FROM node_orders" ++
        " UNION ALL SELECT  FROM node_notes) AS node_shared") ∧
    ∃ sql, (strangers.fetchStatement "tally" none).result = .ok sql ∧ Selects sql "" := by
  refine ⟨acyclic_strangers, ⟨_, rfl, ?_, ?_⟩, ⟨_, rfl, ?_⟩⟩
  · exact Statement.selects_of_mem (by decide +kernel)
  · decide +kernel
  · exact Statement.selects_of_mem (by decide +kernel)

end Graph

end DataflowSql

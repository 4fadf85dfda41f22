import DataflowSql.Proofs.OutputColumns

/-! What is written out. A query is written in place by the one that reads it, or defined by name at
the head of a statement. Either way all that is read is written somewhere, and what holds of queries
and of what they read is shown along the way they are put together. -/
namespace DataflowSql

open Sql

namespace Sql

variable {ρ : Type}

mutual

/-- The references whose queries are written in place, at any depth. -/
def Query.places : Query ρ → List ρ
  | .select _ _ source _ _ => source.places
  | .union l r => l.places ++ r.places
  | .unionAll l r => l.places ++ r.places

def Source.places : Source ρ → List ρ
  | .table _ _ => []
  | .named _ _ => []
  | .nested t q _ => t :: q.places
  | .join l _ r => l.places ++ r.places

end

/-- The references a query makes in its own sources. -/
def Query.reads : Query ρ → List ρ
  | .select _ _ source _ _ => source.reads
  | .union l r => l.reads ++ r.reads
  | .unionAll l r => l.reads ++ r.reads

/-- The view shows of a union what it shows of its sides. -/
structure Query.Splits {β : Type} (view : Query ρ → List β) : Prop where
  union : ∀ l r, view (.union l r) = view l ++ view r
  unionAll : ∀ l r, view (.unionAll l r) = view l ++ view r

theorem splits_places : Query.Splits (Query.places (ρ := ρ)) :=
  ⟨fun _ _ => by rw [Query.places], fun _ _ => by rw [Query.places]⟩

theorem splits_reads : Query.Splits (Query.reads (ρ := ρ)) :=
  ⟨fun _ _ => by rw [Query.reads], fun _ _ => by rw [Query.reads]⟩

end Sql

/-- The nodes whose queries a definition writes out. -/
def Definition.places : Definition → List Node
  | .rows n q => n :: q.places
  | .numbered _ _ => []

/-- The nodes below its target whose queries a body writes out. -/
def Body.places : Body → List Node
  | .nested _ q _ _ => q.places
  | .listed _ _ _ => []
  | .windowed _ _ _ _ _ => []
  | .count q _ => q.places

/-- The nodes whose queries a statement writes out, by definition or in place. -/
def Statement.places (st : Statement) : List Node :=
  st.definitions.flatMap Definition.places ++ st.body.places

namespace Node

variable {d : Dialect} {s : Strategy} {n : Node} {q : Query Node} {layout : Layout} {W : List Node}

theorem places_selectFrom (h : Heading) (src : Source Node) :
    (h.selectFrom src).places = src.places := by
  rw [Heading.selectFrom, Query.places]

theorem reads_selectFrom (h : Heading) (src : Source Node) :
    (h.selectFrom src).reads = src.reads := by
  rw [Heading.selectFrom, Query.reads]

section Views

variable {β : Type} {view : Query Node → List β}

theorem view_stack (hv : Query.Splits view) (q : Query Node) (qs : List (Query Node)) :
    view (stack q qs) = (q :: qs).flatMap view := by
  induction qs generalizing q with
  | nil => simp [stack]
  | cons p qs ih =>
    have hstep : stack q (p :: qs) = stack (.unionAll q p) qs := rfl
    rw [hstep, ih]
    simp [hv.unionAll]

/-- What a view shows of a query it shows of one of its branches. -/
theorem mem_view_iff (hv : Query.Splits view) (h : (layout.query d s).result = .ok q) {x : β} :
    x ∈ view q ↔ ∃ b ∈ layout.branches, ∃ src, (b.place.source d s).result = .ok src ∧
      x ∈ view (b.heading.selectFrom src) := by
  have hbranch {b : Branch} {q : Query Node} (hq : (b.query d s).result = .ok q) :
      x ∈ view q ↔ ∃ src, (b.place.source d s).result = .ok src ∧
        x ∈ view (b.heading.selectFrom src) := by
    obtain ⟨src, hsrc, rfl⟩ := branch_query_eq_ok.mp hq
    constructor
    · intro hx
      exact ⟨src, hsrc, hx⟩
    · rintro ⟨src', hsrc', hx⟩
      obtain rfl := Outcome.result_unique hsrc hsrc'
      exact hx
  cases layout with
  | single b => simpa [Layout.branches] using hbranch h
  | union l r =>
    simp only [Layout.query, Outcome.bind_eq_ok, Outcome.pure_eq_ok] at h
    obtain ⟨ql, hl, qr, hr, rfl⟩ := h
    simp [hv.union, Layout.branches, hbranch hl, hbranch hr]
  | stack b bs =>
    obtain ⟨p, ps, hps, rfl⟩ := stack_query_eq_ok.mp h
    rw [view_stack hv, List.mem_flatMap, Layout.branches]
    constructor
    · rintro ⟨r, hr, hx⟩
      obtain ⟨c, hc, hcr⟩ := Outcome.exists_of_mem_mapM hps r hr
      exact ⟨c, hc, (hbranch hcr).mp hx⟩
    · rintro ⟨c, hc, hx⟩
      obtain ⟨r, hr, hcr⟩ := Outcome.exists_mem_of_mapM hps c hc
      exact ⟨r, hr, (hbranch hcr).mpr hx⟩

end Views

/-- Queries and what is read are built up together: a fact about both holds if every way to write
a source keeps it, and every layout passes it on from its sources to its query. -/
theorem read_induction {P : Node → Query Node → Prop} {S : Source Node → Prop}
    (table : ∀ path range, S (.table path range))
    (named : s = .commonTableExpressions → ∀ n range, S (.named n range))
    (nested : s = .inline → ∀ n q range, P n q → S (.nested n q range))
    (join : ∀ l m r, S l → S r → S (.join l m r))
    (query : ∀ n layout q, (n.layout d).result = .ok layout → (layout.query d s).result = .ok q →
      (∀ b ∈ layout.branches, ∀ src, (b.place.source d s).result = .ok src → S src) → P n q)
    (n : Node) : (∀ q, (n.query d s).result = .ok q → P n q) ∧
      ∀ mode src, (n.read d s mode).result = .ok src → S src := by
  induction n using reads_induction with
  | step n ih =>
    have hjoin {place : Place} (clause : IsJoinPlace d n place) {src : Source Node}
        (hsrc : (place.source d s).result = .ok src) : S src := by
      obtain ⟨hl, hr, _, _⟩ := clause
      obtain ⟨ls, rs, hls, hrs, rfl⟩ := place_join_eq_ok.mp hsrc
      exact join _ _ _ ((ih _ (reads_of_input hl)).2 _ _ hls) ((ih _ (reads_of_input hr)).2 _ _ hrs)
    -- The query comes first: a consumer that reads the node as a whole may write it in place.
    have hquery (q : Query Node) (hq : (n.query d s).result = .ok q) : P n q := by
      obtain ⟨layout, hlayout, hq⟩ := query_eq_ok.mp hq
      refine query n layout q hlayout hq fun b hb src hsrc => ?_
      cases isBranch_of_layout hlayout hb with
      | table path none =>
        rw [Place.source, Outcome.pure_eq_ok] at hsrc
        subst hsrc
        exact table _ _
      | input one first heading => exact (ih _ (reads_of_input first)).2 _ _ hsrc
      | join two columns clause => exact hjoin clause hsrc
      | append out available all reads => exact (ih _ reads).2 _ _ hsrc
    have hwhole {range : Option String} {src : Source Node}
        (hsrc : (n.read d s (.whole range)).result = .ok src) : S src := by
      cases s with
      | commonTableExpressions =>
        rw [read_whole_named, Outcome.ok_eq_ok] at hsrc
        subst hsrc
        exact named rfl _ _
      | inline =>
        obtain ⟨q, hq, rfl⟩ := read_whole_nested_eq_ok.mp hsrc
        exact nested rfl _ _ _ (hquery q hq)
    refine ⟨hquery, fun mode src hsrc => ?_⟩
    cases mode with
    | whole range => exact hwhole hsrc
    | spliced =>
      obtain ⟨place, hplace, hsrc⟩ := read_spliced_eq_ok.mp hsrc
      cases isSplice_of_splice hplace with
      | whole => exact hwhole hsrc
      | table path =>
        rw [Place.source, Outcome.pure_eq_ok] at hsrc
        subst hsrc
        exact table _ _
      | join clause => exact hjoin clause hsrc

/-- Each of the nodes has a query, and what that reads is among them. -/
def Closed (d : Dialect) (s : Strategy) (W : List Node) : Prop :=
  ∀ m ∈ W, ∃ q, (m.query d s).result = .ok q ∧ q.reads ⊆ W

theorem Closed.append {W' : List Node} (h : Closed d s W) (h' : Closed d s W') :
    Closed d s (W ++ W') := by
  intro m hm
  rcases List.mem_append.mp hm with hm | hm
  · obtain ⟨q, hq, hsub⟩ := h m hm
    exact ⟨q, hq, List.subset_append_of_subset_left _ hsub⟩
  · obtain ⟨q, hq, hsub⟩ := h' m hm
    exact ⟨q, hq, List.subset_append_of_subset_right _ hsub⟩

theorem reads_of_mem_branches (h : (layout.query d s).result = .ok q) {b : Branch}
    (hb : b ∈ layout.branches) :
    ∃ src, (b.place.source d s).result = .ok src ∧ src.reads ⊆ q.reads := by
  obtain ⟨src, hsrc, _⟩ := mentions_of_mem_branches h hb
  refine ⟨src, hsrc, fun k hk => (mem_view_iff splits_reads h).mpr ⟨b, hb, src, hsrc, ?_⟩⟩
  rwa [reads_selectFrom]

theorem reads_of_whole {range : Option String} {src : Source Node}
    (h : (n.read d s (.whole range)).result = .ok src) : src.reads = [n] := by
  cases s with
  | commonTableExpressions =>
    rw [read_whole_named, Outcome.ok_eq_ok] at h
    subst h
    rw [Source.reads]
  | inline =>
    obtain ⟨q, _, rfl⟩ := read_whole_nested_eq_ok.mp h
    rw [Source.reads]

/-- In place, all that is read is written. -/
theorem closed_of_inline (hq : (n.query d .inline).result = .ok q) :
    Closed d .inline (n :: q.places) := by
  refine (read_induction (P := fun n q => Closed d .inline (n :: q.places))
    (S := fun src => src.reads ⊆ src.places ∧ Closed d .inline src.places) ?_ ?_ ?_ ?_ ?_ n).1 q hq
  · intro path range
    simp [Source.reads, Source.places, Closed]
  · intro h
    cases h
  · intro _ m q range h
    rw [Source.reads, Source.places]
    exact ⟨by simp, h⟩
  · rintro l m r ⟨hl, hcl⟩ ⟨hr, hcr⟩
    rw [Source.reads, Source.places]
    refine ⟨List.append_subset.mpr ⟨?_, ?_⟩, hcl.append hcr⟩
    · exact List.subset_append_of_subset_left _ hl
    · exact List.subset_append_of_subset_right _ hr
  · intro n layout q hlayout hq hsources
    have hplaces {b : Branch} (hb : b ∈ layout.branches) {src : Source Node}
        (hsrc : (b.place.source d .inline).result = .ok src) : src.places ⊆ q.places := by
      intro k hk
      refine (mem_view_iff splits_places hq).mpr ⟨b, hb, src, hsrc, ?_⟩
      rwa [places_selectFrom]
    intro m hm
    rcases List.mem_cons.mp hm with rfl | hm
    · refine ⟨q, query_eq_ok.mpr ⟨layout, hlayout, hq⟩, fun k hk => .tail _ ?_⟩
      obtain ⟨b, hb, src, hsrc, hk⟩ := (mem_view_iff splits_reads hq).mp hk
      rw [reads_selectFrom] at hk
      exact hplaces hb hsrc ((hsources b hb src hsrc).1 hk)
    · obtain ⟨b, hb, src, hsrc, hm⟩ := (mem_view_iff splits_places hq).mp hm
      rw [places_selectFrom] at hm
      obtain ⟨r, hr, hsub⟩ := (hsources b hb src hsrc).2 m hm
      exact ⟨r, hr, fun k hk => .tail _ (hplaces hb hsrc (hsub hk))⟩

/-- With common table expressions nothing is written in place. -/
theorem places_of_named (hq : (n.query d .commonTableExpressions).result = .ok q) :
    q.places = [] := by
  refine (read_induction (P := fun _ q => q.places = []) (S := fun src => src.places = [])
    ?_ ?_ ?_ ?_ ?_ n).1 q hq
  · intro path range
    rw [Source.places]
  · intro _ m range
    rw [Source.places]
  · intro h
    cases h
  · intro l m r hl hr
    rw [Source.places, hl, hr, List.append_nil]
  · intro n layout q _ hq hsources
    rw [List.eq_nil_iff_forall_not_mem]
    intro k hk
    obtain ⟨b, hb, src, hsrc, hk⟩ := (mem_view_iff splits_places hq).mp hk
    rw [places_selectFrom, hsources b hb src hsrc] at hk
    cases hk

theorem reads_subset_mentions (hq : (n.query d .commonTableExpressions).result = .ok q) :
    q.reads ⊆ q.mentions := by
  obtain ⟨layout, _, hq⟩ := query_eq_ok.mp hq
  intro k hk
  obtain ⟨b, hb, src, hsrc, hk⟩ := (mem_view_iff splits_reads hq).mp hk
  obtain ⟨src', hsrc', hsub⟩ := mentions_of_mem_branches hq hb
  obtain rfl := Outcome.result_unique hsrc hsrc'
  rw [reads_selectFrom, ← mentions_of_place hsrc] at hk
  exact hsub hk

variable {target : Node}

theorem closed_of_definitions {rows : List Definition}
    (hrows : Consistent d .commonTableExpressions rows)
    (hq : (target.query d .commonTableExpressions).result = .ok q)
    (hnamed : ∀ k ∈ q.mentions, ∃ r, .rows k r ∈ rows) :
    Closed d .commonTableExpressions (target :: rows.flatMap Definition.places) := by
  have hdefined {k : Node} (hk : ∃ r, .rows k r ∈ rows) :
      k ∈ target :: rows.flatMap Definition.places := by
    obtain ⟨r, hr⟩ := hk
    exact .tail _ (List.mem_flatMap.mpr ⟨.rows k r, hr, List.mem_cons_self⟩)
  intro m hm
  rcases List.mem_cons.mp hm with rfl | hm
  · exact ⟨q, hq, fun k hk => hdefined (hnamed k (reads_subset_mentions hq hk))⟩
  · obtain ⟨e, he, hm⟩ := List.mem_flatMap.mp hm
    cases e with
    | rows n r =>
      obtain ⟨hr, hbelow⟩ := hrows n r he
      rw [Definition.places, places_of_named hr, List.mem_singleton] at hm
      subst hm
      exact ⟨r, hr, fun k hk => hdefined (hbelow k (reads_subset_mentions hr hk))⟩
    | numbered n key => cases hm

end Node

end DataflowSql

import DataflowSql.Proofs.Configured
import DataflowSql.Proofs.Summaries

/-! The check of a node against its query. Over inputs that are there and read by name, a node
passes the check just where its query can be written. A filter may pass it with a value that its
query then refuses. -/
namespace DataflowSql

open Sql Outcome

/-- A value does not fit where it stands. -/
def CompileError.RefusesLiteral (e : CompileError) : Prop :=
  ∃ id value fault, e = .invalidLiteral id value fault

namespace Filter

variable {d : Dialect} {f : Filter} {id : String} {p : Projection}

/-- The settings of a filter are there and fit these columns, whatever its value is. -/
def Ready (f : Filter) (p : Projection) : Prop :=
  ∃ index o, f.filterColumnIndex = some index ∧ f.operator = some o ∧
    (o.needsValue = true → f.filterValue.isSome) ∧ index < p.length

/-- A test that looks at the value of a filter without one asks for it first. -/
theorem condition_of_unset {test : FilterTest} (hreads : test.readsValue = true)
    (hunset : f.filterValue = none) (typeName : String) (index : Nat) :
    (f.condition d id typeName index test).result =
      .error (.missingSetting id .filterValue) := by
  have hvalue : (f.value id).result = .error (.missingSetting id .filterValue) := by
    rw [value, ofOption_eq_error]
    exact ⟨hunset, rfl⟩
  have hliteral : (f.literal d id typeName).result = .error (.missingSetting id .filterValue) :=
    bind_eq_error.mpr (.inl hvalue)
  have hcount : (f.dayCount id).result = .error (.missingSetting id .filterValue) :=
    bind_eq_error.mpr (.inl hvalue)
  cases test with
  | compare op => exact bind_eq_error.mpr (.inl hliteral)
  | search place negated => exact bind_eq_error.mpr (.inl hvalue)
  | pastDays => exact bind_eq_error.mpr (.inl hcount)
  | comingDays => exact bind_eq_error.mpr (.inl hcount)
  | _ => simp [FilterTest.readsValue] at hreads

/-- A filter looks at the columns of its input and at nothing else of it. -/
theorem result_predicate {input input' : Unit → Outcome Projection}
    (h : (input ()).result = (input' ()).result) :
    (f.predicate d id input).result = (f.predicate d id input').result :=
  result_bind_congr fun _ _ => result_bind_congr fun _ _ => result_bind_of_result h _

/-- A filter that gets as far as its value has an input with columns. -/
theorem input_of_predicate {input : Unit → Outcome Projection}
    (hinput : (input ()).FailsOnly fun e => ¬e.RefusesLiteral)
    (h : (∃ c, (f.predicate d id input).result = .ok c) ∨
      ∃ e, (f.predicate d id input).result = .error e ∧ e.RefusesLiteral) :
    ∃ p, (input ()).result = .ok p := by
  rcases h with ⟨c, hc⟩ | ⟨e, he, hrefused⟩
  · simp only [predicate, bind_eq_ok] at hc
    obtain ⟨_, _, _, _, p, hp, _⟩ := hc
    exact ⟨p, hp⟩
  · have honly : (f.predicate d id input).FailsOnly fun e =>
        e.RefusesLiteral → ∃ p, (input ()).result = .ok p := by
      refine FailsOnly.bind (failsOnly_ofOption fun _ => ?_) fun _ _ => ?_
      · simp [CompileError.RefusesLiteral]
      refine FailsOnly.bind (failsOnly_ofOption fun _ => ?_) fun _ _ => ?_
      · simp [CompileError.RefusesLiteral]
      exact FailsOnly.bind (hinput.mono fun _ hother hrefused => absurd hrefused hother)
        fun p hp _ _ _ => ⟨p, hp⟩
    exact honly e he hrefused

/-- A filter whose settings are not ready fails over one of them. -/
theorem predicate_of_not_ready (h : ¬f.Ready p) :
    ∃ e, (f.predicate d id fun _ => Outcome.ok p).result = .error e ∧ ¬e.RefusesLiteral := by
  have hsetting (setting : Setting) :
      ¬(CompileError.missingSetting id setting).RefusesLiteral := by
    simp [CompileError.RefusesLiteral]
  have hrange (index : Nat) :
      ¬(CompileError.columnIndexOutOfRange id index p.length).RefusesLiteral := by
    simp [CompileError.RefusesLiteral]
  cases hindex : f.filterColumnIndex with
  | none => exact ⟨_, bind_eq_error.mpr (.inl (ofOption_eq_error.mpr ⟨hindex, rfl⟩)), hsetting _⟩
  | some index =>
    rw [predicate, result_bind_of_ok (ofOption_eq_ok.mpr hindex)]
    cases ho : f.operator with
    | none => exact ⟨_, bind_eq_error.mpr (.inl (ofOption_eq_error.mpr ⟨rfl, rfl⟩)), hsetting _⟩
    | some o =>
      rw [result_bind_of_ok (ofOption_eq_ok.mpr rfl), result_bind_of_ok (ok_eq_ok.mpr rfl)]
      by_cases hlt : index < p.length
      · have hcolumn := List.getElem?_eq_getElem hlt
        rw [result_bind_of_ok (Projection.column_eq_ok.mpr hcolumn)]
        -- only the value is left to be missing
        have hvalue : o.needsValue = true ∧ f.filterValue = none := by
          by_contra hset
          refine h ⟨index, o, hindex, ho, fun hneeds => ?_, hlt⟩
          rw [Option.isSome_iff_ne_none]
          exact fun hnone => hset ⟨hneeds, hnone⟩
        rw [FilterOperator.needsValue_eq] at hvalue
        exact ⟨_, condition_of_unset hvalue.1 hvalue.2 _ _, hsetting _⟩
      · have hnone := List.getElem?_eq_none (Nat.le_of_not_lt hlt)
        exact ⟨_, bind_eq_error.mpr (.inl (ofOption_eq_error.mpr ⟨hnone, rfl⟩)), hrange _⟩

/-- The settings of a filter are ready just where it has a condition or its value is refused. -/
theorem ready_iff :
    f.Ready p ↔ (∃ c, (f.predicate d id fun _ => Outcome.ok p).result = .ok c) ∨
      ∃ e, (f.predicate d id fun _ => Outcome.ok p).result = .error e ∧ e.RefusesLiteral := by
  constructor
  · intro h
    obtain ⟨index, o, hindex, ho, hvalue, hlt⟩ := h
    cases hresult : (f.predicate d id fun _ => Outcome.ok p).result with
    | ok c => exact .inl ⟨c, rfl⟩
    | error e =>
      obtain ⟨value, fault, _, he⟩ := refused_of_predicate hindex ho hvalue hlt e hresult
      exact .inr ⟨e, rfl, id, value, fault, he⟩
  · intro h
    by_contra hready
    obtain ⟨e, he, hother⟩ := predicate_of_not_ready hready
    rw [he] at h
    rcases h with ⟨c, hc⟩ | ⟨e', he', hrefused⟩
    · cases hc
    · cases he'
      exact hother hrefused

end Filter

/-- The operators that need a value are those whose filters can fail for want of one. -/
theorem FilterOperator.needsValue_iff (o : FilterOperator) :
    o.needsValue = true ↔ ∃ (d : Dialect) (f : Filter) (id : String) (p : Projection),
      f.operator = some o ∧ (f.predicate d id fun _ => Outcome.ok p).result =
        .error (.missingSetting id .filterValue) := by
  constructor
  · intro hneeds
    rw [needsValue_eq] at hneeds
    exact ⟨.postgreSql, ⟨some 0, some o, none, true⟩, "", [⟨"", ""⟩], rfl,
      Filter.condition_of_unset hneeds rfl _ _⟩
  · intro h
    obtain ⟨d, f, id, p, ho, he⟩ := h
    have honly : (f.predicate d id fun _ => Outcome.ok p).FailsOnly fun e =>
        e = .missingSetting id .filterValue → o.needsValue = true := by
      refine Filter.failsOnly_predicate (by simp) (by simp) (by simp) ?_ ?_
      · intro o' ho' hneeds _ _
        obtain rfl : o = o' := Option.some.inj (ho.symm.trans ho')
        exact hneeds
      · intro e hrefused hmissing
        obtain ⟨value, fault, _, rfl⟩ := hrefused
        cases hmissing
    exact honly _ he rfl

/-- A slice is cut from a column of its input. -/
theorem Extract.input_of_slice {d : Dialect} {x : Extract} {id : String}
    {input : Unit → Outcome Projection} {y : Expr ColumnRef}
    (h : (x.slice d id input).result = .ok y) : ∃ p, (input ()).result = .ok p := by
  simp only [Extract.slice, bind_eq_ok] at h
  obtain ⟨_, _, p, hp, _⟩ := h
  exact ⟨p, hp⟩

theorem Extract.result_slice_congr {d : Dialect} {x : Extract} {id : String}
    {input input' : Unit → Outcome Projection} (h : (input ()).result = (input' ()).result) :
    (x.slice d id input).result = (x.slice d id input').result :=
  result_bind_congr fun _ _ => result_bind_of_result h _

theorem Slot.failsOnly_reach {β : Type} (id : String) (slot : Slot β) :
    (slot.reach id).FailsOnly fun e => ¬e.RefusesLiteral := by
  cases slot with
  | reached r => exact failsOnly_ok r
  | absent input => exact failsOnly_fail (by simp [CompileError.RefusesLiteral])
  | endless input => exact failsOnly_fail (by simp [CompileError.RefusesLiteral])

namespace Node

variable {d : Dialect} {n m : Node}

/-- The columns of a node do not depend on whether values fit. -/
theorem failsOnly_columns : (n.projection d).FailsOnly fun e => ¬e.RefusesLiteral := by
  have hsetting (id : String) (setting : Setting) :
      ¬(CompileError.missingSetting id setting).RefusesLiteral := by
    simp [CompileError.RefusesLiteral]
  have hrange (id : String) (index length : Nat) :
      ¬(CompileError.columnIndexOutOfRange id index length).RefusesLiteral := by
    simp [CompileError.RefusesLiteral]
  have hmissing (id : String) (index count : Nat) :
      ¬(CompileError.missingInput id index count).RefusesLiteral := by
    simp [CompileError.RefusesLiteral]
  induction n using reads_induction with
  | step n ih =>
    have hinput (index : Nat) : (n.input index).FailsOnly fun e => ¬e.RefusesLiteral := by
      refine FailsOnly.bind (FailsOnly.bind ?_ fun slot _ => Slot.failsOnly_reach n.id slot)
        fun r _ => failsOnly_pure _
      exact failsOnly_ofOption fun _ => hmissing _ _ _
    have hcolumns : (n.inputProjection d 0).FailsOnly fun e => ¬e.RefusesLiteral :=
      (hinput 0).bind fun m hm => ih m (reads_of_input hm)
    rw [projection_eq]
    cases hop : n.operation with
    | tableSource t => exact failsOnly_ok _
    | select st => exact hcolumns.bind fun p _ => failsOnly_pure _
    | filter f => exact hcolumns
    | sort st => exact hcolumns
    | join j =>
      refine (hinput 0).bind fun l hl => (hinput 1).bind fun r hr => ?_
      refine (ih l (reads_of_input hl)).bind fun lp _ => ?_
      exact (ih r (reads_of_input hr)).bind fun rp _ => failsOnly_pure _
    | append a =>
      refine FailsOnly.bind (failsOnly_mapM fun slot _ => ?_) fun ms hms => ?_
      · exact (Slot.failsOnly_reach n.id slot).bind fun r _ => failsOnly_pure _
      · have hms := allInputs_eq_ok.mp hms
        refine FailsOnly.bind (failsOnly_mapM fun m hm => ih m (reads_of_mem hms hm)) fun ps _ => ?_
        cases ps with
        | nil => exact failsOnly_fail (hmissing _ _ _)
        | cons p ps => exact failsOnly_pure _
    | summarize sm =>
      refine hcolumns.bind fun p _ => ?_
      exact (failsOnly_outputs sm (fun _ _ => hrange _ _ _) (hsetting _ _)).bind fun o _ =>
        failsOnly_pure _
    | extract x =>
      refine hcolumns.bind fun p _ => ?_
      refine FailsOnly.bind (failsOnly_ofOption fun _ => hsetting _ _) fun index _ => ?_
      exact FailsOnly.bind (failsOnly_ofOption fun _ => hrange _ _ _) fun c _ => failsOnly_pure _
    | chartProjection c =>
      refine hcolumns.bind fun p _ => FailsOnly.bind ?_ fun picks _ => failsOnly_pure _
      unfold ChartProjection.picks
      split
      · exact failsOnly_fail (hsetting _ _)
      · split
        · exact failsOnly_fail (hrange _ _ _)
        · exact failsOnly_ok _

/-- What a node with one input makes of it is all that its query can fail over, if it reads the
input by name. -/
theorem query_of_heading (harity : arity n.operation = .one)
    (hmode : inputMode n.operation = .whole none) (hm : (n.input 0).result = .ok m) :
    (n.query d .commonTableExpressions).result =
      (headingOver d n m).result.map fun h => h.selectFrom (.named m none) := by
  rw [← result_bind_pure]
  have hreach : Slot.reachAt n.id (n.readers d .commonTableExpressions) 0 =
      (do return Slot.answering (readStep d .commonTableExpressions) (← n.input 0)) :=
    Slot.reachAt_slotsOf _ n 0
  have hnamed : fold (readStep d .commonTableExpressions) m (.whole none) =
      pure (.named m none) := read_whole_named none
  unfold query queryStep headingOver
  cases hop : n.operation
  case tableSource | join | append => simp [hop, arity] at harity
  case select => simp [hop, inputMode] at hmode
  all_goals
    simp only [hreach, LawfulMonad.bind_assoc, pure_bind, result_bind_of_ok hm, Slot.answering,
      hnamed]
  case summarize =>
    refine result_bind_congr fun p _ => result_bind_congr fun o _ => ?_
    split <;> rfl
  all_goals rfl

theorem queryText_of_heading (harity : arity n.operation = .one)
    (hmode : inputMode n.operation = .whole none) (hm : (n.input 0).result = .ok m) :
    ((∃ sql, (n.queryText d .commonTableExpressions).result = .ok sql) ↔
        ∃ h, (headingOver d n m).result = .ok h) ∧
      ∀ e, (n.queryText d .commonTableExpressions).result = .error e ↔
        (headingOver d n m).result = .error e := by
  simp only [queryText_eq_ok, queryText_eq_error, query_of_heading harity hmode hm]
  cases (headingOver d n m).result <;> simp [Except.map]

theorem requireColumns_eq_ok {t : TableSource} {schema : Option TableSchema} {id : String} :
    (t.requireColumns id schema).result = .ok () ↔ t.isConfigured schema = true := by
  refine ⟨fun h => ?_, fun h => requireColumns_of_isConfigured h⟩
  simp only [TableSource.requireColumns, bind_eq_ok, ofOption_eq_ok] at h
  obtain ⟨table, htable, h⟩ := h
  split at h
  · exact absurd h fail_ne_ok
  · rename_i hcolumns
    simpa [TableSource.isConfigured, htable] using hcolumns

theorem check_of_table {t : TableSource} {s : Strategy} (hop : n.operation = .tableSource t) :
    (n.isConfigured d).result = .ok true ↔ ∃ q, (n.query d s).result = .ok q := by
  simp only [isConfigured, query, queryStep, hop, pure_eq_ok, TableSource.query,
    TableSource.source, bind_eq_ok]
  rw [← requireColumns_eq_ok]
  constructor
  · intro h
    exact ⟨_, (), h, _, ⟨(), h, rfl⟩, rfl⟩
  · intro h
    obtain ⟨_, _, h, _⟩ := h
    exact h

/-- Columns are looked up in the same way by the check and by the query. -/
theorem inputProjection_of_input (hm : (n.input 0).result = .ok m) :
    (n.inputProjection d 0).result = (m.projection d).result :=
  result_bind_of_ok hm _

theorem check_of_extract {x : Extract} (hop : n.operation = .extract x)
    (hinputs : n.hasInputs 1 = true) (hm : (n.input 0).result = .ok m) :
    (n.isConfigured d).result = .ok true ↔ ∃ h, (headingOver d n m).result = .ok h := by
  have hslice : (x.slice d n.id fun _ => n.inputProjection d 0).result =
      (x.slice d n.id fun _ => m.projection d).result :=
    Extract.result_slice_congr (inputProjection_of_input hm)
  simp only [isConfigured, headingOver, hop, if_pos hinputs, succeeds_eq_true, bind_eq_ok,
    pure_eq_ok, hslice]
  constructor
  · intro h
    obtain ⟨y, hy⟩ := h
    obtain ⟨p, hp⟩ := Extract.input_of_slice hy
    exact ⟨_, p, hp, y, hy, rfl⟩
  · intro h
    obtain ⟨_, _, _, y, hy, _⟩ := h
    exact ⟨y, hy⟩

theorem check_of_chart {c : ChartProjection} (hop : n.operation = .chartProjection c)
    (hinputs : n.hasInputs 1 = true) (hm : (n.input 0).result = .ok m) :
    (n.isConfigured d).result = .ok true ↔ ∃ h, (headingOver d n m).result = .ok h := by
  simp only [isConfigured, headingOver, hop, if_pos hinputs, succeeds_eq_true, bind_eq_ok,
    pure_eq_ok, inputProjection_of_input hm]
  constructor
  · intro h
    obtain ⟨picks, p, hp, hpicks⟩ := h
    exact ⟨_, p, hp, picks, hpicks, rfl⟩
  · intro h
    obtain ⟨_, p, hp, picks, hpicks, _⟩ := h
    exact ⟨picks, p, hp, hpicks⟩

/-- A summary has no outputs just where it asks for none. -/
theorem check_of_summary {sm : Summarize} (hop : n.operation = .summarize sm)
    (hinputs : n.hasInputs 1 = true) (hm : (n.input 0).result = .ok m) :
    (n.isConfigured d).result = .ok true ↔ ∃ h, (headingOver d n m).result = .ok h := by
  constructor
  · intro h
    have hchecked := of_isConfigured h
    rw [hop] at hchecked
    obtain ⟨_, hasked, p, o, hp, ho⟩ := hchecked
    simp only [headingOver, hop, bind_eq_ok, guarded_eq_ok, pure_eq_ok]
    rw [inputProjection_of_input hm] at hp
    refine ⟨_, p, hp, o, ho, fun hempty => ?_, rfl⟩
    exact hasked (settings_of_empty_outputs ho (List.isEmpty_iff.mp hempty))
  · intro h
    simp only [headingOver, hop, bind_eq_ok, guarded_eq_ok] at h
    obtain ⟨_, p, hp, o, ho, hne, _⟩ := h
    have hasked : ¬(sm.groupByColumnIndexes.isEmpty && sm.aggregateFunctions.isEmpty) = true := by
      intro hnone
      have hlength := Summarize.length_all ho
      simp only [Bool.and_eq_true, List.isEmpty_iff] at hnone
      rw [hnone.1, hnone.2] at hlength
      exact hne (List.isEmpty_iff.mpr (List.length_eq_zero_iff.mp hlength))
    rw [isConfigured, hop]
    simp only [hinputs, hasked, Bool.not_false, Bool.and_self, if_true, succeeds_eq_true,
      bind_eq_ok, inputProjection_of_input hm]
    exact ⟨o, p, hp, ho⟩

theorem isConfigured_of_filter {f : Filter} (hop : n.operation = .filter f)
    (hinputs : n.hasInputs 1 = true) :
    (n.isConfigured d).result = .ok true ↔
      ∃ p, (n.inputProjection d 0).result = .ok p ∧ f.Ready p := by
  constructor
  · intro h
    have hchecked := of_isConfigured h
    rw [hop] at hchecked
    obtain ⟨_, index, o, hindex, ho, hvalue, p, hp, hlt⟩ := hchecked
    exact ⟨p, hp, index, o, hindex, ho, hvalue, hlt⟩
  · intro h
    obtain ⟨p, hp, index, o, hindex, ho, hvalue, hlt⟩ := h
    have hset : ¬(o.needsValue && f.filterValue.isNone) = true := by
      intro hunset
      rw [Bool.and_eq_true] at hunset
      have hsome := hvalue hunset.1
      simp [Option.isNone_iff_eq_none.mp hunset.2] at hsome
    rw [isConfigured, hop]
    simp only [hindex, ho]
    rw [if_neg hset, if_pos hinputs, hasColumn_eq_true]
    exact ⟨p, hp, hlt⟩

theorem check_of_filter {f : Filter} (hop : n.operation = .filter f)
    (hinputs : n.hasInputs 1 = true) (hm : (n.input 0).result = .ok m) :
    (n.isConfigured d).result = .ok true ↔ (∃ h, (headingOver d n m).result = .ok h) ∨
      ∃ e, (headingOver d n m).result = .error e ∧ e.RefusesLiteral := by
  have hheading : ((∃ h, (headingOver d n m).result = .ok h) ∨
      ∃ e, (headingOver d n m).result = .error e ∧ e.RefusesLiteral) ↔
      (∃ c, (f.predicate d n.id fun _ => m.projection d).result = .ok c) ∨
        ∃ e, (f.predicate d n.id fun _ => m.projection d).result = .error e ∧
          e.RefusesLiteral := by
    simp only [headingOver, hop, bind_eq_ok, bind_eq_error, pure_eq_ok, pure_ne_error, and_false,
      exists_false, or_false]
    refine or_congr_left ?_
    constructor
    · intro h
      obtain ⟨_, c, hc, _⟩ := h
      exact ⟨c, hc⟩
    · intro h
      obtain ⟨c, hc⟩ := h
      exact ⟨_, c, hc, rfl⟩
  have hready {p : Projection} (hp : (m.projection d).result = .ok p) :
      f.Ready p ↔ (∃ c, (f.predicate d n.id fun _ => m.projection d).result = .ok c) ∨
        ∃ e, (f.predicate d n.id fun _ => m.projection d).result = .error e ∧
          e.RefusesLiteral := by
    have hsame : (f.predicate d n.id fun _ => m.projection d).result =
        (f.predicate d n.id fun _ => Outcome.ok p).result := Filter.result_predicate hp
    rw [hsame]
    exact Filter.ready_iff
  rw [hheading, isConfigured_of_filter hop hinputs, inputProjection_of_input hm]
  constructor
  · intro h
    obtain ⟨p, hp, h⟩ := h
    exact (hready hp).mp h
  · intro h
    obtain ⟨p, hp⟩ := Filter.input_of_predicate failsOnly_columns h
    exact ⟨p, hp, (hready hp).mpr h⟩

/-- The first of some inputs that are all there. -/
theorem exists_input (hends : ∀ id, .endless id ∉ n.inputs) (hinputs : n.hasInputs 1 = true) :
    ∃ m, (n.input 0).result = .ok m := by
  simp only [hasInputs, Bool.and_eq_true, decide_eq_true_eq, List.all_eq_true] at hinputs
  have hfirst := List.getElem?_eq_getElem (Nat.lt_of_succ_le hinputs.1)
  have hresolved := hinputs.2 _ (List.mem_of_getElem? hfirst)
  cases hinput : n.inputs[0] with
  | found m =>
    rw [hinput] at hfirst
    exact ⟨m, input_eq_ok.mpr hfirst⟩
  | absent id =>
    rw [hinput] at hresolved
    cases hresolved
  | endless id =>
    rw [hinput] at hfirst
    exact absurd (List.mem_of_getElem? hfirst) (hends id)

end Node

namespace Graph

/-- In a graph whose nodes are read by name, take a node whose inputs are all there. A table source,
and an extract, a summary or a chart with some input, passes the check just where its query can be
written. A filter with some input passes it just where its query can be written or stumbles over a
value that does not fit. The operators that need a value are those whose filters can fail for want
of one. -/
theorem checks_agree {specs : List NodeSpec} {catalog : Catalog} {d : Dialect} {g : Graph}
    {notes : List BuildNote} (hb : build specs catalog d = .ok (g, notes)) {n : Node}
    (hn : n ∈ g.nodes) (hresolved : ∀ i ∈ n.inputs, i.isResolved = true) :
    (∀ t, n.operation = .tableSource t →
      ((n.isConfigured g.dialect).result = .ok true ↔
        ∃ sql, (n.queryText g.dialect .commonTableExpressions).result = .ok sql)) ∧
    (0 < n.inputs.length →
      ((∃ x, n.operation = .extract x) ∨ (∃ sm, n.operation = .summarize sm) ∨
        ∃ c, n.operation = .chartProjection c) →
      ((n.isConfigured g.dialect).result = .ok true ↔
        ∃ sql, (n.queryText g.dialect .commonTableExpressions).result = .ok sql)) ∧
    (0 < n.inputs.length → ∀ f, n.operation = .filter f →
      ((n.isConfigured g.dialect).result = .ok true ↔
        (∃ sql, (n.queryText g.dialect .commonTableExpressions).result = .ok sql) ∨
        ∃ e, (n.queryText g.dialect .commonTableExpressions).result = .error e ∧
          e.RefusesLiteral)) ∧
    ∀ o : FilterOperator, o.needsValue = true ↔
      ∃ (d : Dialect) (f : Filter) (id : String) (p : Projection), f.operator = some o ∧
        (f.predicate d id fun _ => Outcome.ok p).result =
          .error (.missingSetting id .filterValue) := by
  have hinputs (hsome : 0 < n.inputs.length) : n.hasInputs 1 = true := by
    simpa [Node.hasInputs] using ⟨hsome, hresolved⟩
  have hinput (hsome : 0 < n.inputs.length) :=
    Node.exists_input (endless_notMem_inputs hb hn) (hinputs hsome)
  refine ⟨fun t hop => ?_, fun hsome hop => ?_, fun hsome f hop => ?_,
    FilterOperator.needsValue_iff⟩
  · rw [Node.check_of_table hop (s := .commonTableExpressions)]
    simp [Node.queryText_eq_ok]
  · obtain ⟨m, hm⟩ := hinput hsome
    rcases hop with ⟨x, hop⟩ | ⟨sm, hop⟩ | ⟨c, hop⟩
    · rw [Node.check_of_extract hop (hinputs hsome) hm]
      exact (Node.queryText_of_heading (by rw [hop]; rfl) (by rw [hop]; rfl) hm).1.symm
    · rw [Node.check_of_summary hop (hinputs hsome) hm]
      exact (Node.queryText_of_heading (by rw [hop]; rfl) (by rw [hop]; rfl) hm).1.symm
    · rw [Node.check_of_chart hop (hinputs hsome) hm]
      exact (Node.queryText_of_heading (by rw [hop]; rfl) (by rw [hop]; rfl) hm).1.symm
  · obtain ⟨m, hm⟩ := hinput hsome
    have htext := Node.queryText_of_heading (d := g.dialect) (by rw [hop]; rfl)
      (by rw [hop]; rfl) hm
    rw [Node.check_of_filter hop (hinputs hsome) hm, htext.1]
    simp only [htext.2]

/-- A filter that compares a number to a word passes the check, and its query refuses the word. -/
theorem checks_agree_strayed :
    ∃ n, (strayed.node "late").result = .ok n ∧ (∀ i ∈ n.inputs, i.isResolved = true) ∧
      (n.queryText .postgreSql .commonTableExpressions).result =
        .error (.invalidLiteral "late" "soon" .notNumber) ∧
      (n.isConfigured .postgreSql).result = .ok true := by
  have hnode : (strayed.node "late").result = .ok _ := rfl
  refine ⟨_, hnode, by decide +kernel, rfl, ?_⟩
  have hchecks := checks_agree build_strayed (mem_nodes_of_node hnode) (by decide +kernel)
  exact (hchecks.2.2.1 (by decide) _ rfl).mpr (.inr ⟨_, rfl, _, _, _, rfl⟩)

end Graph

end DataflowSql

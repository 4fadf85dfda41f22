import DataflowSql.Proofs.Failures

/-! Configured nodes. The check of a node's settings is local and asks for less than the queries do.
Where all nodes below a target have passed it, little is left that can go wrong: the value of a
filter, a selection that finds none of its columns, and for rows in order the columns of a sort. -/
namespace DataflowSql

open Relation Outcome

theorem Outcome.succeeds_eq_true {α : Type} {x : Outcome α} :
    x.succeeds.result = .ok true ↔ ∃ a, x.result = .ok a := by
  unfold succeeds
  cases x.result <;> simp [Except.isOk, Except.toBool]

/-- The tests that look at the value of the filter. -/
def FilterTest.readsValue : FilterTest → Bool
  | .compare _ => true
  | .search _ _ => true
  | .pastDays => true
  | .comingDays => true
  | _ => false

/-- A value is asked for exactly where the test looks at it. -/
theorem FilterOperator.needsValue_eq (o : FilterOperator) : o.needsValue = o.test.readsValue := by
  cases o <;> rfl

namespace Filter

variable {d : Dialect} {f : Filter} {id : String}

/-- The value of the filter is refused. -/
def Refused (f : Filter) (id : String) (e : CompileError) : Prop :=
  ∃ value fault, f.filterValue = some value ∧ e = .invalidLiteral id value fault

variable {P : CompileError → Prop}

/-- A filter fails over its value where it has none, or where the value is refused. -/
theorem failsOnly_value (hunset : f.filterValue = none → P (.missingSetting id .filterValue)) :
    (f.value id).FailsOnly P :=
  failsOnly_ofOption hunset

theorem failsOnly_literal (hunset : f.filterValue = none → P (.missingSetting id .filterValue))
    (hrefused : ∀ e, f.Refused id e → P e) (typeName : String) :
    (f.literal d id typeName).FailsOnly P := by
  refine (failsOnly_value hunset).bind fun value hvalue => ?_
  rw [Filter.value, ofOption_eq_ok] at hvalue
  unfold literalOf
  dsimp only
  split
  · exact failsOnly_ofOption fun _ => hrefused _ ⟨value, _, hvalue, rfl⟩
  · exact failsOnly_ok _
  · exact failsOnly_ok _
  · exact failsOnly_ofOption fun _ => hrefused _ ⟨value, _, hvalue, rfl⟩
  · exact failsOnly_ofOption fun _ => hrefused _ ⟨value, _, hvalue, rfl⟩

theorem failsOnly_dayCount (hunset : f.filterValue = none → P (.missingSetting id .filterValue))
    (hrefused : ∀ e, f.Refused id e → P e) : (f.dayCount id).FailsOnly P := by
  refine (failsOnly_value hunset).bind fun value hvalue => ?_
  rw [Filter.value, ofOption_eq_ok] at hvalue
  exact failsOnly_ofOption fun _ => hrefused _ ⟨value, _, hvalue, rfl⟩

theorem failsOnly_condition {test : FilterTest}
    (hunset : test.readsValue = true → f.filterValue = none →
      P (.missingSetting id .filterValue))
    (hrefused : ∀ e, f.Refused id e → P e) (typeName : String) (index : Nat) :
    (f.condition d id typeName index test).FailsOnly P := by
  cases test with
  | compare op =>
    refine (failsOnly_literal (hunset rfl) hrefused typeName).bind fun literal _ => ?_
    split <;> exact failsOnly_pure _
  | search place negated =>
    exact (failsOnly_value (hunset rfl)).bind fun _ _ => failsOnly_pure _
  | pastDays => exact (failsOnly_dayCount (hunset rfl) hrefused).bind fun _ _ => failsOnly_pure _
  | comingDays => exact (failsOnly_dayCount (hunset rfl) hrefused).bind fun _ _ => failsOnly_pure _
  | _ => exact failsOnly_pure _

/-- A filter over an input with these columns lacks a setting, asks for a column that is not there,
or has a value that does not fit the column. -/
theorem failsOnly_predicate {p : Projection}
    (hcolumn : f.filterColumnIndex = none → P (.missingSetting id .filterColumnIndex))
    (hoperator : f.operator = none → P (.missingSetting id .operator))
    (houtside : ∀ i, f.filterColumnIndex = some i → p.length ≤ i →
      P (.columnIndexOutOfRange id i p.length))
    (hunset : ∀ o, f.operator = some o → o.needsValue = true → f.filterValue = none →
      P (.missingSetting id .filterValue))
    (hrefused : ∀ e, f.Refused id e → P e) :
    (f.predicate d id fun _ => Outcome.ok p).FailsOnly P := by
  refine (failsOnly_ofOption hcolumn).bind fun i hi => ?_
  refine (failsOnly_ofOption hoperator).bind fun o ho => ?_
  rw [ofOption_eq_ok] at hi ho
  refine (failsOnly_ok p).bind fun p' hp' => ?_
  rw [ok_eq_ok] at hp'
  subst hp'
  refine (failsOnly_ofOption fun hnone => houtside i hi (by simpa using hnone)).bind fun c _ => ?_
  have hvalue := hunset o ho
  rw [FilterOperator.needsValue_eq] at hvalue
  exact failsOnly_condition hvalue hrefused c.type i

/-- A filter with all its settings, over an input with its column, may only have a value that does
not fit the column. -/
theorem refused_of_predicate {o : FilterOperator} {index : Nat} {p : Projection}
    (hindex : f.filterColumnIndex = some index) (ho : f.operator = some o)
    (hvalue : o.needsValue = true → f.filterValue.isSome) (hlt : index < p.length) :
    (f.predicate d id fun _ => Outcome.ok p).FailsOnly (f.Refused id) := by
  refine failsOnly_predicate (by simp [hindex]) (by simp [ho]) ?_ ?_ fun _ he => he
  · intro i hi hge
    rw [hindex, Option.some.injEq] at hi
    omega
  · intro o' ho' hneeds hnone
    obtain rfl : o = o' := by simpa [ho] using ho'
    have hset := hvalue hneeds
    simp [hnone] at hset

end Filter

namespace Node

variable {d : Dialect} {n target : Node} {e : CompileError}

/-- The input at this position has a column at this one. -/
def HasColumn (d : Dialect) (n : Node) (input index : Nat) : Prop :=
  ∃ p, (n.inputProjection d input).result = .ok p ∧ index < p.length

theorem hasColumn_eq_true {input index : Nat} :
    (n.hasColumn d input index).result = .ok true ↔ n.HasColumn d input index := by
  rw [hasColumn, succeeds_eq_true]
  simp only [bind_eq_ok, Projection.column, ofOption_eq_ok, HasColumn]
  constructor
  · intro h
    obtain ⟨c, p, hp, hc⟩ := h
    exact ⟨p, hp, (List.getElem?_eq_some_iff.mp hc).1⟩
  · intro h
    obtain ⟨p, hp, hlt⟩ := h
    exact ⟨p[index], p, hp, List.getElem?_eq_getElem hlt⟩

/-- What the check of a node has looked at. -/
theorem of_isConfigured (h : (n.isConfigured d).result = .ok true) :
    match n.operation with
    | .tableSource t => t.isConfigured n.schema = true
    | .filter f => n.hasInputs 1 = true ∧ ∃ index o, f.filterColumnIndex = some index ∧
        f.operator = some o ∧ (o.needsValue = true → f.filterValue.isSome) ∧ n.HasColumn d 0 index
    | .join j => n.hasInputs 2 = true ∧ (j.joinType ≠ .cross → ∃ l r, j.table1Column = some l ∧
        j.table2Column = some r ∧ n.HasColumn d 0 l ∧ n.HasColumn d 1 r)
    | .summarize sm => n.hasInputs 1 = true ∧
        ¬(sm.groupByColumnIndexes = [] ∧ sm.aggregateFunctions = []) ∧
        ∃ p o, (n.inputProjection d 0).result = .ok p ∧ (sm.outputs d n.id p).result = .ok o
    | .extract x => n.hasInputs 1 = true ∧
        ∃ y, (x.slice d n.id fun _ => n.inputProjection d 0).result = .ok y
    | .chartProjection c => n.hasInputs 1 = true ∧
        ∃ p picks, (n.inputProjection d 0).result = .ok p ∧ (c.picks n.id p).result = .ok picks
    | _ => n.hasInputs 1 = true := by
  unfold isConfigured at h
  cases hop : n.operation with
  | tableSource t => simpa [hop] using h
  | select st =>
    simp only [hop, pure_eq_ok, Bool.and_eq_true] at h
    exact h.1
  | sort st =>
    simp only [hop, pure_eq_ok, Bool.and_eq_true] at h
    exact h.1
  | append a => simpa [hop] using h
  | filter f =>
    simp only [hop] at h ⊢
    split at h
    · rename_i index o hindex ho
      split at h
      · simp at h
      · rename_i hvalue
        split at h
        · rename_i hinputs
          rw [hasColumn_eq_true] at h
          refine ⟨hinputs, index, o, hindex, ho, fun hneeds => ?_, h⟩
          simpa [hneeds, Option.isSome_iff_ne_none] using hvalue
        · simp at h
    · simp at h
  | join j =>
    simp only [hop] at h ⊢
    split at h
    · simp at h
    · rename_i hinputs
      refine ⟨by simpa using hinputs, fun hkeyed => ?_⟩
      rw [if_neg hkeyed] at h
      split at h
      · rename_i l r hl hr
        rw [bind_eq_ok] at h
        obtain ⟨found, hfound, h⟩ := h
        cases found with
        | false => simp at h
        | true =>
          rw [if_pos rfl, hasColumn_eq_true] at h
          exact ⟨l, r, hl, hr, hasColumn_eq_true.mp hfound, h⟩
      · simp at h
  | summarize sm =>
    simp only [hop] at h ⊢
    split at h
    · rename_i hchecked
      simp only [Bool.and_eq_true, Bool.not_eq_true', Bool.and_eq_false_iff,
        List.isEmpty_eq_false_iff] at hchecked
      rw [succeeds_eq_true] at h
      simp only [bind_eq_ok] at h
      obtain ⟨o, p, hp, ho⟩ := h
      refine ⟨hchecked.1, ?_, p, o, hp, ho⟩
      rintro ⟨hgroups, haggregates⟩
      simp [hgroups, haggregates] at hchecked
    · simp at h
  | extract x =>
    simp only [hop] at h ⊢
    split at h
    · exact ⟨‹_›, succeeds_eq_true.mp h⟩
    · simp at h
  | chartProjection c =>
    simp only [hop] at h ⊢
    split at h
    · rw [succeeds_eq_true] at h
      simp only [bind_eq_ok] at h
      obtain ⟨picks, p, hp, hpicks⟩ := h
      exact ⟨‹_›, p, picks, hp, hpicks⟩
    · simp at h

/-- A configured node that looks at its inputs has all of them. -/
theorem inputs_of_isConfigured (h : (n.isConfigured d).result = .ok true)
    (used : 0 < (arity n.operation).least) :
    (arity n.operation).least ≤ n.inputs.length ∧ ∀ i ∈ n.inputs, i.isResolved = true := by
  have hinputs : n.hasInputs (arity n.operation).least = true := by
    have hchecked := of_isConfigured h
    cases hop : n.operation <;> simp only [hop] at hchecked used ⊢
    case tableSource => simp [arity] at used
    case select | sort | append => exact hchecked
    all_goals exact hchecked.1
  simpa [hasInputs] using hinputs

/-- All that can go wrong with the rows of a target where every node below it is configured. -/
inductive RowsFailure (d : Dialect) (target : Node) : CompileError → Prop
  | literal {m : Node} {f : Filter} {value : String} {fault : LiteralFault}
      (below : ReflTransGen Reads target m) (op : m.operation = .filter f)
      (refused : f.filterValue = some value) :
      RowsFailure d target (.invalidLiteral m.id value fault)
  | selection {m : Node} {st : Select} {p : Projection}
      (below : ReflTransGen Reads target m) (op : m.operation = .select st)
      (input : (m.inputProjection d 0).result = .ok p)
      (outside : ∀ i ∈ st.includedColumnIndexes.getD [], p.length ≤ i) :
      RowsFailure d target (.missingSetting m.id .includedColumnIndexes)

theorem outside_of_picks {st : Select} {length : Nat} (h : st.picks length = []) :
    ∀ i ∈ st.includedColumnIndexes.getD [], length ≤ i := by
  intro i hi
  obtain ⟨k, hk⟩ := List.getElem?_of_mem hi
  simp only [Select.picks, List.map_eq_nil_iff, List.filter_eq_nil_iff, decide_eq_true_eq,
    Nat.not_lt] at h
  exact h (i, k) (List.mem_zipIdx_iff_getElem?.mpr hk)

/-- The check of a node rules out all defects but two. -/
theorem rowsFailure_of_defect (hn : (n.isConfigured d).result = .ok true)
    (hends : ∀ id, .endless id ∉ n.inputs) (hbelow : ReflTransGen Reads target n)
    (h : Defect d n e) : RowsFailure d target e := by
  have hchecked := of_isConfigured hn
  cases h with
  | missingInput used missing =>
    have hleast := (inputs_of_isConfigured hn (Nat.zero_lt_of_lt used)).1
    omega
  | unknownInput used absent =>
    have hresolved := (inputs_of_isConfigured hn used).2 _ absent
    cases hresolved
  | endlessInput cut => exact absurd cut (hends _)
  | table op error =>
    rw [op] at hchecked
    simp [requireColumns_of_isConfigured hchecked] at error
  | selection op input none => exact .selection hbelow op input (outside_of_picks none)
  | filterUnset op unset =>
    rw [op] at hchecked
    obtain ⟨_, index, o, hindex, ho, _⟩ := hchecked
    simp [hindex, ho] at unset
  | filter op input error =>
    rw [op] at hchecked
    obtain ⟨_, index, o, hindex, ho, hvalue, p, hp, hlt⟩ := hchecked
    obtain rfl := result_unique hp input
    obtain ⟨value, fault, hrefused, rfl⟩ :=
      Filter.refused_of_predicate hindex ho hvalue hlt e error
    exact .literal hbelow op hrefused
  | joinUnset op keyed unset =>
    rw [op] at hchecked
    obtain ⟨l, r, hl, hr, _⟩ := hchecked.2 keyed
    simp [hl, hr] at unset
  | joinColumn op keyed asked input missing =>
    rw [op] at hchecked
    obtain ⟨l, r, hl, hr, ⟨lp, hlp, hllt⟩, ⟨rp, hrp, hrlt⟩⟩ := hchecked.2 keyed
    rcases asked with ⟨rfl, hasked⟩ | ⟨rfl, hasked⟩
    · obtain rfl := result_unique hlp input
      rw [hl, Option.some.injEq] at hasked
      omega
    · obtain rfl := result_unique hrp input
      rw [hr, Option.some.injEq] at hasked
      omega
  | summary op input error =>
    rw [op] at hchecked
    obtain ⟨_, _, p, o, hp, ho⟩ := hchecked
    obtain rfl := result_unique hp input
    simp [ho] at error
  | emptySummary op groups aggregates =>
    rw [op] at hchecked
    exact absurd ⟨groups, aggregates⟩ hchecked.2.1
  | slice op input error =>
    rw [op] at hchecked
    obtain ⟨_, y, hy⟩ := hchecked
    rw [result_slice input] at hy
    simp [hy] at error
  | chart op input error =>
    rw [op] at hchecked
    obtain ⟨_, p, picks, hp, hpicks⟩ := hchecked
    obtain rfl := result_unique hp input
    simp [hpicks] at error

/-- Errors below a target, where all nodes are configured. -/
theorem rowsFailure_of_blames
    (hconfigured : ∀ m, ReflTransGen Reads target m → (m.isConfigured d).result = .ok true)
    (hends : ∀ m, ReflTransGen Reads target m → ∀ id, .endless id ∉ m.inputs)
    (h : Blames d target e) : RowsFailure d target e := by
  obtain ⟨m, hm, hdefect⟩ := h
  exact rowsFailure_of_defect (hconfigured m hm) (hends m hm) hm hdefect

end Node

namespace Graph

/-- In a graph without cycles, where a target and all nodes below it are configured, the number of
its rows can be asked for unless a filter below has a value that does not fit its column, or a
selection below finds none of its columns. Fetching the rows may fail as well because a sort below
asks for a column that is not there, because the target has no columns, or because of the page. -/
theorem configured_failures {specs : List NodeSpec} {catalog : Catalog} {d : Dialect}
    {g : Graph} {notes : List BuildNote} (hb : build specs catalog d = .ok (g, notes))
    (ha : g.Acyclic) {id : String} {target : Node} (ht : (g.node id).result = .ok target)
    (hconfigured : ∀ m, ReflTransGen Node.Reads target m →
      (m.isConfigured g.dialect).result = .ok true) (s : Strategy) :
    ((∃ sql, ((g.withStrategy s).countStatement id).result = .ok sql) ∨
      ∃ e, ((g.withStrategy s).countStatement id).result = .error e ∧
        target.RowsFailure g.dialect e) ∧
    ∀ page, (∃ sql, ((g.withStrategy s).fetchStatement id page).result = .ok sql) ∨
      ∃ e, ((g.withStrategy s).fetchStatement id page).result = .error e ∧
        (target.RowsFailure g.dialect e ∨ target.OrderFailure g.dialect s page e) := by
  have hc := nodes_complete hb ha
  have htarget := mem_nodes_of_node ht
  have hwithin := within_of_mem_nodes htarget
  have hends (m : Node) (hm : ReflTransGen Node.Reads target m) :
      ∀ id, .endless id ∉ m.inputs :=
    endless_notMem_inputs hb (hc.mem_of_below htarget hm)
  have hrows (e : CompileError) := @Node.rowsFailure_of_blames _ _ e hconfigured hends
  have hsplit {P : CompileError → Prop} {x : Outcome String} (hx : x.FailsOnly P) :
      (∃ sql, x.result = .ok sql) ∨ ∃ e, x.result = .error e ∧ P e := by
    cases hresult : x.result with
    | ok sql => exact .inl ⟨sql, rfl⟩
    | error e => exact .inr ⟨e, rfl, hx e hresult⟩
  constructor
  · refine hsplit ((failsOnly_of_ok ht).bind fun n hn => ?_)
    obtain rfl := result_unique ht hn
    exact ((Node.failsOnly_count hc htarget hwithin).mono hrows).bind fun _ _ => failsOnly_pure _
  · intro page
    refine hsplit ((failsOnly_of_ok ht).bind fun n hn => ?_)
    obtain rfl := result_unique ht hn
    refine FailsOnly.bind ?_ fun _ _ => failsOnly_pure _
    exact (Node.failsOnly_fetch hc htarget hwithin page).mono fun e he => he.imp_left (hrows e)

/-- A sort by a column that is not there, and a filter over it that compares a number to a word.
Both pass the check. -/
def strayedSpecs : List NodeSpec :=
  [⟨"orders", [], .tableSource ⟨some "orders"⟩⟩,
    ⟨"strayed", ["orders"], .sort ⟨[9], []⟩⟩,
    ⟨"late", ["strayed"], .filter ⟨some 1, some .greaterThan, some "soon", false⟩⟩]

def strayed : Graph where
  dialect := .postgreSql
  strategy := .commonTableExpressions
  entries := strayedSpecs.map (entry (strayedSpecs.map NodeSpec.id) diamondCatalog)

theorem build_strayed : build strayedSpecs diamondCatalog .postgreSql =
    .ok (strayed, [.built 3 .postgreSql]) := rfl

theorem acyclic_strayed : strayed.Acyclic := acyclic_of_earlier (by decide)

/-- Counting the rows stumbles over the word, fetching them over the sort before that. -/
theorem configured_failures_strayed :
    ∃ target, (strayed.node "late").result = .ok target ∧
      (∀ m, ReflTransGen Node.Reads target m → (m.isConfigured .postgreSql).result = .ok true) ∧
      (strayed.countStatement "late").result = .error (.invalidLiteral "late" "soon" .notNumber) ∧
      target.RowsFailure .postgreSql (.invalidLiteral "late" "soon" .notNumber) ∧
      (strayed.fetchStatement "late" none).result =
        .error (.columnIndexOutOfRange "strayed" 9 2) ∧
      target.OrderFailure .postgreSql .commonTableExpressions none
        (.columnIndexOutOfRange "strayed" 9 2) := by
  obtain ⟨target, htarget⟩ : ∃ target, (strayed.node "late").result = .ok target := ⟨_, rfl⟩
  have hall : ∀ m ∈ strayed.nodes, (m.isConfigured .postgreSql).result = .ok true := by
    decide +kernel
  have hconfigured (m : Node) (hm : ReflTransGen Node.Reads target m) :
      (m.isConfigured .postgreSql).result = .ok true :=
    hall m ((nodes_complete build_strayed acyclic_strayed).mem_of_below
      (mem_nodes_of_node htarget) hm)
  have hcount : (strayed.countStatement "late").result =
      .error (.invalidLiteral "late" "soon" .notNumber) := rfl
  have hfetch : (strayed.fetchStatement "late" none).result =
      .error (.columnIndexOutOfRange "strayed" 9 2) := rfl
  obtain ⟨hrows, hordered⟩ := configured_failures build_strayed acyclic_strayed htarget hconfigured
    .commonTableExpressions
  refine ⟨target, htarget, hconfigured, hcount, ?_, hfetch, ?_⟩
  · rcases hrows with ⟨sql, hsql⟩ | ⟨e, he, hfailure⟩
    · cases hcount.symm.trans hsql
    · cases hcount.symm.trans he
      exact hfailure
  · rcases hordered none with ⟨sql, hsql⟩ | ⟨e, he, hfailure⟩
    · cases hfetch.symm.trans hsql
    · cases hfetch.symm.trans he
      rcases hfailure with hfailure | hfailure
      · cases hfailure
      · exact hfailure

end Graph

end DataflowSql

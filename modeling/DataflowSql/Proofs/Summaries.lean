import DataflowSql.Proofs.Failures
import DataflowSql.Proofs.Splicing

/-! Summaries by position. The settings of a summary are lists that are read side by side and need
not be equally long. What stands at each position of the output is said here from the settings at
that position alone, and the columns, the select list and the grouping all follow it. -/
namespace DataflowSql

open Sql

namespace Summarize

variable {d : Dialect} {s : Summarize} {id : String} {input : Projection}

/-- The group at a position. -/
def groupAt? (d : Dialect) (s : Summarize) (input : Projection) (k : Nat) : Option Output := do
  let index ← s.groupByColumnIndexes[k]?
  let source ← input[index]?
  return groupOutput d source index (s.groupByFunctions[k]?.getD .raw)

/-- The aggregate at a position. A count is one of all rows, whatever column stands beside it. -/
def aggregateAt? (d : Dialect) (s : Summarize) (id : String) (input : Projection) (k : Nat) :
    Option Output := do
  let f ← s.aggregateFunctions[k]?
  if f = .count then return countOutput d
  else
    let index ← s.aggregateColumnIndexes[k]?.join
    let source ← input[index]?
    (aggregateOutput d id source index f).result.toOption

/-- What stands at a position of the output: aggregates stand behind the groups. -/
def outputAt? (d : Dialect) (s : Summarize) (id : String) (input : Projection) (k : Nat) :
    Option Output :=
  if k < s.groupByColumnIndexes.length then s.groupAt? d input k
  else s.aggregateAt? d id input (k - s.groupByColumnIndexes.length)

/-- Every group has a column of the input, and so has every aggregate other than a count. -/
def Covered (s : Summarize) (input : Projection) : Prop :=
  (∀ index ∈ s.groupByColumnIndexes, index < input.length) ∧
    ∀ (k : Nat) f, s.aggregateFunctions[k]? = some f → f ≠ .count →
      ∃ index, s.aggregateColumnIndexes[k]? = some (some index) ∧ index < input.length

/-- The text of a summary over a source. The first outputs are the groups, as many as `groups`. -/
def text (d : Dialect) (outs : List Output) (groups : Nat) (source : String) : String :=
  "SELECT " ++ ", ".intercalate (outs.zipIdx.map fun e =>
      e.1.expr.sql d (ColumnRef.sql d) ++ " AS " ++ columnName e.2) ++ " FROM " ++ source ++
    if groups = 0 then ""
    else " GROUP BY " ++ ", ".intercalate ((outs.take groups).map fun o =>
      o.expr.sql d (ColumnRef.sql d))

theorem groupOutputs_eq_ok {gs : List Output} :
    (s.groupOutputs d id input).result = .ok gs ↔
      gs.length = s.groupByColumnIndexes.length ∧ ∀ k : Nat, gs[k]? = s.groupAt? d input k := by
  refine Outcome.mapM_zipIdx_eq_table (fun k index o hindex => ?_) fun k hk => ?_
  · simp only [Outcome.bind_eq_ok, Outcome.pure_eq_ok, Projection.column_eq_ok, groupAt?,
      hindex]
    simp [Option.bind_eq_some_iff]
  · simp [groupAt?, List.getElem?_eq_none hk]

theorem aggregateOutputs_eq_ok {as : List Output} :
    (s.aggregateOutputs d id input).result = .ok as ↔
      as.length = s.aggregateFunctions.length ∧
        ∀ k : Nat, as[k]? = s.aggregateAt? d id input k := by
  refine Outcome.mapM_zipIdx_eq_table (fun k f o hf => ?_) fun k hk => ?_
  · by_cases hcount : f = .count
    · simp [aggregateAt?, hf, hcount]
    · simp [aggregateAt?, hf, hcount, Projection.column_eq_ok,
        Outcome.toOption_eq_some, Option.bind_eq_some_iff]
  · simp [aggregateAt?, List.getElem?_eq_none hk]

theorem exists_groupOutputs_iff :
    (∃ gs, (s.groupOutputs d id input).result = .ok gs) ↔
      ∀ index ∈ s.groupByColumnIndexes, index < input.length := by
  simp only [groupOutputs, Outcome.exists_mapM_zipIdx_iff, Outcome.bind_eq_ok, Outcome.pure_eq_ok,
    Projection.column_eq_ok]
  constructor
  · intro h index hindex
    obtain ⟨k, hk⟩ := List.getElem?_of_mem hindex
    obtain ⟨_, source, hsource, _⟩ := h k index hk
    exact (List.getElem?_eq_some_iff.mp hsource).1
  · intro h k index hk
    have hindex := h index (List.mem_of_getElem? hk)
    exact ⟨_, _, List.getElem?_eq_getElem hindex, rfl⟩

theorem exists_aggregateOutput (source : Column) (index : Nat) (f : AggregateFunction) :
    ∃ o, (aggregateOutput d id source index f).result = .ok o := by
  cases f <;> exact ⟨_, rfl⟩

theorem exists_aggregateOutputs_iff :
    (∃ as, (s.aggregateOutputs d id input).result = .ok as) ↔
      ∀ (k : Nat) f, s.aggregateFunctions[k]? = some f → f ≠ .count →
        ∃ index, s.aggregateColumnIndexes[k]? = some (some index) ∧ index < input.length := by
  rw [aggregateOutputs, Outcome.exists_mapM_zipIdx_iff]
  refine forall₃_congr fun k f _ => ?_
  by_cases hcount : f = .count
  · simp [hcount]
  · simp only [if_neg hcount, Outcome.bind_eq_ok, Outcome.ofOption_eq_ok,
      Projection.column_eq_ok, Option.join_eq_some_iff]
    constructor
    · intro h _
      obtain ⟨_, index, hindex, source, hsource, _⟩ := h
      exact ⟨index, hindex, (List.getElem?_eq_some_iff.mp hsource).1⟩
    · intro h
      obtain ⟨index, hindex, hlt⟩ := h hcount
      obtain ⟨o, ho⟩ := exists_aggregateOutput input[index] index f
      exact ⟨o, index, hindex, _, List.getElem?_eq_getElem hlt, ho⟩

theorem outputs_eq_ok {o : Outputs} :
    (s.outputs d id input).result = .ok o ↔
      (s.groupOutputs d id input).result = .ok o.groups ∧
        (s.aggregateOutputs d id input).result = .ok o.aggregates := by
  simp only [outputs, Outcome.bind_eq_ok, Outcome.pure_eq_ok]
  constructor
  · intro h
    obtain ⟨groups, hgroups, aggregates, haggregates, rfl⟩ := h
    exact ⟨hgroups, haggregates⟩
  · intro h
    exact ⟨o.groups, h.1, o.aggregates, h.2, rfl⟩

theorem exists_outputs_iff :
    (∃ o, (s.outputs d id input).result = .ok o) ↔ s.Covered input := by
  have hgroups : (∃ gs, (s.groupOutputs d id input).result = .ok gs) ↔ _ := exists_groupOutputs_iff
  have haggregates : (∃ as, (s.aggregateOutputs d id input).result = .ok as) ↔ _ :=
    exists_aggregateOutputs_iff
  rw [Covered, ← hgroups, ← haggregates]
  constructor
  · intro h
    obtain ⟨o, ho⟩ := h
    have hparts := outputs_eq_ok.mp ho
    exact ⟨⟨_, hparts.1⟩, ⟨_, hparts.2⟩⟩
  · intro h
    obtain ⟨⟨gs, hgs⟩, as, has⟩ := h
    exact ⟨⟨gs, as⟩, outputs_eq_ok.mpr ⟨hgs, has⟩⟩

/-- The outputs are what stands at each position, and no more. -/
theorem getElem?_all {o : Outputs} (h : (s.outputs d id input).result = .ok o) (k : Nat) :
    o.all[k]? = s.outputAt? d id input k := by
  have hparts := outputs_eq_ok.mp h
  have hgroups := groupOutputs_eq_ok.mp hparts.1
  have haggregates := aggregateOutputs_eq_ok.mp hparts.2
  rw [Outputs.all, List.getElem?_append, hgroups.1, hgroups.2, haggregates.2, outputAt?]

theorem length_all {o : Outputs} (h : (s.outputs d id input).result = .ok o) :
    o.all.length = s.groupByColumnIndexes.length + s.aggregateFunctions.length := by
  have hparts := outputs_eq_ok.mp h
  rw [Outputs.all, List.length_append, (groupOutputs_eq_ok.mp hparts.1).1,
    (aggregateOutputs_eq_ok.mp hparts.2).1]

/-- A column beside a count is not looked at. -/
theorem outputs_of_other {other : List (Option Nat)}
    (h : ∀ (k : Nat) f, s.aggregateFunctions[k]? = some f → f ≠ .count →
      other[k]?.join = s.aggregateColumnIndexes[k]?.join) :
    ({ s with aggregateColumnIndexes := other }).outputs d id input = s.outputs d id input := by
  have haggregates : ({ s with aggregateColumnIndexes := other }).aggregateOutputs d id input =
      s.aggregateOutputs d id input := by
    refine Outcome.mapM_congr fun e he => if_ctx_congr Iff.rfl (fun _ => rfl) fun hcount => ?_
    rw [h e.2 e.1 (List.mk_mem_zipIdx_iff_getElem?.mp he) hcount]
  unfold outputs
  rw [haggregates]
  rfl

end Summarize

namespace Node

variable {d : Dialect} {st : Strategy} {n : Node} {sm : Summarize} {p : Projection}

theorem query_of_summarize (hop : n.operation = .summarize sm) : n.query d st = do
    let m ← n.input 0
    let o ← sm.outputs d n.id (← m.projection d)
    if o.all.isEmpty then Outcome.fail (.missingSetting n.id .aggregateFunctions)
    let source ← m.read d st (.whole none)
    return .select false (Item.number (o.all.map (·.expr))) source none
      (o.groups.map (·.expr)) := by
  simp only [query, queryStep, hop, readers, Slot.reachAt_slotsOf, bind_assoc, pure_bind]
  rfl

theorem sql_of_outputs (o : Summarize.Outputs) (source : Source Node) :
    (Query.select false (Item.number (o.all.map (·.expr))) source none
        (o.groups.map (·.expr))).sql d Node.name =
      Summarize.text d o.all o.groups.length (source.sql d Node.name) := by
  have hitems : (Item.number (o.all.map (·.expr))).map (Item.sql d) =
      o.all.zipIdx.map fun e => e.1.expr.sql d (ColumnRef.sql d) ++ " AS " ++ columnName e.2 := by
    rw [Item.number, List.zipIdx_map, List.map_map, List.map_map]
    rfl
  have hgroups : groupsText d (o.groups.map (·.expr)) =
      if o.groups.length = 0 then ""
      else " GROUP BY " ++ ", ".intercalate ((o.all.take o.groups.length).map fun e =>
        e.expr.sql d (ColumnRef.sql d)) := by
    rw [groupsText, Summarize.Outputs.all, List.take_left, List.map_map]
    simp only [List.isEmpty_iff, List.map_eq_nil_iff, List.length_eq_zero_iff]
    rfl
  rw [Query.sql, selectList, hitems, hgroups, conditionText, Summarize.text]
  simp

/-- The outputs of a summary whose input can be read, once there are any. -/
theorem queryText_of_outputs (hop : n.operation = .summarize sm) {m : Node} {src : Source Node}
    {o : Summarize.Outputs} (hm : (n.input 0).result = .ok m) (hp : (m.projection d).result = .ok p)
    (ho : (sm.outputs d n.id p).result = .ok o) (hne : o.all ≠ [])
    (hsrc : (m.read d st (.whole none)).result = .ok src) :
    (n.queryText d st).result =
      .ok (Summarize.text d o.all sm.groupByColumnIndexes.length (src.sql d Node.name)) := by
  have hgroups := (Summarize.groupOutputs_eq_ok.mp (Summarize.outputs_eq_ok.mp ho).1).1
  rw [queryText_eq_ok, ← hgroups, ← sql_of_outputs]
  refine ⟨_, ?_, rfl⟩
  simp only [query_of_summarize hop, Outcome.bind_eq_ok, Outcome.guarded_eq_ok, Outcome.pure_eq_ok]
  exact ⟨m, hm, p, hp, o, ho, by simpa using hne, src, hsrc, rfl⟩

/-- If the input of a summary can be read, only a summary of nothing lacks aggregates. -/
theorem query_eq_missing_iff (hop : n.operation = .summarize sm) {m : Node} {src : Source Node}
    (hm : (n.input 0).result = .ok m) (hp : (m.projection d).result = .ok p)
    (hsrc : (m.read d st (.whole none)).result = .ok src) :
    (n.query d st).result = .error (.missingSetting n.id .aggregateFunctions) ↔
      sm.groupByColumnIndexes = [] ∧ sm.aggregateFunctions = [] := by
  rw [query_of_summarize hop, Outcome.result_bind_of_ok hm, Outcome.result_bind_of_ok hp]
  constructor
  · intro h
    rcases Outcome.bind_eq_error.mp h with h | ⟨o, ho, h⟩
    · have hother := failsOnly_outputs (P := (· ≠ .missingSetting n.id .aggregateFunctions)) sm
        (fun _ _ => by simp) (by simp) _ h
      exact absurd rfl hother
    · refine settings_of_empty_outputs ho ?_
      by_contra hne
      rw [if_neg (by simpa using hne), Outcome.result_bind_of_ok hsrc] at h
      exact absurd h Outcome.pure_ne_error
  · intro h
    have ho : (sm.outputs d n.id p).result = .ok ⟨[], []⟩ := by
      rw [Summarize.outputs, Summarize.groupOutputs, Summarize.aggregateOutputs, h.1, h.2]
      rfl
    rw [Outcome.result_bind_of_ok ho]
    rfl

/-- Summaries with the same outputs over the same inputs are written in the same way. -/
theorem answers_of_outputs {n' : Node} {sm' : Summarize} (hop : n.operation = .summarize sm)
    (hop' : n'.operation = .summarize sm') (hid : n'.id = n.id) (hinputs : n'.inputs = n.inputs)
    (h : ∀ p, sm'.outputs d n.id p = sm.outputs d n.id p) :
    n'.projection d = n.projection d ∧ n'.queryText d st = n.queryText d st := by
  have hinput : n'.input 0 = n.input 0 := by
    unfold input slots
    rw [hid, hinputs]
  have hprojection : n'.inputProjection d 0 = n.inputProjection d 0 := by
    unfold inputProjection
    rw [hinput]
  constructor
  · rw [projection_eq, projection_eq, hop, hop', hprojection, hid]
    simp only [h]
  · rw [queryText, queryText, query_of_summarize hop, query_of_summarize hop', hinput, hid]
    simp only [h]

/-- A summary over an input with these columns. It has outputs just where its settings are covered
by the columns. These stand one behind the other, groups first, each as its own position says, in
the columns as well as in the select list, and are grouped by the first of them. Only a summary of
nothing lacks aggregates, and columns that stand beside a count do not matter. -/
theorem summary_aligned (d : Dialect) (st : Strategy) (hop : n.operation = .summarize sm)
    (hp : (n.inputProjection d 0).result = .ok p) :
    ((∃ o, (sm.outputs d n.id p).result = .ok o) ↔ sm.Covered p) ∧
      (sm.Covered p → ∃ outs : List Summarize.Output,
        outs.length = sm.groupByColumnIndexes.length + sm.aggregateFunctions.length ∧
        (∀ k : Nat, outs[k]? = sm.outputAt? d n.id p k) ∧
        (n.projection d).result = .ok (outs.map (·.column)) ∧
        ∀ m src, (n.input 0).result = .ok m → (m.read d st (.whole none)).result = .ok src →
          outs ≠ [] → (n.queryText d st).result =
            .ok (Summarize.text d outs sm.groupByColumnIndexes.length (src.sql d Node.name))) ∧
      (∀ m src, (n.input 0).result = .ok m → (m.read d st (.whole none)).result = .ok src →
        ((n.queryText d st).result = .error (.missingSetting n.id .aggregateFunctions) ↔
          sm.groupByColumnIndexes = [] ∧ sm.aggregateFunctions = [])) ∧
      ∀ (n' : Node) (other : List (Option Nat)),
        n'.operation = .summarize { sm with aggregateColumnIndexes := other } →
        n'.id = n.id → n'.inputs = n.inputs →
        (∀ (k : Nat) f, sm.aggregateFunctions[k]? = some f → f ≠ .count →
          other[k]?.join = sm.aggregateColumnIndexes[k]?.join) →
        n'.projection d = n.projection d ∧ n'.queryText d st = n.queryText d st := by
  obtain ⟨m, hm, hmp⟩ := inputProjection_eq_ok.mp hp
  refine ⟨Summarize.exists_outputs_iff, fun hcovered => ?_, fun m' src hm' hsrc => ?_, ?_⟩
  · obtain ⟨o, ho⟩ := Summarize.exists_outputs_iff.mpr hcovered
    refine ⟨o.all, Summarize.length_all ho, Summarize.getElem?_all ho, ?_,
      fun m' src hm' hsrc hne => ?_⟩
    · rw [projection_eq, hop]
      simp only [Outcome.bind_eq_ok, Outcome.pure_eq_ok]
      exact ⟨p, hp, o, ho, rfl⟩
    · obtain rfl := Outcome.result_unique hm hm'
      exact queryText_of_outputs hop hm hmp ho hne hsrc
  · obtain rfl := Outcome.result_unique hm hm'
    rw [queryText_eq_error, query_eq_missing_iff hop hm hmp hsrc]
  · intro n' other hop' hid hinputs hother
    exact answers_of_outputs hop hop' hid hinputs fun _ => Summarize.outputs_of_other hother

/-- Orders by total, with these columns beside a count and a sum. -/
def talliedNode (columns : List (Option Nat)) : Node :=
  .mk "tallied" (.summarize ⟨[1], [], columns, [.count, .sum]⟩) none [.found (ordersNode "orders")]

/-- The count stands beside a column that the orders do not have, or beside none. -/
theorem summary_aligned_tallied :
    ∃ outs : List Summarize.Output, outs.length = 3 ∧
      outs[2]? = some ⟨⟨"Sum of id", "int"⟩, .unary .sum (.column (.output 0))⟩ ∧
      ((talliedNode [some 9, some 0]).projection .postgreSql).result =
        .ok (outs.map (·.column)) ∧
      ((talliedNode [some 9, some 0]).queryText .postgreSql .commonTableExpressions).result =
        .ok (Summarize.text .postgreSql outs 1 "node_orders") ∧
      (talliedNode [none, some 0]).queryText .postgreSql .commonTableExpressions =
        (talliedNode [some 9, some 0]).queryText .postgreSql .commonTableExpressions := by
  have hp : ((talliedNode [some 9, some 0]).inputProjection .postgreSql 0).result =
      .ok [⟨"id", "int"⟩, ⟨"total", "decimal"⟩] := rfl
  obtain ⟨_, houtputs, _, hother⟩ :=
    summary_aligned .postgreSql .commonTableExpressions rfl hp
  obtain ⟨outs, hlength, hget, hprojection, htext⟩ := houtputs ⟨by decide, fun k f hf hne => by
    match k with
    | 0 => exact absurd (Option.some.inj hf).symm hne
    | 1 => exact ⟨0, rfl, by decide⟩⟩
  have hne : outs ≠ [] := List.ne_nil_of_length_pos (by rw [hlength]; decide)
  refine ⟨outs, hlength, hget 2, hprojection, ?_, ?_⟩
  · exact htext (ordersNode "orders") (.named (ordersNode "orders") none) rfl rfl hne
  · refine (hother (talliedNode [none, some 0]) [none, some 0] rfl rfl rfl fun k f hf hne => ?_).2
    match k with
    | 0 => exact absurd (Option.some.inj hf).symm hne
    | 1 => rfl

end Node

end DataflowSql

import DataflowSql.Compile.Configured
import DataflowSql.Compile.Ordering
import DataflowSql.Compile.Splice
import DataflowSql.Proofs.Node

/-! Answers of a node in terms of the nodes it reads. Questions are passed down by slots; each of
them is put here as one equation over the inputs themselves, with its failures and its warnings. -/
namespace DataflowSql

namespace Slot

variable {β : Type} (step : Node → List (Slot β) → β)

theorem reach_slot (id : String) (i : Input) : (Input.slot step i).reach id =
    (do return answering step (← (Input.slot (fun _ _ => ()) i).reach id).node) := by
  cases i <;> rfl

/-- An input is reached with the answer it gives. -/
theorem reachAt_slotsOf (n : Node) (index : Nat) :
    reachAt n.id (slotsOf step n.inputs) index = (do return answering step (← n.input index)) := by
  simp only [Node.input, Node.slots, reachAt, slotsOf_eq_map, List.getElem?_map, List.length_map]
  cases n.inputs[index]? with
  | none => rfl
  | some i => cases i <;> rfl

theorem answerAt_slotsOf {α : Type} (step : Node → List (Slot (Outcome α)) → Outcome α) (n : Node)
    (index : Nat) :
    answerAt n.id (slotsOf step n.inputs) index = n.input index >>= Node.fold step := by
  simp [answerAt, reachAt_slotsOf, answering]

theorem mapM_reach_slotsOf (n : Node) : (slotsOf step n.inputs).mapM (reach n.id) =
    (do return (← n.allInputs).map (answering step)) := by
  simp only [Node.allInputs, Node.slots, slotsOf_eq_map]
  induction n.inputs with
  | nil => simp
  | cons i is ih =>
    simp only [List.map_cons, List.mapM_cons, ih]
    rw [reach_slot]
    simp

end Slot

namespace Node

open Sql

variable (d : Dialect) (n : Node)

/-- The columns of a node, from those of its inputs. -/
theorem projection_eq : n.projection d =
    match n.operation with
    | .tableSource _ => Outcome.ok (TableSource.projection d n.schema)
    | .select s => do return s.projection (← n.inputProjection d 0)
    | .filter _ => n.inputProjection d 0
    | .sort _ => n.inputProjection d 0
    | .join _ => do
      let l ← n.input 0
      let r ← n.input 1
      return (← l.projection d) ++ (← r.projection d)
    | .append a => do
      match ← (← n.allInputs).mapM (projection d) with
      | [] => Outcome.fail (.missingInput n.id 0 0)
      | p :: ps => return a.projection p ps
    | .summarize s => do
      return (← s.outputs d n.id (← n.inputProjection d 0)).all.map (·.column)
    | .extract e => n.inputProjection d 0 >>= e.projection d n.id
    | .chartProjection c => n.inputProjection d 0 >>= c.projection n.id := by
  have hfirst : Slot.answerAt n.id (slotsOf (projectionStep d) n.inputs) 0 =
      n.inputProjection d 0 := Slot.answerAt_slotsOf (projectionStep d) n 0
  rw [projection, fold_eq, projectionStep]
  cases n.operation with
  | join j => simp [Slot.reachAt_slotsOf, Slot.answering]
  | append a =>
    simp only [Slot.mapM_reach_slotsOf, bind_assoc, pure_bind, List.mapM_map]
    rfl
  | summarize s => simp [hfirst]
  | _ => simp only [hfirst]

/-- The order of a node's rows, from that of its inputs. -/
theorem sortKey_eq : n.sortKey d =
    match n.operation with
    | .select s => do
      let m ← n.input 0
      let p ← m.projection d
      return (← m.sortKey d).remap ((s.picks p.length).map (·.index))
    | .filter _ => n.input 0 >>= sortKey d
    | .sort s => s.key n.id fun _ => n.inputProjection d 0
    | .extract _ => n.input 0 >>= sortKey d
    | .chartProjection c => do
      let m ← n.input 0
      if ← c.followsAxis fun _ => n.inputProjection d 0 then return SortKey.standard
      let key ← m.sortKey d
      return key.remap (← c.picks n.id (← n.inputProjection d 0))
    | _ => Outcome.ok SortKey.standard := by
  have hprojection :
      (do (← Slot.reachAt n.id (slotsOf (sortKeyStep d) n.inputs) 0).node.projection d) =
        n.inputProjection d 0 := by
    simp [Slot.reachAt_slotsOf, Slot.answering, inputProjection]
  rw [sortKey, fold_eq, sortKeyStep]
  cases n.operation with
  | select s => simp [Slot.reachAt_slotsOf, Slot.answering]
  | filter f => exact Slot.answerAt_slotsOf (sortKeyStep d) n 0
  | extract e => exact Slot.answerAt_slotsOf (sortKeyStep d) n 0
  | sort s => simp only [hprojection]
  | chartProjection c =>
    simp only [hprojection]
    simp [Slot.reachAt_slotsOf, Slot.answering]
  | _ => rfl

/-- The ranges of a node, from those of its inputs. -/
theorem ranges_eq : n.ranges =
    match n.operation with
    | .tableSource _ => Outcome.ok [tableRange n.id]
    | .join j =>
      if j.joinType.shape?.isSome then do
        let ls ← (← n.input 0).ranges
        let rs ← (← n.input 1).ranges
        return ls ++ (Join.rename? n.id ls rs).elim rs fun range => [range]
      else Outcome.ok [n.name]
    | _ => Outcome.ok [n.name] := by
  rw [ranges, fold_eq, rangesStep]
  cases n.operation with
  | join j =>
    simp only [Slot.answerAt_slotsOf, bind_assoc]
    refine if_congr Iff.rfl ?_ rfl
    refine bind_congr fun l => bind_congr fun ls => bind_congr fun r => bind_congr fun rs => ?_
    cases Join.rename? n.id ls rs <;> rfl
  | _ => rfl

/-- The expression behind a column, from those of the inputs. -/
theorem column_eq (index : Nat) : n.column d index =
    match n.operation with
    | .tableSource _ => TableSource.rawColumn d n.id n.schema index
    | .join j =>
      if j.joinType.shape?.isSome then do
        let l ← n.input 0
        let r ← n.input 1
        joinColumn d n.id l r (l.column d) (r.column d) index
      else Outcome.ok (.column (.ranged n.name index))
    | _ => Outcome.ok (.column (.ranged n.name index)) := by
  rw [column, fold_eq, columnStep]
  cases n.operation with
  | join j => simp [Slot.reachAt_slotsOf, Slot.answering]
  | _ => rfl

theorem requireColumns_of_isConfigured {t : TableSource} {schema : Option TableSchema}
    (h : t.isConfigured schema = true) {id : String} :
    (t.requireColumns id schema).result = .ok () := by
  simp only [TableSource.isConfigured, Bool.and_eq_true, Bool.not_eq_true'] at h
  obtain ⟨table, htable⟩ := Option.isSome_iff_exists.mp h.1
  rw [TableSource.requireColumns, Outcome.bind_eq_ok]
  exact ⟨table, Outcome.ofOption_eq_ok.mpr htable, by simp [h.2]⟩

end Node

end DataflowSql

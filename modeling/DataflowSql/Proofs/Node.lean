import Mathlib.Logic.Relation
import DataflowSql.Graph.Node
import DataflowSql.Proofs.Outcome

/-! Nodes as trees: a question about a node is answered from its inputs, which lie strictly below
it. -/
namespace DataflowSql

namespace Node

/-- One of the declared inputs of `n` is the node `m`. -/
def Reads (n m : Node) : Prop := Input.found m ∈ n.inputs

theorem sizeOf_lt_of_reads {n m : Node} (h : n.Reads m) : sizeOf m < sizeOf n := by
  obtain ⟨id, operation, schema, inputs⟩ := n
  have hm : sizeOf (Input.found m) < sizeOf inputs := List.sizeOf_lt_of_mem h
  simp only [Input.found.sizeOf_spec, Node.mk.sizeOf_spec] at hm ⊢
  omega

theorem sizeOf_lt_of_transGen_reads {n m : Node} (h : Relation.TransGen Reads n m) :
    sizeOf m < sizeOf n := by
  induction h with
  | single h => exact sizeOf_lt_of_reads h
  | tail _ h ih => exact Nat.lt_trans (sizeOf_lt_of_reads h) ih

/-- What holds of a node whenever it holds of all that lies below it holds of every node. -/
theorem below_induction {P : Node → Prop}
    (step : ∀ n, (∀ m, Relation.TransGen Reads n m → P m) → P n) (n : Node) : P n := by
  induction h : sizeOf n using Nat.strongRecOn generalizing n with
  | ind k ih =>
    subst h
    exact step n fun m hm => ih _ (sizeOf_lt_of_transGen_reads hm) m rfl

theorem reads_induction {P : Node → Prop} (step : ∀ n, (∀ m, n.Reads m → P m) → P n) (n : Node) :
    P n :=
  below_induction (fun n ih => step n fun m hm => ih m (.single hm)) n

theorem fold_eq {β : Type} (step : Node → List (Slot β) → β) (n : Node) :
    n.fold step = step n (slotsOf step n.inputs) := by
  cases n
  rw [fold, inputs]

end Node

theorem slotsOf_eq_map {β : Type} (step : Node → List (Slot β) → β) (is : List Input) :
    slotsOf step is = is.map (Input.slot step) := by
  induction is with
  | nil => rw [slotsOf, List.map_nil]
  | cons i is ih => rw [slotsOf, ih, List.map_cons]

namespace Slot

variable {β : Type} {step : Node → List (Slot β) → β} {id : String} {is : List Input}

/-- A node together with its answer to a question. -/
def answering (step : Node → List (Slot β) → β) (m : Node) : Reached β := ⟨m, fun _ => m.fold step⟩

theorem map_node_answering (ms : List Node) : (ms.map (answering step)).map Reached.node = ms := by
  simp [answering, Function.comp_def]

theorem reach_slot_eq_ok {i : Input} {r : Reached β} :
    ((Input.slot step i).reach id).result = .ok r ↔
      ∃ m, i = .found m ∧ r = answering step m := by
  cases i with
  | found m =>
    rw [Input.slot, reach, Outcome.ok_eq_ok]
    constructor
    · rintro rfl
      exact ⟨m, rfl, rfl⟩
    · intro h
      obtain ⟨_, hm, rfl⟩ := h
      cases hm
      rfl
  | absent id => simp [Input.slot, reach]
  | endless id => simp [Input.slot, reach]

/-- Only a declared input that is a node of the graph can be reached. -/
theorem reachAt_eq_ok {i : Nat} {r : Reached β} :
    (reachAt id (slotsOf step is) i).result = .ok r ↔
      ∃ m, is[i]? = some (.found m) ∧ r = answering step m := by
  rw [slotsOf_eq_map]
  simp only [reachAt, Outcome.bind_eq_ok, Outcome.ofOption_eq_ok, List.getElem?_map,
    Option.map_eq_some_iff]
  constructor
  · intro h
    obtain ⟨_, ⟨x, hx, rfl⟩, hr⟩ := h
    obtain ⟨m, rfl, rfl⟩ := reach_slot_eq_ok.mp hr
    exact ⟨m, hx, rfl⟩
  · intro h
    obtain ⟨m, hm, rfl⟩ := h
    exact ⟨_, ⟨_, hm, rfl⟩, reach_slot_eq_ok.mpr ⟨m, rfl, rfl⟩⟩

theorem forall₂_reach_iff {rs : List (Reached β)} :
    List.Forall₂ (fun s r => (reach id s).result = .ok r) (slotsOf step is) rs ↔
      ∃ ms : List Node, is = ms.map .found ∧ rs = ms.map (answering step) := by
  rw [slotsOf_eq_map]
  induction is generalizing rs with
  | nil => simp [List.map_eq_nil_iff, eq_comm]
  | cons i is ih =>
    rw [List.map_cons, List.forall₂_cons_left_iff]
    constructor
    · intro h
      obtain ⟨r, rs', hr, hrs, rfl⟩ := h
      obtain ⟨m, rfl, rfl⟩ := reach_slot_eq_ok.mp hr
      obtain ⟨ms, rfl, rfl⟩ := ih.mp hrs
      exact ⟨m :: ms, rfl, rfl⟩
    · intro h
      obtain ⟨ms, hi, rfl⟩ := h
      obtain ⟨m, ms', rfl, rfl, rfl⟩ := List.map_eq_cons_iff.mp hi.symm
      exact ⟨_, _, reach_slot_eq_ok.mpr ⟨m, rfl, rfl⟩, ih.mpr ⟨ms', rfl, rfl⟩, rfl⟩

/-- All inputs can be reached exactly when all of them are nodes of the graph. -/
theorem mapM_reach_eq_ok {rs : List (Reached β)} :
    ((slotsOf step is).mapM (reach id)).result = .ok rs ↔
      ∃ ms : List Node, is = ms.map .found ∧ rs = ms.map (answering step) := by
  rw [Outcome.mapM_eq_ok, forall₂_reach_iff]

end Slot

namespace Node

theorem reads_of_getElem? {n m : Node} {i : Nat} (h : n.inputs[i]? = some (.found m)) :
    n.Reads m := List.mem_of_getElem? h

theorem reads_of_mem {n m : Node} {ms : List Node} (h : n.inputs = ms.map .found) (hm : m ∈ ms) :
    n.Reads m := by
  rw [Reads, h]
  exact List.mem_map_of_mem hm

theorem mapM_reach_node {id : String} {slots : List (Slot Unit)} :
    (slots.mapM fun p => do return (← p.reach id).node : Outcome (List Node)) =
      (slots.mapM (Slot.reach id) >>= fun rs => pure (rs.map Reached.node)) := by
  induction slots with
  | nil => simp
  | cons p slots ih =>
    rw [List.mapM_cons, ih, List.mapM_cons]
    simp

theorem allInputs_eq_ok {n : Node} {ms : List Node} :
    n.allInputs.result = .ok ms ↔ n.inputs = ms.map .found := by
  simp only [allInputs, slots, mapM_reach_node, Outcome.bind_eq_ok, Slot.mapM_reach_eq_ok,
    Outcome.pure_eq_ok]
  constructor
  · intro h
    obtain ⟨_, ⟨ks, hk, rfl⟩, rfl⟩ := h
    rw [Slot.map_node_answering, hk]
  · intro hi
    exact ⟨_, ⟨ms, hi, rfl⟩, Slot.map_node_answering ms⟩

end Node

end DataflowSql

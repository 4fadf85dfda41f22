import DataflowSql.Proofs.Qualifiers
import DataflowSql.Proofs.RowOrder

/-! What can go wrong. Whatever is asked about a node, an error comes from something that is wrong
with one node, the one asked about or one below it: an input that is not there, or settings that do
not fit the columns of the inputs. -/
namespace DataflowSql

namespace Outcome

variable {α β : Type} {P Q : CompileError → Prop} {x : Outcome α}

/-- Every error is one of these. -/
def FailsOnly (P : CompileError → Prop) (x : Outcome α) : Prop := ∀ e, x.result = .error e → P e

theorem failsOnly_of_ok {a : α} (h : x.result = .ok a) : x.FailsOnly P := by
  intro e he
  rw [h] at he
  cases he

theorem exists_ok_of_failsOnly (h : x.FailsOnly fun _ => False) : ∃ a, x.result = .ok a := by
  cases hx : x.result with
  | ok a => exact ⟨a, rfl⟩
  | error e => exact (h e hx).elim

theorem failsOnly_ok (a : α) : (ok a).FailsOnly P := fun _ he => absurd he ok_ne_error

theorem failsOnly_pure (a : α) : (pure a : Outcome α).FailsOnly P := failsOnly_ok a

theorem failsOnly_fail {e : CompileError} (h : P e) : (fail e : Outcome α).FailsOnly P := by
  intro e' he
  exact fail_eq_error.mp he ▸ h

theorem failsOnly_ofOption {e : CompileError} {o : Option α} (h : o = none → P e) :
    (ofOption e o).FailsOnly P := by
  intro e' he
  obtain ⟨hnone, rfl⟩ := ofOption_eq_error.mp he
  exact h hnone

theorem FailsOnly.mono (h : x.FailsOnly P) (himp : ∀ e, P e → Q e) : x.FailsOnly Q :=
  fun e he => himp e (h e he)

theorem FailsOnly.bind {f : α → Outcome β} (hx : x.FailsOnly P)
    (hf : ∀ a, x.result = .ok a → (f a).FailsOnly P) : (x >>= f).FailsOnly P := by
  intro e he
  rcases bind_eq_error.mp he with he | ⟨a, ha, he⟩
  · exact hx e he
  · exact hf a ha e he

/-- A check in front of the rest of the work. -/
theorem failsOnly_guarded {c : Prop} [Decidable c] {e : CompileError} {f : α → Outcome β}
    {y : Outcome β} (he : c → P e) (hy : ¬c → y.FailsOnly P) :
    (if c then fail e >>= f else y).FailsOnly P := by
  split
  · rename_i hc
    intro e' he'
    rw [bind_eq_error] at he'
    rcases he' with he' | ⟨_, ha, _⟩
    · exact fail_eq_error.mp he' ▸ he hc
    · exact absurd ha fail_ne_ok
  · exact hy ‹_›

theorem failsOnly_mapM {f : α → Outcome β} {xs : List α} (h : ∀ x ∈ xs, (f x).FailsOnly P) :
    (xs.mapM f).FailsOnly P := by
  induction xs with
  | nil =>
    rw [List.mapM_nil]
    exact failsOnly_pure []
  | cons x xs ih =>
    rw [List.mapM_cons]
    refine (h x (by simp)).bind fun y _ => ?_
    exact (ih fun z hz => h z (by simp [hz])).bind fun ys _ => failsOnly_pure (y :: ys)

theorem eq_nil_of_mapM {f : α → Outcome β} {xs : List α} (h : (xs.mapM f).result = .ok []) :
    xs = [] := by
  rwa [mapM_eq_ok, List.forall₂_nil_right_iff] at h

end Outcome

namespace Node

open Sql Relation Outcome

/-- How many inputs an operation cannot do without. -/
def Arity.least : Arity → Nat
  | .zero => 0
  | .one => 1
  | .two => 2
  | .all => 1

@[simp] theorem Arity.least_zero : Arity.zero.least = 0 := rfl

@[simp] theorem Arity.least_one : Arity.one.least = 1 := rfl

@[simp] theorem Arity.least_two : Arity.two.least = 2 := rfl

@[simp] theorem Arity.least_all : Arity.all.least = 1 := rfl

/-- What can be wrong with a node, and the error that says so. Inputs count only for operations
that look at them, and settings are held against the columns of the inputs. -/
inductive Defect (d : Dialect) (n : Node) : CompileError → Prop
  | missingInput {index : Nat} (used : index < (arity n.operation).least)
      (missing : n.inputs.length ≤ index) :
      Defect d n (.missingInput n.id index n.inputs.length)
  | unknownInput {id : String} (used : 0 < (arity n.operation).least)
      (absent : .absent id ∈ n.inputs) : Defect d n (.unknownInput n.id id)
  | endlessInput {id : String} (cut : .endless id ∈ n.inputs) : Defect d n (.endlessInput n.id id)
  | table {t : TableSource} {e : CompileError} (op : n.operation = .tableSource t)
      (error : (t.requireColumns n.id n.schema).result = .error e) : Defect d n e
  | selection {st : Select} {p : Projection} (op : n.operation = .select st)
      (input : (n.inputProjection d 0).result = .ok p) (none : st.picks p.length = []) :
      Defect d n (.missingSetting n.id .includedColumnIndexes)
  | filterUnset {f : Filter} {setting : Setting} (op : n.operation = .filter f)
      (unset : f.filterColumnIndex = none ∧ setting = .filterColumnIndex ∨
        f.operator = none ∧ setting = .operator) : Defect d n (.missingSetting n.id setting)
  | filter {f : Filter} {p : Projection} {e : CompileError} (op : n.operation = .filter f)
      (input : (n.inputProjection d 0).result = .ok p)
      (error : (f.predicate d n.id fun _ => Outcome.ok p).result = .error e) : Defect d n e
  | joinUnset {j : Join} {setting : Setting} (op : n.operation = .join j)
      (keyed : j.joinType ≠ .cross)
      (unset : j.table1Column = none ∧ setting = .table1Column ∨
        j.table2Column = none ∧ setting = .table2Column) : Defect d n (.missingSetting n.id setting)
  | joinColumn {j : Join} {side index : Nat} {p : Projection} (op : n.operation = .join j)
      (keyed : j.joinType ≠ .cross)
      (asked : side = 0 ∧ j.table1Column = some index ∨ side = 1 ∧ j.table2Column = some index)
      (input : (n.inputProjection d side).result = .ok p) (missing : p.length ≤ index) :
      Defect d n (.columnIndexOutOfRange n.id index p.length)
  | summary {sm : Summarize} {p : Projection} {e : CompileError} (op : n.operation = .summarize sm)
      (input : (n.inputProjection d 0).result = .ok p)
      (error : (sm.outputs d n.id p).result = .error e) : Defect d n e
  | emptySummary {sm : Summarize} (op : n.operation = .summarize sm)
      (groups : sm.groupByColumnIndexes = []) (aggregates : sm.aggregateFunctions = []) :
      Defect d n (.missingSetting n.id .aggregateFunctions)
  | slice {x : Extract} {p : Projection} {e : CompileError} (op : n.operation = .extract x)
      (input : (n.inputProjection d 0).result = .ok p)
      (error : (x.slice d n.id fun _ => Outcome.ok p).result = .error e) : Defect d n e
  | chart {c : ChartProjection} {p : Projection} {e : CompileError}
      (op : n.operation = .chartProjection c) (input : (n.inputProjection d 0).result = .ok p)
      (error : (c.picks n.id p).result = .error e) : Defect d n e

/-- The error comes from a defect of the node or of one below it. -/
def Blames (d : Dialect) (n : Node) (e : CompileError) : Prop :=
  ∃ m, ReflTransGen Reads n m ∧ Defect d m e

variable {d : Dialect} {s : Strategy} {n m : Node} {e : CompileError}

theorem Defect.blames (h : Defect d n e) : Blames d n e := ⟨n, .refl, h⟩

theorem Blames.above (hr : ReflTransGen Reads n m) (h : Blames d m e) : Blames d n e := by
  obtain ⟨k, hk, hdefect⟩ := h
  exact ⟨k, hr.trans hk, hdefect⟩

theorem failsOnly_above {α : Type} {x : Outcome α} (hr : n.Reads m) (h : x.FailsOnly (Blames d m)) :
    x.FailsOnly (Blames d n) :=
  h.mono fun _ => Blames.above (.single hr)

theorem failsOnly_of_input {α : Type} {x : Outcome α} {i : Nat} (hm : (n.input i).result = .ok m)
    (h : x.FailsOnly (Blames d m)) : x.FailsOnly (Blames d n) :=
  failsOnly_above (reads_of_input hm) h

section Inputs

/-- An input that is declared and used is there, or that is what is wrong. -/
theorem failsOnly_reach {β : Type} {step : Node → List (Slot β) → β} {i : Input}
    (used : 0 < (arity n.operation).least) (hi : i ∈ n.inputs) :
    ((Input.slot step i).reach n.id).FailsOnly (Blames d n) := by
  cases i with
  | found m => exact failsOnly_ok _
  | absent id => exact failsOnly_fail (Defect.unknownInput used hi).blames
  | endless id => exact failsOnly_fail (Defect.endlessInput hi).blames

theorem failsOnly_input {i : Nat} (used : i < (arity n.operation).least) :
    (n.input i).FailsOnly (Blames d n) := by
  refine FailsOnly.bind ?_ fun r _ => failsOnly_pure r.node
  rw [slots, slotsOf_eq_map]
  refine FailsOnly.bind (failsOnly_ofOption fun hnone => ?_) fun slot hslot => ?_
  · rw [List.length_map]
    exact (Defect.missingInput used (by simpa using hnone)).blames
  · rw [ofOption_eq_ok, List.getElem?_map, Option.map_eq_some_iff] at hslot
    obtain ⟨input, hinput, rfl⟩ := hslot
    exact failsOnly_reach (Nat.zero_lt_of_lt used) (List.mem_of_getElem? hinput)

theorem failsOnly_allInputs (used : 0 < (arity n.operation).least) :
    n.allInputs.FailsOnly (Blames d n) := by
  refine failsOnly_mapM fun slot hslot => ?_
  rw [slots, slotsOf_eq_map] at hslot
  obtain ⟨i, hi, rfl⟩ := List.mem_map.mp hslot
  exact (failsOnly_reach used hi).bind fun r _ => failsOnly_pure r.node

theorem failsOnly_noInputs {α : Type} (used : 0 < (arity n.operation).least)
    (h : n.inputs = []) : (fail (.missingInput n.id 0 0) : Outcome α).FailsOnly (Blames d n) := by
  have hdefect : Defect d n (.missingInput n.id 0 n.inputs.length) :=
    .missingInput used (by simp [h])
  rw [h] at hdefect
  exact failsOnly_fail hdefect.blames

end Inputs

section Columns

/-- The columns of an input fail as the input does. -/
theorem failsOnly_inputProjection {i : Nat} (used : i < (arity n.operation).least)
    (h : ∀ m, n.Reads m → (m.projection d).FailsOnly (Blames d m)) :
    (n.inputProjection d i).FailsOnly (Blames d n) :=
  (failsOnly_input used).bind fun m hm => failsOnly_of_input hm (h m (reads_of_input hm))

/-- A slice without a column to take it from makes no column either. -/
theorem slice_eq_error_of_projection {x : Extract} {id : String} {p : Projection}
    (h : (x.projection d id p).result = .error e) :
    (x.slice d id fun _ => Outcome.ok p).result = .error e := by
  simp only [Extract.projection, bind_eq_error, pure_ne_error, and_false, exists_false,
    or_false] at h
  simp only [Extract.slice, bind_eq_error, ok_ne_error, ok_eq_ok, false_or, exists_eq_left']
  rcases h with h | ⟨i, hi, h⟩
  · exact .inl h
  · exact .inr ⟨i, hi, .inl h⟩

theorem failsOnly_projection : (n.projection d).FailsOnly (Blames d n) := by
  induction n using reads_induction with
  | step n ih =>
    have hinput (used : 0 < (arity n.operation).least) := failsOnly_inputProjection used ih
    rw [projection_eq]
    cases hop : n.operation with
    | tableSource t => exact failsOnly_ok _
    | select st => exact (hinput (by simp [hop, arity])).bind fun p _ => failsOnly_pure _
    | filter f => exact hinput (by simp [hop, arity])
    | sort st => exact hinput (by simp [hop, arity])
    | join j =>
      refine (failsOnly_input (by simp [hop, arity])).bind fun l hl => ?_
      refine (failsOnly_input (by simp [hop, arity])).bind fun r hr => ?_
      refine (failsOnly_of_input hl (ih l (reads_of_input hl))).bind fun lp _ => ?_
      refine (failsOnly_of_input hr (ih r (reads_of_input hr))).bind fun rp _ => ?_
      exact failsOnly_pure _
    | append a =>
      have used : 0 < (arity n.operation).least := by simp [hop, arity]
      refine (failsOnly_allInputs used).bind fun ms hms => ?_
      rw [allInputs_eq_ok] at hms
      refine FailsOnly.bind (failsOnly_mapM fun m hm => ?_) fun ps hps => ?_
      · have hreads := reads_of_mem hms hm
        exact failsOnly_above hreads (ih m hreads)
      · cases ps with
        | nil =>
          obtain rfl := eq_nil_of_mapM hps
          exact failsOnly_noInputs used (by simpa using hms)
        | cons p ps => exact failsOnly_pure _
    | summarize sm =>
      refine (hinput (by simp [hop, arity])).bind fun p hp => ?_
      exact FailsOnly.bind (fun e he => (Defect.summary hop hp he).blames) fun o _ =>
        failsOnly_pure _
    | extract x =>
      refine (hinput (by simp [hop, arity])).bind fun p hp => ?_
      exact fun e he => (Defect.slice hop hp (slice_eq_error_of_projection he)).blames
    | chartProjection c =>
      refine (hinput (by simp [hop, arity])).bind fun p hp => ?_
      exact FailsOnly.bind (fun e he => (Defect.chart hop hp he).blames) fun picks _ =>
        failsOnly_pure _

theorem failsOnly_ranges : n.ranges.FailsOnly (Blames d n) := by
  induction n using reads_induction with
  | step n ih =>
    rw [ranges_eq]
    cases hop : n.operation with
    | join j =>
      dsimp only
      split
      · refine (failsOnly_input (by simp [hop, arity])).bind fun l hl => ?_
        refine (failsOnly_of_input hl (ih l (reads_of_input hl))).bind fun ls _ => ?_
        refine (failsOnly_input (by simp [hop, arity])).bind fun r hr => ?_
        refine (failsOnly_of_input hr (ih r (reads_of_input hr))).bind fun rs _ => ?_
        exact failsOnly_pure _
      · exact failsOnly_ok _
    | _ => exact failsOnly_ok _

theorem failsOnly_renameRight? {l r : Node} (hl : (n.input 0).result = .ok l)
    (hr : (n.input 1).result = .ok r) : (renameRight? n.id l r).FailsOnly (Blames d n) := by
  refine (failsOnly_of_input hl failsOnly_ranges).bind fun _ _ => ?_
  exact (failsOnly_of_input hr failsOnly_ranges).bind fun _ _ => failsOnly_pure _

end Columns

section Queries

variable {l r : Node} {j : Join}

/-- Work on an input, once it is reached. -/
theorem failsOnly_reachAt {α : Type} {i : Nat} {k : Reached Reading → Outcome α}
    (used : i < (arity n.operation).least)
    (hk : ∀ m, (n.input i).result = .ok m →
      (k ⟨m, fun _ => m.read d s⟩).FailsOnly (Blames d n)) :
    (Slot.reachAt n.id (n.readers d s) i >>= k).FailsOnly (Blames d n) := by
  rw [readers, Slot.reachAt_slotsOf]
  refine FailsOnly.bind ((failsOnly_input used).bind fun m _ => failsOnly_pure _) fun r hr => ?_
  rw [bind_eq_ok] at hr
  obtain ⟨m, hm, hr⟩ := hr
  rw [pure_eq_ok] at hr
  exact hr ▸ hk m hm

theorem failsOnly_mapM_reach (used : 0 < (arity n.operation).least) :
    ((n.readers d s).mapM (Slot.reach n.id)).FailsOnly (Blames d n) := by
  rw [readers, Slot.mapM_reach_slotsOf]
  exact (failsOnly_allInputs used).bind fun ms _ => failsOnly_pure _

/-- The check of a join's column finds it, or the join asks for one that is not there. -/
theorem failsOnly_checkIndex {side index : Nat} (hop : n.operation = .join j)
    (hkeyed : j.joinType ≠ .cross) (hm : (n.input side).result = .ok m)
    (hasked : side = 0 ∧ j.table1Column = some index ∨ side = 1 ∧ j.table2Column = some index) :
    (checkIndex d n.id m index).FailsOnly (Blames d n) := by
  refine (failsOnly_of_input hm failsOnly_projection).bind fun p hp => ?_
  split
  · rename_i hmissing
    exact failsOnly_fail
      (Defect.joinColumn hop hkeyed hasked (inputProjection_eq_ok.mpr ⟨m, hm, hp⟩) hmissing).blames
  · exact failsOnly_pure ()

/-- What has passed the check can be read. -/
theorem exists_column_of_checkIndex {id : String} {index : Nat} {u : Unit}
    (h : (checkIndex d id m index).result = .ok u) : ∃ x, (m.column d index).result = .ok x := by
  have hp := h
  rw [checkIndex, bind_eq_ok] at hp
  obtain ⟨p, hp, _⟩ := hp
  exact exists_column hp ((checkIndex_eq_ok hp).mp h)

theorem failsOnly_rightSource (hl : (n.input 0).result = .ok l) (hr : (n.input 1).result = .ok r)
    (hread : ∀ m, n.Reads m → ∀ mode, (m.read d s mode).FailsOnly (Blames d n)) :
    (rightSource n.id ⟨l, fun _ => l.read d s⟩ ⟨r, fun _ => r.read d s⟩).FailsOnly
      (Blames d n) := by
  refine (failsOnly_renameRight? hl hr).bind fun range _ => ?_
  cases range <;> exact hread r (reads_of_input hr) _

theorem failsOnly_joinSource {shape : JoinShape} (hop : n.operation = .join j)
    (hkeyed : ∀ kind, shape = .keyed kind → j.joinType ≠ .cross)
    (hread : ∀ m, n.Reads m → ∀ mode, (m.read d s mode).FailsOnly (Blames d n)) :
    (joinSource d n j shape (n.readers d s)).FailsOnly (Blames d n) := by
  refine failsOnly_reachAt (by simp [hop, arity]) fun l hl => ?_
  refine failsOnly_reachAt (by simp [hop, arity]) fun r hr => ?_
  refine (hread l (reads_of_input hl) .spliced).bind fun ls _ => ?_
  refine (failsOnly_rightSource hl hr hread).bind fun rs _ => ?_
  cases shape with
  | cross => exact failsOnly_pure _
  | keyed kind =>
    have hkeyed := hkeyed kind rfl
    refine FailsOnly.bind (failsOnly_ofOption fun hnone =>
      (Defect.joinUnset hop hkeyed (.inl ⟨hnone, rfl⟩)).blames) fun i hi => ?_
    refine FailsOnly.bind (failsOnly_ofOption fun hnone =>
      (Defect.joinUnset hop hkeyed (.inr ⟨hnone, rfl⟩)).blames) fun k hk => ?_
    rw [ofOption_eq_ok] at hi hk
    refine (failsOnly_checkIndex hop hkeyed hl (.inl ⟨rfl, hi⟩)).bind fun _ hli => ?_
    refine (failsOnly_checkIndex hop hkeyed hr (.inr ⟨rfl, hk⟩)).bind fun _ hrk => ?_
    -- both columns are there by now, so reading them cannot fail
    obtain ⟨x, hx⟩ := exists_column_of_checkIndex hli
    obtain ⟨y, hy⟩ := exists_column_of_checkIndex hrk
    refine (failsOnly_of_ok hx).bind fun _ _ => FailsOnly.bind ?_ fun _ _ => failsOnly_pure _
    refine (failsOnly_renameRight? hl hr).bind fun range _ => ?_
    cases range with
    | some range => exact failsOnly_pure _
    | none => exact failsOnly_of_ok hy

theorem failsOnly_joinQuery {shape : JoinShape} (hop : n.operation = .join j)
    (hkeyed : ∀ kind, shape = .keyed kind → j.joinType ≠ .cross)
    (hread : ∀ m, n.Reads m → ∀ mode, (m.read d s mode).FailsOnly (Blames d n)) :
    (joinQuery d n j shape (n.readers d s)).FailsOnly (Blames d n) := by
  refine failsOnly_projection.bind fun p hp => ?_
  refine failsOnly_reachAt (by simp [hop, arity]) fun l hl => ?_
  refine failsOnly_reachAt (by simp [hop, arity]) fun r hr => ?_
  obtain ⟨lp, rp, hlp, hrp, rfl⟩ := (projection_of_join hop hl hr).mp hp
  refine FailsOnly.bind (failsOnly_mapM fun i hi => ?_) fun exprs _ => ?_
  · rw [List.mem_range, List.length_append] at hi
    obtain ⟨x, hx⟩ := exists_joinColumn hlp hrp (fun _ => exists_column hlp)
      (fun _ => exists_column hrp) hi
    exact failsOnly_of_ok hx
  · exact (failsOnly_joinSource hop hkeyed hread).bind fun _ _ => failsOnly_pure _

theorem keyed_of_shape? {shape : JoinShape} (h : j.joinType.shape? = some shape) (kind : JoinKind)
    (hshape : shape = .keyed kind) : j.joinType ≠ .cross := by
  intro hcross
  subst hshape
  rw [hcross] at h
  cases h

theorem failsOnly_requireColumns {t : TableSource} (hop : n.operation = .tableSource t) :
    (t.requireColumns n.id n.schema).FailsOnly (Blames d n) :=
  fun _ he => (Defect.table hop he).blames

theorem failsOnly_predicate {f : Filter} (hop : n.operation = .filter f)
    (hm : (n.input 0).result = .ok m) :
    (f.predicate d n.id fun _ => m.projection d).FailsOnly (Blames d n) := by
  refine FailsOnly.bind (failsOnly_ofOption fun hnone =>
    (Defect.filterUnset hop (.inl ⟨hnone, rfl⟩)).blames) fun i hi => ?_
  refine FailsOnly.bind (failsOnly_ofOption fun hnone =>
    (Defect.filterUnset hop (.inr ⟨hnone, rfl⟩)).blames) fun o ho => ?_
  refine (failsOnly_of_input hm failsOnly_projection).bind fun p hp => ?_
  intro e he
  refine (Defect.filter hop (inputProjection_eq_ok.mpr ⟨m, hm, hp⟩) ?_).blames
  rw [Filter.predicate, bind_eq_error]
  refine .inr ⟨i, hi, bind_eq_error.mpr (.inr ⟨o, ho, bind_eq_error.mpr (.inr ⟨p, ?_, he⟩)⟩)⟩
  exact ok_eq_ok.mpr rfl

/-- A slice needs to know no more of its input than the columns. -/
theorem result_slice {x : Extract} {id : String} {input : Unit → Outcome Projection}
    {p : Projection} (h : (input ()).result = .ok p) :
    (x.slice d id input).result = (x.slice d id fun _ => Outcome.ok p).result := by
  rw [Extract.slice, Extract.slice]
  refine result_bind_congr fun i _ => ?_
  rw [result_bind_of_ok h, result_bind_of_ok (ok_eq_ok.mpr rfl)]

theorem failsOnly_slice {x : Extract} (hop : n.operation = .extract x)
    (hm : (n.input 0).result = .ok m) {p : Projection} (hp : (m.projection d).result = .ok p) :
    (x.slice d n.id fun _ => m.projection d).FailsOnly (Blames d n) := by
  intro e he
  rw [result_slice hp] at he
  exact (Defect.slice hop (inputProjection_eq_ok.mpr ⟨m, hm, hp⟩) he).blames

theorem failsOnly_outputs {P : CompileError → Prop} (sm : Summarize) {id : String} {p : Projection}
    (hcolumn : ∀ index, p.length ≤ index → P (.columnIndexOutOfRange id index p.length))
    (hsetting : P (.missingSetting id .aggregateColumnIndexes)) :
    (sm.outputs d id p).FailsOnly P := by
  have hsource (index : Nat) : (p.column id index).FailsOnly P :=
    failsOnly_ofOption fun hnone => hcolumn index (by simpa using hnone)
  refine FailsOnly.bind (failsOnly_mapM fun e _ => ?_) fun groups _ =>
    FailsOnly.bind (failsOnly_mapM fun e _ => ?_) fun aggregates _ => failsOnly_pure _
  · exact (hsource e.1).bind fun _ _ => failsOnly_pure _
  · split
    · exact failsOnly_pure _
    · refine (failsOnly_ofOption fun _ => hsetting).bind fun index _ => ?_
      refine (hsource index).bind fun source _ => ?_
      cases e.1 with
      | median => exact FailsOnly.bind (failsOnly_of_ok rfl) fun _ _ => failsOnly_pure _
      | _ => exact failsOnly_pure _

theorem settings_of_empty_outputs {sm : Summarize} {id : String} {p : Projection}
    {o : Summarize.Outputs} (h : (sm.outputs d id p).result = .ok o) (hnil : o.all = []) :
    sm.groupByColumnIndexes = [] ∧ sm.aggregateFunctions = [] := by
  simp only [Summarize.outputs, bind_eq_ok, pure_eq_ok] at h
  obtain ⟨groups, hgroups, aggregates, haggregates, rfl⟩ := h
  obtain ⟨rfl, rfl⟩ := List.append_eq_nil_iff.mp hnil
  exact ⟨by simpa using eq_nil_of_mapM hgroups, by simpa using eq_nil_of_mapM haggregates⟩

/-- A query fails by what is wrong with its node, if its inputs fail by what is wrong with them. -/
theorem failsOnly_query_of_read
    (hread : ∀ m, n.Reads m → ∀ mode, (m.read d s mode).FailsOnly (Blames d n)) :
    (n.query d s).FailsOnly (Blames d n) := by
  have hprojection {m : Node} (hm : (n.input 0).result = .ok m) :
      (m.projection d).FailsOnly (Blames d n) :=
    failsOnly_of_input hm failsOnly_projection
  rw [query, queryStep]
  cases hop : n.operation with
  | tableSource t =>
    refine (failsOnly_requireColumns hop).bind fun _ _ => FailsOnly.bind ?_ fun _ _ =>
      failsOnly_pure _
    exact (failsOnly_requireColumns hop).bind fun _ _ => failsOnly_pure _
  | select st =>
    refine failsOnly_reachAt (by simp [hop, arity]) fun m hm => ?_
    refine (hprojection hm).bind fun p hp => ?_
    have hpicks : ((st.picks p.length).mapM fun pick => m.column d pick.index).FailsOnly
        (Blames d n) := by
      refine failsOnly_mapM fun pick hpick => ?_
      obtain ⟨x, hx⟩ := exists_column hp (Select.lt_of_mem_picks hpick)
      exact failsOnly_of_ok hx
    have hfirst := inputProjection_eq_ok.mpr ⟨m, hm, hp⟩
    refine failsOnly_guarded (fun hempty =>
      (Defect.selection hop hfirst (by simpa using hempty)).blames) fun _ => ?_
    refine hpicks.bind fun _ _ => ?_
    exact (hread m (reads_of_input hm) .spliced).bind fun _ _ => failsOnly_pure _
  | filter f =>
    refine failsOnly_reachAt (by simp [hop, arity]) fun m hm => ?_
    refine (hread m (reads_of_input hm) (.whole none)).bind fun src _ => ?_
    exact (failsOnly_predicate hop hm).bind fun _ _ => failsOnly_pure _
  | sort st =>
    refine failsOnly_reachAt (by simp [hop, arity]) fun m hm => ?_
    exact (hread m (reads_of_input hm) (.whole none)).bind fun src _ => failsOnly_pure _
  | join j =>
    dsimp only
    cases hshape : j.joinType.shape? with
    | some shape => exact failsOnly_joinQuery hop (keyed_of_shape? hshape) hread
    | none =>
      have hkeyed : j.joinType ≠ .cross := by
        intro hcross
        rw [hcross] at hshape
        cases hshape
      refine (failsOnly_joinQuery hop (fun _ _ => hkeyed) hread).bind fun _ _ => ?_
      exact (failsOnly_joinQuery hop (fun _ _ => hkeyed) hread).bind fun _ _ => failsOnly_pure _
  | append a =>
    have used : 0 < (arity n.operation).least := by simp [hop, arity]
    refine failsOnly_projection.bind fun out _ => ?_
    refine (failsOnly_mapM_reach used).bind fun rs hrs => ?_
    obtain ⟨ms, hms, rfl⟩ := Slot.mapM_reach_eq_ok.mp hrs
    refine FailsOnly.bind (failsOnly_mapM fun input hinput => ?_) fun qs hqs => ?_
    · obtain ⟨m, hm, rfl⟩ := List.mem_map.mp hinput
      have hreads := reads_of_mem hms hm
      refine (failsOnly_above hreads failsOnly_projection).bind fun available _ => ?_
      exact (hread m hreads (.whole none)).bind fun _ _ => failsOnly_pure _
    · cases qs with
      | nil =>
        have hnil := eq_nil_of_mapM hqs
        exact failsOnly_noInputs used (by simpa [hms] using hnil)
      | cons q qs => exact failsOnly_pure _
  | summarize sm =>
    refine failsOnly_reachAt (by simp [hop, arity]) fun m hm => ?_
    refine (hprojection hm).bind fun p hp => ?_
    have hfirst := inputProjection_eq_ok.mpr ⟨m, hm, hp⟩
    refine FailsOnly.bind (fun e he => (Defect.summary hop hfirst he).blames) fun o ho => ?_
    refine failsOnly_guarded (fun hempty => ?_) fun _ => ?_
    · obtain ⟨hgroups, haggregates⟩ := settings_of_empty_outputs ho (by simpa using hempty)
      exact (Defect.emptySummary hop hgroups haggregates).blames
    · exact (hread m (reads_of_input hm) (.whole none)).bind fun _ _ => failsOnly_pure _
  | extract x =>
    refine failsOnly_reachAt (by simp [hop, arity]) fun m hm => ?_
    refine (hprojection hm).bind fun p hp => ?_
    refine (failsOnly_slice hop hm hp).bind fun _ _ => ?_
    exact (hread m (reads_of_input hm) (.whole none)).bind fun _ _ => failsOnly_pure _
  | chartProjection c =>
    refine failsOnly_reachAt (by simp [hop, arity]) fun m hm => ?_
    refine (hprojection hm).bind fun p hp => ?_
    have hfirst := inputProjection_eq_ok.mpr ⟨m, hm, hp⟩
    refine FailsOnly.bind (fun e he => (Defect.chart hop hfirst he).blames) fun picks _ => ?_
    exact (hread m (reads_of_input hm) (.whole none)).bind fun _ _ => failsOnly_pure _

/-- However a node is read, an error comes from it or from below it. -/
theorem failsOnly_read (mode : Mode) : (n.read d s mode).FailsOnly (Blames d n) := by
  induction n using reads_induction generalizing mode with
  | step n ih =>
    have hread (m : Node) (hm : n.Reads m) (mode : Mode) :
        (m.read d s mode).FailsOnly (Blames d n) := failsOnly_above hm (ih m hm mode)
    have hwhole (range : Option String) :
        (wholeStep d s n (n.readers d s) range).FailsOnly (Blames d n) := by
      cases s with
      | commonTableExpressions => exact failsOnly_ok _
      | inline => exact (failsOnly_query_of_read hread).bind fun _ _ => failsOnly_pure _
    rw [read_eq]
    cases mode with
    | whole range => exact hwhole range
    | spliced =>
      rw [readStep]
      cases hop : n.operation with
      | tableSource t => exact (failsOnly_requireColumns hop).bind fun _ _ => failsOnly_pure _
      | join j =>
        dsimp only
        cases hshape : j.joinType.shape? with
        | some shape => exact failsOnly_joinSource hop (keyed_of_shape? hshape) hread
        | none => exact hwhole none
      | _ => exact hwhole none

theorem failsOnly_query : (n.query d s).FailsOnly (Blames d n) :=
  failsOnly_query_of_read fun _ hm mode => failsOnly_above hm (failsOnly_read mode)

theorem failsOnly_dependencies : (n.dependencies d s).FailsOnly (Blames d n) := by
  have hread (m : Node) (hm : n.Reads m) (mode : Mode) :
      (m.read d s mode).FailsOnly (Blames d n) := failsOnly_above hm (failsOnly_read mode)
  rw [dependencies]
  cases hop : n.operation with
  | tableSource t => exact failsOnly_ok _
  | select st =>
    refine failsOnly_reachAt (by simp [hop, arity]) fun m hm => ?_
    exact (hread m (reads_of_input hm) .spliced).bind fun _ _ => failsOnly_pure _
  | join j =>
    refine failsOnly_reachAt (by simp [hop, arity]) fun l hl => ?_
    refine (hread l (reads_of_input hl) .spliced).bind fun _ _ => ?_
    refine failsOnly_reachAt (by simp [hop, arity]) fun r hr => ?_
    exact (failsOnly_rightSource hl hr hread).bind fun _ _ => failsOnly_pure _
  | _ => exact failsOnly_allInputs (by simp [hop, arity])

end Queries

section Orders

theorem failsOnly_prepend {P : CompileError → Prop}
    {block : Node → Blocks → Outcome (List Node × Blocks)} {ns : List Node}
    (h : ∀ m ∈ ns, ∀ known, (block m known).FailsOnly P) (order : List Node) (known : Blocks) :
    (prepend block ns order known).FailsOnly P := by
  induction ns generalizing order known with
  | nil => exact failsOnly_ok _
  | cons n ns ih =>
    rw [prepend]
    refine (h n (by simp) known).bind fun r _ => ?_
    exact ih (fun m hm => h m (by simp [hm])) _ _

/-- A walk that is given enough depth is never cut off: it fails only where the dependencies of a
node that it comes to do. -/
theorem failsOnly_frontBlock {P : CompileError → Prop} {depth : Nat} (hw : n.Within depth)
    (h : ∀ m, ReflTransGen (DependsOn d s) n m → (m.dependencies d s).FailsOnly P)
    (known : Blocks) : (frontBlock d s depth n known).FailsOnly P := by
  induction depth generalizing n known with
  | zero => exact hw.elim
  | succ depth ih =>
    rw [frontBlock]
    split
    · exact failsOnly_ok _
    · refine (h n .refl).bind fun ds hds => ?_
      refine FailsOnly.bind (failsOnly_prepend (fun m hm known => ?_) _ _) fun _ _ =>
        failsOnly_pure _
      exact ih (within_of_mem_dependencies hw hds m hm) (fun k hk => h k (.head ⟨ds, hds, hm⟩ hk))
        known

theorem failsOnly_dependencyOrder {P : CompileError → Prop} {depth : Nat}
    (hw : n.Within (depth + 1))
    (h : ∀ m, ReflTransGen (DependsOn d s) n m → (m.dependencies d s).FailsOnly P) :
    (n.dependencyOrder d s depth).FailsOnly P := by
  refine (h n .refl).bind fun ds hds => ?_
  refine FailsOnly.bind (failsOnly_prepend (fun m hm known => ?_) _ _) fun _ _ => failsOnly_pure _
  exact failsOnly_frontBlock (within_of_mem_dependencies hw hds m hm)
    (fun k hk => h k (.head ⟨ds, hds, hm⟩ hk)) known

theorem blames_dependencyOrder {depth : Nat} (hw : n.Within (depth + 1)) :
    (n.dependencyOrder d s depth).FailsOnly (Blames d n) := by
  refine failsOnly_dependencyOrder hw fun m hm => failsOnly_dependencies.mono fun _ => ?_
  exact Blames.above (below_of_reaches hm)

/-- The nodes that are defined lie below the target. -/
theorem below_of_mem_order {nodes : List Node} (hc : Complete nodes) {target : Node}
    (ht : target ∈ nodes) {depth : Nat} {order : List Node}
    (h : (target.dependencyOrder d s depth).result = .ok order) :
    ∀ m ∈ order, ReflTransGen Reads target m := by
  intro m hm
  obtain ⟨ds, hds, hcovers⟩ := dependencyOrder_covers hc ht h
  have hbelow := (transGen_dependsOn_iff hds).mpr ((hcovers.mem_iff m).mp hm)
  exact (below_of_transGen_dependsOn hbelow).to_reflTransGen

theorem failsOnly_definitions {nodes : List Node}
    (h : ∀ m ∈ nodes, ReflTransGen Reads n m) : (definitions d nodes).FailsOnly (Blames d n) := by
  refine failsOnly_mapM fun m hm => ?_
  exact (failsOnly_query.mono fun _ => Blames.above (h m hm)).bind fun _ _ => failsOnly_pure _

/-- A statement that counts rows fails by what is wrong with its target or below it. -/
theorem failsOnly_count {nodes : List Node} (hc : Complete nodes) {target : Node}
    (ht : target ∈ nodes) {depth : Nat} (hw : target.Within (depth + 1)) :
    (target.count d s depth).FailsOnly (Blames d target) := by
  refine failsOnly_query.bind fun q _ => ?_
  cases s with
  | inline => exact failsOnly_pure _
  | commonTableExpressions =>
    refine (blames_dependencyOrder hw).bind fun order horder => ?_
    exact (failsOnly_definitions (below_of_mem_order hc ht horder)).bind fun _ _ => failsOnly_pure _

/-- A sort at the node or below it asks for a column that its input does not have. -/
inductive SortFailure (d : Dialect) (n : Node) : CompileError → Prop
  | intro {m : Node} {st : Sorting} {p : Projection} {index : Nat}
      (below : ReflTransGen Reads n m) (op : m.operation = .sort st)
      (input : (m.inputProjection d 0).result = .ok p) (asked : index ∈ st.sortColumns)
      (missing : p.length ≤ index) : SortFailure d n (.columnIndexOutOfRange m.id index p.length)

theorem SortFailure.above (hr : n.Reads m) (h : SortFailure d m e) : SortFailure d n e := by
  cases h with
  | intro below op input asked missing => exact .intro (.head hr below) op input asked missing

theorem failsOnly_sortKey :
    (n.sortKey d).FailsOnly fun e => Blames d n e ∨ SortFailure d n e := by
  induction n using reads_induction with
  | step n ih =>
    have hkey {m : Node} (hm : (n.input 0).result = .ok m) :
        (m.sortKey d).FailsOnly fun e => Blames d n e ∨ SortFailure d n e :=
      (ih m (reads_of_input hm)).mono fun e he =>
        he.imp (Blames.above (.single (reads_of_input hm))) (SortFailure.above (reads_of_input hm))
    have hinput (hone : arity n.operation = .one) :
        (n.input 0).FailsOnly fun e => Blames d n e ∨ SortFailure d n e :=
      (failsOnly_input (by simp [hone])).mono fun _ => .inl
    have hprojection (hone : arity n.operation = .one) :
        (n.inputProjection d 0).FailsOnly fun e => Blames d n e ∨ SortFailure d n e :=
      (failsOnly_inputProjection (by simp [hone]) fun m _ => failsOnly_projection).mono
        fun _ => .inl
    rw [sortKey_eq]
    cases hop : n.operation with
    | select st =>
      refine (hinput (by simp [hop, arity])).bind fun m hm => ?_
      refine FailsOnly.bind ?_ fun p _ => (hkey hm).bind fun _ _ => failsOnly_pure _
      exact (failsOnly_of_input hm failsOnly_projection).mono fun _ => .inl
    | filter f => exact (hinput (by simp [hop, arity])).bind fun m hm => hkey hm
    | extract x => exact (hinput (by simp [hop, arity])).bind fun m hm => hkey hm
    | sort st =>
      dsimp only
      unfold Sorting.key
      split
      · exact failsOnly_ok _
      · refine (hprojection (by simp [hop, arity])).bind fun p hp => ?_
        unfold Sorting.keyOver
        split
        · rename_i i hfind
          refine failsOnly_fail (.inr (.intro .refl hop hp (List.mem_of_find?_eq_some hfind) ?_))
          simpa using List.find?_some hfind
        · exact failsOnly_ok _
    | chartProjection c =>
      refine (hinput (by simp [hop, arity])).bind fun m hm => ?_
      refine FailsOnly.bind ?_ fun follows _ => ?_
      · unfold ChartProjection.followsAxis
        split
        · exact (hprojection (by simp [hop, arity])).bind fun _ _ => failsOnly_pure _
        · exact failsOnly_ok _
      · split
        · exact failsOnly_pure _
        · refine (hkey hm).bind fun key _ => ?_
          refine (hprojection (by simp [hop, arity])).bind fun p hp => ?_
          exact FailsOnly.bind (fun e he => .inl (Defect.chart hop hp he).blames) fun _ _ =>
            failsOnly_pure _
    | _ => exact failsOnly_ok _

/-- What may go wrong with the order of the rows that are fetched, or with the page. -/
inductive OrderFailure (d : Dialect) (s : Strategy) (target : Node) (page : Option Page) :
    CompileError → Prop
  | sort {e : CompileError} (below : SortFailure d target e) : OrderFailure d s target page e
  | noColumns (none : (target.projection d).result = .ok []) :
      OrderFailure d s target page (.columnIndexOutOfRange target.id 0 0)
  | page {q : Page} (numbered : s = .commonTableExpressions) (asked : page = some q)
      (past : q.window? = none) : OrderFailure d s target page (.pageOutOfRange q.offset q.limit)

theorem failsOnly_checkedSortKey {p : Projection} (hp : (n.projection d).result = .ok p)
    (page : Option Page) : (n.checkedSortKey d p.length).FailsOnly fun e =>
      Blames d n e ∨ OrderFailure d s n page e := by
  intro e he
  cases hkey : (n.sortKey d).result with
  | ok k =>
    obtain ⟨rfl, rfl⟩ := (checkedSortKey_eq_error_iff hkey hp).mp he
    exact .inr (.noColumns hp)
  | error e' =>
    simp only [checkedSortKey, bind_eq_error, hkey, Except.error.injEq, reduceCtorEq, false_and,
      exists_false, or_false] at he
    subst he
    exact (failsOnly_sortKey e' hkey).imp_right .sort

/-- A statement for rows fails as one that counts them does, or by their order or the page. -/
theorem failsOnly_fetch {nodes : List Node} (hc : Complete nodes) {target : Node}
    (ht : target ∈ nodes) {depth : Nat} (hw : target.Within (depth + 1)) (page : Option Page) :
    (target.fetch d s depth page).FailsOnly fun e =>
      Blames d target e ∨ OrderFailure d s target page e := by
  refine (failsOnly_projection.mono fun _ => .inl).bind fun p hp => ?_
  refine (failsOnly_checkedSortKey hp page).bind fun key _ => ?_
  cases s with
  | inline => exact (failsOnly_query.mono fun _ => .inl).bind fun _ _ => failsOnly_pure _
  | commonTableExpressions =>
    refine ((blames_dependencyOrder hw).mono fun _ => .inl).bind fun order horder => ?_
    have hbelow : ∀ m ∈ order ++ [target], ReflTransGen Reads target m := by
      intro m hm
      rcases List.mem_append.mp hm with hm | hm
      · exact below_of_mem_order hc ht horder m hm
      · rw [List.mem_singleton.mp hm]
    refine ((failsOnly_definitions hbelow).mono fun _ => .inl).bind fun rows _ => ?_
    cases page with
    | none => exact failsOnly_pure _
    | some q =>
      exact FailsOnly.bind (failsOnly_ofOption fun hnone => .inr (.page rfl rfl hnone))
        fun _ _ => failsOnly_pure _

end Orders

end Node

end DataflowSql

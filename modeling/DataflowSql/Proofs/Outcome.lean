import Mathlib.Data.List.Forall2
import DataflowSql.Outcome

/-! When an outcome has a result. Warnings never decide that, so every statement here is about
`result` alone. -/
namespace DataflowSql.Outcome

variable {α β : Type}

theorem map_id (x : Outcome α) : id <$> x = x := by
  rcases x with ⟨ws, _ | a⟩ <;> simp [Functor.map, bind, ok]

theorem bind_assoc {γ : Type} (x : Outcome α) (f : α → Outcome β) (g : β → Outcome γ) :
    x >>= f >>= g = x >>= fun a => f a >>= g := by
  rcases x with ⟨ws, _ | a⟩
  · rfl
  · simp only [Bind.bind, bind]
    cases (f a).result <;> simp

instance : LawfulMonad Outcome :=
  LawfulMonad.mk' Outcome map_id (fun a f => by simp [Pure.pure, Bind.bind, bind, ok]) bind_assoc

theorem result_unique {x : Outcome α} {a b : α} (ha : x.result = .ok a) (hb : x.result = .ok b) :
    a = b := by
  rw [ha] at hb
  exact Except.ok.inj hb

@[simp] theorem ok_eq_ok {a b : α} : (ok a).result = .ok b ↔ a = b := by
  simp [ok]

@[simp] theorem pure_eq_ok {a b : α} : (pure a : Outcome α).result = .ok b ↔ a = b :=
  ok_eq_ok

@[simp] theorem fail_ne_ok {e : CompileError} {a : α} : (fail e : Outcome α).result ≠ .ok a := by
  simp [fail]

theorem toOption_eq_some {x : Outcome α} {a : α} :
    x.result.toOption = some a ↔ x.result = .ok a := by
  cases x.result <;> simp [Except.toOption]

/-- A step after another one has a result exactly when both have. -/
@[simp] theorem bind_eq_ok {x : Outcome α} {f : α → Outcome β} {b : β} :
    (x >>= f).result = .ok b ↔ ∃ a, x.result = .ok a ∧ (f a).result = .ok b := by
  change (bind x f).result = .ok b ↔ _
  unfold bind
  cases h : x.result <;> simp

theorem bind_congr {x : Outcome α} {f g : α → Outcome β}
    (h : ∀ a, x.result = .ok a → f a = g a) : x >>= f = x >>= g := by
  change bind x f = bind x g
  unfold bind
  cases hx : x.result with
  | error e => rfl
  | ok a => simp only [h a hx]

theorem result_bind_of_ok {x : Outcome α} {a : α} (h : x.result = .ok a) (f : α → Outcome β) :
    (x >>= f).result = (f a).result := by
  change (bind x f).result = (f a).result
  simp only [bind, h]

theorem result_bind_congr {x : Outcome α} {f g : α → Outcome β}
    (h : ∀ a, x.result = .ok a → (f a).result = (g a).result) :
    (x >>= f).result = (x >>= g).result := by
  change (bind x f).result = (bind x g).result
  unfold bind
  cases hx : x.result with
  | error e => rfl
  | ok a => simp only [h a hx]

@[simp] theorem ofOption_eq_ok {e : CompileError} {o : Option α} {a : α} :
    (ofOption e o).result = .ok a ↔ o = some a := by
  cases o <;> simp [ofOption]

/-- A check in front of the rest of the work. -/
@[simp] theorem guarded_eq_ok {c : Prop} [Decidable c] {e : CompileError} {f : α → Outcome β}
    {x : Outcome β} {b : β} :
    (if c then fail e >>= f else x).result = .ok b ↔ ¬c ∧ x.result = .ok b := by
  split <;> simp [*]

@[simp] theorem ok_ne_error {a : α} {e : CompileError} : (ok a).result ≠ .error e := by
  simp [ok]

@[simp] theorem pure_ne_error {a : α} {e : CompileError} :
    (pure a : Outcome α).result ≠ .error e :=
  ok_ne_error

@[simp] theorem fail_eq_error {e e' : CompileError} :
    (fail e : Outcome α).result = .error e' ↔ e = e' := by
  simp [fail]

/-- A step after another one fails when either does. -/
@[simp] theorem bind_eq_error {x : Outcome α} {f : α → Outcome β} {e : CompileError} :
    (x >>= f).result = .error e ↔
      x.result = .error e ∨ ∃ a, x.result = .ok a ∧ (f a).result = .error e := by
  change (bind x f).result = .error e ↔ _
  unfold bind
  cases h : x.result <;> simp

theorem result_bind_pure (x : Outcome α) (f : α → β) :
    (x >>= fun a => pure (f a)).result = x.result.map f := by
  cases h : x.result with
  | error e => exact bind_eq_error.mpr (.inl h)
  | ok a =>
    rw [result_bind_of_ok h]
    rfl

theorem result_bind_of_result {x y : Outcome α} (h : x.result = y.result) (f : α → Outcome β) :
    (x >>= f).result = (y >>= f).result := by
  cases hy : y.result with
  | error e => rw [bind_eq_error.mpr (.inl hy), bind_eq_error.mpr (.inl (h.trans hy))]
  | ok a => rw [result_bind_of_ok hy, result_bind_of_ok (h.trans hy)]

@[simp] theorem ofOption_eq_error {e e' : CompileError} {o : Option α} :
    (ofOption e o).result = .error e' ↔ o = none ∧ e = e' := by
  cases o <;> simp [ofOption]

theorem mapM_congr {f g : α → Outcome β} {xs : List α} (h : ∀ x ∈ xs, f x = g x) :
    xs.mapM f = xs.mapM g := by
  induction xs with
  | nil => rfl
  | cons x xs ih =>
    rw [List.mapM_cons, List.mapM_cons, h x List.mem_cons_self,
      ih fun y hy => h y (List.mem_cons_of_mem x hy)]

theorem mapM_eq_ok {f : α → Outcome β} {xs : List α} {ys : List β} :
    (xs.mapM f).result = .ok ys ↔ List.Forall₂ (fun x y => (f x).result = .ok y) xs ys := by
  induction xs generalizing ys with
  | nil =>
    rw [List.mapM_nil, pure_eq_ok, List.forall₂_nil_left_iff]
    exact eq_comm
  | cons x xs ih =>
    rw [List.mapM_cons]
    simp only [bind_eq_ok, ih, pure_eq_ok, List.forall₂_cons_left_iff]
    constructor
    · intro h
      obtain ⟨y, hy, ys', hys, rfl⟩ := h
      exact ⟨y, ys', hy, hys, rfl⟩
    · intro h
      obtain ⟨y, ys', hy, hys, rfl⟩ := h
      exact ⟨y, hy, ys', hys, rfl⟩

theorem exists_of_mem_mapM {f : α → Outcome β} {xs : List α} {ys : List β}
    (h : (xs.mapM f).result = .ok ys) : ∀ y ∈ ys, ∃ x ∈ xs, (f x).result = .ok y := by
  rw [mapM_eq_ok] at h
  induction h with
  | nil => simp
  | cons hxy _ ih =>
    intro y hy
    rcases List.mem_cons.mp hy with rfl | hy
    · exact ⟨_, by simp, hxy⟩
    · obtain ⟨x, hx, hxy⟩ := ih y hy
      exact ⟨x, by simp [hx], hxy⟩

theorem exists_mem_of_mapM {f : α → Outcome β} {xs : List α} {ys : List β}
    (h : (xs.mapM f).result = .ok ys) : ∀ x ∈ xs, ∃ y ∈ ys, (f x).result = .ok y := by
  rw [mapM_eq_ok] at h
  induction h with
  | nil => simp
  | cons hxy _ ih =>
    intro x hx
    rcases List.mem_cons.mp hx with rfl | hx
    · exact ⟨_, by simp, hxy⟩
    · obtain ⟨y, hy, hxy⟩ := ih x hx
      exact ⟨y, by simp [hy], hxy⟩

/-- A pass over positions, one result for each. -/
theorem mapM_range_eq_ok {f : Nat → Outcome β} {count : Nat} {ys : List β} :
    ((List.range count).mapM f).result = .ok ys ↔
      ys.length = count ∧ ∀ i y, ys[i]? = some y → (f i).result = .ok y := by
  rw [mapM_eq_ok, List.forall₂_iff_get]
  constructor
  · intro h
    obtain ⟨hlength, hget⟩ := h
    rw [List.length_range] at hlength
    refine ⟨hlength.symm, fun i y hy => ?_⟩
    obtain ⟨hlt, rfl⟩ := List.getElem?_eq_some_iff.mp hy
    simpa using hget i (by simpa [hlength] using hlt) hlt
  · intro h
    obtain ⟨hlength, hget⟩ := h
    refine ⟨by simp [hlength], fun i _ hlt => ?_⟩
    simpa using hget i _ (List.getElem?_eq_getElem hlt)

/-- A pass over values that are known beforehand. -/
theorem mapM_eq_filterMap {f : α → Outcome β} {g : α → Option β} {xs : List α}
    (h : ∀ x ∈ xs, ∃ y, g x = some y ∧ (f x).result = .ok y) :
    (xs.mapM f).result = .ok (xs.filterMap g) := by
  induction xs with
  | nil => simp
  | cons x xs ih =>
    obtain ⟨y, hg, hf⟩ := h x (by simp)
    rw [List.filterMap_cons_some hg, List.mapM_cons]
    simp only [bind_eq_ok, pure_eq_ok]
    exact ⟨y, hf, _, ih fun z hz => h z (by simp [hz]), rfl⟩

/-- A split of the results is a split of what they come from. -/
theorem split_of_mapM {f : α → Outcome β} {xs : List α} {before after : List β} {y : β}
    (h : (xs.mapM f).result = .ok (before ++ y :: after)) :
    ∃ xs₁ x xs₂, xs = xs₁ ++ x :: xs₂ ∧ (xs₁.mapM f).result = .ok before ∧
      (f x).result = .ok y := by
  induction xs generalizing before with
  | nil => simp at h
  | cons x xs ih =>
    simp only [List.mapM_cons, bind_eq_ok, pure_eq_ok] at h
    obtain ⟨z, hz, zs, hzs, he⟩ := h
    cases before with
    | nil =>
      rw [List.nil_append, List.cons.injEq] at he
      obtain ⟨rfl, rfl⟩ := he
      exact ⟨[], x, xs, rfl, by simp, hz⟩
    | cons b before =>
      rw [List.cons_append, List.cons.injEq] at he
      obtain ⟨rfl, rfl⟩ := he
      obtain ⟨xs₁, x', xs₂, rfl, h₁, hy⟩ := ih hzs
      refine ⟨x :: xs₁, x', xs₂, rfl, ?_, hy⟩
      simp only [List.mapM_cons, bind_eq_ok, pure_eq_ok]
      exact ⟨z, hz, before, h₁, rfl⟩

/-- Two passes over a list succeed where one pass that makes both steps does. -/
theorem mapM_bind_eq_ok {γ : Type} {f : α → Outcome β} {g : β → Outcome γ} {xs : List α}
    {zs : List γ} :
    (xs.mapM fun x => f x >>= g).result = .ok zs ↔
      ∃ ys, (xs.mapM f).result = .ok ys ∧ (ys.mapM g).result = .ok zs := by
  induction xs generalizing zs with
  | nil => simp
  | cons x xs ih =>
    simp only [List.mapM_cons, bind_eq_ok, ih, pure_eq_ok]
    constructor
    · intro h
      obtain ⟨z, ⟨y, hy, hz⟩, zs', ⟨ys, hys, hzs⟩, rfl⟩ := h
      refine ⟨_, ⟨y, hy, ys, hys, rfl⟩, ?_⟩
      simp only [List.mapM_cons, bind_eq_ok, pure_eq_ok]
      exact ⟨z, hz, zs', hzs, rfl⟩
    · intro h
      obtain ⟨_, ⟨y, hy, ys, hys, rfl⟩, h⟩ := h
      simp only [List.mapM_cons, bind_eq_ok, pure_eq_ok] at h
      obtain ⟨z, hz, zs', hzs, rfl⟩ := h
      exact ⟨z, ⟨y, hy, hz⟩, zs', ⟨ys, hys, hzs⟩, rfl⟩

section Positions

variable {f : α × Nat → Outcome β} {xs : List α}

theorem mapM_zipIdx_eq_ok {ys : List β} :
    (xs.zipIdx.mapM f).result = .ok ys ↔ ys.length = xs.length ∧
      ∀ (k : Nat) x y, xs[k]? = some x → ys[k]? = some y → (f (x, k)).result = .ok y := by
  rw [mapM_eq_ok, List.forall₂_iff_get]
  constructor
  · intro h
    obtain ⟨hlength, hget⟩ := h
    refine ⟨hlength.symm.trans List.length_zipIdx, fun k x y hx hy => ?_⟩
    obtain ⟨hk, rfl⟩ := List.getElem?_eq_some_iff.mp hx
    obtain ⟨hk', rfl⟩ := List.getElem?_eq_some_iff.mp hy
    simpa using hget k (by simpa using hk) hk'
  · intro h
    obtain ⟨hlength, hget⟩ := h
    refine ⟨List.length_zipIdx.trans hlength.symm, fun k hk hk' => ?_⟩
    have hx := List.getElem?_eq_getElem (List.length_zipIdx ▸ hk)
    simpa using hget k _ _ hx (List.getElem?_eq_getElem hk')

/-- Work on every entry of a list gives what a table says, if each of its steps does. -/
theorem mapM_zipIdx_eq_table {table : Nat → Option β}
    (hstep : ∀ (k : Nat) x y, xs[k]? = some x → ((f (x, k)).result = .ok y ↔ table k = some y))
    (hbeyond : ∀ k, xs.length ≤ k → table k = none) {ys : List β} :
    (xs.zipIdx.mapM f).result = .ok ys ↔ ys.length = xs.length ∧ ∀ k : Nat, ys[k]? = table k := by
  rw [mapM_zipIdx_eq_ok]
  refine and_congr_right fun hlength => ?_
  constructor
  · intro h k
    by_cases hk : k < xs.length
    · have hx := List.getElem?_eq_getElem hk
      have hy := List.getElem?_eq_getElem (hlength ▸ hk)
      rw [hy, (hstep k _ _ hx).mp (h k _ _ hx hy)]
    · have hk := Nat.le_of_not_lt hk
      rw [hbeyond k hk, List.getElem?_eq_none (hlength ▸ hk)]
  · intro h k x y hx hy
    rw [hstep k x y hx, ← h k, hy]

theorem exists_mapM_zipIdx_iff :
    (∃ ys, (xs.zipIdx.mapM f).result = .ok ys) ↔
      ∀ (k : Nat) x, xs[k]? = some x → ∃ y, (f (x, k)).result = .ok y := by
  constructor
  · intro h k x hx
    obtain ⟨ys, hys⟩ := h
    obtain ⟨y, _, hy⟩ := exists_mem_of_mapM hys (x, k) (List.mk_mem_zipIdx_iff_getElem?.mpr hx)
    exact ⟨y, hy⟩
  · intro h
    refine ⟨_, mapM_eq_filterMap (g := fun e => (f e).result.toOption) fun e he => ?_⟩
    obtain ⟨y, hy⟩ := h e.2 e.1 (List.mk_mem_zipIdx_iff_getElem?.mp he)
    exact ⟨y, toOption_eq_some.mpr hy, hy⟩

end Positions

end DataflowSql.Outcome

theorem DataflowSql.Projection.column_eq_ok {p : Projection} {id : String} {k : Nat} {c : Column} :
    (p.column id k).result = .ok c ↔ p[k]? = some c := Outcome.ofOption_eq_ok

import Mathlib.Algebra.Order.Field.Power
import Mathlib.Algebra.Order.Group.Unbundled.Abs
import Mathlib.Data.Rat.Cast.Order
import Mathlib.Tactic.FieldSimp
import Mathlib.Tactic.Linarith
import Mathlib.Tactic.NormNum
import Mathlib.Tactic.Positivity
import Mathlib.Tactic.Ring
import DataflowSql.Number.Numeral

/-! Decimal literals and the numbers they stand for. A text counts as a number exactly when it is a
literal of the grammar below and its value stays under the bound in size. -/
namespace DataflowSql.Number

def Digits (ds : List Char) : Prop := ∀ c ∈ ds, c.isDigit = true

/-- An optional sign, as a factor. -/
inductive SignText : List Char → ℤ → Prop
  | none : SignText [] 1
  | plus : SignText ['+'] 1
  | minus : SignText ['-'] (-1)

/-- At least one digit, and at most one point anywhere among the digits. -/
inductive MantissaText : List Char → ℚ → Prop
  | whole {ds : List Char} (digits : Digits ds) (some : ds ≠ []) :
      MantissaText ds (natOfDigits ds)
  | pointed {ws fs : List Char} (whole : Digits ws) (fraction : Digits fs)
      (some : ws ++ fs ≠ []) :
      MantissaText (ws ++ '.' :: fs) (natOfDigits (ws ++ fs) / 10 ^ fs.length)

/-- An optional exponent, which may have a sign of its own. -/
inductive ExponentText : List Char → ℤ → Prop
  | none : ExponentText [] 0
  | marked {mark : Char} {sign ds : List Char} {s : ℤ} (isMark : mark = 'e' ∨ mark = 'E')
      (hs : SignText sign s) (digits : Digits ds) (some : ds ≠ []) :
      ExponentText (mark :: (sign ++ ds)) (s * natOfDigits ds)

/-- A decimal literal without its sign, and its value. -/
inductive Magnitude : List Char → ℚ → Prop
  | mk {mantissa exponent : List Char} {m : ℚ} {e : ℤ} (hm : MantissaText mantissa m)
      (he : ExponentText exponent e) : Magnitude (mantissa ++ exponent) (m * 10 ^ e)

/-- A decimal literal, and its value. -/
inductive Decimal : List Char → ℚ → Prop
  | mk {sign body : List Char} {s : ℤ} {q : ℚ} (hs : SignText sign s) (hq : Magnitude body q) :
      Decimal (sign ++ body) (s * q)

theorem Magnitude.whole {ds : List Char} (hds : Digits ds) (hne : ds ≠ []) :
    Magnitude ds (natOfDigits ds) := by
  simpa using Magnitude.mk (.whole hds hne) .none

theorem Magnitude.pointed {ws fs : List Char} {q : ℚ} (hws : Digits ws) (hfs : Digits fs)
    (hne : ws ++ fs ≠ []) (hq : q = natOfDigits (ws ++ fs) / 10 ^ fs.length) :
    Magnitude (ws ++ '.' :: fs) q := by
  rw [hq]
  simpa using Magnitude.mk (.pointed hws hfs hne) .none

section Digits

variable {c : Char} {cs ds : List Char}

theorem natOfDigits_append (xs ys : List Char) :
    natOfDigits (xs ++ ys) = natOfDigits xs * 10 ^ ys.length + natOfDigits ys := by
  change Nat.ofDigitChars 10 (xs ++ ys) 0 = _
  rw [Nat.ofDigitChars_append, Nat.ofDigitChars_eq_ofDigitChars_zero, Nat.mul_comm]
  rfl

theorem natOfDigits_cons (c : Char) (cs : List Char) :
    natOfDigits (c :: cs) = (c.toNat - '0'.toNat) * 10 ^ cs.length + natOfDigits cs := by
  rw [← List.singleton_append, natOfDigits_append]
  simp [natOfDigits]

theorem natOfDigits_toDigits (n : ℕ) : natOfDigits (Nat.toDigits 10 n) = n :=
  Nat.ofDigitChars_ten_toDigits

theorem digits_toDigits (n : ℕ) : Digits (Nat.toDigits 10 n) :=
  fun _ hc => Nat.isDigit_of_mem_toDigits (by decide) (by decide) hc

theorem toNat_of_isDigit (h : c.isDigit = true) : 48 ≤ c.toNat ∧ c.toNat ≤ 57 := by
  simpa using Char.isDigit_iff_toNat.mp h

theorem natOfDigits_lt (h : Digits ds) : natOfDigits ds < 10 ^ ds.length := by
  induction ds with
  | nil => decide
  | cons c cs ih =>
    have hc := toNat_of_isDigit (h c (by simp))
    have htail := ih fun x hx => h x (by simp [hx])
    have hdigit : c.toNat - '0'.toNat ≤ 9 := by simp; omega
    calc natOfDigits (c :: cs)
      _ = (c.toNat - '0'.toNat) * 10 ^ cs.length + natOfDigits cs := natOfDigits_cons c cs
      _ < 9 * 10 ^ cs.length + 10 ^ cs.length :=
        Nat.add_lt_add_of_le_of_lt (Nat.mul_le_mul_right _ hdigit) htail
      _ = 10 ^ (c :: cs).length := by rw [List.length_cons]; ring

/-- A first digit other than zero counts. -/
theorem le_natOfDigits (hc : c.isDigit = true) (hne : c ≠ '0') :
    10 ^ cs.length ≤ natOfDigits (c :: cs) := by
  have hdigit : 1 ≤ c.toNat - '0'.toNat := by
    have hrange := toNat_of_isDigit hc
    have hzero : c.toNat ≠ '0'.toNat := fun h => hne (Char.toNat_inj.mp h)
    simp at hzero ⊢
    omega
  rw [natOfDigits_cons]
  nlinarith [Nat.zero_le (natOfDigits cs), Nat.one_le_pow cs.length 10 (by decide)]

theorem natOfDigits_dropWhile_zero (ds : List Char) :
    natOfDigits (ds.dropWhile (· = '0')) = natOfDigits ds := by
  induction ds with
  | nil => rfl
  | cons c cs ih =>
    by_cases hc : c = '0'
    · rw [List.dropWhile_cons_of_pos (by simp [hc]), ih, natOfDigits_cons, hc]
      simp
    · rw [List.dropWhile_cons_of_neg (by simp [hc])]

end Digits

section Grammar

variable {cs ds rest : List Char}

/-- A run of digits is taken as far as it goes. -/
theorem takeWhile_digits (hds : Digits ds) (hrest : ∀ c ∈ rest.head?, c.isDigit = false) :
    (ds ++ rest).takeWhile Char.isDigit = ds ∧ (ds ++ rest).dropWhile Char.isDigit = rest := by
  rw [List.takeWhile_append_of_pos hds, List.dropWhile_append_of_pos hds]
  cases rest with
  | nil => simp
  | cons c cs => simp [hrest c rfl]

theorem digits_takeWhile (cs : List Char) : Digits (cs.takeWhile Char.isDigit) :=
  fun _ hc => List.all_eq_true.mp List.all_takeWhile _ hc

theorem digits?_eq_some_iff {n : ℕ} :
    digits? cs = some n ↔ (cs ≠ [] ∧ Digits cs) ∧ natOfDigits cs = n := by
  simp [digits?, Digits, Option.ite_none_left_eq_some]

/-- Nothing that would be taken for a sign stands first. -/
def Unsigned (cs : List Char) : Prop := ∀ c ∈ cs.head?, c ≠ '+' ∧ c ≠ '-'

theorem unsigned_of_head {c : Char} (h : c.isDigit = true ∨ c = '.') : Unsigned (c :: cs) := by
  intro x hx
  obtain rfl : c = x := by simpa using hx
  constructor <;> rintro rfl <;> exact absurd h (by decide)

theorem Digits.unsigned (h : Digits ds) (hne : ds ≠ []) : Unsigned ds := by
  obtain ⟨c, cs, rfl⟩ := List.exists_cons_of_ne_nil hne
  exact unsigned_of_head (.inl (h c (by simp)))

theorem exists_signText (cs : List Char) :
    ∃ sign s, SignText sign s ∧ sign ++ dropSign cs = cs := by
  unfold dropSign
  split
  · exact ⟨['+'], 1, .plus, rfl⟩
  · exact ⟨['-'], -1, .minus, rfl⟩
  · exact ⟨[], 1, .none, rfl⟩

theorem Unsigned.dropSign (h : Unsigned cs) : dropSign cs = cs := by
  cases cs with
  | nil => rfl
  | cons c cs =>
    obtain ⟨hplus, hminus⟩ := h c rfl
    simp [Number.dropSign, hplus, hminus]

theorem SignText.dropSign {sign : List Char} {s : ℤ} (h : SignText sign s) (hcs : Unsigned cs) :
    dropSign (sign ++ cs) = cs := by
  cases h with
  | none => exact hcs.dropSign
  | plus => rfl
  | minus => rfl

theorem SignText.abs_mul {sign : List Char} {s : ℤ} (h : SignText sign s) {q : ℚ} (hq : 0 ≤ q) :
    |s * q| = q := by
  cases h <;> simp [abs_of_nonneg hq]

theorem SignText.factor {sign : List Char} {s : ℤ} (h : SignText sign s) (hcs : Unsigned cs) :
    s = if (sign ++ cs).head? = some '-' then -1 else 1 := by
  cases h with
  | none =>
    rw [List.nil_append, if_neg]
    intro hminus
    exact (hcs _ hminus).2 rfl
  | plus => rfl
  | minus => rfl

theorem signed?_eq (cs : List Char) : signed? cs = (digits? (dropSign cs)).map fun n : ℕ =>
    (if cs.head? = some '-' then -1 else 1 : ℤ) * n := by
  unfold signed?
  cases digits? (dropSign cs) with
  | none => rfl
  | some n => by_cases hminus : cs.head? = some '-' <;> simp [hminus]

theorem signed?_eq_some_iff {e : ℤ} : signed? cs = some e ↔ ∃ sign ds s,
    SignText sign s ∧ (ds ≠ [] ∧ Digits ds) ∧ sign ++ ds = cs ∧ s * natOfDigits ds = e := by
  rw [signed?_eq, Option.map_eq_some_iff]
  constructor
  · rintro ⟨n, hn, rfl⟩
    obtain ⟨hds, rfl⟩ := digits?_eq_some_iff.mp hn
    obtain ⟨sign, s, hs, hcs⟩ := exists_signText cs
    have hfactor := hs.factor (hds.2.unsigned hds.1)
    rw [hcs] at hfactor
    exact ⟨sign, dropSign cs, s, hs, hds, hcs, by rw [hfactor]⟩
  · rintro ⟨sign, ds, s, hs, hds, rfl, rfl⟩
    have hunsigned := hds.2.unsigned hds.1
    refine ⟨natOfDigits ds, digits?_eq_some_iff.mpr ?_, by rw [hs.factor hunsigned]⟩
    rw [hs.dropSign hunsigned]
    exact ⟨hds, rfl⟩

theorem exponent?_eq_some_iff {e : ℤ} : exponent? cs = some e ↔ ExponentText cs e := by
  constructor
  · intro h
    cases cs with
    | nil =>
      cases h
      exact .none
    | cons mark cs =>
      rw [exponent?, Option.ite_none_right_eq_some] at h
      obtain ⟨hmark, h⟩ := h
      obtain ⟨sign, ds, s, hs, ⟨hne, hds⟩, rfl, rfl⟩ := signed?_eq_some_iff.mp h
      exact .marked hmark hs hds hne
  · intro h
    cases h with
    | none => rfl
    | marked hmark hs hds hne =>
      rw [exponent?, if_pos hmark]
      exact signed?_eq_some_iff.mpr ⟨_, _, _, hs, ⟨hne, hds⟩, rfl, rfl⟩

theorem ExponentText.head_ne {e : ℤ} (h : ExponentText cs e) :
    ∀ c ∈ cs.head?, c.isDigit = false ∧ c ≠ '.' := by
  cases h with
  | none => simp
  | marked hmark =>
    intro c hc
    obtain rfl := Option.some.inj hc
    rcases hmark with rfl | rfl <;> decide

/-- Taking a literal apart: the digits before the point, those behind it, and the exponent. -/
theorem mantissaText_split {body fs exponent : List Char}
    (hparts : fractionAndRest (body.dropWhile Char.isDigit) = (fs, exponent))
    (hne : body.takeWhile Char.isDigit ++ fs ≠ []) :
    Digits fs ∧ ∃ mantissa, mantissa ++ exponent = body ∧
      MantissaText mantissa (natOfDigits (body.takeWhile Char.isDigit ++ fs) / 10 ^ fs.length) := by
  have hbody := List.takeWhile_append_dropWhile (p := Char.isDigit) (l := body)
  have hwhole := digits_takeWhile body
  generalize body.takeWhile Char.isDigit = ws at *
  generalize body.dropWhile Char.isDigit = rest at *
  unfold fractionAndRest at hparts
  split at hparts
  · cases hparts
    rename_i cs
    refine ⟨digits_takeWhile cs, ws ++ '.' :: cs.takeWhile Char.isDigit, ?_, ?_⟩
    · rw [← hbody, List.append_assoc, List.cons_append, List.takeWhile_append_dropWhile]
    · exact .pointed hwhole (digits_takeWhile cs) hne
  · cases hparts
    refine ⟨by simp [Digits], ws, hbody, ?_⟩
    rw [List.append_nil] at hne ⊢
    simpa using MantissaText.whole hwhole hne

/-- The number a literal without its sign stands for. -/
def Scaled.value (s : Scaled) : ℚ := natOfDigits s.digits * 10 ^ s.exponent

theorem Scaled.value_nonneg (s : Scaled) : 0 ≤ s.value := by
  rw [Scaled.value]
  positivity

theorem Scaled.value_eq (ds : List Char) (n : ℕ) (e : ℤ) :
    Scaled.value ⟨ds, e - n⟩ = natOfDigits ds / 10 ^ n * 10 ^ e := by
  rw [Scaled.value, zpow_sub₀ (by norm_num), zpow_natCast]
  ring

theorem scaled?_eq_some_iff {t : Scaled} : scaled? cs = some t ↔ ∃ fs exponent e,
    fractionAndRest ((dropSign cs).dropWhile Char.isDigit) = (fs, exponent) ∧
    (dropSign cs).takeWhile Char.isDigit ++ fs ≠ [] ∧ ExponentText exponent e ∧
    ⟨(dropSign cs).takeWhile Char.isDigit ++ fs, e - fs.length⟩ = t := by
  generalize hparts : fractionAndRest ((dropSign cs).dropWhile Char.isDigit) = parts
  obtain ⟨fs, exponent⟩ := parts
  simp only [scaled?, hparts, Option.ite_none_left_eq_some, Option.map_eq_some_iff,
    exponent?_eq_some_iff]
  simp

theorem decimal_of_scaled? {t : Scaled} (h : scaled? cs = some t) :
    Digits t.digits ∧ ∃ q, Decimal cs q ∧ t.value = |q| := by
  obtain ⟨fs, exponent, e, hparts, hne, he, rfl⟩ := scaled?_eq_some_iff.mp h
  obtain ⟨sign, s, hs, hcs⟩ := exists_signText cs
  obtain ⟨hfs, mantissa, hbody, hm⟩ := mantissaText_split hparts hne
  have hdecimal := Decimal.mk hs (.mk hm he)
  rw [hbody, hcs, ← Scaled.value_eq] at hdecimal
  exact ⟨List.forall_mem_append.mpr ⟨digits_takeWhile _, hfs⟩, _, hdecimal,
    (hs.abs_mul (Scaled.value_nonneg _)).symm⟩

theorem Magnitude.unsigned {body : List Char} {q : ℚ} (h : Magnitude body q) : Unsigned body := by
  obtain ⟨hm, he⟩ := h
  cases hm with
  | whole hds hne =>
    obtain ⟨c, cs, rfl⟩ := List.exists_cons_of_ne_nil hne
    exact unsigned_of_head (.inl (hds c (by simp)))
  | pointed hws hfs hne =>
    rename_i ws fs
    cases ws with
    | nil => exact unsigned_of_head (.inr rfl)
    | cons c cs => exact unsigned_of_head (.inl (hws c (by simp)))

/-- Putting a literal together gives its parts back. -/
theorem Magnitude.scaled? {body : List Char} {q : ℚ} (h : Magnitude body q) :
    ∃ t, scaled? body = some t ∧ Digits t.digits ∧ t.value = q := by
  have hdrop := h.unsigned.dropSign
  obtain ⟨hm, he⟩ := h
  rename_i mantissa exponent m e
  have hexponent : ∀ c ∈ exponent.head?, c.isDigit = false := fun c hc => (he.head_ne c hc).1
  cases hm with
  | whole hds hne =>
    obtain ⟨hwhole, hrest⟩ := takeWhile_digits hds hexponent
    have hfraction : fractionAndRest exponent = ([], exponent) := by
      unfold fractionAndRest
      split
      · exact absurd rfl (he.head_ne '.' rfl).2
      · rfl
    refine ⟨⟨mantissa, e - (0 : ℕ)⟩, scaled?_eq_some_iff.mpr ⟨[], exponent, e, ?_⟩, hds, ?_⟩
    · rw [hdrop, hwhole, hrest, List.append_nil]
      exact ⟨hfraction, hne, he, rfl⟩
    · rw [Scaled.value_eq, pow_zero, div_one]
  | pointed hws hfs hne =>
    rename_i ws fs
    have hpoint : ∀ c ∈ ('.' :: (fs ++ exponent)).head?, c.isDigit = false := by simp
    obtain ⟨hwhole, hrest⟩ := takeWhile_digits hws hpoint
    obtain ⟨hfraction, hbehind⟩ := takeWhile_digits hfs hexponent
    rw [List.append_assoc, List.cons_append] at hdrop ⊢
    have hds : Digits (ws ++ fs) := List.forall_mem_append.mpr ⟨hws, hfs⟩
    refine ⟨⟨ws ++ fs, e - fs.length⟩, scaled?_eq_some_iff.mpr ⟨fs, exponent, e, ?_⟩, hds, ?_⟩
    · rw [hdrop, hwhole, hrest, fractionAndRest, hfraction, hbehind]
      exact ⟨rfl, hne, he, rfl⟩
    · rw [Scaled.value_eq]

theorem Magnitude.nonneg {body : List Char} {q : ℚ} (h : Magnitude body q) : 0 ≤ q := by
  obtain ⟨t, _, _, rfl⟩ := h.scaled?
  exact t.value_nonneg

theorem scaled?_of_decimal {q : ℚ} (h : Decimal cs q) :
    ∃ t, scaled? cs = some t ∧ Digits t.digits ∧ t.value = |q| := by
  obtain ⟨hs, hq⟩ := h
  obtain ⟨t, ht, hds, hvalue⟩ := hq.scaled?
  refine ⟨t, ?_, hds, hvalue.trans (hs.abs_mul hq.nonneg).symm⟩
  rw [scaled?_eq_some_iff, hq.unsigned.dropSign] at ht
  rwa [scaled?_eq_some_iff, hs.dropSign hq.unsigned]

end Grammar

section Finite

/-- A power of any sign as a quotient of two powers that are written out. -/
theorem zpow_mul_toNat {b : ℚ} (hb : b ≠ 0) (k : ℤ) : b ^ k * b ^ (-k).toNat = b ^ k.toNat := by
  rw [← zpow_natCast, ← zpow_natCast, ← zpow_add₀ hb]
  congr 1
  omega

theorem cast_tenTo (n : ℕ) : (tenTo n : ℚ) = 10 ^ n := Nat.cast_pow 10 n

theorem cast_twoTo (n : ℕ) : (twoTo n : ℚ) = 2 ^ n := Nat.cast_pow 2 n

/-- Whole numbers that were brought over a common denominator compare as what they came from. -/
theorem le_iff_of_scaled {a b : ℕ} {x y d : ℚ} (hd : 0 < d) (ha : a = x * d) (hb : b = y * d) :
    a ≤ b ↔ x ≤ y := by
  rw [← Nat.cast_le (α := ℚ), ha, hb, mul_le_mul_iff_left₀ hd]

theorem lt_iff_of_scaled {a b : ℕ} {x y d : ℚ} (hd : 0 < d) (ha : a = x * d) (hb : b = y * d) :
    a < b ↔ x < y := by
  rw [← Nat.cast_lt (α := ℚ), ha, hb, mul_lt_mul_iff_left₀ hd]

theorem Scaled.value_dropWhile_zero (s : Scaled) :
    Scaled.value ⟨s.digits.dropWhile (· = '0'), s.exponent⟩ = s.value := by
  rw [Scaled.value, Scaled.value, natOfDigits_dropWhile_zero]

/-- A first digit other than zero gives the size of the number. -/
theorem Scaled.value_bounds {c : Char} {cs : List Char} {e : ℤ} (h : Digits (c :: cs))
    (hc : c ≠ '0') : (10 : ℚ) ^ (cs.length + e) ≤ Scaled.value ⟨c :: cs, e⟩ ∧
      Scaled.value ⟨c :: cs, e⟩ < (10 : ℚ) ^ (cs.length + 1 + e) := by
  have hlow : (10 : ℚ) ^ cs.length ≤ natOfDigits (c :: cs) := by
    exact_mod_cast le_natOfDigits (h c (by simp)) hc
  have hhigh : (natOfDigits (c :: cs) : ℚ) < 10 ^ (cs.length + 1) := by
    exact_mod_cast natOfDigits_lt h
  have hpos : (0 : ℚ) < 10 ^ e := by positivity
  constructor
  · rw [zpow_add₀ (by norm_num), zpow_natCast]
    exact mul_le_mul_of_nonneg_right hlow hpos.le
  · rw [zpow_add₀ (by norm_num), ← Nat.cast_add_one, zpow_natCast]
    exact mul_lt_mul_of_pos_right hhigh hpos

theorem le_overflowBound : (10 : ℚ) ^ (308 : ℤ) ≤ overflowBound := by
  have h : 10 ^ 308 ≤ overflowBound := by decide +kernel
  exact_mod_cast h

theorem overflowBound_le : (overflowBound : ℚ) ≤ 10 ^ (309 : ℤ) := by
  have h : overflowBound ≤ 10 ^ 309 := by decide +kernel
  exact_mod_cast h

/-- At 309 places the digits themselves are compared. -/
theorem Scaled.value_lt_iff (ds : List Char) :
    natOfDigits ds * tenTo (309 - ds.length) < overflowBound * tenTo (ds.length - 309) ↔
      Scaled.value ⟨ds, 309 - ds.length⟩ < overflowBound := by
  have hpower := zpow_mul_toNat (b := 10) (by norm_num) (309 - ds.length)
  have hup : (309 - (ds.length : ℤ)).toNat = 309 - ds.length := by omega
  have hdown : (-(309 - (ds.length : ℤ))).toNat = ds.length - 309 := by omega
  rw [hup, hdown] at hpower
  have hpos : (0 : ℚ) < 10 ^ (ds.length - 309) := by positivity
  refine lt_iff_of_scaled hpos ?_ ?_
  · rw [Nat.cast_mul, cast_tenTo, Scaled.value, mul_assoc, hpower]
  · rw [Nat.cast_mul, cast_tenTo]

theorem Scaled.isFinite_iff {s : Scaled} (h : Digits s.digits) :
    s.isFinite = true ↔ s.value < overflowBound := by
  rw [← Scaled.value_dropWhile_zero, Scaled.isFinite]
  have hbound : (0 : ℚ) < overflowBound := lt_of_lt_of_le (by positivity) le_overflowBound
  cases hds : s.digits.dropWhile (· = '0') with
  | nil =>
    have hzero : Scaled.value ⟨[], s.exponent⟩ = 0 := by simp [Scaled.value, natOfDigits]
    rw [hzero]
    exact iff_of_true rfl hbound
  | cons c cs =>
    have hdigits : Digits (c :: cs) := fun x hx => h x ((List.dropWhile_suffix _).subset (hds ▸ hx))
    have hc : c ≠ '0' := by
      have hhead := List.head?_dropWhile_not (· = '0') s.digits
      rw [hds] at hhead
      simpa using hhead
    obtain ⟨hlow, hhigh⟩ := Scaled.value_bounds (e := s.exponent) hdigits hc
    simp only [List.isEmpty_cons, Bool.false_or, decide_eq_true_eq, List.length_cons, Nat.cast_succ]
    split
    · -- fewer places than the bound has
      rename_i hplaces
      have hpower : (10 : ℚ) ^ (cs.length + 1 + s.exponent) ≤ 10 ^ (308 : ℤ) :=
        zpow_le_zpow_right₀ (by norm_num) (by omega)
      exact iff_of_true rfl (hhigh.trans_le (hpower.trans le_overflowBound))
    · split
      · -- more places
        rename_i hplaces
        have hpower : (10 : ℚ) ^ (309 : ℤ) ≤ 10 ^ (cs.length + s.exponent) :=
          zpow_le_zpow_right₀ (by norm_num) (by omega)
        exact iff_of_false (by decide) (not_lt.mpr ((overflowBound_le.trans hpower).trans hlow))
      · -- as many
        have hexponent : s.exponent = 309 - ((c :: cs).length : ℤ) := by
          rw [List.length_cons, Nat.cast_succ]
          omega
        rw [hexponent, ← Scaled.value_lt_iff, decide_eq_true_eq]
        rfl

end Finite

/-- What counts as a number, said without the scan. -/
theorem isNumber_iff {cs : List Char} :
    isNumber cs = true ↔ ∃ q, Decimal cs q ∧ |q| < overflowBound := by
  rw [isNumber, Option.any_eq_true]
  constructor
  · rintro ⟨t, ht, hfinite⟩
    obtain ⟨hds, q, hdecimal, hvalue⟩ := decimal_of_scaled? ht
    exact ⟨q, hdecimal, hvalue ▸ (Scaled.isFinite_iff hds).mp hfinite⟩
  · rintro ⟨q, hdecimal, hq⟩
    obtain ⟨t, ht, hds, hvalue⟩ := scaled?_of_decimal hdecimal
    exact ⟨t, ht, (Scaled.isFinite_iff hds).mpr (hvalue ▸ hq)⟩

example : isNumber "-.5E+3".toList = true ∧ isNumber "inf".toList = false ∧
    isNumber "1e309".toList = false := by decide

theorem Numeral.of?_eq_some_iff {text : String} {n : Numeral} :
    Numeral.of? text = some n ↔ n.text = text := by
  constructor
  · intro h
    rw [Numeral.of?, Option.dite_none_right_eq_some] at h
    obtain ⟨_, h⟩ := h
    rw [← Option.some.inj h]
  · rintro rfl
    rw [Numeral.of?, dif_pos n.isNumber_text]

theorem Numeral.exists_iff {text : String} : (∃ n : Numeral, n.text = text) ↔
    ∃ q, Decimal text.toList q ∧ |q| < overflowBound := by
  rw [← isNumber_iff]
  constructor
  · rintro ⟨n, rfl⟩
    exact n.isNumber_text
  · intro h
    exact ⟨⟨text, h⟩, rfl⟩

theorem magnitude_toString (n : ℕ) : Magnitude (toString n).toList n := by
  have htext := Magnitude.whole (digits_toDigits n) Nat.toDigits_ne_nil
  rw [natOfDigits_toDigits] at htext
  rwa [Nat.toString_eq_ofList_toDigits, String.toList_ofList]

theorem decimal_toString (n : ℤ) : Decimal (toString n).toList n := by
  cases n with
  | ofNat m =>
    have hdecimal := Decimal.mk .none (magnitude_toString m)
    rw [Int.cast_one, one_mul] at hdecimal
    exact hdecimal
  | negSucc m =>
    have htext : (toString (Int.negSucc m)).toList = ['-'] ++ (toString (m + 1)).toList :=
      String.toList_append
    have hvalue : ((-1 : ℤ) : ℚ) * (m + 1 : ℕ) = (Int.negSucc m : ℤ) := by
      rw [Int.cast_negSucc]
      push_cast
      ring
    rw [htext, ← hvalue]
    exact .mk .minus (magnitude_toString (m + 1))

section Characters

/-- The characters a literal is made of. -/
def LiteralChar (c : Char) : Prop := c.isDigit = true ∨ c ∈ ['+', '-', '.', 'e', 'E']

variable {cs : List Char}

theorem SignText.chars {s : ℤ} (h : SignText cs s) : ∀ c ∈ cs, LiteralChar c := by
  cases h <;> simp [LiteralChar]

theorem MantissaText.chars {m : ℚ} (h : MantissaText cs m) :
    (∀ c ∈ cs, LiteralChar c) ∧ ∃ c ∈ cs, c.isDigit = true := by
  cases h with
  | whole hds hne =>
    obtain ⟨c, hc⟩ := List.exists_mem_of_ne_nil cs hne
    exact ⟨fun c hc => .inl (hds c hc), c, hc, hds c hc⟩
  | pointed hws hfs hne =>
    rename_i ws fs
    have hds : Digits (ws ++ fs) := List.forall_mem_append.mpr ⟨hws, hfs⟩
    obtain ⟨c, hc⟩ := List.exists_mem_of_ne_nil _ hne
    constructor
    · intro c hc
      simp only [List.mem_append, List.mem_cons] at hc
      rcases hc with hc | rfl | hc
      · exact .inl (hws c hc)
      · exact .inr (by decide)
      · exact .inl (hfs c hc)
    · refine ⟨c, ?_, hds c hc⟩
      simp only [List.mem_append, List.mem_cons] at hc ⊢
      exact hc.imp_right .inr

theorem ExponentText.chars {e : ℤ} (h : ExponentText cs e) : ∀ c ∈ cs, LiteralChar c := by
  cases h with
  | none => simp
  | marked hmark hs hds =>
    intro c hc
    simp only [List.mem_cons, List.mem_append] at hc
    rcases hc with rfl | hc | hc
    · rcases hmark with rfl | rfl <;> exact .inr (by decide)
    · exact hs.chars c hc
    · exact .inl (hds c hc)

theorem Decimal.chars {q : ℚ} (h : Decimal cs q) :
    (∀ c ∈ cs, LiteralChar c) ∧ ∃ c ∈ cs, c.isDigit = true := by
  obtain ⟨hs, hm, he⟩ := h
  obtain ⟨hmantissa, c, hc, hdigit⟩ := hm.chars
  constructor
  · simp only [List.mem_append]
    rintro c (hc | hc | hc)
    · exact hs.chars c hc
    · exact hmantissa c hc
    · exact he.chars c hc
  · exact ⟨c, by simp [hc], hdigit⟩

end Characters

end DataflowSql.Number

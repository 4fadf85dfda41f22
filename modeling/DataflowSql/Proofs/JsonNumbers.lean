import DataflowSql.Json.Number
import DataflowSql.Proofs.DoubleText

/-! The numbers of a JSON text are whole numbers of 64 bits and finite doubles. -/
namespace DataflowSql.Number.Double

variable {num den : ℕ} {x y : Double}

/-- A comparison over a common denominator. -/
theorem ratio_lt_iff (num den n : ℕ) (e : ℤ) :
    num * twoTo (-e).toNat < den * twoTo e.toNat * twoTo n ↔ (num : ℚ) < den * 2 ^ (n + e) := by
  have hpos : (0 : ℚ) < 2 ^ (-e).toNat := by positivity
  have hpower := zpow_mul_toNat (b := 2) (by norm_num) e
  refine lt_iff_of_scaled hpos ?_ ?_
  · rw [Nat.cast_mul, cast_twoTo]
  · rw [Nat.cast_mul, Nat.cast_mul, cast_twoTo, cast_twoTo, ← hpower, zpow_add₀ (by norm_num),
      zpow_natCast]
    ring

theorem roundRatio_le {n : ℕ} (h : num < den * n) : roundRatio num den ≤ n := by
  have hq : num / den < n := Nat.div_lt_of_lt_mul h
  simp only [roundRatio]
  split <;> omega

/-- The first guess at the exponent, from the number of bits on either side. -/
theorem lt_of_log2 (num : ℕ) (hden : den ≠ 0) :
    (num : ℚ) < den * 2 ^ ((53 : ℕ) + ((num.log2 : ℤ) - den.log2 - 52)) := by
  have hlow : (2 : ℚ) ^ den.log2 ≤ den := by exact_mod_cast Nat.log2_self_le hden
  have hhigh : (num : ℚ) < 2 ^ (num.log2 + 1) := by exact_mod_cast Nat.lt_log2_self
  have hpos : (0 : ℚ) < 2 ^ ((num.log2 : ℤ) + 1 - den.log2) := by positivity
  have hpower : (((53 : ℕ) : ℤ) + ((num.log2 : ℤ) - den.log2 - 52)) = num.log2 + 1 - den.log2 := by
    push_cast
    ring
  calc (num : ℚ)
    _ < 2 ^ (num.log2 + 1) := hhigh
    _ = 2 ^ den.log2 * 2 ^ ((num.log2 : ℤ) + 1 - den.log2) := by
      rw [← zpow_natCast, ← zpow_natCast, ← zpow_add₀ (by norm_num)]
      congr 1
      push_cast
      ring
    _ ≤ den * 2 ^ ((num.log2 : ℤ) + 1 - den.log2) := mul_le_mul_of_nonneg_right hlow hpos.le
    _ = den * 2 ^ ((53 : ℕ) + ((num.log2 : ℤ) - den.log2 - 52)) := by rw [hpower]

/-- The exponent leaves no more than 53 bits before the point. -/
theorem lt_of_ratioExponent (num : ℕ) (hden : den ≠ 0) :
    (num : ℚ) < den * 2 ^ ((53 : ℕ) + ratioExponent num den) := by
  have hlarger {e : ℤ} (he : (num : ℚ) < den * 2 ^ ((53 : ℕ) + e)) :
      (num : ℚ) < den * 2 ^ ((53 : ℕ) + max e leastExponent) := by
    refine he.trans_le (mul_le_mul_of_nonneg_left ?_ (Nat.cast_nonneg den))
    exact zpow_le_zpow_right₀ (by norm_num) (by omega)
  simp only [ratioExponent]
  apply hlarger
  split
  · rename_i hsmall
    rw [ratio_lt_iff] at hsmall
    convert hsmall using 3
    push_cast
    ring
  · exact lt_of_log2 num hden

theorem finite_zero (negative : Bool) : (zero negative).Finite :=
  ⟨Nat.two_pow_pos 53, le_rfl, (by decide : leastExponent ≤ greatestExponent)⟩

theorem scaledRatio_le (num den : ℕ) : scaledRatio num den (ratioExponent num den) ≤ twoTo 53 := by
  rcases Nat.eq_zero_or_pos den with rfl | hden
  · have hone : roundRatio (num * twoTo (-ratioExponent num 0).toNat) 0 ≤ 1 := by
      simp only [roundRatio, Nat.div_zero]
      split <;> omega
    rw [scaledRatio, Nat.zero_mul]
    exact hone.trans (by decide)
  · exact roundRatio_le ((ratio_lt_iff num den 53 _).mpr (lt_of_ratioExponent num hden.ne'))

theorem le_ratioExponent (num den : ℕ) : leastExponent ≤ ratioExponent num den := by
  simp only [ratioExponent]
  exact le_max_right _ _

/-- A mantissa that was rounded up to 54 bits is halved. -/
theorem carry_fits {m : ℕ} {e : ℤ} (hm : m ≤ twoTo 53) (he : leastExponent ≤ e) :
    (if m = twoTo 53 then (twoTo 52, e + 1) else (m, e)).1 < twoTo 53 ∧
      leastExponent ≤ (if m = twoTo 53 then (twoTo 52, e + 1) else (m, e)).2 := by
  have hpower : twoTo 52 < twoTo 53 := by decide
  by_cases hcarry : m = twoTo 53
  · rw [if_pos hcarry]
    exact ⟨hpower, he.trans (by omega)⟩
  · rw [if_neg hcarry]
    exact ⟨lt_of_le_of_ne hm hcarry, he⟩

theorem finite_of_ofRatio? {negative : Bool} (h : ofRatio? negative num den = some x) :
    x.Finite := by
  unfold ofRatio? at h
  by_cases hnum : num = 0
  · rw [if_pos hnum] at h
    obtain rfl := Option.some.inj h
    exact finite_zero negative
  · rw [if_neg hnum] at h
    extract_lets e m at h
    have hfits := carry_fits (m := m) (e := e) (scaledRatio_le num den) (le_ratioExponent num den)
    generalize (if m = twoTo 53 then (twoTo 52, e + 1) else (m, e)) = carried at h hfits
    obtain ⟨mantissa, exponent⟩ := carried
    dsimp only at h
    split at h
    · cases h
    · rename_i hgreatest
      obtain rfl := Option.some.inj h
      exact ⟨hfits.1, hfits.2, not_lt.mp hgreatest⟩

theorem finite_of_ofNat? {negative : Bool} {n : ℕ} (h : ofNat? negative n = some x) : x.Finite := by
  rw [ofNat?] at h
  exact finite_of_ofRatio? h

theorem finite_of_mul? {z : Double} (h : mul? x y = some z) : z.Finite := by
  rw [mul?] at h
  exact finite_of_ofRatio? h

theorem finite_of_div? {z : Double} (h : div? x y = some z) : z.Finite := by
  rw [div?] at h
  exact finite_of_ofRatio? h

theorem finite_of_ofDecimalIn {steps : ℕ} {power : ℤ} (hx : x.Finite)
    (h : ofDecimalIn steps x power = some y) : y.Finite := by
  fun_induction ofDecimalIn steps x power with
  | case1 steps x power hpower =>
    obtain ⟨ten, _, h⟩ := Option.bind_eq_some_iff.mp h
    split at h
    · exact finite_of_mul? h
    · exact finite_of_div? h
  | case2 steps x power _ hzero =>
    obtain rfl := Option.some.inj h
    exact hx
  | case3 => cases h
  | case4 x power =>
    obtain rfl := Option.some.inj h
    exact finite_zero x.negative
  | case5 x power _ _ _ steps ih =>
    obtain ⟨ten, _, h⟩ := Option.bind_eq_some_iff.mp h
    obtain ⟨z, hz, h⟩ := Option.bind_eq_some_iff.mp h
    exact ih z (finite_of_div? hz) h

theorem finite_of_ofDecimal? {negative : Bool} {significand : ℕ} {power : ℤ}
    (h : ofDecimal? negative significand power = some x) : x.Finite := by
  obtain ⟨y, hy, h⟩ := Option.bind_eq_some_iff.mp h
  exact finite_of_ofDecimalIn (finite_of_ofNat? hy) h

end DataflowSql.Number.Double

namespace DataflowSql.Json

open Number

/-- A whole number of 64 bits, with or without a sign, or a finite double. -/
inductive IsNumber : Json → Prop
  | integer {n : ℤ} (least : -(2 : ℤ) ^ 63 ≤ n) (greatest : n < 2 ^ 64) : IsNumber (.integer n)
  | float {x : Double} (finite : x.Finite) : IsNumber (.float x)

/-- Whatever is read is a number. -/
def ReadsNumber (r : Except ReadError (Json × List Char)) : Prop :=
  ∀ j rest, r = .ok (j, rest) → j.IsNumber

variable {negative : Bool} {significand : ℕ} {power : ℤ} {cs : List Char}

theorem readsNumber_error (e : ReadError) : ReadsNumber (.error e) := by
  intro j rest h
  cases h

theorem readsNumber_floatOf : ReadsNumber (floatOf negative significand power cs) := by
  intro j rest h
  unfold floatOf at h
  split at h
  · cases h
  · rename_i x hx
    cases h
    exact .float (Double.finite_of_ofDecimal? hx)

theorem readsNumber_afterMark : ReadsNumber (afterMark negative significand power cs) := by
  unfold afterMark
  generalize exponentSign cs = signed
  obtain ⟨down, cs⟩ := signed
  dsimp only
  split
  · exact readsNumber_error _
  split
  · exact readsNumber_error _
  split
  · exact readsNumber_floatOf
  split
  · exact readsNumber_error _
  · intro j rest h
    cases h
    exact .float (Double.finite_zero negative)

theorem readsNumber_afterPoint : ReadsNumber (afterPoint negative significand power cs) := by
  unfold afterPoint
  split
  · exact readsNumber_error _
  split
  · exact readsNumber_error _
  dsimp only
  split
  · exact readsNumber_floatOf
  split
  · exact readsNumber_afterMark
  · exact readsNumber_floatOf

theorem readsNumber_wholeOf {n : ℕ} (hn : n < wordBound) : ReadsNumber (wholeOf negative n cs) := by
  have hword : n < 2 ^ 64 := hn
  unfold wholeOf
  split
  · intro j rest h
    cases h
    exact .integer (by omega) (by omega)
  split
  · rename_i hrange
    have hsigned : n ≤ 2 ^ 63 := hrange.2
    intro j rest h
    cases h
    exact .integer (by omega) (by omega)
  · exact readsNumber_floatOf

theorem readsNumber_afterWhole {n extra : ℕ} (hn : n < wordBound) :
    ReadsNumber (afterWhole negative n extra cs) := by
  have hplain : ReadsNumber (if extra = 0 then wholeOf negative n cs else
      floatOf negative n extra cs) := by
    split
    · exact readsNumber_wholeOf hn
    · exact readsNumber_floatOf
  unfold afterWhole
  dsimp only
  split
  · exact hplain
  split
  · exact readsNumber_afterPoint
  split
  · exact readsNumber_afterMark
  · exact hplain

theorem takeDigits_lt {n : ℕ} (hn : n < wordBound) (taken : ℕ) (cs : List Char) :
    (takeDigits n taken cs).1 < wordBound := by
  fun_induction takeDigits n taken cs with
  | case1 => exact hn
  | case2 n taken c cs next hnext ih => exact ih (by simp_all)
  | case3 => exact hn

/-- Every number of a text is one of those. -/
theorem readsNumber_number : ReadsNumber (number negative cs) := by
  unfold number
  split
  · exact readsNumber_error _
  split
  · split
    · exact readsNumber_error _
    · exact readsNumber_afterWhole (by decide)
  split
  · rename_i c rest _ _
    have htaken := takeDigits_lt (n := 0) (by decide) 0 (c :: rest)
    generalize takeDigits 0 0 (c :: rest) = parts at htaken ⊢
    obtain ⟨n, _, left⟩ := parts
    exact readsNumber_afterWhole htaken
  · exact readsNumber_error _

end DataflowSql.Json

import DataflowSql.Number.Shortest
import DataflowSql.Proofs.Decimals

/-! The text of a double. It is a decimal literal whose value rounds back to the double, and so
stays under the bound of what counts as a number. -/
namespace DataflowSql.Number

/-- A finite double: the mantissa has at most 53 bits and the exponent is in range. -/
structure Double.Finite (x : Double) : Prop where
  mantissa : x.mantissa < twoTo 53
  least : Double.leastExponent ≤ x.exponent
  greatest : x.exponent ≤ Double.greatestExponent

def Double.magnitude (x : Double) : ℚ := x.mantissa * 2 ^ x.exponent

section Common

/-- What `common` multiplies both numbers by. -/
def denominator (k e : ℤ) : ℚ := 10 ^ (-k).toNat * 2 ^ (-e).toNat

theorem denominator_pos (k e : ℤ) : 0 < denominator k e := by
  rw [denominator]
  positivity

variable (c n : ℕ) (k e : ℤ)

theorem common_fst : ((common c k n e).1 : ℚ) = c * 10 ^ k * denominator k e := by
  have hten := zpow_mul_toNat (b := 10) (by norm_num) k
  rw [common, Nat.cast_mul, Nat.cast_mul, cast_tenTo, cast_twoTo, ← hten, denominator]
  ring

theorem common_snd : ((common c k n e).2 : ℚ) = n * 2 ^ e * denominator k e := by
  have htwo := zpow_mul_toNat (b := 2) (by norm_num) e
  rw [common, Nat.cast_mul, Nat.cast_mul, cast_tenTo, cast_twoTo, ← htwo, denominator]
  ring

end Common

namespace Halfway

def lowValue (h : Halfway) : ℚ := h.low * 2 ^ h.exponent

def middleValue (h : Halfway) : ℚ := h.middle * 2 ^ h.exponent

def highValue (h : Halfway) : ℚ := h.high * 2 ^ h.exponent

/-- A number lies between the two points, or on one of them if they count. -/
def Admits (h : Halfway) (q : ℚ) : Prop :=
  if h.closed then h.lowValue ≤ q ∧ q ≤ h.highValue else h.lowValue < q ∧ q < h.highValue

variable {h : Halfway} {c : ℕ} {k : ℤ}

theorem contains_iff : h.contains c k = true ↔ h.Admits (c * 10 ^ k) := by
  have hpos := denominator_pos k h.exponent
  have hx := common_fst c h.low k h.exponent
  have hlow := common_snd c h.low k h.exponent
  have hhigh := common_snd c h.high k h.exponent
  simp only [contains, Admits, lowValue, highValue]
  split
  · rw [Bool.and_eq_true, decide_eq_true_eq, decide_eq_true_eq, le_iff_of_scaled hpos hlow hx,
      le_iff_of_scaled hpos hx hhigh]
  · rw [Bool.and_eq_true, decide_eq_true_eq, decide_eq_true_eq, lt_iff_of_scaled hpos hlow hx,
      lt_iff_of_scaled hpos hx hhigh]

/-- The double lies between two neighbours on every grid. -/
theorem floor_bounds (h : Halfway) (k : ℤ) :
    h.floor k * 10 ^ k ≤ h.middleValue ∧ h.middleValue < (h.floor k + 1) * 10 ^ k := by
  have hpos := denominator_pos k h.exponent
  have hunit := common_fst 1 h.middle k h.exponent
  have hmiddle := common_snd 1 h.middle k h.exponent
  rw [floor]
  generalize common 1 k h.middle h.exponent = parts at *
  obtain ⟨unit, middle⟩ := parts
  rw [Nat.cast_one, one_mul] at hunit
  have hunitpos : 0 < unit := by
    have hcast : (0 : ℚ) < unit := by rw [hunit]; positivity
    exact_mod_cast hcast
  have hlow : ((middle / unit : ℕ) : ℚ) * unit ≤ middle := by
    exact_mod_cast Nat.div_mul_le_self middle unit
  have hhigh : (middle : ℚ) < ((middle / unit : ℕ) + 1) * unit := by
    exact_mod_cast Nat.lt_mul_of_div_lt (Nat.lt_succ_self _) hunitpos
  rw [hunit, hmiddle, ← mul_assoc] at hlow hhigh
  exact ⟨le_of_mul_le_mul_right hlow hpos, lt_of_mul_lt_mul_right hhigh hpos.le⟩

theorem admits_of_lt {q : ℚ} (hlow : h.lowValue < q) (hhigh : q < h.highValue) : h.Admits q := by
  unfold Admits
  split
  · exact ⟨hlow.le, hhigh.le⟩
  · exact ⟨hlow, hhigh⟩

theorem admits_of_onGrid? (hc : h.onGrid? k = some c) : h.Admits (c * 10 ^ k) := by
  rw [← contains_iff]
  simp only [onGrid?] at hc
  cases hbelow : h.contains (h.floor k) k <;> cases habove : h.contains (h.floor k + 1) k <;>
    simp only [hbelow, habove, reduceCtorEq, Option.some.injEq] at hc
  · rwa [← hc]
  · rwa [← hc]
  · split at hc <;> rwa [← hc]

/-- A grid finer than the gap between the two points has a number inside it: the one below the
double, or else the one above. -/
theorem exists_onGrid? (hlow : h.lowValue < h.middleValue) (hhigh : h.middleValue < h.highValue)
    (hfine : (10 : ℚ) ^ k < h.highValue - h.lowValue) : ∃ c, h.onGrid? k = some c := by
  obtain ⟨hbelow, habove⟩ := h.floor_bounds k
  have hone : h.contains (h.floor k) k = true ∨ h.contains (h.floor k + 1) k = true := by
    rw [contains_iff, contains_iff]
    by_cases hinside : h.lowValue < h.floor k * 10 ^ k
    · exact .inl (admits_of_lt hinside (hbelow.trans_lt hhigh))
    · right
      push_cast
      refine admits_of_lt (hlow.trans habove) ?_
      linarith
  simp only [onGrid?]
  split
  · exact ⟨_, rfl⟩
  · exact ⟨_, rfl⟩
  · exact ⟨_, rfl⟩
  · rename_i hnotbelow hnotabove
    simp [hnotbelow, hnotabove] at hone

theorem pow_le_of_length_toDigits {n l : ℕ} (hn : 1 ≤ n)
    (hl : (Nat.toDigits 10 n).length = l + 1) : 10 ^ l ≤ n := by
  rcases Nat.eq_zero_or_pos l with rfl | hpos
  · simpa using hn
  · by_contra hlt
    have hle := (Nat.length_toDigits_le_iff (by decide) hpos).mpr (not_le.mp hlt)
    omega

/-- The first digit of a double stands just before that many places. -/
theorem pow_places_le (hsize : (10 : ℚ) ^ (-400 : ℤ) ≤ h.middleValue) :
    (10 : ℚ) ^ (h.places - 1) ≤ h.middleValue := by
  obtain ⟨hbelow, habove⟩ := h.floor_bounds (-400)
  rw [places]
  generalize h.floor (-400) = n at *
  have hpower : (0 : ℚ) < 10 ^ (-400 : ℤ) := by positivity
  have hn : 1 ≤ n := by
    have hcast : (1 : ℚ) < n + 1 := by
      rw [← mul_lt_mul_iff_left₀ hpower, one_mul]
      exact hsize.trans_lt habove
    have hnat : 1 < n + 1 := by exact_mod_cast hcast
    omega
  have hlength : (Nat.toDigits 10 n).length ≠ 0 := Nat.length_toDigits_pos.ne'
  obtain ⟨l, hl⟩ := Nat.exists_eq_add_one_of_ne_zero hlength
  have hcast : (10 : ℚ) ^ l ≤ n := by exact_mod_cast pow_le_of_length_toDigits hn hl
  calc (10 : ℚ) ^ (((Nat.toDigits 10 n).length : ℤ) - 400 - 1)
    _ = 10 ^ l * 10 ^ (-400 : ℤ) := by
      rw [← zpow_natCast, ← zpow_add₀ (by norm_num), hl]
      congr 1
      push_cast
      ring
    _ ≤ n * 10 ^ (-400 : ℤ) := mul_le_mul_of_nonneg_right hcast hpower.le
    _ ≤ h.middleValue := hbelow

/-- Seventeen digits suffice, so what is written rounds to the double. -/
theorem admits_shortest (hlow : h.lowValue < h.middleValue) (hhigh : h.middleValue < h.highValue)
    (hwide : h.middleValue < (h.highValue - h.lowValue) * 10 ^ 16)
    (hsize : (10 : ℚ) ^ (-400 : ℤ) ≤ h.middleValue) :
    h.Admits (h.shortest.1 * 10 ^ h.shortest.2) := by
  have hfine : (10 : ℚ) ^ (h.places - 1 - (16 : ℕ)) < h.highValue - h.lowValue := by
    rw [zpow_sub₀ (by norm_num), zpow_natCast, div_lt_iff₀ (by positivity)]
    exact (pow_places_le hsize).trans_lt hwide
  obtain ⟨c, hc⟩ := exists_onGrid? hlow hhigh hfine
  simp only [shortest]
  split
  · rename_i found hfound
    obtain ⟨k, _, hk⟩ := List.exists_of_findSome?_eq_some hfound
    obtain ⟨c, hc, rfl⟩ := Option.map_eq_some_iff.mp hk
    exact admits_of_onGrid? hc
  · rename_i hnone
    rw [List.findSome?_eq_none_iff] at hnone
    have hlast := hnone (h.places - 1 - (16 : ℕ)) (List.mem_map.mpr ⟨16, by decide, rfl⟩)
    rw [hc] at hlast
    cases hlast

end Halfway

section Double

variable {x : Double}

theorem Double.middleValue_halfway (x : Double) : x.halfway.middleValue = x.magnitude := by
  rw [Halfway.middleValue, magnitude]
  simp only [halfway]
  rw [zpow_sub₀ (by norm_num)]
  push_cast
  ring

/-- The point below lies below, and the two points lie more than `10 ^ -16` of the double apart:
even where the point below is nearer, above a power of two. -/
theorem Double.low_halfway (hm : x.mantissa ≠ 0) (hbits : x.mantissa < twoTo 53) :
    x.halfway.low < x.halfway.middle ∧
      x.halfway.middle + x.halfway.low * 10 ^ 16 < x.halfway.high * 10 ^ 16 := by
  have htwo : twoTo 52 = 4503599627370496 ∧ twoTo 53 = 9007199254740992 := by decide
  simp only [halfway]
  split <;> omega

theorem Double.le_magnitude (hx : x.Finite) (hm : x.mantissa ≠ 0) :
    (10 : ℚ) ^ (-400 : ℤ) ≤ x.magnitude := by
  have hleast : (10 : ℚ) ^ (-400 : ℤ) ≤ 2 ^ (-1074 : ℤ) := by
    rw [zpow_neg, zpow_neg, inv_le_inv₀ (by positivity) (by positivity)]
    have h : 2 ^ 1074 ≤ 10 ^ 400 := by decide +kernel
    exact_mod_cast h
  have hpower : (2 : ℚ) ^ (-1074 : ℤ) ≤ 2 ^ x.exponent := zpow_le_zpow_right₀ (by norm_num) hx.least
  have hone : (1 : ℚ) ≤ x.mantissa := by exact_mod_cast Nat.one_le_iff_ne_zero.mpr hm
  calc (10 : ℚ) ^ (-400 : ℤ)
    _ ≤ 2 ^ x.exponent := hleast.trans hpower
    _ ≤ x.mantissa * 2 ^ x.exponent := le_mul_of_one_le_left (by positivity) hone

theorem Double.admits_shortest (hx : x.Finite) (hm : x.mantissa ≠ 0) :
    x.halfway.Admits (x.halfway.shortest.1 * 10 ^ x.halfway.shortest.2) := by
  have hunit : (0 : ℚ) < 2 ^ x.halfway.exponent := by positivity
  obtain ⟨hlow, hwide⟩ := Double.low_halfway hm hx.mantissa
  have hlow' : (x.halfway.low : ℚ) < x.halfway.middle := by exact_mod_cast hlow
  have hhigh' : (x.halfway.middle : ℚ) < x.halfway.high := by simp [halfway]
  have hwide' : (x.halfway.middle + x.halfway.low * 10 ^ 16 : ℚ) < x.halfway.high * 10 ^ 16 := by
    exact_mod_cast hwide
  apply Halfway.admits_shortest
  · exact mul_lt_mul_of_pos_right hlow' hunit
  · exact mul_lt_mul_of_pos_right hhigh' hunit
  · have hscaled := mul_lt_mul_of_pos_right hwide' hunit
    rw [Halfway.middleValue, Halfway.highValue, Halfway.lowValue]
    linarith
  · rw [middleValue_halfway]
    exact le_magnitude hx hm

theorem overflowBound_eq : (overflowBound : ℚ) = (2 ^ 55 - 2 : ℕ) * 2 ^ (969 : ℤ) := by
  have h : overflowBound = (2 ^ 55 - 2) * 2 ^ 969 := by decide +kernel
  rw [h, Nat.cast_mul, Nat.cast_pow, Nat.cast_ofNat, zpow_ofNat]

theorem Double.highValue_le (hx : x.Finite) {n : ℕ} (hn : x.halfway.high ≤ n) :
    x.halfway.highValue ≤ n * 2 ^ (969 : ℤ) := by
  have hexponent : x.halfway.exponent ≤ 969 := by
    have hgreatest : x.exponent ≤ 971 := hx.greatest
    simp only [halfway]
    omega
  have hpower : (2 : ℚ) ^ x.halfway.exponent ≤ 2 ^ (969 : ℤ) :=
    zpow_le_zpow_right₀ (by norm_num) hexponent
  have hcast : (x.halfway.high : ℚ) ≤ n := by exact_mod_cast hn
  have hnonneg : (0 : ℚ) ≤ 2 ^ x.halfway.exponent := by positivity
  exact mul_le_mul hcast hpower hnonneg (Nat.cast_nonneg n)

/-- What rounds to a finite double stays under the bound: the point above the greatest double is
the bound itself, and does not count, since the mantissa is odd. -/
theorem Double.lt_overflowBound (hx : x.Finite) {q : ℚ} (hq : x.halfway.Admits q) :
    q < overflowBound := by
  have hbits : x.mantissa < 2 ^ 53 := hx.mantissa
  rw [overflowBound_eq]
  unfold Halfway.Admits at hq
  split at hq
  · rename_i hclosed
    have heven : x.mantissa % 2 = 0 := by simpa [halfway] using hclosed
    have hhigh : x.halfway.high ≤ 2 ^ 55 - 6 := by
      simp only [halfway]
      omega
    have hless : ((2 ^ 55 - 6 : ℕ) : ℚ) < (2 ^ 55 - 2 : ℕ) := by norm_num
    calc q
      _ ≤ x.halfway.highValue := hq.2
      _ ≤ (2 ^ 55 - 6 : ℕ) * 2 ^ (969 : ℤ) := highValue_le hx hhigh
      _ < (2 ^ 55 - 2 : ℕ) * 2 ^ (969 : ℤ) := mul_lt_mul_of_pos_right hless (by positivity)
  · have hhigh : x.halfway.high ≤ 2 ^ 55 - 2 := by
      simp only [halfway]
      omega
    exact hq.2.trans_le (highValue_le hx hhigh)

end Double

section Layout

theorem digits_zeros (n : ℕ) : Digits (zeros n) := by
  intro c hc
  rw [List.eq_of_mem_replicate hc]
  rfl

theorem natOfDigits_zeros (n : ℕ) : natOfDigits (zeros n) = 0 := Nat.ofDigitChars_replicate_zero

theorem natOfDigits_append_zeros (ds : List Char) (n : ℕ) :
    natOfDigits (ds ++ zeros n) = natOfDigits ds * 10 ^ n := by
  rw [natOfDigits_append, natOfDigits_zeros, zeros, List.length_replicate, Nat.add_zero]

theorem natOfDigits_zeros_append (n : ℕ) (ds : List Char) :
    natOfDigits (zeros n ++ ds) = natOfDigits ds := by
  rw [natOfDigits_append, natOfDigits_zeros, Nat.zero_mul, Nat.zero_add]

theorem exists_dropTrailingZeros (ds : List Char) : ∃ n, dropTrailingZeros ds ++ zeros n = ds := by
  have hzeros : ∀ c ∈ (ds.reverse.takeWhile (· = '0')).reverse, c = '0' := by
    intro c hc
    have hall := List.all_eq_true.mp (List.all_takeWhile (p := (· = '0')) (l := ds.reverse)) c
    simpa using hall (List.mem_reverse.mp hc)
  refine ⟨(ds.reverse.takeWhile (· = '0')).reverse.length, ?_⟩
  rw [zeros, ← List.eq_replicate_of_mem hzeros, dropTrailingZeros, ← List.reverse_append,
    List.takeWhile_append_dropWhile, List.reverse_reverse]

namespace Layout

variable {l : Layout}

/-- The number a layout stands for. -/
def value (l : Layout) : ℚ := natOfDigits l.digits * 10 ^ (l.point - l.digits.length)

theorem value_eq_mul {n : ℕ} (hn : (n : ℤ) = l.point - l.digits.length) :
    l.value = natOfDigits l.digits * 10 ^ n := by
  rw [value, ← hn, zpow_natCast]

theorem value_eq_div {n : ℕ} (hn : (n : ℤ) = l.digits.length - l.point) :
    l.value = natOfDigits l.digits / 10 ^ n := by
  rw [value, ← neg_sub, ← hn, zpow_neg, zpow_natCast, div_eq_mul_inv]

theorem magnitude_plain (h : Digits l.digits) : Magnitude l.plain l.value := by
  unfold plain
  split
  · -- below one, zeros stand between the point and the digits
    rename_i hpoint
    have hfraction : Digits (zeros (-l.point).toNat ++ l.digits) :=
      List.forall_mem_append.mpr ⟨digits_zeros _, h⟩
    refine .pointed (digits_zeros 1) hfraction (by simp [zeros]) ?_
    rw [natOfDigits_zeros_append, natOfDigits_zeros_append]
    exact value_eq_div (by simp [zeros]; omega)
  · rename_i hpoint
    simp only
    split
    · -- a whole number, zeros stand between the digits and the point
      rename_i hwhole
      have hdigits : Digits (l.digits ++ zeros (l.point.toNat - l.digits.length)) :=
        List.forall_mem_append.mpr ⟨h, digits_zeros _⟩
      refine .pointed hdigits (digits_zeros 1) (by simp [zeros]) ?_
      change l.value = natOfDigits (_ ++ zeros 1) / 10 ^ (zeros 1).length
      rw [natOfDigits_append_zeros, natOfDigits_append_zeros,
        value_eq_mul (n := l.point.toNat - l.digits.length) (by omega)]
      simp [zeros]
    · -- the point stands among the digits
      rename_i hwhole
      refine .pointed (fun c hc => h c (List.mem_of_mem_take hc))
        (fun c hc => h c (List.mem_of_mem_drop hc)) ?_ ?_
      · rw [List.take_append_drop]
        rintro hnil
        simp [hnil] at hwhole
      · rw [List.take_append_drop]
        exact value_eq_div (by simp; omega)

theorem exponentText_of_int (e : ℤ) :
    ExponentText ('e' :: (if e < 0 then '-' else '+') :: Nat.toDigits 10 e.natAbs) e := by
  have hdigits := digits_toDigits e.natAbs
  split
  · have htext := ExponentText.marked (.inl rfl) .minus hdigits Nat.toDigits_ne_nil
    have hvalue : (-1 : ℤ) * e.natAbs = e := by omega
    rwa [natOfDigits_toDigits, hvalue] at htext
  · have htext := ExponentText.marked (.inl rfl) .plus hdigits Nat.toDigits_ne_nil
    have hvalue : (1 : ℤ) * e.natAbs = e := by omega
    rwa [natOfDigits_toDigits, hvalue] at htext

/-- One digit before the point, which scales the number by one place less than it has digits. -/
theorem value_cons (d : Char) (ds : List Char) (point : ℤ) :
    value ⟨d :: ds, point⟩ = natOfDigits (d :: ds) / 10 ^ ds.length * 10 ^ (point - 1) := by
  have hpower : point - ((d :: ds).length : ℤ) = point - 1 - ds.length := by
    rw [List.length_cons]
    push_cast
    ring
  rw [value, hpower, zpow_sub₀ (by norm_num), zpow_natCast]
  ring

theorem magnitude_scientific (h : Digits l.digits) : Magnitude l.scientific l.value := by
  obtain ⟨digits, point⟩ := l
  have he := exponentText_of_int (point - 1)
  match digits, h with
  | [], _ =>
    have hmagnitude := Magnitude.mk (.whole (digits_zeros 1) (by simp [zeros])) he
    have hvalue : value ⟨[], point⟩ = natOfDigits (zeros 1) * 10 ^ (point - 1) := by
      simp [value, zeros, natOfDigits]
    rw [hvalue]
    exact hmagnitude
  | [d], h =>
    have hmagnitude := Magnitude.mk (.whole h (by simp)) he
    rw [value_cons, List.length_nil, pow_zero, div_one]
    exact hmagnitude
  | d :: d' :: ds, h =>
    obtain ⟨hd, hds⟩ := List.forall_mem_cons.mp h
    have hfirst : Digits [d] := by simpa [Digits] using hd
    rw [value_cons]
    exact Magnitude.mk (.pointed hfirst hds (by simp)) he

theorem magnitude_text (h : Digits l.digits) : Magnitude l.text l.value := by
  unfold text
  split
  · exact magnitude_plain h
  · exact magnitude_scientific h

end Layout

theorem Double.value_layout (x : Double) :
    x.layout.value = x.halfway.shortest.1 * 10 ^ x.halfway.shortest.2 := by
  simp only [layout, Layout.value]
  generalize x.halfway.shortest = found
  obtain ⟨c, k⟩ := found
  obtain ⟨n, hn⟩ := exists_dropTrailingZeros (Nat.toDigits 10 c)
  have hvalue := natOfDigits_append_zeros (dropTrailingZeros (Nat.toDigits 10 c)) n
  have hlength := congrArg List.length hn
  rw [hn, natOfDigits_toDigits] at hvalue
  rw [List.length_append, zeros, List.length_replicate] at hlength
  have hpower : ((Nat.toDigits 10 c).length : ℤ) + k -
      (dropTrailingZeros (Nat.toDigits 10 c)).length = n + k := by omega
  rw [hpower, zpow_add₀ (by norm_num), zpow_natCast, ← mul_assoc]
  congr 1
  exact_mod_cast hvalue.symm

theorem Double.digits_layout (x : Double) : Digits x.layout.digits := by
  simp only [layout]
  obtain ⟨n, hn⟩ := exists_dropTrailingZeros (Nat.toDigits 10 x.halfway.shortest.1)
  intro c hc
  apply digits_toDigits x.halfway.shortest.1
  rw [← hn]
  exact List.mem_append_left _ hc

end Layout

section Text

variable {x : Double}

/-- A number that rounds to a double: it is zero, or has the sign of the double and lies between
the points halfway to its neighbours. -/
def Double.RoundedFrom (x : Double) (q : ℚ) : Prop :=
  if x.mantissa = 0 then q = 0 else x.halfway.Admits (if x.negative then -q else q)

/-- The digits of a double, without its sign. -/
theorem Double.exists_magnitude (hx : x.Finite) :
    ∃ q, Magnitude (if x.mantissa = 0 then ['0', '.', '0'] else x.layout.text) q ∧
      q < overflowBound ∧ if x.mantissa = 0 then q = 0 else x.halfway.Admits q := by
  split
  · have hzero : Magnitude ['0', '.', '0'] 0 :=
      Magnitude.pointed (digits_zeros 1) (digits_zeros 1) (by simp [zeros])
        (by simp [zeros, natOfDigits])
    exact ⟨0, hzero, lt_of_lt_of_le (by positivity) le_overflowBound, rfl⟩
  · rename_i hm
    have hadmits := admits_shortest hx hm
    rw [← value_layout] at hadmits
    exact ⟨_, Layout.magnitude_text x.digits_layout, lt_overflowBound hx hadmits, hadmits⟩

/-- The text of a finite double is a decimal literal that counts as a number and rounds to it. -/
theorem Double.decimal_text (hx : x.Finite) :
    ∃ q, Decimal x.text.toList q ∧ |q| < overflowBound ∧ x.RoundedFrom q := by
  obtain ⟨q, hmagnitude, hbound, hrounds⟩ := exists_magnitude hx
  have hsize := abs_of_nonneg hmagnitude.nonneg
  simp only [text, RoundedFrom, String.toList_ofList]
  cases x.negative with
  | false =>
    have hdecimal := Decimal.mk .none hmagnitude
    rw [Int.cast_one, one_mul] at hdecimal
    exact ⟨q, hdecimal, hsize.trans_lt hbound, hrounds⟩
  | true =>
    have hdecimal := Decimal.mk .minus hmagnitude
    rw [Int.cast_neg, Int.cast_one, neg_one_mul] at hdecimal
    refine ⟨-q, hdecimal, (abs_neg q).trans hsize |>.trans_lt hbound, ?_⟩
    simpa using hrounds

end Text

end DataflowSql.Number

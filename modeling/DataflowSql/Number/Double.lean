import DataflowSql.Number.Power

/-! Finite double-precision numbers, exactly: a sign, a mantissa of at most 53 bits and a power of
two. Rounding is to the nearest, a half going to the even neighbour. -/
namespace DataflowSql.Number

/-- The number `± mantissa * 2 ^ exponent`. -/
structure Double where
  negative : Bool
  mantissa : Nat
  exponent : Int
deriving DecidableEq, Repr

namespace Double

def leastExponent : Int := -1074

def greatestExponent : Int := 971

def zero (negative : Bool) : Double := ⟨negative, 0, leastExponent⟩

/-- The whole number nearest to `num / den`. -/
def roundRatio (num den : Nat) : Nat :=
  let q := num / den
  let r := num % den
  if 2 * r > den || (2 * r == den && q % 2 == 1) then q + 1 else q

/-- The whole number nearest to `num / den / 2 ^ e`. -/
def scaledRatio (num den : Nat) (e : Int) : Nat :=
  roundRatio (num * twoTo (-e).toNat) (den * twoTo e.toNat)

/-- The power of two that leaves `num / den` with 53 bits, unless it is too small for that. -/
def ratioExponent (num den : Nat) : Int :=
  let e : Int := (num.log2 : Int) - den.log2 - 52
  let e := if num * twoTo (-e).toNat < den * twoTo e.toNat * twoTo 52 then e - 1 else e
  max e leastExponent

/-- The double nearest to `± num / den`, or none beyond the greatest. -/
def ofRatio? (negative : Bool) (num den : Nat) : Option Double :=
  if num = 0 then some (zero negative)
  else
    let e := ratioExponent num den
    let m := scaledRatio num den e
    let (m, e) := if m = twoTo 53 then (twoTo 52, e + 1) else (m, e)
    if e > greatestExponent then none else some ⟨negative, m, e⟩

def ofNat? (negative : Bool) (n : Nat) : Option Double := ofRatio? negative n 1

def mul? (x y : Double) : Option Double :=
  let e := x.exponent + y.exponent
  ofRatio? (x.negative != y.negative) (x.mantissa * y.mantissa * twoTo e.toNat)
    (twoTo (-e).toNat)

def div? (x y : Double) : Option Double :=
  let e := x.exponent - y.exponent
  ofRatio? (x.negative != y.negative) (x.mantissa * twoTo e.toNat)
    (y.mantissa * twoTo (-e).toNat)

/-- A significand scaled by a power of ten in double arithmetic: one rounding for the significand,
one for the power and one for their product or quotient. A power below `10 ^ -308` is taken in
steps of that size. -/
def ofDecimalIn (steps : Nat) (x : Double) (power : Int) : Option Double :=
  if power.natAbs ≤ 308 then do
    let ten ← ofNat? false (tenTo power.natAbs)
    if power ≥ 0 then mul? x ten else div? x ten
  else if x.mantissa = 0 then some x
  else if power ≥ 0 then none
  else match steps with
    | 0 => some (zero x.negative)
    | steps + 1 => do
      let ten ← ofNat? false (tenTo 308)
      ofDecimalIn steps (← div? x ten) (power + 308)

/-- The double that a decimal literal with this significand and power of ten is read as. A
significand of 64 bits vanishes after the second step. -/
def ofDecimal? (negative : Bool) (significand : Nat) (power : Int) : Option Double := do
  ofDecimalIn 3 (← ofNat? negative significand) power

end Double

end DataflowSql.Number

import DataflowSql.Number.Double

/-! The text of a double: the fewest digits that still round to it, and of those the nearest. -/
namespace DataflowSql.Number

/-- A positive double between the two points halfway to its neighbours, counted in quarters of its
own last place. The points themselves round to it when its mantissa is even. -/
structure Halfway where
  low : Nat
  middle : Nat
  high : Nat
  closed : Bool
  exponent : Int

def Double.halfway (x : Double) : Halfway :=
  let m := x.mantissa
  let low := if m = twoTo 52 ∧ x.exponent ≠ Double.leastExponent then 4 * m - 1 else 4 * m - 2
  ⟨low, 4 * m, 4 * m + 2, m % 2 == 0, x.exponent - 2⟩

/-- Brings `c * 10 ^ k` and `n * 2 ^ e` over a common denominator. -/
def common (c : Nat) (k : Int) (n : Nat) (e : Int) : Nat × Nat :=
  (c * tenTo k.toNat * twoTo (-e).toNat, n * tenTo (-k).toNat * twoTo e.toNat)

/-- The decimal `c * 10 ^ k` rounds to the double. -/
def Halfway.contains (h : Halfway) (c : Nat) (k : Int) : Bool :=
  let (x, low) := common c k h.low h.exponent
  let high := (common c k h.high h.exponent).2
  if h.closed then low ≤ x && x ≤ high else low < x && x < high

/-- The greatest multiple of `10 ^ k` not above the double, in units of `10 ^ k`. -/
def Halfway.floor (h : Halfway) (k : Int) : Nat :=
  let (unit, middle) := common 1 k h.middle h.exponent
  middle / unit

/-- How many digits the double has before the point; zero or less when it is below one. -/
def Halfway.places (h : Halfway) : Int :=
  (Nat.toDigits 10 (h.floor (-400))).length - 400

/-- Whether the multiple of `10 ^ k` above the double is nearer than the one below it, `c`. -/
def Halfway.nearerAbove (h : Halfway) (c : Nat) (k : Int) : Bool :=
  let (x, middle) := common (2 * c + 1) k (2 * h.middle) h.exponent
  x < middle || (x == middle && c % 2 == 1)

/-- The nearest multiple of `10 ^ k` that rounds to the double, if there is one. -/
def Halfway.onGrid? (h : Halfway) (k : Int) : Option Nat :=
  let c := h.floor k
  match h.contains c k, h.contains (c + 1) k with
  | true, true => some (if h.nearerAbove c k then c + 1 else c)
  | true, false => some c
  | false, true => some (c + 1)
  | false, false => none

/-- Digits and power of ten of the shortest decimal, from coarse grids to fine ones. Seventeen
digits always suffice, so the last line only completes the definition. -/
def Halfway.shortest (h : Halfway) : Nat × Int :=
  let grids := (List.range 17).map fun (n : Nat) => h.places - 1 - n
  match grids.findSome? fun k => (h.onGrid? k).map fun c => (c, k) with
  | some d => d
  | none => (h.floor (-1100), -1100)

/-- The layout of a decimal: `0.digits * 10 ^ point`. -/
structure Layout where
  digits : List Char
  point : Int
deriving DecidableEq, Repr

def dropTrailingZeros (ds : List Char) : List Char := (ds.reverse.dropWhile (· = '0')).reverse

def Double.layout (x : Double) : Layout :=
  let (c, k) := x.halfway.shortest
  let ds := Nat.toDigits 10 c
  ⟨dropTrailingZeros ds, ds.length + k⟩

def zeros (n : Nat) : List Char := List.replicate n '0'

/-- Digits around a point, with at least one on either side. -/
def Layout.plain (l : Layout) : List Char :=
  if l.point ≤ 0 then '0' :: '.' :: (zeros (-l.point).toNat ++ l.digits)
  else
    let p := l.point.toNat
    if l.digits.length ≤ p then l.digits ++ zeros (p - l.digits.length) ++ ['.', '0']
    else l.digits.take p ++ '.' :: l.digits.drop p

/-- One digit before the point, which is left out when nothing follows it, and a signed
exponent. -/
def Layout.scientific (l : Layout) : List Char :=
  let e := l.point - 1
  let mantissa := match l.digits with
    | [] => ['0']
    | [d] => [d]
    | d :: ds => d :: '.' :: ds
  mantissa ++ 'e' :: (if e < 0 then '-' else '+') :: Nat.toDigits 10 e.natAbs

/-- Exponents from -5 to 15 are written out. -/
def Layout.text (l : Layout) : List Char :=
  if -5 ≤ l.point - 1 ∧ l.point - 1 ≤ 15 then l.plain else l.scientific

def Double.text (x : Double) : String :=
  let magnitude := if x.mantissa = 0 then ['0', '.', '0'] else x.layout.text
  String.ofList (if x.negative then '-' :: magnitude else magnitude)

end DataflowSql.Number

import DataflowSql.Number.Power

/-! Decimal literals: an optional sign, digits with an optional point, an optional exponent. A
literal counts as a number when its value rounds to a finite double. -/
namespace DataflowSql.Number

def natOfDigits (ds : List Char) : Nat :=
  ds.foldl (fun n d => 10 * n + (d.toNat - '0'.toNat)) 0

def dropSign : List Char → List Char
  | '+' :: cs => cs
  | '-' :: cs => cs
  | cs => cs

/-- A non-empty run of digits and nothing else. -/
def digits? (cs : List Char) : Option Nat :=
  if cs.isEmpty || !cs.all Char.isDigit then none else some (natOfDigits cs)

def signed? (cs : List Char) : Option Int :=
  (digits? (dropSign cs)).map fun n => if cs.head? = some '-' then -(n : Int) else n

/-- What follows the mantissa: nothing, or a marked exponent. -/
def exponent? : List Char → Option Int
  | [] => some 0
  | c :: cs => if c = 'e' ∨ c = 'E' then signed? cs else none

/-- A literal without its sign: the digits of its mantissa and the power of ten they are scaled
by. -/
structure Scaled where
  digits : List Char
  exponent : Int
deriving DecidableEq, Repr

def fractionAndRest : List Char → List Char × List Char
  | '.' :: cs => (cs.takeWhile Char.isDigit, cs.dropWhile Char.isDigit)
  | cs => ([], cs)

/-- Reads a literal; a point needs a digit on at least one side. -/
def scaled? (cs : List Char) : Option Scaled :=
  let body := dropSign cs
  let whole := body.takeWhile Char.isDigit
  let (fraction, rest) := fractionAndRest (body.dropWhile Char.isDigit)
  if whole.isEmpty && fraction.isEmpty then none
  else (exponent? rest).map fun e => ⟨whole ++ fraction, e - fraction.length⟩

/-- The least value that rounds to infinity: half a unit above the greatest double. -/
def overflowBound : Nat := twoTo 1024 - twoTo 970

/-- The value stays below `overflowBound`. A number whose first digit stands 309 places before the
point is the only kind that has to be compared digit by digit. -/
def Scaled.isFinite (s : Scaled) : Bool :=
  let ds := s.digits.dropWhile (· = '0')
  let places : Int := ds.length + s.exponent
  if ds.isEmpty || places < 309 then true
  else if places > 309 then false
  else natOfDigits ds * tenTo (309 - ds.length) < overflowBound * tenTo (ds.length - 309)

def isNumber (cs : List Char) : Bool := (scaled? cs).any Scaled.isFinite

/-- A literal that may be written into a statement as it stands. -/
structure Numeral where
  text : String
  isNumber_text : isNumber text.toList = true

def Numeral.of? (text : String) : Option Numeral :=
  if h : isNumber text.toList = true then some ⟨text, h⟩ else none

end DataflowSql.Number

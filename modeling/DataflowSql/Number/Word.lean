import DataflowSql.Number.Numeral

/-! Whole numbers that have to fit a 64-bit word. -/
namespace DataflowSql.Number

def fitsUnsigned (n : Int) : Bool := 0 ≤ n && n < wordBound

def fitsSigned (n : Int) : Bool := -(signedBound : Int) ≤ n && n < signedBound

/-- An optional sign and digits, within the signed range. -/
def signedWord? (s : String) : Option Int :=
  (signed? s.toList).filter fitsSigned

/-- An optional plus and digits, within the unsigned range. -/
def unsignedWord? (s : String) : Option UInt64 :=
  if s.toList.head? = some '-' then none
  else match signed? s.toList with
    | some n => if fitsUnsigned n then some (UInt64.ofNat n.toNat) else none
    | none => none

end DataflowSql.Number

import DataflowSql.Text.Blank
import DataflowSql.Text.LowerCase.Table

/-! Full lower-casing of a text. Two characters are special: a capital I with a dot becomes two
characters, and a capital sigma takes its final form at the end of a word. -/
namespace DataflowSql.Text

def isCased (c : Char) : Bool := inRanges casedRanges c

def isCaseIgnorable (c : Char) : Bool := inRanges caseIgnorableRanges c

/-- The first character that is not case-ignorable is a cased one. -/
def meetsCased (cs : List Char) : Bool :=
  match cs.dropWhile isCaseIgnorable with
  | [] => false
  | c :: _ => isCased c

/-- Lower case of a character on its own. -/
def lowerChar (c : Char) : List Char :=
  if c.toNat == 0x130 then ['i', Char.ofNat 0x307]
  else match lowerRuns.find? fun r => r.covers c.toNat with
    | none => [c]
    | some r => [Char.ofNat (Int.toNat (c.toNat + r.offset))]

/-- Lower case of `c` between the characters before it, nearest first, and those after it. -/
def lowerAt (before : List Char) (c : Char) (after : List Char) : List Char :=
  if c.toNat == 0x3A3 then
    [Char.ofNat (if meetsCased before && !meetsCased after then 0x3C2 else 0x3C3)]
  else lowerChar c

def lowerFrom (before : List Char) : List Char → List Char
  | [] => []
  | c :: cs => lowerAt before c cs ++ lowerFrom (c :: before) cs

def lowerChars (cs : List Char) : List Char := lowerFrom [] cs

def lower (s : String) : String := String.ofList (lowerChars s.toList)

end DataflowSql.Text

import DataflowSql.Json.Number

/-! Reading JSON from a text. Nesting is limited: a bracket beyond the limit is refused where it
stands, before anything after it is looked at. -/
namespace DataflowSql.Json

def isSpace (c : Char) : Bool := c = ' ' || c = '\n' || c = '\t' || c = '\r'

def skipSpace (cs : List Char) : List Char := cs.dropWhile isSpace

/-- The rest of a fixed word. -/
def word : List Char → List Char → Except ReadError (List Char)
  | [], cs => .ok cs
  | _ :: _, [] => .error .ended
  | w :: ws, c :: cs => if w = c then word ws cs else .error .malformed

def hexValue? (c : Char) : Option Nat :=
  if c.isDigit then some (c.toNat - '0'.toNat)
  else if 'a' ≤ c ∧ c ≤ 'f' then some (c.toNat - 'a'.toNat + 10)
  else if 'A' ≤ c ∧ c ≤ 'F' then some (c.toNat - 'A'.toNat + 10)
  else none

def byteCount (cs : List Char) : Nat := cs.foldl (fun n c => n + c.utf8Size) 0

/-- Four hexadecimal digits. A text that ends within four bytes has ended; anything else that is
not four digits is malformed. -/
def hexUnit (cs : List Char) : Except ReadError (Nat × List Char) :=
  match (cs.take 4).mapM hexValue? with
  | some [a, b, c, d] => .ok (((a * 16 + b) * 16 + c) * 16 + d, cs.drop 4)
  | _ => .error (if byteCount cs < 4 then .ended else .malformed)

def isLeadSurrogate (n : Nat) : Bool := 0xD800 ≤ n && n ≤ 0xDBFF

def isTrailSurrogate (n : Nat) : Bool := 0xDC00 ≤ n && n ≤ 0xDFFF

/-- The character of a `\u` escape, after its mark. A lead surrogate needs a trail surrogate right
behind it, and a trail surrogate may not stand alone. -/
def unicodeEscape (cs : List Char) : Except ReadError (Char × List Char) := do
  let (n, rest) ← hexUnit cs
  if isTrailSurrogate n then throw .malformed
  if !isLeadSurrogate n then return (Char.ofNat n, rest)
  let rest ← word ['\\', 'u'] rest
  let (m, rest) ← hexUnit rest
  if !isTrailSurrogate m then throw .malformed
  return (Char.ofNat (0x10000 + (n - 0xD800) * 0x400 + (m - 0xDC00)), rest)

def simpleEscape? (c : Char) : Option Char :=
  if c = '"' || c = '\\' || c = '/' then some c
  else if c = 'b' then some '\x08'
  else if c = 'f' then some '\x0c'
  else if c = 'n' then some '\n'
  else if c = 'r' then some '\r'
  else if c = 't' then some '\t'
  else none

def escape : List Char → Except ReadError (Char × List Char)
  | [] => .error .ended
  | c :: cs =>
    if c = 'u' then unicodeEscape cs
    else match simpleEscape? c with
      | some d => .ok (d, cs)
      | none => .error .malformed

/-- The characters up to the closing quote. Each one read uses up one unit of `fuel`. -/
def stringChars : Nat → List Char → Except ReadError (List Char × List Char)
  | 0, _ => .error .ended
  | _ + 1, [] => .error .ended
  | fuel + 1, c :: cs =>
    if c = '"' then .ok ([], cs)
    else if c = '\\' then do
      let (d, rest) ← escape cs
      let (ds, rest) ← stringChars fuel rest
      return (d :: ds, rest)
    else if c.toNat < 0x20 then .error .malformed
    else do
      let (ds, rest) ← stringChars fuel cs
      return (c :: ds, rest)

/-- A string after its opening quote. -/
def stringBody (cs : List Char) : Except ReadError (String × List Char) := do
  let (ds, rest) ← stringChars (cs.length + 1) cs
  return (String.ofList ds, rest)

def colon (cs : List Char) : Except ReadError (List Char) :=
  match skipSpace cs with
  | [] => .error .ended
  | c :: rest => if c = ':' then .ok rest else .error .malformed

mutual

/-- One value. Every call uses up one unit of `fuel`; `depth` brackets may still be opened. -/
def value : (fuel depth : Nat) → List Char → Except ReadError (Json × List Char)
  | 0, _, _ => .error .ended
  | fuel + 1, depth, cs =>
    match skipSpace cs with
    | [] => .error .ended
    | c :: rest =>
      if c = 'n' then do return (.null, ← word ['u', 'l', 'l'] rest)
      else if c = 't' then do return (.bool true, ← word ['r', 'u', 'e'] rest)
      else if c = 'f' then do return (.bool false, ← word ['a', 'l', 's', 'e'] rest)
      else if c = '-' then number true rest
      else if c.isDigit then number false (c :: rest)
      else if c = '"' then do
        let (s, rest) ← stringBody rest
        return (.string s, rest)
      else if c = '[' then
        match depth with
        | 0 => .error .malformed
        | depth + 1 => do
          let (xs, rest) ← items fuel depth true rest
          return (.array xs, rest)
      else if c = '\x7b' then
        match depth with
        | 0 => .error .malformed
        | depth + 1 => do
          let (fs, rest) ← fields fuel depth true rest
          return (.object fs, rest)
      else .error .malformed

/-- The items up to the closing bracket; `first` before any has been read. -/
def items : (fuel depth : Nat) → Bool → List Char → Except ReadError (List Json × List Char)
  | 0, _, _, _ => .error .ended
  | fuel + 1, depth, first, cs =>
    match skipSpace cs with
    | [] => .error .ended
    | c :: rest =>
      if c = ']' then .ok ([], rest)
      else if first then item fuel depth (c :: rest)
      else if c = ',' then
        if (skipSpace rest).head? = some ']' then .error .malformed else item fuel depth rest
      else .error .malformed

/-- One item and those after it. -/
def item : (fuel depth : Nat) → List Char → Except ReadError (List Json × List Char)
  | 0, _, _ => .error .ended
  | fuel + 1, depth, cs => do
    let (x, rest) ← value fuel depth cs
    let (xs, rest) ← items fuel depth false rest
    return (x :: xs, rest)

/-- The fields up to the closing brace; `first` before any has been read. -/
def fields : (fuel depth : Nat) → Bool → List Char →
    Except ReadError (List (String × Json) × List Char)
  | 0, _, _, _ => .error .ended
  | fuel + 1, depth, first, cs =>
    match skipSpace cs with
    | [] => .error .ended
    | c :: rest =>
      if c = '\x7d' then .ok ([], rest)
      else if first then field fuel depth (c :: rest)
      else if c = ',' then field fuel depth rest
      else .error .malformed

/-- One field and those after it. -/
def field : (fuel depth : Nat) → List Char → Except ReadError (List (String × Json) × List Char)
  | 0, _, _ => .error .ended
  | fuel + 1, depth, cs =>
    match skipSpace cs with
    | [] => .error .ended
    | c :: rest =>
      if c = '"' then do
        let (name, rest) ← stringBody rest
        let (x, rest) ← value fuel depth (← colon rest)
        let (fs, rest) ← fields fuel depth false rest
        return ((name, x) :: fs, rest)
      else .error .malformed

end

/-- The value a text starts with, and what follows it. Between two characters taken from the text
there are at most three calls. -/
def readValue (depth : Nat) (text : String) : Except ReadError (Json × List Char) :=
  let cs := text.toList
  value (3 * cs.length + 3) depth cs

def isEnd (cs : List Char) : Bool := (skipSpace cs).isEmpty

/-- The value a text consists of. -/
def read (depth : Nat) (text : String) : Except ReadError Json := do
  let (v, rest) ← readValue depth text
  if isEnd rest then return v else throw .malformed

end DataflowSql.Json

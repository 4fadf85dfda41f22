import DataflowSql.Json
import DataflowSql.Number.Shortest

/-! Writing JSON: on one line with the fields of every object sorted, or indented with the fields
as they stand. -/
namespace DataflowSql.Json

def hexDigit (n : Nat) : Char := "0123456789abcdef".toList.getD n '0'

def escapeChar (c : Char) : List Char :=
  if c = '"' then ['\\', '"']
  else if c = '\\' then ['\\', '\\']
  else if c = '\x08' then ['\\', 'b']
  else if c = '\x0c' then ['\\', 'f']
  else if c = '\n' then ['\\', 'n']
  else if c = '\r' then ['\\', 'r']
  else if c = '\t' then ['\\', 't']
  else if c.toNat < 0x20 then
    ['\\', 'u', '0', '0', hexDigit (c.toNat / 16), hexDigit (c.toNat % 16)]
  else [c]

def quoted (s : String) : String := "\"" ++ String.ofList (s.toList.flatMap escapeChar) ++ "\""

mutual

def compact : Json → String
  | .null => "null"
  | .bool b => if b then "true" else "false"
  | .integer n => toString n
  | .float x => x.text
  | .string s => quoted s
  | .array xs => "[" ++ ",".intercalate (compactItems xs) ++ "]"
  | .object fs =>
    let texts := (sortedFields (compactFields fs)).map fun f => quoted f.1 ++ ":" ++ f.2
    "\x7b" ++ ",".intercalate texts ++ "\x7d"

def compactItems : List Json → List String
  | [] => []
  | x :: xs => compact x :: compactItems xs

def compactFields : List (String × Json) → List (String × String)
  | [] => []
  | (name, x) :: fs => (name, compact x) :: compactFields fs

end

/-- Lines one level in, between brackets; nothing between them when there are no lines. -/
def block (opening closing : String) (level : Nat) (lines : List String) : String :=
  let margin (n : Nat) : String := String.ofList (List.replicate (2 * n) ' ')
  if lines.isEmpty then opening ++ closing
  else
    let body := ",\n".intercalate (lines.map fun l => margin (level + 1) ++ l)
    opening ++ "\n" ++ body ++ "\n" ++ margin level ++ closing

mutual

/-- One item or field a line, two blanks a level. -/
def indented (level : Nat) : Json → String
  | .array xs => block "[" "]" level (indentedItems (level + 1) xs)
  | .object fs => block "\x7b" "\x7d" level (indentedFields (level + 1) fs)
  | .null => "null"
  | .bool b => if b then "true" else "false"
  | .integer n => toString n
  | .float x => x.text
  | .string s => quoted s

def indentedItems (level : Nat) : List Json → List String
  | [] => []
  | x :: xs => indented level x :: indentedItems level xs

def indentedFields (level : Nat) : List (String × Json) → List String
  | [] => []
  | (name, x) :: fs => (quoted name ++ ": " ++ indented level x) :: indentedFields level fs

end

end DataflowSql.Json

import DataflowSql.Text.Blank
import DataflowSql.Text.Escaped.Table

/-! A text shown inside a message: in double quotes, on one line, with every invisible character
spelled out. -/
namespace DataflowSql.Text

def isInvisible (c : Char) : Bool := inRanges invisibleRanges c

def hexDigits (n : Nat) : String := String.ofList (Nat.toDigits 16 n)

def escapeChar (c : Char) : String :=
  if c == '"' then "\\\""
  else if c == '\\' then "\\\\"
  else if c == '\x00' then "\\0"
  else if c == '\t' then "\\t"
  else if c == '\n' then "\\n"
  else if c == '\r' then "\\r"
  else if isInvisible c then "\\u\x7b" ++ hexDigits c.toNat ++ "\x7d"
  else c.toString

def escaped (s : String) : String :=
  "\"" ++ String.join (s.toList.map escapeChar) ++ "\""

end DataflowSql.Text

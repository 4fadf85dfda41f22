import DataflowSql.Dialect

/-! Quoted identifiers and string literals. The closing quote is doubled inside. -/
namespace DataflowSql

/-- Writes every `q` twice. -/
def doubling (q : Char) (cs : List Char) : List Char :=
  cs.flatMap fun c => if c = q then [c, c] else [c]

namespace Dialect

def openingQuote : Dialect → Char
  | .mySql => '\x60'
  | .postgreSql => '"'
  | .sqlServer => '['

def closingQuote : Dialect → Char
  | .mySql => '\x60'
  | .postgreSql => '"'
  | .sqlServer => ']'

def identifierChars (d : Dialect) (name : List Char) : List Char :=
  d.openingQuote :: (doubling d.closingQuote name ++ [d.closingQuote])

def quoteIdentifier (d : Dialect) (name : String) : String :=
  String.ofList (d.identifierChars name.toList)

/-- A reference of several parts. Each is quoted whole, so a dot inside one belongs to it. -/
def quotePath (d : Dialect) (parts : List String) : String :=
  ".".intercalate (parts.map d.quoteIdentifier)

/-- What stands before the quotes of a string literal. -/
def stringMark : Dialect → String
  | .mySql => ""
  | .postgreSql => ""
  | .sqlServer => "N"

def stringChars (value : List Char) : List Char := '\'' :: (doubling '\'' value ++ ['\''])

def quoteString (d : Dialect) (value : String) : String :=
  d.stringMark ++ String.ofList (stringChars value.toList)

def truthLiteral : Dialect → Bool → String
  | .sqlServer, b => if b then "1" else "0"
  | _, b => if b then "TRUE" else "FALSE"

end Dialect

end DataflowSql

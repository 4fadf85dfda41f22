import DataflowSql.Dialect.Quoting
import DataflowSql.Number.Numeral
import DataflowSql.Sql.Name

/-! SQL expressions in the forms the dialects write them, over columns of type `α`, and their text.
A sum has no parentheses of its own: `group` writes them where they are meant. -/
namespace DataflowSql.Sql

/-- Moments read off the server's clock. -/
inductive Clock where
  | now
  | getDate
  | currentDate
  | dateAddHours (hours : Int)
  | intervalHours (hours : Int)
  | dateAddHourPart (hours : Int)
deriving DecidableEq, Repr

def Clock.text : Clock → String
  | .now => "NOW()"
  | .getDate => "GETDATE()"
  | .currentDate => "CURRENT_DATE"
  | .dateAddHours h => "DATE_ADD(NOW(), INTERVAL " ++ toString h ++ " HOUR)"
  | .intervalHours h => "NOW() + INTERVAL '" ++ toString h ++ " hours'"
  | .dateAddHourPart h => "DATEADD(hour, " ++ toString h ++ ", GETDATE())"

inductive Unary where
  | group
  | castChar
  | castText
  | castNVarChar
  | castFloat
  | castDate
  | convertDate
  | convertMonth
  | length
  | len
  | lower
  | binary
  | collateInsensitive
  | collateSensitive
  | year
  | extractYear
  | extractMonth
  | dateFormatMonth
  | dateFormatPeriod
  | toCharMonth
  | daysFromNow
  | dayDifference
  | monthDifference
  | timesTwelve
  | avg
  | sum
  | min
  | max
deriving DecidableEq, Repr

/-- What stands before and after the operand. -/
def Unary.frame : Unary → String × String
  | .group => ("(", ")")
  | .castChar => ("CAST(", " AS CHAR)")
  | .castText => ("CAST(", " AS TEXT)")
  | .castNVarChar => ("CAST(", " AS NVARCHAR(MAX))")
  | .castFloat => ("CAST(", " AS FLOAT)")
  | .castDate => ("CAST(", " AS DATE)")
  | .convertDate => ("CONVERT(NVARCHAR(MAX), ", ", 120)")
  | .convertMonth => ("CONVERT(VARCHAR(7), ", ", 120)")
  | .length => ("LENGTH(", ")")
  | .len => ("LEN(", ")")
  | .lower => ("LOWER(", ")")
  | .binary => ("BINARY ", "")
  | .collateInsensitive => ("", " COLLATE Latin1_General_CI_AS")
  | .collateSensitive => ("", " COLLATE Latin1_General_CS_AS")
  | .year => ("YEAR(", ")")
  | .extractYear => ("EXTRACT(YEAR FROM ", ")")
  | .extractMonth => ("EXTRACT(MONTH FROM ", ")")
  | .dateFormatMonth => ("DATE_FORMAT(", ", '%Y-%m')")
  | .dateFormatPeriod => ("DATE_FORMAT(", ", '%Y%m')")
  | .toCharMonth => ("TO_CHAR(", ", 'YYYY-MM')")
  | .daysFromNow => ("DATEDIFF(", ", NOW())")
  | .dayDifference => ("DATEDIFF(day, GETDATE(), ", ")")
  | .monthDifference => ("DATEDIFF(month, GETDATE(), ", ")")
  | .timesTwelve => ("", " * 12")
  | .avg => ("AVG(", ")")
  | .sum => ("SUM(", ")")
  | .min => ("MIN(", ")")
  | .max => ("MAX(", ")")

inductive Binary where
  | plus
  | minus
  | locate
  | charIndex
  | positionIn
  | substringFrom
  | periodDiff
deriving DecidableEq, Repr

/-- What stands before, between and after the operands. -/
def Binary.frame : Binary → String × String × String
  | .plus => ("", " + ", "")
  | .minus => ("", " - ", "")
  | .locate => ("LOCATE(", ", ", ")")
  | .charIndex => ("CHARINDEX(", ", ", ")")
  | .positionIn => ("POSITION(", " IN ", ")")
  | .substringFrom => ("SUBSTRING(", " FROM ", ")")
  | .periodDiff => ("PERIOD_DIFF(", ", ", ")")

inductive Ternary where
  | locate
  | charIndex
  | substring
  | substringFor
deriving DecidableEq, Repr

def Ternary.frame : Ternary → String × String × String × String
  | .locate => ("LOCATE(", ", ", ", ", ")")
  | .charIndex => ("CHARINDEX(", ", ", ", ", ")")
  | .substring => ("SUBSTRING(", ", ", ", ", ")")
  | .substringFor => ("SUBSTRING(", " FROM ", " FOR ", ")")

inductive Expr (α : Type) where
  | column (source : α)
  | null
  | countAll
  | emptyText
  | integer (value : Int)
  | numeral (literal : Number.Numeral)
  | text (value : String)
  | truth (value : Bool)
  | clock (moment : Clock)
  | unary (form : Unary) (x : Expr α)
  | binary (form : Binary) (x y : Expr α)
  | ternary (form : Ternary) (x y z : Expr α)

namespace Expr

variable {α : Type}

/-- The text of an expression, given that of its columns. -/
def sql (d : Dialect) (column : α → String) : Expr α → String
  | .column c => column c
  | .null => "NULL"
  | .countAll => "COUNT(*)"
  | .emptyText => "''"
  | .integer n => toString n
  | .numeral n => n.text
  | .text s => d.quoteString s
  | .truth b => d.truthLiteral b
  | .clock m => m.text
  | .unary f x => f.frame.1 ++ x.sql d column ++ f.frame.2
  | .binary f x y => f.frame.1 ++ x.sql d column ++ f.frame.2.1 ++ y.sql d column ++ f.frame.2.2
  | .ternary f x y z =>
    f.frame.1 ++ x.sql d column ++ f.frame.2.1 ++ y.sql d column ++ f.frame.2.2.1 ++
      z.sql d column ++ f.frame.2.2.2

def group (x : Expr α) : Expr α := .unary .group x

/-- The sum `x + y`. One on the right is written without parentheses, so its terms join those on
the left. -/
def plus (x : Expr α) : Expr α → Expr α
  | .binary .plus y z => .binary .plus (plus x y) z
  | .binary .minus y z => .binary .minus (plus x y) z
  | y => .binary .plus x y

/-- The difference `x - y`, for a `y` that is not itself a sum. -/
def minus (x y : Expr α) : Expr α := .binary .minus x y

end Expr

/-- Where a column of a query comes from: the output column of the only input, the output column of
the range it is read under, or a field of the table read under a range. -/
inductive ColumnRef where
  | output (index : Nat)
  | ranged (range : String) (index : Nat)
  | field (range : String) (name : String)
deriving DecidableEq, Repr

def ColumnRef.sql (d : Dialect) : ColumnRef → String
  | .output i => columnName i
  | .ranged r i => r ++ "." ++ columnName i
  | .field r n => r ++ "." ++ d.quoteIdentifier n

end DataflowSql.Sql

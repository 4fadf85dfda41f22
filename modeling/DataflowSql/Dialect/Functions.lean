import DataflowSql.Dialect.TypeName
import DataflowSql.Sql.Expr

/-! The functions of the dialects: how each spells a cast, a search, a slice, a moment, a distance
in time and a comparison of texts. -/
namespace DataflowSql.Dialect

open Sql

variable {α : Type}

/-- SQL Server converts dates in the form that begins with the year. -/
def castToText (d : Dialect) (x : Expr α) (typeName : String) : Expr α :=
  match d with
  | .mySql => .unary .castChar x
  | .postgreSql => .unary .castText x
  | .sqlServer => if d.isDate typeName then .unary .convertDate x else .unary .castNVarChar x

def lengthForm : Dialect → Unary
  | .mySql => .length
  | .postgreSql => .length
  | .sqlServer => .len

/-- The name of the function that counts the characters of a text. -/
def lengthFunction : Dialect → String
  | .mySql => "LENGTH"
  | .postgreSql => "LENGTH"
  | .sqlServer => "LEN"

/-- Position of `needle` in `haystack`, counted from one, looked for from position `start` on.
PostgreSQL has no third operand: it searches what is left of the text and adds back what was
skipped. -/
def locate (d : Dialect) (needle haystack : Expr α) (start : Option (Expr α)) : Expr α :=
  match d, start with
  | .mySql, none => .binary .locate needle haystack
  | .mySql, some s => .ternary .locate needle haystack s
  | .sqlServer, none => .binary .charIndex needle haystack
  | .sqlServer, some s => .ternary .charIndex needle haystack s
  | .postgreSql, none => .binary .positionIn needle haystack
  | .postgreSql, some s =>
    let found := .binary .positionIn needle (.binary .substringFrom haystack s)
    .group (.minus (.plus found s) (.integer 1))

def substring (d : Dialect) (x start length : Expr α) : Expr α :=
  match d with
  | .postgreSql => .ternary .substringFor x start length
  | _ => .ternary .substring x start length

def now : Dialect → Clock
  | .mySql => .now
  | .postgreSql => .now
  | .sqlServer => .getDate

def hoursFromNow (d : Dialect) (hours : Int) : Clock :=
  match d with
  | .mySql => .dateAddHours hours
  | .postgreSql => .intervalHours hours
  | .sqlServer => .dateAddHourPart hours

/-- Whole days from today to `x`, negative in the past. -/
def dayOffset (d : Dialect) (x : Expr α) : Expr α :=
  match d with
  | .mySql => .unary .daysFromNow x
  | .postgreSql => .group (.minus (.unary .castDate x) (.clock .currentDate))
  | .sqlServer => .unary .dayDifference x

/-- Whole calendar months from this month to that of `x`. -/
def monthOffset (d : Dialect) (x : Expr α) : Expr α :=
  match d with
  | .mySql =>
    .binary .periodDiff (.unary .dateFormatPeriod x) (.unary .dateFormatPeriod (.clock .now))
  | .postgreSql =>
    let years := .minus (.unary .extractYear x) (.unary .extractYear (.clock .now))
    .group (.minus (.plus (.unary .timesTwelve (.group years)) (.unary .extractMonth x))
      (.unary .extractMonth (.clock .now)))
  | .sqlServer => .unary .monthDifference x

/-- Year and month of a date, as text. -/
def monthOf (d : Dialect) (x : Expr α) : Expr α :=
  match d with
  | .mySql => .unary .dateFormatMonth x
  | .postgreSql => .unary .toCharMonth x
  | .sqlServer => .unary .convertMonth x

def yearOf (d : Dialect) (x : Expr α) : Expr α :=
  match d with
  | .postgreSql => .unary .extractYear x
  | _ => .unary .year x

/-- SQL Server would cut the average of whole numbers to a whole number. -/
def average (d : Dialect) (x : Expr α) : Expr α :=
  match d with
  | .sqlServer => .unary .avg (.unary .castFloat x)
  | _ => .unary .avg x

/-- The two sides of a comparison of texts that minds the case of letters, or does not. -/
def textSides (d : Dialect) (caseSensitive : Bool) (x y : Expr α) : Expr α × Expr α :=
  match d, caseSensitive with
  | .postgreSql, false => (.unary .lower x, .unary .lower y)
  | .sqlServer, false => (.unary .collateInsensitive x, y)
  | .sqlServer, true => (.unary .collateSensitive x, y)
  | .mySql, true => (.unary .binary x, y)
  | .postgreSql, true => (x, y)
  | .mySql, false => (x, y)

end DataflowSql.Dialect

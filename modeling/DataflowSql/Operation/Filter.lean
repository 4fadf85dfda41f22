import DataflowSql.Dialect.Functions
import DataflowSql.Number.Word
import DataflowSql.Outcome
import DataflowSql.Sql.Predicate

/-! Filter: the rows of the input that satisfy one condition on one column. -/
namespace DataflowSql

inductive FilterOperator where
  | equalTo
  | doesNotEqual
  | greaterThan
  | greaterThanOrEqual
  | lessThan
  | lessThanOrEqual
  | startsWith
  | endsWith
  | contains
  | doesNotContain
  | isEmpty
  | isNotEmpty
  | today
  | last24Hours
  | next24Hours
  | last7Days
  | next7Days
  | lastMonth
  | thisMonth
  | nextMonth
  | last90Days
  | next90Days
  | lastNDays
  | nextNDays
deriving DecidableEq, Repr

/-- What an operator asks of the column. -/
inductive FilterTest where
  | compare (operator : Sql.Comparison)
  | search (place : MatchPlace) (negated : Bool)
  | empty (negated : Bool)
  | day
  | hours (count : Int)
  | days (first last : Int)
  | month (offset : Int)
  | pastDays
  | comingDays
deriving DecidableEq, Repr

namespace FilterOperator

def test : FilterOperator → FilterTest
  | .equalTo => .compare .equal
  | .doesNotEqual => .compare .notEqual
  | .greaterThan => .compare .greater
  | .greaterThanOrEqual => .compare .greaterOrEqual
  | .lessThan => .compare .less
  | .lessThanOrEqual => .compare .lessOrEqual
  | .startsWith => .search .start false
  | .endsWith => .search .finish false
  | .contains => .search .anywhere false
  | .doesNotContain => .search .anywhere true
  | .isEmpty => .empty false
  | .isNotEmpty => .empty true
  | .today => .day
  | .last24Hours => .hours (-24)
  | .next24Hours => .hours 24
  | .last7Days => .days (-7) (-1)
  | .next7Days => .days 1 7
  | .last90Days => .days (-90) (-1)
  | .next90Days => .days 1 90
  | .lastMonth => .month (-1)
  | .thisMonth => .month 0
  | .nextMonth => .month 1
  | .lastNDays => .pastDays
  | .nextNDays => .comingDays

def needsValue (o : FilterOperator) : Bool :=
  o ∈ [equalTo, doesNotEqual, greaterThan, greaterThanOrEqual, lessThan, lessThanOrEqual,
    startsWith, endsWith, contains, doesNotContain, lastNDays, nextNDays]

end FilterOperator

structure Filter where
  filterColumnIndex : Option Nat
  operator : Option FilterOperator
  filterValue : Option String
  caseSensitive : Bool
deriving DecidableEq, Repr

namespace Filter

open Sql

def truthValue? (value : String) : Option Bool :=
  let v := String.ofList (Text.lowerChars (Text.trimChars value.toList))
  if v = "true" ∨ v = "1" ∨ v = "yes" then some true
  else if v = "false" ∨ v = "0" ∨ v = "no" then some false
  else none

/-- The value as a literal of a column type. Only numbers may stand without quotes. -/
def literalOf (d : Dialect) (id typeName value : String) : Outcome (Expr ColumnRef) :=
  let refused (fault : LiteralFault) : CompileError := .invalidLiteral id value fault
  let numeral := (Number.Numeral.of? (Text.trim value)).map Expr.numeral
  match d.classify typeName with
  | .boolean => Outcome.ofOption (refused .notTruthValue) ((truthValue? value).map Expr.truth)
  | .text => Outcome.ok (.text value)
  | .date => Outcome.ok (.text value)
  | .numeric => Outcome.ofOption (refused .notNumber) numeral
  | .other => Outcome.ofOption (refused .notNumber) numeral

def value (f : Filter) (id : String) : Outcome String :=
  Outcome.ofOption (.missingSetting id .filterValue) f.filterValue

def literal (d : Dialect) (f : Filter) (id typeName : String) : Outcome (Expr ColumnRef) := do
  literalOf d id typeName (← f.value id)

/-- The value as a positive number of days. -/
def dayCount (f : Filter) (id : String) : Outcome Int := do
  let value ← f.value id
  let count := (Number.signedWord? (Text.trim value)).filter fun n => 0 < n
  Outcome.ofOption (.invalidLiteral id value .notDayCount) count

/-- Whole days from today to the column, both ends included. -/
def dayWindow (d : Dialect) (column : Expr ColumnRef) (first last : Int) : Predicate ColumnRef :=
  .between (d.dayOffset column) (.integer first) (.integer last)

/-- The hours between now and a moment `count` hours away. -/
def hourWindow (d : Dialect) (column : Expr ColumnRef) (count : Int) : Predicate ColumnRef :=
  let now := .clock d.now
  let other := .clock (d.hoursFromNow count)
  if count < 0 then .between column other now else .between column now other

/-- A text without characters counts as empty, like a missing value. -/
def emptiness (isText negated : Bool) (column : Expr ColumnRef) : Predicate ColumnRef :=
  match isText, negated with
  | true, false => .either (.isNull column) (.compare .equal column .emptyText)
  | true, true => .both (.isNotNull column) (.compare .notEqual column .emptyText)
  | false, false => .isNull column
  | false, true => .isNotNull column

/-- A test of the column at `index`, which has this type. -/
def condition (d : Dialect) (f : Filter) (id typeName : String) (index : Nat)
    (test : FilterTest) : Outcome (Predicate ColumnRef) :=
  let column := .column (.output index)
  match test with
  | .compare op => do
    let literal ← f.literal d id typeName
    if d.isText typeName && (op = .equal || op = .notEqual) then
      let (x, y) := d.textSides f.caseSensitive column literal
      return .compare op x y
    else
      return .compare op column literal
  | .search place negated => do
    let value ← f.value id
    let subject := if d.isText typeName then column else d.castToText column typeName
    let (x, y) := d.textSides f.caseSensitive subject (.text (d.likePattern place value))
    return .like negated x y
  | .empty negated => return emptiness (d.isText typeName) negated column
  | .day => return .compare .equal (d.dayOffset column) (.integer 0)
  | .hours count => return hourWindow d column count
  | .days first last => return dayWindow d column first last
  | .month offset => return .compare .equal (d.monthOffset column) (.integer offset)
  | .pastDays => do return dayWindow d column (-(← f.dayCount id)) (-1)
  | .comingDays => do return dayWindow d column 1 (← f.dayCount id)

/-- The condition on the rows of an input with these columns. They are only looked at once the
column and the operator are known to be set. -/
def predicate (d : Dialect) (f : Filter) (id : String) (input : Unit → Outcome Projection) :
    Outcome (Predicate ColumnRef) := do
  let index ← Outcome.ofOption (.missingSetting id .filterColumnIndex) f.filterColumnIndex
  let operator ← Outcome.ofOption (.missingSetting id .operator) f.operator
  let column ← (← input ()).column id index
  f.condition d id column.type index operator.test

end Filter

end DataflowSql

import DataflowSql.Dialect.Functions
import DataflowSql.Outcome

/-! Extract: all columns of the input and a slice of one of them. Positions count from one. -/
namespace DataflowSql

inductive StartType where
  | beginning
  | position
  | firstOccurrence
  | afterFirstOccurrence
deriving DecidableEq, Repr

inductive EndType where
  | finish
  | position
  | length
  | nextOccurrence
  | afterNextOccurrence
deriving DecidableEq, Repr

structure Extract where
  inputColumnIndex : Option Nat
  startType : StartType
  startPosition : Option Int
  startSearch : Option String
  endType : EndType
  endPosition : Option Int
  endLength : Option Int
  endSearch : Option String
  columnName : Option String
deriving DecidableEq, Repr

namespace Extract

open Sql

/-- A text to look for; an empty one counts as none. -/
def needle (id : String) (value : Option String) (setting : Setting) : Outcome String :=
  Outcome.ofOption (.missingSetting id setting) (value.filter fun s => !s.isEmpty)

def positive (id : String) (value : Option Int) (setting : Setting) : Outcome Int :=
  match value with
  | none => Outcome.fail (.missingSetting id setting)
  | some n =>
    if 1 ≤ n then Outcome.ok n else Outcome.fail (.invalidLiteral id (toString n) .belowOne)

/-- Position of the first character of the slice. -/
def start (d : Dialect) (e : Extract) (id : String) (text : Expr ColumnRef) :
    Outcome (Expr ColumnRef) :=
  match e.startType with
  | .beginning => return .integer 1
  | .position => return .integer (← positive id e.startPosition .startPosition)
  | .firstOccurrence => do
    let s ← needle id e.startSearch .startSearch
    return d.locate (.text s) text none
  | .afterFirstOccurrence => do
    let s ← needle id e.startSearch .startSearch
    return .group (.plus (d.locate (.text s) text none) (.integer s.length))

/-- Number of characters of the slice. The end is looked for strictly after its start. -/
def sliceLength (d : Dialect) (e : Extract) (id : String) (text start : Expr ColumnRef) :
    Outcome (Expr ColumnRef) :=
  let next (s : String) : Expr ColumnRef :=
    d.locate (.text s) text (some (.plus start (.integer 1)))
  match e.endType with
  | .finish => return .unary d.lengthForm text
  | .position => do
    let last ← positive id e.endPosition .endPosition
    return .plus (.minus (.integer last) start) (.integer 1)
  | .length => return .integer (← positive id e.endLength .endLength)
  | .nextOccurrence => do
    let s ← needle id e.endSearch .endSearch
    return .minus (next s) start
  | .afterNextOccurrence => do
    let s ← needle id e.endSearch .endSearch
    return .minus (.plus (next s) (.integer s.length)) start

def sourceIndex (e : Extract) (id : String) : Outcome Nat :=
  Outcome.ofOption (.missingSetting id .inputColumnIndex) e.inputColumnIndex

/-- The slice of a column, which is cast to text first if it has to be. The input is only looked at
once the column is known to be set. -/
def slice (d : Dialect) (e : Extract) (id : String) (input : Unit → Outcome Projection) :
    Outcome (Expr ColumnRef) := do
  let index ← e.sourceIndex id
  let source ← (← input ()).column id index
  let column := .column (.output index)
  let text := if d.needsCastToSlice source.type then d.castToText column source.type else column
  let start ← e.start d id text
  let length ← e.sliceLength d id text start
  return d.substring text start length

/-- The column the slice becomes. -/
def newColumn (d : Dialect) (e : Extract) (source : Column) : Column where
  name := (e.columnName.filter fun n => !Text.isAllBlank n).getD (source.name ++ " (extract)")
  type := if d.isDate source.type then d.textType else source.type

def projection (d : Dialect) (e : Extract) (id : String) (input : Projection) :
    Outcome Projection := do
  let index ← e.sourceIndex id
  let source ← input.column id index
  return input ++ [e.newColumn d source]

end Extract

end DataflowSql

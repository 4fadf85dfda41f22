import DataflowSql.Outcome
import DataflowSql.Schema.SortKey

/-! Chart projection: the axis and the data series that a chart plots. -/
namespace DataflowSql

inductive ChartType where
  | line
  | bar
  | pie
deriving DecidableEq, Repr

structure ChartProjection where
  chartType : ChartType
  horizontalColumnIndex : Option Nat
  dataSeriesColumnIndexes : Option (List Nat)
  /-- The only series, when no series are listed. -/
  valueColumnIndex : Option Nat
deriving DecidableEq, Repr

namespace ChartProjection

/-- The axis, if the input has such a column. -/
def axis? (c : ChartProjection) (inputLength : Nat) : Option Nat :=
  c.horizontalColumnIndex.filter fun i => i < inputLength

def series (c : ChartProjection) : List Nat :=
  match c.dataSeriesColumnIndexes with
  | some (i :: is) => i :: is
  | _ => c.valueColumnIndex.toList

/-- Input columns in output order. There must be a series, and every one must exist. -/
def picks (c : ChartProjection) (id : String) (input : Projection) : Outcome (List Nat) :=
  if c.series.isEmpty then Outcome.fail (.missingSetting id .dataSeriesColumnIndexes)
  else match c.series.find? fun i => input.length ≤ i with
    | some i => Outcome.fail (.columnIndexOutOfRange id i input.length)
    | none => Outcome.ok ((c.axis? input.length).toList ++ c.series)

def projection (c : ChartProjection) (id : String) (input : Projection) : Outcome Projection := do
  return (← c.picks id input).filterMap fun i => input[i]?

/-- A line chart with an axis is drawn along it; other charts do not look at the input for this. -/
def followsAxis (c : ChartProjection) (input : Unit → Outcome Projection) : Outcome Bool :=
  match c.chartType with
  | .line => do return (c.axis? (← input ()).length).isSome
  | _ => Outcome.ok false

end ChartProjection

end DataflowSql

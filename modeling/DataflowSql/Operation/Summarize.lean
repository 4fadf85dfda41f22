import DataflowSql.Dialect.Functions
import DataflowSql.Outcome

/-! Summarize: groups of input rows, and aggregates over each. -/
namespace DataflowSql

inductive GroupByFunction where
  | raw
  | month
  | year
deriving DecidableEq, Repr

inductive AggregateFunction where
  | count
  | sum
  | min
  | max
  | average
  | median
deriving DecidableEq, Repr

structure Summarize where
  groupByColumnIndexes : List Nat
  /-- By position in `groupByColumnIndexes`; the raw value where there is none. -/
  groupByFunctions : List GroupByFunction
  /-- By position in `aggregateFunctions`; a count has no use for it. -/
  aggregateColumnIndexes : List (Option Nat)
  aggregateFunctions : List AggregateFunction
deriving DecidableEq, Repr

namespace Summarize

open Sql

/-- An output column and the expression behind it. -/
structure Output where
  column : Column
  expr : Expr ColumnRef

def groupOutput (d : Dialect) (source : Column) (index : Nat) (f : GroupByFunction) : Output :=
  let x := .column (.output index)
  match f with
  | .raw => ⟨source, x⟩
  | .month => ⟨⟨"Month of " ++ source.name, d.textType⟩, d.monthOf x⟩
  | .year => ⟨⟨"Year of " ++ source.name, d.integerType⟩, d.yearOf x⟩

def groupOutputs (d : Dialect) (s : Summarize) (id : String) (input : Projection) :
    Outcome (List Output) :=
  s.groupByColumnIndexes.zipIdx.mapM fun e => do
    let source ← input.column id e.1
    return groupOutput d source e.1 (s.groupByFunctions[e.2]?.getD .raw)

def countOutput (d : Dialect) : Output := ⟨⟨"Count", d.integerType⟩, .countAll⟩

/-- Only a median differs from what its name says: it is an average, and warns about that. -/
def aggregateOutput (d : Dialect) (id : String) (source : Column) (index : Nat)
    (f : AggregateFunction) : Outcome Output :=
  let x := .column (.output index)
  let labelled (label type : String) (e : Expr ColumnRef) : Output :=
    ⟨⟨label ++ " of " ++ source.name, type⟩, e⟩
  match f with
  | .count => return countOutput d
  | .sum => return labelled "Sum" source.type (.unary .sum x)
  | .min => return labelled "Min" source.type (.unary .min x)
  | .max => return labelled "Max" source.type (.unary .max x)
  | .average => return labelled "Average" d.floatType (d.average x)
  | .median => do
    Outcome.warn (.medianAsAverage id)
    return labelled "Median" d.floatType (d.average x)

def aggregateOutputs (d : Dialect) (s : Summarize) (id : String) (input : Projection) :
    Outcome (List Output) :=
  s.aggregateFunctions.zipIdx.mapM fun e =>
    if e.1 = .count then return countOutput d
    else do
      let index ← Outcome.ofOption (.missingSetting id .aggregateColumnIndexes)
        s.aggregateColumnIndexes[e.2]?.join
      let source ← input.column id index
      aggregateOutput d id source index e.1

/-- Groups, then aggregates. -/
structure Outputs where
  groups : List Output
  aggregates : List Output

def Outputs.all (o : Outputs) : List Output := o.groups ++ o.aggregates

def outputs (d : Dialect) (s : Summarize) (id : String) (input : Projection) :
    Outcome Outputs := do
  let groups ← s.groupOutputs d id input
  let aggregates ← s.aggregateOutputs d id input
  return ⟨groups, aggregates⟩

end Summarize

end DataflowSql

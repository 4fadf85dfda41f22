import DataflowSql.Document.Shape
import DataflowSql.Operation

/-! Node documents: a list of node objects, or an object that holds the list under `nodes`. What is
checked first decides which error is reported: the id, the inputs, the operation, then its settings
by name. Keys that mean nothing to an operation are passed over. -/
namespace DataflowSql.Document

abbrev Fields := List (String × Json)

def indexOption : Reader (Option Nat) := optional index

def wordOption : Reader (Option Int) := optional word

def textOption : Reader (Option String) := optional text

def tableSource (fs : Fields) : Except ShapeError TableSource := do
  let table ← fieldOr fs "Table" none textOption
  return ⟨table⟩

def select (fs : Fields) : Except ShapeError Select := do
  let columnAliases ← fieldOr fs "ColumnAliases" [] (list textOption)
  let included ← fieldOr fs "IncludedColumnIndexes" none (optional (list index))
  return ⟨included, columnAliases⟩

def filterOperators : List (String × FilterOperator) :=
  [("EqualTo", .equalTo), ("DoesNotEqual", .doesNotEqual), ("GreaterThan", .greaterThan),
   ("GreaterThanOrEqual", .greaterThanOrEqual), ("LessThan", .lessThan),
   ("LessThanOrEqual", .lessThanOrEqual), ("StartsWith", .startsWith), ("EndsWith", .endsWith),
   ("Contains", .contains), ("DoesNotContain", .doesNotContain), ("IsEmpty", .isEmpty),
   ("IsNotEmpty", .isNotEmpty), ("Today", .today), ("Last24Hours", .last24Hours),
   ("Next24Hours", .next24Hours), ("Last7Days", .last7Days), ("Next7Days", .next7Days),
   ("LastMonth", .lastMonth), ("ThisMonth", .thisMonth), ("NextMonth", .nextMonth),
   ("Last90Days", .last90Days), ("Next90Days", .next90Days), ("LastNDays", .lastNDays),
   ("NextNDays", .nextNDays)]

def filter (fs : Fields) : Except ShapeError Filter := do
  let caseSensitive ← fieldOr fs "CaseSensitive" false truth
  let columnIndex ← fieldOr fs "FilterColumnIndex" none indexOption
  let value ← fieldOr fs "FilterValue" none scalarText
  let operator ← fieldOr fs "Operator" none (optional (choice filterOperators))
  return ⟨columnIndex, operator, value, caseSensitive⟩

def sortDirections : List (String × SortDirection) :=
  [("Ascending", .ascending), ("Descending", .descending)]

def sorting (fs : Fields) : Except ShapeError Sorting := do
  let columns ← fieldOr fs "SortColumns" [] (list index)
  let directions ← fieldOr fs "SortDirections" [] (list (choice sortDirections))
  return ⟨columns, directions⟩

def joinTypes : List (String × JoinType) :=
  [("Inner", .inner), ("LeftOuter", .leftOuter), ("RightOuter", .rightOuter),
   ("FullOuter", .fullOuter), ("Cross", .cross)]

def join (fs : Fields) : Except ShapeError Join := do
  let joinType ← fieldOr fs "JoinType" .inner (choice joinTypes)
  let left ← fieldOr fs "Table1Column" none indexOption
  let right ← fieldOr fs "Table2Column" none indexOption
  return ⟨joinType, left, right⟩

def append (fs : Fields) : Except ShapeError Append := do
  let includeUnique ← fieldOr fs "IncludeUniqueColumns" false truth
  return ⟨includeUnique⟩

/-- A raw value may also be called none. -/
def groupByFunctions : List (String × GroupByFunction) :=
  [("None", .raw), ("Raw", .raw), ("Month", .month), ("Year", .year)]

def aggregateFunctions : List (String × AggregateFunction) :=
  [("Count", .count), ("Sum", .sum), ("Min", .min), ("Max", .max), ("Average", .average),
   ("Median", .median)]

def summarize (fs : Fields) : Except ShapeError Summarize := do
  let aggregateIndexes ← fieldOr fs "AggregateColumnIndexes" [] (list indexOption)
  let aggregates ← fieldOr fs "AggregateFunctions" [] (list (choice aggregateFunctions))
  let groupIndexes ← fieldOr fs "GroupByColumnIndexes" [] (list index)
  let groups ← fieldOr fs "GroupByFunctions" [] (list (choice groupByFunctions))
  return ⟨groupIndexes, groups, aggregateIndexes, aggregates⟩

def startTypes : List (String × StartType) :=
  [("Beginning", .beginning), ("Position", .position), ("FirstOccurrence", .firstOccurrence),
   ("AfterFirstOccurrence", .afterFirstOccurrence)]

def endTypes : List (String × EndType) :=
  [("End", .finish), ("Position", .position), ("Length", .length),
   ("NextOccurrence", .nextOccurrence), ("AfterNextOccurrence", .afterNextOccurrence)]

def extract (fs : Fields) : Except ShapeError Extract := do
  let columnName ← fieldOr fs "ColumnName" none textOption
  let endLength ← fieldOr fs "EndLength" none wordOption
  let endPosition ← fieldOr fs "EndPosition" none wordOption
  let endSearch ← fieldOr fs "EndSearch" none textOption
  let endType ← fieldOr fs "EndType" .finish (choice endTypes)
  let inputColumn ← fieldOr fs "InputColumnIndex" none indexOption
  let startPosition ← fieldOr fs "StartPosition" none wordOption
  let startSearch ← fieldOr fs "StartSearch" none textOption
  let startType ← fieldOr fs "StartType" .beginning (choice startTypes)
  return ⟨inputColumn, startType, startPosition, startSearch, endType, endPosition, endLength,
    endSearch, columnName⟩

def chartTypes : List (String × ChartType) :=
  [("Line Chart", .line), ("Bar Chart", .bar), ("Pie Chart", .pie)]

def chartProjection (fs : Fields) : Except ShapeError ChartProjection := do
  let chartType ← fieldOr fs "ChartType" .line (choice chartTypes)
  let series ← fieldOr fs "DataSeriesColumnIndexes" none (optional (list index))
  let axis ← fieldOr fs "HorizontalColumnIndex" none indexOption
  let value ← fieldOr fs "ValueColumnIndex" none indexOption
  return ⟨chartType, axis, series, value⟩

/-- The operations, by name and in the order they are numbered. -/
def operations : List (String × (Fields → Except ShapeError Operation)) :=
  [("TableSource", fun fs => (tableSource fs).map .tableSource),
   ("Select", fun fs => (select fs).map .select),
   ("Filter", fun fs => (filter fs).map .filter),
   ("Sort", fun fs => (sorting fs).map .sort),
   ("Join", fun fs => (join fs).map .join),
   ("Append", fun fs => (append fs).map .append),
   ("Summarize", fun fs => (summarize fs).map .summarize),
   ("Extract", fun fs => (extract fs).map .extract),
   ("ChartProjection", fun fs => (chartProjection fs).map .chartProjection)]

/-- An operation by name or by number. -/
def operationReader : Reader (Fields → Except ShapeError Operation)
  | .string s => named operations s
  | .integer n =>
    if n < 0 then .error (.wrongType (.integer n) .kind)
    else match operations[n.toNat]? with
      | some o => .ok o.2
      | none => .error (.noSuchKind n operations.length)
  | j => .error (.wrongType j .kind)

def required {α : Type} (name : String) : Option α → Except ShapeError α
  | none => .error (.missingField name)
  | some a => .ok a

def node : Reader NodeSpec
  | .object fs => do
    let id ← fieldOr fs "Id" none (fun j => (text j).map some)
    let inputs ← fieldOr fs "Inputs" [] (list text)
    let id ← required "Id" id
    let type ← required "Type" (Json.lastField? "Type" fs)
    let settings ← operationReader type
    let operation ← settings fs
    return ⟨id, inputs, operation⟩
  | j => .error (.wrongType j .node)

/-- The list of nodes inside a document. -/
def nodeList : Json → Json
  | .object fs => (Json.lastField? "nodes" fs).getD (.object fs)
  | j => j

def nodes (document : Json) : Except ShapeError (List NodeSpec) := list node (nodeList document)

end DataflowSql.Document

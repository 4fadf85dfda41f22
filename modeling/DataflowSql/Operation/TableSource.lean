import DataflowSql.Dialect.Functions
import DataflowSql.Outcome
import DataflowSql.Schema.Catalog
import DataflowSql.Sql.Query

/-! Table source: the rows of one catalog table. Types that cannot be compared or sliced are handed
on as text. -/
namespace DataflowSql

structure TableSource where
  table : Option String
deriving DecidableEq, Repr

namespace TableSource

open Sql

/-- The catalog columns of the table that was found, if one was. -/
def columnsOf (schema : Option TableSchema) : List Column :=
  match schema with
  | none => []
  | some t => t.columns

def exposed (d : Dialect) (c : Column) : Column :=
  if d.isExposedAsText c.type then ⟨c.name, d.textType⟩ else c

def projection (d : Dialect) (schema : Option TableSchema) : Projection :=
  (columnsOf schema).map (exposed d)

/-- The expression behind a catalog column. -/
def columnExpr (d : Dialect) (id : String) (c : Column) : Expr ColumnRef :=
  let raw := .column (.field (tableRange id) c.name)
  if d.isExposedAsText c.type then d.castToText raw c.type else raw

/-- The expression behind an output column. -/
def rawColumn (d : Dialect) (id : String) (schema : Option TableSchema) (index : Nat) :
    Outcome (Expr ColumnRef) := do
  let c ← Projection.column (columnsOf schema) id index
  return columnExpr d id c

/-- A table must be set, and be known with at least one column. -/
def requireColumns (s : TableSource) (id : String) (schema : Option TableSchema) :
    Outcome Unit := do
  let table ← Outcome.ofOption (.missingSetting id .table) s.table
  if (columnsOf schema).isEmpty then Outcome.fail (.unknownTable id table)

def source {ρ : Type} (s : TableSource) (id : String) (schema : Option TableSchema) :
    Outcome (Source ρ) := do
  s.requireColumns id schema
  let path := match schema with
    | none => []
    | some t => t.path
  return .table path (tableRange id)

def query {ρ : Type} (d : Dialect) (s : TableSource) (id : String) (schema : Option TableSchema) :
    Outcome (Query ρ) := do
  s.requireColumns id schema
  let exprs := (columnsOf schema).map (columnExpr d id)
  let source ← s.source id schema
  return .plain exprs source

def isConfigured (s : TableSource) (schema : Option TableSchema) : Bool :=
  s.table.isSome && !(columnsOf schema).isEmpty

end TableSource

end DataflowSql

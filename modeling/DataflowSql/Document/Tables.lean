import DataflowSql.Json
import DataflowSql.Schema.Catalog

/-! Catalog documents: an object that holds the tables under `tables`, or the list itself. A table
is an object or a list of its parts, and so is a column. Keys that are not known are passed over; a
known one may stand only once. -/
namespace DataflowSql.Document

/-- The only field of this name; none if there is none, and a failure if there are more. -/
def onlyField (fields : List (String × Json)) (name : String) : Option (Option Json) :=
  match fields.filter fun f => f.1 = name with
  | [] => some none
  | [f] => some (some f.2)
  | _ => none

def stringOf : Json → Option String
  | .string s => some s
  | _ => none

/-- Null or left out, or a text. -/
def stringOrNull : Option Json → Option (Option String)
  | none => some none
  | some .null => some none
  | some j => (stringOf j).map some

def listOf {α : Type} (item : Json → Option α) : Json → Option (List α)
  | .array xs => xs.mapM item
  | _ => none

def column : Json → Option Column
  | .array [name, type] => do return ⟨← stringOf name, ← stringOf type⟩
  | .object fs => do
    let name ← stringOf (← ← onlyField fs "name")
    let type ← stringOf (← ← onlyField fs "type")
    return ⟨name, type⟩
  | _ => none

/-- A table from its parts, of which only the first must be there. -/
def tableOf (displayName schema name columns : Option Json) : Option TableSchema := do
  let displayName ← stringOf (← displayName)
  let schema ← stringOrNull schema
  let name ← stringOrNull name
  let columns ← match columns with
    | none => some []
    | some j => listOf column j
  return ⟨displayName, schema, name, columns⟩

def table : Json → Option TableSchema
  | .array xs => if xs.length ≤ 4 then tableOf xs[0]? xs[1]? xs[2]? xs[3]? else none
  | .object fs => do
    let displayName ← onlyField fs "display_name"
    let schema ← onlyField fs "schema"
    let name ← onlyField fs "name"
    let columns ← onlyField fs "columns"
    tableOf displayName schema name columns
  | _ => none

/-- The catalog a document describes, if it has the right shape. -/
def catalog : Json → Option Catalog
  | .object fs => do
    let tables ← listOf table (← ← onlyField fs "tables")
    return ⟨tables⟩
  | j => (listOf table j).map Catalog.mk

/-- Said of every catalog document of another shape. -/
def catalogMessage : String := "data did not match any variant of untagged enum CatalogDocument"

def columnJson (c : Column) : Json := .object [("name", .string c.name), ("type", .string c.type)]

def projectionJson (p : Projection) : Json := .array (p.map columnJson)

def optionalField (name : String) : Option String → List (String × Json)
  | none => []
  | some s => [(name, .string s)]

def tableJson (t : TableSchema) : Json :=
  .object ([("display_name", .string t.displayName)] ++ optionalField "schema" t.schema ++
    optionalField "name" t.name ++ [("columns", projectionJson t.columns)])

/-- The document of a catalog; what is not set is left out. -/
def catalogJson (c : Catalog) : Json := .object [("tables", .array (c.tables.map tableJson))]

end DataflowSql.Document

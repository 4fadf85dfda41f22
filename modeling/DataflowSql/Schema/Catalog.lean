import DataflowSql.Schema.Column

/-! The catalog of tables that table sources read. -/
namespace DataflowSql

structure TableSchema where
  displayName : String
  schema : Option String
  name : Option String
  columns : List Column
deriving DecidableEq, Repr

structure Catalog where
  tables : List TableSchema
deriving DecidableEq, Repr

/-- The runs between dots, empty ones included. -/
def splitDots : List Char → List (List Char)
  | [] => [[]]
  | c :: cs =>
    if c = '.' then [] :: splitDots cs
    else match splitDots cs with
      | [] => [[c]]
      | w :: ws => (c :: w) :: ws

/-- The identifiers of the table reference, outermost first. Unless the schema or the name is set,
the display name is taken apart at its dots. -/
def TableSchema.path (t : TableSchema) : List String :=
  match t.schema, t.name with
  | none, none => (splitDots t.displayName.toList).map String.ofList
  | schema, name => schema.toList ++ [name.getD t.displayName]

/-- The first table of this display name. -/
def Catalog.find? (c : Catalog) (displayName : String) : Option TableSchema :=
  c.tables.find? fun t => t.displayName = displayName

end DataflowSql

import DataflowSql.Document.Nodes
import DataflowSql.Document.Tables
import DataflowSql.Json.Reader

/-! Documents from their texts. -/
namespace DataflowSql.Document

inductive DocumentError where
  | text (cause : Json.ReadError)
  | nodes (cause : ShapeError)
  | catalog

/-- How many brackets of a document may be open at once. -/
def nesting : Nat := 127

/-- The whole text is read before its shape is looked at. -/
def readNodes (text : String) : Except DocumentError (List NodeSpec) := do
  let json ← (Json.read nesting text).mapError .text
  (nodes json).mapError .nodes

/-- The shape is looked at before what follows the value. -/
def readCatalog (text : String) : Except DocumentError Catalog := do
  let (json, rest) ← (Json.readValue nesting text).mapError .text
  match catalog json with
  | none => throw .catalog
  | some c => if Json.isEnd rest then return c else throw (.text .malformed)

end DataflowSql.Document

import DataflowSql.Number.Double

/-! JSON values as they are read: whole numbers apart from doubles, and the fields of an object in
the order of the text, repeated names included. -/
namespace DataflowSql

inductive Json where
  | null
  | bool (value : Bool)
  | integer (value : Int)
  | float (value : Number.Double)
  | string (value : String)
  | array (items : List Json)
  | object (fields : List (String × Json))
deriving Repr

namespace Json

/-- The value of the last field of this name. -/
def lastField? (name : String) (fields : List (String × Json)) : Option Json :=
  (fields.reverse.find? fun f => f.1 = name).map (·.2)

/-- Adds a field to a list sorted by name, in place of one of the same name. -/
def putField {β : Type} (field : String × β) : List (String × β) → List (String × β)
  | [] => [field]
  | f :: fs =>
    if field.1 < f.1 then field :: f :: fs
    else if field.1 = f.1 then field :: fs
    else f :: putField field fs

/-- Fields sorted by name, the last of each name kept. -/
def sortedFields {β : Type} (fields : List (String × β)) : List (String × β) :=
  fields.foldl (fun fs f => putField f fs) []

end Json

end DataflowSql

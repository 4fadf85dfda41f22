import DataflowSql.Sql.Name

/-! The order of a node's rows, by output columns. -/
namespace DataflowSql

inductive SortDirection where
  | ascending
  | descending
deriving DecidableEq, Repr

def SortDirection.text : SortDirection → String
  | .ascending => "ASC"
  | .descending => "DESC"

structure SortColumn where
  index : Nat
  direction : SortDirection
deriving DecidableEq, Repr

abbrev SortKey := List SortColumn

namespace SortKey

/-- First output column, ascending. -/
def standard : SortKey := [⟨0, .ascending⟩]

/-- The text after `ORDER BY`. -/
def text (k : SortKey) : String :=
  ", ".intercalate (k.map fun c => Sql.columnName c.index ++ " " ++ c.direction.text)

/-- The key as seen behind a selection that puts input column `picks[j]` at position `j`. Columns
that are not picked fall out; the standard key takes the place of an empty one. -/
def remap (k : SortKey) (picks : List Nat) : SortKey :=
  let moved := k.filterMap fun c => (picks.idxOf? c.index).map fun j => ⟨j, c.direction⟩
  if moved.isEmpty then standard else moved

end SortKey

end DataflowSql

import DataflowSql.Schema.Column
import DataflowSql.Sql.Expr

/-! Append: the rows of all inputs below each other, with columns matched by name. -/
namespace DataflowSql

structure Append where
  includeUniqueColumns : Bool
deriving DecidableEq, Repr

namespace Append

/-- Adds a column unless one of its name is there. -/
def addNew (out : Projection) (c : Column) : Projection :=
  if (out.position? c.name).isSome then out else out ++ [c]

/-- Names of any input in the order they are first seen, or those of the first input that every
other has too. -/
def projection (a : Append) (first : Projection) (rest : List Projection) : Projection :=
  let candidates :=
    if a.includeUniqueColumns then first ++ rest.flatten
    else first.filter fun c => rest.all fun p => (p.position? c.name).isSome
  candidates.foldl addNew []

open Sql

/-- The column of this input that has the name, or nothing. -/
def branchExpr (input : Projection) (c : Column) : Expr ColumnRef :=
  match input.position? c.name with
  | some j => .column (.output j)
  | none => .null

def branch (out input : Projection) : List (Expr ColumnRef) := out.map (branchExpr input)

end Append

end DataflowSql

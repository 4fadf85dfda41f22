import DataflowSql.Sql.Query

/-! Join: pairs of rows of two inputs, on one equal column or on none. -/
namespace DataflowSql

inductive JoinType where
  | inner
  | leftOuter
  | rightOuter
  | fullOuter
  | cross
deriving DecidableEq, Repr

structure Join where
  joinType : JoinType
  table1Column : Option Nat
  table2Column : Option Nat
deriving DecidableEq, Repr

/-- The forms one `FROM` clause can take; a full outer join needs two. -/
inductive JoinShape where
  | keyed (kind : Sql.JoinKind)
  | cross
deriving DecidableEq, Repr

/-- The one clause of a join, if one is enough. -/
def JoinType.shape? : JoinType → Option JoinShape
  | .inner => some (.keyed .inner)
  | .leftOuter => some (.keyed .leftOuter)
  | .rightOuter => some (.keyed .rightOuter)
  | .cross => some .cross
  | .fullOuter => none

namespace Join

/-- The range under which the second input is read as a whole, because splicing it in would repeat
a range of the first. -/
def rename? (id : String) (left right : List String) : Option String :=
  if right.any fun r => r ∈ left then some (Sql.rightRange id) else none

end Join

end DataflowSql

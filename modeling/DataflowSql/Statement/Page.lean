import DataflowSql.Dialect
import DataflowSql.Number.Power

/-! One page of rows. -/
namespace DataflowSql

/-- Skip `offset` rows, then at most `limit`. -/
structure Page where
  offset : UInt64
  limit : UInt64
deriving DecidableEq, Repr

namespace Page

/-- The first and the last row number of the page, counted from one, if they are words. -/
def window? (p : Page) : Option (Nat × Nat) :=
  let first := p.offset.toNat + 1
  let last := p.offset.toNat + p.limit.toNat
  if first < Number.wordBound ∧ last < Number.wordBound then some (first, last) else none

/-- The clause that follows `ORDER BY`. -/
def clause (d : Dialect) (p : Page) : String :=
  match d with
  | .mySql => "LIMIT " ++ toString p.offset ++ "," ++ toString p.limit
  | .postgreSql => "LIMIT " ++ toString p.limit ++ " OFFSET " ++ toString p.offset
  | .sqlServer =>
    "OFFSET " ++ toString p.offset ++ " ROWS FETCH NEXT " ++ toString p.limit ++ " ROWS ONLY"

end Page

end DataflowSql

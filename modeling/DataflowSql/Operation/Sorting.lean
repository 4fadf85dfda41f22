import DataflowSql.Outcome
import DataflowSql.Schema.SortKey

/-! Sorting: the rows of the input, to be put out in the order of some columns. -/
namespace DataflowSql

structure Sorting where
  sortColumns : List Nat
  /-- By position in `sortColumns`; ascending where there is none. -/
  sortDirections : List SortDirection
deriving DecidableEq, Repr

namespace Sorting

/-- Adds a column to a key, unless the key has it already. -/
def extendKey (key : SortKey) (c : SortColumn) : SortKey :=
  if key.any fun k => k.index = c.index then key else key ++ [c]

/-- The columns asked for, each with the direction at its own position. -/
def requested (s : Sorting) : List SortColumn :=
  s.sortColumns.zipIdx.map fun e => ⟨e.1, s.sortDirections[e.2]?.getD .ascending⟩

/-- The key over an input with this many columns. A column asked for again adds nothing. -/
def keyOver (s : Sorting) (id : String) (length : Nat) : Outcome SortKey :=
  match s.sortColumns.find? fun i => length ≤ i with
  | some i => Outcome.fail (.columnIndexOutOfRange id i length)
  | none => Outcome.ok (s.requested.foldl extendKey [])

/-- The key over an input, which is only looked at if a column is asked for. -/
def key (s : Sorting) (id : String) (input : Unit → Outcome Projection) : Outcome SortKey :=
  if s.sortColumns.isEmpty then Outcome.ok SortKey.standard
  else do s.keyOver id (← input ()).length

end Sorting

end DataflowSql

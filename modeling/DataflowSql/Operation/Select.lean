import DataflowSql.Schema.Column
import DataflowSql.Text.Blank

/-! Select: some columns of the input, in any order, perhaps renamed. -/
namespace DataflowSql

structure Select where
  includedColumnIndexes : Option (List Nat)
  /-- By position in `includedColumnIndexes`. -/
  columnAliases : List (Option String)
deriving DecidableEq, Repr

/-- A column taken from the input, and its new name. -/
structure Pick where
  index : Nat
  newName : Option String
deriving DecidableEq, Repr

/-- The column that is put out. -/
def Pick.column? (p : Pick) (input : Projection) : Option Column :=
  input[p.index]?.map fun c => ⟨p.newName.getD c.name, c.type⟩

namespace Select

/-- The alias at a position of the request; a blank one counts as none. -/
def aliasAt (s : Select) (position : Nat) : Option String :=
  (s.columnAliases[position]?.join).filter fun a => !Text.isAllBlank a

/-- The requested columns that exist; indexes out of range are passed over. -/
def picks (s : Select) (inputLength : Nat) : List Pick :=
  ((s.includedColumnIndexes.getD []).zipIdx.filter fun e => e.1 < inputLength).map fun e =>
    ⟨e.1, s.aliasAt e.2⟩

theorem lt_of_mem_picks {s : Select} {inputLength : Nat} {p : Pick}
    (h : p ∈ s.picks inputLength) : p.index < inputLength := by
  simp only [picks, List.mem_map, List.mem_filter, decide_eq_true_eq] at h
  obtain ⟨e, ⟨_, hlt⟩, rfl⟩ := h
  exact hlt

def projection (s : Select) (input : Projection) : Projection :=
  (s.picks input.length).filterMap fun p => p.column? input

end Select

end DataflowSql

/-! Output columns: names and types, by position. -/
namespace DataflowSql

structure Column where
  name : String
  type : String
deriving DecidableEq, Repr

/-- The columns a node puts out. Names may repeat; consumers refer to positions. -/
abbrev Projection := List Column

namespace Projection

def names (p : Projection) : List String := p.map (·.name)

def types (p : Projection) : List String := p.map (·.type)

/-- Position of the first column of this name. -/
def position? (p : Projection) (name : String) : Option Nat := p.findIdx? fun c => c.name = name

end Projection

end DataflowSql

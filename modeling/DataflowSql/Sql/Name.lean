/-! Names a statement introduces. They are written without quotes, so they hold only letters,
digits and underscores. -/
namespace DataflowSql.Sql

def isNameChar (c : Char) : Bool := c.isAlphanum || c = '_'

/-- Replaces every character that may not stand in a name. -/
def sanitize (s : String) : String :=
  String.ofList (s.toList.map fun c => if isNameChar c then c else '_')

/-- The name of a node's rows. -/
def nodeName (id : String) : String := "node_" ++ sanitize id

/-- The range a table source reads its table under. -/
def tableRange (id : String) : String := nodeName id ++ "_table"

/-- The range a join reads its second input under when its own ranges are taken. -/
def rightRange (id : String) : String := nodeName id ++ "_rhs"

/-- The name of a node's numbered rows. -/
def pagedName (id : String) : String := nodeName id ++ "_paged"

/-- Output columns are named by position. -/
def columnName (index : Nat) : String := "Column_" ++ toString index

end DataflowSql.Sql

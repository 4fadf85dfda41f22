import DataflowSql.Dialect

/-! `LIKE` patterns in which a given text stands for itself. -/
namespace DataflowSql

/-- The mark that makes the next character of a pattern literal. -/
def likeEscape : Char := '!'

namespace Dialect

/-- Characters with a meaning of their own in a pattern. -/
def isPatternChar (d : Dialect) (c : Char) : Bool :=
  c = likeEscape || c = '%' || c = '_' || (c = '[' && d = .sqlServer)

def escapeLike (d : Dialect) (value : String) : String :=
  String.ofList (value.toList.flatMap fun c => if d.isPatternChar c then [likeEscape, c] else [c])

end Dialect

/-- Where in a text the value is looked for. -/
inductive MatchPlace where
  | start
  | finish
  | anywhere
deriving DecidableEq, Repr

/-- The pattern of the texts that hold `value` at this place. -/
def Dialect.likePattern (d : Dialect) (place : MatchPlace) (value : String) : String :=
  match place with
  | .start => d.escapeLike value ++ "%"
  | .finish => "%" ++ d.escapeLike value
  | .anywhere => "%" ++ d.escapeLike value ++ "%"

end DataflowSql

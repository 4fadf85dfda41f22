import DataflowSql.Sql.Expr
import DataflowSql.Dialect.Like

/-! Conditions on a row. -/
namespace DataflowSql.Sql

inductive Comparison where
  | equal
  | notEqual
  | less
  | lessOrEqual
  | greater
  | greaterOrEqual
deriving DecidableEq, Repr

def Comparison.text : Comparison → String
  | .equal => "="
  | .notEqual => "<>"
  | .less => "<"
  | .lessOrEqual => "<="
  | .greater => ">"
  | .greaterOrEqual => ">="

/-- An operator between the texts of its operands. -/
def operatorText (left operator right : String) : String := left ++ " " ++ operator ++ " " ++ right

/-- Names the escape mark of the pattern before it. -/
def escapeClause : String := "ESCAPE '" ++ likeEscape.toString ++ "'"

inductive Predicate (α : Type) where
  | compare (operator : Comparison) (x y : Expr α)
  | like (negated : Bool) (x pattern : Expr α)
  | isNull (x : Expr α)
  | isNotNull (x : Expr α)
  | between (x low high : Expr α)
  | either (p q : Predicate α)
  | both (p q : Predicate α)

def likeWord (negated : Bool) : String := if negated then "NOT LIKE" else "LIKE"

def Predicate.sql {α : Type} (d : Dialect) (column : α → String) : Predicate α → String
  | .compare op x y => operatorText (x.sql d column) op.text (y.sql d column)
  | .like negated x pattern =>
    operatorText (x.sql d column) (likeWord negated) (pattern.sql d column) ++ " " ++ escapeClause
  | .isNull x => x.sql d column ++ " IS NULL"
  | .isNotNull x => x.sql d column ++ " IS NOT NULL"
  | .between x low high =>
    x.sql d column ++ " BETWEEN " ++ low.sql d column ++ " AND " ++ high.sql d column
  | .either p q => "(" ++ p.sql d column ++ " OR " ++ q.sql d column ++ ")"
  | .both p q => "(" ++ p.sql d column ++ " AND " ++ q.sql d column ++ ")"

end DataflowSql.Sql

import DataflowSql.Text.LowerCase

/-! The three SQL dialects, the two ways to lay out a statement, and their names. -/
namespace DataflowSql

inductive Dialect where
  | mySql
  | postgreSql
  | sqlServer
deriving DecidableEq, Repr

/-- How a statement refers to the nodes it reads: nested in place, or named once in a leading
`WITH` clause. -/
inductive Strategy where
  | inline
  | commonTableExpressions
deriving DecidableEq, Repr

/-- A name, already simplified, that nothing is known by. -/
inductive NameError where
  | dialect (name : String)
  | strategy (name : String)
deriving DecidableEq, Repr

def NameError.message : NameError → String
  | .dialect n => "unknown dialect '" ++ n ++ "' (expected mysql, postgresql or sqlserver)"
  | .strategy n => "unknown strategy '" ++ n ++ "' (expected inline or cte)"

namespace Dialect

def title : Dialect → String
  | .mySql => "MySQL"
  | .postgreSql => "PostgreSQL"
  | .sqlServer => "SQL Server"

/-- The name a document uses. -/
def tag : Dialect → String
  | .mySql => "MySQL"
  | .postgreSql => "PostgreSQL"
  | .sqlServer => "SQLServer"

def tags : List (String × Dialect) :=
  [(tag .mySql, .mySql), (tag .postgreSql, .postgreSql), (tag .sqlServer, .sqlServer)]

def isSeparator (c : Char) : Bool := c = ' ' || c = '_' || c = '-'

/-- Case, surrounding blanks, and separators inside a name do not matter. -/
def simplify (s : String) : String :=
  String.ofList ((Text.lowerChars (Text.trimChars s.toList)).filter fun c => !isSeparator c)

def ofName (s : String) : Except NameError Dialect :=
  let n := simplify s
  if n = "mysql" then .ok .mySql
  else if n = "postgresql" ∨ n = "postgres" ∨ n = "pg" then .ok .postgreSql
  else if n = "sqlserver" ∨ n = "mssql" then .ok .sqlServer
  else .error (.dialect n)

def defaultStrategy : Dialect → Strategy
  | .mySql => .inline
  | .postgreSql => .commonTableExpressions
  | .sqlServer => .commonTableExpressions

end Dialect

namespace Strategy

/-- Case and surrounding blanks do not matter. -/
def ofName (s : String) : Except NameError Strategy :=
  let n := String.ofList (Text.lowerChars (Text.trimChars s.toList))
  if n = "inline" then .ok .inline
  else if n = "cte" ∨ n = "with" then .ok .commonTableExpressions
  else .error (.strategy n)

end Strategy

end DataflowSql

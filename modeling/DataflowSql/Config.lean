import DataflowSql.Graph
import DataflowSql.Statement.Page

/-! What a statement is compiled for, resolved from options and the environment. -/
namespace DataflowSql

inductive ConfigError where
  | missingDialect
  | dialect (cause : NameError)
  | strategy (cause : NameError)
  | offsetWithoutLimit
deriving DecidableEq, Repr

def ConfigError.message : ConfigError → String
  | .missingDialect => "no dialect given: pass --dialect or set QUERY_GRAPH_DIALECT"
  | .dialect cause => "invalid dialect: " ++ cause.message
  | .strategy cause => "invalid strategy: " ++ cause.message
  | .offsetWithoutLimit => "--offset requires --limit"

/-- Options as they were given. -/
structure Options where
  dialect : Option String
  strategy : Option String
  offset : Option UInt64
  limit : Option UInt64
deriving DecidableEq, Repr

structure Config where
  dialect : Dialect
  strategy : Option Strategy
  page : Option Page
deriving DecidableEq, Repr

namespace Config

/-- The environment variable that stands in for a missing dialect. -/
def dialectVariable : String := "QUERY_GRAPH_DIALECT"

/-- The page asked for; without an offset it starts at the first row. -/
def pageOf (offset limit : Option UInt64) : Except ConfigError (Option Page) :=
  match offset, limit with
  | some _, none => .error .offsetWithoutLimit
  | offset, some limit => .ok (some ⟨offset.getD 0, limit⟩)
  | none, none => .ok none

/-- Resolves options, given the value of the environment variable. Blanks count as no value. -/
def resolve (o : Options) (environment : Option String) : Except ConfigError Config := do
  let fallback := environment.filter fun v => !Text.isAllBlank v
  let dialect ← match o.dialect <|> fallback with
    | none => .error .missingDialect
    | some name => (Dialect.ofName name).mapError .dialect
  let strategy ← match o.strategy with
    | none => .ok none
    | some name => ((Strategy.ofName name).mapError .strategy).map some
  let page ← pageOf o.offset o.limit
  return ⟨dialect, strategy, page⟩

def effectiveStrategy (c : Config) : Strategy := c.strategy.getD c.dialect.defaultStrategy

def apply (c : Config) (g : Graph) : Graph := g.withStrategy c.effectiveStrategy

end Config

end DataflowSql

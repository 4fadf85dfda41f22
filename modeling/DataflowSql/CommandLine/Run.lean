import DataflowSql.CommandLine.Arguments
import DataflowSql.Compile.Configured
import DataflowSql.Document.Read
import DataflowSql.Statement

/-! What the command line does, over a world that can read and write files. -/
namespace DataflowSql.CommandLine

/-- What the command line needs of the world it runs in. -/
structure World (m : Type → Type) where
  /-- The text of a file, if it can be read. -/
  read : String → m (Option String)
  /-- Writes a text to a file; false if that fails. -/
  write : String → String → m Bool
  warn : String → m Unit

inductive Failure where
  | config (cause : ConfigError)
  | reading (path : String)
  | parsing (path : String)
  | compile (cause : CompileError)
  | notConfigured (node kind : String)
  | writing (path : String)

def Failure.message : Failure → String
  | .config cause => cause.message
  | .reading path => "query-graph: reading " ++ path
  | .parsing path => "query-graph: parsing " ++ path
  | .compile cause => cause.message
  | .notConfigured node kind =>
    "query-graph: node '" ++ node ++ "' (" ++ kind ++ ") is not fully configured"
  | .writing path => "query-graph: writing " ++ path

/-- How a run ended. -/
structure Report where
  code : Nat
  output : String
  error : String
deriving DecidableEq, Repr

section

variable {m : Type → Type} [Monad m]

/-- The result of an outcome, after its warnings. -/
def settle {α : Type} (w : World m) (x : Outcome α) : ExceptT Failure m α := do
  for warning in x.warnings do
    w.warn warning.message
  match x.result with
  | .ok a => return a
  | .error e => throw (.compile e)

def readText (w : World m) (path : String) : ExceptT Failure m String := do
  match ← w.read path with
  | some text => return text
  | none => throw (.reading path)

/-- Reads both documents and builds the graph the options describe. -/
def load (w : World m) (a : Arguments) (config : Config) : ExceptT Failure m Graph := do
  let specs ← match Document.readNodes (← readText w a.nodes) with
    | .ok specs => pure specs
    | .error _ => throw (.parsing a.nodes)
  let catalog ← match Document.readCatalog (← readText w a.catalog) with
    | .ok catalog => pure catalog
    | .error _ => throw (.parsing a.catalog)
  match Graph.build specs catalog config.dialect with
  | .error e => throw (.compile e)
  | .ok (graph, notes) =>
    for note in notes do
      if note.isWarning then w.warn note.message
    return config.apply graph

/-- The text that is asked for. The target must be configured. -/
def answer (w : World m) (a : Arguments) (config : Config) (g : Graph) :
    ExceptT Failure m String := do
  let target ← settle w (g.node a.target)
  if !(← settle w (target.isConfigured g.dialect)) then
    throw (.notConfigured target.id target.operation.kind)
  match a.command with
  | .fetch => settle w (g.fetchStatement a.target config.page)
  | .count => settle w (g.countStatement a.target)
  | .columns =>
    let p ← settle w (target.projection g.dialect)
    return (Document.projectionJson p).indented 0

/-- Writes a text and a line end to the file asked for. Returns what goes to the output. -/
def emit (w : World m) (out : Option String) (text : String) : ExceptT Failure m String := do
  match out with
  | none => return text ++ "\n"
  | some path =>
    if ← w.write path (text ++ "\n") then return "Wrote " ++ path ++ "\n"
    else throw (.writing path)

def perform (w : World m) (environment : Option String) (a : Arguments) :
    ExceptT Failure m String := do
  match Config.resolve a.options environment with
  | .error e => throw (.config e)
  | .ok config =>
    let g ← load w a config
    let text ← answer w a config g
    emit w a.out text

/-- Runs the command line: 2 for a wrong use of it, 1 for a failure, 0 otherwise. -/
def run (w : World m) (environment : Option String) (args : List String) : m Report := do
  match Arguments.ofList? args with
  | none => return ⟨2, "", "usage: fetch|count|columns --nodes FILE --catalog FILE --target ID"⟩
  | some a =>
    match ← (perform w environment a).run with
    | .ok output => return ⟨0, output, ""⟩
    | .error failure => return ⟨1, "", "Error: " ++ failure.message⟩

end

end DataflowSql.CommandLine

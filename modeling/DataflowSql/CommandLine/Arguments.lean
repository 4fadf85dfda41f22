import DataflowSql.Config
import DataflowSql.Number.Word

/-! The arguments of the command line. -/
namespace DataflowSql.CommandLine

inductive Command where
  | fetch
  | count
  | columns
deriving DecidableEq, Repr

/-- Flags that take a value. -/
inductive Flag where
  | nodes
  | catalog
  | dialect
  | target
  | strategy
  | out
  | offset
  | limit
deriving DecidableEq, Repr

structure Arguments where
  command : Command
  nodes : String
  catalog : String
  target : String
  options : Options
  out : Option String
deriving DecidableEq, Repr

def commands : List (String × Command) :=
  [("fetch", .fetch), ("count", .count), ("columns", .columns)]

/-- Flags of every command. -/
def commonFlags : List (String × Flag) :=
  [("nodes", .nodes), ("catalog", .catalog), ("dialect", .dialect), ("target", .target),
   ("strategy", .strategy), ("out", .out)]

/-- Only a fetch has pages. -/
def flagsOf : Command → List (String × Flag)
  | .fetch => commonFlags ++ [("offset", .offset), ("limit", .limit)]
  | _ => commonFlags

/-- What one argument stands for. -/
inductive Piece where
  | verbose
  | given (flag : Flag) (value : String)
  | awaiting (flag : Flag)
  | wrong
deriving DecidableEq, Repr

/-- Splits `name=value`. -/
def splitAssignment (cs : List Char) : String × Option String :=
  let name := String.ofList (cs.takeWhile (· ≠ '='))
  match cs.dropWhile (· ≠ '=') with
  | [] => (name, none)
  | _ :: value => (name, some (String.ofList value))

/-- An argument behind two dashes. -/
def longPiece (flags : List (String × Flag)) (cs : List Char) : Piece :=
  match splitAssignment cs with
  | (name, value) =>
    match flags.lookup name, value with
    | some flag, some v => .given flag v
    | some flag, none => .awaiting flag
    | none, none => if name = "verbose" then .verbose else .wrong
    | none, some _ => .wrong

/-- Letters behind one dash: any number of `v`, then perhaps `o` with its value behind it. -/
def shortPiece (flags : List (String × Flag)) (cs : List Char) : Piece :=
  match cs.dropWhile (· = 'v') with
  | [] => .verbose
  | 'o' :: rest =>
    match flags.lookup "out", rest with
    | none, _ => .wrong
    | some flag, [] => .awaiting flag
    | some flag, '=' :: value => .given flag (String.ofList value)
    | some flag, value => .given flag (String.ofList value)
  | _ => .wrong

/-- Starts with a dash and is more than that. -/
def isFlagLike (arg : String) : Bool := arg.toList.head? = some '-' && arg ≠ "-"

def pieceOf (flags : List (String × Flag)) (arg : String) : Piece :=
  match arg.toList with
  | '-' :: '-' :: cs => longPiece flags cs
  | '-' :: c :: cs => shortPiece flags (c :: cs)
  | _ => .wrong

/-- Flags and their values, in order; none if an argument has no place. Nothing may follow two
dashes that stand alone. -/
def givenFlags? (flags : List (String × Flag)) : List String → Option (List (Flag × String))
  | [] => some []
  | arg :: rest =>
    if arg = "--" then (if rest.isEmpty then some [] else none)
    else match pieceOf flags arg with
      | .verbose => givenFlags? flags rest
      | .given flag value => (givenFlags? flags rest).map ((flag, value) :: ·)
      | .awaiting flag =>
        match rest with
        | [] => none
        | value :: rest =>
          if isFlagLike value then none else (givenFlags? flags rest).map ((flag, value) :: ·)
      | .wrong => none

/-- The command, and the arguments after it. Only verbosity may stand before it. -/
def command? : List String → Option (Command × List String)
  | [] => none
  | arg :: rest =>
    if isFlagLike arg then
      if arg ≠ "--" ∧ pieceOf [] arg = .verbose then command? rest else none
    else (commands.lookup arg).map (·, rest)

/-- A flag that may be left out, as a number. -/
def wordFlag? (given : List (Flag × String)) (flag : Flag) : Option (Option UInt64) :=
  match given.lookup flag with
  | none => some none
  | some v => (Number.unsignedWord? v).map some

/-- Arguments in order, or none if they are not a use of the command line. No flag may be given
twice. -/
def Arguments.ofList? (args : List String) : Option Arguments := do
  let (command, rest) ← command? args
  let given ← givenFlags? (flagsOf command) rest
  guard (given.map (·.1)).Nodup
  let nodes ← given.lookup .nodes
  let catalog ← given.lookup .catalog
  let target ← given.lookup .target
  let offset ← wordFlag? given .offset
  let limit ← wordFlag? given .limit
  let options : Options := ⟨given.lookup .dialect, given.lookup .strategy, offset, limit⟩
  return ⟨command, nodes, catalog, target, options, given.lookup .out⟩

end DataflowSql.CommandLine

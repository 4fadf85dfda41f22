import DataflowSql.Json.Printer
import DataflowSql.Text.Escaped
import DataflowSql.Number.Word

/-! Reading typed data out of JSON values. Each reader accepts one shape and says what it expected
when it meets another. -/
namespace DataflowSql.Document

/-- What a reader expects. -/
inductive Expected where
  | sequence
  | text
  | truth
  | index
  | word
  | choice
  | nothing
  | node
  | kind
deriving DecidableEq, Repr

def Expected.phrase : Expected → String
  | .sequence => "a sequence"
  | .text => "a string"
  | .truth => "a boolean"
  | .index => "usize"
  | .word => "i64"
  | .choice => "string or map"
  | .nothing => "unit"
  | .node => "struct NodeSpec"
  | .kind => "variant identifier"

inductive ShapeError where
  | wrongType (found : Json) (expected : Expected)
  | outOfRange (value : Int) (expected : Expected)
  | noSuchKind (index : Int) (count : Nat)
  | notOneKey
  | unknownName (name : String) (known : List String)
  | missingField (name : String)
  | notScalar (found : Json)

/-- A value as an error message names it. -/
def describe : Json → String
  | .null => "null"
  | .bool b => "boolean `" ++ (if b then "true" else "false") ++ "`"
  | .integer n => "integer `" ++ toString n ++ "`"
  | .float x => "floating point `" ++ x.text ++ "`"
  | .string s => "string " ++ Text.escaped s
  | .array _ => "sequence"
  | .object _ => "map"

def ticked (name : String) : String := "`" ++ name ++ "`"

/-- The names a text could have been. -/
def alternatives : List String → String
  | [a] => ticked a
  | [a, b] => ticked a ++ " or " ++ ticked b
  | names => "one of " ++ ", ".intercalate (names.map ticked)

def ShapeError.message : ShapeError → String
  | .wrongType found expected =>
    "invalid type: " ++ describe found ++ ", expected " ++ expected.phrase
  | .outOfRange n expected =>
    "invalid value: integer `" ++ toString n ++ "`, expected " ++ expected.phrase
  | .noSuchKind i count =>
    "invalid value: integer `" ++ toString i ++ "`, expected variant index 0 <= i < " ++
      toString count
  | .notOneKey => "invalid value: map, expected map with a single key"
  | .unknownName name known =>
    "unknown variant " ++ ticked name ++ ", expected " ++ alternatives known
  | .missingField name => "missing field " ++ ticked name
  | .notScalar found => "expected a string, number or bool, found " ++ found.compact

abbrev Reader (α : Type) := Json → Except ShapeError α

def text : Reader String
  | .string s => .ok s
  | j => .error (.wrongType j .text)

def truth : Reader Bool
  | .bool b => .ok b
  | j => .error (.wrongType j .truth)

/-- A position in a list. -/
def index : Reader Nat
  | .integer n => if Number.fitsUnsigned n then .ok n.toNat else .error (.outOfRange n .index)
  | j => .error (.wrongType j .index)

/-- A signed whole number of 64 bits. -/
def word : Reader Int
  | .integer n => if Number.fitsSigned n then .ok n else .error (.outOfRange n .word)
  | j => .error (.wrongType j .word)

def list {α : Type} (item : Reader α) : Reader (List α)
  | .array xs => xs.mapM item
  | j => .error (.wrongType j .sequence)

/-- Null, or what `item` reads. -/
def optional {α : Type} (item : Reader α) : Reader (Option α)
  | .null => .ok none
  | j => (item j).map some

def named {α : Type} (choices : List (String × α)) (name : String) : Except ShapeError α :=
  match choices.lookup name with
  | some a => .ok a
  | none => .error (.unknownName name (choices.map (·.1)))

/-- Holds nothing: null, or an object without fields. -/
def nothing : Reader Unit
  | .null => .ok ()
  | .object [] => .ok ()
  | j => .error (.wrongType j .nothing)

/-- One of several names, or an object whose only key is one and holds nothing. -/
def choice {α : Type} (choices : List (String × α)) : Reader α
  | .string s => named choices s
  | .object fields =>
    match Json.sortedFields fields with
    | [(name, content)] => do
      let a ← named choices name
      nothing content
      return a
    | _ => .error .notOneKey
  | j => .error (.wrongType j .choice)

/-- A text, number or truth value, as text. -/
def scalarText : Reader (Option String)
  | .null => .ok none
  | .string s => .ok (some s)
  | .integer n => .ok (some (toString n))
  | .float x => .ok (some x.text)
  | .bool b => .ok (some (if b then "true" else "false"))
  | j => .error (.notScalar j)

/-- The field of this name, or a value to use without it. -/
def fieldOr {α : Type} (fields : List (String × Json)) (name : String) (missing : α)
    (reader : Reader α) : Except ShapeError α :=
  match Json.lastField? name fields with
  | none => .ok missing
  | some j => reader j

end DataflowSql.Document

import DataflowSql.Dialect

/-! Column types are free text from a catalog. They are normalised and looked up in a vocabulary
per dialect; a name that is not found there belongs to no class and is handled like a number. -/
namespace DataflowSql

inductive TypeClass where
  | numeric
  | text
  | boolean
  | date
  | other
deriving DecidableEq, Repr

namespace TypeName

/-- Each parenthesis up to the next closing one becomes a blank; one that is never closed stays.
`inside` while a parenthesis is being dropped. -/
def dropParameters (inside : Bool) : List Char → List Char
  | [] => []
  | c :: cs =>
    if inside then
      if c = ')' then ' ' :: dropParameters false cs else dropParameters true cs
    else if c = '(' ∧ ')' ∈ cs then dropParameters true cs
    else c :: dropParameters false cs

/-- Words that say how a number is stored and not what it is. -/
def modifiers : List (List Char) :=
  ["unsigned".toList, "signed".toList, "zerofill".toList]

def normalWords (cs : List Char) : List (List Char) :=
  (Text.words (dropParameters false (Text.lowerChars cs))).filter fun w => w ∉ modifiers

/-- Lower case, without parameters and modifiers, words one blank apart. -/
def normalize (name : String) : String :=
  String.ofList ([' '].intercalate (normalWords name.toList))

end TypeName

/-- The type names a dialect knows. `exposedAsText` lists the textual ones that cannot be compared
or sliced before a cast. -/
structure Vocabulary where
  numeric : List String
  text : List String
  boolean : List String
  date : List String
  exposedAsText : List String

namespace Vocabulary

def mySql : Vocabulary where
  numeric := ["tinyint", "smallint", "mediumint", "int", "integer", "bigint", "decimal", "dec",
    "numeric", "fixed", "float", "double", "double precision", "real", "bit", "serial"]
  text := ["char", "varchar", "tinytext", "text", "mediumtext", "longtext", "enum", "set", "json"]
  boolean := ["bool", "boolean"]
  date := ["date", "datetime", "timestamp", "time", "year"]
  exposedAsText := ["enum", "set", "json"]

def postgreSql : Vocabulary where
  numeric := ["smallint", "integer", "int", "int2", "int4", "int8", "bigint", "decimal", "numeric",
    "real", "double precision", "float4", "float8", "smallserial", "serial", "bigserial", "money"]
  text := ["character varying", "varchar", "character", "char", "bpchar", "text", "name", "citext",
    "uuid", "xml", "json", "jsonb", "user-defined"]
  boolean := ["boolean", "bool"]
  date := ["date", "timestamp", "timestamp without time zone", "timestamp with time zone",
    "timestamptz", "time", "time without time zone", "time with time zone", "timetz"]
  exposedAsText := ["uuid", "xml", "json", "jsonb", "user-defined", "citext", "name"]

def sqlServer : Vocabulary where
  numeric := ["tinyint", "smallint", "int", "bigint", "decimal", "numeric", "float", "real",
    "money", "smallmoney"]
  text := ["char", "varchar", "nchar", "nvarchar", "text", "ntext", "xml", "uniqueidentifier",
    "sysname"]
  boolean := ["bit"]
  date := ["date", "datetime", "datetime2", "smalldatetime", "datetimeoffset", "time"]
  exposedAsText := ["text", "ntext", "xml", "uniqueidentifier"]

/-- No name is listed in two classes of one dialect. -/
def classOf (v : Vocabulary) (name : String) : TypeClass :=
  if name ∈ v.boolean then .boolean
  else if name ∈ v.date then .date
  else if name ∈ v.text then .text
  else if name ∈ v.numeric then .numeric
  else .other

end Vocabulary

namespace Dialect

def vocabulary : Dialect → Vocabulary
  | .mySql => .mySql
  | .postgreSql => .postgreSql
  | .sqlServer => .sqlServer

def classify (d : Dialect) (typeName : String) : TypeClass :=
  d.vocabulary.classOf (TypeName.normalize typeName)

def isText (d : Dialect) (typeName : String) : Bool := d.classify typeName = .text

def isDate (d : Dialect) (typeName : String) : Bool := d.classify typeName = .date

/-- Literals of this type are written between quotes. -/
def needsQuotes (d : Dialect) (typeName : String) : Bool := d.isText typeName || d.isDate typeName

/-- A table source hands this type on as plain text. -/
def isExposedAsText (d : Dialect) (typeName : String) : Bool :=
  TypeName.normalize typeName ∈ d.vocabulary.exposedAsText

/-- A value of this type is cast to text before it is sliced. -/
def needsCastToSlice (d : Dialect) (typeName : String) : Bool :=
  match d with
  | .mySql => false
  | .postgreSql => !d.isText typeName
  | .sqlServer => d.isDate typeName || !d.needsQuotes typeName

def textType : Dialect → String
  | .mySql => "varchar"
  | .postgreSql => "text"
  | .sqlServer => "nvarchar"

def integerType : Dialect → String
  | .mySql => "bigint"
  | .postgreSql => "bigint"
  | .sqlServer => "int"

def floatType : Dialect → String
  | .mySql => "double"
  | .postgreSql => "double precision"
  | .sqlServer => "float"

end Dialect

end DataflowSql

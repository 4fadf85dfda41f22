import DataflowSql.Error
import DataflowSql.Schema.Column

/-! Results that may fail and may warn. A warning stands even when what comes after it fails. -/
namespace DataflowSql

/-- Something a caller should hear about that does not stop the work. -/
inductive Warning where
  | medianAsAverage (node : String)
deriving DecidableEq, Repr

def Warning.message : Warning → String
  | .medianAsAverage node => "node '" ++ node ++ "': median is computed as an average"

/-- A result, and the warnings given on the way to it. -/
structure Outcome (α : Type) where
  warnings : List Warning
  result : Except CompileError α

namespace Outcome

variable {α β : Type}

def ok (a : α) : Outcome α := ⟨[], .ok a⟩

def fail (e : CompileError) : Outcome α := ⟨[], .error e⟩

def warn (w : Warning) : Outcome Unit := ⟨[w], .ok ()⟩

def bind (x : Outcome α) (f : α → Outcome β) : Outcome β :=
  match x.result with
  | .error e => ⟨x.warnings, .error e⟩
  | .ok a =>
    let y := f a
    ⟨x.warnings ++ y.warnings, y.result⟩

instance : Monad Outcome where
  pure := ok
  bind := bind

/-- The value of an option, or this error. -/
def ofOption (e : CompileError) : Option α → Outcome α
  | none => fail e
  | some a => ok a

/-- Whether there is a result; never fails itself. -/
def succeeds (x : Outcome α) : Outcome Bool :=
  ⟨x.warnings, .ok x.result.isOk⟩

end Outcome

/-- The column at a position; an error names the node that asks for it. -/
def Projection.column (p : Projection) (node : String) (index : Nat) : Outcome Column :=
  Outcome.ofOption (.columnIndexOutOfRange node index p.length) p[index]?

end DataflowSql

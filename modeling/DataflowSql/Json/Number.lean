import DataflowSql.Json
import DataflowSql.Number.Numeral

/-! Numbers of a JSON text. Digits are collected as long as they fit a 64-bit word; what does not
fit only moves the point. A literal without point and exponent that fits a word stays whole. -/
namespace DataflowSql.Json

/-- Why a text is not JSON: it stops too early, or it holds something it may not. -/
inductive ReadError where
  | ended
  | malformed
deriving DecidableEq, Repr

/-- Appends leading digits to a significand, up to the first that would not fit a word. Returns the
significand, how many digits it took and what is left. -/
def takeDigits (significand taken : Nat) : List Char → Nat × Nat × List Char
  | [] => (significand, taken, [])
  | c :: cs =>
    let next := 10 * significand + (c.toNat - '0'.toNat)
    if c.isDigit && next < Number.wordBound then takeDigits next (taken + 1) cs
    else (significand, taken, c :: cs)

/-- One above the greatest exponent. -/
def exponentBound : Nat := Number.twoTo 31

def clampExponent (e : Int) : Int :=
  if e < -(exponentBound : Int) then -(exponentBound : Int)
  else if (exponentBound : Int) ≤ e then exponentBound - 1
  else e

def floatOf (negative : Bool) (significand : Nat) (power : Int) (rest : List Char) :
    Except ReadError (Json × List Char) :=
  match Number.Double.ofDecimal? negative significand power with
  | none => .error .malformed
  | some x => .ok (.float x, rest)

def exponentSign : List Char → Bool × List Char
  | '+' :: cs => (false, cs)
  | '-' :: cs => (true, cs)
  | cs => (false, cs)

/-- What follows the mark of an exponent. An exponent that does not fit 31 bits is an overflow,
unless it scales zero or scales towards it. -/
def afterMark (negative : Bool) (significand : Nat) (power : Int) (cs : List Char) :
    Except ReadError (Json × List Char) :=
  let (down, cs) := exponentSign cs
  let ds := cs.takeWhile Char.isDigit
  let rest := cs.dropWhile Char.isDigit
  if cs.isEmpty then .error .ended
  else if ds.isEmpty then .error .malformed
  else
    let e := Number.natOfDigits ds
    if e < exponentBound then
      floatOf negative significand (clampExponent (if down then power - e else power + e)) rest
    else if significand ≠ 0 ∧ ¬ down then .error .malformed
    else .ok (.float (Number.Double.zero negative), rest)

def isMark (c : Char) : Bool := c = 'e' || c = 'E'

/-- What follows the point: at least one digit, of which those beyond a word count for nothing. -/
def afterPoint (negative : Bool) (significand : Nat) (power : Int) (cs : List Char) :
    Except ReadError (Json × List Char) :=
  match cs with
  | [] => .error .ended
  | c :: _ =>
    if !c.isDigit then .error .malformed
    else
      let (significand, taken, left) := takeDigits significand 0 cs
      let power := power - taken
      match left.dropWhile Char.isDigit with
      | [] => floatOf negative significand power []
      | d :: rest =>
        if isMark d then afterMark negative significand power rest
        else floatOf negative significand power (d :: rest)

/-- A whole number without its sign; minus zero, and what lies below the signed range, is a
double. -/
def wholeOf (negative : Bool) (n : Nat) (rest : List Char) : Except ReadError (Json × List Char) :=
  if !negative then .ok (.integer n, rest)
  else if 0 < n ∧ n ≤ Number.signedBound then .ok (.integer (-n), rest)
  else floatOf true n 0 rest

/-- What follows the whole part; `extra` digits of it did not fit. -/
def afterWhole (negative : Bool) (n extra : Nat) (cs : List Char) :
    Except ReadError (Json × List Char) :=
  let plain := if extra = 0 then wholeOf negative n cs else floatOf negative n extra cs
  match cs with
  | [] => plain
  | c :: rest =>
    if c = '.' then afterPoint negative n extra rest
    else if isMark c then afterMark negative n extra rest
    else plain

/-- A number after its sign. No digit may follow a leading zero. -/
def number (negative : Bool) (cs : List Char) : Except ReadError (Json × List Char) :=
  match cs with
  | [] => .error .ended
  | c :: rest =>
    if c = '0' then
      if rest.head?.any Char.isDigit then .error .malformed else afterWhole negative 0 0 rest
    else if c.isDigit then
      let (n, _, left) := takeDigits 0 0 cs
      afterWhole negative n (left.takeWhile Char.isDigit).length (left.dropWhile Char.isDigit)
    else .error .malformed

end DataflowSql.Json

import Mathlib.Data.List.TakeWhile
import Mathlib.Data.Nat.Find
import DataflowSql.Proofs.Literals
import DataflowSql.Proofs.Phrase

/-! Reckoning with texts and positions. A grammar says what the texts of numbers, strings, columns,
sums and calls of text functions stand for: sums are taken from left to right, and parentheses go
first. A reader that goes through a text from its beginning finds what it stands for, so a text
stands for one value at most. -/
namespace DataflowSql

section Search

/-- `needle` stands in `text` at position `p`, counted from one. -/
def StandsAt (needle text : List Char) (p : Nat) : Prop := 1 ≤ p ∧ needle <+: text.drop (p - 1)

instance (needle text : List Char) (p : Nat) : Decidable (StandsAt needle text p) :=
  inferInstanceAs (Decidable (1 ≤ p ∧ needle <+: text.drop (p - 1)))

/-- `p` is the least position from `start` on at which `needle` stands in `text`. -/
structure IsFirst (needle text : List Char) (start : Int) (p : Nat) : Prop where
  stands : StandsAt needle text p
  start_le : start ≤ p
  least : ∀ q : Nat, start ≤ q → StandsAt needle text q → p ≤ q

theorem isFirst_iff {needle text : List Char} {start : Int} {p : Nat} :
    IsFirst needle text start p ↔
      StandsAt needle text p ∧ start ≤ p ∧ ∀ q < p, start ≤ q → ¬ StandsAt needle text q := by
  constructor
  · intro h
    refine ⟨h.stands, h.start_le, fun q hqp hq hstands => ?_⟩
    have hpq := h.least q hq hstands
    omega
  · rintro ⟨hstands, hstart, hearlier⟩
    refine ⟨hstands, hstart, fun q hq hqstands => ?_⟩
    by_contra hlt
    exact hearlier q (by omega) hq hqstands

instance (needle text : List Char) (start : Int) (p : Nat) :
    Decidable (IsFirst needle text start p) :=
  decidable_of_iff _ isFirst_iff.symm

/-- The least position from `start` on at which `needle` stands in `text`, or zero. -/
def firstFrom (needle text : List Char) (start : Int) : Nat :=
  ((List.range' start.toNat (text.length + 1 - start.toNat)).find?
    fun p => StandsAt needle text p).getD 0

variable {needle text : List Char} {start : Int} {k p : Nat}

theorem StandsAt.le_length (hneedle : needle ≠ []) (h : StandsAt needle text p) :
    p ≤ text.length := by
  have hlength := h.2.length_le
  have hpos := List.length_pos_iff.mpr hneedle
  rw [List.length_drop] at hlength
  omega

theorem firstFrom_eq (hneedle : needle ≠ []) (h : IsFirst needle text start p) :
    firstFrom needle text start = p := by
  have hle := h.stands.le_length hneedle
  have hstart := h.start_le
  have hfind : (List.range' start.toNat (text.length + 1 - start.toNat)).find?
      (fun p => decide (StandsAt needle text p)) = some p := by
    rw [List.find?_range'_eq_some]
    refine ⟨by simpa using h.stands, ?_, ?_⟩
    · rw [List.mem_range'_1]
      omega
    · intro q hq hqp
      have hnone : ¬ StandsAt needle text q := by
        intro hstands
        have hpq := h.least q (by omega) hstands
        omega
      simpa using hnone
  rw [firstFrom, hfind]
  rfl

theorem firstFrom_eq_zero (h : ∀ q : Nat, start ≤ q → ¬ StandsAt needle text q) :
    firstFrom needle text start = 0 := by
  have hfind : (List.range' start.toNat (text.length + 1 - start.toNat)).find?
      (fun p => decide (StandsAt needle text p)) = none := by
    rw [List.find?_eq_none]
    intro q hq
    rw [List.mem_range'_1] at hq
    simpa using h q (by omega)
  rw [firstFrom, hfind]
  rfl

theorem standsAt_drop (hp : 1 ≤ p) :
    StandsAt needle (text.drop k) p ↔ StandsAt needle text (k + p) := by
  have hsum : k + (p - 1) = k + p - 1 := by omega
  rw [StandsAt, StandsAt, List.drop_drop, hsum]
  constructor
  · rintro ⟨-, h⟩
    exact ⟨by omega, h⟩
  · rintro ⟨-, h⟩
    exact ⟨hp, h⟩

/-- Behind the first `k` characters the search starts anew, and counts from there. -/
theorem IsFirst.of_drop (h : IsFirst needle text (k + 1) (k + p)) :
    IsFirst needle (text.drop k) 1 p := by
  have hstart := h.start_le
  refine ⟨(standsAt_drop (by omega)).mpr h.stands, by omega, ?_⟩
  intro q hq hstands
  have hle := h.least (k + q) (by omega) ((standsAt_drop (by omega)).mp hstands)
  omega

theorem isFirst_or_absent (needle text : List Char) (start : Int) :
    (∃ p, IsFirst needle text start p) ∨ ∀ p : Nat, start ≤ p → ¬ StandsAt needle text p := by
  by_cases h : ∃ p : Nat, start ≤ p ∧ StandsAt needle text p
  · obtain ⟨hle, hstands⟩ := Nat.find_spec h
    exact .inl ⟨Nat.find h, hstands, hle, fun q hq hstands => Nat.find_min' h ⟨hq, hstands⟩⟩
  · refine .inr fun p hp hstands => ?_
    exact h ⟨p, hp, hstands⟩

end Search

inductive Value where
  | number (n : Int)
  | text (cs : List Char)
deriving DecidableEq, Repr

/-- Functions on texts, by the names they have in one dialect or another. -/
inductive TextFunction where
  | locate
  | charIndex
  | position
  | substring
  | length
  | len
deriving DecidableEq, Repr

namespace TextFunction

def name : TextFunction → String
  | .locate => "LOCATE"
  | .charIndex => "CHARINDEX"
  | .position => "POSITION"
  | .substring => "SUBSTRING"
  | .length => "LENGTH"
  | .len => "LEN"

def ofName? (w : List Char) : Option TextFunction :=
  [locate, charIndex, position, substring, length, len].find? fun f => f.name.toList = w

end TextFunction

/-- What may stand between two operands of a call. -/
inductive Separator where
  | comma
  | inWord
  | fromWord
  | forWord
deriving DecidableEq, Repr

def Separator.text : Separator → String
  | .comma => ", "
  | .inWord => " IN "
  | .fromWord => " FROM "
  | .forWord => " FOR "

/-- Searches are for texts that are not empty, and from a position of at least one. -/
def search (needle text : List Char) (start : Int) : Option Value :=
  if needle = [] ∨ start < 1 then none else some (.number (firstFrom needle text start))

/-- The characters from position `start` on. -/
def behind (text : List Char) (start : Int) : Option (List Char) :=
  if start < 1 then none else some (text.drop (start.toNat - 1))

/-- At most `length` characters from position `start` on. -/
def slice (text : List Char) (start length : Int) : Option (List Char) :=
  if length < 0 then none else (behind text start).map fun cs => cs.take length.toNat

section Functions

variable {needle t : List Char} {k l : Int}

theorem search_eq (hneedle : needle ≠ []) (hk : 1 ≤ k) :
    search needle t k = some (.number (firstFrom needle t k)) := by
  have hmeant : ¬ (needle = [] ∨ k < 1) := by
    rintro (h | h)
    · exact hneedle h
    · omega
  rw [search, if_neg hmeant]

theorem behind_eq (hk : 1 ≤ k) : behind t k = some (t.drop (k.toNat - 1)) := by
  rw [behind, if_neg (by omega)]

theorem slice_eq (hk : 1 ≤ k) (hl : 0 ≤ l) :
    slice t k l = some ((t.drop (k.toNat - 1)).take l.toNat) := by
  rw [slice, if_neg (by omega), behind_eq hk]
  rfl

end Functions

/-- A way to cast to text: the word, and what stands before and behind the operand. -/
structure TextCast where
  word : String
  opening : String
  closing : String
deriving DecidableEq, Repr

namespace Dialect

/-- What a function makes of its operands, if the dialect has it in this form. Characters are
counted. -/
def apply : Dialect → TextFunction → List Separator → List Value → Option Value
  | .mySql, .length, [], [.text t] => some (.number t.length)
  | .mySql, .locate, [.comma], [.text n, .text t] => search n t 1
  | .mySql, .locate, [.comma, .comma], [.text n, .text t, .number k] => search n t k
  | .mySql, .substring, [.comma, .comma], [.text t, .number k, .number l] =>
    (slice t k l).map .text
  | .postgreSql, .length, [], [.text t] => some (.number t.length)
  | .postgreSql, .position, [.inWord], [.text n, .text t] => search n t 1
  | .postgreSql, .substring, [.fromWord], [.text t, .number k] => (behind t k).map .text
  | .postgreSql, .substring, [.fromWord, .forWord], [.text t, .number k, .number l] =>
    (slice t k l).map .text
  | .sqlServer, .len, [], [.text t] => some (.number t.length)
  | .sqlServer, .charIndex, [.comma], [.text n, .text t] => search n t 1
  | .sqlServer, .charIndex, [.comma, .comma], [.text n, .text t, .number k] => search n t k
  | .sqlServer, .substring, [.comma, .comma], [.text t, .number k, .number l] =>
    (slice t k l).map .text
  | _, _, _, _ => none

def textCasts : Dialect → List TextCast
  | .mySql => [⟨"CAST", "(", " AS CHAR)"⟩]
  | .postgreSql => [⟨"CAST", "(", " AS TEXT)"⟩]
  | .sqlServer => [⟨"CAST", "(", " AS NVARCHAR(MAX))"⟩, ⟨"CONVERT", "(NVARCHAR(MAX), ", ", 120)"⟩]

theorem word_of_mem_textCasts {d : Dialect} {f : TextCast} (hf : f ∈ d.textCasts) :
    Sql.IsName f.word ∧ 1 ≤ f.word.toList.length ∧ f.opening.toList.head? = some '(' := by
  revert f
  cases d <;> decide

end Dialect

/-- Where a text is evaluated: in a dialect, where backslashes in strings count or do not, and in a
row, given by the text of each of its columns. -/
structure Session where
  dialect : Dialect
  escapes : Bool
  row : Nat → List Char

/-- Terms stand beside an operator as they are. -/
inductive Rank where
  | term
  | sum
deriving DecidableEq, Repr

/-- What a text stands for. -/
inductive Denotes (s : Session) : Rank → String → Value → Prop
  | number (n : Nat) : Denotes s .term (toString n) (.number n)
  | text (t : String) (plain : s.escapes = true → '\\' ∉ t.toList) :
      Denotes s .term (s.dialect.quoteString t) (.text t.toList)
  | column (i : Nat) : Denotes s .term (Sql.columnName i) (.text (s.row i))
  | group {w : String} {v : Value} (inner : Denotes s .sum w v) :
      Denotes s .term ("(" ++ w ++ ")") v
  | cast {f : TextCast} {w : String} {t : List Char} (hf : f ∈ s.dialect.textCasts)
      (inner : Denotes s .sum w (.text t)) :
      Denotes s .term (f.word ++ f.opening ++ w ++ f.closing) (.text t)
  | call₁ {f : TextFunction} {w : String} {x v : Value} (first : Denotes s .sum w x)
      (hv : s.dialect.apply f [] [x] = some v) : Denotes s .term (f.name ++ "(" ++ w ++ ")") v
  | call₂ {f : TextFunction} {p : Separator} {w₁ w₂ : String} {x y v : Value}
      (first : Denotes s .sum w₁ x) (second : Denotes s .sum w₂ y)
      (hv : s.dialect.apply f [p] [x, y] = some v) :
      Denotes s .term (f.name ++ "(" ++ w₁ ++ p.text ++ w₂ ++ ")") v
  | call₃ {f : TextFunction} {p q : Separator} {w₁ w₂ w₃ : String} {x y z v : Value}
      (first : Denotes s .sum w₁ x) (second : Denotes s .sum w₂ y) (third : Denotes s .sum w₃ z)
      (hv : s.dialect.apply f [p, q] [x, y, z] = some v) :
      Denotes s .term (f.name ++ "(" ++ w₁ ++ p.text ++ w₂ ++ q.text ++ w₃ ++ ")") v
  | lone {w : String} {v : Value} (h : Denotes s .term w v) : Denotes s .sum w v
  | plus {u w : String} {a b : Int} (hu : Denotes s .sum u (.number a))
      (hw : Denotes s .term w (.number b)) : Denotes s .sum (u ++ " + " ++ w) (.number (a + b))
  | minus {u w : String} {a b : Int} (hu : Denotes s .sum u (.number a))
      (hw : Denotes s .term w (.number b)) : Denotes s .sum (u ++ " - " ++ w) (.number (a - b))

section Reading

/-- A reader gives the value of what a text begins with, and the text behind it. -/
abbrev Reader := List Char → Option (Value × List Char)

/-- The text behind `w`, if it begins with `w`. -/
def stripped (w : String) (cs : List Char) : Option (List Char) := w.toList.isPrefixOf? cs

def number? (w : List Char) : Option Nat :=
  if w ≠ [] ∧ w.all Char.isDigit = true then some (Nat.ofDigitChars 10 w 0) else none

def operator? (cs : List Char) : Option ((Int → Int → Int) × List Char) :=
  match stripped " + " cs with
  | some r => some ((· + ·), r)
  | none => (stripped " - " cs).map fun r => ((· - ·), r)

def separator? (cs : List Char) : Option (Separator × List Char) :=
  [Separator.comma, .inWord, .fromWord, .forWord].findSome? fun p =>
    (stripped p.text cs).map fun r => (p, r)

def combine (op : Int → Int → Int) : Value → Value → Option Value
  | .number a, .number b => some (.number (op a b))
  | _, _ => none

/-- Goes on behind a part of a sum, for at most `fuel` operators. -/
def sumFrom (term : Reader) : (fuel : Nat) → Value → Reader
  | 0, v, r => some (v, r)
  | fuel + 1, v, r =>
    match operator? r with
    | none => some (v, r)
    | some (op, r) => do
      let (b, r) ← term r
      let v ← combine op v b
      sumFrom term fuel v r

def sumWith (term : Reader) (fuel : Nat) : Reader := fun cs => do
  let (v, r) ← term cs
  sumFrom term fuel v r

def sumOf (term : Reader) : Reader := fun cs => sumWith term cs.length cs

namespace Session

variable (s : Session) (sum : Reader)

def ended (v : Option Value) (r : List Char) : Option (Value × List Char) := do
  return (← v, ← stripped ")" r)

/-- Goes on behind the opening parenthesis of a call. -/
def readCall (f : TextFunction) : Reader := fun r => do
  let (x, r) ← sum r
  match separator? r with
  | none => ended (s.dialect.apply f [] [x]) r
  | some (p, r) => do
    let (y, r) ← sum r
    match separator? r with
    | none => ended (s.dialect.apply f [p] [x, y]) r
    | some (q, r) => do
      let (z, r) ← sum r
      ended (s.dialect.apply f [p, q] [x, y, z]) r

def readCast (f : TextCast) : Reader := fun r => do
  let (v, r) ← sum (← stripped f.opening r)
  match v with
  | .number _ => none
  | .text t => return (.text t, ← stripped f.closing r)

def readGroup : Reader := fun r => do
  let (v, r) ← sum (← stripped "(" r)
  ended (some v) r

/-- What a word stands for that is a term by itself. -/
def wordValue? (w : List Char) : Option Value :=
  match number? w with
  | some n => some (.number n)
  | none => ((stripped "Column_" w).bind number?).map fun i => .text (s.row i)

/-- Goes on behind a word, perhaps an empty one. -/
def readBehind (w : List Char) : Reader := fun r =>
  match s.wordValue? w with
  | some v => some (v, r)
  | none =>
    match s.dialect.textCasts.find? fun f => f.word.toList = w with
    | some f => readCast sum f r
    | none =>
      match TextFunction.ofName? w with
      | some f => (stripped "(" r).bind (s.readCall sum f)
      | none => if w = [] then readGroup sum r else none

def termOf : Reader := fun cs =>
  let w := cs.takeWhile Sql.isNameChar
  let r := cs.dropWhile Sql.isNameChar
  if r.head? = some '\'' then
    if w = s.dialect.stringMark.toList then
      (readLiteral? s.escapes r).map fun x => (.text x.1, x.2)
    else none
  else s.readBehind sum w r

/-- Reads a term in which parentheses are at most `depth` deep. -/
def readTerm (s : Session) : (depth : Nat) → Reader
  | 0 => fun _ => none
  | depth + 1 => s.termOf (sumOf (s.readTerm depth))

/-- The value of a text that is read to its end. -/
def evaluate (s : Session) (w : String) : Option Value :=
  match sumOf (s.readTerm w.toList.length) w.toList with
  | some (v, []) => some v
  | _ => none

end Session

/-- No word goes on here. -/
def WordEnd (rest : List Char) : Prop := ∀ c ∈ rest.head?, Sql.isNameChar c = false

/-- Neither a word nor a string goes on here. -/
def Apart (rest : List Char) : Prop := WordEnd rest ∧ rest.head? ≠ some '\''

/-- A sum does not go on here either. -/
def Stop (rest : List Char) : Prop := Apart rest ∧ operator? rest = none

variable {s : Session} {sum term : Reader} {w : String} {v : Value} {r rest : List Char}

@[simp] theorem stripped_append (w : String) (r : List Char) :
    stripped w (w.toList ++ r) = some r := by
  simp [stripped]

theorem apart_append {c : Char} (hw : w.toList.head? = some c)
    (hname : Sql.isNameChar c = false) (hquote : c ≠ '\'') : Apart (w.toList ++ r) := by
  simp [Apart, WordEnd, List.head?_append, hw, hname, hquote]

theorem apart_nil : Apart [] := by
  simp [Apart, WordEnd]

theorem stop_nil : Stop [] := ⟨apart_nil, rfl⟩

theorem stop_close : Stop (")".toList ++ r) :=
  ⟨apart_append rfl (by decide) (by decide), rfl⟩

theorem stop_separator (p : Separator) : Stop (p.text.toList ++ r) := by
  cases p <;> exact ⟨apart_append rfl (by decide) (by decide), rfl⟩

theorem stop_cast {d : Dialect} {f : TextCast} (hf : f ∈ d.textCasts) :
    Stop (f.closing.toList ++ r) := by
  cases d with
  | mySql =>
    obtain rfl := List.mem_singleton.mp hf
    exact ⟨apart_append rfl (by decide) (by decide), rfl⟩
  | postgreSql =>
    obtain rfl := List.mem_singleton.mp hf
    exact ⟨apart_append rfl (by decide) (by decide), rfl⟩
  | sqlServer =>
    rcases List.mem_pair.mp hf with rfl | rfl
    · exact ⟨apart_append rfl (by decide) (by decide), rfl⟩
    · exact ⟨apart_append rfl (by decide) (by decide), rfl⟩

theorem separator?_close : separator? (")".toList ++ r) = none := rfl

theorem separator?_append (p : Separator) : separator? (p.text.toList ++ r) = some (p, r) := by
  cases p <;> rfl

theorem number?_toString (n : Nat) : number? (toString n).toList = some n := by
  have hdigits : (toString n).toList ≠ [] ∧ (toString n).toList.all Char.isDigit = true := by
    rw [Nat.toString_eq_repr, Nat.toList_repr, List.all_eq_true]
    exact ⟨Nat.toDigits_ne_nil, fun c hc => Nat.isDigit_of_mem_toDigits (by decide) (by decide) hc⟩
  rw [number?, if_pos hdigits, Nat.toString_eq_repr, Nat.toList_repr,
    Nat.ofDigitChars_ten_toDigits]

theorem takeWhile_word (hw : Sql.IsName w) (hrest : WordEnd rest) :
    (w.toList ++ rest).takeWhile Sql.isNameChar = w.toList := by
  rw [List.takeWhile_append_of_pos hw]
  cases rest with
  | nil => simp
  | cons c cs => simp [hrest c (by simp)]

theorem dropWhile_word (hw : Sql.IsName w) (hrest : WordEnd rest) :
    (w.toList ++ rest).dropWhile Sql.isNameChar = rest := by
  rw [List.dropWhile_append_of_pos hw]
  cases rest with
  | nil => simp
  | cons c cs => simp [hrest c (by simp)]

namespace Session

theorem termOf_word (hw : Sql.IsName w) (hrest : Apart rest) :
    s.termOf sum (w.toList ++ rest) = s.readBehind sum w.toList rest := by
  simp only [termOf, takeWhile_word hw hrest.1, dropWhile_word hw hrest.1, if_neg hrest.2]

theorem termOf_value (hw : Sql.IsName w) (hv : s.wordValue? w.toList = some v)
    (hrest : Apart rest) : s.termOf sum (w.toList ++ rest) = some (v, rest) := by
  rw [termOf_word hw hrest, readBehind, hv]

theorem wordValue?_number (n : Nat) : s.wordValue? (toString n).toList = some (.number n) := by
  rw [wordValue?, number?_toString]

theorem wordValue?_column (i : Nat) :
    s.wordValue? (Sql.columnName i).toList = some (.text (s.row i)) := by
  have hnumber : number? (Sql.columnName i).toList = none := by
    simp [number?, Sql.columnName]
  rw [wordValue?, hnumber, Sql.columnName, String.toList_append, stripped_append]
  change (number? (toString i).toList).map _ = _
  rw [number?_toString]
  rfl

theorem termOf_text (t : String) (plain : s.escapes = true → '\\' ∉ t.toList)
    (hrest : Apart rest) : s.termOf sum ((s.dialect.quoteString t).toList ++ rest) =
      some (.text t.toList, rest) := by
  have hmark : Sql.IsName s.dialect.stringMark := by cases s.dialect <;> decide
  have hend : WordEnd ('\'' :: closing t.toList rest) := by simp [WordEnd]; decide
  rw [quoteString_append]
  simp only [termOf, takeWhile_word hmark hend, dropWhile_word hmark hend, List.head?_cons, if_pos]
  simp [readLiteral?, LiteralMode.inside_closing hrest.2 plain]

theorem wordValue?_eq_none {cs : List Char} (hnumber : number? cs = none)
    (hcolumn : stripped "Column_" cs = none) : s.wordValue? cs = none := by
  rw [wordValue?, hnumber, hcolumn]
  rfl

theorem readBehind_empty : s.readBehind sum [] r = readGroup sum r := by
  have hvalue : s.wordValue? [] = none := wordValue?_eq_none (by decide) (by decide)
  have hcast : (s.dialect.textCasts.find? fun f => f.word.toList = []) = none := by
    cases s.dialect <;> decide
  have hname : TextFunction.ofName? [] = none := by decide
  rw [readBehind, hvalue, hcast, hname]
  exact if_pos rfl

theorem readBehind_cast {f : TextCast} (hf : f ∈ s.dialect.textCasts) :
    s.readBehind sum f.word.toList r = readCast sum f r := by
  have hword : (number? f.word.toList = none ∧ stripped "Column_" f.word.toList = none) ∧
      (s.dialect.textCasts.find? fun g => g.word.toList = f.word.toList) = some f := by
    revert f
    cases s.dialect <;> decide
  have hvalue : s.wordValue? f.word.toList = none := wordValue?_eq_none hword.1.1 hword.1.2
  rw [readBehind, hvalue, hword.2]

theorem readBehind_call (f : TextFunction) :
    s.readBehind sum f.name.toList r = (stripped "(" r).bind (s.readCall sum f) := by
  have hvalue : s.wordValue? f.name.toList = none :=
    wordValue?_eq_none (by cases f <;> decide) (by cases f <;> decide)
  have hcast : (s.dialect.textCasts.find? fun g => g.word.toList = f.name.toList) = none := by
    cases s.dialect <;> cases f <;> decide
  have hname : TextFunction.ofName? f.name.toList = some f := by cases f <;> decide
  rw [readBehind, hvalue, hcast, hname]

theorem ended_close : ended (some v) (")".toList ++ rest) = some (v, rest) := by
  rw [ended, stripped_append]
  rfl

theorem termOf_group (h : sum (w.toList ++ (")".toList ++ rest)) = some (v, ")".toList ++ rest)) :
    s.termOf sum (("(" ++ w ++ ")").toList ++ rest) = some (v, rest) := by
  have hopen : Apart ("(".toList ++ (w.toList ++ (")".toList ++ rest))) :=
    apart_append rfl (by decide) (by decide)
  have htext : ("(" ++ w ++ ")").toList ++ rest =
      "".toList ++ ("(".toList ++ (w.toList ++ (")".toList ++ rest))) := by simp
  rw [htext, termOf_word (by decide) hopen]
  change s.readBehind sum [] _ = _
  rw [readBehind_empty]
  simp only [readGroup, stripped_append, Option.bind_eq_bind, Option.bind_some, h, ended_close]

theorem termOf_cast {f : TextCast} {t : List Char} (hf : f ∈ s.dialect.textCasts)
    (h : sum (w.toList ++ (f.closing.toList ++ rest)) = some (.text t, f.closing.toList ++ rest)) :
    s.termOf sum ((f.word ++ f.opening ++ w ++ f.closing).toList ++ rest) =
      some (.text t, rest) := by
  obtain ⟨hname, -, hhead⟩ := Dialect.word_of_mem_textCasts hf
  have hopen : Apart (f.opening.toList ++ (w.toList ++ (f.closing.toList ++ rest))) :=
    apart_append hhead (by decide) (by decide)
  have htext : (f.word ++ f.opening ++ w ++ f.closing).toList ++ rest =
      f.word.toList ++ (f.opening.toList ++ (w.toList ++ (f.closing.toList ++ rest))) := by simp
  rw [htext, termOf_word hname hopen, readBehind_cast hf]
  simp only [readCast, stripped_append, Option.bind_eq_bind, Option.bind_some, h]
  rfl

theorem termOf_call (f : TextFunction) (r : List Char) :
    s.termOf sum ((f.name ++ "(").toList ++ r) = s.readCall sum f r := by
  have hname : Sql.IsName f.name := by cases f <;> decide
  have hopen : Apart ("(".toList ++ r) := apart_append rfl (by decide) (by decide)
  rw [String.toList_append, List.append_assoc, termOf_word hname hopen, readBehind_call,
    stripped_append]
  rfl

/-- The readers of every depth that is large enough take in `w` as `v`, and stop behind it. A sum
may go on there: it uses up one step for each of its operators. -/
def Takes (s : Session) : Rank → String → Value → Prop
  | .term, w, v => ∀ depth, w.toList.length ≤ depth → ∀ rest, Apart rest →
      s.readTerm depth (w.toList ++ rest) = some (v, rest)
  | .sum, w, v => ∀ depth, w.toList.length ≤ depth → ∃ steps, steps ≤ w.toList.length ∧
      ∀ fuel rest, Apart rest → sumWith (s.readTerm depth) (fuel + steps) (w.toList ++ rest) =
        sumFrom (s.readTerm depth) fuel v rest

theorem sumFrom_stop (fuel : Nat) (hrest : Stop rest) :
    sumFrom term fuel v rest = some (v, rest) := by
  cases fuel with
  | zero => rfl
  | succ fuel => rw [sumFrom, hrest.2]

theorem Takes.sumOf (h : s.Takes .sum w v) {depth : Nat} (hdepth : w.toList.length ≤ depth)
    (hrest : Stop rest) : sumOf (s.readTerm depth) (w.toList ++ rest) = some (v, rest) := by
  obtain ⟨steps, hsteps, hsum⟩ := h depth hdepth
  obtain ⟨fuel, hfuel⟩ : ∃ fuel, (w.toList ++ rest).length = fuel + steps := by
    rw [List.length_append]
    exact ⟨w.toList.length + rest.length - steps, by omega⟩
  rw [DataflowSql.sumOf, hfuel, hsum fuel rest hrest.1, sumFrom_stop fuel hrest]

theorem takes_term (hw : w.toList ≠ [])
    (h : ∀ depth, w.toList.length ≤ depth + 1 → ∀ rest, Apart rest →
      s.termOf (sumOf (s.readTerm depth)) (w.toList ++ rest) = some (v, rest)) :
    s.Takes .term w v := by
  intro depth hdepth rest hrest
  have hpos := List.length_pos_iff.mpr hw
  obtain ⟨depth, rfl⟩ : ∃ d, depth = d + 1 := ⟨depth - 1, by omega⟩
  exact h depth hdepth rest hrest

theorem takes_group (h : s.Takes .sum w v) : s.Takes .term ("(" ++ w ++ ")") v := by
  refine takes_term (by simp) fun depth hdepth rest _ => ?_
  have hlength : w.toList.length ≤ depth := by
    simp at hdepth ⊢
    omega
  exact termOf_group (h.sumOf hlength stop_close)

theorem takes_cast {f : TextCast} {t : List Char} (hf : f ∈ s.dialect.textCasts)
    (h : s.Takes .sum w (.text t)) :
    s.Takes .term (f.word ++ f.opening ++ w ++ f.closing) (.text t) := by
  have hword := (Dialect.word_of_mem_textCasts hf).2.1
  refine takes_term ?_ fun depth hdepth rest _ => ?_
  · rw [← List.length_pos_iff]
    simp
    omega
  · have hlength : w.toList.length ≤ depth := by
      simp at hdepth ⊢
      omega
    exact termOf_cast hf (h.sumOf hlength (stop_cast hf))

section Calls

variable {f : TextFunction} {p q : Separator} {w₁ w₂ w₃ : String} {x y z : Value}

/-- The operands of a call may be one less deep than the call. -/
theorem takes_call (h : ∀ depth, w.toList.length ≤ depth → ∀ rest,
      s.readCall (DataflowSql.sumOf (s.readTerm depth)) f (w.toList ++ rest) = some (v, rest)) :
    s.Takes .term (f.name ++ "(" ++ w) v := by
  refine takes_term (by simp) fun depth hdepth rest _ => ?_
  have hlength : w.toList.length ≤ depth := by
    simp at hdepth ⊢
    omega
  rw [String.toList_append, List.append_assoc, termOf_call]
  exact h depth hlength rest

theorem takes_call₁ (hx : s.Takes .sum w x) (hv : s.dialect.apply f [] [x] = some v) :
    s.Takes .term (f.name ++ "(" ++ w ++ ")") v := by
  rw [String.append_assoc]
  refine takes_call fun depth hdepth rest => ?_
  have htext : (w ++ ")").toList ++ rest = w.toList ++ (")".toList ++ rest) := by simp
  have hlength : w.toList.length ≤ depth := by
    simp at hdepth ⊢
    omega
  simp only [htext, readCall, hx.sumOf hlength stop_close, Option.bind_eq_bind, Option.bind_some,
    separator?_close, hv, ended_close]

theorem takes_call₂ (hx : s.Takes .sum w₁ x) (hy : s.Takes .sum w₂ y)
    (hv : s.dialect.apply f [p] [x, y] = some v) :
    s.Takes .term (f.name ++ "(" ++ w₁ ++ p.text ++ w₂ ++ ")") v := by
  rw [String.append_assoc, String.append_assoc, String.append_assoc]
  refine takes_call fun depth hdepth rest => ?_
  have htext : (w₁ ++ (p.text ++ (w₂ ++ ")"))).toList ++ rest =
      w₁.toList ++ (p.text.toList ++ (w₂.toList ++ (")".toList ++ rest))) := by simp
  have hlength : w₁.toList.length ≤ depth ∧ w₂.toList.length ≤ depth := by
    simp at hdepth ⊢
    omega
  simp only [htext, readCall, hx.sumOf hlength.1 (stop_separator p),
    hy.sumOf hlength.2 stop_close, Option.bind_eq_bind, Option.bind_some, separator?_append,
    separator?_close, hv, ended_close]

theorem takes_call₃ (hx : s.Takes .sum w₁ x) (hy : s.Takes .sum w₂ y) (hz : s.Takes .sum w₃ z)
    (hv : s.dialect.apply f [p, q] [x, y, z] = some v) :
    s.Takes .term (f.name ++ "(" ++ w₁ ++ p.text ++ w₂ ++ q.text ++ w₃ ++ ")") v := by
  rw [String.append_assoc, String.append_assoc, String.append_assoc, String.append_assoc,
    String.append_assoc]
  refine takes_call fun depth hdepth rest => ?_
  have htext : (w₁ ++ (p.text ++ (w₂ ++ (q.text ++ (w₃ ++ ")"))))).toList ++ rest =
      w₁.toList ++ (p.text.toList ++ (w₂.toList ++ (q.text.toList ++ (w₃.toList ++
        (")".toList ++ rest))))) := by simp
  have hlength : w₁.toList.length ≤ depth ∧ w₂.toList.length ≤ depth ∧
      w₃.toList.length ≤ depth := by
    simp at hdepth ⊢
    omega
  simp only [htext, readCall, hx.sumOf hlength.1 (stop_separator p),
    hy.sumOf hlength.2.1 (stop_separator q), hz.sumOf hlength.2.2 stop_close,
    Option.bind_eq_bind, Option.bind_some, separator?_append, hv, ended_close]

end Calls

theorem takes_lone (h : s.Takes .term w v) : s.Takes .sum w v := by
  intro depth hdepth
  refine ⟨0, by omega, fun fuel rest hrest => ?_⟩
  rw [sumWith, h depth hdepth rest hrest]
  rfl

/-- One more operand of a sum takes one more step. -/
theorem takes_operand {u between : String} (op : Int → Int → Int) {a b : Int}
    (hbetween : ∀ r, Apart (between.toList ++ r) ∧ operator? (between.toList ++ r) = some (op, r))
    (hlength : 1 ≤ between.toList.length) (hu : s.Takes .sum u (.number a))
    (hw : s.Takes .term w (.number b)) :
    s.Takes .sum (u ++ between ++ w) (.number (op a b)) := by
  intro depth hdepth
  rw [String.toList_append, String.toList_append, List.length_append, List.length_append] at hdepth
  obtain ⟨steps, hsteps, hsum⟩ := hu depth (by omega)
  refine ⟨steps + 1, ?_, fun fuel rest hrest => ?_⟩
  · rw [String.toList_append, String.toList_append, List.length_append, List.length_append]
    omega
  · have htext : (u ++ between ++ w).toList ++ rest =
        u.toList ++ (between.toList ++ (w.toList ++ rest)) := by simp
    have hfuel : fuel + (steps + 1) = fuel + 1 + steps := by omega
    rw [htext, hfuel, hsum (fuel + 1) _ (hbetween _).1, sumFrom, (hbetween _).2]
    simp only [hw depth (by omega) rest hrest, Option.bind_eq_bind, Option.bind_some, combine]

end Session

/-- By induction on the grammar: what stands behind a term is left for the sum around it. -/
theorem Denotes.takes {rank : Rank} (h : Denotes s rank w v) : s.Takes rank w v := by
  induction h with
  | number n =>
    have hne : (toString n).toList ≠ [] := by
      rw [Nat.toString_eq_repr, Nat.toList_repr]
      exact Nat.toDigits_ne_nil
    refine Session.takes_term hne fun depth _ rest hrest => ?_
    exact Session.termOf_value (isName_nat n) (Session.wordValue?_number n) hrest
  | text t plain =>
    refine Session.takes_term ?_ fun depth _ rest hrest => Session.termOf_text t plain hrest
    simp [Dialect.quoteString, Dialect.stringChars]
  | column i =>
    refine Session.takes_term (by simp [Sql.columnName]) fun depth _ rest hrest => ?_
    exact Session.termOf_value (isName_columnName i) (Session.wordValue?_column i) hrest
  | group inner ih => exact Session.takes_group ih
  | cast hf inner ih => exact Session.takes_cast hf ih
  | call₁ first hv ih => exact Session.takes_call₁ ih hv
  | call₂ first second hv ih ih' => exact Session.takes_call₂ ih ih' hv
  | call₃ first second third hv ih ih' ih'' => exact Session.takes_call₃ ih ih' ih'' hv
  | lone h ih => exact Session.takes_lone ih
  | plus hu hw ihu ihw =>
    exact Session.takes_operand (· + ·)
      (fun r => ⟨apart_append rfl (by decide) (by decide), rfl⟩) (by decide) ihu ihw
  | minus hu hw ihu ihw =>
    exact Session.takes_operand (· - ·)
      (fun r => ⟨apart_append rfl (by decide) (by decide), rfl⟩) (by decide) ihu ihw

/-- The reader finds what the grammar says, so that no text stands for two values. -/
theorem Denotes.evaluate (h : Denotes s .sum w v) : s.evaluate w = some v := by
  have hread := h.takes.sumOf (Nat.le_refl _) stop_nil
  rw [List.append_nil] at hread
  rw [Session.evaluate, hread]

end Reading

end DataflowSql

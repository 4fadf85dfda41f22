import Mathlib.Data.List.Basic
import DataflowSql.Dialect.Quoting

/-! Statements as a reader of the dialect takes them apart: quoted tokens, and single characters
between them. A backslash has no meaning of its own. -/
namespace DataflowSql

/-- A quoted token with what it stands for, or a character outside of one. -/
inductive Lexeme where
  | plain (c : Char)
  | quoted (content : List Char)
deriving DecidableEq, Repr

/-- Where a scan stands. Behind a closing quote a token may still go on: a second one makes both
stand for one quote inside. -/
inductive LexMode where
  | outside
  | inside (closing : Char) (content : List Char)
  | closed (closing : Char) (content : List Char)
deriving DecidableEq, Repr

/-- The quote that ends a token which `c` begins. -/
def Dialect.closingOf? (d : Dialect) (c : Char) : Option Char :=
  if c = '\'' then some '\'' else if c = d.openingQuote then some d.closingQuote else none

namespace LexMode

def enter (d : Dialect) (c : Char) : List Lexeme × LexMode :=
  match d.closingOf? c with
  | some q => ([], .inside q [])
  | none => ([.plain c], .outside)

/-- The lexemes that one more character completes, and the mode after it. -/
def step (d : Dialect) : LexMode → Char → List Lexeme × LexMode
  | .outside, c => enter d c
  | .inside q w, c => ([], if c = q then .closed q w else .inside q (w ++ [c]))
  | .closed q w, c =>
    if c = q then ([], .inside q (w ++ [q])) else (.quoted w :: (enter d c).1, (enter d c).2)

def scan (d : Dialect) : LexMode → List Char → List Lexeme × LexMode
  | m, [] => ([], m)
  | m, c :: cs => ((m.step d c).1 ++ ((m.step d c).2.scan d cs).1, ((m.step d c).2.scan d cs).2)

/-- What is left when the text ends here; nothing may end inside a token. -/
def finish? : LexMode → Option (List Lexeme)
  | .outside => some []
  | .inside _ _ => none
  | .closed _ w => some [.quoted w]

theorem scan_append (d : Dialect) (m : LexMode) (u v : List Char) :
    m.scan d (u ++ v) =
      ((m.scan d u).1 ++ ((m.scan d u).2.scan d v).1, ((m.scan d u).2.scan d v).2) := by
  induction u generalizing m with
  | nil => rfl
  | cons c u ih => simp only [List.cons_append, scan, ih, List.append_assoc]

end LexMode

/-- A text read from its beginning to its end, if it ends outside of quoted tokens. -/
def Dialect.lex? (d : Dialect) (cs : List Char) : Option (List Lexeme) :=
  let (ls, m) := LexMode.outside.scan d cs
  m.finish?.map fun rest => ls ++ rest

/-- Characters that may stand outside of quoted tokens. -/
def isBare (c : Char) : Bool :=
  c.isAlphanum || c ∈ ['_', '.', ',', '(', ')', '=', '<', '>', '+', '-', '*', ' ']

/-- Parentheses match, nothing but bare characters stands between tokens, and no comment begins. -/
structure Tidy (ls : List Lexeme) : Prop where
  balanced : ls.count (.plain '(') = ls.count (.plain ')')
  nested : ∀ before, before <+: ls → before.count (.plain ')') ≤ before.count (.plain '(')
  bare : ∀ c, .plain c ∈ ls → isBare c = true
  noComment : ¬ [.plain '-', .plain '-'] <:+: ls

/-- How deep in parentheses a reader is, and whether the last lexeme was a dash. -/
structure Nesting where
  depth : Nat
  dash : Bool
deriving DecidableEq, Repr

namespace Nesting

/-- Reads one more lexeme, unless it does not fit. -/
def check (k : Nesting) : Lexeme → Option Nesting
  | .quoted _ => some ⟨k.depth, false⟩
  | .plain c =>
    if c = '(' then some ⟨k.depth + 1, false⟩
    else if c = ')' then
      match k.depth with
      | 0 => none
      | n + 1 => some ⟨n, false⟩
    else if c = '-' then if k.dash then none else some ⟨k.depth, true⟩
    else if isBare c then some ⟨k.depth, false⟩ else none

variable {k k' : Nesting} {l : Lexeme} {ls : List Lexeme}

/-- All that reading one lexeme can do. -/
inductive Checked : Nesting → Lexeme → Nesting → Prop
  | quoted (n : Nat) (dash : Bool) (w : List Char) : Checked ⟨n, dash⟩ (.quoted w) ⟨n, false⟩
  | opened (n : Nat) (dash : Bool) : Checked ⟨n, dash⟩ (.plain '(') ⟨n + 1, false⟩
  | shut (n : Nat) (dash : Bool) : Checked ⟨n + 1, dash⟩ (.plain ')') ⟨n, false⟩
  | dash (n : Nat) : Checked ⟨n, false⟩ (.plain '-') ⟨n, true⟩
  | other (n : Nat) (dash : Bool) (c : Char) (bare : isBare c = true) (op : c ≠ '(')
      (cl : c ≠ ')') (da : c ≠ '-') : Checked ⟨n, dash⟩ (.plain c) ⟨n, false⟩

theorem checked_of_check (h : k.check l = some k') : Checked k l k' := by
  obtain ⟨n, dash⟩ := k
  cases l with
  | quoted w =>
    cases h
    exact .quoted n dash w
  | plain c =>
    simp only [check] at h
    split_ifs at h with hop hcl hda hdash hbare
    · cases h
      subst hop
      exact .opened n dash
    · subst hcl
      cases n with
      | zero => cases h
      | succ n =>
        cases h
        exact .shut n dash
    · cases h
      subst hda
      rw [Bool.not_eq_true] at hdash
      subst hdash
      exact .dash n
    · cases h
      exact .other n dash c hbare hop hcl hda

theorem Checked.check (h : Checked k l k') : k.check l = some k' := by
  cases h with
  | other n dash c bare op cl da => simp [Nesting.check, bare, op, cl, da]
  | _ => rfl

/-- What fits at some depth fits further down too. -/
theorem Checked.deeper (h : Checked k l k') (n : Nat) :
    Checked ⟨n + k.depth, k.dash⟩ l ⟨n + k'.depth, k'.dash⟩ := by
  cases h with
  | quoted a dash w => exact .quoted (n + a) dash w
  | opened a dash => exact .opened (n + a) dash
  | shut a dash => exact .shut (n + a) dash
  | dash a => exact .dash (n + a)
  | other a dash c bare op cl da => exact .other (n + a) dash c bare op cl da

/-- One lexeme moves the depth by what it opens and shuts. -/
theorem Checked.depth_add (h : Checked k l k') :
    k.depth + [l].count (.plain '(') = k'.depth + [l].count (.plain ')') := by
  cases h with
  | other n dash c bare op cl da => simp [op, cl]
  | _ => simp

theorem Checked.bare (h : Checked k l k') : ∀ c, l = .plain c → isBare c = true := by
  intro c hc
  cases h with
  | quoted => simp at hc
  | other _ _ _ bare =>
    cases hc
    exact bare
  | _ =>
    cases hc
    decide

/-- A dash is remembered, and no second one may follow it. -/
theorem Checked.dash_iff (h : Checked k l k') :
    (k'.dash = true ↔ l = .plain '-') ∧ (k.dash = true → l ≠ .plain '-') := by
  cases h with
  | other n dash c bare op cl da => simp [da]
  | _ => simp

theorem checks_deeper (h : ls.foldlM check k = some k') (n : Nat) :
    ls.foldlM check ⟨n + k.depth, k.dash⟩ = some ⟨n + k'.depth, k'.dash⟩ := by
  induction ls generalizing k with
  | nil =>
    cases h
    rfl
  | cons l ls ih =>
    rw [List.foldlM_cons, Option.bind_eq_bind, Option.bind_eq_some_iff] at h ⊢
    obtain ⟨k₁, hl, h⟩ := h
    exact ⟨_, ((checked_of_check hl).deeper n).check, ih h⟩

theorem nested_of_checks (h : ls.foldlM check k = some k') : ∀ before, before <+: ls →
    before.count (.plain ')') ≤ k.depth + before.count (.plain '(') := by
  induction ls generalizing k with
  | nil =>
    intro before hb
    simp [List.prefix_nil.mp hb]
  | cons l ls ih =>
    rw [List.foldlM_cons, Option.bind_eq_bind, Option.bind_eq_some_iff] at h
    obtain ⟨k₁, hl, h⟩ := h
    intro before hb
    cases before with
    | nil => simp
    | cons b before =>
      obtain ⟨rfl, htail⟩ := List.cons_prefix_cons.mp hb
      have hstep := (checked_of_check hl).depth_add
      have hrest := ih h before htail
      rw [← List.singleton_append, List.count_append, List.count_append]
      omega

theorem depth_of_checks (h : ls.foldlM check k = some k') :
    k.depth + ls.count (.plain '(') = k'.depth + ls.count (.plain ')') := by
  induction ls generalizing k with
  | nil =>
    cases h
    simp
  | cons l ls ih =>
    rw [List.foldlM_cons, Option.bind_eq_bind, Option.bind_eq_some_iff] at h
    obtain ⟨k₁, hl, h⟩ := h
    have hstep := (checked_of_check hl).depth_add
    have hrest := ih h
    rw [← List.singleton_append, List.count_append, List.count_append]
    omega

theorem bare_of_checks (h : ls.foldlM check k = some k') :
    ∀ c, .plain c ∈ ls → isBare c = true := by
  induction ls generalizing k with
  | nil => simp
  | cons l ls ih =>
    rw [List.foldlM_cons, Option.bind_eq_bind, Option.bind_eq_some_iff] at h
    obtain ⟨k₁, hl, h⟩ := h
    intro c hc
    rcases List.mem_cons.mp hc with hc | hc
    · exact (checked_of_check hl).bare c hc.symm
    · exact ih h c hc

/-- Two dashes in a row would have to follow each other directly, or the first of them stands
before the list. -/
theorem noComment_of_checks (h : ls.foldlM check k = some k') :
    ¬ [.plain '-', .plain '-'] <:+: ls ∧ (k.dash = true → ls.head? ≠ some (.plain '-')) := by
  induction ls generalizing k with
  | nil => simp
  | cons l ls ih =>
    rw [List.foldlM_cons, Option.bind_eq_bind, Option.bind_eq_some_iff] at h
    obtain ⟨k₁, hl, h⟩ := h
    obtain ⟨hdash, hno⟩ := (checked_of_check hl).dash_iff
    obtain ⟨hrest, hhead⟩ := ih h
    refine ⟨?_, fun hk => by simpa using hno hk⟩
    intro hin
    rcases List.infix_cons_iff.mp hin with hpre | hin
    · obtain ⟨hl', hpre⟩ := List.cons_prefix_cons.mp hpre
      obtain ⟨rest, rfl⟩ := hpre
      exact hhead (hdash.mpr hl'.symm) rfl
    · exact hrest hin

theorem tidy_of_checks {dash : Bool} (h : ls.foldlM check ⟨0, false⟩ = some ⟨0, dash⟩) :
    Tidy ls where
  balanced := by
    have hdepth := depth_of_checks h
    simpa using hdepth
  nested := by
    intro before hb
    have hnested := nested_of_checks h before hb
    simpa using hnested
  bare := bare_of_checks h
  noComment := (noComment_of_checks h).1

end Nesting

end DataflowSql

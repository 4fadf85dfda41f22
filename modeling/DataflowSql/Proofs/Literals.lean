import Mathlib.Data.List.Basic
import DataflowSql.Dialect.Quoting

/-! String literals as MySQL reads them by default: a doubled quote stands for one, and a backslash
gives the character behind it another meaning. The quotes of a value are doubled when it is written,
but its backslashes are written as they are. So a literal may end elsewhere than where it was meant
to, and may stand for another value; it is said here exactly when. -/
namespace DataflowSql

/-- What a backslash and the character behind it stand for. In front of a wildcard the backslash is
kept, for the pattern to read. -/
def afterBackslash (c : Char) : List Char :=
  if c = '0' then ['\x00']
  else if c = 'b' then ['\x08']
  else if c = 'n' then ['\n']
  else if c = 'r' then ['\r']
  else if c = 't' then ['\t']
  else if c = 'Z' then ['\x1a']
  else if c = '%' ∨ c = '_' then ['\\', c]
  else [c]

/-- Where a reader of a literal stands: between its quotes, behind a backslash, or behind a quote
that ends it unless another one follows. -/
inductive LiteralMode where
  | inside
  | escaped
  | closed
deriving DecidableEq, Repr

namespace LiteralMode

/-- The rest of the value, and the text behind the literal. A backslash counts only where it
`escapes`. -/
def read? (escapes : Bool) : LiteralMode → List Char → Option (List Char × List Char)
  | .inside, [] => none
  | .escaped, [] => none
  | .closed, [] => some ([], [])
  | .inside, c :: cs =>
    if escapes = true ∧ c = '\\' then escaped.read? escapes cs
    else if c = '\'' then closed.read? escapes cs
    else (inside.read? escapes cs).map fun r => (c :: r.1, r.2)
  | .escaped, c :: cs => (inside.read? escapes cs).map fun r => (afterBackslash c ++ r.1, r.2)
  | .closed, c :: cs =>
    if c = '\'' then (inside.read? escapes cs).map fun r => (c :: r.1, r.2) else some ([], c :: cs)

end LiteralMode

/-- Reads the string literal that a text begins with. -/
def readLiteral? (escapes : Bool) : List Char → Option (List Char × List Char)
  | [] => none
  | c :: cs => if c = '\'' then LiteralMode.inside.read? escapes cs else none

/-- A value with its quotes doubled, and the closing quote behind it. -/
def closing (s rest : List Char) : List Char := doubling '\'' s ++ '\'' :: rest

theorem quoteString_append (d : Dialect) (s : String) (rest : List Char) :
    (d.quoteString s).toList ++ rest = d.stringMark.toList ++ '\'' :: closing s.toList rest := by
  simp [Dialect.quoteString, Dialect.stringChars, closing]

section Closing

variable {c : Char} {s v rest : List Char}

theorem closing_quote : closing ('\'' :: s) rest = '\'' :: '\'' :: closing s rest := by
  simp [closing, doubling]

theorem closing_other (hc : c ≠ '\'') : closing (c :: s) rest = c :: closing s rest := by
  simp [closing, doubling, hc]

end Closing

namespace LiteralMode

variable {escapes : Bool} {m : LiteralMode} {c : Char} {cs w s v r rest : List Char}

theorem inside_quote : inside.read? escapes ('\'' :: cs) = closed.read? escapes cs := by
  rw [read?, if_neg (by simp), if_pos rfl]

/-- A literal ends in front of a character, or goes on behind it. -/
theorem next_of_read? (h : m.read? escapes (c :: cs) = some (v, r)) :
    (m = .closed ∧ r = c :: cs) ∨ ∃ m' v', read? escapes m' cs = some (v', r) := by
  cases m with
  | inside =>
    rw [read?] at h
    split_ifs at h
    · exact .inr ⟨_, _, h⟩
    · exact .inr ⟨_, _, h⟩
    · obtain ⟨x, hx, hr⟩ := Option.map_eq_some_iff.mp h
      cases hr
      exact .inr ⟨_, _, hx⟩
  | escaped =>
    obtain ⟨x, hx, hr⟩ := Option.map_eq_some_iff.mp h
    cases hr
    exact .inr ⟨_, _, hx⟩
  | closed =>
    rw [read?] at h
    split_ifs at h
    · obtain ⟨x, hx, hr⟩ := Option.map_eq_some_iff.mp h
      cases hr
      exact .inr ⟨_, _, hx⟩
    · cases h
      exact .inl ⟨rfl, rfl⟩

theorem length_rest_le (h : m.read? escapes w = some (v, r)) : r.length ≤ w.length := by
  induction w generalizing m v with
  | nil => cases m <;> simp_all [read?]
  | cons c cs ih =>
    rcases next_of_read? h with ⟨-, rfl⟩ | ⟨m', v', h'⟩
    · exact Nat.le_refl _
    · have hle := ih h'
      rw [List.length_cons]
      omega

/-- What is still open takes up at least the quote that ends it. -/
theorem length_rest_lt (hm : m ≠ .closed) (h : m.read? escapes w = some (v, r)) :
    r.length < w.length := by
  cases w with
  | nil => cases m <;> simp_all [read?]
  | cons c cs =>
    rcases next_of_read? h with ⟨hclosed, -⟩ | ⟨m', v', h'⟩
    · exact absurd hclosed hm
    · have hle := length_rest_le h'
      rw [List.length_cons]
      omega

/-- Once a quote of the value has ended the literal, its closing quote does not do so any more. -/
theorem closed_read?_ne (s : List Char) :
    closed.read? escapes (closing s rest) ≠ some (v, rest) := by
  intro h
  induction s generalizing v with
  | nil =>
    obtain ⟨x, hx, hr⟩ := Option.map_eq_some_iff.mp h
    cases hr
    have hlt := length_rest_lt (by simp) hx
    omega
  | cons c s ih =>
    by_cases hc : c = '\''
    · subst hc
      rw [closing_quote] at h
      obtain ⟨x, hx, hr⟩ := Option.map_eq_some_iff.mp h
      cases hr
      rw [inside_quote] at hx
      exact ih hx
    · rw [closing_other hc, read?, if_neg hc] at h
      have hrest := congrArg (fun r => (r.map fun x => x.2.length)) h
      simp [closing] at hrest
      omega

end LiteralMode

/-- What is between the quotes is read as `v`, and the literal ends at its closing quote. With
`pending`, a backslash stands before it. -/
inductive ReadAs : (pending : Bool) → (s v : List Char) → Prop
  | nil : ReadAs false [] []
  | backslash {s v : List Char} (next : ReadAs true s v) : ReadAs false ('\\' :: s) v
  | plain {c : Char} {s v : List Char} (hc : c ≠ '\\') (next : ReadAs false s v) :
      ReadAs false (c :: s) (c :: v)
  | escaped {c : Char} {s v : List Char} (hc : c ≠ '\'') (next : ReadAs false s v) :
      ReadAs true (c :: s) (afterBackslash c ++ v)

namespace ReadAs

variable {c : Char} {s v : List Char}

theorem nil_iff : ReadAs false [] v ↔ v = [] := by
  constructor
  · rintro ⟨⟩
    rfl
  · rintro rfl
    exact .nil

theorem backslash_iff : ReadAs false ('\\' :: s) v ↔ ReadAs true s v := by
  constructor
  · intro h
    cases h with
    | backslash next => exact next
    | plain hc next => exact absurd rfl hc
  · exact .backslash

theorem plain_iff (hc : c ≠ '\\') :
    ReadAs false (c :: s) v ↔ ∃ v', ReadAs false s v' ∧ c :: v' = v := by
  constructor
  · intro h
    cases h with
    | backslash next => exact absurd rfl hc
    | @plain _ _ v' _ next => exact ⟨v', next, rfl⟩
  · rintro ⟨v', next, rfl⟩
    exact .plain hc next

theorem escaped_iff :
    ReadAs true (c :: s) v ↔ c ≠ '\'' ∧ ∃ v', ReadAs false s v' ∧ afterBackslash c ++ v' = v := by
  constructor
  · intro h
    cases h with
    | @escaped _ _ v' hc next => exact ⟨hc, v', next, rfl⟩
  · rintro ⟨hc, v', next, rfl⟩
    exact .escaped hc next

end ReadAs

namespace LiteralMode

variable {escapes : Bool} {c : Char} {s v rest : List Char}

theorem map_append_eq_some {x : Option (List Char × List Char)} (u : List Char) :
    x.map (fun r => (u ++ r.1, r.2)) = some (v, rest) ↔
      ∃ v', x = some (v', rest) ∧ u ++ v' = v := by
  simp [Option.map_eq_some_iff]

theorem inside_closing_nil (hrest : rest.head? ≠ some '\'') :
    inside.read? escapes (closing [] rest) = some ([], rest) := by
  change inside.read? escapes ('\'' :: rest) = _
  rw [inside_quote]
  cases rest with
  | nil => rfl
  | cons c cs =>
    have hc : c ≠ '\'' := by simpa using hrest
    rw [read?, if_neg hc]

theorem inside_closing_backslash :
    inside.read? true (closing ('\\' :: s) rest) = escaped.read? true (closing s rest) := by
  rw [closing_other (by decide), read?, if_pos ⟨rfl, rfl⟩]

theorem inside_closing_plain (hc : escapes = true → c ≠ '\\') :
    inside.read? escapes (closing (c :: s) rest) =
      (inside.read? escapes (closing s rest)).map fun r => ([c] ++ r.1, r.2) := by
  by_cases hquote : c = '\''
  · subst hquote
    rw [closing_quote, inside_quote]
    rfl
  · rw [closing_other hquote, read?, if_neg (not_and.mpr hc), if_neg hquote]
    rfl

/-- A text without backslashes is read as it is, and so is any text where they count for nothing. -/
theorem inside_closing (hrest : rest.head? ≠ some '\'') (hs : escapes = true → '\\' ∉ s) :
    inside.read? escapes (closing s rest) = some (s, rest) := by
  induction s with
  | nil => exact inside_closing_nil hrest
  | cons c s ih =>
    have hc : escapes = true → c ≠ '\\' := fun h => (List.ne_of_not_mem_cons (hs h)).symm
    rw [inside_closing_plain hc, ih fun h => List.not_mem_of_not_mem_cons (hs h)]
    rfl

theorem escaped_closing_quote : escaped.read? true (closing ('\'' :: s) rest) =
    (closed.read? true (closing s rest)).map fun r => (afterBackslash '\'' ++ r.1, r.2) := by
  rw [closing_quote]
  rfl

theorem escaped_closing_other (hc : c ≠ '\'') : escaped.read? true (closing (c :: s) rest) =
    (inside.read? true (closing s rest)).map fun r => (afterBackslash c ++ r.1, r.2) := by
  rw [closing_other hc, read?]

/-- A literal that ends at its closing quote is read character by character. -/
theorem read?_closing_iff (hrest : rest.head? ≠ some '\'') (s v : List Char) :
    (inside.read? true (closing s rest) = some (v, rest) ↔ ReadAs false s v) ∧
      (escaped.read? true (closing s rest) = some (v, rest) ↔ ReadAs true s v) := by
  induction s generalizing v with
  | nil =>
    constructor
    · rw [inside_closing_nil hrest, ReadAs.nil_iff, Option.some.injEq, Prod.mk.injEq,
        and_iff_left rfl]
      exact eq_comm
    · refine iff_of_false ?_ (by rintro ⟨⟩)
      intro h
      obtain ⟨v', h', -⟩ := (map_append_eq_some _).mp h
      exact absurd (length_rest_lt (by simp) h') (Nat.lt_irrefl _)
  | cons c s ih =>
    have hnext (u : List Char) : (∃ v', inside.read? true (closing s rest) = some (v', rest) ∧
        u ++ v' = v) ↔ ∃ v', ReadAs false s v' ∧ u ++ v' = v :=
      exists_congr fun v' => and_congr_left' (ih v').1
    constructor
    · by_cases hc : c = '\\'
      · subst hc
        rw [inside_closing_backslash, ReadAs.backslash_iff]
        exact (ih v).2
      · rw [inside_closing_plain fun _ => hc, map_append_eq_some, ReadAs.plain_iff hc]
        exact hnext [c]
    · rw [ReadAs.escaped_iff]
      by_cases hc : c = '\''
      · subst hc
        refine iff_of_false ?_ (by simp)
        intro h
        rw [escaped_closing_quote, map_append_eq_some] at h
        obtain ⟨v', h', -⟩ := h
        exact closed_read?_ne s h'
      · rw [escaped_closing_other hc, map_append_eq_some, and_iff_right hc]
        exact hnext _

end LiteralMode

/-- Whether a backslash waits behind a text for the character that it changes, if one waits before
the text. -/
def pendingAfter (pending : Bool) (s : List Char) : Bool :=
  s.foldl (fun pending c => c = '\\' && !pending) pending

/-- No backslash waits where a quote of the text or its end is read. -/
def QuotesFree (pending : Bool) (s : List Char) : Prop :=
  ∀ before after, s = before ++ after → after = [] ∨ after.head? = some '\'' →
    pendingAfter pending before = false

/-- Every backslash stands in front of a wildcard. -/
def BeforeWildcards (s : List Char) : Prop :=
  ∀ before after, s = before ++ '\\' :: after →
    after.head? = some '%' ∨ after.head? = some '_'

theorem quotesFree_nil (pending : Bool) : QuotesFree pending [] ↔ pending = false := by
  constructor
  · intro h
    exact h [] [] rfl (.inl rfl)
  · rintro rfl before after hsplit -
    obtain ⟨rfl, -⟩ := List.append_eq_nil_iff.mp hsplit.symm
    rfl

theorem quotesFree_cons (pending : Bool) (c : Char) (s : List Char) :
    QuotesFree pending (c :: s) ↔
      (c = '\'' → pending = false) ∧ QuotesFree (c = '\\' && !pending) s := by
  constructor
  · intro h
    refine ⟨fun hc => h [] (c :: s) rfl (.inr (by simp [hc])), fun before after hsplit hafter => ?_⟩
    exact h (c :: before) after (by simp [hsplit]) hafter
  · rintro ⟨hquote, h⟩ before after hsplit hafter
    cases before with
    | nil =>
      rw [List.nil_append] at hsplit
      subst hsplit
      exact hquote (by simpa using hafter)
    | cons x before =>
      rw [List.cons_append, List.cons.injEq] at hsplit
      obtain ⟨rfl, hsplit⟩ := hsplit
      exact h before after hsplit hafter

theorem beforeWildcards_nil : BeforeWildcards [] := by
  intro before after hsplit
  simp at hsplit

theorem beforeWildcards_cons (c : Char) (s : List Char) : BeforeWildcards (c :: s) ↔
    (c = '\\' → s.head? = some '%' ∨ s.head? = some '_') ∧ BeforeWildcards s := by
  constructor
  · intro h
    refine ⟨fun hc => h [] s (by simp [hc]), fun before after hsplit => ?_⟩
    exact h (c :: before) after (by simp [hsplit])
  · rintro ⟨hfirst, h⟩ before after hsplit
    cases before with
    | nil =>
      rw [List.nil_append, List.cons.injEq] at hsplit
      obtain ⟨hc, rfl⟩ := hsplit
      exact hfirst hc
    | cons x before =>
      rw [List.cons_append, List.cons.injEq] at hsplit
      exact h before after hsplit.2

/-- Only a wildcard makes a backslash stand for more than one character. -/
theorem wildcard_of_length {c : Char} (h : 2 ≤ (afterBackslash c).length) :
    (c = '%' ∨ c = '_') ∧ afterBackslash c = ['\\', c] := by
  by_cases hc : c = '%' ∨ c = '_'
  · refine ⟨hc, ?_⟩
    rcases hc with rfl | rfl <;> rfl
  · exfalso
    unfold afterBackslash at h
    split_ifs at h <;> simp at h

namespace ReadAs

variable {pending : Bool} {s v : List Char}

/-- A value is never longer than what was written for it. -/
theorem length_le (h : ReadAs pending s v) : v.length ≤ s.length + pending.toNat := by
  induction h with
  | nil => simp
  | backslash next ih => simpa using ih
  | plain hc next ih => simpa using ih
  | @escaped c s v hc next ih =>
    have hpair : (afterBackslash c).length ≤ 2 := by
      unfold afterBackslash
      split_ifs <;> simp
    simp at ih ⊢
    omega

/-- The literal ends at its closing quote exactly if no backslash takes a quote away. -/
theorem exists_iff (pending : Bool) (s : List Char) :
    (∃ v, ReadAs pending s v) ↔ QuotesFree pending s := by
  induction s generalizing pending with
  | nil =>
    rw [quotesFree_nil]
    constructor
    · rintro ⟨v, ⟨⟩⟩
      rfl
    · rintro rfl
      exact ⟨[], .nil⟩
  | cons c s ih =>
    rw [quotesFree_cons, ← ih]
    constructor
    · rintro ⟨v, hv⟩
      cases hv with
      | backslash next => exact ⟨by simp, v, next⟩
      | @plain _ _ v hc next => exact ⟨by simp, v, by simpa [hc] using next⟩
      | @escaped _ _ v hc next => exact ⟨by simp [hc], v, by simpa using next⟩
    · rintro ⟨hquote, v, next⟩
      cases pending with
      | true =>
        have hc : c ≠ '\'' := by simpa using hquote
        exact ⟨_, .escaped hc (by simpa using next)⟩
      | false =>
        by_cases hc : c = '\\'
        · subst hc
          exact ⟨v, .backslash next⟩
        · exact ⟨_, .plain hc (by simpa [hc] using next)⟩

theorem same_iff (s : List Char) : (ReadAs false s s ↔ BeforeWildcards s) ∧
    (ReadAs true s ('\\' :: s) ↔
      (s.head? = some '%' ∨ s.head? = some '_') ∧ BeforeWildcards s) := by
  induction s with
  | nil =>
    refine ⟨iff_of_true .nil beforeWildcards_nil, iff_of_false ?_ (by simp)⟩
    rintro ⟨⟩
  | cons c s ih =>
    constructor
    · rw [beforeWildcards_cons]
      by_cases hc : c = '\\'
      · subst hc
        rw [imp_iff_right rfl, backslash_iff]
        exact ih.2
      · rw [and_iff_right (absurd · hc), plain_iff hc, ← ih.1]
        simp
    · rw [beforeWildcards_cons, escaped_iff, ← ih.1]
      constructor
      · rintro ⟨-, v, next, hv⟩
        -- the rest is no longer than what is left of the text, so this step gives two characters
        have hlength := congrArg List.length hv
        have hrest := next.length_le
        simp only [List.length_append, List.length_cons, Bool.toNat_false] at hlength hrest
        obtain ⟨hc, hpair⟩ := wildcard_of_length (c := c) (by omega)
        obtain rfl : v = s := by simpa [hpair] using hv
        refine ⟨by simpa using hc, ?_, next⟩
        rintro rfl
        simp at hc
      · rintro ⟨hc, -, h⟩
        have hc : c = '%' ∨ c = '_' := by simpa using hc
        rcases hc with rfl | rfl
        · exact ⟨by decide, s, h, rfl⟩
        · exact ⟨by decide, s, h, rfl⟩

end ReadAs

/-- A value is written as a literal that ends at its last quote exactly if no backslash waits where
a quote of the value or its end is read, and the literal stands for the value exactly if every
backslash of the value is in front of a wildcard, so always if there is none. -/
theorem literal_read_iff (s : String) {rest : List Char} (hrest : rest.head? ≠ some '\'') :
    ((∃ v, readLiteral? true ((Dialect.mySql.quoteString s).toList ++ rest) = some (v, rest)) ↔
      ∀ before after, s.toList = before ++ after → after = [] ∨ after.head? = some '\'' →
        pendingAfter false before = false) ∧
    (readLiteral? true ((Dialect.mySql.quoteString s).toList ++ rest) = some (s.toList, rest) ↔
      ∀ before after, s.toList = before ++ '\\' :: after →
        after.head? = some '%' ∨ after.head? = some '_') := by
  rw [quoteString_append]
  change ((∃ v, LiteralMode.inside.read? true (closing s.toList rest) = some (v, rest)) ↔ _) ∧
    (LiteralMode.inside.read? true (closing s.toList rest) = some (s.toList, rest) ↔ _)
  constructor
  · rw [exists_congr fun v => (LiteralMode.read?_closing_iff hrest s.toList v).1]
    exact ReadAs.exists_iff false s.toList
  · rw [(LiteralMode.read?_closing_iff hrest s.toList s.toList).1]
    exact (ReadAs.same_iff s.toList).1

/-- A quote, and a backslash that stays. -/
theorem literal_read_iff_discount :
    readLiteral? true
        ((Dialect.mySql.quoteString "it's 5\\% off").toList ++ " OR Column_1".toList) =
      some ("it's 5\\% off".toList, " OR Column_1".toList) := by
  have hplace : BeforeWildcards "it's 5\\% off".toList := by
    simp [beforeWildcards_cons, beforeWildcards_nil]
  exact (literal_read_iff _ (by decide)).2.mpr hplace

/-- A backslash takes the closing quote away, or it takes one half of a doubled quote, and then what
comes behind in the value is no longer part of the literal. -/
theorem literal_breaks :
    readLiteral? true ((Dialect.mySql.quoteString "a\\").toList ++ " OR Column_1".toList) = none ∧
    readLiteral? true ((Dialect.mySql.quoteString "\\' OR 1 = 1 -- ").toList ++ ")".toList) =
      some ("'".toList, " OR 1 = 1 -- ')".toList) := by
  decide

end DataflowSql

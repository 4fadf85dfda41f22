import Mathlib.Data.List.TakeWhile
import DataflowSql.Number.Numeral
import DataflowSql.Proofs.Lexing
import DataflowSql.Sql.Name

/-! Phrases: texts that a reader who stands between tokens takes in whole. Phrases are put together
by fixed texts that begin with no quote, so that no quote of one phrase meets one of the next. -/
namespace DataflowSql

open Nesting

/-- Reading `w` from where `P` holds gets to where `Q` holds, and every lexeme on the way fits. -/
def Takes (d : Dialect) (P : LexMode → Nesting → Prop) (w : String)
    (Q : LexMode → Nesting → Prop) : Prop :=
  ∀ m k, P m k → ∃ k', (m.scan d w.toList).1.foldlM check k = some k' ∧ Q (m.scan d w.toList).2 k'

/-- Between tokens, at this depth. -/
def Ready (n : Nat) (m : LexMode) (k : Nesting) : Prop := m = .outside ∧ k = ⟨n, false⟩

/-- Between tokens or behind a closing quote, at this depth. -/
def Rest (d : Dialect) (n : Nat) (m : LexMode) (k : Nesting) : Prop :=
  k = ⟨n, false⟩ ∧
    (m = .outside ∨ ∃ q w, (q = '\'' ∨ q = d.closingQuote) ∧ m = .closed q w)

/-- A text that can be read at any depth and leaves it as it is. -/
def Phrase (d : Dialect) (w : String) : Prop := ∀ n, Takes d (Ready n) w (Rest d n)

/-- What may follow a phrase. -/
def Trailer (d : Dialect) (w : String) : Prop := ∀ n, Takes d (Rest d n) w (Rest d n)

variable {d : Dialect} {P Q R : LexMode → Nesting → Prop} {u v w : String} {n : Nat}

theorem Takes.append (hu : Takes d P u Q) (hv : Takes d Q v R) : Takes d P (u ++ v) R := by
  intro m k hP
  obtain ⟨k₁, hk₁, hQ⟩ := hu m k hP
  obtain ⟨k₂, hk₂, hR⟩ := hv _ k₁ hQ
  refine ⟨k₂, ?_, ?_⟩
  · rw [String.toList_append, LexMode.scan_append, List.foldlM_append, hk₁]
    exact hk₂
  · rw [String.toList_append, LexMode.scan_append]
    exact hR

theorem rest_of_ready {m : LexMode} {k : Nesting} (h : Ready n m k) : Rest d n m k :=
  ⟨h.2, .inl h.1⟩

theorem Takes.rest {a : Nat} (h : Takes d P w (Ready a)) : Takes d P w (Rest d a) := by
  intro m k hP
  obtain ⟨k', hk', hready⟩ := h m k hP
  exact ⟨k', hk', rest_of_ready hready⟩

theorem takes_empty : Takes d P "" P := by
  intro m k hP
  exact ⟨k, rfl, hP⟩

theorem trailer_empty : Trailer d "" := fun _ => takes_empty

theorem Phrase.trail (hu : Phrase d u) (hv : Trailer d v) : Phrase d (u ++ v) :=
  fun n => (hu n).append (hv n)

/-- A fixed text that leads from depth `a` to depth `b`, from between tokens to between tokens. -/
def fits (d : Dialect) (a : Nat) (w : String) (b : Nat) : Bool :=
  (LexMode.outside.scan d w.toList).2 = .outside &&
    (LexMode.outside.scan d w.toList).1.foldlM check ⟨a, false⟩ = some ⟨b, false⟩

/-- A fixed text that may also stand right behind a token. -/
def links (d : Dialect) (a : Nat) (w : String) (b : Nat) : Bool :=
  fits d a w b && w.toList.head?.any fun c => c ≠ '\'' && c ≠ d.closingQuote

/-- A fixed text that ends a phrase begun `a` deep, or no text. -/
def closes (d : Dialect) (a : Nat) (w : String) : Bool := (a = 0 && w = "") || links d a w 0

theorem takes_of_fits {a b : Nat} (h : fits d a w b = true) (n : Nat) :
    Takes d (Ready (n + a)) w (Ready (n + b)) := by
  rw [fits, Bool.and_eq_true, decide_eq_true_eq, decide_eq_true_eq] at h
  intro m k hready
  obtain ⟨rfl, rfl⟩ := hready
  exact ⟨_, checks_deeper h.2 n, h.1, rfl⟩

/-- Behind a closing quote a character that is not that quote is read as if between tokens. -/
theorem scan_closed {q c : Char} (hc : c ≠ q) (w cs : List Char) :
    (LexMode.closed q w).scan d (c :: cs) =
      (.quoted w :: (LexMode.outside.scan d (c :: cs)).1,
        (LexMode.outside.scan d (c :: cs)).2) := by
  simp only [LexMode.scan, LexMode.step, if_neg hc, List.cons_append]

theorem takes_of_links {a b : Nat} (h : links d a w b = true) (n : Nat) :
    Takes d (Rest d (n + a)) w (Ready (n + b)) := by
  rw [links, Bool.and_eq_true, Option.any_eq_true] at h
  obtain ⟨hfits, c, hc, hquote⟩ := h
  rw [Bool.and_eq_true, decide_eq_true_eq, decide_eq_true_eq] at hquote
  have hready := takes_of_fits hfits n
  intro m k hrest
  obtain ⟨rfl, rfl | ⟨q, content, hq, rfl⟩⟩ := hrest
  · exact hready _ _ ⟨rfl, rfl⟩
  · obtain ⟨cs, hcs⟩ := List.head?_eq_some_iff.mp hc
    have hne : c ≠ q := by
      rcases hq with rfl | rfl
      · exact hquote.1
      · exact hquote.2
    obtain ⟨k', hk', hmode, hk⟩ := hready .outside ⟨n + a, false⟩ ⟨rfl, rfl⟩
    rw [hcs] at hk' hmode
    rw [hcs, scan_closed hne]
    -- the token that ends here changes neither the depth nor what is read after it
    exact ⟨k', hk', hmode, hk⟩

theorem takes_of_closes {a : Nat} (h : closes d a w = true) (n : Nat) :
    Takes d (Rest d (n + a)) w (Rest d n) := by
  rw [closes, Bool.or_eq_true, Bool.and_eq_true, decide_eq_true_eq, decide_eq_true_eq] at h
  rcases h with ⟨rfl, rfl⟩ | h
  · exact takes_empty
  · exact (takes_of_links h n).rest

theorem trailer_of_links (h : links d 0 w 0 = true) (hv : Phrase d v) : Trailer d (w ++ v) :=
  fun n => (takes_of_links h n).append (hv n)

theorem trailer_of_closes (h : closes d 0 w = true) : Trailer d w := takes_of_closes h

theorem Phrase.headed (hv : Phrase d v) (h : fits d 0 w 0 = true) : Phrase d (w ++ v) :=
  fun n => (takes_of_fits h n).append (hv n)

/-- Two phrases with a fixed text between them. -/
theorem Phrase.link (hu : Phrase d u) (h : links d 0 w 0 = true) (hv : Phrase d v) :
    Phrase d (u ++ w ++ v) :=
  fun n => ((hu n).append (takes_of_links h n)).append (hv n)

/-- A phrase between two fixed texts. -/
theorem Phrase.enclose {a : Nat} (hu : fits d 0 u a = true) (hw : Phrase d w)
    (hv : closes d a v = true) : Phrase d (u ++ w ++ v) :=
  fun n => ((takes_of_fits hu n).append (hw (n + a))).append (takes_of_closes hv n)

/-- A phrase that a fixed text opens and another one ends, and a phrase behind it. -/
theorem Phrase.bracket {a : Nat} {x : String} (hu : fits d 0 u a = true) (hw : Phrase d w)
    (hv : links d a v 0 = true) (hx : Phrase d x) : Phrase d (u ++ w ++ v ++ x) :=
  fun n => (((takes_of_fits hu n).append (hw (n + a))).append (takes_of_links hv n)).append (hx n)

theorem phrase_of_fits (h : fits d 0 w 0 = true) : Phrase d w := fun n => (takes_of_fits h n).rest

theorem phrase_intercalate {sep : String} (h : links d 0 sep 0 = true) {ws : List String}
    (hws : ∀ w ∈ ws, Phrase d w) : Phrase d (sep.intercalate ws) := by
  induction ws with
  | nil => exact phrase_of_fits (by cases d <;> rfl)
  | cons w ws ih =>
    cases ws with
    | nil =>
      rw [String.intercalate_singleton]
      exact hws w (by simp)
    | cons w' ws =>
      rw [String.intercalate_cons_cons]
      exact (hws w (by simp)).link h (ih fun x hx => hws x (by simp [hx]))

section Bare

theorem closingOf?_of_isBare {c : Char} (h : isBare c = true) : d.closingOf? c = none := by
  have hquote : c ≠ '\'' ∧ c ≠ d.openingQuote := by
    constructor
    · rintro rfl
      revert h
      decide
    · rintro rfl
      revert h
      cases d <;> decide
  rw [Dialect.closingOf?, if_neg hquote.1, if_neg hquote.2]

theorem scan_bare {cs : List Char} (h : ∀ c ∈ cs, isBare c = true) :
    LexMode.outside.scan d cs = (cs.map .plain, .outside) := by
  induction cs with
  | nil => rfl
  | cons c cs ih =>
    have hc := closingOf?_of_isBare (d := d) (h c (by simp))
    simp only [LexMode.scan, LexMode.step, LexMode.enter, hc, ih fun x hx => h x (by simp [hx])]
    rfl

/-- Text without quotes need only be checked character by character. -/
theorem takes_of_checks {a b : Nat}
    (h : (w.toList.map Lexeme.plain).foldlM check ⟨a, false⟩ = some ⟨b, false⟩) :
    Takes d (Ready a) w (Ready b) := by
  intro m k hready
  obtain ⟨rfl, rfl⟩ := hready
  have hbare : ∀ c ∈ w.toList, isBare c = true := by
    intro c hc
    exact bare_of_checks h c (List.mem_map_of_mem hc)
  rw [scan_bare hbare]
  exact ⟨_, h, rfl, rfl⟩

/-- Characters that never matter to what may come next. -/
def Steady (c : Char) : Prop := isBare c = true ∧ c ≠ '(' ∧ c ≠ ')' ∧ c ≠ '-'

theorem steady_of_isNameChar {c : Char} (h : Sql.isNameChar c = true) : Steady c := by
  refine ⟨?_, ?_, ?_, ?_⟩
  · rw [Sql.isNameChar, Bool.or_eq_true, decide_eq_true_eq] at h
    rcases h with h | rfl
    · rw [isBare, h, Bool.true_or]
    · rfl
  all_goals
    rintro rfl
    revert h
    decide

theorem isNameChar_of_isDigit {c : Char} (h : c.isDigit = true) : Sql.isNameChar c = true := by
  rw [Sql.isNameChar, Char.isAlphanum, h, Bool.or_true, Bool.true_or]

theorem checks_steady {cs : List Char} (h : ∀ c ∈ cs, Steady c) {dash : Bool}
    (hd : cs ≠ [] ∨ dash = false) :
    (cs.map Lexeme.plain).foldlM check ⟨n, dash⟩ = some ⟨n, false⟩ := by
  induction cs generalizing dash with
  | nil =>
    rcases hd with hd | rfl
    · exact absurd rfl hd
    · rfl
  | cons c cs ih =>
    obtain ⟨hbare, hop, hcl, hda⟩ := h c (by simp)
    rw [List.map_cons, List.foldlM_cons, (Checked.other n dash c hbare hop hcl hda).check]
    exact ih (fun x hx => h x (by simp [hx])) (.inr rfl)

/-- Letters, digits and underscores only. -/
def Sql.IsName (w : String) : Prop := ∀ c ∈ w.toList, Sql.isNameChar c = true

instance : DecidablePred Sql.IsName :=
  fun w => decidable_of_iff (w.toList.all Sql.isNameChar = true) List.all_eq_true

theorem takes_name (h : Sql.IsName w) (n : Nat) : Takes d (Ready n) w (Ready n) :=
  takes_of_checks (checks_steady (fun c hc => steady_of_isNameChar (h c hc)) (.inr rfl))

theorem phrase_name (h : Sql.IsName w) : Phrase d w := fun n => (takes_name h n).rest

theorem isName_append (hu : Sql.IsName u) (hv : Sql.IsName v) : Sql.IsName (u ++ v) := by
  intro c hc
  rw [String.toList_append, List.mem_append] at hc
  exact hc.elim (hu c) (hv c)

theorem isName_nodeName (id : String) : Sql.IsName (Sql.nodeName id) := by
  have hsanitize : Sql.IsName (Sql.sanitize id) := by
    intro c hc
    rw [Sql.sanitize, String.toList_ofList, List.mem_map] at hc
    obtain ⟨x, _, rfl⟩ := hc
    by_cases hx : Sql.isNameChar x = true
    · rwa [if_pos hx]
    · rw [if_neg hx]
      rfl
  exact isName_append (by decide) hsanitize

theorem isName_tableRange (id : String) : Sql.IsName (Sql.tableRange id) :=
  isName_append (isName_nodeName id) (by decide)

theorem isName_rightRange (id : String) : Sql.IsName (Sql.rightRange id) :=
  isName_append (isName_nodeName id) (by decide)

theorem isName_pagedName (id : String) : Sql.IsName (Sql.pagedName id) :=
  isName_append (isName_nodeName id) (by decide)

theorem isName_nat (a : Nat) : Sql.IsName (toString a) := by
  intro c hc
  rw [Nat.toString_eq_repr, Nat.toList_repr] at hc
  exact isNameChar_of_isDigit (Nat.isDigit_of_mem_toDigits (by decide) (by decide) hc)

theorem isName_columnName (index : Nat) : Sql.IsName (Sql.columnName index) :=
  isName_append (by decide) (isName_nat index)

end Bare

section Numbers

open Number

/-- A sign may stand before what would also be accepted behind a dash. -/
theorem checks_signed {cs : List Char}
    (h : ∀ dash, ((dropSign cs).map Lexeme.plain).foldlM check ⟨n, dash⟩ = some ⟨n, false⟩) :
    (cs.map Lexeme.plain).foldlM check ⟨n, false⟩ = some ⟨n, false⟩ := by
  unfold dropSign at h
  split at h
  · exact h false
  · exact h true
  · exact h false

theorem checks_int (a : Int) :
    ((toString a).toList.map Lexeme.plain).foldlM check ⟨n, false⟩ = some ⟨n, false⟩ := by
  have hdigits (b : Nat) : ∀ c ∈ (toString b).toList, Steady c :=
    fun c hc => steady_of_isNameChar (isName_nat b c hc)
  cases a with
  | ofNat b => exact checks_steady (hdigits b) (.inr rfl)
  | negSucc b =>
    have hne : (toString (b + 1)).toList ≠ [] := by
      rw [Nat.toString_eq_repr, Nat.toList_repr]
      exact Nat.toDigits_ne_nil
    change ((("-" ++ toString (b + 1)).toList).map Lexeme.plain).foldlM check _ = _
    rw [String.toList_append]
    exact checks_steady (hdigits (b + 1)) (.inl hne)

theorem phrase_int (a : Int) : Phrase d (toString a) :=
  fun _ => (takes_of_checks (checks_int a)).rest

theorem steady_of_isDigit {c : Char} (h : c.isDigit = true) : Steady c :=
  steady_of_isNameChar (isNameChar_of_isDigit h)

theorem digits_of_signed? {cs : List Char} {e : Int} (h : signed? cs = some e) :
    dropSign cs ≠ [] ∧ ∀ c ∈ dropSign cs, Steady c := by
  have hsome : (digits? (dropSign cs)).isSome = true := by
    cases hdigits : digits? (dropSign cs) with
    | none => simp [signed?, hdigits] at h
    | some value => rfl
  unfold digits? at hsome
  split_ifs at hsome with hdigits
  · cases hsome
  · rw [Bool.not_eq_true, Bool.or_eq_false_iff, List.isEmpty_eq_false_iff,
      Bool.not_eq_false', List.all_eq_true] at hdigits
    exact ⟨hdigits.1, fun c hc => steady_of_isDigit (hdigits.2 c hc)⟩

theorem checks_exponent {cs : List Char} {e : Int} (h : exponent? cs = some e) :
    (cs.map Lexeme.plain).foldlM check ⟨n, false⟩ = some ⟨n, false⟩ := by
  cases cs with
  | nil => rfl
  | cons c cs =>
    simp only [exponent?] at h
    split_ifs at h with hc
    obtain ⟨hne, hsteady⟩ := digits_of_signed? h
    have hmark : check ⟨n, false⟩ (.plain c) = some ⟨n, false⟩ := by
      rcases hc with rfl | rfl <;> rfl
    rw [List.map_cons, List.foldlM_cons, hmark]
    exact checks_signed fun dash => checks_steady hsteady (.inl hne)

/-- The text in front of an exponent: the whole part, and a point with the fraction. -/
theorem fraction_split (cs : List Char) : ∃ mantissa,
    cs = mantissa ++ (fractionAndRest cs).2 ∧ (∀ c ∈ mantissa, Steady c) ∧
      ((fractionAndRest cs).1 ≠ [] → mantissa ≠ []) := by
  unfold fractionAndRest
  split
  · next cs =>
    refine ⟨'.' :: cs.takeWhile Char.isDigit, by simp, ?_, by simp⟩
    intro c hc
    rcases List.mem_cons.mp hc with rfl | hc
    · exact ⟨rfl, by decide, by decide, by decide⟩
    · exact steady_of_isDigit (List.mem_takeWhile_imp hc)
  · exact ⟨[], by simp, by simp, by simp⟩

/-- A number literal holds no quote, and no dash but in front of a digit or a point. -/
theorem checks_number {cs : List Char} (h : isNumber cs = true) :
    (cs.map Lexeme.plain).foldlM check ⟨n, false⟩ = some ⟨n, false⟩ := by
  rw [isNumber, Option.any_eq_true] at h
  obtain ⟨s, hs, _⟩ := h
  apply checks_signed
  intro dash
  unfold scaled? at hs
  generalize dropSign cs = body at hs ⊢
  obtain ⟨mantissa, hsplit, hmantissa, hfraction⟩ := fraction_split (body.dropWhile Char.isDigit)
  have hbody : body = (body.takeWhile Char.isDigit ++ mantissa) ++
      (fractionAndRest (body.dropWhile Char.isDigit)).2 := by
    rw [List.append_assoc, ← hsplit, List.takeWhile_append_dropWhile]
  have hsteady : ∀ c ∈ body.takeWhile Char.isDigit ++ mantissa, Steady c := by
    intro c hc
    rcases List.mem_append.mp hc with hc | hc
    · exact steady_of_isDigit (List.mem_takeWhile_imp hc)
    · exact hmantissa c hc
  simp only at hs
  split_ifs at hs with hempty
  obtain ⟨e, he, _⟩ := Option.map_eq_some_iff.mp hs
  have hne : body.takeWhile Char.isDigit ++ mantissa ≠ [] := by
    intro hnil
    obtain ⟨hwhole, hmant⟩ := List.append_eq_nil_iff.mp hnil
    apply hempty
    rw [Bool.and_eq_true, List.isEmpty_iff, List.isEmpty_iff]
    exact ⟨hwhole, not_imp_comm.mp hfraction (by simp [hmant])⟩
  rw [hbody, List.map_append, List.foldlM_append, checks_steady hsteady (.inl hne)]
  exact checks_exponent he

theorem phrase_numeral (a : Numeral) : Phrase d a.text :=
  fun _ => (takes_of_checks (checks_number a.isNumber_text)).rest

end Numbers

section Quoted

theorem scan_doubling (q : Char) (v w : List Char) :
    (LexMode.inside q w).scan d (doubling q v) = ([], .inside q (w ++ v)) := by
  induction v generalizing w with
  | nil => simp [doubling, LexMode.scan]
  | cons c v ih =>
    rw [doubling, List.flatMap_cons, ← doubling]
    by_cases hc : c = q
    · subst hc
      simp [LexMode.scan, LexMode.step, ih]
    · simp [LexMode.scan, LexMode.step, hc, ih]

/-- Whatever the text inside, the token ends with its last quote. -/
theorem takes_quoted {o q : Char} (hq : d.closingOf? o = some q)
    (hquote : q = '\'' ∨ q = d.closingQuote) (v : List Char) (n : Nat) :
    Takes d (Ready n) (String.ofList (o :: (doubling q v ++ [q]))) (Rest d n) := by
  intro m k hready
  obtain ⟨rfl, rfl⟩ := hready
  have hscan : LexMode.outside.scan d (o :: (doubling q v ++ [q])) = ([], .closed q v) := by
    rw [LexMode.scan, LexMode.step, LexMode.enter, hq]
    simp [LexMode.scan_append, scan_doubling, LexMode.scan, LexMode.step]
  rw [String.toList_ofList, hscan]
  exact ⟨_, rfl, rfl, .inr ⟨q, v, hquote, rfl⟩⟩

theorem takes_string (v : List Char) (n : Nat) :
    Takes d (Ready n) (String.ofList (Dialect.stringChars v)) (Rest d n) :=
  takes_quoted rfl (.inl rfl) v n

theorem doubling_of_not_mem {q : Char} {v : List Char} (h : q ∉ v) : doubling q v = v := by
  induction v with
  | nil => rfl
  | cons c v ih =>
    rw [List.mem_cons, not_or] at h
    rw [doubling, List.flatMap_cons, ← doubling, ih h.2, if_neg (Ne.symm h.1)]
    rfl

theorem stringChars_eq (h : '\'' ∉ w.toList) :
    String.ofList (Dialect.stringChars w.toList) = "'" ++ w ++ "'" := by
  rw [← String.toList_inj, Dialect.stringChars, doubling_of_not_mem h]
  simp

theorem phrase_quoteString (v : String) : Phrase d (d.quoteString v) := by
  have hmark : fits d 0 d.stringMark 0 = true := by
    cases d <;> decide
  exact Phrase.headed (takes_string v.toList) hmark

theorem phrase_quoteIdentifier (v : String) : Phrase d (d.quoteIdentifier v) := by
  have hclosing : d.closingOf? d.openingQuote = some d.closingQuote := by
    cases d <;> rfl
  exact takes_quoted hclosing (.inr rfl) v.toList

theorem phrase_quotePath (parts : List String) : Phrase d (d.quotePath parts) := by
  apply phrase_intercalate
  · cases d <;> decide
  · intro w hw
    obtain ⟨v, _, rfl⟩ := List.mem_map.mp hw
    exact phrase_quoteIdentifier v

end Quoted

end DataflowSql

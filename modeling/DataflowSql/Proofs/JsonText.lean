import DataflowSql.Json.Reader
import DataflowSql.Proofs.Fields

/-! Compact texts are read as what they were written from, with the fields of every object sorted.
Only strings, arrays and objects are looked at: that is all that catalogs are made of. -/
namespace DataflowSql.Json

section Steps

variable {ε α β : Type}

/-- A reader that goes through hands on what it has read. -/
theorem ok_bind (x : α) (next : α → Except ε β) : (Except.ok x >>= next) = next x := rfl

theorem pure_eq (x : α) : (pure x : Except ε α) = .ok x := rfl

end Steps

theorem hexValue?_hexDigit : ∀ n < 16, hexValue? (hexDigit n) = some n := by decide

/-- Two zeros and the two digits of a number below 256. -/
theorem hexUnit_low {n : Nat} (h : n < 256) (cs : List Char) :
    hexUnit ('0' :: '0' :: hexDigit (n / 16) :: hexDigit (n % 16) :: cs) = .ok (n, cs) := by
  have hzero : hexValue? '0' = some 0 := by decide
  have hhigh := hexValue?_hexDigit (n / 16) (by omega)
  have hlow := hexValue?_hexDigit (n % 16) (by omega)
  have hsum : n / 16 * 16 + n % 16 = n := by omega
  simp [hexUnit, hzero, hhigh, hlow, hsum]

/-- A control character is read from its escape. -/
theorem escape_control {c : Char} (h : c.toNat < 0x20) (cs : List Char) :
    escape ('u' :: '0' :: '0' :: hexDigit (c.toNat / 16) :: hexDigit (c.toNat % 16) :: cs) =
      .ok (c, cs) := by
  have hunit := hexUnit_low (n := c.toNat) (by omega) cs
  have htrail : isTrailSurrogate c.toNat = false := by simp [isTrailSurrogate]; omega
  have hlead : isLeadSurrogate c.toNat = false := by simp [isLeadSurrogate]; omega
  simp [escape, unicodeEscape, hunit, htrail, hlead, ok_bind, pure_eq]

/-- A character is written as it is, or behind a backslash so that its escape is read as it. -/
theorem escapeChar_cases (c : Char) :
    (escapeChar c = [c] ∧ c ≠ '"' ∧ c ≠ '\\' ∧ ¬ c.toNat < 0x20) ∨
      ∃ w, escapeChar c = '\\' :: w ∧ ∀ cs, escape (w ++ cs) = .ok (c, cs) := by
  unfold escapeChar
  split_ifs with hquote hslash hb hf hn hr ht hcontrol
  · exact .inr ⟨_, rfl, fun cs => by subst hquote; rfl⟩
  · exact .inr ⟨_, rfl, fun cs => by subst hslash; rfl⟩
  · exact .inr ⟨_, rfl, fun cs => hb ▸ rfl⟩
  · exact .inr ⟨_, rfl, fun cs => hf ▸ rfl⟩
  · exact .inr ⟨_, rfl, fun cs => hn ▸ rfl⟩
  · exact .inr ⟨_, rfl, fun cs => hr ▸ rfl⟩
  · exact .inr ⟨_, rfl, fun cs => ht ▸ rfl⟩
  · exact .inr ⟨_, rfl, escape_control hcontrol⟩
  · exact .inl ⟨rfl, hquote, hslash, hcontrol⟩

theorem stringChars_escapeChar (c : Char) {fuel : Nat} {cs ds rest : List Char}
    (h : stringChars fuel cs = .ok (ds, rest)) :
    stringChars (fuel + 1) (escapeChar c ++ cs) = .ok (c :: ds, rest) := by
  rcases escapeChar_cases c with ⟨hplain, hquote, hslash, hcontrol⟩ | ⟨w, hw, hread⟩
  · rw [hplain, List.singleton_append, stringChars, if_neg hquote, if_neg hslash, if_neg hcontrol,
      h]
    simp only [ok_bind, pure_eq]
  · rw [hw, List.cons_append, stringChars, if_neg (by decide), if_pos rfl, hread, ok_bind]
    simp only [h, ok_bind, pure_eq]

theorem stringChars_escaped (s rest : List Char) {fuel : Nat} (hfuel : s.length < fuel) :
    stringChars fuel (s.flatMap escapeChar ++ '"' :: rest) = .ok (s, rest) := by
  induction s generalizing fuel with
  | nil =>
    obtain ⟨fuel, rfl⟩ := Nat.exists_eq_add_one_of_ne_zero (Nat.ne_of_gt hfuel)
    rfl
  | cons c s ih =>
    obtain ⟨fuel, rfl⟩ := Nat.exists_eq_add_one_of_ne_zero (Nat.ne_of_gt (Nat.zero_lt_of_lt hfuel))
    rw [List.flatMap_cons, List.append_assoc]
    exact stringChars_escapeChar c (ih (by simpa using hfuel))

theorem length_le_flatMap_escapeChar (s : List Char) :
    s.length ≤ (s.flatMap escapeChar).length := by
  induction s with
  | nil => simp
  | cons c s ih =>
    have hc : 0 < (escapeChar c).length := by
      rcases escapeChar_cases c with ⟨hplain, _⟩ | ⟨w, hw, _⟩
      · simp [hplain]
      · simp [hw]
    rw [List.flatMap_cons, List.length_append, List.length_cons]
    omega

/-- Any text between its quotes is read as that text. -/
theorem stringBody_quoted (s : String) (rest : List Char) :
    stringBody (s.toList.flatMap escapeChar ++ '"' :: rest) = .ok (s, rest) := by
  have hfuel := length_le_flatMap_escapeChar s.toList
  have hlength : s.toList.length < (s.toList.flatMap escapeChar ++ '"' :: rest).length + 1 := by
    rw [List.length_append]
    omega
  rw [stringBody, stringChars_escaped _ _ hlength]
  simp only [ok_bind, pure_eq, String.ofList_toList]

theorem toList_quoted (s : String) :
    (quoted s).toList = '"' :: (s.toList.flatMap escapeChar ++ ['"']) := by
  simp [quoted]

/-- The text is read as the value, whatever follows, if as many brackets may be opened. Between two
characters there are at most two calls. -/
structure Reads (brackets : Nat) (w : List Char) (x : Json) : Prop where
  first : ∃ c cs, w = c :: cs ∧ isSpace c = false ∧ c ≠ ']'
  read : ∀ fuel depth rest, 2 * w.length ≤ fuel → brackets ≤ depth →
    value fuel depth (w ++ rest) = .ok (x, rest)

theorem skipSpace_cons {c : Char} (h : isSpace c = false) (cs : List Char) :
    skipSpace (c :: cs) = c :: cs := by
  simp [skipSpace, h]

theorem reads_string (n : Nat) (s : String) : Reads n (quoted s).toList (.string s) := by
  rw [toList_quoted]
  refine ⟨⟨'"', _, rfl, by decide, by decide⟩, fun fuel depth rest hfuel _ => ?_⟩
  have hpos : fuel ≠ 0 := by
    simp at hfuel
    omega
  obtain ⟨fuel, rfl⟩ := Nat.exists_eq_add_one_of_ne_zero hpos
  rw [List.cons_append, value, skipSpace_cons (by decide), List.append_assoc, List.singleton_append]
  simp [stringBody_quoted, ok_bind, pure_eq]

section Arrays

variable {n fuel depth : Nat} {rest : List Char}

theorem Reads.ne_bracket {w : List Char} {x : Json} (h : Reads n w x) (rest : List Char) :
    ∃ c cs, w ++ rest = c :: cs ∧ skipSpace (w ++ rest) = c :: cs ∧ c ≠ ']' := by
  obtain ⟨c, cs, rfl, hspace, hc⟩ := h.first
  exact ⟨c, cs ++ rest, rfl, skipSpace_cons hspace _, hc⟩

theorem Reads.length_pos {w : List Char} {x : Json} (h : Reads n w x) : 0 < w.length := by
  obtain ⟨c, cs, rfl, _⟩ := h.first
  simp

theorem items_close (isFirst : Bool) :
    items (fuel + 1) depth isFirst (']' :: rest) = .ok ([], rest) := by
  rw [items, skipSpace_cons (by decide)]
  rfl

/-- An item, with the items behind it. -/
theorem item_cons {w u : List Char} {x : Json} {xs : List Json} (hw : Reads n w x)
    (hdepth : n ≤ depth) (hfuel : 2 * w.length ≤ fuel)
    (hrest : items fuel depth false u = .ok (xs, rest)) :
    item (fuel + 1) depth (w ++ u) = .ok (x :: xs, rest) := by
  rw [item, hw.read fuel depth u hfuel hdepth]
  simp [hrest, ok_bind, pure_eq]

/-- Items behind the first one, each after a comma. -/
theorem items_after {ws : List (List Char)} {xs : List Json} (h : List.Forall₂ (Reads n) ws xs)
    (hdepth : n ≤ depth) (hfuel : 2 * (ws.flatMap (',' :: ·)).length + 1 ≤ fuel) :
    items fuel depth false (ws.flatMap (',' :: ·) ++ ']' :: rest) = .ok (xs, rest) := by
  induction h generalizing fuel with
  | nil =>
    obtain ⟨fuel, rfl⟩ : ∃ k, fuel = k + 1 := Nat.exists_eq_add_one_of_ne_zero (by omega)
    exact items_close _
  | @cons w x ws xs hw _ ih =>
    simp only [List.flatMap_cons, List.length_append, List.length_cons] at hfuel
    obtain ⟨fuel, rfl⟩ : ∃ k, fuel = k + 2 := ⟨fuel - 2, by omega⟩
    obtain ⟨c, cs, -, hskip, hc⟩ := hw.ne_bracket (ws.flatMap (',' :: ·) ++ ']' :: rest)
    rw [List.flatMap_cons, List.append_assoc, List.cons_append, items, skipSpace_cons (by decide)]
    simp only [hskip, List.head?_cons, Option.some.injEq, hc, Char.reduceEq, if_false, if_true,
      Bool.false_eq_true]
    exact item_cons hw hdepth (by omega) (ih (by omega))

theorem intercalate_cons_flatMap (w : List Char) (ws : List (List Char)) :
    [','].intercalate (w :: ws) = w ++ ws.flatMap (',' :: ·) := by
  induction ws generalizing w with
  | nil => simp
  | cons v ws ih => rw [List.intercalate_cons_cons, ih, List.flatMap_cons]; simp

theorem reads_array {ws : List (List Char)} {xs : List Json} (h : List.Forall₂ (Reads n) ws xs) :
    Reads (n + 1) ('[' :: ([','].intercalate ws ++ [']'])) (.array xs) := by
  refine ⟨⟨'[', _, rfl, by decide, by decide⟩, fun fuel depth rest hfuel hdepth => ?_⟩
  simp only [List.length_cons, List.length_append, List.length_nil] at hfuel
  obtain ⟨fuel, rfl⟩ : ∃ k, fuel = k + 3 := ⟨fuel - 3, by omega⟩
  obtain ⟨depth, rfl⟩ : ∃ k, depth = k + 1 := ⟨depth - 1, by omega⟩
  have hitems : items (fuel + 2) depth true ([','].intercalate ws ++ ']' :: rest) =
      .ok (xs, rest) := by
    cases h with
    | nil => exact items_close _
    | @cons w x ws xs hw hws =>
      rw [intercalate_cons_flatMap, List.length_append] at hfuel
      have hpos := hw.length_pos
      rw [intercalate_cons_flatMap, List.append_assoc]
      obtain ⟨c, cs, hsplit, hskip, hc⟩ := hw.ne_bracket (ws.flatMap (',' :: ·) ++ ']' :: rest)
      rw [items, hskip]
      simp only [hc, if_false, if_true]
      rw [← hsplit]
      exact item_cons hw (by omega) (by omega) (items_after hws (by omega) (by omega))
  rw [List.cons_append, value, skipSpace_cons (by decide), List.append_assoc, List.singleton_append]
  simp [hitems, ok_bind, pure_eq]

end Arrays

section Objects

variable {n fuel depth : Nat} {rest : List Char}

/-- A field as it is written: its name, a colon and the text of its value. -/
def fieldText (f : String × List Char) : List Char := (quoted f.1).toList ++ ':' :: f.2

theorem fields_close (isFirst : Bool) :
    fields (fuel + 1) depth isFirst ('\x7d' :: rest) = .ok ([], rest) := by
  rw [fields, skipSpace_cons (by decide)]
  rfl

/-- A field, with the fields behind it. -/
theorem field_cons {t : String × List Char} {f : String × Json} {u : List Char}
    {fs : List (String × Json)} (ht : FieldRel (Reads n) t f) (hdepth : n ≤ depth)
    (hfuel : 2 * t.2.length ≤ fuel) (hrest : fields fuel depth false u = .ok (fs, rest)) :
    field (fuel + 1) depth (fieldText t ++ u) = .ok (f :: fs, rest) := by
  obtain ⟨name, w⟩ := t
  obtain ⟨name', x⟩ := f
  obtain ⟨rfl, hw⟩ : name = name' ∧ Reads n w x := ht
  have htext : fieldText (name, w) ++ u =
      '"' :: (name.toList.flatMap escapeChar ++ '"' :: ':' :: (w ++ u)) := by
    simp [fieldText, toList_quoted]
  have hcolon : colon (':' :: (w ++ u)) = .ok (w ++ u) := rfl
  rw [htext, field, skipSpace_cons (by decide)]
  simp [stringBody_quoted, hcolon, hw.read fuel depth u hfuel hdepth, hrest, ok_bind,
    pure_eq]

/-- Fields behind the first one, each after a comma. -/
theorem fields_after {ts : List (String × List Char)} {fs : List (String × Json)}
    (h : List.Forall₂ (FieldRel (Reads n)) ts fs) (hdepth : n ≤ depth)
    (hfuel : 2 * ((ts.map fieldText).flatMap (',' :: ·)).length + 1 ≤ fuel) :
    fields fuel depth false ((ts.map fieldText).flatMap (',' :: ·) ++ '\x7d' :: rest) =
      .ok (fs, rest) := by
  induction h generalizing fuel with
  | nil =>
    obtain ⟨fuel, rfl⟩ : ∃ k, fuel = k + 1 := Nat.exists_eq_add_one_of_ne_zero (by omega)
    exact fields_close _
  | @cons t f ts fs ht _ ih =>
    have htext : t.2.length ≤ (fieldText t).length := by simp [fieldText]; omega
    simp only [List.map_cons, List.flatMap_cons, List.length_append, List.length_cons] at hfuel
    obtain ⟨fuel, rfl⟩ : ∃ k, fuel = k + 2 := ⟨fuel - 2, by omega⟩
    rw [List.map_cons, List.flatMap_cons, List.append_assoc, List.cons_append, fields,
      skipSpace_cons (by decide)]
    simp only [Char.reduceEq, if_false, if_true, Bool.false_eq_true]
    exact field_cons ht hdepth (by omega) (ih (by omega))

theorem reads_object {ts : List (String × List Char)} {fs : List (String × Json)}
    (h : List.Forall₂ (FieldRel (Reads n)) ts fs) :
    Reads (n + 1) ('\x7b' :: ([','].intercalate (ts.map fieldText) ++ ['\x7d'])) (.object fs) := by
  refine ⟨⟨'\x7b', _, rfl, by decide, by decide⟩, fun fuel depth rest hfuel hdepth => ?_⟩
  simp only [List.length_cons, List.length_append, List.length_nil] at hfuel
  obtain ⟨fuel, rfl⟩ : ∃ k, fuel = k + 3 := ⟨fuel - 3, by omega⟩
  obtain ⟨depth, rfl⟩ : ∃ k, depth = k + 1 := ⟨depth - 1, by omega⟩
  have hfields : fields (fuel + 2) depth true
      ([','].intercalate (ts.map fieldText) ++ '\x7d' :: rest) = .ok (fs, rest) := by
    cases h with
    | nil => exact fields_close _
    | @cons t f ts fs ht hts =>
      have hquote : ∃ cs, fieldText t = '"' :: cs := ⟨_, by rw [fieldText, toList_quoted]; rfl⟩
      have htext : t.2.length + 1 ≤ (fieldText t).length := by simp [fieldText]
      rw [List.map_cons, intercalate_cons_flatMap, List.length_append] at hfuel
      rw [List.map_cons, intercalate_cons_flatMap, List.append_assoc]
      obtain ⟨cs, hcs⟩ := hquote
      rw [fields, hcs, List.cons_append, skipSpace_cons (by decide)]
      simp only [Char.reduceEq, if_false, if_true]
      rw [← List.cons_append, ← hcs]
      exact field_cons ht (by omega) (by omega) (fields_after hts (by omega) (by omega))
  rw [List.cons_append, value, skipSpace_cons (by decide), List.append_assoc, List.singleton_append]
  simp [hfields, ok_bind, pure_eq]

end Objects

/-- The compact text of an array is read item by item. -/
theorem reads_compact_array {n : Nat} {xs ys : List Json}
    (h : List.Forall₂ (fun x y => Reads n x.compact.toList y) xs ys) :
    Reads (n + 1) (compact (.array xs)).toList (.array ys) := by
  have htext : (compact (.array xs)).toList =
      '[' :: ([','].intercalate (xs.map fun x => x.compact.toList) ++ [']']) := by
    simp [compact, compactItems_eq, String.toList_intercalate, Function.comp_def]
  rw [htext]
  exact reads_array (List.forall₂_map_left_iff.mpr h)

/-- The compact text of an object is read as the object with its fields sorted. -/
theorem reads_compact_object {n : Nat} {fs gs : List (String × Json)}
    (h : List.Forall₂ (FieldRel fun x y => Reads n x.compact.toList y) fs gs) :
    Reads (n + 1) (compact (.object fs)).toList (.object (sortedFields gs)) := by
  have htext : (compact (.object fs)).toList = '\x7b' :: ([','].intercalate
      (((sortedFields (compactFields fs)).map fun f => (f.1, f.2.toList)).map fieldText) ++
        ['\x7d']) := by
    simp [compact, String.toList_intercalate, Function.comp_def, fieldText]
  rw [htext]
  refine reads_object (List.forall₂_map_left_iff.mpr ?_)
  have hcompact : List.Forall₂ (FieldRel fun w y => Reads n w.toList y) (compactFields fs) gs := by
    rw [compactFields_eq]
    exact List.forall₂_map_left_iff.mpr h
  exact sortedFields_rel hcompact

/-- A text that may stand before anything may also be all there is. -/
theorem readValue_of_reads {n depth : Nat} {w : String} {x : Json} (h : Reads n w.toList x)
    (hdepth : n ≤ depth) : readValue depth w = .ok (x, []) := by
  have hread := h.read (3 * w.toList.length + 3) depth [] (by omega) hdepth
  rwa [List.append_nil] at hread

end DataflowSql.Json

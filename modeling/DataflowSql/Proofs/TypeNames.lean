import Mathlib.Data.List.Flatten
import Mathlib.Logic.Relation
import DataflowSql.Dialect.TypeName
import DataflowSql.Proofs.LowerCase

/-! The normal form of a type name. It is reached in one pass, and it is the same for every spelling
of a type: with parameters or without, with modifiers in front or behind, in any letter case. So a
type has one class in each dialect, however it is spelled. -/
namespace DataflowSql

namespace Text

variable {c : Char} {w cs rest gap : List Char} {ws : List (List Char)}

/-- A run without blanks. -/
def IsWord (w : List Char) : Prop := w ≠ [] ∧ ∀ c ∈ w, isBlank c = false

/-- What separates words. -/
def IsGap (gap : List Char) : Prop := gap ≠ [] ∧ gap.all isBlank = true

instance (gap : List Char) : Decidable (IsGap gap) := inferInstanceAs (Decidable (_ ∧ _))

theorem IsGap.notMem (h : IsGap gap) (hc : isBlank c = false) : c ∉ gap := by
  intro hmem
  rw [List.all_eq_true.mp h.2 c hmem] at hc
  exact absurd hc (by decide)

theorem words_blank (hc : isBlank c = true) (cs : List Char) : words (c :: cs) = words cs := by
  simp [words, hc]

theorem words_last (hc : isBlank c = false) : words [c] = [[c]] := by
  simp [words, hc]

theorem words_before_blank {d : Char} (hc : isBlank c = false) (hd : isBlank d = true)
    (cs : List Char) : words (c :: d :: cs) = [c] :: words (d :: cs) := by
  rw [words]
  simp [hc, hd]

/-- A character in front of a word belongs to it. -/
theorem words_extend {d : Char} (hc : isBlank c = false) (hd : isBlank d = false)
    (hws : words (d :: cs) = w :: ws) : words (c :: d :: cs) = (c :: w) :: ws := by
  rw [words]
  simp [hc, hd, hws]

/-- A character is a word of its own or the first of the next word. -/
theorem words_cons (hc : isBlank c = false) (cs : List Char) :
    ∃ w ws, words (c :: cs) = (c :: w) :: ws ∧
      (words cs = w :: ws ∨ w = [] ∧ words cs = ws) := by
  induction cs generalizing c with
  | nil => exact ⟨[], [], words_last hc, .inr ⟨rfl, rfl⟩⟩
  | cons d cs ih =>
    cases hd : isBlank d with
    | true => exact ⟨[], words (d :: cs), words_before_blank hc hd cs, .inr ⟨rfl, rfl⟩⟩
    | false =>
      obtain ⟨w, ws, hws, _⟩ := ih hd
      exact ⟨d :: w, ws, words_extend hc hd hws, .inl hws⟩

/-- A blank separates, so both sides have their own words. -/
theorem words_append (hc : isBlank c = true) (cs rest : List Char) :
    words (cs ++ c :: rest) = words cs ++ words rest := by
  induction cs with
  | nil => exact words_blank hc rest
  | cons x cs ih =>
    cases hx : isBlank x with
    | true => rw [List.cons_append, words_blank hx, words_blank hx, ih]
    | false =>
      cases cs with
      | nil =>
        rw [List.cons_append, List.nil_append, words_before_blank hx hc, words_blank hc,
          words_last hx, List.singleton_append]
      | cons d cs =>
        rw [List.cons_append] at ih
        rw [List.cons_append, List.cons_append]
        cases hd : isBlank d with
        | true =>
          rw [words_before_blank hx hd, words_before_blank hx hd, ih, List.cons_append]
        | false =>
          obtain ⟨w, ws, hws, _⟩ := words_cons hd cs
          rw [hws, List.cons_append] at ih
          rw [words_extend hx hd ih, words_extend hx hd hws, List.cons_append]

theorem words_blanks (h : ∀ c ∈ gap, isBlank c = true) (rest : List Char) :
    words (gap ++ rest) = words rest := by
  induction gap with
  | nil => rfl
  | cons g gap ih =>
    simp only [List.forall_mem_cons] at h
    rw [List.cons_append, words_blank h.1, ih h.2]

theorem words_append_gap (h : IsGap gap) (cs rest : List Char) :
    words (cs ++ gap ++ rest) = words cs ++ words rest := by
  obtain ⟨hne, hblank⟩ := h
  obtain ⟨g, gap, rfl⟩ := List.exists_cons_of_ne_nil hne
  simp only [List.all_eq_true, List.forall_mem_cons] at hblank
  rw [List.append_assoc, List.cons_append, words_append hblank.1, words_blanks hblank.2]

theorem words_of_isWord (h : IsWord w) : words w = [w] := by
  obtain ⟨hne, hblank⟩ := h
  induction w with
  | nil => exact absurd rfl hne
  | cons c w ih =>
    simp only [List.forall_mem_cons] at hblank
    cases w with
    | nil => exact words_last hblank.1
    | cons d w =>
      exact words_extend hblank.1 (hblank.2 d List.mem_cons_self)
        (ih (List.cons_ne_nil d w) hblank.2)

theorem isWord_of_mem_words (h : w ∈ words cs) : IsWord w := by
  induction cs generalizing w with
  | nil => simp [words] at h
  | cons c cs ih =>
    cases hc : isBlank c with
    | true =>
      rw [words_blank hc] at h
      exact ih h
    | false =>
      obtain ⟨v, ws, hws, htail⟩ := words_cons hc cs
      rw [hws, List.mem_cons] at h
      have hv : ∀ c ∈ v, isBlank c = false := by
        rcases htail with htail | ⟨rfl, _⟩
        · exact (ih (htail ▸ List.mem_cons_self)).2
        · simp
      rcases h with rfl | h
      · exact ⟨List.cons_ne_nil c v, by simpa [hc] using hv⟩
      · rcases htail with htail | ⟨_, htail⟩
        · exact ih (htail ▸ List.mem_cons_of_mem v h)
        · exact ih (htail ▸ h)

/-- The words hold all that is not blank, in its order. -/
theorem flatten_words (cs : List Char) :
    (words cs).flatten = cs.filter fun c => !isBlank c := by
  induction cs with
  | nil => rfl
  | cons c cs ih =>
    cases hc : isBlank c with
    | true => rw [words_blank hc, ih, List.filter_cons_of_neg (by simp [hc])]
    | false =>
      obtain ⟨w, ws, hws, htail⟩ := words_cons hc cs
      rw [hws, List.filter_cons_of_pos (by simp [hc]), ← ih]
      rcases htail with htail | ⟨rfl, htail⟩
      · rw [htail, List.flatten_cons, List.flatten_cons, List.cons_append]
      · rw [htail, List.flatten_cons, List.singleton_append]

theorem words_intercalate (h : ∀ w ∈ ws, IsWord w) : words ([' '].intercalate ws) = ws := by
  induction ws with
  | nil => rfl
  | cons w ws ih =>
    simp only [List.forall_mem_cons] at h
    cases ws with
    | nil => rw [List.intercalate_singleton, words_of_isWord h.1]
    | cons w' ws =>
      rw [List.intercalate_cons_cons, List.append_assoc, List.singleton_append,
        words_append (by decide), words_of_isWord h.1, ih h.2, List.singleton_append]

/-- Between words that are put together only blanks are added. -/
theorem sublist_flatten_of_intercalate (h : cs.Sublist ([' '].intercalate ws)) (hcs : ' ' ∉ cs) :
    cs.Sublist ws.flatten := by
  have hfilter : ([' '].intercalate ws).filter (· ≠ ' ') = ws.flatten.filter (· ≠ ' ') := by
    clear h
    induction ws with
    | nil => rfl
    | cons w ws ih =>
      cases ws with
      | nil => simp
      | cons w' ws =>
        rw [List.intercalate_cons_cons, List.filter_append, List.filter_append, ih,
          List.flatten_cons, List.filter_append]
        simp
  have hkept : cs.filter (· ≠ ' ') = cs := by
    rw [List.filter_eq_self]
    intro c hc
    have hne : c ≠ ' ' := fun heq => hcs (heq ▸ hc)
    simpa using hne
  have hsub := h.filter (· ≠ ' ')
  rw [hkept, hfilter] at hsub
  exact hsub.trans List.filter_sublist

theorem lowerChars_blanks (h : ∀ c ∈ gap, isBlank c = true) (rest : List Char) :
    lowerChars (gap ++ rest) = gap ++ lowerChars rest := by
  induction gap with
  | nil => rfl
  | cons g gap ih =>
    simp only [List.forall_mem_cons] at h
    have hg := lowerChars_append (isBoundary_of_isBlank h.1) [] (gap ++ rest)
    rw [ih h.2] at hg
    exact hg

theorem lowerChars_append_gap (h : IsGap gap) (cs rest : List Char) :
    lowerChars (cs ++ gap ++ rest) = lowerChars cs ++ gap ++ lowerChars rest := by
  obtain ⟨hne, hblank⟩ := h
  obtain ⟨g, gap, rfl⟩ := List.exists_cons_of_ne_nil hne
  simp only [List.all_eq_true, List.forall_mem_cons] at hblank
  rw [List.append_assoc, List.cons_append, lowerChars_append (isBoundary_of_isBlank hblank.1),
    lowerChars_blanks hblank.2, List.append_assoc, List.cons_append]

end Text

namespace TypeName

open Text

variable {c : Char} {cs rest p gap : List Char} {inside : Bool}

/-! ## Parameters -/

theorem dropParameters_closing (cs : List Char) :
    dropParameters true (')' :: cs) = ' ' :: dropParameters false cs := by
  simp [dropParameters]

theorem dropParameters_skip (h : c ≠ ')') (cs : List Char) :
    dropParameters true (c :: cs) = dropParameters true cs := by
  simp [dropParameters, h]

theorem dropParameters_opening (h : ')' ∈ cs) :
    dropParameters false ('(' :: cs) = dropParameters true cs := by
  simp [dropParameters, h]

theorem dropParameters_keep (h : ¬ (c = '(' ∧ ')' ∈ cs)) :
    dropParameters false (c :: cs) = c :: dropParameters false cs := by
  rw [dropParameters, if_neg (by decide), if_neg h]

theorem dropParameters_of_unclosed (h : ¬ ['(', ')'].Sublist cs) :
    dropParameters false cs = cs := by
  induction cs with
  | nil => rfl
  | cons c cs ih =>
    have hcs : ¬ ['(', ')'].Sublist cs := fun hsub => h (hsub.cons c)
    have hc : ¬ (c = '(' ∧ ')' ∈ cs) := by
      rintro ⟨rfl, hmem⟩
      exact h ((List.singleton_sublist.mpr hmem).cons_cons '(')
    rw [dropParameters_keep hc, ih hcs]

theorem dropParameters_of_notMem (h : '(' ∉ cs ∨ ')' ∉ cs) : dropParameters false cs = cs := by
  apply dropParameters_of_unclosed
  intro hsub
  rcases h with h | h
  · exact h (hsub.subset (by simp))
  · exact h (hsub.subset (by simp))

/-- What follows is seen only by an open parenthesis, and then only if it closes it. -/
theorem dropParameters_append (hinside : inside = true → ')' ∈ cs) (hrest : ')' ∉ rest) :
    dropParameters inside (cs ++ rest) = dropParameters inside cs ++ rest := by
  induction cs generalizing inside with
  | nil =>
    cases inside with
    | true => exact absurd (hinside rfl) (by simp)
    | false => exact dropParameters_of_notMem (.inr hrest)
  | cons c cs ih =>
    rw [List.cons_append]
    cases inside with
    | true =>
      by_cases hc : c = ')'
      · rw [hc, dropParameters_closing, dropParameters_closing, ih (by simp), List.cons_append]
      · have hcs : ')' ∈ cs := by simpa [Ne.symm hc] using hinside rfl
        rw [dropParameters_skip hc, dropParameters_skip hc, ih fun _ => hcs]
    | false =>
      by_cases hc : c = '(' ∧ ')' ∈ cs
      · obtain ⟨rfl, hcs⟩ := hc
        rw [dropParameters_opening hcs, dropParameters_opening (List.mem_append_left rest hcs),
          ih fun _ => hcs]
      · have hc' : ¬ (c = '(' ∧ ')' ∈ cs ++ rest) := by simpa [hrest] using hc
        rw [dropParameters_keep hc, dropParameters_keep hc', ih (by simp), List.cons_append]

theorem dropParameters_append_left (h : '(' ∉ cs) (rest : List Char) :
    dropParameters false (cs ++ rest) = cs ++ dropParameters false rest := by
  induction cs with
  | nil => rfl
  | cons c cs ih =>
    simp only [List.mem_cons, not_or] at h
    rw [List.cons_append, dropParameters_keep fun hc => h.1 hc.1.symm, ih h.2, List.cons_append]

theorem dropParameters_inside (h : ')' ∉ p) (rest : List Char) :
    dropParameters true (p ++ ')' :: rest) = ' ' :: dropParameters false rest := by
  induction p with
  | nil => exact dropParameters_closing rest
  | cons c p ih =>
    simp only [List.mem_cons, not_or] at h
    rw [List.cons_append, dropParameters_skip (Ne.symm h.1), ih h.2]

theorem mem_of_mem_dropParameters (h : c ∈ dropParameters inside cs) : c = ' ' ∨ c ∈ cs := by
  induction cs generalizing inside with
  | nil => simp [dropParameters] at h
  | cons d cs ih =>
    have htail : ∀ {inside}, c ∈ dropParameters inside cs → c = ' ' ∨ c ∈ d :: cs := fun h =>
      (ih h).imp_right (List.mem_cons_of_mem d)
    rw [dropParameters] at h
    split_ifs at h
    · rcases List.mem_cons.mp h with h | h
      · exact .inl h
      · exact htail h
    · exact htail h
    · exact htail h
    · rcases List.mem_cons.mp h with rfl | h
      · exact .inr List.mem_cons_self
      · exact htail h

/-- One pass drops all parameters: no parenthesis that is left has one that closes it. -/
theorem unclosed_dropParameters (inside : Bool) (cs : List Char) :
    ¬ ['(', ')'].Sublist (dropParameters inside cs) := by
  induction cs generalizing inside with
  | nil => simp [dropParameters]
  | cons c cs ih =>
    rw [dropParameters]
    split_ifs with _ _ hopen
    · intro hsub
      rcases List.sublist_cons_iff.mp hsub with hsub | ⟨l, hl, _⟩
      · exact ih false hsub
      · exact absurd (List.cons.inj hl).1 (by decide)
    · exact ih true
    · exact ih true
    · intro hsub
      rcases List.sublist_cons_iff.mp hsub with hsub | ⟨l, hl, hsub⟩
      · exact ih false hsub
      · obtain ⟨rfl, rfl⟩ := List.cons.inj hl
        have hmem := mem_of_mem_dropParameters (List.singleton_sublist.mp hsub)
        exact hopen ⟨rfl, hmem.resolve_left (by decide)⟩

example : dropParameters false "a((b)c)(d)e(f".toList = "a c) e(f".toList := by decide

/-! ## Spellings -/

/-- A modifier in any letter case. -/
def IsModifier (m : String) : Prop := m.toLower ∈ ["unsigned", "signed", "zerofill"]

instance (m : String) : Decidable (IsModifier m) :=
  inferInstanceAs (Decidable (m.toLower ∈ _))

/-- Another way to write the type `t`. -/
inductive Respelled (t : String) : String → Prop
  | parameters (p : String) (ht : '(' ∉ t.toList) (hp : ')' ∉ p.toList) :
      Respelled t (t ++ "(" ++ p ++ ")")
  | behind (gap m : String) (hgap : IsGap gap.toList) (hm : IsModifier m) :
      Respelled t (t ++ gap ++ m)
  | inFront (m gap : String) (hm : IsModifier m) (hgap : IsGap gap.toList) :
      Respelled t (m ++ gap ++ t)

theorem isAlpha_of_toLower (h : c.toLower.isAlpha = true) : c.isAlpha = true := by
  by_cases hupper : c.isUpper = true
  · exact (Bool.or_eq_true _ _).mpr (.inl hupper)
  · have hsame : c.toLower = c := dif_neg fun hrange => hupper (decide_eq_true hrange)
    rwa [hsame] at h

theorem IsModifier.map_toLower {m : String} (h : IsModifier m) :
    m.toList.map Char.toLower ∈ modifiers := by
  rw [← String.toList_map]
  exact List.mem_map_of_mem h

theorem IsModifier.isAlpha {m : String} (h : IsModifier m) (hc : c ∈ m.toList) :
    c.isAlpha = true := by
  have hletters : (modifiers.all fun w => w.all Char.isAlpha) = true := by decide
  have hword := List.all_eq_true.mp hletters _ h.map_toLower
  exact isAlpha_of_toLower (List.all_eq_true.mp hword _ (List.mem_map_of_mem hc))

theorem IsModifier.notMem {m : String} (h : IsModifier m) (hc : c.isAlpha = false) :
    c ∉ m.toList := by
  intro hmem
  rw [h.isAlpha hmem] at hc
  exact absurd hc (by decide)

theorem IsModifier.lowerChars {m : String} (h : IsModifier m) :
    Text.lowerChars m.toList ∈ modifiers := by
  rw [Text.lowerChars, lowerFrom_of_isAlpha fun c hc => h.isAlpha hc]
  exact h.map_toLower

theorem normalWords_parameters (hcs : '(' ∉ cs) (hp : ')' ∉ p) :
    normalWords (cs ++ '(' :: (p ++ [')'])) = normalWords cs := by
  have hlower : Text.lowerChars (cs ++ '(' :: (p ++ [')'])) =
      Text.lowerChars cs ++ '(' :: (Text.lowerChars p ++ [')']) := by
    rw [lowerChars_append (by decide), lowerChars_append (by decide)]
    rfl
  have hcs' : '(' ∉ Text.lowerChars cs := notMem_lowerChars (by decide) hcs
  have hp' : ')' ∉ Text.lowerChars p := notMem_lowerChars (by decide) hp
  rw [normalWords, hlower, dropParameters_append_left hcs', dropParameters_opening (by simp),
    dropParameters_inside hp', normalWords, dropParameters_of_notMem (.inl hcs')]
  simp [dropParameters, words_append (show isBlank ' ' = true by decide), words]

/-- A gap separates two parts of a name unless a parenthesis reaches over it. -/
theorem normalWords_append (hgap : IsGap gap) (h : '(' ∉ cs ∨ ')' ∉ rest) :
    normalWords (cs ++ gap ++ rest) = normalWords cs ++ normalWords rest := by
  have hdrop : dropParameters false (Text.lowerChars (cs ++ gap ++ rest)) =
      dropParameters false (Text.lowerChars cs) ++ gap ++
        dropParameters false (Text.lowerChars rest) := by
    rw [lowerChars_append_gap hgap]
    rcases h with h | h
    · have hcs : '(' ∉ Text.lowerChars cs := notMem_lowerChars (by decide) h
      have hleft : '(' ∉ Text.lowerChars cs ++ gap := by
        simp [hcs, hgap.notMem (show isBlank '(' = false by decide)]
      rw [dropParameters_append_left hleft, dropParameters_of_notMem (.inl hcs)]
    · have hrest : ')' ∉ Text.lowerChars rest := notMem_lowerChars (by decide) h
      have hright : ')' ∉ gap ++ Text.lowerChars rest := by
        simp [hrest, hgap.notMem (show isBlank ')' = false by decide)]
      rw [List.append_assoc, dropParameters_append (by simp) hright,
        dropParameters_of_notMem (.inr hrest), List.append_assoc]
  rw [normalWords, hdrop, words_append_gap hgap, List.filter_append]
  rfl

theorem normalWords_modifier (h : Text.lowerChars cs ∈ modifiers) : normalWords cs = [] := by
  have hdropped : ∀ w ∈ modifiers, dropParameters false w = w ∧ words w = [w] := by decide
  obtain ⟨hdrop, hwords⟩ := hdropped _ h
  rw [normalWords, hdrop, hwords, List.filter_cons_of_neg (by simpa using h), List.filter_nil]

theorem normalize_of_respelled {t u : String} (h : Respelled t u) :
    normalize u = normalize t := by
  have hwords : normalWords u.toList = normalWords t.toList := by
    cases h with
    | parameters p ht hp => simpa using normalWords_parameters ht hp
    | behind gap m hgap hm =>
      rw [String.toList_append, String.toList_append,
        normalWords_append hgap (.inr (hm.notMem (by decide))),
        normalWords_modifier hm.lowerChars, List.append_nil]
    | inFront m gap hm hgap =>
      rw [String.toList_append, String.toList_append,
        normalWords_append hgap (.inl (hm.notMem (by decide))),
        normalWords_modifier hm.lowerChars, List.nil_append]
  rw [normalize, hwords, normalize]

theorem normalize_of_respellings {t u : String} (h : Relation.ReflTransGen Respelled t u) :
    normalize u = normalize t := by
  induction h with
  | refl => rfl
  | tail _ hlast ih => exact (normalize_of_respelled hlast).trans ih

/-! ## The normal form -/

/-- In lower case, without a parenthesis that is closed behind it, and made of words one blank
apart of which none is a modifier. -/
structure Normal (name : String) : Prop where
  lower : Text.lower name = name
  unclosed : ¬ ['(', ')'].Sublist name.toList
  words : ∃ ws, name.toList = [' '].intercalate ws ∧ ∀ w ∈ ws, IsWord w ∧ w ∉ modifiers

theorem normalize_of_normal {name : String} (h : Normal name) : normalize name = name := by
  obtain ⟨ws, hname, hws⟩ := h.words
  have hlower : Text.lowerChars name.toList = name.toList := by
    rw [← String.toList_ofList (l := Text.lowerChars name.toList)]
    exact congrArg String.toList h.lower
  have hwords : normalWords name.toList = ws := by
    rw [normalWords, hlower, dropParameters_of_unclosed h.unclosed, hname,
      words_intercalate fun w hw => (hws w hw).1, List.filter_eq_self]
    intro w hw
    simpa using (hws w hw).2
  rw [normalize, hwords, ← hname, String.ofList_toList]

theorem normal_normalize (name : String) : Normal (normalize name) := by
  have hsub : (normalWords name.toList).Sublist
      (Text.words (dropParameters false (Text.lowerChars name.toList))) := List.filter_sublist
  -- blanks apart, the result is what is left of the lowered name
  have hleft : ∀ {l : List Char}, l.Sublist (normalize name).toList → ' ' ∉ l →
      l.Sublist (dropParameters false (Text.lowerChars name.toList)) := by
    intro l hl hblank
    rw [normalize, String.toList_ofList] at hl
    refine (sublist_flatten_of_intercalate hl hblank).trans (hsub.flatten.trans ?_)
    rw [flatten_words]
    exact List.filter_sublist
  have hlowered : ∀ c ∈ (normalize name).toList, Lowered c := by
    intro c hc
    rcases eq_or_ne c ' ' with rfl | hne
    · exact lowered_of_isBoundary (by decide)
    · have hmem := hleft (List.singleton_sublist.mpr hc) (by simpa using hne.symm)
      rcases mem_of_mem_dropParameters (List.singleton_sublist.mp hmem) with rfl | hmem
      · exact absurd rfl hne
      · exact lowered_of_mem_lowerChars hmem
  refine ⟨?_, fun h => ?_, normalWords name.toList, String.toList_ofList, fun w hw => ?_⟩
  · rw [Text.lower, lowerChars_of_lowered hlowered, String.ofList_toList]
  · exact unclosed_dropParameters false _ (hleft h (by decide))
  · exact ⟨isWord_of_mem_words (hsub.subset hw), by simpa using (List.mem_filter.mp hw).2⟩

/-- Normalising gives names in normal form and leaves these alone, so once is enough. It does not
see parameters and modifiers, however many are added, and neither does the class of a type. -/
theorem spellings_agree (t : String) :
    (normalize t = t ↔ Normal t) ∧
      normalize (normalize t) = normalize t ∧
      (∀ d : Dialect, d.classify (normalize t) = d.classify t) ∧
      ∀ u, Relation.ReflTransGen Respelled t u →
        normalize u = normalize t ∧ ∀ d : Dialect, d.classify u = d.classify t := by
  have hagain : normalize (normalize t) = normalize t := normalize_of_normal (normal_normalize t)
  refine ⟨⟨fun h => h ▸ normal_normalize t, normalize_of_normal⟩, hagain, fun d => ?_,
    fun u hu => ?_⟩
  · rw [Dialect.classify, hagain, Dialect.classify]
  · have hu := normalize_of_respellings hu
    exact ⟨hu, fun d => by rw [Dialect.classify, hu, Dialect.classify]⟩

/-- Two parentheses before one that closes them, and modifiers on both sides. -/
theorem spellings_agree_double :
    Relation.ReflTransGen Respelled "Double  PRECISION"
        "ZeroFill\tDouble  PRECISION((17, 4) unSIGNED" ∧
      normalize "ZeroFill\tDouble  PRECISION((17, 4) unSIGNED" = "double precision" ∧
      Dialect.mySql.classify "ZeroFill\tDouble  PRECISION((17, 4) unSIGNED" = .numeric := by
  have hspelled : Relation.ReflTransGen Respelled "Double  PRECISION"
      "ZeroFill\tDouble  PRECISION((17, 4) unSIGNED" := by
    refine .tail (.tail (.single (.parameters "(17, 4" ?_ ?_)) (.behind " " "unSIGNED" ?_ ?_))
      (.inFront "ZeroFill" "\t" ?_ ?_) <;> decide +kernel
  obtain ⟨-, -, -, hagree⟩ := spellings_agree "Double  PRECISION"
  obtain ⟨hnormal, hclass⟩ := hagree _ hspelled
  refine ⟨hspelled, hnormal.trans (by decide +kernel), (hclass .mySql).trans (by decide +kernel)⟩

end TypeName

end DataflowSql

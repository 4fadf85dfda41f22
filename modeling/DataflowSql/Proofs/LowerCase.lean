import Mathlib.Data.List.Basic
import DataflowSql.Text.LowerCase

/-! What lower-casing keeps. A text in lower case stays as it is, whichever form a sigma in it has.
Blanks and parentheses are neither made nor lost, and a text is lowered piece by piece between
them. -/
namespace DataflowSql.Text

namespace LowerRun

variable {r s : LowerRun} {n : Nat}

/-- No character of `r` is one of `s`: the run ends in front of `s` or begins behind it, or its
steps fall between those of `s`. -/
def misses (r s : LowerRun) : Bool :=
  r.last.blt s.first || s.last.blt r.first ||
    (s.first.ble r.first && (r.first == r.last || r.stride % s.stride == 0) &&
      (r.first - s.first) % s.stride != 0)

theorem covers_iff : r.covers n = true ↔
    r.first ≤ n ∧ n ≤ r.last ∧ (n - r.first) % r.stride = 0 := by
  simp [covers, and_assoc]

theorem not_covers_of_misses (h : r.misses s = true) (hr : r.covers n = true) :
    s.covers n = false := by
  rw [Bool.eq_false_iff]
  intro hs
  obtain ⟨hfirst, hlast, hstep⟩ := covers_iff.mp hr
  obtain ⟨hfirst', hlast', hstep'⟩ := covers_iff.mp hs
  simp only [misses, Bool.or_eq_true, Bool.and_eq_true, Nat.blt_eq, Nat.ble_eq, beq_iff_eq,
    bne_iff_ne] at h
  obtain (h | h) | ⟨⟨hle, hstride⟩, h⟩ := h
  · omega
  · omega
  · have hinner : s.stride ∣ n - r.first := by
      rcases hstride with hone | hstride
      · rw [show n - r.first = 0 by omega]
        exact Nat.dvd_zero _
      · exact Nat.dvd_trans (Nat.dvd_of_mod_eq_zero hstride) (Nat.dvd_of_mod_eq_zero hstep)
    have houter : s.stride ∣ (n - r.first) + (r.first - s.first) := by
      rw [show n - r.first + (r.first - s.first) = n - s.first by omega]
      exact Nat.dvd_of_mod_eq_zero hstep'
    exact h (Nat.mod_eq_zero_of_dvd ((Nat.dvd_add_right hinner).mp houter))

/-- The characters that a run is lowered to. -/
def image (r : LowerRun) : LowerRun :=
  ⟨(r.first + r.offset).toNat, (r.last + r.offset).toNat, r.stride, 0⟩

theorem covers_image (h : 0 ≤ r.first + r.offset) (hn : r.covers n = true) :
    r.image.covers (n + r.offset).toNat = true := by
  obtain ⟨hfirst, hlast, hstep⟩ := covers_iff.mp hn
  refine covers_iff.mpr ⟨?_, ?_, ?_⟩
  · simp only [image]
    omega
  · simp only [image]
    omega
  · rw [show (n + r.offset).toNat - r.image.first = n - r.first by simp only [image]; omega]
    exact hstep

/-- A range of a table, as a run that goes nowhere. -/
def ofRange (range : Nat × Nat) : LowerRun := ⟨range.1, range.2, 1, 0⟩

theorem covers_ofRange {range : Nat × Nat} :
    (ofRange range).covers n = true ↔ range.1 ≤ n ∧ n ≤ range.2 := by
  simp [covers_iff, ofRange, Nat.mod_one]

end LowerRun

theorem inRanges_iff {ranges : List (Nat × Nat)} {c : Char} :
    inRanges ranges c = true ↔
      ∃ r ∈ ranges.map LowerRun.ofRange, r.covers c.toNat = true := by
  rw [inRanges, List.any_eq_true]
  simp only [List.mem_map, exists_exists_and_eq_and, LowerRun.covers_ofRange, Bool.and_eq_true,
    decide_eq_true_eq]

theorem inRanges_eq_false {ranges : List (Nat × Nat)} {c : Char}
    (h : ∀ r ∈ ranges.map LowerRun.ofRange, r.covers c.toNat = false) :
    inRanges ranges c = false := by
  rw [Bool.eq_false_iff]
  intro hin
  obtain ⟨r, hr, hc⟩ := inRanges_iff.mp hin
  rw [h r hr] at hc
  exact absurd hc (by decide)

/-! ## The tables -/

/-- Blanks and the two parentheses. -/
def boundaryRanges : List (Nat × Nat) := (0x28, 0x29) :: blankRanges

def isBoundary (c : Char) : Bool := inRanges boundaryRanges c

/-- All characters that have another form in lower case. -/
def upperRuns : List LowerRun := .ofRange (0x130, 0x130) :: lowerRuns

/-- What no character is lowered to: a surrogate, a boundary, or a character that is lowered
again. -/
def unreachedRuns : List LowerRun :=
  .ofRange (0xD800, 0xDFFF) :: boundaryRanges.map LowerRun.ofRange ++ upperRuns

theorem image_misses :
    (lowerRuns.all fun r => unreachedRuns.all fun s => r.image.misses s) = true := by
  decide +kernel

theorem image_bounds :
    ∀ r ∈ lowerRuns, 0 ≤ r.first + r.offset ∧ r.last + r.offset < 0x110000 := by
  decide +kernel

theorem boundary_misses :
    ((boundaryRanges.map LowerRun.ofRange).all fun b =>
      (upperRuns ++ (casedRanges ++ caseIgnorableRanges).map LowerRun.ofRange).all b.misses) =
        true := by
  decide +kernel

section Boundary

variable {c : Char}

theorem isBoundary_of_isBlank (h : isBlank c = true) : isBoundary c = true := by
  rw [isBoundary, inRanges, boundaryRanges, List.any_cons, Bool.or_eq_true]
  exact .inr h

theorem not_covers_of_isBoundary (h : isBoundary c = true) {s : LowerRun}
    (hs : s ∈ upperRuns ++ (casedRanges ++ caseIgnorableRanges).map LowerRun.ofRange) :
    s.covers c.toNat = false := by
  obtain ⟨b, hb, hc⟩ := inRanges_iff.mp h
  exact LowerRun.not_covers_of_misses
    (List.all_eq_true.mp (List.all_eq_true.mp boundary_misses b hb) s hs) hc

theorem isCased_of_isBoundary (h : isBoundary c = true) : isCased c = false :=
  inRanges_eq_false fun _ hs => not_covers_of_isBoundary h (by simp [hs])

theorem isCaseIgnorable_of_isBoundary (h : isBoundary c = true) : isCaseIgnorable c = false :=
  inRanges_eq_false fun _ hs => not_covers_of_isBoundary h (by simp [hs])

/-- A sigma looks no further than a boundary. -/
theorem meetsCased_append (h : isBoundary c = true) (cs rest : List Char) :
    meetsCased (cs ++ c :: rest) = meetsCased cs := by
  induction cs with
  | nil =>
    simp [meetsCased, isCaseIgnorable_of_isBoundary h, isCased_of_isBoundary h]
  | cons x cs ih =>
    by_cases hx : isCaseIgnorable x = true
    · simpa [meetsCased, hx] using ih
    · simp [meetsCased, hx]

end Boundary

/-! ## Characters -/

/-- Already in lower case, wherever it stands. -/
def Lowered (c : Char) : Prop := ∀ before after, lowerAt before c after = [c]

section Characters

variable {c x : Char} {n : Nat}

theorem lowered_of_not_covers (h : ∀ s ∈ upperRuns, s.covers c.toNat = false) : Lowered c := by
  intro before after
  have hdotted : c.toNat ≠ 0x130 := by
    intro hc
    have hcovers := h (.ofRange (0x130, 0x130)) List.mem_cons_self
    rw [hc] at hcovers
    exact absurd hcovers (by decide)
  have hsigma : c.toNat ≠ 0x3A3 := by
    intro hc
    have hcovers := h ⟨0x3A3, 0x3AB, 1, 32⟩ (by decide +kernel)
    rw [hc] at hcovers
    exact absurd hcovers (by decide)
  have hfind : lowerRuns.find? (fun r => r.covers c.toNat) = none :=
    List.find?_eq_none.mpr fun s hs => by simp [h s (List.mem_cons_of_mem _ hs)]
  simp [lowerAt, hsigma, lowerChar, hdotted, hfind]

theorem lowered_of_isBoundary (h : isBoundary c = true) : Lowered c :=
  lowered_of_not_covers fun _ hs => not_covers_of_isBoundary h (List.mem_append_left _ hs)

/-- A code point that is neither lowered nor a boundary. -/
def Settled (n : Nat) : Prop := ∀ s ∈ unreachedRuns, s.covers n = false

instance (n : Nat) : Decidable (Settled n) :=
  inferInstanceAs (Decidable (∀ s ∈ unreachedRuns, s.covers n = false))

theorem Settled.lowered (h : Settled c.toNat) : Lowered c :=
  lowered_of_not_covers fun s hs => h s (List.mem_append_right _ hs)

theorem Settled.not_isBoundary (h : Settled c.toNat) : isBoundary c = false :=
  inRanges_eq_false fun s hs => h s (List.mem_append_left _ (List.mem_cons_of_mem _ hs))

theorem Settled.toNat_ofNat (h : Settled n) (hn : n < 0x110000) : (Char.ofNat n).toNat = n := by
  have hsurrogate := h (.ofRange (0xD800, 0xDFFF)) (List.mem_append_left _ List.mem_cons_self)
  have hvalid : n.isValidChar := by
    rw [Bool.eq_false_iff, Ne, LowerRun.covers_ofRange] at hsurrogate
    simp only [Nat.isValidChar]
    omega
  rw [Char.ofNat, dif_pos hvalid]
  rfl

theorem settled_image {r : LowerRun} (hr : r ∈ lowerRuns) (hn : r.covers n = true) :
    Settled (Char.ofNat (n + r.offset).toNat).toNat := by
  obtain ⟨hfirst, hlast⟩ := image_bounds r hr
  have hsettled : Settled (n + r.offset).toNat := fun s hs =>
    LowerRun.not_covers_of_misses
      (List.all_eq_true.mp (List.all_eq_true.mp image_misses r hr) s hs)
      (LowerRun.covers_image hfirst hn)
  obtain ⟨_, hle, _⟩ := LowerRun.covers_iff.mp hn
  rwa [hsettled.toNat_ofNat (by omega)]

/-- A character is in lower case and stays, or it gives way to characters that are. -/
theorem lowerAt_cases (before : List Char) (c : Char) (after : List Char) :
    (lowerAt before c after = [c] ∧ Lowered c) ∨
      ∀ x ∈ lowerAt before c after, Settled x.toNat := by
  -- the two special characters first, then those that the table says something of
  by_cases hsigma : c.toNat = 0x3A3
  · right
    have hforms : Settled (Char.ofNat 0x3C2).toNat ∧ Settled (Char.ofNat 0x3C3).toNat := by
      decide +kernel
    simp only [lowerAt, hsigma, beq_self_eq_true, if_true, List.forall_mem_singleton]
    split
    · exact hforms.1
    · exact hforms.2
  have hat : lowerAt before c after = lowerChar c := by simp [lowerAt, hsigma]
  rw [hat, lowerChar]
  by_cases hdotted : c.toNat = 0x130
  · right
    have hforms : Settled 'i'.toNat ∧ Settled (Char.ofNat 0x307).toNat := by decide +kernel
    simpa [hdotted] using hforms
  rw [if_neg (by simpa using hdotted)]
  split
  · next hfind =>
    refine .inl ⟨rfl, lowered_of_not_covers fun s hs => ?_⟩
    rcases List.mem_cons.mp hs with rfl | hs
    · rw [Bool.eq_false_iff, Ne, LowerRun.covers_ofRange]
      omega
    · simpa using List.find?_eq_none.mp hfind s hs
  · next r hfind =>
    right
    intro x hx
    rw [List.mem_singleton.mp hx]
    have hcovers : r.covers c.toNat = true := by simpa using List.find?_some hfind
    exact settled_image (List.mem_of_find?_eq_some hfind) hcovers

theorem lowered_of_mem_lowerAt {before after : List Char} (h : x ∈ lowerAt before c after) :
    Lowered x := by
  rcases lowerAt_cases before c after with ⟨heq, hc⟩ | hall
  · rw [heq, List.mem_singleton] at h
    rwa [h]
  · exact (hall x h).lowered

/-- No other character is lowered to a boundary. -/
theorem eq_of_mem_lowerAt {before after : List Char} (h : x ∈ lowerAt before c after)
    (hx : isBoundary x = true) : x = c := by
  rcases lowerAt_cases before c after with ⟨heq, _⟩ | hall
  · rwa [heq, List.mem_singleton] at h
  · rw [(hall x h).not_isBoundary] at hx
    exact absurd hx (by decide)

theorem toNat_of_isAlpha (h : c.isAlpha = true) : c.toNat < 0x80 := by
  have hval : c.val.toNat = c.toNat := rfl
  rcases (Bool.or_eq_true _ _).mp h with hupper | hlower
  · have hle : c.val ≤ 'Z'.val := (of_decide_eq_true hupper).2
    have hle : c.val.toNat ≤ 90 := UInt32.le_iff_toNat_le.mp hle
    omega
  · have hle : c.val ≤ 'z'.val := of_decide_eq_true ((Bool.and_eq_true _ _).mp hlower).2
    have hle : c.val.toNat ≤ 122 := UInt32.le_iff_toNat_le.mp hle
    omega

theorem lowerAt_of_isAlpha (before after : List Char) (h : c.isAlpha = true) :
    lowerAt before c after = [c.toLower] := by
  have hlower : ∀ n < 0x80, (Char.ofNat n).isAlpha = true →
      lowerChar (Char.ofNat n) = [(Char.ofNat n).toLower] := by
    decide +kernel
  have hascii := toNat_of_isAlpha h
  have hsigma : c.toNat ≠ 0x3A3 := by omega
  rw [lowerAt, if_neg (by simpa using hsigma)]
  simpa only [Char.ofNat_toNat] using hlower c.toNat hascii (by rwa [Char.ofNat_toNat])

end Characters

/-! ## Texts -/

section Texts

variable {c x : Char} {cs before : List Char}

theorem exists_of_mem_lowerFrom (h : x ∈ lowerFrom before cs) :
    ∃ c ∈ cs, ∃ before after, x ∈ lowerAt before c after := by
  induction cs generalizing before with
  | nil => simp [lowerFrom] at h
  | cons c cs ih =>
    rw [lowerFrom, List.mem_append] at h
    rcases h with h | h
    · exact ⟨c, List.mem_cons_self, before, cs, h⟩
    · obtain ⟨d, hd, hx⟩ := ih h
      exact ⟨d, List.mem_cons_of_mem c hd, hx⟩

theorem lowered_of_mem_lowerChars (h : x ∈ lowerChars cs) : Lowered x := by
  obtain ⟨c, _, before, after, hx⟩ := exists_of_mem_lowerFrom h
  exact lowered_of_mem_lowerAt hx

theorem notMem_lowerChars (hx : isBoundary x = true) (h : x ∉ cs) : x ∉ lowerChars cs := by
  intro hmem
  obtain ⟨c, hc, before, after, hat⟩ := exists_of_mem_lowerFrom hmem
  rw [eq_of_mem_lowerAt hat hx] at h
  exact h hc

theorem lowerFrom_of_lowered (h : ∀ c ∈ cs, Lowered c) : lowerFrom before cs = cs := by
  induction cs generalizing before with
  | nil => rfl
  | cons c cs ih =>
    simp only [List.forall_mem_cons] at h
    rw [lowerFrom, h.1, ih h.2, List.singleton_append]

theorem lowerChars_of_lowered (h : ∀ c ∈ cs, Lowered c) : lowerChars cs = cs :=
  lowerFrom_of_lowered h

/-- What stands in front of a boundary does not matter behind it. -/
theorem lowerFrom_behind (hc : isBoundary c = true) (before rest : List Char) :
    lowerFrom (before ++ c :: rest) cs = lowerFrom before cs := by
  induction cs generalizing before with
  | nil => rfl
  | cons x cs ih =>
    rw [lowerFrom, lowerFrom, ← List.cons_append, ih]
    simp only [lowerAt, meetsCased_append hc]

theorem lowerFrom_append (hc : isBoundary c = true) (rest : List Char) :
    lowerFrom before (cs ++ c :: rest) = lowerFrom before cs ++ c :: lowerChars rest := by
  induction cs generalizing before with
  | nil =>
    have hrest : lowerFrom (c :: before) rest = lowerChars rest :=
      lowerFrom_behind hc [] before
    simp [lowerFrom, lowered_of_isBoundary hc before rest, hrest]
  | cons x cs ih =>
    rw [List.cons_append, lowerFrom, lowerFrom, ih, List.append_assoc]
    simp only [lowerAt, meetsCased_append hc]

theorem lowerChars_append (hc : isBoundary c = true) (cs rest : List Char) :
    lowerChars (cs ++ c :: rest) = lowerChars cs ++ c :: lowerChars rest :=
  lowerFrom_append hc rest

-- the parenthesis ends the word, so the sigma in front of it is a final one
example : lowerChars "ΟΔΟΣ(Α)".toList = "οδος(α)".toList := by decide +kernel

theorem lowerFrom_of_isAlpha (h : ∀ c ∈ cs, c.isAlpha = true) :
    lowerFrom before cs = cs.map Char.toLower := by
  induction cs generalizing before with
  | nil => rfl
  | cons c cs ih =>
    simp only [List.forall_mem_cons] at h
    rw [lowerFrom, lowerAt_of_isAlpha before cs h.1, ih h.2, List.map_cons, List.singleton_append]

end Texts

end DataflowSql.Text

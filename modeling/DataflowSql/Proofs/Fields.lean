import Mathlib.Data.List.Forall2
import Mathlib.Data.List.Induction
import Mathlib.Data.List.Nodup
import Mathlib.Logic.Relation
import DataflowSql.Json.Printer

/-! The fields of an object in another order. As long as their names differ, the order changes
neither what is found under a name nor the sorted fields, and so not the compact text. -/
namespace DataflowSql.Json

/-- One object of a value, at any depth, has its fields in another order. -/
inductive Reordered : Json → Json → Prop
  | here {fs gs : List (String × Json)} (names : (fs.map Prod.fst).Nodup) (order : fs.Perm gs) :
      Reordered (.object fs) (.object gs)
  | item {x y : Json} (xs ys : List Json) (inner : Reordered x y) :
      Reordered (.array (xs ++ x :: ys)) (.array (xs ++ y :: ys))
  | field {x y : Json} (fs gs : List (String × Json)) (name : String) (inner : Reordered x y) :
      Reordered (.object (fs ++ (name, x) :: gs)) (.object (fs ++ (name, y) :: gs))

/-- The same value, or one with an object reordered. -/
abbrev Alike : Json → Json → Prop := Relation.ReflGen Reordered

/-- The same name, and values in this relation. -/
def FieldRel {β γ : Type} (R : β → γ → Prop) (f : String × β) (g : String × γ) : Prop :=
  f.1 = g.1 ∧ R f.2 g.2

theorem fieldRel_rfl {β : Type} {R : β → β → Prop} (hR : ∀ b, R b b) (fs : List (String × β)) :
    List.Forall₂ (FieldRel R) fs fs :=
  List.forall₂_same.mpr fun f _ => ⟨rfl, hR f.2⟩

/-- Fields of which one holds another value. -/
theorem fieldRel_replace {β : Type} {R : β → β → Prop} (hR : ∀ b, R b b) {x y : β} (hxy : R x y)
    (fs gs : List (String × β)) (name : String) :
    List.Forall₂ (FieldRel R) (fs ++ (name, x) :: gs) (fs ++ (name, y) :: gs) :=
  List.rel_append (fieldRel_rfl hR fs) (.cons ⟨rfl, hxy⟩ (fieldRel_rfl hR gs))

section Last

variable {name : String} {fs gs : List (String × Json)}

theorem lastField?_append :
    lastField? name (fs ++ gs) = (lastField? name gs).or (lastField? name fs) := by
  rw [lastField?, List.reverse_append, List.find?_append, Option.map_or, lastField?, lastField?]

theorem lastField?_cons (f : String × Json) : lastField? name (f :: fs) =
    (lastField? name fs).or (if f.1 = name then some f.2 else none) := by
  rw [← List.singleton_append, lastField?_append]
  congr 1
  by_cases hf : f.1 = name <;> simp [lastField?, hf]

theorem mem_of_lastField? {x : Json} (h : lastField? name fs = some x) : (name, x) ∈ fs := by
  rw [lastField?, Option.map_eq_some_iff] at h
  obtain ⟨f, hf, rfl⟩ := h
  have hname : f.1 = name := by simpa using List.find?_some hf
  rw [← hname]
  exact List.mem_reverse.mp (List.mem_of_find?_eq_some hf)

/-- With names that differ, a value is found just where it stands under the name. -/
theorem lastField?_eq_some_iff (names : (fs.map Prod.fst).Nodup) {x : Json} :
    lastField? name fs = some x ↔ (name, x) ∈ fs := by
  refine ⟨mem_of_lastField?, fun hx => ?_⟩
  induction fs with
  | nil => simp at hx
  | cons f fs ih =>
    rw [List.map_cons, List.nodup_cons] at names
    rw [lastField?_cons]
    rcases List.mem_cons.mp hx with rfl | hx
    · have hnone : lastField? name fs = none := by
        rw [Option.eq_none_iff_forall_ne_some]
        intro y hy
        exact names.1 (List.mem_map.mpr ⟨_, mem_of_lastField? hy, rfl⟩)
      simp [hnone]
    · rw [ih names.2 hx, Option.some_or]

theorem lastField?_of_perm (names : (fs.map Prod.fst).Nodup) (order : fs.Perm gs) :
    lastField? name fs = lastField? name gs := by
  ext x
  rw [lastField?_eq_some_iff names, lastField?_eq_some_iff ((order.map _).nodup_iff.mp names),
    order.mem_iff]

/-- A field of another name makes no difference. -/
theorem lastField?_of_ne {other : String} (h : other ≠ name) (x : Json) :
    lastField? name (fs ++ (other, x) :: gs) = lastField? name (fs ++ gs) := by
  rw [lastField?_append, lastField?_cons, if_neg h, Option.or_none, ← lastField?_append]

theorem lastField?_rel {R : Json → Json → Prop} (h : List.Forall₂ (FieldRel R) fs gs) :
    Option.Rel R (lastField? name fs) (lastField? name gs) := by
  induction h with
  | nil => exact .none
  | @cons f g fs gs hfg _ ih =>
    obtain ⟨hname, hR⟩ := hfg
    rw [lastField?_cons, lastField?_cons, ← hname]
    generalize lastField? name fs = a at ih ⊢
    generalize lastField? name gs = b at ih ⊢
    cases ih with
    | some hab => exact .some hab
    | none =>
      split_ifs
      · exact .some hR
      · exact .none

end Last

section Sorted

variable {β γ : Type}

theorem putField_comm_of_lt {f g : String × β} (h : f.1 < g.1) (fs : List (String × β)) :
    putField f (putField g fs) = putField g (putField f fs) := by
  have hne : f.1 ≠ g.1 := fun he => String.lt_irrefl _ (he ▸ h)
  have hgf : ¬ g.1 < f.1 := String.lt_asymm h
  induction fs with
  | nil => simp [putField, h, hgf, hne.symm]
  | cons k fs ih =>
    by_cases hgk : g.1 < k.1
    · simp [putField, String.lt_trans h hgk, hgk, h, hgf, hne.symm]
    · by_cases heq : g.1 = k.1
      · rw [heq] at h hgf hne
        simp [putField, heq, h, hgf, hne.symm]
      · -- `g` goes behind `k`, wherever `f` goes
        by_cases hfk : f.1 < k.1
        · simp [putField, hfk, hgk, heq, hgf, hne.symm]
        · by_cases hfeq : f.1 = k.1
          · simp [putField, hfeq, hgk, heq]
          · simp [putField, hfk, hfeq, hgk, heq, ih]

/-- Two fields of different names may be put in one after the other or the other way round. -/
theorem putField_comm {f g : String × β} (h : f.1 ≠ g.1) (fs : List (String × β)) :
    putField f (putField g fs) = putField g (putField f fs) := by
  by_cases hlt : f.1 < g.1
  · exact putField_comm_of_lt hlt fs
  · exact (putField_comm_of_lt (Std.lt_of_le_of_ne hlt h.symm) fs).symm

theorem sortedFields_of_perm {fs gs : List (String × β)} (names : (fs.map Prod.fst).Nodup)
    (order : fs.Perm gs) : sortedFields fs = sortedFields gs := by
  refine order.foldl_eq' (fun f hf g hg z => ?_) []
  by_cases hname : f.1 = g.1
  · rw [List.inj_on_of_nodup_map names hf hg hname]
  · exact putField_comm (Ne.symm hname) z

/-- A field of a new name is added to those that are there. -/
theorem putField_perm {f : String × β} {fs : List (String × β)} (h : f.1 ∉ fs.map Prod.fst) :
    (putField f fs).Perm (f :: fs) := by
  induction fs with
  | nil => exact .refl _
  | cons g fs ih =>
    rw [List.map_cons, List.mem_cons, not_or] at h
    rw [putField, if_neg h.1]
    split_ifs
    · exact .refl _
    · exact ((ih h.2).cons g).trans (.swap f g fs)

theorem sortedFields_perm {fs : List (String × β)} (names : (fs.map Prod.fst).Nodup) :
    (sortedFields fs).Perm fs := by
  induction fs using List.reverseRecOn with
  | nil => exact .refl _
  | append_singleton fs f ih =>
    rw [List.map_append, List.map_singleton, List.nodup_append] at names
    have hsorted := ih names.1
    have hf : f.1 ∉ (sortedFields fs).map Prod.fst := by
      rw [(hsorted.map _).mem_iff]
      exact fun hmem => names.2.2 _ hmem _ (List.mem_singleton_self _) rfl
    rw [sortedFields, List.foldl_append]
    exact ((putField_perm hf).trans (hsorted.cons f)).trans (List.perm_append_singleton f fs).symm

variable {R : β → γ → Prop}

theorem putField_rel {f : String × β} {g : String × γ} (hfg : FieldRel R f g)
    {fs : List (String × β)} {gs : List (String × γ)} (h : List.Forall₂ (FieldRel R) fs gs) :
    List.Forall₂ (FieldRel R) (putField f fs) (putField g gs) := by
  induction h with
  | nil => exact .cons hfg .nil
  | @cons k l fs gs hkl hrest ih =>
    rw [putField, putField, ← hfg.1, ← hkl.1]
    split_ifs
    · exact .cons hfg (.cons hkl hrest)
    · exact .cons hfg hrest
    · exact .cons hkl ih

/-- Sorting looks at the names only. -/
theorem sortedFields_rel {fs : List (String × β)} {gs : List (String × γ)}
    (h : List.Forall₂ (FieldRel R) fs gs) :
    List.Forall₂ (FieldRel R) (sortedFields fs) (sortedFields gs) := by
  suffices hfold : ∀ ks ls, List.Forall₂ (FieldRel R) ks ls → List.Forall₂ (FieldRel R)
      (fs.foldl (fun ks f => putField f ks) ks) (gs.foldl (fun ls g => putField g ls) ls) from
    hfold [] [] .nil
  induction h with
  | nil => exact fun ks ls hkl => hkl
  | cons hfg _ ih => exact fun ks ls hkl => ih _ _ (putField_rel hfg hkl)

end Sorted

theorem compactItems_eq (xs : List Json) : compactItems xs = xs.map compact := by
  induction xs with
  | nil => rfl
  | cons x xs ih => rw [compactItems, ih, List.map_cons]

theorem compactFields_eq (fs : List (String × Json)) :
    compactFields fs = fs.map fun f => (f.1, f.2.compact) := by
  induction fs with
  | nil => rfl
  | cons f fs ih => rw [compactFields, ih, List.map_cons]

/-- The compact text does not show the order of fields. -/
theorem compact_of_reordered {x y : Json} (h : Reordered x y) : x.compact = y.compact := by
  induction h with
  | @here fs gs names order =>
    have hsorted : sortedFields (compactFields fs) = sortedFields (compactFields gs) := by
      rw [compactFields_eq, compactFields_eq]
      refine sortedFields_of_perm ?_ (order.map _)
      rwa [List.map_map]
    rw [compact, compact, hsorted]
  | item xs ys inner ih => simp only [compact, compactItems_eq, List.map_append, List.map_cons, ih]
  | field fs gs name inner ih =>
    simp only [compact, compactFields_eq, List.map_append, List.map_cons, ih]

/-- The fields of an object and those of a reordered one hold alike values under every name. -/
theorem lastField?_of_reordered {fs gs : List (String × Json)}
    (h : Reordered (.object fs) (.object gs)) (name : String) :
    Option.Rel Alike (lastField? name fs) (lastField? name gs) := by
  cases h with
  | here names order =>
    rw [lastField?_of_perm names order]
    exact lastField?_rel (fieldRel_rfl (fun _ => .refl) gs)
  | field fs gs name inner =>
    exact lastField?_rel (fieldRel_replace (fun _ => .refl) (.single inner) fs gs name)

/-- Only arrays and objects have anything to reorder. -/
theorem compound_of_reordered {x y : Json} (h : Reordered x y) :
    (∃ xs ys, x = .array xs ∧ y = .array ys ∧ List.Forall₂ Alike xs ys) ∨
      ∃ fs gs, x = .object fs ∧ y = .object gs := by
  cases h with
  | here names order => exact .inr ⟨_, _, rfl, rfl⟩
  | field fs gs name inner => exact .inr ⟨_, _, rfl, rfl⟩
  | item xs ys inner =>
    refine .inl ⟨_, _, rfl, rfl, List.rel_append (List.forall₂_refl xs) ?_⟩
    exact .cons (.single inner) (List.forall₂_refl ys)

end DataflowSql.Json

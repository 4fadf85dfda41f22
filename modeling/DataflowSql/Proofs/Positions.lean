import DataflowSql.Operation.Extract
import DataflowSql.Proofs.Expression
import DataflowSql.Proofs.Reckoning

/-! Positions of needles and of slices. A search from a position on is written in each dialect's own
way, and gives the same number wherever the needle is found. So the start and the length of a slice
have the values that its settings ask for, in every dialect. A needle that is not found is another
matter: PostgreSQL adds back what it skipped to nothing. -/
namespace DataflowSql

open Sql

namespace Denotes

variable {s : Session} {u w : String} {a b : Int}

/-- The terms of a sum that is added join those on the left. -/
theorem add (hu : Denotes s .sum u (.number a)) (hw : Denotes s .sum w (.number b)) :
    Denotes s .sum (u ++ " + " ++ w) (.number (a + b)) := by
  generalize hrank : Rank.sum = rank, hvalue : Value.number b = v at hw
  induction hw generalizing b with
  | lone hw =>
    subst hvalue
    exact .plus hu hw
  | plus hv hw ih =>
    cases hvalue
    rw [← Int.add_assoc]
    simpa only [String.append_assoc] using (ih rfl rfl).plus hw
  | minus hv hw ih =>
    cases hvalue
    rw [← Int.add_sub_assoc]
    simpa only [String.append_assoc] using (ih rfl rfl).minus hw
  | _ => cases hrank

variable {α : Type} {column : α → String} {x y z : Expr α} {v v₁ v₂ v₃ : Value}

theorem integer (s : Session) (column : α → String) {n : Int} (hn : 0 ≤ n) :
    Denotes s .term ((Expr.integer n : Expr α).sql s.dialect column) (.number n) := by
  obtain ⟨k, rfl⟩ := Int.eq_ofNat_of_zero_le hn
  exact .number k

theorem sum_plus (hx : Denotes s .sum (x.sql s.dialect column) (.number a))
    (hy : Denotes s .sum (y.sql s.dialect column) (.number b)) :
    Denotes s .sum ((x.plus y).sql s.dialect column) (.number (a + b)) := by
  rw [Expr.plus_sql]
  exact hx.add hy

theorem sum_minus (hx : Denotes s .sum (x.sql s.dialect column) (.number a))
    (hy : Denotes s .term (y.sql s.dialect column) (.number b)) :
    Denotes s .sum ((x.minus y).sql s.dialect column) (.number (a - b)) := by
  have htext : (x.minus y).sql s.dialect column =
      x.sql s.dialect column ++ " - " ++ y.sql s.dialect column := by
    simp [Expr.minus, Expr.sql, Binary.frame]
  rw [htext]
  exact hx.minus hy

theorem unary {f : Unary} (g : TextFunction) (hf : f.frame = (g.name ++ "(", ")"))
    (hx : Denotes s .sum (x.sql s.dialect column) v₁)
    (hv : s.dialect.apply g [] [v₁] = some v) :
    Denotes s .term ((Expr.unary f x).sql s.dialect column) v := by
  rw [Expr.sql, hf]
  exact .call₁ hx hv

theorem binary {f : Binary} (g : TextFunction) (p : Separator)
    (hf : f.frame = (g.name ++ "(", p.text, ")"))
    (hx : Denotes s .sum (x.sql s.dialect column) v₁)
    (hy : Denotes s .sum (y.sql s.dialect column) v₂)
    (hv : s.dialect.apply g [p] [v₁, v₂] = some v) :
    Denotes s .term ((Expr.binary f x y).sql s.dialect column) v := by
  rw [Expr.sql, hf]
  exact .call₂ hx hy hv

theorem ternary {f : Ternary} (g : TextFunction) (p q : Separator)
    (hf : f.frame = (g.name ++ "(", p.text, q.text, ")"))
    (hx : Denotes s .sum (x.sql s.dialect column) v₁)
    (hy : Denotes s .sum (y.sql s.dialect column) v₂)
    (hz : Denotes s .sum (z.sql s.dialect column) v₃)
    (hv : s.dialect.apply g [p, q] [v₁, v₂, v₃] = some v) :
    Denotes s .term ((Expr.ternary f x y z).sql s.dialect column) v := by
  rw [Expr.sql, hf]
  exact .call₃ hx hy hz hv

theorem cast_frame {f : Unary} {t : List Char} {g : TextCast} (hg : g ∈ s.dialect.textCasts)
    (hf : f.frame = (g.word ++ g.opening, g.closing))
    (hx : Denotes s .sum (x.sql s.dialect column) (.text t)) :
    Denotes s .term ((Expr.unary f x).sql s.dialect column) (.text t) := by
  rw [Expr.sql, hf]
  exact .cast hg hx

theorem castToText {t : List Char} (hx : Denotes s .sum (x.sql s.dialect column) (.text t))
    (typeName : String) :
    Denotes s .term ((s.dialect.castToText x typeName).sql s.dialect column) (.text t) := by
  obtain ⟨d, escapes, row⟩ := s
  cases d with
  | mySql => exact cast_frame (g := ⟨"CAST", "(", " AS CHAR)"⟩) (.head _) (by decide) hx
  | postgreSql => exact cast_frame (g := ⟨"CAST", "(", " AS TEXT)"⟩) (.head _) (by decide) hx
  | sqlServer =>
    unfold Dialect.castToText
    dsimp only
    split_ifs
    · exact cast_frame (g := ⟨"CONVERT", "(NVARCHAR(MAX), ", ", 120)"⟩) (.tail _ (.head _))
        (by decide) hx
    · exact cast_frame (g := ⟨"CAST", "(", " AS NVARCHAR(MAX))"⟩) (.head _) (by decide) hx

variable {needle t : List Char} {k l : Int}

theorem lengthForm (hx : Denotes s .sum (x.sql s.dialect column) (.text t)) :
    Denotes s .term ((Expr.unary s.dialect.lengthForm x).sql s.dialect column)
      (.number t.length) := by
  obtain ⟨d, escapes, row⟩ := s
  cases d with
  | mySql => exact hx.unary (f := .length) .length (by decide) rfl
  | postgreSql => exact hx.unary (f := .length) .length (by decide) rfl
  | sqlServer => exact hx.unary (f := .len) .len (by decide) rfl

theorem substring (hx : Denotes s .sum (x.sql s.dialect column) (.text t))
    (hy : Denotes s .sum (y.sql s.dialect column) (.number k))
    (hz : Denotes s .sum (z.sql s.dialect column) (.number l)) (hk : 1 ≤ k) (hl : 0 ≤ l) :
    Denotes s .term ((s.dialect.substring x y z).sql s.dialect column)
      (.text ((t.drop (k.toNat - 1)).take l.toNat)) := by
  have hslice := congrArg (fun cs => cs.map Value.text) (slice_eq (t := t) hk hl)
  obtain ⟨d, escapes, row⟩ := s
  cases d with
  | mySql => exact hx.ternary .substring .comma .comma (by decide) hy hz hslice
  | postgreSql => exact hx.ternary .substring .fromWord .forWord (by decide) hy hz hslice
  | sqlServer => exact hx.ternary .substring .comma .comma (by decide) hy hz hslice

/-- A search from the beginning. -/
theorem locate (hx : Denotes s .sum (x.sql s.dialect column) (.text needle))
    (hy : Denotes s .sum (y.sql s.dialect column) (.text t)) (hneedle : needle ≠ []) :
    Denotes s .term ((s.dialect.locate x y none).sql s.dialect column)
      (.number (firstFrom needle t 1)) := by
  have hsearch := search_eq (t := t) hneedle (Int.le_refl 1)
  obtain ⟨d, escapes, row⟩ := s
  cases d with
  | mySql => exact hx.binary .locate .comma (by decide) hy hsearch
  | postgreSql => exact hx.binary .position .inWord (by decide) hy hsearch
  | sqlServer => exact hx.binary .charIndex .comma (by decide) hy hsearch

end Denotes

namespace Dialect

/-- What the dialect's search from position `k` on gives. -/
def located (d : Dialect) (needle t : List Char) (k : Int) : Int :=
  match d with
  | .postgreSql => firstFrom needle (t.drop (k.toNat - 1)) 1 + k - 1
  | _ => firstFrom needle t k

end Dialect

namespace Denotes

theorem locate_from {s : Session} {α : Type} {column : α → String} {x y z : Expr α}
    {needle t : List Char} {k : Int} (hx : Denotes s .sum (x.sql s.dialect column) (.text needle))
    (hy : Denotes s .sum (y.sql s.dialect column) (.text t))
    (hz : Denotes s .sum (z.sql s.dialect column) (.number k)) (hneedle : needle ≠ [])
    (hk : 1 ≤ k) :
    Denotes s .term ((s.dialect.locate x y (some z)).sql s.dialect column)
      (.number (s.dialect.located needle t k)) := by
  have hsearch := search_eq (t := t) hneedle hk
  obtain ⟨d, escapes, row⟩ := s
  cases d with
  | mySql => exact hx.ternary .locate .comma .comma (by decide) hy hz hsearch
  | sqlServer => exact hx.ternary .charIndex .comma .comma (by decide) hy hz hsearch
  | postgreSql =>
    have hbehind := congrArg (fun cs => cs.map Value.text) (behind_eq (t := t) hk)
    have hrest := hy.binary (f := .substringFrom) .substring .fromWord (by decide) hz hbehind
    have hfound := hx.binary (f := .positionIn) .position .inWord (by decide) hrest.lone
      (search_eq (t := t.drop (k.toNat - 1)) hneedle (Int.le_refl 1))
    exact .group ((hfound.lone.sum_plus hz).sum_minus (.integer _ _ (by decide)))

end Denotes

namespace Dialect

variable {needle t : List Char} {k : Int} {p : Nat}

theorem located_of_isFirst (d : Dialect) (hneedle : needle ≠ []) (hk : 1 ≤ k)
    (h : IsFirst needle t k p) : d.located needle t k = p := by
  have hfirst := firstFrom_eq hneedle h
  cases d with
  | mySql => exact congrArg Nat.cast hfirst
  | sqlServer => exact congrArg Nat.cast hfirst
  | postgreSql =>
    have hstart := h.start_le
    obtain ⟨j, rfl⟩ : ∃ j : Nat, k = j + 1 := ⟨k.toNat - 1, by omega⟩
    obtain ⟨q, rfl⟩ : ∃ q, p = j + q := ⟨p - j, by omega⟩
    have hj : (j + 1 : Int).toNat - 1 = j := by omega
    rw [located, hj, firstFrom_eq hneedle h.of_drop]
    omega

theorem located_of_absent (d : Dialect) (hk : 1 ≤ k)
    (h : ∀ p : Nat, k ≤ p → ¬ StandsAt needle t p) :
    d.located needle t k = if d = .postgreSql then k - 1 else 0 := by
  have hnone := firstFrom_eq_zero h
  cases d with
  | mySql => exact congrArg Nat.cast hnone
  | sqlServer => exact congrArg Nat.cast hnone
  | postgreSql =>
    have hrest : firstFrom needle (t.drop (k.toNat - 1)) 1 = 0 := by
      refine firstFrom_eq_zero fun q hq hstands => ?_
      exact h (k.toNat - 1 + q) (by omega) ((standsAt_drop (by omega)).mp hstands)
    rw [located, hrest, if_pos rfl]
    omega

/-- A search from position `k` on gives the least position at which the needle stands, in every
dialect. If it stands nowhere, PostgreSQL gives `k - 1` and the others zero, so that they agree
exactly if the needle is found or the search is from the beginning. -/
theorem locate_value {α : Type} (s : Session) (column : α → String) {x y z : Expr α}
    (hx : Denotes s .sum (x.sql s.dialect column) (.text needle))
    (hy : Denotes s .sum (y.sql s.dialect column) (.text t))
    (hz : Denotes s .sum (z.sql s.dialect column) (.number k)) (hneedle : needle ≠ [])
    (hk : 1 ≤ k) :
    (∀ p, IsFirst needle t k p →
      s.evaluate ((s.dialect.locate x y (some z)).sql s.dialect column) = some (.number p)) ∧
    ((∀ p : Nat, k ≤ p → ¬ StandsAt needle t p) →
      s.evaluate ((s.dialect.locate x y (some z)).sql s.dialect column) =
        some (.number (if s.dialect = .postgreSql then k - 1 else 0))) ∧
    (s.evaluate ((s.dialect.locate x y (some z)).sql s.dialect column) =
        some (.number (firstFrom needle t k)) ↔
      s.dialect ≠ .postgreSql ∨ (∃ p, IsFirst needle t k p) ∨ k = 1) := by
  rw [(hx.locate_from hy hz hneedle hk).lone.evaluate]
  refine ⟨fun p hp => ?_, fun habsent => ?_, ?_⟩
  · rw [located_of_isFirst _ hneedle hk hp]
  · rw [located_of_absent _ hk habsent]
  · rw [Option.some.injEq, Value.number.injEq]
    rcases isFirst_or_absent needle t k with ⟨p, hp⟩ | habsent
    · rw [located_of_isFirst _ hneedle hk hp, firstFrom_eq hneedle hp]
      exact iff_of_true rfl (.inr (.inl ⟨p, hp⟩))
    · have hnever : ¬ ∃ p, IsFirst needle t k p := fun ⟨p, hp⟩ =>
        habsent p hp.start_le hp.stands
      rw [located_of_absent _ hk habsent, firstFrom_eq_zero habsent]
      by_cases hd : s.dialect = .postgreSql
      · simp only [hd, if_pos, ne_eq, not_true_eq_false, hnever, false_or]
        omega
      · simp [hd]

/-- A row with a text in it twice. -/
def repeating : Session := ⟨.postgreSql, true, fun _ => "it's, it's".toList⟩

/-- The second one is found by a search that starts behind the first character. -/
theorem locate_value_repeating :
    repeating.evaluate ((postgreSql.locate (.text "it's") (.column (.output 0))
        (some (.plus (.integer 1) (.integer 1)))).sql .postgreSql (ColumnRef.sql .postgreSql)) =
      some (.number 7) := by
  have hone := (Denotes.integer repeating (ColumnRef.sql .postgreSql) (Int.one_nonneg)).lone
  exact (locate_value repeating _ (.lone (.text "it's" (by decide))) (.lone (.column 0))
    (hone.sum_plus hone) (by decide) (by decide)).1 7 (by decide)

/-- A search behind the first character of `abc` for what is not there. -/
def missed (d : Dialect) : Option Value :=
  Session.evaluate ⟨d, false, fun _ => "abc".toList⟩
    ((d.locate (.text "z") (.column (.output 0)) (some (.integer 2))).sql d (ColumnRef.sql d))

theorem locate_missed : missed .postgreSql = some (.number 1) ∧
    missed .mySql = some (.number 0) ∧ missed .sqlServer = some (.number 0) := by
  decide +kernel

end Dialect

namespace Extract

/-- Position of the first character of the slice of `t`, where its needle stands in `t`. -/
inductive IsStart (e : Extract) (t : List Char) : Int → Prop
  | beginning (h : e.startType = .beginning) : IsStart e t 1
  | position {n : Int} (h : e.startType = .position) (hn : e.startPosition = some n)
      (pos : 1 ≤ n) : IsStart e t n
  | firstOccurrence {needle : String} {p : Nat} (h : e.startType = .firstOccurrence)
      (hneedle : e.startSearch = some needle) (ne : needle ≠ "")
      (first : IsFirst needle.toList t 1 p) : IsStart e t p
  | afterFirstOccurrence {needle : String} {p : Nat} (h : e.startType = .afterFirstOccurrence)
      (hneedle : e.startSearch = some needle) (ne : needle ≠ "")
      (first : IsFirst needle.toList t 1 p) : IsStart e t (p + needle.length)

/-- Number of characters of the slice of `t` from position `start` on. The next occurrence is one
behind that position. -/
inductive IsLength (e : Extract) (t : List Char) (start : Int) : Int → Prop
  | finish (h : e.endType = .finish) : IsLength e t start t.length
  | position {n : Int} (h : e.endType = .position) (hn : e.endPosition = some n) (pos : 1 ≤ n) :
      IsLength e t start (n - start + 1)
  | length {n : Int} (h : e.endType = .length) (hn : e.endLength = some n) (pos : 1 ≤ n) :
      IsLength e t start n
  | nextOccurrence {needle : String} {p : Nat} (h : e.endType = .nextOccurrence)
      (hneedle : e.endSearch = some needle) (ne : needle ≠ "")
      (first : IsFirst needle.toList t (start + 1) p) : IsLength e t start (p - start)
  | afterNextOccurrence {needle : String} {p : Nat} (h : e.endType = .afterNextOccurrence)
      (hneedle : e.endSearch = some needle) (ne : needle ≠ "")
      (first : IsFirst needle.toList t (start + 1) p) :
      IsLength e t start (p + needle.length - start)

/-- Where backslashes count, the texts to look for have none. -/
def Plain (e : Extract) (s : Session) : Prop :=
  s.escapes = true → ∀ needle ∈ e.startSearch.toList ++ e.endSearch.toList, '\\' ∉ needle.toList

variable {e : Extract} {s : Session} {id : String} {text x : Expr ColumnRef} {t : List Char}
  {k l : Int}

theorem needle_of_some {value : Option String} {setting : Setting} {needle : String}
    (h : value = some needle) (hne : needle ≠ "") :
    (Extract.needle id value setting).result = .ok needle := by
  simp [Extract.needle, h, hne]

theorem positive_of_some {value : Option Int} {setting : Setting} {n : Int}
    (h : value = some n) (hn : 1 ≤ n) : (positive id value setting).result = .ok n := by
  simp [positive, h, hn]

theorem IsStart.exists_start (id : String) (h : e.IsStart t k) (plain : e.Plain s)
    (ht : Denotes s .sum (text.sql s.dialect (ColumnRef.sql s.dialect)) (.text t)) :
    1 ≤ k ∧ ∃ x, (e.start s.dialect id text).result = .ok x ∧
      Denotes s .term (x.sql s.dialect (ColumnRef.sql s.dialect)) (.number k) := by
  -- a search for the needle gives its first position
  have hfound {needle : String} {p : Nat} (hneedle : e.startSearch = some needle)
      (hne : needle ≠ "") (first : IsFirst needle.toList t 1 p) :
      1 ≤ p ∧ Denotes s .term ((s.dialect.locate (.text needle) text none).sql s.dialect
        (ColumnRef.sql s.dialect)) (.number p) := by
    have hchars : needle.toList ≠ [] := by simpa using hne
    have hliteral := Denotes.text needle fun h => plain h needle (by simp [hneedle])
    have hlocate := Denotes.locate (x := .text needle) (.lone hliteral) ht hchars
    rw [firstFrom_eq hchars first] at hlocate
    exact ⟨first.stands.1, hlocate⟩
  cases h with
  | beginning h =>
    refine ⟨by omega, .integer 1, ?_, .integer _ _ (by decide)⟩
    rw [Extract.start, h]
    rfl
  | position h hn pos =>
    refine ⟨pos, .integer k, ?_, .integer _ _ (by omega)⟩
    rw [Extract.start, h]
    exact Outcome.bind_eq_ok.mpr ⟨_, positive_of_some hn pos, rfl⟩
  | @firstOccurrence needle p h hneedle ne first =>
    obtain ⟨hp, hlocate⟩ := hfound hneedle ne first
    refine ⟨by omega, _, ?_, hlocate⟩
    rw [Extract.start, h]
    exact Outcome.bind_eq_ok.mpr ⟨_, needle_of_some hneedle ne, rfl⟩
  | @afterFirstOccurrence needle p h hneedle ne first =>
    obtain ⟨hp, hlocate⟩ := hfound hneedle ne first
    have hlength := Denotes.integer s (ColumnRef.sql s.dialect) (Int.natCast_nonneg needle.length)
    refine ⟨by omega, .group _, ?_, .group (hlocate.lone.sum_plus hlength.lone)⟩
    rw [Extract.start, h]
    exact Outcome.bind_eq_ok.mpr ⟨_, needle_of_some hneedle ne, rfl⟩

theorem IsLength.exists_sliceLength (id : String) (h : e.IsLength t k l) (plain : e.Plain s)
    (hk : 1 ≤ k)
    (ht : Denotes s .sum (text.sql s.dialect (ColumnRef.sql s.dialect)) (.text t))
    (hx : Denotes s .term (x.sql s.dialect (ColumnRef.sql s.dialect)) (.number k)) :
    ∃ y, (e.sliceLength s.dialect id text x).result = .ok y ∧
      Denotes s .sum (y.sql s.dialect (ColumnRef.sql s.dialect)) (.number l) := by
  -- a search for the needle behind the start gives its next position
  have hnext {needle : String} {p : Nat} (hneedle : e.endSearch = some needle)
      (hne : needle ≠ "") (first : IsFirst needle.toList t (k + 1) p) :
      Denotes s .term ((s.dialect.locate (.text needle) text
        (some (.plus x (.integer 1)))).sql s.dialect (ColumnRef.sql s.dialect)) (.number p) := by
    have hchars : needle.toList ≠ [] := by simpa using hne
    have hliteral := Denotes.text needle fun h => plain h needle (by simp [hneedle])
    have hbehind := hx.lone.sum_plus (.lone (.integer _ _ (n := 1) (by decide)))
    have hlocate := Denotes.locate_from (x := .text needle) (.lone hliteral) ht hbehind hchars
      (by omega)
    rw [Dialect.located_of_isFirst _ hchars (by omega) first] at hlocate
    exact hlocate
  cases h with
  | finish h =>
    refine ⟨_, ?_, .lone ht.lengthForm⟩
    rw [Extract.sliceLength, h]
    rfl
  | @position n h hn pos =>
    have hlast := Denotes.integer s (ColumnRef.sql s.dialect) (n := n) (by omega)
    refine ⟨_, ?_, (hlast.lone.sum_minus hx).sum_plus (.lone (.integer _ _ (by decide)))⟩
    rw [Extract.sliceLength, h]
    exact Outcome.bind_eq_ok.mpr ⟨_, positive_of_some hn pos, rfl⟩
  | length h hn pos =>
    refine ⟨.integer l, ?_, .lone (.integer _ _ (by omega))⟩
    rw [Extract.sliceLength, h]
    exact Outcome.bind_eq_ok.mpr ⟨_, positive_of_some hn pos, rfl⟩
  | nextOccurrence h hneedle ne first =>
    refine ⟨_, ?_, (hnext hneedle ne first).lone.sum_minus hx⟩
    rw [Extract.sliceLength, h]
    exact Outcome.bind_eq_ok.mpr ⟨_, needle_of_some hneedle ne, rfl⟩
  | @afterNextOccurrence needle p h hneedle ne first =>
    have hlength := Denotes.integer s (ColumnRef.sql s.dialect) (Int.natCast_nonneg needle.length)
    refine ⟨_, ?_, ((hnext hneedle ne first).lone.sum_plus hlength.lone).sum_minus hx⟩
    rw [Extract.sliceLength, h]
    exact Outcome.bind_eq_ok.mpr ⟨_, needle_of_some hneedle ne, rfl⟩

/-- What is sliced is the text of the column, cast if it has to be. -/
theorem exists_slice (s : Session) (id : String) (input : Unit → Outcome Projection)
    {p : Projection} {index : Nat} {source : Column} (hindex : e.inputColumnIndex = some index)
    (hp : (input ()).result = .ok p) (hsource : p[index]? = some source) :
    ∃ text : Expr ColumnRef,
      Denotes s .sum (text.sql s.dialect (ColumnRef.sql s.dialect)) (.text (s.row index)) ∧
      ∀ x y, (e.start s.dialect id text).result = .ok x →
        (e.sliceLength s.dialect id text x).result = .ok y →
        (e.slice s.dialect id input).result = .ok (s.dialect.substring text x y) := by
  have hcolumn : Denotes s .sum ((Expr.column (.output index)).sql s.dialect
      (ColumnRef.sql s.dialect)) (.text (s.row index)) := .lone (.column index)
  refine ⟨if s.dialect.needsCastToSlice source.type then
    s.dialect.castToText (.column (.output index)) source.type else .column (.output index), ?_, ?_⟩
  · split_ifs
    · exact (hcolumn.castToText source.type).lone
    · exact hcolumn
  · intro x y hx hy
    have hset : (e.sourceIndex id).result = .ok index := by simp [sourceIndex, hindex]
    have hfound : (p.column id index).result = .ok source := by simp [Projection.column, hsource]
    rw [slice, Outcome.result_bind_of_ok hset, Outcome.result_bind_of_ok hp,
      Outcome.result_bind_of_ok hfound]
    exact Outcome.bind_eq_ok.mpr ⟨x, hx, Outcome.bind_eq_ok.mpr ⟨y, hy, rfl⟩⟩

/-- A slice starts and ends where its settings ask for, in every dialect: its start and its length
are written as texts that stand for the position and the number of characters asked for, and with
them the slice is the part of the text between them. -/
theorem slice_positions (s : Session) (e : Extract) (id : String)
    (input : Unit → Outcome Projection) {p : Projection} {index : Nat} {source : Column}
    (hindex : e.inputColumnIndex = some index) (hp : (input ()).result = .ok p)
    (hsource : p[index]? = some source) (plain : e.Plain s)
    (hk : e.IsStart (s.row index) k) (hl : e.IsLength (s.row index) k l) :
    ∃ text start length : Expr ColumnRef,
      (e.slice s.dialect id input).result = .ok (s.dialect.substring text start length) ∧
      s.evaluate (text.sql s.dialect (ColumnRef.sql s.dialect)) = some (.text (s.row index)) ∧
      s.evaluate (start.sql s.dialect (ColumnRef.sql s.dialect)) = some (.number k) ∧
      s.evaluate (length.sql s.dialect (ColumnRef.sql s.dialect)) = some (.number l) ∧
      (0 ≤ l → s.evaluate
          ((s.dialect.substring text start length).sql s.dialect (ColumnRef.sql s.dialect)) =
        some (.text (((s.row index).drop (k.toNat - 1)).take l.toNat))) := by
  obtain ⟨text, htext, hslice⟩ := exists_slice s id input hindex hp hsource
  obtain ⟨hpos, x, hx, hstart⟩ := hk.exists_start id plain htext
  obtain ⟨y, hy, hlength⟩ := hl.exists_sliceLength id plain hpos htext hstart
  refine ⟨text, x, y, hslice x y hx hy, htext.evaluate, hstart.lone.evaluate, hlength.evaluate, ?_⟩
  intro hnonneg
  exact (htext.substring hstart.lone hlength hpos hnonneg).lone.evaluate

/-- Cuts what stands between the first opening bracket behind an equals sign and the next closing
bracket. -/
def bracketed : Extract where
  inputColumnIndex := some 0
  startType := .afterFirstOccurrence
  startPosition := none
  startSearch := some "=["
  endType := .nextOccurrence
  endPosition := none
  endLength := none
  endSearch := some "]"
  columnName := none

/-- A search whose start is itself found by a search, on a column that is cast. -/
theorem slice_positions_bracketed : ∃ text start length : Expr ColumnRef,
    (bracketed.slice .postgreSql "cut" fun _ => .ok [⟨"pair", "jsonb"⟩]).result =
      .ok (Dialect.postgreSql.substring text start length) ∧
    Session.evaluate ⟨.postgreSql, true, fun _ => "key=[a=b]; key=[c]".toList⟩
        ((Dialect.postgreSql.substring text start length).sql .postgreSql
          (ColumnRef.sql .postgreSql)) = some (.text "a=b".toList) := by
  have hopening : IsFirst "=[".toList "key=[a=b]; key=[c]".toList 1 4 := by decide
  have hclosing : IsFirst "]".toList "key=[a=b]; key=[c]".toList (6 + 1) 9 := by decide
  obtain ⟨text, start, length, hslice, -, -, -, hcut⟩ :=
    slice_positions ⟨.postgreSql, true, fun _ => "key=[a=b]; key=[c]".toList⟩ bracketed "cut"
      (fun _ => .ok [⟨"pair", "jsonb"⟩]) rfl rfl rfl (fun _ => by decide)
      (.afterFirstOccurrence rfl rfl (by decide) hopening)
      (.nextOccurrence rfl rfl (by decide) hclosing)
  exact ⟨text, start, length, hslice, hcut (by decide)⟩

end Extract

end DataflowSql

import DataflowSql.Dialect.Functions
import DataflowSql.Operation
import DataflowSql.Proofs.Outcome
import DataflowSql.Proofs.Phrase

/-! Expressions and conditions are phrases, whatever the values and the column names in them. -/
namespace DataflowSql

namespace Sql

/-- How deep the first part of a form leaves its operands. -/
def frameDepth (w : String) : Nat := w.toList.count '(' - w.toList.count ')'

variable {d : Dialect}

theorem unary_frame (f : Unary) : fits d 0 f.frame.1 (frameDepth f.frame.1) = true ∧
    closes d (frameDepth f.frame.1) f.frame.2 = true := by
  cases f <;> cases d <;> decide +kernel

theorem binary_frame (f : Binary) : fits d 0 f.frame.1 (frameDepth f.frame.1) = true ∧
    links d (frameDepth f.frame.1) f.frame.2.1 (frameDepth f.frame.1) = true ∧
    closes d (frameDepth f.frame.1) f.frame.2.2 = true := by
  cases f <;> cases d <;> decide +kernel

theorem ternary_frame (f : Ternary) : fits d 0 f.frame.1 (frameDepth f.frame.1) = true ∧
    links d (frameDepth f.frame.1) f.frame.2.1 (frameDepth f.frame.1) = true ∧
    links d (frameDepth f.frame.1) f.frame.2.2.1 (frameDepth f.frame.1) = true ∧
    closes d (frameDepth f.frame.1) f.frame.2.2.2 = true := by
  cases f <;> cases d <;> decide +kernel

theorem quote_not_mem_hours (h : Int) : '\'' ∉ (toString h ++ " hours").toList := by
  intro hquote
  rw [String.toList_append, List.mem_append] at hquote
  rcases hquote with hquote | hquote
  · have hbare := Nesting.bare_of_checks (checks_int (n := 0) h) '\'' (List.mem_map_of_mem hquote)
    revert hbare
    decide
  · revert hquote
    decide

/-- The hours stand between quotes, so they are one token whatever their sign. -/
theorem phrase_intervalHours (h : Int) : Phrase d (Clock.intervalHours h).text := by
  have hbefore : "NOW() + INTERVAL '" = "NOW() + INTERVAL " ++ "'" := by decide
  have hafter : " hours'" = " hours" ++ "'" := by decide
  have htext : "NOW() + INTERVAL '" ++ toString h ++ " hours'" = "NOW() + INTERVAL " ++
      String.ofList (Dialect.stringChars (toString h ++ " hours").toList) := by
    rw [stringChars_eq (quote_not_mem_hours h)]
    calc "NOW() + INTERVAL '" ++ toString h ++ " hours'"
        = ("NOW() + INTERVAL " ++ "'") ++ toString h ++ (" hours" ++ "'") := by
          rw [← hbefore, ← hafter]
      _ = "NOW() + INTERVAL " ++ ("'" ++ (toString h ++ " hours") ++ "'") := by
          rw [String.append_assoc, String.append_assoc, String.append_assoc, String.append_assoc]
  change Phrase d ("NOW() + INTERVAL '" ++ toString h ++ " hours'")
  rw [htext]
  exact Phrase.headed (takes_string _) (by cases d <;> decide)

theorem phrase_clock (m : Clock) : Phrase d m.text := by
  cases m with
  | dateAddHours h =>
    exact (phrase_int h).enclose (a := 1) (by cases d <;> decide) (by cases d <;> decide)
  | dateAddHourPart h =>
    exact (phrase_int h).enclose (a := 1) (by cases d <;> decide) (by cases d <;> decide)
  | intervalHours h => exact phrase_intervalHours h
  | _ => exact phrase_of_fits (by cases d <;> decide)

/-- Expressions whose text is a phrase. -/
def Expr.IsPhrase (d : Dialect) (e : Expr ColumnRef) : Prop := Phrase d (e.sql d (ColumnRef.sql d))

namespace Expr

variable {x y z : Expr ColumnRef}

theorem isPhrase_output (index : Nat) : IsPhrase d (.column (.output index)) :=
  phrase_name (isName_columnName index)

theorem isPhrase_ranged {r : String} (hr : IsName r) (index : Nat) :
    IsPhrase d (.column (.ranged r index)) :=
  (phrase_name hr).link (by cases d <;> decide) (phrase_name (isName_columnName index))

theorem isPhrase_field {r : String} (hr : IsName r) (name : String) :
    IsPhrase d (.column (.field r name)) :=
  (phrase_name hr).link (by cases d <;> decide) (phrase_quoteIdentifier name)

theorem isPhrase_null : IsPhrase d .null := phrase_of_fits (by cases d <;> decide)

theorem isPhrase_countAll : IsPhrase d .countAll := phrase_of_fits (by cases d <;> decide)

theorem isPhrase_emptyText : IsPhrase d .emptyText := takes_string []

theorem isPhrase_integer (n : Int) : IsPhrase d (.integer n) := phrase_int n

theorem isPhrase_numeral (n : Number.Numeral) : IsPhrase d (.numeral n) := phrase_numeral n

theorem isPhrase_text (s : String) : IsPhrase d (.text s) := phrase_quoteString s

theorem isPhrase_truth (b : Bool) : IsPhrase d (.truth b) :=
  phrase_of_fits (by cases d <;> cases b <;> decide)

theorem isPhrase_clock (m : Clock) : IsPhrase d (.clock m) := phrase_clock m

theorem IsPhrase.unary (hx : x.IsPhrase d) (f : Unary) : IsPhrase d (.unary f x) := by
  obtain ⟨hopen, hclose⟩ := unary_frame (d := d) f
  exact Phrase.enclose hopen hx hclose

theorem IsPhrase.binary (f : Binary) (hx : x.IsPhrase d) (hy : y.IsPhrase d) :
    IsPhrase d (.binary f x y) := by
  obtain ⟨hopen, hmid, hclose⟩ := binary_frame (d := d) f
  intro n
  exact ((((takes_of_fits hopen n).append (hx _)).append (takes_of_links hmid n)).append
    (hy _)).append (takes_of_closes hclose n)

theorem IsPhrase.ternary (f : Ternary) (hx : x.IsPhrase d) (hy : y.IsPhrase d)
    (hz : z.IsPhrase d) : IsPhrase d (.ternary f x y z) := by
  obtain ⟨hopen, hfirst, hsecond, hclose⟩ := ternary_frame (d := d) f
  intro n
  exact ((((((takes_of_fits hopen n).append (hx _)).append (takes_of_links hfirst n)).append
    (hy _)).append (takes_of_links hsecond n)).append (hz _)).append (takes_of_closes hclose n)

theorem IsPhrase.group (hx : x.IsPhrase d) : IsPhrase d x.group := hx.unary .group

theorem IsPhrase.minus (hx : x.IsPhrase d) (hy : y.IsPhrase d) : IsPhrase d (x.minus y) :=
  .binary .minus hx hy

/-- Terms of a sum on the right join those on the left, which the text does not show. -/
theorem plus_sql {α : Type} {column : α → String} (x y : Expr α) :
    (x.plus y).sql d column = x.sql d column ++ " + " ++ y.sql d column := by
  induction y generalizing x with
  | binary f y z ihy ihz =>
    cases f with
    | plus => simp [plus, sql, ihy, Binary.frame, String.append_assoc]
    | minus => simp [plus, sql, ihy, Binary.frame, String.append_assoc]
    | _ => simp [plus, sql, Binary.frame]
  | _ => simp [plus, sql, Binary.frame]

theorem IsPhrase.plus (hx : x.IsPhrase d) (hy : y.IsPhrase d) : IsPhrase d (x.plus y) := by
  rw [IsPhrase, plus_sql]
  exact Phrase.link hx (by cases d <;> decide) hy

end Expr

end Sql

namespace Dialect

open Sql

variable {d : Dialect} {x y z : Expr ColumnRef}

theorem isPhrase_castToText (hx : x.IsPhrase d) (type : String) :
    (d.castToText x type).IsPhrase d := by
  unfold castToText
  split
  · exact hx.unary _
  · exact hx.unary _
  · split
    · exact hx.unary _
    · exact hx.unary _

theorem isPhrase_locate (hx : x.IsPhrase d) (hy : y.IsPhrase d) {start : Option (Expr ColumnRef)}
    (hs : ∀ s ∈ start, s.IsPhrase d) : (d.locate x y start).IsPhrase d := by
  unfold locate
  split
  · exact .binary _ hx hy
  · exact .ternary _ hx hy (hs _ rfl)
  · exact .binary _ hx hy
  · exact .ternary _ hx hy (hs _ rfl)
  · exact .binary _ hx hy
  · have hfound := Expr.IsPhrase.binary .positionIn hx (.binary .substringFrom hy (hs _ rfl))
    exact ((hfound.plus (hs _ rfl)).minus (Expr.isPhrase_integer 1)).group

theorem isPhrase_substring (hx : x.IsPhrase d) (hy : y.IsPhrase d) (hz : z.IsPhrase d) :
    (d.substring x y z).IsPhrase d := by
  unfold substring
  split
  · exact .ternary _ hx hy hz
  · exact .ternary _ hx hy hz

theorem isPhrase_dayOffset (hx : x.IsPhrase d) : (d.dayOffset x).IsPhrase d := by
  unfold dayOffset
  split
  · exact hx.unary _
  · exact ((hx.unary _).minus (Expr.isPhrase_clock _)).group
  · exact hx.unary _

theorem isPhrase_monthOffset (hx : x.IsPhrase d) : (d.monthOffset x).IsPhrase d := by
  have hnow := Expr.isPhrase_clock (d := d) .now
  unfold monthOffset
  split
  · exact .binary _ (hx.unary _) (hnow.unary _)
  · have hyears := ((hx.unary .extractYear).minus (hnow.unary .extractYear)).group
    exact (((hyears.unary _).plus (hx.unary _)).minus (hnow.unary _)).group
  · exact hx.unary _

theorem isPhrase_monthOf (hx : x.IsPhrase d) : (d.monthOf x).IsPhrase d := by
  unfold monthOf
  split
  all_goals exact hx.unary _

theorem isPhrase_yearOf (hx : x.IsPhrase d) : (d.yearOf x).IsPhrase d := by
  unfold yearOf
  split
  all_goals exact hx.unary _

theorem isPhrase_average (hx : x.IsPhrase d) : (d.average x).IsPhrase d := by
  unfold average
  split
  · exact (hx.unary _).unary _
  · exact hx.unary _

theorem isPhrase_textSides (hx : x.IsPhrase d) (hy : y.IsPhrase d) (caseSensitive : Bool) :
    (d.textSides caseSensitive x y).1.IsPhrase d ∧
      (d.textSides caseSensitive x y).2.IsPhrase d := by
  unfold textSides
  split
  · exact ⟨hx.unary _, hy.unary _⟩
  · exact ⟨hx.unary _, hy⟩
  · exact ⟨hx.unary _, hy⟩
  · exact ⟨hx.unary _, hy⟩
  · exact ⟨hx, hy⟩
  · exact ⟨hx, hy⟩

end Dialect

namespace Sql

variable {d : Dialect} {x y z : Expr ColumnRef} {p q : Predicate ColumnRef}

def Predicate.IsPhrase (d : Dialect) (p : Predicate ColumnRef) : Prop :=
  Phrase d (p.sql d (ColumnRef.sql d))

theorem phrase_operatorText {left operator right : String} (hl : Phrase d left)
    (ho : fits d 0 operator 0 = true) (hr : Phrase d right) :
    Phrase d (operatorText left operator right) := by
  have hfirst : links d 0 " " 0 = true := by
    cases d <;> decide
  have hsecond : fits d 0 " " 0 = true := by
    cases d <;> decide
  intro n
  exact ((((hl n).append (takes_of_links hfirst n)).append (takes_of_fits ho n)).append
    (takes_of_fits hsecond n)).append (hr n)

/-- The escape mark is a token of its own. -/
theorem trailer_escapeClause : Trailer d (" " ++ escapeClause) := by
  have htext : escapeClause = "ESCAPE " ++ String.ofList (Dialect.stringChars [likeEscape]) := rfl
  have hclause : Phrase d escapeClause := by
    rw [htext]
    exact Phrase.headed (takes_string _) (by cases d <;> decide)
  exact trailer_of_links (by cases d <;> decide) hclause

namespace Predicate

theorem isPhrase_compare (op : Comparison) (hx : x.IsPhrase d) (hy : y.IsPhrase d) :
    IsPhrase d (.compare op x y) :=
  phrase_operatorText hx (by cases op <;> cases d <;> decide) hy

theorem isPhrase_like (negated : Bool) (hx : x.IsPhrase d) (hy : y.IsPhrase d) :
    IsPhrase d (.like negated x y) := by
  have hword : fits d 0 (likeWord negated) 0 = true := by
    cases negated <;> cases d <;> decide
  rw [IsPhrase, Predicate.sql, String.append_assoc]
  exact (phrase_operatorText hx hword hy).trail trailer_escapeClause

theorem isPhrase_isNull (hx : x.IsPhrase d) : IsPhrase d (.isNull x) :=
  Phrase.trail hx (trailer_of_closes (by cases d <;> decide))

theorem isPhrase_isNotNull (hx : x.IsPhrase d) : IsPhrase d (.isNotNull x) :=
  Phrase.trail hx (trailer_of_closes (by cases d <;> decide))

theorem isPhrase_between (hx : x.IsPhrase d) (hy : y.IsPhrase d) (hz : z.IsPhrase d) :
    IsPhrase d (.between x y z) :=
  (Phrase.link hx (by cases d <;> decide) hy).link (by cases d <;> decide) hz

/-- Two conditions between parentheses. -/
theorem phrase_pair {u v w : String} (hu : Phrase d u) (hv : Phrase d v)
    (hw : links d 1 w 1 = true) : Phrase d ("(" ++ u ++ w ++ v ++ ")") := by
  have hopen : fits d 0 "(" 1 = true := by
    cases d <;> decide
  have hclose : closes d 1 ")" = true := by
    cases d <;> decide
  intro n
  exact ((((takes_of_fits hopen n).append (hu _)).append (takes_of_links hw n)).append
    (hv _)).append (takes_of_closes hclose n)

theorem isPhrase_either (hp : p.IsPhrase d) (hq : q.IsPhrase d) : IsPhrase d (.either p q) :=
  phrase_pair hp hq (by cases d <;> decide)

theorem isPhrase_both (hp : p.IsPhrase d) (hq : q.IsPhrase d) : IsPhrase d (.both p q) :=
  phrase_pair hp hq (by cases d <;> decide)

end Predicate

end Sql

namespace Filter

open Sql

variable {d : Dialect} {f : Filter} {id type : String}

/-- A value is quoted or has been read as a number or a truth value. -/
theorem isPhrase_of_literalOf {value : String} {e : Expr ColumnRef}
    (h : (literalOf d id type value).result = .ok e) : e.IsPhrase d := by
  unfold literalOf at h
  simp only at h
  split at h
  · obtain ⟨b, _, rfl⟩ := Option.map_eq_some_iff.mp (Outcome.ofOption_eq_ok.mp h)
    exact Expr.isPhrase_truth b
  · obtain rfl := Outcome.ok_eq_ok.mp h
    exact Expr.isPhrase_text value
  · obtain rfl := Outcome.ok_eq_ok.mp h
    exact Expr.isPhrase_text value
  · obtain ⟨a, _, rfl⟩ := Option.map_eq_some_iff.mp (Outcome.ofOption_eq_ok.mp h)
    exact Expr.isPhrase_numeral a
  · obtain ⟨a, _, rfl⟩ := Option.map_eq_some_iff.mp (Outcome.ofOption_eq_ok.mp h)
    exact Expr.isPhrase_numeral a

theorem isPhrase_dayWindow (index : Nat) (first last : Int) :
    (dayWindow d (.column (.output index)) first last).IsPhrase d :=
  Predicate.isPhrase_between (Dialect.isPhrase_dayOffset (Expr.isPhrase_output index))
    (Expr.isPhrase_integer first) (Expr.isPhrase_integer last)

theorem isPhrase_hourWindow (index : Nat) (count : Int) :
    (hourWindow d (.column (.output index)) count).IsPhrase d := by
  unfold hourWindow
  simp only
  split
  · exact Predicate.isPhrase_between (Expr.isPhrase_output index) (Expr.isPhrase_clock _)
      (Expr.isPhrase_clock _)
  · exact Predicate.isPhrase_between (Expr.isPhrase_output index) (Expr.isPhrase_clock _)
      (Expr.isPhrase_clock _)

theorem isPhrase_emptiness (isText negated : Bool) (index : Nat) :
    (emptiness isText negated (.column (.output index))).IsPhrase d := by
  have hcolumn := Expr.isPhrase_output (d := d) index
  have hempty := Expr.isPhrase_emptyText (d := d)
  unfold emptiness
  split
  · exact Predicate.isPhrase_either (Predicate.isPhrase_isNull hcolumn)
      (Predicate.isPhrase_compare _ hcolumn hempty)
  · exact Predicate.isPhrase_both (Predicate.isPhrase_isNotNull hcolumn)
      (Predicate.isPhrase_compare _ hcolumn hempty)
  · exact Predicate.isPhrase_isNull hcolumn
  · exact Predicate.isPhrase_isNotNull hcolumn

theorem isPhrase_of_condition {index : Nat} {test : FilterTest} {p : Predicate ColumnRef}
    (h : (f.condition d id type index test).result = .ok p) : p.IsPhrase d := by
  have hcolumn := Expr.isPhrase_output (d := d) index
  cases test with
  | compare op =>
    simp only [condition, literal, Outcome.bind_eq_ok] at h
    obtain ⟨e, ⟨value, _, he⟩, h⟩ := h
    have hliteral := isPhrase_of_literalOf he
    have hsides := Dialect.isPhrase_textSides hcolumn hliteral f.caseSensitive
    split at h
    · obtain rfl := Outcome.pure_eq_ok.mp h
      exact Predicate.isPhrase_compare op hsides.1 hsides.2
    · obtain rfl := Outcome.pure_eq_ok.mp h
      exact Predicate.isPhrase_compare op hcolumn hliteral
  | search place negated =>
    simp only [condition, Outcome.bind_eq_ok, Outcome.pure_eq_ok] at h
    obtain ⟨value, _, rfl⟩ := h
    have hsubject : Expr.IsPhrase d (if d.isText type then .column (.output index)
        else d.castToText (.column (.output index)) type) := by
      split
      · exact hcolumn
      · exact Dialect.isPhrase_castToText hcolumn type
    have hsides := Dialect.isPhrase_textSides hsubject
      (Expr.isPhrase_text (d.likePattern place value)) f.caseSensitive
    exact Predicate.isPhrase_like negated hsides.1 hsides.2
  | empty negated =>
    obtain rfl := Outcome.pure_eq_ok.mp h
    exact isPhrase_emptiness _ negated index
  | day =>
    obtain rfl := Outcome.pure_eq_ok.mp h
    exact Predicate.isPhrase_compare _ (Dialect.isPhrase_dayOffset hcolumn)
      (Expr.isPhrase_integer _)
  | hours count =>
    obtain rfl := Outcome.pure_eq_ok.mp h
    exact isPhrase_hourWindow index count
  | days first last =>
    obtain rfl := Outcome.pure_eq_ok.mp h
    exact isPhrase_dayWindow index first last
  | month offset =>
    obtain rfl := Outcome.pure_eq_ok.mp h
    exact Predicate.isPhrase_compare _ (Dialect.isPhrase_monthOffset hcolumn)
      (Expr.isPhrase_integer _)
  | pastDays =>
    simp only [condition, Outcome.bind_eq_ok, Outcome.pure_eq_ok] at h
    obtain ⟨count, _, rfl⟩ := h
    exact isPhrase_dayWindow index _ _
  | comingDays =>
    simp only [condition, Outcome.bind_eq_ok, Outcome.pure_eq_ok] at h
    obtain ⟨count, _, rfl⟩ := h
    exact isPhrase_dayWindow index _ _

theorem isPhrase_of_predicate {input : Unit → Outcome Projection} {p : Predicate ColumnRef}
    (h : (f.predicate d id input).result = .ok p) : p.IsPhrase d := by
  simp only [predicate, Outcome.bind_eq_ok] at h
  obtain ⟨index, _, operator, _, projection, _, column, _, h⟩ := h
  exact isPhrase_of_condition h

end Filter

namespace Extract

open Sql

variable {d : Dialect} {e : Extract} {id : String} {text start x : Expr ColumnRef}

theorem isPhrase_of_start (ht : text.IsPhrase d) (h : (e.start d id text).result = .ok x) :
    x.IsPhrase d := by
  have hlocate (s : String) : (d.locate (.text s) text none).IsPhrase d :=
    Dialect.isPhrase_locate (Expr.isPhrase_text s) ht (by simp)
  unfold Extract.start at h
  split at h
  · obtain rfl := Outcome.pure_eq_ok.mp h
    exact Expr.isPhrase_integer 1
  · simp only [Outcome.bind_eq_ok, Outcome.pure_eq_ok] at h
    obtain ⟨n, _, rfl⟩ := h
    exact Expr.isPhrase_integer n
  · simp only [Outcome.bind_eq_ok, Outcome.pure_eq_ok] at h
    obtain ⟨s, _, rfl⟩ := h
    exact hlocate s
  · simp only [Outcome.bind_eq_ok, Outcome.pure_eq_ok] at h
    obtain ⟨s, _, rfl⟩ := h
    exact ((hlocate s).plus (Expr.isPhrase_integer _)).group

theorem isPhrase_of_sliceLength (ht : text.IsPhrase d) (hs : start.IsPhrase d)
    (h : (e.sliceLength d id text start).result = .ok x) : x.IsPhrase d := by
  have hnext (s : String) :
      (d.locate (.text s) text (some (start.plus (.integer 1)))).IsPhrase d := by
    apply Dialect.isPhrase_locate (Expr.isPhrase_text s) ht
    intro y hy
    rw [Option.mem_def, Option.some.injEq] at hy
    subst hy
    exact hs.plus (Expr.isPhrase_integer 1)
  unfold sliceLength at h
  simp only at h
  split at h
  · obtain rfl := Outcome.pure_eq_ok.mp h
    exact ht.unary _
  all_goals
    simp only [Outcome.bind_eq_ok, Outcome.pure_eq_ok] at h
    obtain ⟨s, _, rfl⟩ := h
  · exact ((Expr.isPhrase_integer s).minus hs).plus (Expr.isPhrase_integer 1)
  · exact Expr.isPhrase_integer s
  · exact (hnext s).minus hs
  · exact ((hnext s).plus (Expr.isPhrase_integer _)).minus hs

theorem isPhrase_of_slice {input : Unit → Outcome Projection}
    (h : (e.slice d id input).result = .ok x) : x.IsPhrase d := by
  simp only [slice, Outcome.bind_eq_ok, Outcome.pure_eq_ok] at h
  obtain ⟨index, _, projection, _, source, _, first, hfirst, length, hlength, rfl⟩ := h
  have hcolumn := Sql.Expr.isPhrase_output (d := d) index
  have htext : Expr.IsPhrase d (if d.needsCastToSlice source.type then
      d.castToText (.column (.output index)) source.type else .column (.output index)) := by
    split
    · exact Dialect.isPhrase_castToText hcolumn _
    · exact hcolumn
  have hstart := isPhrase_of_start htext hfirst
  exact Dialect.isPhrase_substring htext hstart (isPhrase_of_sliceLength htext hstart hlength)

end Extract

namespace Summarize

open Sql

variable {d : Dialect} {id : String}

theorem isPhrase_groupOutput (source : Column) (index : Nat) (f : GroupByFunction) :
    (groupOutput d source index f).expr.IsPhrase d := by
  have hcolumn := Sql.Expr.isPhrase_output (d := d) index
  cases f with
  | raw => exact hcolumn
  | month => exact Dialect.isPhrase_monthOf hcolumn
  | year => exact Dialect.isPhrase_yearOf hcolumn

theorem isPhrase_of_aggregateOutput {source : Column} {index : Nat} {f : AggregateFunction}
    {o : Output} (h : (aggregateOutput d id source index f).result = .ok o) :
    o.expr.IsPhrase d := by
  have hcolumn := Sql.Expr.isPhrase_output (d := d) index
  unfold aggregateOutput at h
  simp only at h
  split at h
  · obtain rfl := Outcome.pure_eq_ok.mp h
    exact Expr.isPhrase_countAll
  · obtain rfl := Outcome.pure_eq_ok.mp h
    exact hcolumn.unary _
  · obtain rfl := Outcome.pure_eq_ok.mp h
    exact hcolumn.unary _
  · obtain rfl := Outcome.pure_eq_ok.mp h
    exact hcolumn.unary _
  · obtain rfl := Outcome.pure_eq_ok.mp h
    exact Dialect.isPhrase_average hcolumn
  · simp only [Outcome.bind_eq_ok, Outcome.pure_eq_ok] at h
    obtain ⟨_, _, rfl⟩ := h
    exact Dialect.isPhrase_average hcolumn

theorem isPhrase_of_outputs {s : Summarize} {input : Projection} {o : Outputs}
    (h : (s.outputs d id input).result = .ok o) : ∀ e ∈ o.all, e.expr.IsPhrase d := by
  simp only [outputs, Outcome.bind_eq_ok, Outcome.pure_eq_ok] at h
  obtain ⟨groups, hgroups, aggregates, haggregates, rfl⟩ := h
  intro e he
  rcases List.mem_append.mp he with he | he
  · obtain ⟨i, _, hi⟩ := Outcome.exists_of_mem_mapM hgroups e he
    simp only [Outcome.bind_eq_ok, Outcome.pure_eq_ok] at hi
    obtain ⟨source, _, rfl⟩ := hi
    exact isPhrase_groupOutput source _ _
  · obtain ⟨i, _, hi⟩ := Outcome.exists_of_mem_mapM haggregates e he
    split at hi
    · obtain rfl := Outcome.pure_eq_ok.mp hi
      exact Expr.isPhrase_countAll
    · simp only [Outcome.bind_eq_ok] at hi
      obtain ⟨index, _, source, _, hi⟩ := hi
      exact isPhrase_of_aggregateOutput hi

end Summarize

theorem TableSource.isPhrase_columnExpr {d : Dialect} (id : String) (c : Column) :
    (columnExpr d id c).IsPhrase d := by
  have hfield : Sql.Expr.IsPhrase d (.column (.field (Sql.tableRange id) c.name)) :=
    Sql.Expr.isPhrase_field (isName_tableRange id) c.name
  unfold columnExpr
  simp only
  split
  · exact Dialect.isPhrase_castToText hfield c.type
  · exact hfield

theorem Append.isPhrase_branchExpr {d : Dialect} (input : Projection) (c : Column) :
    (branchExpr input c).IsPhrase d := by
  unfold branchExpr
  split
  · exact Sql.Expr.isPhrase_output _
  · exact Sql.Expr.isPhrase_null

end DataflowSql

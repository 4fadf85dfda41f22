import DataflowSql.Document.Nodes
import DataflowSql.Proofs.JsonNumbers
import DataflowSql.Proofs.Outcome

/-! Filter values on columns whose values are written without quotes. Only a decimal literal gets
there, and the text of every number of a document is one. -/
namespace DataflowSql

open Number Document

section Trim

variable {cs : List Char}

theorem Number.LiteralChar.not_blank {c : Char} (h : LiteralChar c) : Text.isBlank c = false := by
  rcases h with h | h
  · have hrange := toNat_of_isDigit h
    simp [Text.isBlank, Text.inRanges, Text.blankRanges]
    omega
  · simp only [List.mem_cons, List.not_mem_nil, or_false] at h
    rcases h with rfl | rfl | rfl | rfl | rfl <;> decide

theorem Text.dropWhile_of_not_blank (h : ∀ c ∈ cs, isBlank c = false) :
    cs.dropWhile isBlank = cs := by
  cases cs with
  | nil => rfl
  | cons c cs => rw [List.dropWhile_cons_of_neg (by simp [h c])]

theorem Text.trimChars_of_not_blank (h : ∀ c ∈ cs, isBlank c = false) : trimChars cs = cs := by
  rw [trimChars, dropWhile_of_not_blank h, dropWhile_of_not_blank, List.reverse_reverse]
  intro c hc
  exact h c (List.mem_reverse.mp hc)

theorem Number.Decimal.trim {t : String} {q : ℚ} (h : Decimal t.toList q) : Text.trim t = t := by
  rw [Text.trim, Text.trimChars_of_not_blank fun c hc => (h.chars.1 c hc).not_blank,
    String.ofList_toList]

end Trim

/-- A number that a value of a document stands for. -/
def Json.StandsFor : Json → ℚ → Prop
  | .integer n, q => q = n
  | .float x, q => x.RoundedFrom q
  | _, _ => False

theorem exists_scalarText {j : Json} (h : j.IsNumber) :
    ∃ t q, scalarText j = .ok (some t) ∧ Decimal t.toList q ∧ |q| < overflowBound ∧
      j.StandsFor q := by
  cases h with
  | integer hleast hgreatest =>
    rename_i n
    refine ⟨toString n, n, rfl, decimal_toString n, ?_, rfl⟩
    have hsize : |n| < 10 ^ 20 := by
      rw [abs_lt]
      omega
    have hcast : |(n : ℚ)| < 10 ^ (20 : ℤ) := by exact_mod_cast hsize
    have hpower : (10 : ℚ) ^ (20 : ℤ) ≤ 10 ^ (308 : ℤ) :=
      zpow_le_zpow_right₀ (by norm_num) (by norm_num)
    exact hcast.trans_le (hpower.trans le_overflowBound)
  | float hx =>
    obtain ⟨q, hdecimal, hbound, hrounded⟩ := Double.decimal_text hx
    exact ⟨_, q, rfl, hdecimal, hbound, hrounded⟩

section Literal

variable {d : Dialect} {typeName : String} {id : String} {f : Filter} {v : String}

/-- The columns whose values are written without quotes: numbers, and types that are not known. -/
def Dialect.Unquoted (d : Dialect) (typeName : String) : Prop :=
  d.classify typeName = .numeric ∨ d.classify typeName = .other

theorem Filter.value_of_set (hv : f.filterValue = some v) : (f.value id).result = .ok v :=
  Outcome.ofOption_eq_ok.mpr hv

theorem Filter.literal_of_unquoted (h : d.Unquoted typeName) (hv : f.filterValue = some v) :
    (f.literal d id typeName).result = (Outcome.ofOption (.invalidLiteral id v .notNumber)
      ((Numeral.of? (Text.trim v)).map .numeral)).result := by
  rw [literal, Outcome.result_bind_of_ok (value_of_set hv), literalOf]
  rcases h with h | h <;> rw [h]

theorem Filter.literal_eq_ok_iff (h : d.Unquoted typeName) (hv : f.filterValue = some v)
    {e : Sql.Expr Sql.ColumnRef} : (f.literal d id typeName).result = .ok e ↔
      ∃ n : Numeral, n.text = Text.trim v ∧ .numeral n = e := by
  rw [literal_of_unquoted h hv, Outcome.ofOption_eq_ok, Option.map_eq_some_iff]
  simp only [Numeral.of?_eq_some_iff]

theorem Filter.literal_error (h : d.Unquoted typeName) (hv : f.filterValue = some v)
    {e : CompileError} (he : (f.literal d id typeName).result = .error e) :
    e = .invalidLiteral id v .notNumber := by
  rw [literal_of_unquoted h hv] at he
  exact (Outcome.ofOption_eq_error.mp he).2.symm

theorem Filter.exists_literal_iff (h : d.Unquoted typeName) (hv : f.filterValue = some v) :
    (∃ e, (f.literal d id typeName).result = .ok e) ↔
      ∃ q, Decimal (Text.trim v).toList q ∧ |q| < overflowBound := by
  rw [← Numeral.exists_iff]
  constructor
  · rintro ⟨e, he⟩
    obtain ⟨n, hn, _⟩ := (literal_eq_ok_iff h hv).mp he
    exact ⟨n, hn⟩
  · rintro ⟨n, hn⟩
    exact ⟨.numeral n, (literal_eq_ok_iff h hv).mpr ⟨n, hn, rfl⟩⟩

/-- Every test that does not count days needs the literal at most. -/
theorem Filter.exists_condition {e : Sql.Expr Sql.ColumnRef} (hv : f.filterValue = some v)
    (he : (f.literal d id typeName).result = .ok e) (index : ℕ) {test : FilterTest}
    (hpast : test ≠ .pastDays) (hcoming : test ≠ .comingDays) :
    ∃ p, (f.condition d id typeName index test).result = .ok p := by
  cases test with
  | compare op =>
    simp only [condition, Outcome.bind_eq_ok]
    by_cases htext : (d.isText typeName && (op = .equal || op = .notEqual)) = true
    · simp only [htext]
      exact ⟨_, e, he, rfl⟩
    · simp only [htext]
      exact ⟨_, e, he, rfl⟩
  | search place negated =>
    exact ⟨_, Outcome.bind_eq_ok.mpr ⟨v, value_of_set hv, rfl⟩⟩
  | empty negated => exact ⟨_, rfl⟩
  | day => exact ⟨_, rfl⟩
  | hours count => exact ⟨_, rfl⟩
  | days first last => exact ⟨_, rfl⟩
  | month offset => exact ⟨_, rfl⟩
  | pastDays => exact absurd rfl hpast
  | comingDays => exact absurd rfl hcoming

end Literal

theorem Document.exists_of_bind {α β : Type} {x : Except ShapeError α}
    {next : α → Except ShapeError β} {b : β} (h : x >>= next = .ok b) :
    ∃ a, x = .ok a ∧ next a = .ok b := by
  cases x with
  | error e => cases h
  | ok a => exact ⟨a, rfl, h⟩

/-- The value of a filter is what its field is read as. -/
theorem Document.filterValue_of_filter {fields : Fields} {j : Json} {value : Option String}
    {f : Filter} (hj : Json.lastField? "FilterValue" fields = some j)
    (hvalue : scalarText j = .ok value) (hf : Document.filter fields = .ok f) :
    f.filterValue = value := by
  obtain ⟨caseSensitive, _, hf⟩ := exists_of_bind hf
  obtain ⟨columnIndex, _, hf⟩ := exists_of_bind hf
  obtain ⟨found, hfound, hf⟩ := exists_of_bind hf
  obtain ⟨operator, _, hf⟩ := exists_of_bind hf
  rw [fieldOr, hj] at hfound
  rw [← Except.ok.inj hf]
  exact Except.ok.inj (hfound.symm.trans hvalue)

/-- On a column whose values are written without quotes, a filter value is accepted exactly when it
is, trimmed, a decimal literal under the bound, and then this literal is written as it stands: it
holds a digit, and besides digits only signs, a point and the mark of an exponent. The text of a
number of a document is such a literal for that number, so there the literal is always accepted,
and with it every condition that does not count days. -/
theorem unquoted_literals {d : Dialect} {typeName : String} (h : d.Unquoted typeName)
    (id : String) :
    (∀ f : Filter, ∀ v, f.filterValue = some v →
      ((∃ e, (f.literal d id typeName).result = .ok e) ↔
        ∃ q, Decimal (Text.trim v).toList q ∧ |q| < overflowBound) ∧
      (∀ e, (f.literal d id typeName).result = .ok e →
        (∀ column, e.sql d column = Text.trim v) ∧ (∀ c ∈ (Text.trim v).toList, LiteralChar c) ∧
          ∃ c ∈ (Text.trim v).toList, c.isDigit = true) ∧
      ∀ e, (f.literal d id typeName).result = .error e → e = .invalidLiteral id v .notNumber) ∧
    (∀ negative cs j rest, Json.number negative cs = .ok (j, rest) → j.IsNumber) ∧
    ∀ j : Json, j.IsNumber → ∃ t q, scalarText j = .ok (some t) ∧ Decimal t.toList q ∧
      j.StandsFor q ∧ ∀ fields f, Json.lastField? "FilterValue" fields = some j →
        Document.filter fields = .ok f →
          (∃ e, (f.literal d id typeName).result = .ok e ∧ ∀ column, e.sql d column = t) ∧
          ∀ index test, test ≠ .pastDays → test ≠ .comingDays →
            ∃ p, (f.condition d id typeName index test).result = .ok p := by
  refine ⟨fun f v hv => ⟨Filter.exists_literal_iff h hv, ?_, fun _ => Filter.literal_error h hv⟩,
    fun _ _ => Json.readsNumber_number, fun j hj => ?_⟩
  · intro e he
    obtain ⟨n, hn, rfl⟩ := (Filter.literal_eq_ok_iff h hv).mp he
    obtain ⟨q, hdecimal, _⟩ := Numeral.exists_iff.mp ⟨n, hn⟩
    exact ⟨fun _ => hn, hdecimal.chars⟩
  · obtain ⟨t, q, ht, hdecimal, hbound, hstands⟩ := exists_scalarText hj
    refine ⟨t, q, ht, hdecimal, hstands, fun fields f hfield hf => ?_⟩
    have hv := filterValue_of_filter hfield ht hf
    obtain ⟨n, hn⟩ := Numeral.exists_iff.mpr ⟨q, hdecimal, hbound⟩
    have he : (f.literal d id typeName).result = .ok (.numeral n) :=
      (Filter.literal_eq_ok_iff h hv).mpr ⟨n, hn.trans hdecimal.trim.symm, rfl⟩
    exact ⟨⟨_, he, fun _ => hn⟩, fun index test => Filter.exists_condition hv he index⟩

/-- The least double below zero, in a document. -/
theorem unquoted_literals_least :
    let fields : Fields := [("FilterColumnIndex", .integer 0),
      ("FilterValue", .float ⟨true, 1, -1074⟩), ("Operator", .string "LessThan")]
    let f : Filter := ⟨some 0, some .lessThan, some "-5e-324", false⟩
    Dialect.mySql.Unquoted "int" ∧ Document.filter fields = .ok f ∧
    (∃ e, (f.literal .mySql "n" "int").result = .ok e ∧
      ∀ column, e.sql .mySql column = "-5e-324") ∧
    ∃ p, (f.condition .mySql "n" "int" 0 (.compare .less)).result = .ok p := by
  intro fields f
  have hunquoted : Dialect.mySql.Unquoted "int" := .inl rfl
  have htext : (⟨true, 1, -1074⟩ : Double).text = "-5e-324" := by decide +kernel
  have hread : Document.filter fields = .ok f :=
    congrArg (fun t => Except.ok (⟨some 0, some .lessThan, some t, false⟩ : Filter)) htext
  have hfinite : (⟨true, 1, -1074⟩ : Double).Finite := ⟨by decide, by decide, by decide⟩
  obtain ⟨t, _, ht, _, _, haccepted⟩ :=
    (unquoted_literals hunquoted "n").2.2 _ (.float hfinite)
  obtain ⟨hliteral, hcondition⟩ := haccepted fields f rfl hread
  obtain rfl : "-5e-324" = t := htext.symm.trans (Option.some.inj (Except.ok.inj ht))
  exact ⟨hunquoted, hread, hliteral, hcondition 0 _ (by decide) (by decide)⟩

end DataflowSql

import Mathlib.Data.List.Infix
import DataflowSql.Operation.Filter
import DataflowSql.Proofs.Outcome

/-! Searched values. A filter that looks for a value in a column compares it with a pattern. By the
rules of `LIKE` the pattern lets through exactly the texts that hold the value at the place asked
for, whatever characters the value is made of. The case of letters is left aside. -/
namespace DataflowSql

/-- What a part of a pattern lets through: any run of characters, any one character, a given one, or
one of the class between two brackets. -/
inductive PatternPart where
  | run
  | one
  | exactly (c : Char)
  | oneOf (content : List Char)
deriving DecidableEq, Repr

/-- The ranges of a class; a character without a dash behind it is a range of its own. -/
def classRanges : List Char → List (Char × Char)
  | low :: '-' :: high :: rest => (low, high) :: classRanges rest
  | c :: rest => (c, c) :: classRanges rest
  | [] => []

/-- A class that begins with a caret holds what its ranges do not. -/
def inClass (content : List Char) (c : Char) : Bool :=
  let within (cs : List Char) : Bool := (classRanges cs).any fun r => r.1 ≤ c && c ≤ r.2
  if content.head? = some '^' then !within content.tail else within content

/-- Where a reader of a pattern stands: between two parts, behind the escape mark, or in a class. -/
inductive PatternMode where
  | between
  | escaped
  | bracket (content : List Char)
deriving DecidableEq, Repr

/-- The parts of a pattern. It has none if it ends behind the escape mark or in a class. Only SQL
Server knows classes. -/
def PatternMode.parts? (d : Dialect) (mark : Char) :
    PatternMode → List Char → Option (List PatternPart)
  | .between, [] => some []
  | .escaped, [] => none
  | .bracket _, [] => none
  | .between, c :: cs =>
    if c = mark then PatternMode.escaped.parts? d mark cs
    else if c = '%' then (PatternMode.between.parts? d mark cs).map (.run :: ·)
    else if c = '_' then (PatternMode.between.parts? d mark cs).map (.one :: ·)
    else if c = '[' ∧ d = .sqlServer then (PatternMode.bracket []).parts? d mark cs
    else (PatternMode.between.parts? d mark cs).map (.exactly c :: ·)
  | .escaped, c :: cs => (PatternMode.between.parts? d mark cs).map (.exactly c :: ·)
  | .bracket content, c :: cs =>
    if c = ']' then (PatternMode.between.parts? d mark cs).map (.oneOf content :: ·)
    else (PatternMode.bracket (content ++ [c])).parts? d mark cs

def Dialect.patternParts? (d : Dialect) (mark : Char) (pattern : String) :
    Option (List PatternPart) :=
  PatternMode.between.parts? d mark pattern.toList

namespace PatternPart

def lets (c : Char) : PatternPart → Bool
  | .run => true
  | .one => true
  | .exactly x => c = x
  | .oneOf content => inClass content c

/-- Whether the parts take up the whole text. A run is tried at every length. -/
def matchAll : List PatternPart → List Char → Bool
  | [], text => text.isEmpty
  | .run :: parts, text => text.tails.any fun rest => matchAll parts rest
  | _ :: _, [] => false
  | part :: parts, c :: text => part.lets c && matchAll parts text

variable {parts : List PatternPart} {text : List Char}

theorem matchAll_nil : matchAll [] text = true ↔ text = [] := by
  rw [matchAll, List.isEmpty_iff]

theorem matchAll_run :
    matchAll (.run :: parts) text = true ↔ ∃ rest, rest <:+ text ∧ matchAll parts rest = true := by
  simp only [matchAll, List.any_eq_true, List.mem_tails]

/-- A run at the end takes up whatever is left. -/
theorem matchAll_last_run (text : List Char) : matchAll [.run] text = true :=
  matchAll_run.mpr ⟨[], List.nil_suffix, rfl⟩

theorem matchAll_exactly (value : List Char) (parts : List PatternPart) (text : List Char) :
    matchAll (value.map .exactly ++ parts) text = true ↔
      ∃ rest, text = value ++ rest ∧ matchAll parts rest = true := by
  induction value generalizing text with
  | nil => simp
  | cons c value ih =>
    cases text with
    | nil => simp [matchAll]
    | cons x text =>
      simp only [List.map_cons, List.cons_append, matchAll, lets, Bool.and_eq_true,
        decide_eq_true_eq, ih, List.cons.injEq]
      constructor
      · rintro ⟨rfl, rest, rfl, h⟩
        exact ⟨rest, ⟨rfl, rfl⟩, h⟩
      · rintro ⟨rest, ⟨rfl, rfl⟩, h⟩
        exact ⟨rfl, rest, rfl, h⟩

end PatternPart

namespace MatchPlace

/-- The value stands in the text at this place. -/
def Holds (value text : List Char) : MatchPlace → Prop
  | .start => value <+: text
  | .finish => value <:+ text
  | .anywhere => value <:+: text

/-- The value as it is, with runs where it need not begin or end the text. -/
def parts (value : List Char) : MatchPlace → List PatternPart
  | .start => value.map .exactly ++ [.run]
  | .finish => .run :: value.map .exactly
  | .anywhere => .run :: (value.map .exactly ++ [.run])

theorem oneOf_notMem_parts (place : MatchPlace) (value content : List Char) :
    .oneOf content ∉ place.parts value := by
  cases place <;> simp [parts]

open PatternPart

theorem matchAll_start (value text : List Char) :
    matchAll (value.map .exactly ++ [.run]) text = true ↔ value <+: text := by
  rw [matchAll_exactly]
  constructor
  · rintro ⟨rest, rfl, -⟩
    exact List.prefix_append value rest
  · rintro ⟨rest, rfl⟩
    exact ⟨rest, rfl, matchAll_last_run rest⟩

theorem matchAll_parts (place : MatchPlace) (value text : List Char) :
    matchAll (place.parts value) text = true ↔ place.Holds value text := by
  cases place with
  | start => exact matchAll_start value text
  | finish =>
    have hexact (rest : List Char) : matchAll (value.map .exactly) rest = true ↔ rest = value := by
      have h := matchAll_exactly value [] rest
      simpa [matchAll_nil] using h
    simp only [parts, Holds, matchAll_run, hexact]
    constructor
    · rintro ⟨rest, hrest, rfl⟩
      exact hrest
    · intro h
      exact ⟨value, h, rfl⟩
  | anywhere =>
    simp only [parts, Holds, matchAll_run, matchAll_start]
    rw [List.infix_iff_prefix_suffix]
    exact exists_congr fun rest => and_comm

end MatchPlace

namespace Dialect

/-- A character is read as itself: one with a meaning of its own stands behind the mark, and one
without a meaning needs none. -/
theorem parts?_escapedChar (d : Dialect) (c : Char) (rest : List Char) :
    PatternMode.between.parts? d likeEscape
        ((if d.isPatternChar c then [likeEscape, c] else [c]) ++ rest) =
      (PatternMode.between.parts? d likeEscape rest).map (.exactly c :: ·) := by
  by_cases hc : d.isPatternChar c = true
  · simp [hc, PatternMode.parts?]
  · have hplain := hc
    simp only [isPatternChar, Bool.or_eq_true, Bool.and_eq_true, decide_eq_true_eq, not_or]
      at hplain
    obtain ⟨⟨⟨hmark, hrun⟩, hone⟩, hclass⟩ := hplain
    simp [hc, PatternMode.parts?, hmark, hrun, hone, hclass]

theorem parts?_escapeLike (d : Dialect) (value : String) (rest : List Char) :
    PatternMode.between.parts? d likeEscape ((d.escapeLike value).toList ++ rest) =
      (PatternMode.between.parts? d likeEscape rest).map (value.toList.map .exactly ++ ·) := by
  rw [escapeLike, String.toList_ofList]
  induction value.toList with
  | nil => simp
  | cons c cs ih =>
    rw [List.flatMap_cons, List.append_assoc, parts?_escapedChar, ih, Option.map_map]
    rfl

theorem patternParts?_likePattern (d : Dialect) (place : MatchPlace) (value : String) :
    d.patternParts? likeEscape (d.likePattern place value) = some (place.parts value.toList) := by
  have hrun (cs : List Char) : PatternMode.between.parts? d likeEscape ('%' :: cs) =
      (PatternMode.between.parts? d likeEscape cs).map (.run :: ·) := rfl
  have hnone : PatternMode.between.parts? d likeEscape [] = some [] := rfl
  have hvalue := d.parts?_escapeLike value
  cases place with
  | start => simp [patternParts?, likePattern, MatchPlace.parts, hvalue, hrun, hnone]
  | finish =>
    have hend := hvalue []
    rw [List.append_nil] at hend
    simp [patternParts?, likePattern, MatchPlace.parts, hrun, hend, hnone]
  | anywhere => simp [patternParts?, likePattern, MatchPlace.parts, hrun, hvalue, hnone]

/-- A pattern made for a value is read to its end without a class, and lets through exactly the
texts in which the value stands at its place. -/
theorem likePattern_literal (d : Dialect) (place : MatchPlace) (value : String) :
    ∃ parts, d.patternParts? likeEscape (d.likePattern place value) = some parts ∧
      (∀ content, .oneOf content ∉ parts) ∧
      ∀ text, PatternPart.matchAll parts text = true ↔ place.Holds value.toList text :=
  ⟨_, d.patternParts?_likePattern place value, place.oneOf_notMem_parts _, place.matchAll_parts _⟩

end Dialect

/-- The place an operator looks for its value at, and whether it is to be there or not. -/
inductive FilterOperator.LooksFor : FilterOperator → (negated : Bool) → MatchPlace → Prop
  | startsWith : LooksFor .startsWith false .start
  | endsWith : LooksFor .endsWith false .finish
  | contains : LooksFor .contains false .anywhere
  | doesNotContain : LooksFor .doesNotContain true .anywhere

theorem FilterOperator.LooksFor.test_eq {o : FilterOperator} {negated : Bool} {place : MatchPlace}
    (h : o.LooksFor negated place) : o.test = .search place negated := by
  cases h <;> rfl

/-- An expression that is made from one column. -/
inductive Sql.Expr.MadeFrom {α : Type} (c : α) : Expr α → Prop
  | column : MadeFrom c (.column c)
  | unary (f : Unary) {x : Expr α} (inner : MadeFrom c x) : MadeFrom c (.unary f x)

theorem Sql.Predicate.like_sql {α : Type} {d : Dialect} (negated : Bool) (x y : Expr α)
    (column : α → String) : (Predicate.like negated x y).sql d column =
      x.sql d column ++ (if negated then " NOT LIKE " else " LIKE ") ++ y.sql d column ++
        " ESCAPE '!'" := by
  have hword : " " ++ likeWord negated ++ " " = if negated then " NOT LIKE " else " LIKE " := by
    cases negated <;> rfl
  have hescape : " " ++ escapeClause = " ESCAPE '!'" := rfl
  rw [← hword, ← hescape]
  simp only [Predicate.sql, operatorText, String.append_assoc]

namespace Dialect

open Sql

variable {α : Type} {c : α} {x : Expr α}

theorem madeFrom_castToText (d : Dialect) (type : String) (hx : x.MadeFrom c) :
    (d.castToText x type).MadeFrom c := by
  unfold castToText
  split
  · exact hx.unary _
  · exact hx.unary _
  · split
    · exact hx.unary _
    · exact hx.unary _

/-- A comparison that does not mind the case of letters changes both of its sides, or only how they
are compared. What the left side becomes does not hang on the right one. -/
theorem textSides_eq (d : Dialect) (caseSensitive : Bool) (x : Expr α) :
    ∃ left, (∀ c, x.MadeFrom c → left.MadeFrom c) ∧
      ((∀ y, d.textSides caseSensitive x y = (left, y)) ∨
        ∀ y, d.textSides caseSensitive x y = (left, .unary .lower y)) := by
  unfold textSides
  split
  · exact ⟨_, fun _ hx => hx.unary _, .inr fun _ => rfl⟩
  · exact ⟨_, fun _ hx => hx.unary _, .inl fun _ => rfl⟩
  · exact ⟨_, fun _ hx => hx.unary _, .inl fun _ => rfl⟩
  · exact ⟨_, fun _ hx => hx.unary _, .inl fun _ => rfl⟩
  · exact ⟨_, fun _ hx => hx, .inl fun _ => rfl⟩
  · exact ⟨_, fun _ hx => hx, .inl fun _ => rfl⟩

end Dialect

namespace Filter

open Sql

/-- The column as a text. -/
def subject (d : Dialect) (index : Nat) (type : String) : Expr ColumnRef :=
  if d.isText type then .column (.output index) else d.castToText (.column (.output index)) type

theorem predicate_of_looksFor (d : Dialect) (f : Filter) (id : String)
    {input : Unit → Outcome Projection} {index : Nat} {value : String} {p : Projection}
    {source : Column} {operator : FilterOperator} {negated : Bool} {place : MatchPlace}
    (hindex : f.filterColumnIndex = some index) (hoperator : f.operator = some operator)
    (hlooks : operator.LooksFor negated place) (hvalue : f.filterValue = some value)
    (hp : (input ()).result = .ok p) (hsource : p[index]? = some source) :
    (f.predicate d id input).result = .ok (.like negated
      (d.textSides f.caseSensitive (subject d index source.type)
        (.text (d.likePattern place value))).1
      (d.textSides f.caseSensitive (subject d index source.type)
        (.text (d.likePattern place value))).2) := by
  simp only [predicate, Projection.column, Outcome.bind_eq_ok, Outcome.ofOption_eq_ok]
  refine ⟨index, hindex, operator, hoperator, p, hp, source, hsource, ?_⟩
  rw [hlooks.test_eq]
  simp only [condition, Filter.value, hvalue]
  rfl

/-- A filter that looks for its value compares what it makes of its column with a pattern. The
pattern is named in the text together with its escape mark, is read to its end without a class, and
lets through exactly the texts in which the value stands at the place asked for. To look for a value
that is not to be there is to compare with the same pattern, the other way round. -/
theorem search_literal (d : Dialect) (f : Filter) (id : String)
    (input : Unit → Outcome Projection) {index : Nat} {value : String} {p : Projection}
    {source : Column} (hindex : f.filterColumnIndex = some index)
    (hvalue : f.filterValue = some value) (hp : (input ()).result = .ok p)
    (hsource : p[index]? = some source) :
    ∃ (subject : Expr ColumnRef) (pattern : MatchPlace → Expr ColumnRef),
      subject.MadeFrom (.output index) ∧
      ((∀ place, pattern place = .text (d.likePattern place value)) ∨
        ∀ place, pattern place = .unary .lower (.text (d.likePattern place value))) ∧
      (∀ operator negated place, operator.LooksFor negated place →
        ({ f with operator := some operator }.predicate d id input).result =
          .ok (.like negated subject (pattern place))) ∧
      (∀ negated place column, (Predicate.like negated subject (pattern place)).sql d column =
        subject.sql d column ++ (if negated then " NOT LIKE " else " LIKE ") ++
          (pattern place).sql d column ++ " ESCAPE '!'") ∧
      ∀ place, ∃ parts, d.patternParts? '!' (d.likePattern place value) = some parts ∧
        (∀ content, .oneOf content ∉ parts) ∧
        ∀ text, PatternPart.matchAll parts text = true ↔ place.Holds value.toList text := by
  obtain ⟨left, hleft, hsides⟩ := d.textSides_eq f.caseSensitive (subject d index source.type)
  have hsubject : (subject d index source.type).MadeFrom (.output index) := by
    unfold subject
    split
    · exact .column
    · exact d.madeFrom_castToText _ .column
  have hresult (operator : FilterOperator) (negated : Bool) (place : MatchPlace)
      (hlooks : operator.LooksFor negated place) :=
    predicate_of_looksFor d { f with operator := some operator } id hindex rfl hlooks hvalue hp
      hsource
  rcases hsides with hsides | hsides
  · simp only [hsides] at hresult
    exact ⟨left, fun place => .text (d.likePattern place value), hleft _ hsubject,
      .inl fun _ => rfl, hresult, fun _ _ _ => Predicate.like_sql _ _ _ _,
      (d.likePattern_literal · value)⟩
  · simp only [hsides] at hresult
    exact ⟨left, fun place => .unary .lower (.text (d.likePattern place value)), hleft _ hsubject,
      .inr fun _ => rfl, hresult, fun _ _ _ => Predicate.like_sql _ _ _ _,
      (d.likePattern_literal · value)⟩

/-- A value of nothing but characters with a meaning of their own, in the dialect that has the most
of them. -/
theorem search_literal_hostile :
    ∃ (subject pattern : Expr ColumnRef) (parts : List PatternPart),
      (Filter.predicate .sqlServer ⟨some 0, some .doesNotContain, some "%_[!]", false⟩ "kept"
        fun _ => .ok [⟨"note", "varchar(40)"⟩]).result = .ok (.like true subject pattern) ∧
      (Filter.predicate .sqlServer ⟨some 0, some .contains, some "%_[!]", false⟩ "kept"
        fun _ => .ok [⟨"note", "varchar(40)"⟩]).result = .ok (.like false subject pattern) ∧
      subject.MadeFrom (.output 0) ∧
      Dialect.sqlServer.patternParts? '!' "%!%!_![!!]%" = some parts ∧
      PatternPart.matchAll parts "a%_[!]b".toList = true ∧
      PatternPart.matchAll parts "a%_!b".toList ≠ true := by
  obtain ⟨subject, pattern, hsubject, -, hresult, -, hparts⟩ :=
    search_literal .sqlServer ⟨some 0, none, some "%_[!]", false⟩ "kept"
      (fun _ => .ok [⟨"note", "varchar(40)"⟩]) rfl rfl rfl rfl
  obtain ⟨parts, hread, -, hmatch⟩ := hparts .anywhere
  refine ⟨subject, pattern .anywhere, parts, hresult _ _ _ .doesNotContain,
    hresult _ _ _ .contains, hsubject, hread, (hmatch _).mpr ?_, (hmatch _).not.mpr ?_⟩
  · change "%_[!]".toList <:+: "a%_[!]b".toList
    decide
  · change ¬ "%_[!]".toList <:+: "a%_!b".toList
    decide

end Filter

end DataflowSql

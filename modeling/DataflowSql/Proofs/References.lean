import Mathlib.Data.List.Basic
import DataflowSql.Dialect.Quoting
import DataflowSql.Schema.Catalog
import DataflowSql.Sql.Query

/-! Table references as a reader of the dialect takes them apart: quoted parts with dots between
them. Whatever the parts are made of, the reader finds the same parts that were written, so tables
with different paths never share a reference. -/
namespace DataflowSql

/-- Where a reader of a reference stands: in front of a part, between its quotes, or behind a quote
that ends the part unless another one follows. -/
inductive PathMode where
  | start
  | inside
  | closed
deriving DecidableEq, Repr

/-- Puts characters in front of the first of several parts. -/
def grow (w : List Char) (r : List (List Char) × List Char) : List (List Char) × List Char :=
  (r.1.modifyHead (w ++ ·), r.2)

/-- The rest of the part where the reader stands and the parts behind it, and the text behind the
reference. -/
def PathMode.read? (d : Dialect) :
    PathMode → List Char → Option (List (List Char) × List Char)
  | .start, [] => none
  | .inside, [] => none
  | .closed, [] => some ([[]], [])
  | .start, c :: cs => if c = d.openingQuote then inside.read? d cs else none
  | .inside, c :: cs =>
    if c = d.closingQuote then closed.read? d cs else (inside.read? d cs).map (grow [c])
  | .closed, c :: cs =>
    if c = d.closingQuote then (inside.read? d cs).map (grow [c])
    else if c = '.' then (start.read? d cs).map fun r => ([] :: r.1, r.2)
    else some ([[]], c :: cs)

/-- Reads the reference that a text begins with. -/
def Dialect.readPath? (d : Dialect) (text : List Char) : Option (List String × List Char) :=
  (PathMode.start.read? d text).map fun r => (r.1.map String.ofList, r.2)

theorem grow_nil (r : List (List Char) × List Char) : grow [] r = r := by
  obtain ⟨_ | ⟨p, ps⟩, rest⟩ := r <;> rfl

theorem grow_grow (u v : List Char) (r : List (List Char) × List Char) :
    grow u (grow v r) = grow (u ++ v) r := by
  obtain ⟨_ | ⟨p, ps⟩, rest⟩ := r <;> simp [grow]

namespace PathMode

variable {d : Dialect} {rest : List Char}

/-- What stands between the quotes of a part is read as the part, whatever it is. -/
theorem read?_doubling (w : List Char) :
    inside.read? d (doubling d.closingQuote w ++ d.closingQuote :: rest) =
      (closed.read? d rest).map (grow w) := by
  induction w with
  | nil =>
    have hid : grow [] = id := funext grow_nil
    simp [doubling, read?, hid]
  | cons c w ih =>
    have hgrow : (closed.read? d rest).map (grow (c :: w)) =
        ((closed.read? d rest).map (grow w)).map (grow [c]) := by
      simp [Function.comp_def, grow_grow]
    rw [hgrow, ← ih, doubling, List.flatMap_cons, ← doubling]
    by_cases hc : c = d.closingQuote
    · -- the second of two quotes takes the reader back between the quotes
      subst hc
      simp [read?]
    · simp [read?, hc]

theorem read?_identifier (w : List Char) :
    start.read? d (d.identifierChars w ++ rest) = (closed.read? d rest).map (grow w) := by
  rw [Dialect.identifierChars, List.cons_append, read?, if_pos rfl, List.append_assoc]
  exact read?_doubling w

/-- The reference is over where neither a second quote nor a dot follows. -/
theorem closed_read? (hquote : rest.head? ≠ some d.closingQuote) (hdot : rest.head? ≠ some '.') :
    closed.read? d rest = some ([[]], rest) := by
  cases rest with
  | nil => rfl
  | cons c cs =>
    have hc : c ≠ d.closingQuote := by simpa using hquote
    have hc' : c ≠ '.' := by simpa using hdot
    rw [read?, if_neg hc, if_neg hc']

theorem closed_read?_dot :
    closed.read? d ('.' :: rest) = (start.read? d rest).map fun r => ([] :: r.1, r.2) := by
  have hdot : '.' ≠ d.closingQuote := by cases d <;> decide
  rw [read?, if_neg hdot, if_pos rfl]

/-- Part after part is found as it was written. -/
theorem read?_parts (hquote : rest.head? ≠ some d.closingQuote) (hdot : rest.head? ≠ some '.')
    (w : List Char) (ws : List (List Char)) :
    start.read? d (['.'].intercalate ((w :: ws).map d.identifierChars) ++ rest) =
      some (w :: ws, rest) := by
  induction ws generalizing w with
  | nil =>
    rw [List.map_singleton, List.intercalate_singleton, read?_identifier,
      closed_read? hquote hdot]
    simp [grow]
  | cons w' ws ih =>
    rw [List.map_cons, List.map_cons, List.intercalate_cons_cons, List.append_assoc,
      List.append_assoc, read?_identifier, List.singleton_append, closed_read?_dot,
      ← List.map_cons, ih w']
    simp [grow]

end PathMode

namespace Dialect

variable {d : Dialect} {rest : List Char}

theorem toList_quotePath (parts : List String) :
    (d.quotePath parts).toList =
      ['.'].intercalate ((parts.map String.toList).map d.identifierChars) := by
  simp [quotePath, String.toList_intercalate, quoteIdentifier, Function.comp_def]

theorem readPath?_quotePath {parts : List String} (hparts : parts ≠ [])
    (hquote : rest.head? ≠ some d.closingQuote) (hdot : rest.head? ≠ some '.') :
    d.readPath? ((d.quotePath parts).toList ++ rest) = some (parts, rest) := by
  obtain ⟨p, ps, rfl⟩ := List.exists_cons_of_ne_nil hparts
  rw [readPath?, toList_quotePath, List.map_cons, PathMode.read?_parts hquote hdot]
  simp [Function.comp_def]

theorem readPath?_alone {parts : List String} (hparts : parts ≠ []) :
    d.readPath? (d.quotePath parts).toList = some (parts, []) := by
  rw [← List.append_nil (d.quotePath parts).toList]
  exact readPath?_quotePath hparts (by simp) (by simp)

/-- No reference is empty unless it has no parts. -/
theorem quotePath_ne_empty {parts : List String} (hparts : parts ≠ []) :
    d.quotePath parts ≠ "" := by
  intro h
  have hread := readPath?_alone (d := d) hparts
  rw [h] at hread
  simp [readPath?, PathMode.read?] at hread

theorem quotePath_injective (d : Dialect) : Function.Injective d.quotePath := by
  intro ps qs h
  rcases eq_or_ne ps [] with rfl | hps
  · rcases eq_or_ne qs [] with rfl | hqs
    · rfl
    · exact absurd h.symm (quotePath_ne_empty hqs)
  · rcases eq_or_ne qs [] with rfl | hqs
    · exact absurd h (quotePath_ne_empty hps)
    · have hread := readPath?_alone (d := d) hps
      rw [h, readPath?_alone hqs] at hread
      simpa using hread.symm

end Dialect

theorem splitDots_ne_nil (cs : List Char) : splitDots cs ≠ [] := by
  induction cs with
  | nil => simp [splitDots]
  | cons c cs ih =>
    rw [splitDots]
    split_ifs
    · simp
    · split <;> simp

theorem dot_notMem_splitDots (cs : List Char) : ∀ w ∈ splitDots cs, '.' ∉ w := by
  induction cs with
  | nil => simp [splitDots]
  | cons c cs ih =>
    rw [splitDots]
    split_ifs with hc
    · simpa using ih
    · split
      · simpa using Ne.symm hc
      · next w ws hsplit =>
        rw [hsplit] at ih
        simp only [List.forall_mem_cons] at ih ⊢
        exact ⟨by simpa [Ne.symm hc] using ih.1, ih.2⟩

theorem intercalate_splitDots (cs : List Char) : ['.'].intercalate (splitDots cs) = cs := by
  induction cs with
  | nil => rfl
  | cons c cs ih =>
    obtain ⟨w, ws, hsplit⟩ := List.exists_cons_of_ne_nil (splitDots_ne_nil cs)
    rw [hsplit] at ih
    rw [splitDots, hsplit]
    split_ifs with hc
    · rw [List.intercalate_cons_cons, ih, hc]
      rfl
    · cases ws with
      | nil => simpa using ih
      | cons w' ws =>
        rw [List.intercalate_cons_cons] at ih ⊢
        simpa using ih

namespace TableSchema

theorem path_ne_nil (t : TableSchema) : t.path ≠ [] := by
  unfold path
  split
  · simpa using splitDots_ne_nil _
  · simp

/-- A path that is taken from the display name alone. -/
theorem path_of_displayName {t : TableSchema} (hschema : t.schema = none) (hname : t.name = none) :
    t.path = (splitDots t.displayName.toList).map String.ofList := by
  rw [path, hschema, hname]

theorem dot_notMem_path {t : TableSchema} (hschema : t.schema = none) (hname : t.name = none) :
    ∀ p ∈ t.path, '.' ∉ p.toList := by
  rw [path_of_displayName hschema hname]
  intro p hp
  obtain ⟨w, hw, rfl⟩ := List.mem_map.mp hp
  rw [String.toList_ofList]
  exact dot_notMem_splitDots _ w hw

theorem intercalate_path {t : TableSchema} (hschema : t.schema = none) (hname : t.name = none) :
    ".".intercalate t.path = t.displayName := by
  rw [path_of_displayName hschema hname, ← String.toList_inj, String.toList_intercalate]
  simpa [Function.comp_def] using intercalate_splitDots t.displayName.toList

end TableSchema

/-- A table is read back from the source that reads it, with what stands behind its reference. -/
theorem readPath?_source {ρ : Type} (d : Dialect) (name : ρ → String) (t : TableSchema)
    (range : String) :
    d.readPath? ((Sql.Source.table t.path range).sql d name).toList =
      some (t.path, " AS ".toList ++ range.toList) := by
  have htext : ((Sql.Source.table t.path range).sql d name).toList =
      (d.quotePath t.path).toList ++ (" AS ".toList ++ range.toList) := by
    simp [Sql.Source.sql, List.append_assoc]
  rw [htext]
  exact Dialect.readPath?_quotePath t.path_ne_nil (by cases d <;> simp [Dialect.closingQuote])
    (by simp)

/-- A reference is read as the parts it was written from, up to any text that does not go on with
it. So references with different parts differ, and so do the references of tables, also as sources
of a query. Every table has a path, and the display name that a path is taken from can be put
together again. -/
theorem references_unambiguous (d : Dialect) :
    (∀ (parts : List String) (rest : List Char), parts ≠ [] →
        rest.head? ≠ some d.closingQuote → rest.head? ≠ some '.' →
        d.readPath? ((d.quotePath parts).toList ++ rest) = some (parts, rest)) ∧
      Function.Injective d.quotePath ∧
      (∀ t u : TableSchema, d.quotePath t.path = d.quotePath u.path ↔ t.path = u.path) ∧
      (∀ (ρ : Type) (name : ρ → String) (t u : TableSchema) (r s : String),
        (Sql.Source.table t.path r).sql d name = (Sql.Source.table u.path s).sql d name ↔
          t.path = u.path ∧ r = s) ∧
      (∀ t : TableSchema, t.path ≠ []) ∧
      ∀ t : TableSchema, t.schema = none → t.name = none →
        (∀ p ∈ t.path, '.' ∉ p.toList) ∧ ".".intercalate t.path = t.displayName := by
  refine ⟨fun parts rest hparts hquote hdot => Dialect.readPath?_quotePath hparts hquote hdot,
    d.quotePath_injective, fun t u => d.quotePath_injective.eq_iff, fun ρ name t u r s => ?_,
    TableSchema.path_ne_nil, fun t hschema hname => ?_⟩
  · constructor
    · intro h
      have hread := (readPath?_source d name u s).symm.trans (h ▸ readPath?_source d name t r)
      have hparts : u.path = t.path ∧ s = r := by
        simpa [String.toList_inj] using hread
      exact ⟨hparts.1.symm, hparts.2.symm⟩
    · rintro ⟨hpath, rfl⟩
      rw [hpath]
  · exact ⟨TableSchema.dot_notMem_path hschema hname, TableSchema.intercalate_path hschema hname⟩

/-- Quotes at either end of a part, an empty part, a dot inside one, and a bracket that needs no
second one. -/
theorem references_unambiguous_bracketed :
    Dialect.sqlServer.readPath?
        ((Dialect.sqlServer.quotePath ["]a]", "", "x.[y"]).toList ++ " AS r".toList) =
      some (["]a]", "", "x.[y"], " AS r".toList) ∧
    (TableSchema.mk "a..b" none none []).path = ["a", "", "b"] ∧
    ".".intercalate (TableSchema.mk "a..b" none none []).path = "a..b" := by
  obtain ⟨hread, -, -, -, -, hpath⟩ := references_unambiguous .sqlServer
  refine ⟨hread _ _ (by decide) (by decide) (by decide), by decide, ?_⟩
  exact (hpath _ rfl rfl).2

end DataflowSql

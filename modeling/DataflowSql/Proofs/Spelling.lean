import DataflowSql.Proofs.Outcome
import DataflowSql.Statement

/-! How statements are spelled. The words of queries, keys, definitions and statements are said here
apart from the functions that write them, so that what is shown of a syntax tree is shown of the
text: which names stand behind `AS`, which behind `FROM` and which behind `ORDER BY`. -/
namespace DataflowSql

open Sql

namespace Sql

/-- The name an item gives to its column. -/
def Item.name (i : Item) : String := columnName i.index

/-- The names of the first output columns. -/
def columnNames (count : Nat) : List String := (List.range count).map columnName

/-- On the right of a join another join stands in parentheses. -/
def Source.enclosed (src : Source Node) (w : String) : String :=
  if src.isJoin then "(" ++ w ++ ")" else w

mutual

/-- The texts of queries. A star stands first in its list; every item is an expression and, behind
`AS`, the name of its column. -/
inductive Query.Spelled (d : Dialect) : Query Node → String → Prop
  | select {source : Source Node} {w : String} (star : Bool) (items : List Item)
      (condition : Option (Predicate ColumnRef)) (groups : List (Expr ColumnRef))
      (origin : Source.Spelled d source w) :
      Query.Spelled d (.select star items source condition groups)
        ("SELECT " ++ ", ".intercalate ((if star then ["*"] else []) ++ items.map fun i =>
          i.expr.sql d (ColumnRef.sql d) ++ " AS " ++ i.name) ++ " FROM " ++ w ++
          conditionText d condition ++ groupsText d groups)
  | union {l r : Query Node} {u v : String} (left : Query.Spelled d l u)
      (right : Query.Spelled d r v) : Query.Spelled d (.union l r) (u ++ " UNION " ++ v)
  | unionAll {l r : Query Node} {u v : String} (left : Query.Spelled d l u)
      (right : Query.Spelled d r v) : Query.Spelled d (.unionAll l r) (u ++ " UNION ALL " ++ v)

/-- The texts that stand behind `FROM`. A node is read by its name, under it or another range, or
by its query in parentheses. -/
inductive Source.Spelled (d : Dialect) : Source Node → String → Prop
  | table (path : List String) (range : String) :
      Source.Spelled d (.table path range) (d.quotePath path ++ " AS " ++ range)
  | named (n : Node) : Source.Spelled d (.named n none) n.name
  | renamed (n : Node) (range : String) :
      Source.Spelled d (.named n (some range)) (n.name ++ " AS " ++ range)
  | nested {q : Query Node} {w : String} (n : Node) (range : String)
      (rows : Query.Spelled d q w) :
      Source.Spelled d (.nested n q range) ("(" ++ w ++ ") AS " ++ range)
  | cross {l r : Source Node} {u v : String} (left : Source.Spelled d l u)
      (right : Source.Spelled d r v) :
      Source.Spelled d (.join l .cross r) (u ++ " CROSS JOIN " ++ r.enclosed v)
  | on {l r : Source Node} {u v : String} (kind : JoinKind) (x y : Expr ColumnRef)
      (left : Source.Spelled d l u) (right : Source.Spelled d r v) :
      Source.Spelled d (.join l (.on kind x y) r)
        (u ++ " " ++ kind.text ++ " " ++ r.enclosed v ++ " ON " ++ x.sql d (ColumnRef.sql d) ++
          " = " ++ y.sql d (ColumnRef.sql d))

end

variable {d : Dialect}

mutual

/-- A query is written as it is spelled. -/
theorem Query.spelled_sql : (q : Query Node) → q.Spelled d (q.sql d Node.name)
  | .select star items source condition groups => by
    rw [Query.sql]
    exact .select star items condition groups source.spelled_sql
  | .union l r => by
    rw [Query.sql]
    exact .union l.spelled_sql r.spelled_sql
  | .unionAll l r => by
    rw [Query.sql]
    exact .unionAll l.spelled_sql r.spelled_sql

theorem Source.spelled_sql : (src : Source Node) → src.Spelled d (src.sql d Node.name)
  | .table path range => by
    rw [Source.sql]
    exact .table path range
  | .named n none => by
    rw [Source.sql]
    exact .named n
  | .named n (some range) => by
    rw [Source.sql]
    exact .renamed n range
  | .nested n q range => by
    rw [Source.sql]
    exact .nested n range q.spelled_sql
  | .join l .cross r => by
    rw [Source.sql, Meeting.sql]
    exact .cross l.spelled_sql r.spelled_sql
  | .join l (.on kind x y) r => by
    rw [Source.sql, Meeting.sql]
    exact .on kind x y l.spelled_sql r.spelled_sql

end

mutual

/-- A query has no other spelling. -/
theorem Query.eq_sql_of_spelled {w : String} :
    (q : Query Node) → q.Spelled d w → w = q.sql d Node.name
  | .select star items source condition groups, h => by
    cases h with
    | select _ _ _ _ origin =>
      rw [Query.sql, source.eq_sql_of_spelled origin]
      rfl
  | .union l r, h => by
    cases h with
    | union left right =>
      rw [Query.sql, l.eq_sql_of_spelled left, r.eq_sql_of_spelled right]
  | .unionAll l r, h => by
    cases h with
    | unionAll left right =>
      rw [Query.sql, l.eq_sql_of_spelled left, r.eq_sql_of_spelled right]

theorem Source.eq_sql_of_spelled {w : String} :
    (src : Source Node) → src.Spelled d w → w = src.sql d Node.name
  | .table path range, h => by
    cases h
    rw [Source.sql]
  | .named n none, h => by
    cases h
    rw [Source.sql]
  | .named n (some range), h => by
    cases h
    rw [Source.sql]
  | .nested n q range, h => by
    cases h with
    | nested _ _ rows => rw [Source.sql, q.eq_sql_of_spelled rows]
  | .join l .cross r, h => by
    cases h with
    | cross left right =>
      rw [Source.sql, Meeting.sql, l.eq_sql_of_spelled left, r.eq_sql_of_spelled right,
        Source.enclosed]
  | .join l (.on kind x y) r, h => by
    cases h with
    | on _ _ _ left right =>
      rw [Source.sql, Meeting.sql, l.eq_sql_of_spelled left, r.eq_sql_of_spelled right,
        Source.enclosed]

end

theorem Query.spelled_iff {q : Query Node} {w : String} :
    q.Spelled d w ↔ w = q.sql d Node.name :=
  ⟨q.eq_sql_of_spelled, fun h => h ▸ q.spelled_sql⟩

theorem Source.spelled_iff {src : Source Node} {w : String} :
    src.Spelled d w ↔ w = src.sql d Node.name :=
  ⟨src.eq_sql_of_spelled, fun h => h ▸ src.spelled_sql⟩

end Sql

namespace SortKey

/-- The columns a key names, in order. -/
def names (k : SortKey) : List String := k.map fun c => columnName c.index

/-- The words for the directions of a key, in order. -/
def words (k : SortKey) : List String :=
  k.map fun c => if c.direction = .descending then "DESC" else "ASC"

/-- Each column of a key stands before the word for its direction. -/
def Spelled (k : SortKey) (w : String) : Prop :=
  w = ", ".intercalate (List.zipWith (fun name word => name ++ " " ++ word) k.names k.words)

theorem spelled_text (k : SortKey) : k.Spelled k.text := by
  have hcolumn (c : SortColumn) : c.direction.text =
      if c.direction = .descending then "DESC" else "ASC" := by
    cases c.direction <;> rfl
  simp only [Spelled, text, names, words, hcolumn, List.zipWith_map, List.zipWith_self]

end SortKey

/-- The texts of definitions: the name of the rows, and how to come by them. -/
inductive Definition.Spelled (d : Dialect) : Definition → String → Prop
  | rows {q : Query Node} {w : String} (n : Node) (query : q.Spelled d w) :
      Spelled d (.rows n q) (n.name ++ " AS (" ++ w ++ ")")
  | numbered {key : SortKey} {w : String} (n : Node) (order : key.Spelled w) :
      Spelled d (.numbered n key)
        (pagedName n.id ++ " AS (" ++ ("SELECT *, ROW_NUMBER() OVER (ORDER BY " ++ w ++
          ") AS ROW_NUM FROM " ++ n.name) ++ ")")

/-- The texts of bodies. -/
inductive Body.Spelled (d : Dialect) : Body → String → Prop
  | nested {q : Query Node} {key : SortKey} {u v : String} (columns : Nat)
      (rows : q.Spelled d u) (order : key.Spelled v) :
      Spelled d (.nested columns q key none)
        ("SELECT " ++ ", ".intercalate (columnNames columns) ++ " FROM (" ++ u ++
          ") AS results ORDER BY " ++ v)
  | sliced {q : Query Node} {key : SortKey} {u v : String} (columns : Nat) (page : Page)
      (rows : q.Spelled d u) (order : key.Spelled v) :
      Spelled d (.nested columns q key (some page))
        ("SELECT " ++ ", ".intercalate (columnNames columns) ++ " FROM (" ++ u ++
          ") AS results ORDER BY " ++ v ++ " " ++ page.clause d)
  | listed {key : SortKey} {w : String} (columns : Nat) (name : String) (order : key.Spelled w) :
      Spelled d (.listed columns name key)
        ("SELECT " ++ ", ".intercalate (columnNames columns) ++ " FROM " ++ name ++
          " ORDER BY " ++ w)
  | windowed {key : SortKey} {w : String} (columns : Nat) (name : String) (first last : Nat)
      (order : key.Spelled w) :
      Spelled d (.windowed columns name first last key)
        ("SELECT " ++ ", ".intercalate (columnNames columns) ++ " FROM " ++ name ++
          " WHERE ROW_NUM BETWEEN " ++ toString first ++ " AND " ++ toString last ++
          " ORDER BY " ++ w)
  | count {q : Query Node} {w : String} (name : String) (rows : q.Spelled d w) :
      Spelled d (.count q name) ("SELECT COUNT(*) FROM (" ++ w ++ ") AS " ++ name)

/-- The text of a statement: its definitions behind `WITH`, in order, and its body. -/
structure Statement.Spelled (d : Dialect) (st : Statement) (sql : String) : Prop where
  bare : st.definitions = [] → sql = st.body.sql d
  defined : st.definitions ≠ [] → sql = "WITH " ++
    ", ".intercalate (st.definitions.map (Definition.sql d)) ++ " " ++ st.body.sql d
  definitions : ∀ e ∈ st.definitions, e.Spelled d (e.sql d)
  body : st.body.Spelled d (st.body.sql d)

variable {d : Dialect}

theorem Definition.spelled_sql (e : Definition) : e.Spelled d (e.sql d) := by
  cases e with
  | rows n q => exact .rows n q.spelled_sql
  | numbered n key => exact .numbered n key.spelled_text

theorem Body.spelled_sql (b : Body) : b.Spelled d (b.sql d) := by
  unfold Body.sql
  cases b with
  | nested columns q key page =>
    dsimp only
    cases page with
    | none =>
      rw [String.append_empty]
      exact .nested columns q.spelled_sql key.spelled_text
    | some page =>
      rw [← String.append_assoc]
      exact .sliced columns page q.spelled_sql key.spelled_text
  | listed columns name key => exact .listed columns name key.spelled_text
  | windowed columns name first last key =>
    exact .windowed columns name first last key.spelled_text
  | count q name => exact .count name q.spelled_sql

/-- A statement is written as it is spelled. -/
theorem Statement.spelled_sql (st : Statement) : st.Spelled d (st.sql d) where
  bare h := by rw [Statement.sql, h, List.isEmpty_nil, if_pos rfl]
  defined h := by rw [Statement.sql, if_neg (by simpa using h)]
  definitions e _ := e.spelled_sql
  body := st.body.spelled_sql

namespace Graph

variable {g : Graph} {id sql : String}

/-- The text for the rows of a node spells a statement. -/
theorem statement_of_fetch {page : Option Page} (h : (g.fetchStatement id page).result = .ok sql) :
    ∃ target st, (g.node id).result = .ok target ∧
      (target.fetch g.dialect g.strategy g.size page).result = .ok st ∧
      st.sql g.dialect = sql ∧ st.Spelled g.dialect sql := by
  simp only [fetchStatement, Outcome.bind_eq_ok, Outcome.pure_eq_ok] at h
  obtain ⟨target, ht, st, hst, rfl⟩ := h
  exact ⟨target, st, ht, hst, rfl, st.spelled_sql⟩

/-- The text for the number of rows of a node spells a statement. -/
theorem statement_of_count (h : (g.countStatement id).result = .ok sql) :
    ∃ target st, (g.node id).result = .ok target ∧
      (target.count g.dialect g.strategy g.size).result = .ok st ∧
      st.sql g.dialect = sql ∧ st.Spelled g.dialect sql := by
  simp only [countStatement, Outcome.bind_eq_ok, Outcome.pure_eq_ok] at h
  obtain ⟨target, ht, st, hst, rfl⟩ := h
  exact ⟨target, st, ht, hst, rfl, st.spelled_sql⟩

end Graph

end DataflowSql

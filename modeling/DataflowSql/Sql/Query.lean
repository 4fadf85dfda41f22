import DataflowSql.Sql.Predicate

/-! Queries and what they read, over references of type `ρ` to other queries, and their text. -/
namespace DataflowSql.Sql

/-- An entry of a select list: `expr AS Column_index`. -/
structure Item where
  expr : Expr ColumnRef
  index : Nat

/-- Numbers expressions from zero. -/
def Item.number (exprs : List (Expr ColumnRef)) : List Item :=
  exprs.zipIdx.map fun e => ⟨e.1, e.2⟩

inductive JoinKind where
  | inner
  | leftOuter
  | rightOuter
deriving DecidableEq, Repr

def JoinKind.text : JoinKind → String
  | .inner => "INNER JOIN"
  | .leftOuter => "LEFT OUTER JOIN"
  | .rightOuter => "RIGHT OUTER JOIN"

/-- How the rows of two sources meet: every pair, or on equal values. -/
inductive Meeting where
  | cross
  | on (kind : JoinKind) (left right : Expr ColumnRef)

mutual

inductive Query (ρ : Type) where
  /-- With `star`, all columns of the source stand before the items. -/
  | select (star : Bool) (items : List Item) (source : Source ρ)
      (condition : Option (Predicate ColumnRef)) (groups : List (Expr ColumnRef))
  | union (left right : Query ρ)
  | unionAll (left right : Query ρ)

/-- What stands after `FROM`. -/
inductive Source (ρ : Type) where
  | table (path : List String) (range : String)
  /-- The rows of `target` by name, perhaps under another range. -/
  | named (target : ρ) (range : Option String)
  /-- The rows of `target` by its query, written in place. -/
  | nested (target : ρ) (query : Query ρ) (range : String)
  | join (left : Source ρ) (meeting : Meeting) (right : Source ρ)

end

/-- Items, source and nothing else. -/
def Query.plain {ρ : Type} (exprs : List (Expr ColumnRef)) (source : Source ρ) : Query ρ :=
  .select false (Item.number exprs) source none []

def Item.sql (d : Dialect) (item : Item) : String :=
  item.expr.sql d (ColumnRef.sql d) ++ " AS " ++ columnName item.index

def Meeting.sql (d : Dialect) (left right : String) : Meeting → String
  | .cross => left ++ " CROSS JOIN " ++ right
  | .on kind x y =>
    left ++ " " ++ kind.text ++ " " ++ right ++ " ON " ++ x.sql d (ColumnRef.sql d) ++ " = " ++
      y.sql d (ColumnRef.sql d)

def conditionText (d : Dialect) : Option (Predicate ColumnRef) → String
  | none => ""
  | some p => " WHERE " ++ p.sql d (ColumnRef.sql d)

def groupsText (d : Dialect) (groups : List (Expr ColumnRef)) : String :=
  if groups.isEmpty then ""
  else " GROUP BY " ++ ", ".intercalate (groups.map fun e => e.sql d (ColumnRef.sql d))

def selectList (d : Dialect) (star : Bool) (items : List Item) : String :=
  ", ".intercalate ((if star then ["*"] else []) ++ items.map (Item.sql d))

def Source.isJoin {ρ : Type} : Source ρ → Bool
  | .join _ _ _ => true
  | _ => false

mutual

/-- The text of a query, given the names of the references. -/
def Query.sql {ρ : Type} (d : Dialect) (name : ρ → String) : Query ρ → String
  | .select star items source condition groups =>
    "SELECT " ++ selectList d star items ++ " FROM " ++ source.sql d name ++
      conditionText d condition ++ groupsText d groups
  | .union l r => l.sql d name ++ " UNION " ++ r.sql d name
  | .unionAll l r => l.sql d name ++ " UNION ALL " ++ r.sql d name

/-- The text of a source. A join on the right of another stands in parentheses. -/
def Source.sql {ρ : Type} (d : Dialect) (name : ρ → String) : Source ρ → String
  | .table path range => d.quotePath path ++ " AS " ++ range
  | .named t none => name t
  | .named t (some range) => name t ++ " AS " ++ range
  | .nested _ q range => "(" ++ q.sql d name ++ ") AS " ++ range
  | .join l m r =>
    m.sql d (l.sql d name) (if r.isJoin then "(" ++ r.sql d name ++ ")" else r.sql d name)

end

/-- The references a source makes, in order. What lies inside a nested query is not among them. -/
def Source.reads {ρ : Type} : Source ρ → List ρ
  | .table _ _ => []
  | .named t _ => [t]
  | .nested t _ _ => [t]
  | .join l _ r => l.reads ++ r.reads

end DataflowSql.Sql

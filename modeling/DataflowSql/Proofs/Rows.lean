import Mathlib.Data.Multiset.Bind
import Mathlib.Data.Multiset.Dedup
import DataflowSql.Proofs.Picks

/-! What queries give back. A row is a list of values, `none` for NULL, and a query denotes a bag of
rows. Only selects that list expressions over single rows, and unions of them, are read here. The
rows of a node that is read as a whole, by its name or by its query in place, are given. -/
namespace DataflowSql

open Sql

section Bags

variable {β γ δ : Type}

/-- The pairs that meet, each as often as its sides occur. -/
def matched (meets : β → γ → Bool) (ls : Multiset β) (rs : Multiset γ) : Multiset (β × γ) :=
  (ls ×ˢ rs).filter fun p => meets p.1 p.2

/-- What meets nothing on the other side. -/
def unmatched (meets : β → γ → Bool) (ls : Multiset β) (rs : Multiset γ) : Multiset β :=
  ls.filter fun l => ∀ r ∈ rs, meets l r = false

/-- A join, given what a pair that meets, a lone left side and a lone right side turn into. -/
def joined (kind : JoinKind) (meets : β → γ → Bool) (pair : β → γ → δ) (loneLeft : β → δ)
    (loneRight : γ → δ) (ls : Multiset β) (rs : Multiset γ) : Multiset δ :=
  (matched meets ls rs).map (fun p => pair p.1 p.2) +
    match kind with
    | .inner => 0
    | .leftOuter => (unmatched meets ls rs).map loneLeft
    | .rightOuter => (unmatched (flip meets) rs ls).map loneRight

variable {meets : β → γ → Bool} {ls : Multiset β} {rs : Multiset γ}

theorem mem_matched {p : β × γ} :
    p ∈ matched meets ls rs ↔ (p.1 ∈ ls ∧ p.2 ∈ rs) ∧ meets p.1 p.2 = true := by
  rw [matched, Multiset.mem_filter, Multiset.mem_product]

theorem mem_unmatched {l : β} :
    l ∈ unmatched meets ls rs ↔ l ∈ ls ∧ ∀ r ∈ rs, meets l r = false := by
  rw [unmatched, Multiset.mem_filter]

theorem product_map {β' γ' : Type} (f : β' → β) (g : γ' → γ) (ls : Multiset β')
    (rs : Multiset γ') : ls.map f ×ˢ rs.map g = (ls ×ˢ rs).map (Prod.map f g) := by
  induction ls using Multiset.induction with
  | empty => simp
  | cons l ls ih => simp [ih, Multiset.map_map]

theorem matched_map {β' γ' : Type} (f : β' → β) (g : γ' → γ) (ls : Multiset β')
    (rs : Multiset γ') :
    matched meets (ls.map f) (rs.map g) =
      (matched (fun l r => meets (f l) (g r)) ls rs).map (Prod.map f g) := by
  rw [matched, product_map, Multiset.filter_map]
  rfl

theorem unmatched_map {β' γ' : Type} (f : β' → β) (g : γ' → γ) (ls : Multiset β')
    (rs : Multiset γ') :
    unmatched meets (ls.map f) (rs.map g) =
      (unmatched (fun l r => meets (f l) (g r)) ls rs).map f := by
  rw [unmatched, Multiset.filter_map]
  refine congrArg _ (Multiset.filter_congr fun l _ => ?_)
  simp

/-- A join of rows that are made from others is a join of the others. -/
theorem joined_map {β' γ' : Type} (kind : JoinKind) (pair : β → γ → δ) (loneLeft : β → δ)
    (loneRight : γ → δ) (f : β' → β) (g : γ' → γ) (ls : Multiset β') (rs : Multiset γ') :
    joined kind meets pair loneLeft loneRight (ls.map f) (rs.map g) =
      joined kind (fun l r => meets (f l) (g r)) (fun l r => pair (f l) (g r))
        (fun l => loneLeft (f l)) (fun r => loneRight (g r)) ls rs := by
  unfold joined
  rw [matched_map, Multiset.map_map]
  cases kind with
  | inner => rfl
  | leftOuter =>
    dsimp only
    rw [unmatched_map, Multiset.map_map]
    rfl
  | rightOuter =>
    dsimp only
    rw [unmatched_map, Multiset.map_map]
    rfl

theorem map_joined {ε : Type} (kind : JoinKind) (pair : β → γ → δ) (loneLeft : β → δ)
    (loneRight : γ → δ) (f : δ → ε) :
    (joined kind meets pair loneLeft loneRight ls rs).map f =
      joined kind meets (fun l r => f (pair l r)) (fun l => f (loneLeft l))
        (fun r => f (loneRight r)) ls rs := by
  unfold joined
  cases kind <;> simp [Multiset.map_map]

/-- Only what the sides hold matters to a join. -/
theorem joined_congr {kind : JoinKind} {meets' : β → γ → Bool} {pair pair' : β → γ → δ}
    {loneLeft loneLeft' : β → δ} {loneRight loneRight' : γ → δ}
    (hmeets : ∀ l ∈ ls, ∀ r ∈ rs, meets l r = meets' l r)
    (hpair : ∀ l ∈ ls, ∀ r ∈ rs, pair l r = pair' l r)
    (hleft : ∀ l ∈ ls, loneLeft l = loneLeft' l)
    (hright : ∀ r ∈ rs, loneRight r = loneRight' r) :
    joined kind meets pair loneLeft loneRight ls rs =
      joined kind meets' pair' loneLeft' loneRight' ls rs := by
  have hpairs : matched meets ls rs = matched meets' ls rs := by
    refine Multiset.filter_congr fun p hp => ?_
    rw [Multiset.mem_product] at hp
    rw [hmeets _ hp.1 _ hp.2]
  have hlone : unmatched meets ls rs = unmatched meets' ls rs :=
    Multiset.filter_congr fun l hl => forall₂_congr fun r hr => by rw [hmeets l hl r hr]
  have hlone' : unmatched (flip meets) rs ls = unmatched (flip meets') rs ls :=
    Multiset.filter_congr fun r hr => forall₂_congr fun l hl => by
      rw [flip, flip, hmeets l hl r hr]
  unfold joined
  rw [hpairs, hlone, hlone']
  congr 1
  · refine Multiset.map_congr rfl fun p hp => ?_
    have hsides := (mem_matched.mp hp).1
    exact hpair _ hsides.1 _ hsides.2
  · cases kind with
    | inner => rfl
    | leftOuter => exact Multiset.map_congr rfl fun l hl => hleft l (mem_unmatched.mp hl).1
    | rightOuter => exact Multiset.map_congr rfl fun r hr => hright r (mem_unmatched.mp hr).1

end Bags

abbrev Row (α : Type) := List (Option α)

/-- What queries read and how they compute. Functions are asked for values other than NULL only. -/
structure Database (α : Type) where
  /-- The records of a table, by field. -/
  table : List String → Multiset (String → Option α)
  /-- The rows of a node that is read as a whole. -/
  rows : Node → Multiset (Row α)
  equal : α → α → Bool
  constant : Expr ColumnRef → Option α
  unary : Unary → α → Option α
  binary : Binary → α → α → Option α
  ternary : Ternary → α → α → α → Option α

/-- The values of the columns in scope. What is not in scope has none. -/
abbrev Binding (α : Type) := ColumnRef → Option α

namespace Binding

variable {α : Type}

/-- The columns of a row that is read under a range. -/
def ofRow (range : String) (row : Row α) : Binding α
  | .output i => row[i]?.join
  | .ranged r i => if r = range then row[i]?.join else none
  | .field _ _ => none

def ofRecord (range : String) (record : String → Option α) : Binding α
  | .field r name => if r = range then record name else none
  | _ => none

/-- The columns of two sources, whose ranges differ. -/
def beside (v w : Binding α) : Binding α := fun c => (v c).or (w c)

/-- NULL in every column. -/
def absent : Binding α := fun _ => none

end Binding

namespace Sql

variable {α : Type}

/-- A function over the values of many rows. -/
def Unary.gathers : Unary → Bool
  | .avg => true
  | .sum => true
  | .min => true
  | .max => true
  | _ => false

/-- The expression is worked out for each row by itself. -/
def Expr.isRowwise : Expr ColumnRef → Bool
  | .countAll => false
  | .unary f x => !f.gathers && x.isRowwise
  | .binary _ x y => x.isRowwise && y.isRowwise
  | .ternary _ x y z => x.isRowwise && y.isRowwise && z.isRowwise
  | _ => true

/-- The value of an expression on one row. A function of NULL is NULL. -/
def Expr.value (db : Database α) (v : Binding α) : Expr ColumnRef → Option α
  | .column c => v c
  | .null => none
  | .unary f x => (x.value db v).bind (db.unary f)
  | .binary f x y => (x.value db v).bind fun a => (y.value db v).bind (db.binary f a)
  | .ternary f x y z =>
    (x.value db v).bind fun a => (y.value db v).bind fun b => (z.value db v).bind (db.ternary f a b)
  | e => db.constant e

end Sql

namespace Database

variable {α : Type}

/-- Two values are equal. NULL equals nothing. -/
def agree (db : Database α) : Option α → Option α → Bool
  | some a, some b => db.equal a b
  | _, _ => false

/-- The rows of a keyed join on column `i` of the left rows, which have `lw` columns, and column `k`
of the right ones, which have `rw`. -/
def join (db : Database α) (kind : JoinKind) (i k lw rw : Nat) (ls rs : Multiset (Row α)) :
    Multiset (Row α) :=
  joined kind (fun l r => db.agree l[i]?.join r[k]?.join) (· ++ ·) (· ++ List.replicate rw none)
    (List.replicate lw none ++ ·) ls rs

end Database

namespace Sql

variable {α : Type}

def Meeting.bindings (db : Database α) (ls rs : Multiset (Binding α)) :
    Meeting → Multiset (Binding α)
  | .cross => (ls ×ˢ rs).map fun p => p.1.beside p.2
  | .on kind x y =>
    joined kind (fun v w => db.agree (x.value db (v.beside w)) (y.value db (v.beside w)))
      Binding.beside (fun v => v.beside .absent) (fun w => Binding.absent.beside w) ls rs

/-- What a source puts in scope, once for each of its rows. -/
def Source.bindings (db : Database α) : Source Node → Multiset (Binding α)
  | .table path range => (db.table path).map (.ofRecord range)
  | .named t range => (db.rows t).map (.ofRow (range.getD t.name))
  | .nested t _ range => (db.rows t).map (.ofRow range)
  | .join l m r => m.bindings db (l.bindings db) (r.bindings db)

/-- The rows of a query made of selects that list expressions over single rows. A union keeps one of
each row. -/
def Query.rows? [DecidableEq α] (db : Database α) : Query Node → Option (Multiset (Row α))
  | .select false items source none [] =>
    if items.all fun item => item.expr.isRowwise then
      some ((source.bindings db).map fun v => items.map fun item => item.expr.value db v)
    else none
  | .select _ _ _ _ _ => none
  | .union l r => do return ((← l.rows? db) + (← r.rows? db)).dedup
  | .unionAll l r => do return (← l.rows? db) + (← r.rows? db)

/-- The range a column is written behind. -/
def ColumnRef.range? : ColumnRef → Option String
  | .output _ => none
  | .ranged range _ => some range
  | .field range _ => some range

end Sql

section Scope

variable {α : Type} {db : Database α} {d : Dialect} {v w : Binding α}

/-- Nothing is bound under these ranges. -/
def Binding.SilentOn (v : Binding α) (ranges : List String) : Prop :=
  ∀ c range, c.range? = some range → range ∈ ranges → v c = none

theorem Binding.silentOn_absent (ranges : List String) :
    (Binding.absent : Binding α).SilentOn ranges := fun _ _ _ _ => rfl

theorem Binding.silentOn_ofRow {range : String} {ranges : List String} (h : range ∉ ranges)
    (row : Row α) : (Binding.ofRow range row).SilentOn ranges := by
  intro c r hc hr
  cases c with
  | output i => simp [ColumnRef.range?] at hc
  | ranged r' i =>
    have hne : r' ≠ range := by
      rintro rfl
      exact h (Option.some.inj hc ▸ hr)
    rw [ofRow, if_neg hne]
  | field r' name => rfl

theorem Binding.silentOn_ofRecord {range : String} {ranges : List String} (h : range ∉ ranges)
    (record : String → Option α) : (Binding.ofRecord range record).SilentOn ranges := by
  intro c r hc hr
  cases c with
  | output i => rfl
  | ranged r' i => rfl
  | field r' name =>
    have hne : r' ≠ range := by
      rintro rfl
      exact h (Option.some.inj hc ▸ hr)
    rw [ofRecord, if_neg hne]

theorem Binding.SilentOn.beside {ranges : List String} (hv : v.SilentOn ranges)
    (hw : w.SilentOn ranges) : (v.beside w).SilentOn ranges := by
  intro c range hc hrange
  rw [Binding.beside, hv c range hc hrange, hw c range hc hrange, Option.or_none]

/-- A meeting puts the two sides beside each other, or one of them beside NULLs. -/
theorem Sql.Meeting.silentOn_bindings {m : Meeting} {ls rs : Multiset (Binding α)}
    {ranges : List String} (hl : ∀ v ∈ ls, v.SilentOn ranges) (hr : ∀ w ∈ rs, w.SilentOn ranges) :
    ∀ u ∈ m.bindings db ls rs, u.SilentOn ranges := by
  intro u hu
  cases m with
  | cross =>
    obtain ⟨p, hp, rfl⟩ := Multiset.mem_map.mp hu
    have hsides := Multiset.mem_product.mp hp
    exact (hl _ hsides.1).beside (hr _ hsides.2)
  | on kind x y =>
    rcases Multiset.mem_add.mp hu with hu | hu
    · obtain ⟨p, hp, rfl⟩ := Multiset.mem_map.mp hu
      have hsides := (mem_matched.mp hp).1
      exact (hl _ hsides.1).beside (hr _ hsides.2)
    · cases kind with
      | inner => simp at hu
      | leftOuter =>
        obtain ⟨v, hv, rfl⟩ := Multiset.mem_map.mp hu
        exact (hl v (mem_unmatched.mp hv).1).beside (Binding.silentOn_absent ranges)
      | rightOuter =>
        obtain ⟨w, hw, rfl⟩ := Multiset.mem_map.mp hu
        exact (Binding.silentOn_absent ranges).beside (hr w (mem_unmatched.mp hw).1)

/-- A source binds nothing under the ranges of others. -/
theorem Sql.Source.silentOn_bindings {ranges : List String} : ∀ src : Source Node,
    (src.ranges Node.name).Disjoint ranges → ∀ v ∈ src.bindings db, v.SilentOn ranges
  | .table path range => by
    intro h v hv
    obtain ⟨record, _, rfl⟩ := Multiset.mem_map.mp hv
    exact Binding.silentOn_ofRecord (h (List.mem_singleton_self range)) record
  | .named t range => by
    intro h v hv
    obtain ⟨row, _, rfl⟩ := Multiset.mem_map.mp hv
    exact Binding.silentOn_ofRow (h (List.mem_singleton_self _)) row
  | .nested t q range => by
    intro h v hv
    obtain ⟨row, _, rfl⟩ := Multiset.mem_map.mp hv
    exact Binding.silentOn_ofRow (h (List.mem_singleton_self range)) row
  | .join l m r => by
    intro h
    rw [Source.ranges, List.disjoint_append_left] at h
    exact Meeting.silentOn_bindings (silentOn_bindings l h.1) (silentOn_bindings r h.2)

theorem Dialect.exists_castToText (d : Dialect) (x : Expr ColumnRef) (type : String) :
    ∃ form, d.castToText x type = .unary form x ∧ form.gathers = false := by
  unfold castToText
  cases d with
  | mySql => exact ⟨_, rfl, rfl⟩
  | postgreSql => exact ⟨_, rfl, rfl⟩
  | sqlServer =>
    dsimp only
    split <;> exact ⟨_, rfl, rfl⟩

namespace Sql.Expr.ReadsFrom

variable {range : String} {e : Expr ColumnRef}

theorem value_congr (he : e.ReadsFrom d range)
    (h : ∀ c : ColumnRef, c.range? = some range → v c = w c) : e.value db v = e.value db w := by
  cases he with
  | output index => exact h _ rfl
  | field name => exact h _ rfl
  | cast name type =>
    obtain ⟨form, hform, _⟩ := d.exists_castToText (.column (.field range name)) type
    simp only [hform, Expr.value, h (.field range name) rfl]

/-- NULL stays NULL when it is cast. -/
theorem value_absent (he : e.ReadsFrom d range) : e.value db .absent = none := by
  cases he with
  | output index => rfl
  | field name => rfl
  | cast name type =>
    obtain ⟨form, hform, _⟩ := d.exists_castToText (.column (.field range name)) type
    rw [hform]
    rfl

theorem isRowwise (he : e.ReadsFrom d range) : e.isRowwise = true := by
  cases he with
  | output index => rfl
  | field name => rfl
  | cast name type =>
    obtain ⟨form, hform, hrowwise⟩ := d.exists_castToText (.column (.field range name)) type
    rw [hform, Expr.isRowwise, hrowwise]
    rfl

end Sql.Expr.ReadsFrom

end Scope

namespace Node

variable {α : Type} {db : Database α} {d : Dialect} {v w : Binding α}

namespace Operand

/-- Every column is read from a range of the source. -/
def InScope (d : Dialect) (o : Operand) : Prop :=
  ∀ e ∈ o.columns, ∃ range ∈ o.source.ranges Node.name, e.ReadsFrom d range

def row (db : Database α) (o : Operand) (v : Binding α) : Row α :=
  o.columns.map fun e => e.value db v

/-- All columns of the operand, for each row of its source. -/
def rows (db : Database α) (o : Operand) : Multiset (Row α) := (o.source.bindings db).map (o.row db)

variable {o a b : Operand}

theorem row_beside_left (ho : o.InScope d) (hw : w.SilentOn (o.source.ranges Node.name)) :
    o.row db (v.beside w) = o.row db v := by
  refine List.map_congr_left fun e he => ?_
  obtain ⟨range, hrange, hreads⟩ := ho e he
  refine hreads.value_congr fun c hc => ?_
  rw [Binding.beside, hw c range hc hrange, Option.or_none]

theorem row_beside_right (ho : o.InScope d) (hv : v.SilentOn (o.source.ranges Node.name)) :
    o.row db (v.beside w) = o.row db w := by
  refine List.map_congr_left fun e he => ?_
  obtain ⟨range, hrange, hreads⟩ := ho e he
  refine hreads.value_congr fun c hc => ?_
  rw [Binding.beside, hv c range hc hrange, Option.none_or]

theorem row_absent (ho : o.InScope d) :
    o.row db .absent = List.replicate o.columns.length none := by
  refine List.eq_replicate_iff.mpr ⟨List.length_map _, fun x hx => ?_⟩
  obtain ⟨e, he, rfl⟩ := List.mem_map.mp hx
  obtain ⟨range, _, hreads⟩ := ho e he
  exact hreads.value_absent

theorem value_of_getElem? {i : Nat} {x : Expr ColumnRef} (hx : o.columns[i]? = some x) :
    (o.row db v)[i]?.join = x.value db v := by
  rw [row, List.getElem?_map, hx]
  rfl

theorem isRowwise_of_inScope (ho : o.InScope d) : ∀ e ∈ o.columns, e.isRowwise = true := by
  intro e he
  obtain ⟨range, _, hreads⟩ := ho e he
  exact hreads.isRowwise

theorem rows?_plain [DecidableEq α] {exprs : List (Expr ColumnRef)}
    (hexprs : ∀ e ∈ exprs, e.isRowwise = true) (source : Source Node) :
    (Query.plain exprs source).rows? db =
      some ((source.bindings db).map fun v => exprs.map fun e => e.value db v) := by
  have hitems : (Item.number exprs).map Item.expr = exprs := by
    conv_rhs => rw [← exprs.zipIdx_map_fst 0]
    rw [Item.number, List.map_map]
    rfl
  have hvalues (v : Binding α) :
      ((Item.number exprs).map fun item => item.expr.value db v) =
        exprs.map fun e => e.value db v := by
    conv_rhs => rw [← hitems]
    rw [List.map_map]
    rfl
  have hall : ((Item.number exprs).all fun item => item.expr.isRowwise) = true := by
    rw [List.all_eq_true]
    intro item hitem
    refine hexprs _ ?_
    rw [← hitems]
    exact List.mem_map_of_mem hitem
  simp only [Query.plain, Query.rows?, hall, hvalues, if_true]

/-- A join of operands with different ranges gives back the join of what they hold. -/
theorem rows?_joined [DecidableEq α] (ha : a.InScope d) (hb : b.InScope d)
    (hdisjoint : (a.source.ranges Node.name).Disjoint (b.source.ranges Node.name)) {i k : Nat}
    {x y : Expr ColumnRef} (hx : a.columns[i]? = some x) (hy : b.columns[k]? = some y)
    (kind : JoinKind) :
    (Query.plain (a.columns ++ b.columns) (.join a.source (.on kind x y) b.source)).rows? db =
      some (db.join kind i k a.columns.length b.columns.length (a.rows db) (b.rows db)) := by
  have hleft : ∀ v ∈ a.source.bindings db, v.SilentOn (b.source.ranges Node.name) :=
    a.source.silentOn_bindings hdisjoint
  have hright : ∀ w ∈ b.source.bindings db, w.SilentOn (a.source.ranges Node.name) :=
    b.source.silentOn_bindings hdisjoint.symm
  have hrowwise : ∀ e ∈ a.columns ++ b.columns, e.isRowwise = true := by
    intro e he
    rcases List.mem_append.mp he with he | he
    · exact isRowwise_of_inScope ha e he
    · exact isRowwise_of_inScope hb e he
  rw [rows?_plain hrowwise, Option.some.injEq, Source.bindings, Meeting.bindings, Database.join,
    rows, rows, map_joined, joined_map]
  have hrow (v : Binding α) : ((a.columns ++ b.columns).map fun e => e.value db v) =
      a.row db v ++ b.row db v := List.map_append
  simp only [hrow, value_of_getElem? hx, value_of_getElem? hy]
  refine joined_congr (fun v hv w hw => ?_) (fun v hv w hw => ?_) (fun v hv => ?_) fun w hw => ?_
  · rw [← value_of_getElem? hx, ← value_of_getElem? hy, row_beside_left ha (hright w hw),
      row_beside_right hb (hleft v hv), value_of_getElem? hx, value_of_getElem? hy]
  · rw [row_beside_left ha (hright w hw), row_beside_right hb (hleft v hv)]
  · rw [row_beside_left ha (Binding.silentOn_absent _), row_beside_right hb (hleft v hv),
      row_absent hb]
  · rw [row_beside_left ha (hright w hw), row_beside_right hb (Binding.silentOn_absent _),
      row_absent ha]

end Operand

variable {s : Strategy} {n l r : Node} {o : Operand}

theorem inScope_of_operand (ho : (n.operand d s).result = .ok o) : o.InScope d := by
  obtain ⟨p, _, hcolumns, hsource⟩ := operand_eq_ok.mp ho
  have hranges := ranges_of_read_spliced hsource
  intro e he
  obtain ⟨i, hi⟩ := List.getElem?_of_mem he
  exact readsFrom_of_column hranges ((Outcome.mapM_range_eq_ok.mp hcolumns).2 i e hi)

theorem inScope_of_rightOperand {id : String} (ho : (rightOperand d s id l r).result = .ok o) :
    o.InScope d := by
  obtain ⟨range, p, hrange, _, hcolumns, hsource⟩ := rightOperand_eq_ok.mp ho
  obtain ⟨ls, qs, hls, hqs⟩ := exists_ranges_of_renameRight? hrange
  have hranges := ranges_of_read_right (fun _ => ranges_of_read_spliced) hls hqs hrange hsource
  intro e he
  obtain ⟨i, hi⟩ := List.getElem?_of_mem he
  rw [hranges]
  exact readsFrom_of_rightColumn hls hqs (fun _ => readsFrom_of_column hqs)
    ((Outcome.mapM_range_eq_ok.mp hcolumns).2 i e hi)

/-- The rows that the database has for a node are rows of that node: they have a value for each of
its columns and, where a consumer may take over its source, they are what its own query gives. -/
structure Suits [DecidableEq α] (db : Database α) (d : Dialect) (s : Strategy) (n : Node) :
    Prop where
  width : ∀ p, (n.projection d).result = .ok p → ∀ row ∈ db.rows n, row.length = p.length
  own : n.isSpliceable = true → ∀ q, (n.query d s).result = .ok q →
    q.rows? db = some (db.rows n)

theorem bindings_of_read_whole {range : Option String} {src : Source Node}
    (h : (n.read d s (.whole range)).result = .ok src) :
    src.bindings db = (db.rows n).map (.ofRow (range.getD n.name)) := by
  cases s with
  | commonTableExpressions =>
    rw [read_whole_named, Outcome.ok_eq_ok] at h
    subst h
    rfl
  | inline =>
    obtain ⟨q, _, rfl⟩ := read_whole_nested_eq_ok.mp h
    rfl

/-- A node that is read as a whole under a range, column by column, gives back its rows. -/
theorem rows_of_whole {range : String}
    (hcolumns : ∀ (i : Nat) e, o.columns[i]? = some e → e = .column (.ranged range i))
    (hsource : o.source.bindings db = (db.rows n).map (.ofRow range))
    (hwidth : ∀ row ∈ db.rows n, row.length = o.columns.length) : o.rows db = db.rows n := by
  rw [Operand.rows, hsource, Multiset.map_map]
  conv_rhs => rw [← Multiset.map_id (db.rows n)]
  refine Multiset.map_congr rfl fun row hrow => List.ext_getElem? fun i => ?_
  rw [Function.comp_apply, Operand.row, List.getElem?_map, id_eq]
  by_cases hi : i < row.length
  · have hcolumn := List.getElem?_eq_getElem (hwidth row hrow ▸ hi)
    rw [hcolumn, hcolumns i _ hcolumn, List.getElem?_eq_getElem hi]
    simp [Expr.value, Binding.ofRow, hi]
  · have hbeyond : o.columns.length ≤ i := by
      rw [← hwidth row hrow]
      exact Nat.le_of_not_lt hi
    rw [List.getElem?_eq_none hbeyond, List.getElem?_eq_none (Nat.le_of_not_lt hi), Option.map_none]

theorem rows_of_operand [DecidableEq α] (hn : n.Suits db d s)
    (ho : (n.operand d s).result = .ok o) : o.rows db = db.rows n := by
  cases hsplice : n.isSpliceable with
  | true =>
    have hrows := hn.own hsplice _ (query_of_operand hsplice ho)
    rw [Operand.rows?_plain (Operand.isRowwise_of_inScope (inScope_of_operand ho)),
      Option.some.injEq] at hrows
    exact hrows
  | false =>
    obtain ⟨p, hp, hcolumns, hsource⟩ := operand_eq_ok.mp ho
    have hcolumn := Outcome.mapM_range_eq_ok.mp hcolumns
    rw [read_spliced_of_whole hsplice] at hsource
    refine rows_of_whole (fun i e he => ?_) (bindings_of_read_whole hsource) ?_
    · exact Outcome.result_unique (hcolumn.2 i e he) (column_of_whole hsplice i)
    · rw [hcolumn.1]
      exact hn.width p hp

/-- What a join reads as its second input, under whichever ranges, are the rows of that input. -/
theorem rows_of_rightOperand [DecidableEq α] (hr : r.Suits db d s) {id : String}
    (ho : (rightOperand d s id l r).result = .ok o) : o.rows db = db.rows r := by
  obtain ⟨range, p, hrange, hp, hcolumns, hsource⟩ := rightOperand_eq_ok.mp ho
  cases range with
  | none => exact rows_of_operand hr ((rightOperand_of_kept hrange).mp ho)
  | some range =>
    have hcolumn := Outcome.mapM_range_eq_ok.mp hcolumns
    refine rows_of_whole (fun i e he => ?_) (bindings_of_read_whole hsource) ?_
    · have hright := hcolumn.2 i e he
      simp only [rightColumn, Outcome.bind_eq_ok, hrange, Except.ok.injEq, exists_eq_left',
        Outcome.pure_eq_ok] at hright
      exact hright.symm
    · rw [hcolumn.1]
      exact hr.width p hp

end Node

end DataflowSql

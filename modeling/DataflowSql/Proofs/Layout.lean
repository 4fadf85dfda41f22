import DataflowSql.Compile.Query
import DataflowSql.Proofs.Node

/-! Queries before their inputs are written out. The layout of a node fixes everything in its query
except how the inputs it names are read. It does not depend on the strategy: a query is its layout
with every input replaced by what reading that input gives. -/
namespace DataflowSql.Node

open Sql

/-- All of a `SELECT` but its source. -/
structure Heading where
  star : Bool
  items : List Item
  condition : Option (Predicate ColumnRef)
  groups : List (Expr ColumnRef)

namespace Heading

def plain (exprs : List (Expr ColumnRef)) : Heading := ⟨false, Item.number exprs, none, []⟩

def selectFrom (h : Heading) (source : Source Node) : Query Node :=
  .select h.star h.items source h.condition h.groups

end Heading

/-- A source whose inputs are still to be read. -/
inductive Place where
  | table (path : List String) (range : String)
  | input (node : Node) (mode : Mode)
  | join (left : Node) (meeting : Meeting) (right : Node) (mode : Mode)

def Place.source (d : Dialect) (s : Strategy) : Place → Outcome (Source Node)
  | .table path range => return .table path range
  | .input m mode => m.read d s mode
  | .join l meeting r mode => do
    let left ← l.read d s .spliced
    let right ← r.read d s mode
    return .join left meeting right

structure Branch where
  heading : Heading
  place : Place

def Branch.query (d : Dialect) (s : Strategy) (b : Branch) : Outcome (Query Node) := do
  return b.heading.selectFrom (← b.place.source d s)

inductive Layout where
  | single (branch : Branch)
  | union (left right : Branch)
  | stack (first : Branch) (rest : List Branch)

namespace Layout

def branches : Layout → List Branch
  | .single b => [b]
  | .union l r => [l, r]
  | .stack b bs => b :: bs

def query (d : Dialect) (s : Strategy) : Layout → Outcome (Query Node)
  | .single b => b.query d s
  | .union l r => do return .union (← l.query d s) (← r.query d s)
  | .stack b bs => do return Node.stack (← b.query d s) (← bs.mapM (Branch.query d s))

end Layout

/-- How a join reads its second input. -/
def rightMode : Option String → Mode
  | none => .spliced
  | some range => .whole (some range)

/-- How the rows of a join's inputs meet. -/
def meeting (d : Dialect) (n : Node) (j : Join) (l r : Node) : JoinShape → Outcome Meeting
  | .cross => return .cross
  | .keyed kind => do
    let i ← Outcome.ofOption (.missingSetting n.id .table1Column) j.table1Column
    let k ← Outcome.ofOption (.missingSetting n.id .table2Column) j.table2Column
    checkIndex d n.id l i
    checkIndex d n.id r k
    let x ← l.column d i
    let y ← rightColumn n.id l r (r.column d) k
    return .on kind x y

def tablePlace (s : TableSource) (n : Node) : Outcome Place := do
  s.requireColumns n.id n.schema
  return .table ((n.schema.map TableSchema.path).getD []) (tableRange n.id)

def joinPlace (d : Dialect) (n : Node) (j : Join) (shape : JoinShape) : Outcome Place := do
  let l ← n.input 0
  let r ← n.input 1
  let range ← renameRight? n.id l r
  let m ← meeting d n j l r shape
  return .join l m r (rightMode range)

def joinBranch (d : Dialect) (n : Node) (j : Join) (shape : JoinShape) : Outcome Branch := do
  let l ← n.input 0
  let r ← n.input 1
  let p ← n.projection d
  let exprs ← (List.range p.length).mapM (joinColumn d n.id l r (l.column d) (r.column d))
  return ⟨.plain exprs, ← joinPlace d n j shape⟩

def appendBranch (d : Dialect) (out : Projection) (m : Node) : Outcome Branch := do
  let available ← m.projection d
  return ⟨.plain (Append.branch out available), .input m (.whole none)⟩

/-- What a node with one input makes of it. -/
def headingOver (d : Dialect) (n m : Node) : Outcome Heading :=
  match n.operation with
  | .select s => do
    let p ← m.projection d
    let picks := s.picks p.length
    if picks.isEmpty then Outcome.fail (.missingSetting n.id .includedColumnIndexes)
    return .plain (← picks.mapM fun pick => m.column d pick.index)
  | .filter f => do
    let condition ← f.predicate d n.id fun _ => m.projection d
    return ⟨true, [], some condition, []⟩
  | .summarize s => do
    let outputs ← s.outputs d n.id (← m.projection d)
    if outputs.all.isEmpty then Outcome.fail (.missingSetting n.id .aggregateFunctions)
    return ⟨false, Item.number (outputs.all.map (·.expr)), none, outputs.groups.map (·.expr)⟩
  | .extract e => do
    let p ← m.projection d
    let slice ← e.slice d n.id fun _ => m.projection d
    return ⟨true, [⟨slice, p.length⟩], none, []⟩
  | .chartProjection c => do
    let picks ← c.picks n.id (← m.projection d)
    return .plain (picks.map fun i => .column (.output i))
  | _ => return ⟨true, [], none, []⟩

/-- How many inputs the query of an operation looks at. -/
inductive Arity where
  | zero
  | one
  | two
  | all

def arity : Operation → Arity
  | .tableSource _ => .zero
  | .join _ => .two
  | .append _ => .all
  | _ => .one

/-- Only a selection takes over the source of its input. -/
def inputMode : Operation → Mode
  | .select _ => .spliced
  | _ => .whole none

def layout (d : Dialect) (n : Node) : Outcome Layout :=
  match n.operation with
  | .tableSource s => do
    let exprs := (TableSource.columnsOf n.schema).map (TableSource.columnExpr d n.id)
    return .single ⟨.plain exprs, ← tablePlace s n⟩
  | .join j =>
    match j.joinType.shape? with
    | some shape => do return .single (← joinBranch d n j shape)
    | none => do
      let left ← joinBranch d n j (.keyed .leftOuter)
      let right ← joinBranch d n j (.keyed .rightOuter)
      return .union left right
  | .append _ => do
    let out ← n.projection d
    let inputs ← n.allInputs
    match ← inputs.mapM (appendBranch d out) with
    | [] => Outcome.fail (.missingInput n.id 0 0)
    | b :: bs => return .stack b bs
  | op => do
    let m ← n.input 0
    return .single ⟨← headingOver d n m, .input m (inputMode op)⟩

/-- What a consumer that splices the node in takes over. -/
def splice (d : Dialect) (n : Node) : Outcome Place :=
  match n.operation with
  | .tableSource s => tablePlace s n
  | .join j =>
    match j.joinType.shape? with
    | some shape => joinPlace d n j shape
    | none => return .input n (.whole none)
  | _ => return .input n (.whole none)

theorem input_eq_ok {n m : Node} {i : Nat} :
    (n.input i).result = .ok m ↔ n.inputs[i]? = some (.found m) := by
  simp only [input, slots, Outcome.bind_eq_ok, Slot.reachAt_eq_ok, Outcome.pure_eq_ok]
  constructor
  · intro h
    obtain ⟨_, ⟨k, hk, rfl⟩, rfl⟩ := h
    exact hk
  · intro hm
    exact ⟨_, ⟨m, hm, rfl⟩, rfl⟩

variable {d : Dialect} {s : Strategy} {n : Node}

theorem read_eq (mode : Mode) : n.read d s mode = readStep d s n (n.readers d s) mode := by
  rw [read, fold_eq, readers]

theorem reachAt_readers_eq_ok {id : String} {i : Nat} {r : Reached Reading} :
    (Slot.reachAt id (n.readers d s) i).result = .ok r ↔
      ∃ m, (n.input i).result = .ok m ∧ r = ⟨m, fun _ => m.read d s⟩ := by
  simp only [readers, Slot.reachAt_eq_ok, input_eq_ok]
  rfl

theorem place_join_eq_ok {l r : Node} {m : Meeting} {mode : Mode} {src : Source Node} :
    ((Place.join l m r mode).source d s).result = .ok src ↔
      ∃ ls rs, (l.read d s .spliced).result = .ok ls ∧ (r.read d s mode).result = .ok rs ∧
        .join ls m rs = src := by
  simp only [Place.source, Outcome.bind_eq_ok, Outcome.pure_eq_ok]
  constructor
  · intro h
    obtain ⟨ls, hls, rs, hrs, rfl⟩ := h
    exact ⟨ls, rs, hls, hrs, rfl⟩
  · intro h
    obtain ⟨ls, rs, hls, hrs, rfl⟩ := h
    exact ⟨ls, hls, rs, hrs, rfl⟩

theorem tableSource_source_eq_ok {t : TableSource} {src : Source Node} :
    (t.source n.id n.schema).result = .ok src ↔
      ∃ place, (tablePlace t n).result = .ok place ∧ (place.source d s).result = .ok src := by
  simp only [TableSource.source, tablePlace, Outcome.bind_eq_ok, Outcome.pure_eq_ok]
  constructor
  · intro h
    obtain ⟨u, hu, rfl⟩ := h
    refine ⟨_, ⟨u, hu, rfl⟩, ?_⟩
    cases n.schema <;> simp [Place.source]
  · intro h
    obtain ⟨_, ⟨u, hu, rfl⟩, h⟩ := h
    refine ⟨u, hu, ?_⟩
    cases hs : n.schema <;> simpa [Place.source, hs] using h

/-- The operands of a join are read and its settings looked at in a fixed order; for success the
order does not matter. -/
theorem joinSource_eq_ok {j : Join} {shape : JoinShape} {src : Source Node} :
    (joinSource d n j shape (n.readers d s)).result = .ok src ↔
      ∃ place, (joinPlace d n j shape).result = .ok place ∧
        (place.source d s).result = .ok src := by
  simp only [joinSource, joinPlace, Outcome.bind_eq_ok, Outcome.pure_eq_ok,
    reachAt_readers_eq_ok]
  constructor
  · intro h
    obtain ⟨_, ⟨l, hl, rfl⟩, _, ⟨r, hr, rfl⟩, ls, hls, rs, hrs, h⟩ := h
    simp only [rightSource, Outcome.bind_eq_ok] at hrs
    obtain ⟨range, hrange, hrs⟩ := hrs
    have hright : (r.read d s (rightMode range)).result = .ok rs := by
      cases range <;> exact hrs
    cases shape with
    | cross =>
      simp only [Outcome.pure_eq_ok] at h
      refine ⟨_, ⟨l, hl, r, hr, range, hrange, .cross, by simp [meeting], rfl⟩, ?_⟩
      exact place_join_eq_ok.mpr ⟨ls, rs, hls, hright, h⟩
    | keyed kind =>
      simp only [Outcome.bind_eq_ok, Outcome.pure_eq_ok] at h
      obtain ⟨i, hi, k, hk, u, hu, v, hv, x, hx, y, hy, rfl⟩ := h
      refine ⟨_, ⟨l, hl, r, hr, range, hrange, .on kind x y, ?_, rfl⟩, ?_⟩
      · simp only [meeting, Outcome.bind_eq_ok, Outcome.pure_eq_ok]
        exact ⟨i, hi, k, hk, u, hu, v, hv, x, hx, y, hy, rfl⟩
      · exact place_join_eq_ok.mpr ⟨ls, rs, hls, hright, rfl⟩
  · intro h
    obtain ⟨_, ⟨l, hl, r, hr, range, hrange, m, hm, rfl⟩, h⟩ := h
    obtain ⟨ls, rs, hls, hrs, rfl⟩ := place_join_eq_ok.mp h
    refine ⟨_, ⟨l, hl, rfl⟩, _, ⟨r, hr, rfl⟩, ls, hls, rs, ?_, ?_⟩
    · simp only [rightSource, Outcome.bind_eq_ok]
      refine ⟨range, hrange, ?_⟩
      cases range <;> exact hrs
    · cases shape with
      | cross =>
        simp only [meeting, Outcome.pure_eq_ok] at hm
        simp [hm]
      | keyed kind =>
        simp only [meeting, Outcome.bind_eq_ok, Outcome.pure_eq_ok] at hm ⊢
        obtain ⟨i, hi, k, hk, u, hu, v, hv, x, hx, y, hy, rfl⟩ := hm
        exact ⟨i, hi, k, hk, u, hu, v, hv, x, hx, y, hy, rfl⟩

theorem joinQuery_eq_ok {j : Join} {shape : JoinShape} {q : Query Node} :
    (joinQuery d n j shape (n.readers d s)).result = .ok q ↔
      ∃ b, (joinBranch d n j shape).result = .ok b ∧ (b.query d s).result = .ok q := by
  simp only [joinQuery, joinBranch, Branch.query, Outcome.bind_eq_ok, Outcome.pure_eq_ok,
    reachAt_readers_eq_ok, joinSource_eq_ok]
  constructor
  · intro h
    obtain ⟨p, hp, _, ⟨l, hl, rfl⟩, _, ⟨r, hr, rfl⟩, exprs, he, src, hsource, rfl⟩ := h
    obtain ⟨place, hplace, hsrc⟩ := hsource
    exact ⟨_, ⟨l, hl, r, hr, p, hp, exprs, he, place, hplace, rfl⟩, src, hsrc, rfl⟩
  · intro h
    obtain ⟨_, ⟨l, hl, r, hr, p, hp, exprs, he, place, hplace, rfl⟩, src, hsrc, rfl⟩ := h
    exact ⟨p, hp, _, ⟨l, hl, rfl⟩, _, ⟨r, hr, rfl⟩, exprs, he, src, ⟨place, hplace, hsrc⟩, rfl⟩

theorem read_spliced_eq_ok {src : Source Node} :
    (n.read d s .spliced).result = .ok src ↔
      ∃ place, (n.splice d).result = .ok place ∧ (place.source d s).result = .ok src := by
  have hwhole : (wholeStep d s n (n.readers d s) none).result = .ok src ↔
      ∃ place, (pure (.input n (.whole none)) : Outcome Place).result = .ok place ∧
        (place.source d s).result = .ok src := by
    simp [Place.source, read_eq, readStep]
  rw [read_eq]
  unfold readStep splice
  cases hop : n.operation with
  | tableSource t => exact tableSource_source_eq_ok
  | join j =>
    simp only
    cases j.joinType.shape? with
    | some shape => exact joinSource_eq_ok
    | none => exact hwhole
  | _ => exact hwhole

theorem read_whole_named (range : Option String) :
    n.read d .commonTableExpressions (.whole range) = Outcome.ok (.named n range) := by
  rw [read_eq]
  rfl

theorem read_whole_nested_eq_ok {range : Option String} {src : Source Node} :
    (n.read d .inline (.whole range)).result = .ok src ↔
      ∃ q, (n.query d .inline).result = .ok q ∧ .nested n q (range.getD n.name) = src := by
  rw [read_eq]
  simp only [readStep, wholeStep, Outcome.bind_eq_ok, Outcome.pure_eq_ok]
  rfl

theorem branch_query_eq_ok {b : Branch} {q : Query Node} :
    (b.query d s).result = .ok q ↔
      ∃ src, (b.place.source d s).result = .ok src ∧ b.heading.selectFrom src = q := by
  simp only [Branch.query, Outcome.bind_eq_ok, Outcome.pure_eq_ok]

/-- A node that reads its first input: what it makes of the input and how it reads it may be worked
out in either order. -/
theorem over_first_input_eq_ok {k : Reached Reading → Outcome (Query Node)} {q : Query Node}
    {mode : Mode}
    (hk : ∀ m : Node, (k ⟨m, fun _ => m.read d s⟩).result = .ok q ↔
      ∃ h, (headingOver d n m).result = .ok h ∧
        ∃ src, (m.read d s mode).result = .ok src ∧ h.selectFrom src = q) :
    (Slot.reachAt n.id (n.readers d s) 0 >>= k).result = .ok q ↔
      ∃ layout : Layout, (do
        let m ← n.input 0
        return .single ⟨← headingOver d n m, .input m mode⟩ : Outcome Layout).result = .ok layout ∧
          (layout.query d s).result = .ok q := by
  simp only [Outcome.bind_eq_ok, Outcome.pure_eq_ok, reachAt_readers_eq_ok]
  constructor
  · intro h
    obtain ⟨_, ⟨m, hm, rfl⟩, hq⟩ := h
    obtain ⟨h, hh, hq⟩ := (hk m).mp hq
    exact ⟨_, ⟨m, hm, h, hh, rfl⟩, branch_query_eq_ok.mpr hq⟩
  · intro h
    obtain ⟨_, ⟨m, hm, h, hh, rfl⟩, hq⟩ := h
    exact ⟨_, ⟨m, hm, rfl⟩, (hk m).mpr ⟨h, hh, branch_query_eq_ok.mp hq⟩⟩

theorem tableSource_query_eq_ok {t : TableSource} {q : Query Node} :
    (t.query d n.id n.schema).result = .ok q ↔
      ∃ place, (tablePlace t n).result = .ok place ∧
        ∃ src, (place.source d s).result = .ok src ∧
          (Heading.plain ((TableSource.columnsOf n.schema).map
            (TableSource.columnExpr d n.id))).selectFrom src = q := by
  simp only [TableSource.query, Outcome.bind_eq_ok, Outcome.pure_eq_ok,
    tableSource_source_eq_ok (d := d) (s := s)]
  constructor
  · intro h
    obtain ⟨_, _, src, ⟨place, hplace, hsrc⟩, rfl⟩ := h
    exact ⟨place, hplace, src, hsrc, rfl⟩
  · intro h
    obtain ⟨place, hplace, src, hsrc, rfl⟩ := h
    have hcols := hplace
    simp only [tablePlace, Outcome.bind_eq_ok] at hcols
    obtain ⟨u, hu, _⟩ := hcols
    exact ⟨u, hu, src, ⟨place, hplace, hsrc⟩, rfl⟩

theorem appendBranch_bind_query (out : Projection) (m : Node) :
    (appendBranch d out m >>= Branch.query d s) = (do
      let available ← m.projection d
      let source ← m.read d s (.whole none)
      return Query.plain (Append.branch out available) source) := by
  simp [appendBranch, Branch.query, Place.source, Heading.selectFrom, Heading.plain, Query.plain]

/-- The rows of all inputs below each other, first with the inputs unread. -/
theorem appendBranches_eq_ok {out : Projection} {ms : List Node} {qs : List (Query Node)} :
    ((ms.map (Slot.answering (readStep d s))).mapM fun input => do
      let available ← input.node.projection d
      let source ← input.answer () (.whole none)
      return Query.plain (Append.branch out available) source : Outcome _).result = .ok qs ↔
      ∃ bs, (ms.mapM (appendBranch d out)).result = .ok bs ∧
        (bs.mapM (Branch.query d s)).result = .ok qs := by
  rw [← Outcome.mapM_bind_eq_ok, List.mapM_map]
  simp only [appendBranch_bind_query]
  rfl

theorem stack_query_eq_ok {b : Branch} {bs : List Branch} {q : Query Node} :
    ((Layout.stack b bs).query d s).result = .ok q ↔
      ∃ p ps, ((b :: bs).mapM (Branch.query d s)).result = .ok (p :: ps) ∧ stack p ps = q := by
  simp only [Layout.query, List.mapM_cons, Outcome.bind_eq_ok, Outcome.pure_eq_ok]
  constructor
  · intro h
    obtain ⟨p, hp, ps, hps, rfl⟩ := h
    exact ⟨p, ps, ⟨p, hp, ps, hps, rfl⟩, rfl⟩
  · intro h
    obtain ⟨_, _, ⟨p, hp, ps, hps, he⟩, rfl⟩ := h
    cases he
    exact ⟨_, hp, _, hps, rfl⟩

/-- A query is its layout with every input read. -/
theorem query_eq_ok {q : Query Node} :
    (n.query d s).result = .ok q ↔
      ∃ layout, (n.layout d).result = .ok layout ∧ (layout.query d s).result = .ok q := by
  unfold query queryStep layout
  cases hop : n.operation with
  | tableSource t =>
    simp only [tableSource_query_eq_ok (d := d) (s := s), Outcome.bind_eq_ok, Outcome.pure_eq_ok]
    constructor
    · intro h
      obtain ⟨place, hplace, hq⟩ := h
      exact ⟨_, ⟨place, hplace, rfl⟩, branch_query_eq_ok.mpr hq⟩
    · intro h
      obtain ⟨_, ⟨place, hplace, rfl⟩, hq⟩ := h
      exact ⟨place, hplace, branch_query_eq_ok.mp hq⟩
  | join j =>
    simp only
    cases j.joinType.shape? with
    | some shape =>
      simp only [joinQuery_eq_ok, Outcome.bind_eq_ok, Outcome.pure_eq_ok]
      constructor
      · intro h
        obtain ⟨b, hb, hq⟩ := h
        exact ⟨_, ⟨b, hb, rfl⟩, hq⟩
      · intro h
        obtain ⟨_, ⟨b, hb, rfl⟩, hq⟩ := h
        exact ⟨b, hb, hq⟩
    | none =>
      simp only [joinQuery_eq_ok, Outcome.bind_eq_ok, Outcome.pure_eq_ok]
      constructor
      · intro h
        obtain ⟨ql, ⟨bl, hbl, hql⟩, qr, ⟨br, hbr, hqr⟩, rfl⟩ := h
        refine ⟨_, ⟨bl, hbl, br, hbr, rfl⟩, ?_⟩
        simp only [Layout.query, Outcome.bind_eq_ok, Outcome.pure_eq_ok]
        exact ⟨ql, hql, qr, hqr, rfl⟩
      · intro h
        obtain ⟨_, ⟨bl, hbl, br, hbr, rfl⟩, hq⟩ := h
        simp only [Layout.query, Outcome.bind_eq_ok, Outcome.pure_eq_ok] at hq
        obtain ⟨ql, hql, qr, hqr, rfl⟩ := hq
        exact ⟨ql, ⟨bl, hbl, hql⟩, qr, ⟨br, hbr, hqr⟩, rfl⟩
  | append a =>
    simp only [readers, Outcome.bind_eq_ok, Slot.mapM_reach_eq_ok, allInputs_eq_ok]
    constructor
    · intro h
      obtain ⟨out, hout, _, ⟨ms, hms, rfl⟩, qs, hqs, hq⟩ := h
      obtain ⟨bs, hbs, hqs⟩ := appendBranches_eq_ok.mp hqs
      cases bs with
      | nil =>
        simp only [List.mapM_nil, Outcome.pure_eq_ok] at hqs
        subst hqs
        simp at hq
      | cons b bs =>
        cases qs with
        | nil => simp at hq
        | cons p ps =>
          simp only [Outcome.pure_eq_ok] at hq
          refine ⟨.stack b bs, ⟨out, hout, ms, hms, b :: bs, hbs, by simp⟩, ?_⟩
          exact stack_query_eq_ok.mpr ⟨p, ps, hqs, hq⟩
    · intro h
      obtain ⟨layout, ⟨out, hout, ms, hms, bs, hbs, hl⟩, hq⟩ := h
      cases bs with
      | nil => simp at hl
      | cons b bs =>
        simp only [Outcome.pure_eq_ok] at hl
        subst hl
        obtain ⟨p, ps, hps, rfl⟩ := stack_query_eq_ok.mp hq
        exact ⟨out, hout, _, ⟨ms, hms, rfl⟩, p :: ps,
          appendBranches_eq_ok.mpr ⟨_, hbs, hps⟩, by simp⟩
  | select st =>
    refine over_first_input_eq_ok fun m => ?_
    simp only [headingOver, hop, inputMode, Outcome.bind_eq_ok, Outcome.guarded_eq_ok,
      Outcome.pure_eq_ok]
    constructor
    · intro h
      obtain ⟨p, hp, hne, exprs, he, src, hsrc, rfl⟩ := h
      exact ⟨_, ⟨p, hp, hne, exprs, he, rfl⟩, src, hsrc, rfl⟩
    · intro h
      obtain ⟨_, ⟨p, hp, hne, exprs, he, rfl⟩, src, hsrc, rfl⟩ := h
      exact ⟨p, hp, hne, exprs, he, src, hsrc, rfl⟩
  | filter f =>
    refine over_first_input_eq_ok fun m => ?_
    simp only [headingOver, hop, inputMode, Outcome.bind_eq_ok, Outcome.pure_eq_ok]
    constructor
    · intro h
      obtain ⟨src, hsrc, c, hc, rfl⟩ := h
      exact ⟨_, ⟨c, hc, rfl⟩, src, hsrc, rfl⟩
    · intro h
      obtain ⟨_, ⟨c, hc, rfl⟩, src, hsrc, rfl⟩ := h
      exact ⟨src, hsrc, c, hc, rfl⟩
  | sort st =>
    refine over_first_input_eq_ok fun m => ?_
    simp only [headingOver, hop, inputMode, Outcome.bind_eq_ok, Outcome.pure_eq_ok]
    constructor
    · intro h
      obtain ⟨src, hsrc, rfl⟩ := h
      exact ⟨_, rfl, src, hsrc, rfl⟩
    · intro h
      obtain ⟨_, rfl, src, hsrc, rfl⟩ := h
      exact ⟨src, hsrc, rfl⟩
  | summarize sm =>
    refine over_first_input_eq_ok fun m => ?_
    simp only [headingOver, hop, inputMode, Outcome.bind_eq_ok, Outcome.guarded_eq_ok,
      Outcome.pure_eq_ok]
    constructor
    · intro h
      obtain ⟨p, hp, o, ho, hne, src, hsrc, rfl⟩ := h
      exact ⟨_, ⟨p, hp, o, ho, hne, rfl⟩, src, hsrc, rfl⟩
    · intro h
      obtain ⟨_, ⟨p, hp, o, ho, hne, rfl⟩, src, hsrc, rfl⟩ := h
      exact ⟨p, hp, o, ho, hne, src, hsrc, rfl⟩
  | extract e =>
    refine over_first_input_eq_ok fun m => ?_
    simp only [headingOver, hop, inputMode, Outcome.bind_eq_ok, Outcome.pure_eq_ok]
    constructor
    · intro h
      obtain ⟨p, hp, slice, hslice, src, hsrc, rfl⟩ := h
      exact ⟨_, ⟨p, hp, slice, hslice, rfl⟩, src, hsrc, rfl⟩
    · intro h
      obtain ⟨_, ⟨p, hp, slice, hslice, rfl⟩, src, hsrc, rfl⟩ := h
      exact ⟨p, hp, slice, hslice, src, hsrc, rfl⟩
  | chartProjection c =>
    refine over_first_input_eq_ok fun m => ?_
    simp only [headingOver, hop, inputMode, Outcome.bind_eq_ok, Outcome.pure_eq_ok]
    constructor
    · intro h
      obtain ⟨p, hp, picks, hpicks, src, hsrc, rfl⟩ := h
      exact ⟨_, ⟨p, hp, picks, hpicks, rfl⟩, src, hsrc, rfl⟩
    · intro h
      obtain ⟨_, ⟨p, hp, picks, hpicks, rfl⟩, src, hsrc, rfl⟩ := h
      exact ⟨p, hp, picks, hpicks, src, hsrc, rfl⟩

/-- What a join that needs only one clause lays out. -/
inductive IsJoinPlace (d : Dialect) (n : Node) : Place → Prop
  | intro {l r : Node} {range : Option String} {j : Join} {shape : JoinShape} {m : Meeting}
      (left : (n.input 0).result = .ok l) (right : (n.input 1).result = .ok r)
      (renamed : (renameRight? n.id l r).result = .ok range)
      (met : (meeting d n j l r shape).result = .ok m) :
      IsJoinPlace d n (.join l m r (rightMode range))

/-- All that splicing a node in can amount to. -/
inductive IsSplice (d : Dialect) (n : Node) : Place → Prop
  | whole : IsSplice d n (.input n (.whole none))
  | table (path : List String) : IsSplice d n (.table path (tableRange n.id))
  | join {place : Place} (clause : IsJoinPlace d n place) : IsSplice d n place

/-- All that a `SELECT` in the query of a node can be. -/
inductive IsBranch (d : Dialect) (n : Node) : Branch → Prop
  | table (path : List String) (none : arity n.operation = .zero) :
      IsBranch d n ⟨.plain ((TableSource.columnsOf n.schema).map (TableSource.columnExpr d n.id)),
        .table path (tableRange n.id)⟩
  | input {m : Node} {h : Heading} (one : arity n.operation = .one)
      (first : (n.input 0).result = .ok m) (heading : (headingOver d n m).result = .ok h) :
      IsBranch d n ⟨h, .input m (inputMode n.operation)⟩
  | join {l r : Node} {p : Projection} {exprs : List (Expr ColumnRef)} {place : Place}
      (two : arity n.operation = .two)
      (columns : ((List.range p.length).mapM
        (joinColumn d n.id l r (l.column d) (r.column d))).result = .ok exprs)
      (clause : IsJoinPlace d n place) :
      IsBranch d n ⟨.plain exprs, place⟩
  | append {m : Node} (out available : Projection) (all : arity n.operation = .all)
      (reads : n.Reads m) :
      IsBranch d n ⟨.plain (Append.branch out available), .input m (.whole none)⟩

theorem isJoinPlace_of_joinPlace {j : Join} {shape : JoinShape} {place : Place}
    (h : (joinPlace d n j shape).result = .ok place) : IsJoinPlace d n place := by
  simp only [joinPlace, Outcome.bind_eq_ok, Outcome.pure_eq_ok] at h
  obtain ⟨l, hl, r, hr, range, hrange, m, hm, rfl⟩ := h
  exact .intro hl hr hrange hm

theorem eq_table_of_tablePlace {t : TableSource} {place : Place}
    (h : (tablePlace t n).result = .ok place) : ∃ path, place = .table path (tableRange n.id) := by
  simp only [tablePlace, Outcome.bind_eq_ok, Outcome.pure_eq_ok] at h
  obtain ⟨_, _, rfl⟩ := h
  exact ⟨_, rfl⟩

theorem isSplice_of_splice {place : Place} (h : (n.splice d).result = .ok place) :
    IsSplice d n place := by
  have hwhole (h : (pure (.input n (.whole none)) : Outcome Place).result = .ok place) :
      IsSplice d n place := by
    rw [Outcome.pure_eq_ok] at h
    subst h
    exact .whole
  unfold splice at h
  cases hop : n.operation with
  | tableSource t =>
    rw [hop] at h
    obtain ⟨path, rfl⟩ := eq_table_of_tablePlace h
    exact .table path
  | join j =>
    simp only [hop] at h
    cases hshape : j.joinType.shape? with
    | some shape =>
      rw [hshape] at h
      exact .join (isJoinPlace_of_joinPlace h)
    | none =>
      rw [hshape] at h
      exact hwhole h
  | _ =>
    rw [hop] at h
    exact hwhole h

theorem isBranch_of_joinBranch {j : Join} {shape : JoinShape} {b : Branch}
    (two : arity n.operation = .two) (h : (joinBranch d n j shape).result = .ok b) :
    IsBranch d n b := by
  simp only [joinBranch, Outcome.bind_eq_ok, Outcome.pure_eq_ok] at h
  obtain ⟨l, _, r, _, p, _, exprs, hexprs, place, hplace, rfl⟩ := h
  exact .join two hexprs (isJoinPlace_of_joinPlace hplace)

theorem isBranch_of_appendBranches {out : Projection} {ms : List Node} {bs : List Branch}
    (all : arity n.operation = .all) (hms : ∀ m ∈ ms, n.Reads m)
    (h : (ms.mapM (appendBranch d out)).result = .ok bs) :
    ∀ b ∈ bs, IsBranch d n b := by
  intro b hb
  obtain ⟨m, hm, hmb⟩ := Outcome.exists_of_mem_mapM h b hb
  simp only [appendBranch, Outcome.bind_eq_ok, Outcome.pure_eq_ok] at hmb
  obtain ⟨available, _, rfl⟩ := hmb
  exact .append out available all (hms m hm)

/-- The layout of a node that reads its first input. -/
theorem isBranch_of_first_input {layout : Layout} {b : Branch}
    (one : arity n.operation = .one) (h : (do
      let m ← n.input 0
      return .single ⟨← headingOver d n m, .input m (inputMode n.operation)⟩ :
        Outcome Layout).result = .ok layout) (hb : b ∈ layout.branches) : IsBranch d n b := by
  simp only [Outcome.bind_eq_ok, Outcome.pure_eq_ok] at h
  obtain ⟨m, hm, heading, hh, rfl⟩ := h
  rw [Layout.branches, List.mem_singleton] at hb
  subst hb
  exact .input one hm hh

theorem isBranch_of_layout {layout : Layout} {b : Branch}
    (h : (n.layout d).result = .ok layout) (hb : b ∈ layout.branches) : IsBranch d n b := by
  unfold Node.layout at h
  cases hop : n.operation with
  | tableSource t =>
    simp only [hop, Outcome.bind_eq_ok, Outcome.pure_eq_ok] at h
    obtain ⟨place, hplace, rfl⟩ := h
    obtain ⟨path, rfl⟩ := eq_table_of_tablePlace hplace
    rw [Layout.branches, List.mem_singleton] at hb
    subst hb
    exact .table path (by rw [hop]; rfl)
  | join j =>
    have two : arity n.operation = .two := by rw [hop]; rfl
    simp only [hop] at h
    cases hshape : j.joinType.shape? with
    | some shape =>
      simp only [hshape, Outcome.bind_eq_ok, Outcome.pure_eq_ok] at h
      obtain ⟨b', hb', rfl⟩ := h
      rw [Layout.branches, List.mem_singleton] at hb
      subst hb
      exact isBranch_of_joinBranch two hb'
    | none =>
      simp only [hshape, Outcome.bind_eq_ok, Outcome.pure_eq_ok] at h
      obtain ⟨l, hl, r, hr, rfl⟩ := h
      simp only [Layout.branches, List.mem_cons, List.not_mem_nil, or_false] at hb
      rcases hb with rfl | rfl
      · exact isBranch_of_joinBranch two hl
      · exact isBranch_of_joinBranch two hr
  | append a =>
    simp only [hop, Outcome.bind_eq_ok, allInputs_eq_ok] at h
    obtain ⟨out, _, ms, hms, bs, hbs, h⟩ := h
    have hreads : ∀ m ∈ ms, n.Reads m := fun _ => reads_of_mem hms
    cases bs with
    | nil => simp at h
    | cons b' bs =>
      rw [Outcome.pure_eq_ok] at h
      subst h
      exact isBranch_of_appendBranches (by rw [hop]; rfl) hreads hbs b hb
  | _ =>
    rw [hop] at h
    refine isBranch_of_first_input (by rw [hop]; rfl) ?_ hb
    rw [hop]
    exact h

end DataflowSql.Node

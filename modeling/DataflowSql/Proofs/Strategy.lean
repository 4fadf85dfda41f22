import DataflowSql.Compile.Configured
import DataflowSql.Proofs.Scope

/-! The two strategies. A query with common table expressions is a text with references in it; the
query written in place is the same text with every reference replaced by the query behind it. -/
namespace DataflowSql

namespace Sql

/-- A stretch of text, or a reference that is still to be written. -/
inductive Piece (ρ : Type) where
  | text (w : String)
  | reference (target : ρ) (range : Option String)

/-- What stands between and after the operands of a join. -/
def Meeting.frame (d : Dialect) : Meeting → String × String
  | .cross => (" CROSS JOIN ", "")
  | .on kind x y =>
    (" " ++ kind.text ++ " ",
      " ON " ++ x.sql d (ColumnRef.sql d) ++ " = " ++ y.sql d (ColumnRef.sql d))

variable {ρ : Type}

mutual

/-- A query cut at its references by name. -/
def Query.pieces (d : Dialect) : Query ρ → List (Piece ρ)
  | .select star items source condition groups =>
    .text ("SELECT " ++ selectList d star items ++ " FROM ") ::
      (source.pieces d ++ [.text (conditionText d condition ++ groupsText d groups)])
  | .union l r => l.pieces d ++ .text " UNION " :: r.pieces d
  | .unionAll l r => l.pieces d ++ .text " UNION ALL " :: r.pieces d

def Source.pieces (d : Dialect) : Source ρ → List (Piece ρ)
  | .table path range => [.text (d.quotePath path ++ " AS " ++ range)]
  | .named t range => [.reference t range]
  | .nested _ q range => .text "(" :: (q.pieces d ++ [.text (") AS " ++ range)])
  | .join l m r =>
    l.pieces d ++ .text (m.frame d).1 ::
      ((if r.isJoin then .text "(" :: (r.pieces d ++ [.text ")"]) else r.pieces d) ++
        [.text (m.frame d).2])

end

/-- The text of a template, if every reference in it can be written. -/
def write (reference : ρ → Option String → Option String) : List (Piece ρ) → Option String
  | [] => some ""
  | .text w :: ps => (write reference ps).map fun rest => w ++ rest
  | .reference t range :: ps =>
    (reference t range).bind fun w => (write reference ps).map fun rest => w ++ rest

mutual

/-- Puts a body in the place of every reference by name. -/
def Query.place? (body : ρ → Option (Query ρ)) (name : ρ → String) : Query ρ → Option (Query ρ)
  | .select star items source condition groups =>
    (source.place? body name).map fun src => .select star items src condition groups
  | .union l r =>
    (l.place? body name).bind fun ql => (r.place? body name).map fun qr => .union ql qr
  | .unionAll l r =>
    (l.place? body name).bind fun ql => (r.place? body name).map fun qr => .unionAll ql qr

def Source.place? (body : ρ → Option (Query ρ)) (name : ρ → String) :
    Source ρ → Option (Source ρ)
  | .table path range => some (.table path range)
  | .named t range => (body t).map fun q => .nested t q (range.getD (name t))
  | .nested t q range => (q.place? body name).map fun p => .nested t p range
  | .join l m r =>
    (l.place? body name).bind fun ls => (r.place? body name).map fun rs => .join ls m rs

end

/-- A reference by name, perhaps under another range. -/
def byName (name : ρ → String) (t : ρ) : Option String → Option String
  | none => some (name t)
  | some range => some (name t ++ " AS " ++ range)

/-- A reference by the text of its query, if there is one. -/
def inPlace (name : ρ → String) (text : ρ → Option String) (t : ρ) (range : Option String) :
    Option String :=
  (text t).map fun w => "(" ++ w ++ ") AS " ++ range.getD (name t)

section Writing

variable {f : ρ → Option String → Option String} {d : Dialect} {name : ρ → String}
  {body : ρ → Option (Query ρ)}

theorem write_append (ps qs : List (Piece ρ)) :
    write f (ps ++ qs) = (write f ps).bind fun u => (write f qs).map fun v => u ++ v := by
  induction ps with
  | nil => simp [write]
  | cons p ps ih =>
    cases p with
    | text w =>
      rw [List.cons_append, write, write, ih]
      cases write f ps <;> cases write f qs <;> simp [String.append_assoc]
    | reference t range =>
      rw [List.cons_append, write, write, ih]
      cases f t range <;> cases write f ps <;> cases write f qs <;> simp [String.append_assoc]

theorem meeting_sql (m : Meeting) (u v : String) :
    m.sql d u v = u ++ ((m.frame d).1 ++ (v ++ (m.frame d).2)) := by
  cases m with
  | cross => simp [Meeting.sql, Meeting.frame, String.append_assoc]
  | on kind x y => simp [Meeting.sql, Meeting.frame, String.append_assoc]

mutual

/-- With references written by name a template reads as the query it comes from. -/
theorem Query.write_byName (q : Query ρ) :
    write (byName name) (q.pieces d) = some (q.sql d name) := by
  match q with
  | .select star items source condition groups =>
    have hsource := source.write_byName
    simp [Query.pieces, write, write_append, hsource, Query.sql, String.append_assoc]
  | .union l r =>
    have hl := l.write_byName
    have hr := r.write_byName
    simp [Query.pieces, write, write_append, hl, hr, Query.sql, String.append_assoc]
  | .unionAll l r =>
    have hl := l.write_byName
    have hr := r.write_byName
    simp [Query.pieces, write, write_append, hl, hr, Query.sql, String.append_assoc]

theorem Source.write_byName (src : Source ρ) :
    write (byName name) (src.pieces d) = some (src.sql d name) := by
  match src with
  | .table path range => simp [Source.pieces, write, Source.sql]
  | .named t none => simp [Source.pieces, write, byName, Source.sql]
  | .named t (some range) => simp [Source.pieces, write, byName, Source.sql]
  | .nested _ q range =>
    have hq := q.write_byName
    simp [Source.pieces, write, write_append, hq, Source.sql, String.append_assoc]
  | .join l m r =>
    have hl := l.write_byName
    have hr := r.write_byName
    cases hjoin : r.isJoin <;>
      simp [Source.pieces, write, write_append, hl, hr, hjoin, Source.sql, meeting_sql,
        String.append_assoc]

end

theorem isJoin_of_place? {src p : Source ρ} (h : src.place? body name = some p) :
    p.isJoin = src.isJoin := by
  cases src with
  | table path range =>
    rw [Source.place?, Option.some.injEq] at h
    subst h
    rfl
  | named t range =>
    rw [Source.place?, Option.map_eq_some_iff] at h
    obtain ⟨q, _, rfl⟩ := h
    rfl
  | nested t q range =>
    rw [Source.place?, Option.map_eq_some_iff] at h
    obtain ⟨q, _, rfl⟩ := h
    rfl
  | join l m r =>
    simp only [Source.place?, Option.bind_eq_some_iff, Option.map_eq_some_iff] at h
    obtain ⟨ls, _, rs, _, rfl⟩ := h
    rfl

mutual

/-- With references written in place a template reads as the query with its bodies in place. -/
theorem Query.write_inPlace (q : Query ρ) :
    write (inPlace name fun t => (body t).map (Query.sql d name)) (q.pieces d) =
      (q.place? body name).map (Query.sql d name) := by
  match q with
  | .select star items source condition groups =>
    have hsource := source.write_inPlace
    cases hp : source.place? body name <;>
      simp [Query.pieces, write, write_append, hsource, hp, Query.place?, Query.sql,
        String.append_assoc]
  | .union l r =>
    have hl := l.write_inPlace
    have hr := r.write_inPlace
    cases hpl : l.place? body name <;> cases hpr : r.place? body name <;>
      simp [Query.pieces, write, write_append, hl, hr, hpl, hpr, Query.place?, Query.sql,
        String.append_assoc]
  | .unionAll l r =>
    have hl := l.write_inPlace
    have hr := r.write_inPlace
    cases hpl : l.place? body name <;> cases hpr : r.place? body name <;>
      simp [Query.pieces, write, write_append, hl, hr, hpl, hpr, Query.place?, Query.sql,
        String.append_assoc]

theorem Source.write_inPlace (src : Source ρ) :
    write (inPlace name fun t => (body t).map (Query.sql d name)) (src.pieces d) =
      (src.place? body name).map (Source.sql d name) := by
  match src with
  | .table path range => simp [Source.pieces, write, Source.place?, Source.sql]
  | .named t range =>
    cases hb : body t <;>
      simp [Source.pieces, write, inPlace, hb, Source.place?, Source.sql]
  | .nested _ q range =>
    have hq := q.write_inPlace
    cases hp : q.place? body name <;>
      simp [Source.pieces, write, write_append, hq, hp, Source.place?, Source.sql,
        String.append_assoc]
  | .join l m r =>
    have hl := l.write_inPlace
    have hr := r.write_inPlace
    cases hpl : l.place? body name with
    | none => simp [Source.pieces, write_append, hl, hpl, Source.place?]
    | some ls =>
      cases hpr : r.place? body name with
      | none =>
        cases hjoin : r.isJoin <;>
          simp [Source.pieces, write, write_append, hr, hpl, hpr, hjoin, Source.place?]
      | some rs =>
        have hkind := isJoin_of_place? hpr
        cases hjoin : r.isJoin <;>
          simp [Source.pieces, write, write_append, hl, hr, hpl, hpr, hjoin, hkind,
            Source.place?, Source.sql, meeting_sql, String.append_assoc]

end

mutual

theorem Query.mem_mentions_of_reference {t : ρ} {range : Option String} (q : Query ρ)
    (h : .reference t range ∈ q.pieces d) : t ∈ q.mentions := by
  match q with
  | .select star items source condition groups =>
    simp only [Query.pieces, List.mem_cons, List.mem_append, reduceCtorEq, List.not_mem_nil,
      or_false, false_or] at h
    rw [Query.mentions]
    exact source.mem_mentions_of_reference h
  | .union l r =>
    simp only [Query.pieces, List.mem_cons, List.mem_append, reduceCtorEq, false_or] at h
    rw [Query.mentions, List.mem_append]
    exact h.imp l.mem_mentions_of_reference r.mem_mentions_of_reference
  | .unionAll l r =>
    simp only [Query.pieces, List.mem_cons, List.mem_append, reduceCtorEq, false_or] at h
    rw [Query.mentions, List.mem_append]
    exact h.imp l.mem_mentions_of_reference r.mem_mentions_of_reference

theorem Source.mem_mentions_of_reference {t : ρ} {range : Option String} (src : Source ρ)
    (h : .reference t range ∈ src.pieces d) : t ∈ src.mentions := by
  match src with
  | .table path range => simp [Source.pieces] at h
  | .named t' range' =>
    simp only [Source.pieces, List.mem_singleton, Piece.reference.injEq] at h
    simp [Source.mentions, h.1]
  | .nested _ q range =>
    simp only [Source.pieces, List.mem_cons, List.mem_append, reduceCtorEq, List.not_mem_nil,
      or_false, false_or] at h
    rw [Source.mentions]
    exact q.mem_mentions_of_reference h
  | .join l m r =>
    have hright : .reference t range ∈
        (if r.isJoin then .text "(" :: (r.pieces d ++ [.text ")"]) else r.pieces d) →
        .reference t range ∈ r.pieces d := by
      cases r.isJoin <;> simp
    simp only [Source.pieces, List.mem_cons, List.mem_append, reduceCtorEq, List.not_mem_nil,
      or_false, false_or] at h
    rw [Source.mentions, List.mem_append]
    exact h.imp l.mem_mentions_of_reference fun h => r.mem_mentions_of_reference (hright h)

end

mutual

/-- Bodies for all that a query mentions are enough to put them in place. -/
theorem Query.exists_place? (q : Query ρ) (h : ∀ t ∈ q.mentions, ∃ b, body t = some b) :
    ∃ p, q.place? body name = some p := by
  match q with
  | .select star items source condition groups =>
    obtain ⟨p, hp⟩ := source.exists_place? (by simpa [Query.mentions] using h)
    exact ⟨_, by rw [Query.place?, hp, Option.map_some]⟩
  | .union l r =>
    obtain ⟨pl, hl⟩ := l.exists_place? fun t ht => h t (by simp [Query.mentions, ht])
    obtain ⟨pr, hr⟩ := r.exists_place? fun t ht => h t (by simp [Query.mentions, ht])
    exact ⟨_, by rw [Query.place?, hl, Option.bind_some, hr, Option.map_some]⟩
  | .unionAll l r =>
    obtain ⟨pl, hl⟩ := l.exists_place? fun t ht => h t (by simp [Query.mentions, ht])
    obtain ⟨pr, hr⟩ := r.exists_place? fun t ht => h t (by simp [Query.mentions, ht])
    exact ⟨_, by rw [Query.place?, hl, Option.bind_some, hr, Option.map_some]⟩

theorem Source.exists_place? (src : Source ρ) (h : ∀ t ∈ src.mentions, ∃ b, body t = some b) :
    ∃ p, src.place? body name = some p := by
  match src with
  | .table path range => exact ⟨_, rfl⟩
  | .named t range =>
    obtain ⟨b, hb⟩ := h t (by simp [Source.mentions])
    exact ⟨_, by rw [Source.place?, hb, Option.map_some]⟩
  | .nested _ q range =>
    obtain ⟨p, hp⟩ := q.exists_place? (by simpa [Source.mentions] using h)
    exact ⟨_, by rw [Source.place?, hp, Option.map_some]⟩
  | .join l m r =>
    obtain ⟨pl, hl⟩ := l.exists_place? fun t ht => h t (by simp [Source.mentions, ht])
    obtain ⟨pr, hr⟩ := r.exists_place? fun t ht => h t (by simp [Source.mentions, ht])
    exact ⟨_, by rw [Source.place?, hl, Option.bind_some, hr, Option.map_some]⟩

end

end Writing

end Sql

namespace Node

open Sql Relation

variable {d : Dialect} {n : Node}

/-- The query of a node with nothing read by name, if it has one. -/
def inlineQuery? (d : Dialect) (n : Node) : Option (Query Node) :=
  (n.query d .inline).result.toOption

/-- The text of a node's query, if it has one. -/
def text? (d : Dialect) (s : Strategy) (n : Node) : Option String :=
  (n.query d s).result.toOption.map (Query.sql d Node.name)

/-- The second outcome is the first with a change that may fail: it has a result exactly where the
first has one that can be changed. -/
def Changed {α : Type} (change : α → Option α) (x y : Outcome α) : Prop :=
  ∀ b, y.result = .ok b ↔ ∃ a, x.result = .ok a ∧ change a = some b

/-- Puts the queries of all references of a source in their place. -/
def placeSource? (d : Dialect) : Source Node → Option (Source Node) :=
  Source.place? (inlineQuery? d) Node.name

def placeQuery? (d : Dialect) : Query Node → Option (Query Node) :=
  Query.place? (inlineQuery? d) Node.name

theorem changed_read_whole (range : Option String) : Changed (placeSource? d)
    (n.read d .commonTableExpressions (.whole range)) (n.read d .inline (.whole range)) := by
  intro p
  simp only [read_whole_named, read_whole_nested_eq_ok, Outcome.ok_eq_ok, exists_eq_left',
    placeSource?, Source.place?, Option.map_eq_some_iff, inlineQuery?, Outcome.toOption_eq_some]

theorem changed_table (path : List String) (range : String) : Changed (placeSource? d)
    ((Place.table path range).source d .commonTableExpressions)
    ((Place.table path range).source d .inline) := by
  intro p
  simp [Place.source, placeSource?, Source.place?]

theorem changed_join {l r : Node} {m : Meeting} {mode : Mode}
    (hl : Changed (placeSource? d) (l.read d .commonTableExpressions .spliced)
      (l.read d .inline .spliced))
    (hr : Changed (placeSource? d) (r.read d .commonTableExpressions mode)
      (r.read d .inline mode)) :
    Changed (placeSource? d) ((Place.join l m r mode).source d .commonTableExpressions)
      ((Place.join l m r mode).source d .inline) := by
  intro p
  simp only [place_join_eq_ok, hl _, hr _]
  constructor
  · intro h
    obtain ⟨ls, rs, ⟨lsrc, hls, hlp⟩, ⟨rsrc, hrs, hrp⟩, rfl⟩ := h
    refine ⟨_, ⟨lsrc, rsrc, hls, hrs, rfl⟩, ?_⟩
    simp only [placeSource?] at hlp hrp ⊢
    rw [Source.place?, hlp, Option.bind_some, hrp, Option.map_some]
  · intro h
    obtain ⟨_, ⟨lsrc, rsrc, hls, hrs, rfl⟩, hp⟩ := h
    simp only [placeSource?, Source.place?, Option.bind_eq_some_iff, Option.map_eq_some_iff] at hp
    obtain ⟨ls, hlp, rs, hrp, rfl⟩ := hp
    exact ⟨ls, rs, ⟨lsrc, hls, hlp⟩, ⟨rsrc, hrs, hrp⟩, rfl⟩

/-- Reading a node in place is reading it by name and putting the queries in place then. -/
theorem changed_read (mode : Mode) : Changed (placeSource? d)
    (n.read d .commonTableExpressions mode) (n.read d .inline mode) := by
  induction n using reads_induction generalizing mode with
  | step n ih =>
    cases mode with
    | whole range => exact changed_read_whole range
    | spliced =>
      have hplace {place : Place} (hsplice : (n.splice d).result = .ok place) :
          Changed (placeSource? d) (place.source d .commonTableExpressions)
            (place.source d .inline) := by
        cases isSplice_of_splice hsplice with
        | whole => exact changed_read_whole none
        | table path => exact changed_table path (tableRange n.id)
        | join clause =>
          obtain ⟨hl, hr, _, _⟩ := clause
          exact changed_join (ih _ (reads_of_input hl) _) (ih _ (reads_of_input hr) _)
      intro p
      simp only [read_spliced_eq_ok]
      constructor
      · intro h
        obtain ⟨place, hsplice, hp⟩ := h
        obtain ⟨src, hsrc, hsp⟩ := (hplace hsplice p).mp hp
        exact ⟨src, ⟨place, hsplice, hsrc⟩, hsp⟩
      · intro h
        obtain ⟨src, ⟨place, hsplice, hsrc⟩, hsp⟩ := h
        exact ⟨place, hsplice, (hplace hsplice p).mpr ⟨src, hsrc, hsp⟩⟩

theorem changed_branch (b : Branch) : Changed (placeQuery? d)
    (b.query d .commonTableExpressions) (b.query d .inline) := by
  have hplace : Changed (placeSource? d) (b.place.source d .commonTableExpressions)
      (b.place.source d .inline) := by
    cases b.place with
    | table path range => exact changed_table path range
    | input m mode => exact changed_read mode
    | join l m r mode => exact changed_join (changed_read _) (changed_read _)
  intro p
  simp only [branch_query_eq_ok, hplace _]
  constructor
  · intro h
    obtain ⟨p', ⟨src, hsrc, hp'⟩, rfl⟩ := h
    refine ⟨_, ⟨src, hsrc, rfl⟩, ?_⟩
    simp only [placeSource?, placeQuery?, Heading.selectFrom] at hp' ⊢
    rw [Query.place?, hp', Option.map_some]
  · intro h
    obtain ⟨_, ⟨src, hsrc, rfl⟩, hp⟩ := h
    rw [placeQuery?, Heading.selectFrom, Query.place?, Option.map_eq_some_iff] at hp
    obtain ⟨p', hp', rfl⟩ := hp
    exact ⟨p', ⟨src, hsrc, hp'⟩, rfl⟩

theorem placeQuery?_unionAll_eq_some {q₁ q₂ p : Query Node} :
    placeQuery? d (.unionAll q₁ q₂) = some p ↔
      ∃ p₁ p₂, placeQuery? d q₁ = some p₁ ∧ placeQuery? d q₂ = some p₂ ∧ .unionAll p₁ p₂ = p := by
  simp only [placeQuery?, Query.place?, Option.bind_eq_some_iff, Option.map_eq_some_iff]
  constructor
  · intro h
    obtain ⟨p₁, h₁, p₂, h₂, rfl⟩ := h
    exact ⟨p₁, p₂, h₁, h₂, rfl⟩
  · intro h
    obtain ⟨p₁, p₂, h₁, h₂, rfl⟩ := h
    exact ⟨p₁, h₁, p₂, h₂, rfl⟩

theorem exists_placeQuery?_of_stack {q r : Query Node} {qs : List (Query Node)}
    (h : placeQuery? d (stack q qs) = some r) : ∃ p, placeQuery? d q = some p := by
  induction qs generalizing q with
  | nil => exact ⟨r, h⟩
  | cons q' qs ih =>
    obtain ⟨p, hp⟩ := ih (q := .unionAll q q') h
    obtain ⟨p₁, _, h₁, _⟩ := placeQuery?_unionAll_eq_some.mp hp
    exact ⟨p₁, h₁⟩

/-- Branches below each other, on top of a query `q` that becomes `p`. -/
theorem stack_inline_iff {bs : List Branch} {q p r : Query Node}
    (hq : placeQuery? d q = some p) :
    (∃ ps, (bs.mapM (Branch.query d .inline)).result = .ok ps ∧ stack p ps = r) ↔
      ∃ qs, (bs.mapM (Branch.query d .commonTableExpressions)).result = .ok qs ∧
        placeQuery? d (stack q qs) = some r := by
  induction bs generalizing q p with
  | nil => simp [stack, hq]
  | cons b bs ih =>
    have hunion {q' p' : Query Node} (h : placeQuery? d q' = some p') :
        placeQuery? d (.unionAll q q') = some (.unionAll p p') :=
      placeQuery?_unionAll_eq_some.mpr ⟨p, p', hq, h, rfl⟩
    simp only [List.mapM_cons, Outcome.bind_eq_ok, Outcome.pure_eq_ok]
    constructor
    · intro h
      obtain ⟨_, ⟨p', hp', ps, hps, rfl⟩, hr⟩ := h
      obtain ⟨q', hq', hplace⟩ := (changed_branch b p').mp hp'
      obtain ⟨qs, hqs, hr⟩ := (ih (hunion hplace)).mp ⟨ps, hps, hr⟩
      exact ⟨_, ⟨q', hq', qs, hqs, rfl⟩, hr⟩
    · intro h
      obtain ⟨_, ⟨q', hq', qs, hqs, rfl⟩, hr⟩ := h
      -- the branch can be changed, because the stack that begins with it can
      obtain ⟨_, hboth⟩ := exists_placeQuery?_of_stack (q := .unionAll q q') hr
      obtain ⟨_, p', _, hplace, _⟩ := placeQuery?_unionAll_eq_some.mp hboth
      obtain ⟨ps, hps, hr⟩ := (ih (hunion hplace)).mpr ⟨qs, hqs, hr⟩
      exact ⟨_, ⟨p', (changed_branch b p').mpr ⟨q', hq', hplace⟩, ps, hps, rfl⟩, hr⟩

theorem changed_layout (layout : Layout) : Changed (placeQuery? d)
    (layout.query d .commonTableExpressions) (layout.query d .inline) := by
  intro p
  cases layout with
  | single b => exact changed_branch b p
  | union l r =>
    simp only [Layout.query, Outcome.bind_eq_ok, Outcome.pure_eq_ok, changed_branch _ _]
    constructor
    · intro h
      obtain ⟨pl, ⟨ql, hl, hpl⟩, pr, ⟨qr, hr, hpr⟩, rfl⟩ := h
      refine ⟨_, ⟨ql, hl, qr, hr, rfl⟩, ?_⟩
      simp only [placeQuery?] at hpl hpr ⊢
      rw [Query.place?, hpl, Option.bind_some, hpr, Option.map_some]
    · intro h
      obtain ⟨_, ⟨ql, hl, qr, hr, rfl⟩, hp⟩ := h
      simp only [placeQuery?, Query.place?, Option.bind_eq_some_iff, Option.map_eq_some_iff] at hp
      obtain ⟨pl, hpl, pr, hpr, rfl⟩ := hp
      exact ⟨pl, ⟨ql, hl, hpl⟩, pr, ⟨qr, hr, hpr⟩, rfl⟩
  | stack b bs =>
    simp only [Layout.query, Outcome.bind_eq_ok, Outcome.pure_eq_ok]
    constructor
    · intro h
      obtain ⟨p', hp', hrest⟩ := h
      obtain ⟨q', hq', hplace⟩ := (changed_branch b p').mp hp'
      obtain ⟨qs, hqs, hp⟩ := (stack_inline_iff hplace).mp hrest
      exact ⟨_, ⟨q', hq', qs, hqs, rfl⟩, hp⟩
    · intro h
      obtain ⟨_, ⟨q', hq', qs, hqs, rfl⟩, hp⟩ := h
      obtain ⟨p', hplace⟩ := exists_placeQuery?_of_stack hp
      exact ⟨p', (changed_branch b p').mpr ⟨q', hq', hplace⟩,
        (stack_inline_iff hplace).mpr ⟨qs, hqs, hp⟩⟩

/-- The query in place is the query by name with the queries of its references in place. -/
theorem changed_query (n : Node) : Changed (placeQuery? d)
    (n.query d .commonTableExpressions) (n.query d .inline) := by
  intro p
  simp only [query_eq_ok, changed_layout _ _]
  constructor
  · intro h
    obtain ⟨layout, hlayout, q, hq, hp⟩ := h
    exact ⟨q, ⟨layout, hlayout, hq⟩, hp⟩
  · intro h
    obtain ⟨q, ⟨layout, hlayout, hq⟩, hp⟩ := h
    exact ⟨layout, hlayout, q, hq, hp⟩

theorem inlineQuery?_eq (d : Dialect) (n : Node) : n.inlineQuery? d =
    (n.query d .commonTableExpressions).result.toOption.bind (placeQuery? d) := by
  apply Option.ext
  intro p
  simp only [Option.bind_eq_some_iff, Outcome.toOption_eq_some]
  rw [inlineQuery?, Outcome.toOption_eq_some, changed_query n p]

/-- A node's query cut at the references it makes by name, if it has one. -/
def template? (d : Dialect) (n : Node) : Option (List (Piece Node)) :=
  (n.query d .commonTableExpressions).result.toOption.map (Query.pieces d)

theorem text?_byName (d : Dialect) (n : Node) :
    n.text? d .commonTableExpressions = (n.template? d).bind (write (byName Node.name)) := by
  unfold text? template?
  cases (n.query d .commonTableExpressions).result with
  | error e => rfl
  | ok q => exact q.write_byName.symm

theorem text?_inPlace (d : Dialect) (n : Node) :
    n.text? d .inline =
      (n.template? d).bind (write (inPlace Node.name (text? d .inline))) := by
  change (n.inlineQuery? d).map (Query.sql d Node.name) = _
  rw [inlineQuery?_eq, template?]
  cases (n.query d .commonTableExpressions).result with
  | error e => rfl
  | ok q => exact q.write_inPlace.symm

theorem below_of_mentions {q : Query Node} (hq : (n.query d .commonTableExpressions).result = .ok q)
    {k : Node} (hk : k ∈ q.mentions) : TransGen Reads n k := by
  obtain ⟨layout, hlayout, hq⟩ := query_eq_ok.mp hq
  obtain ⟨b, hb, src, hsrc, hk⟩ := mem_mentions_of_layout hq hk
  rw [mentions_of_place hsrc] at hk
  cases isBranch_of_layout hlayout hb with
  | table path none =>
    obtain rfl := Outcome.pure_eq_ok.mp hsrc
    simp [Source.reads] at hk
  | input one first heading => exact TransGen.head' (reads_of_input first) (below_of_read hsrc k hk)
  | join two columns clause =>
    obtain ⟨hl, hr, _, _⟩ := clause
    obtain ⟨ls, rs, hls, hrs, rfl⟩ := place_join_eq_ok.mp hsrc
    rcases List.mem_append.mp hk with hk | hk
    · exact TransGen.head' (reads_of_input hl) (below_of_read hls k hk)
    · exact TransGen.head' (reads_of_input hr) (below_of_read hrs k hk)
  | append out available all reads => exact TransGen.head' reads (below_of_read hsrc k hk)

/-- Where all that a node depends on has a query by name, the node has a query in place. -/
theorem exists_inlineQuery (h : ∀ m, ReflTransGen (DependsOn d .commonTableExpressions) n m →
      (∃ q, (m.query d .commonTableExpressions).result = .ok q) ∧
      ∃ ds, (m.dependencies d .commonTableExpressions).result = .ok ds) :
    ∃ p, (n.query d .inline).result = .ok p := by
  induction n using below_induction with
  | step n ih =>
    obtain ⟨⟨q, hq⟩, ds, hds⟩ := h n .refl
    have hbody : ∀ k ∈ q.mentions, ∃ b, inlineQuery? d k = some b := by
      intro k hk
      have hdep : DependsOn d .commonTableExpressions n k :=
        ⟨ds, hds, mentions_subset_dependencies hq hds k hk⟩
      obtain ⟨b, hb⟩ := ih k (below_of_dependsOn hdep) fun m hm => h m (.head hdep hm)
      exact ⟨b, Outcome.toOption_eq_some.mpr hb⟩
    obtain ⟨p, hp⟩ := Query.exists_place? q hbody
    exact ⟨p, (changed_query n p).mpr ⟨q, hq, hp⟩⟩

/-- A statement that counts rows with common table expressions finds a query for all that its target
depends on. -/
theorem queries_of_count {nodes : List Node} (hc : Complete nodes) {target : Node}
    (ht : target ∈ nodes) {depth : Nat} {st : Statement}
    (h : (target.count d .commonTableExpressions depth).result = .ok st) :
    ∀ m, ReflTransGen (DependsOn d .commonTableExpressions) target m →
      (∃ q, (m.query d .commonTableExpressions).result = .ok q) ∧
      ∃ ds, (m.dependencies d .commonTableExpressions).result = .ok ds := by
  simp only [count, Outcome.bind_eq_ok, Outcome.pure_eq_ok] at h
  obtain ⟨q, hq, order, horder, rows, hrows, _⟩ := h
  obtain ⟨ds, hds, hcovers⟩ := dependencyOrder_covers hc ht horder
  intro m hm
  rcases reflTransGen_iff_eq_or_transGen.mp hm with rfl | hm
  · exact ⟨⟨q, hq⟩, ds, hds⟩
  · have hmem : m ∈ order := (hcovers.mem_iff m).mpr ((transGen_dependsOn_iff hds).mp hm)
    obtain ⟨before, after, hsplit⟩ := List.append_of_mem hmem
    obtain ⟨ms, hms, _⟩ := hcovers.first before m after hsplit
    obtain ⟨e, _, he⟩ := Outcome.exists_mem_of_mapM hrows m hmem
    simp only [Outcome.bind_eq_ok, Outcome.pure_eq_ok] at he
    obtain ⟨qm, hqm, _⟩ := he
    exact ⟨⟨qm, hqm⟩, ms, hms⟩

theorem count_inline_eq_ok {target : Node} {depth : Nat} {st : Statement} :
    (target.count d .inline depth).result = .ok st ↔
      ∃ p, (target.query d .inline).result = .ok p ∧ ⟨[], .count p target.name⟩ = st := by
  simp only [count, Outcome.bind_eq_ok, Outcome.pure_eq_ok]

/-- What can be counted with common table expressions can be counted in place. -/
theorem exists_count_inline {nodes : List Node} (hc : Complete nodes) {target : Node}
    (ht : target ∈ nodes) {depth : Nat} {st : Statement}
    (h : (target.count d .commonTableExpressions depth).result = .ok st) :
    ∃ st', (target.count d .inline depth).result = .ok st' := by
  obtain ⟨p, hp⟩ := exists_inlineQuery (queries_of_count hc ht h)
  exact ⟨_, count_inline_eq_ok.mpr ⟨p, hp, rfl⟩⟩

end Node

namespace Graph

open Sql

/-- In a graph without cycles the two strategies write the same query: one template gives the text
by name and the text in place. Columns, order and ranges of a node do not depend on the strategy,
and what can be counted by name can be counted in place. -/
theorem strategies_agree {specs : List NodeSpec} {catalog : Catalog} {d : Dialect}
    {g : Graph} {notes : List BuildNote} (hb : build specs catalog d = .ok (g, notes))
    (ha : g.Acyclic) :
    (∀ n ∈ g.nodes, ∃ template : Option (List (Piece Node)),
      (∀ t ∈ template, ∀ m range, .reference m range ∈ t → m ∈ g.nodes) ∧
      n.text? g.dialect .commonTableExpressions = template.bind (write (byName Node.name)) ∧
      n.text? g.dialect .inline =
        template.bind (write (inPlace Node.name (Node.text? g.dialect .inline)))) ∧
    (∀ s₁ s₂ id n₁ n₂, ((g.withStrategy s₁).node id).result = .ok n₁ →
      ((g.withStrategy s₂).node id).result = .ok n₂ →
        n₁.projection (g.withStrategy s₁).dialect = n₂.projection (g.withStrategy s₂).dialect ∧
        n₁.sortKey (g.withStrategy s₁).dialect = n₂.sortKey (g.withStrategy s₂).dialect ∧
        n₁.isConfigured (g.withStrategy s₁).dialect = n₂.isConfigured (g.withStrategy s₂).dialect ∧
        n₁.name = n₂.name ∧ n₁.ranges = n₂.ranges) ∧
    (∀ id sql, ((g.withStrategy .commonTableExpressions).countStatement id).result = .ok sql →
      ∃ sql', ((g.withStrategy .inline).countStatement id).result = .ok sql') := by
  have hc := nodes_complete hb ha
  refine ⟨?_, ?_, ?_⟩
  · intro n hn
    refine ⟨n.template? g.dialect, ?_, Node.text?_byName g.dialect n,
      Node.text?_inPlace g.dialect n⟩
    intro t ht m range hm
    obtain ⟨q, hq, rfl⟩ := Option.map_eq_some_iff.mp ht
    exact hc.mem_of_transGen hn
      (Node.below_of_mentions (Outcome.toOption_eq_some.mp hq) (q.mem_mentions_of_reference hm))
  · intro s₁ s₂ id n₁ n₂ h₁ h₂
    have hsame : n₁ = n₂ := Outcome.result_unique (x := g.node id) h₁ h₂
    subst hsame
    exact ⟨rfl, rfl, rfl, rfl, rfl⟩
  · intro id sql h
    simp only [countStatement, Outcome.bind_eq_ok, Outcome.pure_eq_ok] at h ⊢
    obtain ⟨target, ht, st, hst, _⟩ := h
    obtain ⟨st', hst'⟩ := Node.exists_count_inline hc (mem_nodes_of_node ht) hst
    exact ⟨_, target, ht, st', hst', rfl⟩

/-- The joined selections: their queries stand in place of their names, and the count goes through
in place as well. -/
theorem strategies_agree_diamond :
    ∃ n ∈ diamond.nodes, ∃ template : Option (List (Piece Node)), n.id = "joined" ∧
      n.text? .postgreSql .commonTableExpressions = template.bind (write (byName Node.name)) ∧
      n.text? .postgreSql .inline =
        template.bind (write (inPlace Node.name (Node.text? .postgreSql .inline))) ∧
      (n.text? .postgreSql .inline).isSome = true ∧
      n.text? .postgreSql .inline ≠ n.text? .postgreSql .commonTableExpressions ∧
      ∃ sql, ((diamond.withStrategy .inline).countStatement "joined").result = .ok sql := by
  obtain ⟨htext, _, hcount⟩ := strategies_agree build_diamond acyclic_diamond
  have ht : (diamond.node "joined").result = .ok _ := rfl
  obtain ⟨template, _, hname, hplace⟩ := htext _ (mem_nodes_of_node ht)
  exact ⟨_, mem_nodes_of_node ht, template, rfl, hname, hplace, by decide +kernel,
    by decide +kernel, hcount "joined" _ rfl⟩

end Graph

end DataflowSql

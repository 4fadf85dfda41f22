import DataflowSql.Proofs.Order
import DataflowSql.Proofs.Spelling

/-! Names in scope. With common table expressions a query reads other nodes by name only, and a
statement defines every node before the first definition that names it. -/
namespace DataflowSql

namespace Sql

variable {ρ : Type}

mutual

/-- The references a query makes by name, at any depth. -/
def Query.mentions : Query ρ → List ρ
  | .select _ _ source _ _ => source.mentions
  | .union l r => l.mentions ++ r.mentions
  | .unionAll l r => l.mentions ++ r.mentions

def Source.mentions : Source ρ → List ρ
  | .table _ _ => []
  | .named t _ => [t]
  | .nested _ q _ => q.mentions
  | .join l _ r => l.mentions ++ r.mentions

end

end Sql

open Sql

namespace Node

variable {d : Dialect} {n : Node}

theorem mentions_selectFrom (h : Heading) (src : Source Node) :
    (h.selectFrom src).mentions = src.mentions := by
  rw [Heading.selectFrom, Query.mentions]

theorem mentions_stack (q : Query Node) (qs : List (Query Node)) :
    (stack q qs).mentions = (q :: qs).flatMap Query.mentions := by
  induction qs generalizing q with
  | nil => simp [stack]
  | cons p qs ih =>
    have hstep : stack q (p :: qs) = stack (.unionAll q p) qs := rfl
    rw [hstep, ih]
    simp [Query.mentions]

/-- Common table expressions write no query in place. -/
theorem mentions_of_read {mode : Mode} {src : Source Node}
    (h : (n.read d .commonTableExpressions mode).result = .ok src) :
    src.mentions = src.reads := by
  induction n using reads_induction generalizing mode src with
  | step n ih =>
    have hwhole {range : Option String} {src : Source Node}
        (h : (n.read d .commonTableExpressions (.whole range)).result = .ok src) :
        src.mentions = src.reads := by
      rw [read_whole_named, Outcome.ok_eq_ok] at h
      subst h
      rw [Source.mentions, Source.reads]
    cases mode with
    | whole range => exact hwhole h
    | spliced =>
      obtain ⟨place, hplace, hsrc⟩ := read_spliced_eq_ok.mp h
      cases isSplice_of_splice hplace with
      | whole => exact hwhole hsrc
      | table path =>
        rw [Place.source, Outcome.pure_eq_ok] at hsrc
        subst hsrc
        rw [Source.mentions, Source.reads]
      | join clause =>
        obtain ⟨hl, hr, _, _⟩ := clause
        obtain ⟨ls, rs, hls, hrs, rfl⟩ := place_join_eq_ok.mp hsrc
        rw [Source.mentions, Source.reads, ih _ (reads_of_input hl) hls,
          ih _ (reads_of_input hr) hrs]

theorem mentions_of_place {place : Place} {src : Source Node}
    (h : (place.source d .commonTableExpressions).result = .ok src) :
    src.mentions = src.reads := by
  cases place with
  | table path range =>
    rw [Place.source, Outcome.pure_eq_ok] at h
    subst h
    rw [Source.mentions, Source.reads]
  | input m mode => exact mentions_of_read h
  | join l m r mode =>
    obtain ⟨ls, rs, hls, hrs, rfl⟩ := place_join_eq_ok.mp h
    rw [Source.mentions, Source.reads, mentions_of_read hls, mentions_of_read hrs]

/-- Each name in a query stands in the source of one of its branches. -/
theorem mem_mentions_of_layout {s : Strategy} {layout : Layout} {q : Query Node} {k : Node}
    (h : (layout.query d s).result = .ok q) (hk : k ∈ q.mentions) :
    ∃ b ∈ layout.branches, ∃ src, (b.place.source d s).result = .ok src ∧ k ∈ src.mentions := by
  have hbranch {b : Branch} {q : Query Node} (hq : (b.query d s).result = .ok q)
      (hk : k ∈ q.mentions) : ∃ src, (b.place.source d s).result = .ok src ∧ k ∈ src.mentions := by
    obtain ⟨src, hsrc, rfl⟩ := branch_query_eq_ok.mp hq
    exact ⟨src, hsrc, mentions_selectFrom b.heading src ▸ hk⟩
  cases layout with
  | single b => exact ⟨b, by simp [Layout.branches], hbranch h hk⟩
  | union l r =>
    simp only [Layout.query, Outcome.bind_eq_ok, Outcome.pure_eq_ok] at h
    obtain ⟨ql, hl, qr, hr, rfl⟩ := h
    rw [Query.mentions, List.mem_append] at hk
    rcases hk with hk | hk
    · exact ⟨l, by simp [Layout.branches], hbranch hl hk⟩
    · exact ⟨r, by simp [Layout.branches], hbranch hr hk⟩
  | stack b bs =>
    obtain ⟨p, ps, hps, rfl⟩ := stack_query_eq_ok.mp h
    rw [mentions_stack] at hk
    obtain ⟨r, hr, hk⟩ := List.mem_flatMap.mp hk
    obtain ⟨c, hc, hcr⟩ := Outcome.exists_of_mem_mapM hps r hr
    exact ⟨c, hc, hbranch hcr hk⟩

/-- Each branch of a layout has a source, and what it names the query names. -/
theorem mentions_of_mem_branches {s : Strategy} {layout : Layout} {q : Query Node}
    (h : (layout.query d s).result = .ok q) {b : Branch} (hb : b ∈ layout.branches) :
    ∃ src, (b.place.source d s).result = .ok src ∧ src.mentions ⊆ q.mentions := by
  have hbranch {b : Branch} {q : Query Node} (hq : (b.query d s).result = .ok q) :
      ∃ src, (b.place.source d s).result = .ok src ∧ src.mentions = q.mentions := by
    obtain ⟨src, hsrc, rfl⟩ := branch_query_eq_ok.mp hq
    exact ⟨src, hsrc, (mentions_selectFrom b.heading src).symm⟩
  cases layout with
  | single b' =>
    rw [Layout.branches, List.mem_singleton] at hb
    subst hb
    obtain ⟨src, hsrc, heq⟩ := hbranch h
    exact ⟨src, hsrc, heq ▸ List.Subset.refl _⟩
  | union l r =>
    simp only [Layout.query, Outcome.bind_eq_ok, Outcome.pure_eq_ok] at h
    obtain ⟨ql, hl, qr, hr, rfl⟩ := h
    rw [Query.mentions]
    simp only [Layout.branches, List.mem_cons, List.not_mem_nil, or_false] at hb
    rcases hb with rfl | rfl
    · obtain ⟨src, hsrc, heq⟩ := hbranch hl
      exact ⟨src, hsrc, heq ▸ List.subset_append_left _ _⟩
    · obtain ⟨src, hsrc, heq⟩ := hbranch hr
      exact ⟨src, hsrc, heq ▸ List.subset_append_right _ _⟩
  | stack b' bs =>
    obtain ⟨p, ps, hps, rfl⟩ := stack_query_eq_ok.mp h
    obtain ⟨r, hr, hbr⟩ := Outcome.exists_mem_of_mapM hps b hb
    obtain ⟨src, hsrc, heq⟩ := hbranch hbr
    refine ⟨src, hsrc, fun k hk => ?_⟩
    rw [mentions_stack]
    exact List.mem_flatMap.mpr ⟨r, hr, heq ▸ hk⟩

/-- What the query of a node names is among the dependencies of the node. -/
theorem mentions_subset_dependencies {q : Query Node} {ds : List Node}
    (hq : (n.query d .commonTableExpressions).result = .ok q)
    (hds : (n.dependencies d .commonTableExpressions).result = .ok ds) :
    ∀ m ∈ q.mentions, m ∈ ds := by
  intro m hm
  obtain ⟨layout, hlayout, hq⟩ := query_eq_ok.mp hq
  obtain ⟨b, hb, src, hsrc, hm⟩ := mem_mentions_of_layout hq hm
  rw [mentions_of_place hsrc] at hm
  exact reads_subset_dependencies (isBranch_of_layout hlayout hb) hsrc hds m hm

end Node

/-- The nodes whose rows a definition reads by name. -/
def Definition.mentions : Definition → List Node
  | .rows _ q => q.mentions
  | .numbered n _ => [n]

/-- The nodes whose rows the query of a body reads by name. -/
def Body.mentions : Body → List Node
  | .nested _ q _ _ => q.mentions
  | .count q _ => q.mentions
  | .listed _ _ _ => []
  | .windowed _ _ _ _ _ => []

/-- The definition whose rows a body lists. -/
def Body.lists? : Body → Option String
  | .listed _ name _ => some name
  | .windowed _ name _ _ _ => some name
  | .nested _ _ _ _ => none
  | .count _ _ => none

/-- Every definition names nodes defined before it only, and the body names defined ones. -/
structure Statement.Scoped (st : Statement) : Prop where
  definitions : ∀ before e after, st.definitions = before ++ e :: after →
    ∀ m ∈ e.mentions, ∃ q, .rows m q ∈ before
  body : ∀ m ∈ st.body.mentions, ∃ q, .rows m q ∈ st.definitions
  lists : ∀ name, st.body.lists? = some name → ∃ e ∈ st.definitions, e.name = name

namespace Node

variable {d : Dialect} {target : Node} {nodes : List Node} {st : Statement}

theorem rows_mem_of_definitions {ns : List Node} {es : List Definition}
    (h : (definitions d ns).result = .ok es) : ∀ n ∈ ns, ∃ q, .rows n q ∈ es := by
  intro n hn
  obtain ⟨e, he, hne⟩ := Outcome.exists_mem_of_mapM h n hn
  simp only [Outcome.bind_eq_ok, Outcome.pure_eq_ok] at hne
  obtain ⟨q, _, rfl⟩ := hne
  exact ⟨q, he⟩

/-- Nodes behind their dependencies give definitions behind what they name. -/
theorem mentions_of_definitions {ns : List Node} {es : List Definition}
    (hns : DependenciesFirst d .commonTableExpressions ns)
    (h : (definitions d ns).result = .ok es) {before after : List Definition} {e : Definition}
    (he : es = before ++ e :: after) : ∀ m ∈ e.mentions, ∃ q, .rows m q ∈ before := by
  subst he
  obtain ⟨ns₁, n, ns₂, rfl, h₁, hn⟩ := Outcome.split_of_mapM h
  simp only [Outcome.bind_eq_ok, Outcome.pure_eq_ok] at hn
  obtain ⟨q, hq, rfl⟩ := hn
  obtain ⟨ds, hds, hfirst⟩ := hns ns₁ n ns₂ rfl
  intro m hm
  exact rows_mem_of_definitions h₁ m (hfirst m (mentions_subset_dependencies hq hds m hm))

theorem scoped_of_fetch (hc : Complete nodes) (ht : target ∈ nodes) {depth : Nat}
    {page : Option Page}
    (h : (target.fetch d .commonTableExpressions depth page).result = .ok st) : st.Scoped := by
  simp only [fetch, Outcome.bind_eq_ok] at h
  obtain ⟨p, _, key, _, order, horder, rows, hrows, h⟩ := h
  have hfirst := (covers_target hc ht horder).first
  obtain ⟨q, hq⟩ := rows_mem_of_definitions hrows target (by simp)
  cases page with
  | none =>
    rw [Outcome.pure_eq_ok] at h
    subst h
    refine ⟨fun _ _ _ he => mentions_of_definitions hfirst hrows he, by simp [Body.mentions], ?_⟩
    intro name hname
    cases hname
    exact ⟨.rows target q, hq, rfl⟩
  | some page =>
    simp only [Outcome.bind_eq_ok, Outcome.pure_eq_ok] at h
    obtain ⟨⟨first, last⟩, _, rfl⟩ := h
    refine ⟨?_, by simp [Body.mentions], ?_⟩
    · intro before e after he
      rcases split_snoc he with ⟨rfl, rfl⟩ | ⟨bs, hbs⟩
      · intro m hm
        rw [Definition.mentions, List.mem_singleton] at hm
        subst hm
        exact ⟨q, hq⟩
      · exact mentions_of_definitions hfirst hrows hbs
    · intro name hname
      cases hname
      exact ⟨.numbered target key, by simp, rfl⟩

/-- A statement for rows with common table expressions defines at least its target. -/
theorem definitions_of_fetch {depth : Nat} {page : Option Page}
    (h : (target.fetch d .commonTableExpressions depth page).result = .ok st) :
    st.definitions ≠ [] := by
  simp only [fetch, Outcome.bind_eq_ok] at h
  obtain ⟨p, _, key, _, order, _, rows, hrows, h⟩ := h
  obtain ⟨q, hq⟩ := rows_mem_of_definitions hrows target (by simp)
  cases page with
  | none =>
    rw [Outcome.pure_eq_ok] at h
    subst h
    exact List.ne_nil_of_mem hq
  | some page =>
    simp only [Outcome.bind_eq_ok, Outcome.pure_eq_ok] at h
    obtain ⟨_, _, rfl⟩ := h
    simp

theorem scoped_of_count (hc : Complete nodes) (ht : target ∈ nodes) {depth : Nat}
    (h : (target.count d .commonTableExpressions depth).result = .ok st) : st.Scoped := by
  simp only [count, Outcome.bind_eq_ok, Outcome.pure_eq_ok] at h
  obtain ⟨q, hq, order, horder, rows, hrows, rfl⟩ := h
  obtain ⟨ds, hds, hcovers⟩ := dependencyOrder_covers hc ht horder
  refine ⟨fun _ _ _ he => mentions_of_definitions hcovers.first hrows he, ?_, ?_⟩
  · intro m hm
    apply rows_mem_of_definitions hrows m
    exact (hcovers.mem_iff m).mpr ⟨m, mentions_subset_dependencies hq hds m hm, .refl⟩
  · intro name hname
    cases hname

end Node

namespace Graph

/-- In a graph without cycles whose statements use common table expressions, the query of every node
names dependencies of the node only, and every statement defines each node before it is named. The
definitions stand in this order behind `WITH`, and names are written as they are read here. -/
theorem statements_scoped {specs : List NodeSpec} {catalog : Catalog} {d : Dialect}
    {g : Graph} {notes : List BuildNote} (hb : build specs catalog d = .ok (g, notes))
    (ha : g.Acyclic) :
    (∀ n ∈ g.nodes, ∀ q ds, (n.query g.dialect .commonTableExpressions).result = .ok q →
      (n.dependencies g.dialect .commonTableExpressions).result = .ok ds →
        ∀ m ∈ q.mentions, m ∈ ds) ∧
    (∀ id page sql,
      ((g.withStrategy .commonTableExpressions).fetchStatement id page).result = .ok sql →
        ∃ target st, (g.node id).result = .ok target ∧
          (target.fetch g.dialect .commonTableExpressions g.size page).result = .ok st ∧
          st.sql g.dialect = sql ∧ st.Scoped ∧ st.Spelled g.dialect sql ∧
          sql = "WITH " ++ ", ".intercalate (st.definitions.map (Definition.sql g.dialect)) ++
            " " ++ st.body.sql g.dialect) ∧
    (∀ id sql, ((g.withStrategy .commonTableExpressions).countStatement id).result = .ok sql →
      ∃ target st, (g.node id).result = .ok target ∧
        (target.count g.dialect .commonTableExpressions g.size).result = .ok st ∧
        st.sql g.dialect = sql ∧ st.Scoped ∧ st.Spelled g.dialect sql ∧
        (st.definitions ≠ [] → sql =
          "WITH " ++ ", ".intercalate (st.definitions.map (Definition.sql g.dialect)) ++
            " " ++ st.body.sql g.dialect)) := by
  have hc := nodes_complete hb ha
  refine ⟨?_, ?_, ?_⟩
  · intro n _ q ds hq hds
    exact Node.mentions_subset_dependencies hq hds
  · intro id page sql h
    obtain ⟨target, st, ht, hst, hsql, hspelled⟩ := statement_of_fetch h
    exact ⟨target, st, ht, hst, hsql, Node.scoped_of_fetch hc (mem_nodes_of_node ht) hst, hspelled,
      hspelled.defined (Node.definitions_of_fetch hst)⟩
  · intro id sql h
    obtain ⟨target, st, ht, hst, hsql, hspelled⟩ := statement_of_count h
    exact ⟨target, st, ht, hst, hsql, Node.scoped_of_count hc (mem_nodes_of_node ht) hst, hspelled,
      hspelled.defined⟩

/-- A sorted table joined with itself, and a selection that takes the join over. -/
def mirroredSpecs : List NodeSpec :=
  [⟨"orders", [], .tableSource ⟨some "orders"⟩⟩,
    ⟨"sorted", ["orders"], .sort ⟨[1], []⟩⟩,
    ⟨"paired", ["sorted", "sorted"], .join ⟨.inner, some 0, some 0⟩⟩,
    ⟨"picked", ["paired"], .select ⟨some [0, 3], []⟩⟩]

def mirrored : Graph where
  dialect := .postgreSql
  strategy := .commonTableExpressions
  entries := mirroredSpecs.map (entry (mirroredSpecs.map NodeSpec.id) diamondCatalog)

theorem build_mirrored : build mirroredSpecs diamondCatalog .postgreSql =
    .ok (mirrored, [.built 4 .postgreSql]) := rfl

theorem acyclic_mirrored : mirrored.Acyclic := acyclic_of_earlier (by decide)

/-- Both uses of the sorted table follow its definition, also the one under another range. -/
theorem statements_scoped_mirrored :
    ∃ target st q sql, (mirrored.node "picked").result = .ok target ∧
      (target.fetch .postgreSql .commonTableExpressions 4 (some ⟨10, 5⟩)).result = .ok st ∧
      (mirrored.fetchStatement "picked" (some ⟨10, 5⟩)).result = .ok sql ∧
      sql = "WITH " ++ ", ".intercalate (st.definitions.map (Definition.sql .postgreSql)) ++ " " ++
        st.body.sql .postgreSql ∧
      st.definitions.map (Definition.sql .postgreSql) =
        ["node_orders AS (SELECT node_orders_table.\"id\" AS Column_0, " ++
            "node_orders_table.\"total\" AS Column_1 FROM \"orders\" AS node_orders_table)",
          "node_sorted AS (SELECT * FROM node_orders)",
          "node_picked AS (SELECT node_sorted.Column_0 AS Column_0, " ++
            "node_paired_rhs.Column_1 AS Column_1 FROM node_sorted INNER JOIN node_sorted AS " ++
            "node_paired_rhs ON node_sorted.Column_0 = node_paired_rhs.Column_0)",
          "node_picked_paged AS (SELECT *, ROW_NUMBER() OVER (ORDER BY Column_0 ASC) AS " ++
            "ROW_NUM FROM node_picked)"] ∧
      st.Scoped ∧ st.Spelled .postgreSql sql ∧
      (target.query .postgreSql .commonTableExpressions).result = .ok q ∧
      q.mentions.map Node.id = ["sorted", "sorted"] ∧
      ∀ ds, (target.dependencies .postgreSql .commonTableExpressions).result = .ok ds →
        ∀ m ∈ q.mentions, m ∈ ds := by
  obtain ⟨hnamed, hfetch, _⟩ := statements_scoped build_mirrored acyclic_mirrored
  have hsql : (mirrored.fetchStatement "picked" (some ⟨10, 5⟩)).result = .ok _ := rfl
  obtain ⟨target, st, ht, hst, _, hscoped, hspelled, htext⟩ := hfetch _ _ _ hsql
  have htarget := mem_nodes_of_node ht
  obtain rfl := Outcome.result_unique (show (mirrored.node "picked").result = .ok _ from rfl) ht
  refine ⟨_, st, _, _, rfl, hst, hsql, htext, ?_, hscoped, hspelled, rfl, by decide +kernel,
    fun ds => hnamed _ htarget _ ds rfl⟩
  obtain rfl := Outcome.result_unique hst rfl
  decide +kernel

end Graph

end DataflowSql

import Mathlib.Data.List.Nodup
import Mathlib.Data.Set.Function
import DataflowSql.Proofs.Order
import DataflowSql.Proofs.Phrase

/-! Names of definitions. Ids differ, but a name keeps only the letters, digits and underscores of
an id, and numbered rows take the name of their node with an ending. So two definitions may be
called the same; they are not where every id is a plain name without that ending. -/
namespace DataflowSql

open Relation Sql

theorem Sql.sanitize_of_isName {w : String} (h : IsName w) : sanitize w = w := by
  have hkept : w.toList.map (fun c => if isNameChar c then c else '_') = w.toList := by
    rw [List.map_congr_left fun c hc => if_pos (h c hc), List.map_id']
  rw [sanitize, hkept, String.ofList_toList]

theorem Sql.nodeName_of_isName {w : String} (h : IsName w) : nodeName w = "node_" ++ w := by
  rw [nodeName, sanitize_of_isName h]

namespace Node

variable {d : Dialect} {s : Strategy} {nodes : List Node} {target : Node}

/-- Every id is a plain name, and none has this ending. -/
def PlainIds (nodes : List Node) (ending : String) : Prop :=
  ∀ n ∈ nodes, IsName n.id ∧ ¬ ending.toList <:+ n.id.toList

instance (nodes : List Node) (ending : String) : Decidable (PlainIds nodes ending) :=
  inferInstanceAs (Decidable (∀ n ∈ nodes, IsName n.id ∧ ¬ ending.toList <:+ n.id.toList))

theorem PlainIds.injOn_name (hc : Complete nodes) {ending : String} (h : PlainIds nodes ending) :
    Set.InjOn name {n | n ∈ nodes} := by
  intro n hn m hm hname
  rw [name, name, nodeName_of_isName (h n hn).1, nodeName_of_isName (h m hm).1,
    String.append_right_inj] at hname
  exact hc.eq_of_id n hn m hm hname

theorem PlainIds.name_ne {ending : String} (h : PlainIds nodes ending) {n m : Node} (hn : n ∈ nodes)
    (hm : m ∈ nodes) : n.name ≠ m.name ++ ending := by
  intro hname
  rw [name, name, nodeName_of_isName (h n hn).1, nodeName_of_isName (h m hm).1,
    String.append_assoc, String.append_right_inj] at hname
  refine (h n hn).2 ?_
  rw [hname, String.toList_append]
  exact List.suffix_append _ _

theorem map_name_of_definitions {ns : List Node} {es : List Definition}
    (h : (definitions d ns).result = .ok es) : es.map Definition.name = ns.map name := by
  rw [definitions, Outcome.mapM_eq_ok] at h
  induction h with
  | nil => rfl
  | cons hne _ ih =>
    simp only [Outcome.bind_eq_ok, Outcome.pure_eq_ok] at hne
    obtain ⟨q, _, rfl⟩ := hne
    simp only [List.map_cons, ih, Definition.name]

/-- Definitions are called the same only where two nodes are. -/
theorem nodup_names_of_covers_iff {roots order : List Node} (h : Covers d s roots order) :
    (order.map name).Nodup ↔
      Set.InjOn name {m | ∃ r ∈ roots, ReflTransGen (DependsOn d s) r m} := by
  rw [List.nodup_map_iff_inj_on h.nodup.of_map]
  simp only [h.mem_iff]
  constructor
  · intro hinj n hn m hm hname
    exact hinj n hn m hm hname
  · intro hinj n hn m hm hname
    exact hinj hn hm hname

theorem nodup_names_of_count_iff (hc : Complete nodes) (ht : target ∈ nodes) {depth : Nat}
    {st : Statement} (h : (target.count d .commonTableExpressions depth).result = .ok st) :
    (st.definitions.map Definition.name).Nodup ↔
      Set.InjOn name {m | TransGen (DependsOn d .commonTableExpressions) target m} := by
  simp only [count, Outcome.bind_eq_ok, Outcome.pure_eq_ok] at h
  obtain ⟨q, _, order, horder, rows, hrows, rfl⟩ := h
  obtain ⟨ds, hds, hcovers⟩ := dependencyOrder_covers hc ht horder
  rw [map_name_of_definitions hrows, nodup_names_of_covers_iff hcovers]
  simp only [transGen_dependsOn_iff hds]

theorem pagedName_ne_nodeName (id : String) : nodeName id ≠ pagedName id := by
  intro h
  have hlength := congrArg String.length h
  simp [pagedName] at hlength

/-- The numbered rows add one name, which no dependency may have. -/
theorem nodup_names_of_fetch_iff (hc : Complete nodes) (ht : target ∈ nodes) {depth : Nat}
    {page : Option Page} {st : Statement}
    (h : (target.fetch d .commonTableExpressions depth page).result = .ok st) :
    (st.definitions.map Definition.name).Nodup ↔
      Set.InjOn name {m | ReflTransGen (DependsOn d .commonTableExpressions) target m} ∧
        (page.isSome → ∀ m, TransGen (DependsOn d .commonTableExpressions) target m →
          m.name ≠ pagedName target.id) := by
  simp only [fetch, Outcome.bind_eq_ok] at h
  obtain ⟨p, _, key, _, order, horder, rows, hrows, h⟩ := h
  have hcovers := covers_target hc ht horder
  have hnames := map_name_of_definitions hrows
  have hnodup := nodup_names_of_covers_iff hcovers
  have hmem := hcovers.mem_iff
  simp only [List.mem_singleton, exists_eq_left] at hnodup hmem
  cases page with
  | none =>
    rw [Outcome.pure_eq_ok] at h
    subst h
    rw [hnames, hnodup]
    simp
  | some page =>
    simp only [Outcome.bind_eq_ok, Outcome.pure_eq_ok] at h
    obtain ⟨⟨first, last⟩, _, rfl⟩ := h
    have hfresh : pagedName target.id ∉ (order ++ [target]).map name ↔
        ∀ m, TransGen (DependsOn d .commonTableExpressions) target m →
          m.name ≠ pagedName target.id := by
      constructor
      · intro hnot m hm hname
        exact hnot (List.mem_map.mpr ⟨m, (hmem m).mpr hm.to_reflTransGen, hname⟩)
      · intro hne hpaged
        obtain ⟨m, hm, hname⟩ := List.mem_map.mp hpaged
        rcases reflTransGen_iff_eq_or_transGen.mp ((hmem m).mp hm) with rfl | hm
        -- the ending alone keeps the target itself apart
        · exact pagedName_ne_nodeName m.id hname
        · exact hne m hm hname
    rw [List.map_append, hnames, List.map_singleton, Definition.name, ← List.concat_eq_append,
      List.nodup_concat, hfresh, hnodup, and_comm]
    simp

end Node

namespace Graph

/-- In a graph without cycles whose statements use common table expressions, the definitions of a
statement have different names exactly where the nodes it defines have and, if the rows of the
target are numbered, no dependency is called as these rows are. If all ids are plain names that do
not end as the names of numbered rows do, no statement repeats a name. -/
theorem definition_names_nodup_iff {specs : List NodeSpec} {catalog : Catalog} {d : Dialect}
    {g : Graph} {notes : List BuildNote} (hb : build specs catalog d = .ok (g, notes))
    (ha : g.Acyclic) :
    (∀ id page sql,
      ((g.withStrategy .commonTableExpressions).fetchStatement id page).result = .ok sql →
        ∃ target st, (g.node id).result = .ok target ∧
          (target.fetch g.dialect .commonTableExpressions g.size page).result = .ok st ∧
          st.sql g.dialect = sql ∧
          ((st.definitions.map Definition.name).Nodup ↔
            Set.InjOn Node.name
              {m | ReflTransGen (Node.DependsOn g.dialect .commonTableExpressions) target m} ∧
            (page.isSome →
              ∀ m, TransGen (Node.DependsOn g.dialect .commonTableExpressions) target m →
                m.name ≠ pagedName target.id)) ∧
          (Node.PlainIds g.nodes "_paged" → (st.definitions.map Definition.name).Nodup)) ∧
    (∀ id sql, ((g.withStrategy .commonTableExpressions).countStatement id).result = .ok sql →
      ∃ target st, (g.node id).result = .ok target ∧
        (target.count g.dialect .commonTableExpressions g.size).result = .ok st ∧
        st.sql g.dialect = sql ∧
        ((st.definitions.map Definition.name).Nodup ↔
          Set.InjOn Node.name
            {m | TransGen (Node.DependsOn g.dialect .commonTableExpressions) target m}) ∧
        (Node.PlainIds g.nodes "_paged" → (st.definitions.map Definition.name).Nodup)) := by
  have hc := nodes_complete hb ha
  constructor
  · intro id page sql h
    simp only [fetchStatement, Outcome.bind_eq_ok, Outcome.pure_eq_ok] at h
    obtain ⟨target, ht, st, hst, hsql⟩ := h
    have htarget := mem_nodes_of_node ht
    have hiff := Node.nodup_names_of_fetch_iff hc htarget hst
    refine ⟨target, st, ht, hst, hsql, hiff, fun hplain => hiff.mpr ⟨?_, fun _ m hm => ?_⟩⟩
    · exact (hplain.injOn_name hc).mono fun m hm => hc.mem_of_reaches htarget hm
    · exact hplain.name_ne (hc.mem_of_reaches htarget hm.to_reflTransGen) htarget
  · intro id sql h
    simp only [countStatement, Outcome.bind_eq_ok, Outcome.pure_eq_ok] at h
    obtain ⟨target, ht, st, hst, hsql⟩ := h
    have htarget := mem_nodes_of_node ht
    have hiff := Node.nodup_names_of_count_iff hc htarget hst
    refine ⟨target, st, ht, hst, hsql, hiff, fun hplain => hiff.mpr ?_⟩
    exact (hplain.injOn_name hc).mono fun m hm =>
      hc.mem_of_reaches htarget (TransGen.to_reflTransGen hm)

/-- Five definitions and the numbered rows, all called differently. -/
theorem definition_names_nodup_diamond :
    Node.PlainIds diamond.nodes "_paged" ∧
      ∃ target st, (diamond.node "joined").result = .ok target ∧
        (target.fetch .postgreSql .commonTableExpressions 5 (some ⟨10, 5⟩)).result = .ok st ∧
        st.definitions.length = 6 ∧ (st.definitions.map Definition.name).Nodup := by
  have hplain : Node.PlainIds diamond.nodes "_paged" := by decide +kernel
  refine ⟨hplain, ?_⟩
  obtain ⟨hfetch, _⟩ := definition_names_nodup_iff build_diamond acyclic_diamond
  obtain ⟨target, st, ht, hst, _, _, hnodup⟩ := hfetch "joined" (some ⟨10, 5⟩) _ rfl
  refine ⟨target, st, ht, hst, ?_, hnodup hplain⟩
  obtain rfl := Outcome.result_unique (show (diamond.node "joined").result = .ok _ from rfl) ht
  obtain rfl := Outcome.result_unique hst rfl
  rfl

/-- Ids that differ in one character that no name keeps, and one that ends as numbered rows do. -/
def homonymSpecs : List NodeSpec :=
  [⟨"a-b", [], .tableSource ⟨some "orders"⟩⟩,
    ⟨"a_b", ["a-b"], .sort ⟨[0], []⟩⟩,
    ⟨"top", ["a_b"], .sort ⟨[0], []⟩⟩,
    ⟨"x_paged", [], .tableSource ⟨some "orders"⟩⟩,
    ⟨"x", ["x_paged"], .sort ⟨[0], []⟩⟩]

def homonyms : Graph where
  dialect := .postgreSql
  strategy := .commonTableExpressions
  entries := homonymSpecs.map (entry (homonymSpecs.map NodeSpec.id) diamondCatalog)

/-- Names may repeat although all ids differ. -/
theorem definition_names_repeat :
    build homonymSpecs diamondCatalog .postgreSql = .ok (homonyms, [.built 5 .postgreSql]) ∧
      homonyms.Acyclic ∧
      (∃ sql target st, (homonyms.countStatement "top").result = .ok sql ∧
        (homonyms.node "top").result = .ok target ∧
        (target.count .postgreSql .commonTableExpressions 5).result = .ok st ∧
        st.sql .postgreSql = sql ∧
        st.definitions.map Definition.name = ["node_a_b", "node_a_b"]) ∧
      ∃ sql target st, (homonyms.fetchStatement "x" (some ⟨0, 5⟩)).result = .ok sql ∧
        (homonyms.node "x").result = .ok target ∧
        (target.fetch .postgreSql .commonTableExpressions 5 (some ⟨0, 5⟩)).result = .ok st ∧
        st.sql .postgreSql = sql ∧
        st.definitions.map Definition.name = ["node_x_paged", "node_x", "node_x_paged"] := by
  refine ⟨rfl, acyclic_of_earlier (by decide), ?_, ?_⟩
  · exact ⟨_, _, _, rfl, rfl, rfl, rfl, by decide +kernel⟩
  · exact ⟨_, _, _, rfl, rfl, rfl, rfl, by decide +kernel⟩

end Graph

end DataflowSql

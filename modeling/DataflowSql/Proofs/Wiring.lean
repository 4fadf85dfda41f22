import DataflowSql.Compile.Query
import DataflowSql.Proofs.Acyclic
import DataflowSql.Proofs.Inputs

/-! Wiring. Nodes with different ids always make a graph, and the graph is the list of declarations
with positions in place of ids: an input leads to the position of the node it names, wherever that
is declared, and a table source has the table of the catalog that it names. -/
namespace DataflowSql

/-- No table before this one has its display name. -/
def Catalog.IsFirst (c : Catalog) (t : TableSchema) : Prop :=
  ∃ before after, c.tables = before ++ t :: after ∧ ∀ u ∈ before, u.displayName ≠ t.displayName

theorem Catalog.find?_eq_some_iff {c : Catalog} {name : String} {t : TableSchema} :
    c.find? name = some t ↔ t.displayName = name ∧ c.IsFirst t := by
  rw [find?, List.find?_eq_some_iff_append, IsFirst]
  simp only [decide_eq_true_eq, Bool.not_eq_true', decide_eq_false_iff_not]
  constructor
  · intro h
    obtain ⟨rfl, before, after, htables, hbefore⟩ := h
    exact ⟨rfl, before, after, htables, hbefore⟩
  · intro h
    obtain ⟨rfl, before, after, htables, hbefore⟩ := h
    exact ⟨rfl, before, after, htables, hbefore⟩

namespace TableSource

variable {ρ : Type} {t : TableSource} {id : String} {schema : TableSchema}

/-- A source that names no table, or none that is known, has nothing to read. -/
theorem source_ne_ok (src : Sql.Source ρ) : (t.source id none).result ≠ .ok src := by
  intro h
  simp only [source, requireColumns, columnsOf, List.isEmpty_nil, if_true, Outcome.bind_eq_ok,
    Outcome.fail_ne_ok, and_false, false_and, exists_false] at h

theorem isConfigured_of_columns (ht : t.table = some schema.displayName)
    (hc : schema.columns ≠ []) : t.isConfigured (some schema) = true := by
  simp [isConfigured, columnsOf, ht, hc]

/-- The path of the table stands in the source, if the table has columns. -/
theorem source_of_columns (ht : t.table = some schema.displayName) (hc : schema.columns ≠ []) :
    (t.source id (some schema) : Outcome (Sql.Source ρ)).result =
      .ok (.table schema.path (Sql.tableRange id)) := by
  rw [source, Outcome.bind_eq_ok]
  exact ⟨(), Node.requireColumns_of_isConfigured (isConfigured_of_columns ht hc), rfl⟩

end TableSource

namespace Node

open Sql

variable {d : Dialect} {n : Node} {t : TableSource} {schema : TableSchema}

/-- A table source puts out the columns of its table. -/
theorem projection_eq_exposed (hop : n.operation = .tableSource t) :
    (n.projection d).result =
      .ok ((TableSource.columnsOf n.schema).map (TableSource.exposed d)) := by
  rw [projection_eq, hop, Outcome.ok_eq_ok, TableSource.projection]

/-- A table source selects the columns of its table from the path of the table. -/
theorem query_of_table (hop : n.operation = .tableSource t) (hn : n.schema = some schema)
    (ht : t.table = some schema.displayName) (hc : schema.columns ≠ []) (s : Strategy) :
    (n.query d s).result = .ok (.plain (schema.columns.map (TableSource.columnExpr d n.id))
      (.table schema.path (tableRange n.id))) := by
  simp only [query, queryStep, hop, hn, TableSource.query, Outcome.bind_eq_ok, Outcome.pure_eq_ok]
  exact ⟨(), requireColumns_of_isConfigured (TableSource.isConfigured_of_columns ht hc), _,
    TableSource.source_of_columns ht hc, rfl⟩

end Node

namespace Graph

open Sql

variable {specs : List NodeSpec} {catalog : Catalog} {g : Graph}

/-- The graph is made of these declarations. -/
structure Wired (specs : List NodeSpec) (catalog : Catalog) (g : Graph) : Prop where
  size : g.size = specs.length
  /-- Entries keep the order of the declarations and the order of their inputs. -/
  entry : ∀ (k : Nat) spec, specs[k]? = some spec → ∃ e, g.entries[k]? = some e ∧
    e.id = spec.id ∧ e.operation = spec.operation ∧ e.inputs.map Link.id = spec.inputs
  /-- An input leads to the position where its id is declared. -/
  target : ∀ e ∈ g.entries, ∀ l ∈ e.inputs, ∀ k : Nat,
    l.target = some k ↔ ∃ spec, specs[k]? = some spec ∧ spec.id = l.id
  /-- An input leads nowhere just where nothing is declared under its id. -/
  absent : ∀ e ∈ g.entries, ∀ l ∈ e.inputs,
    l.target = none ↔ ∀ spec ∈ specs, spec.id ≠ l.id
  /-- No input leads out of the graph. -/
  bound : ∀ e ∈ g.entries, ∀ l ∈ e.inputs, ∀ k, l.target = some k → k < g.size
  /-- A table source has the first table of its name, or none. -/
  table : ∀ e ∈ g.entries, ∀ t, e.operation = .tableSource t → ∀ schema : TableSchema,
    e.schema = some schema ↔ t.table = some schema.displayName ∧ catalog.IsFirst schema
  /-- It carries the columns and the path of that table: these columns it puts out, and under this
  path it reads them. -/
  carried : ∀ n ∈ g.nodes, ∀ t, n.operation = .tableSource t → ∀ schema : TableSchema,
    t.table = some schema.displayName → catalog.IsFirst schema →
      TableSource.columnsOf n.schema = schema.columns ∧
      (n.projection g.dialect).result = .ok (schema.columns.map (TableSource.exposed g.dialect)) ∧
      (schema.columns ≠ [] →
        (t.source n.id n.schema : Outcome (Source Node)).result =
          .ok (.table schema.path (tableRange n.id)) ∧
        ∀ s, (n.query g.dialect s).result =
          .ok (.plain (schema.columns.map (TableSource.columnExpr g.dialect n.id))
            (.table schema.path (tableRange n.id))))
  /-- Without a table it carries neither. -/
  bare : ∀ n ∈ g.nodes, ∀ t, n.operation = .tableSource t →
    (∀ schema : TableSchema, t.table = some schema.displayName → ¬catalog.IsFirst schema) →
      TableSource.columnsOf n.schema = [] ∧ (n.projection g.dialect).result = .ok [] ∧
      ∀ src, (t.source n.id n.schema : Outcome (Source Node)).result ≠ .ok src
  /-- Nodes stand where their entries stand, with the same inputs. -/
  nodes : ∀ (k : Nat) e, g.entries[k]? = some e → ∃ n, g.nodes[k]? = some n ∧ n.id = e.id ∧
    n.operation = e.operation ∧ n.schema = e.schema ∧
    n.inputs.map (fun i => (i.id, i.isResolved)) = e.inputs.map fun l => (l.id, l.target.isSome)
  /-- Asked for an id, the graph gives the node at the position where it is declared. -/
  node : ∀ id n, (g.node id).result = .ok n ↔
    ∃ (k : Nat) (spec : NodeSpec), specs[k]? = some spec ∧ spec.id = id ∧ g.nodes[k]? = some n
  found : ∀ spec ∈ specs, ∃ n, (g.node spec.id).result = .ok n ∧ n.id = spec.id
  unknown : ∀ id, (g.node id).result = .error (.unknownNode id) ↔ ∀ spec ∈ specs, spec.id ≠ id

/-- The id that is reported is the first that has stood in the list before. -/
theorem split_of_repeatedId? {seen ids : List String} {id : String}
    (h : repeatedId? seen ids = some id) :
    ∃ before after, ids = before ++ id :: after ∧ before.Nodup ∧ (∀ i ∈ before, i ∉ seen) ∧
      (id ∈ seen ∨ id ∈ before) := by
  induction ids generalizing seen with
  | nil => simp [repeatedId?] at h
  | cons i ids ih =>
    rw [repeatedId?] at h
    by_cases hseen : i ∈ seen
    · rw [if_pos hseen, Option.some.injEq] at h
      subst h
      exact ⟨[], ids, rfl, List.nodup_nil, by simp, .inl hseen⟩
    · rw [if_neg hseen] at h
      obtain ⟨before, after, rfl, hnodup, hfresh, hid⟩ := ih h
      have hi : i ∉ before := fun hi => hfresh i hi List.mem_cons_self
      refine ⟨i :: before, after, rfl, List.nodup_cons.mpr ⟨hi, hnodup⟩, ?_, ?_⟩
      · intro j hj
        rcases List.mem_cons.mp hj with rfl | hj
        · exact hseen
        · exact fun hjseen => hfresh j hj (List.mem_cons_of_mem i hjseen)
      · rcases hid with hid | hid
        · rcases List.mem_cons.mp hid with rfl | hid
          · exact .inr List.mem_cons_self
          · exact .inl hid
        · exact .inr (List.mem_cons_of_mem i hid)

/-- With ids that differ, an id stands at one position only. -/
theorem idxOf?_eq_some_iff {ids : List String} (hids : ids.Nodup) {id : String} {k : Nat} :
    ids.idxOf? id = some k ↔ ids[k]? = some id := by
  constructor
  · intro h
    obtain ⟨hk, hid, _⟩ := List.idxOf?_eq_some_iff.mp h
    rw [List.getElem?_eq_getElem hk, hid]
  · intro h
    obtain ⟨hk, hid⟩ := List.getElem?_eq_some_iff.mp h
    refine List.idxOf?_eq_some_iff.mpr ⟨hk, hid, fun j hj heq => ?_⟩
    have hsame := (hids.getElem_inj_iff).mp (heq.trans hid.symm)
    omega

theorem getElem?_ids {k : Nat} {id : String} :
    (specs.map NodeSpec.id)[k]? = some id ↔ ∃ spec, specs[k]? = some spec ∧ spec.id = id := by
  rw [List.getElem?_map, Option.map_eq_some_iff]

theorem notMem_ids_iff {id : String} :
    id ∉ specs.map NodeSpec.id ↔ ∀ spec ∈ specs, spec.id ≠ id := by
  simp

/-- Nodes that an entry may be unfolded over carry the ids of the entries. -/
theorem id_of_unfoldBelow {entries : List Entry} {depth k : Nat} {m : Node}
    (h : (unfoldBelow entries depth)[k]? = some m) :
    ∃ e, entries[k]? = some e ∧ m.id = e.id := by
  cases depth with
  | zero => simp [unfoldBelow] at h
  | succ depth =>
    rw [unfoldBelow, List.getElem?_toArray, unfoldTo_eq_map, List.getElem?_map,
      Option.map_eq_some_iff] at h
    obtain ⟨e, he, rfl⟩ := h
    exact ⟨e, he, rfl⟩

/-- The inputs of a node are the links of its entry, if these lead to nodes of their ids. -/
theorem inputs_of_entry {e : Entry} {below : Array Node}
    (h : ∀ l ∈ e.inputs, ∀ k m, l.target = some k → below[k]? = some m → m.id = l.id) :
    (e.node below).inputs.map (fun i => (i.id, i.isResolved)) =
      e.inputs.map fun l => (l.id, l.target.isSome) := by
  rw [Entry.node, Node.inputs, List.map_map]
  refine List.map_congr_left fun l hl => ?_
  rw [Function.comp_apply]
  cases htarget : l.target with
  | none => rfl
  | some k =>
    cases hbelow : below[k]? with
    | none => simp [hbelow, Input.id, Input.isResolved]
    | some m => simp [hbelow, Input.id, Input.isResolved, h l hl k m htarget hbelow]

/-- Among nodes whose ids differ, a node is found just by its id. -/
theorem find?_eq_some_iff {ns : List Node} (hids : (ns.map Node.id).Nodup) {id : String}
    {n : Node} : ns.find? (fun m => m.id = id) = some n ↔ n ∈ ns ∧ n.id = id := by
  constructor
  · intro h
    exact ⟨List.mem_of_find?_eq_some h, by simpa using List.find?_some h⟩
  · intro h
    obtain ⟨hn, rfl⟩ := h
    have hsome : (ns.find? fun m => m.id = n.id).isSome = true := by
      rw [List.find?_isSome]
      exact ⟨n, hn, by simp⟩
    obtain ⟨m, hm⟩ := Option.isSome_iff_exists.mp hsome
    have hid : m.id = n.id := by simpa using List.find?_some hm
    rw [hm, List.inj_on_of_nodup_map hids (List.mem_of_find?_eq_some hm) hn hid]

/-- Asked for an id, a graph whose nodes have the ids of these declarations, all of them different,
gives the node where the id is declared. -/
theorem node_eq_ok_iff (hids : (specs.map NodeSpec.id).Nodup)
    (hnodes : g.nodes.map Node.id = specs.map NodeSpec.id) {id : String} {n : Node} :
    (g.node id).result = .ok n ↔
      ∃ (k : Nat) (spec : NodeSpec), specs[k]? = some spec ∧ spec.id = id ∧
        g.nodes[k]? = some n := by
  have hdeclared {k : Nat} (hk : g.nodes[k]? = some n) :
      ∃ spec, specs[k]? = some spec ∧ spec.id = n.id := by
    rw [← getElem?_ids, ← hnodes, List.getElem?_map, hk, Option.map_some]
  rw [node, Outcome.ofOption_eq_ok, find?_eq_some_iff (hnodes ▸ hids)]
  constructor
  · intro h
    obtain ⟨k, hk⟩ := List.getElem?_of_mem h.1
    obtain ⟨spec, hspec, hid⟩ := hdeclared hk
    exact ⟨k, spec, hspec, hid.trans h.2, hk⟩
  · intro h
    obtain ⟨k, spec, hspec, rfl, hk⟩ := h
    obtain ⟨spec', hspec', hid⟩ := hdeclared hk
    obtain rfl := Option.some.inj (hspec.symm.trans hspec')
    exact ⟨List.mem_of_getElem? hk, hid.symm⟩

/-- The entries that wiring makes of declarations. -/
def wire (specs : List NodeSpec) (catalog : Catalog) : List Entry :=
  specs.map (entry (specs.map NodeSpec.id) catalog)

section Entries

variable {e : Entry} {l : Link} {k : Nat}

theorem getElem?_wire {spec : NodeSpec} (h : specs[k]? = some spec) :
    (wire specs catalog)[k]? = some (entry (specs.map NodeSpec.id) catalog spec) := by
  rw [wire, List.getElem?_map, h, Option.map_some]

theorem target_of_wire (he : e ∈ wire specs catalog) (hl : l ∈ e.inputs) :
    l.target = (specs.map NodeSpec.id).idxOf? l.id := by
  obtain ⟨spec, _, rfl⟩ := List.mem_map.mp he
  obtain ⟨i, _, rfl⟩ := List.mem_map.mp hl
  rfl

theorem target_eq_some_iff (hids : (specs.map NodeSpec.id).Nodup) (he : e ∈ wire specs catalog)
    (hl : l ∈ e.inputs) :
    l.target = some k ↔ ∃ spec, specs[k]? = some spec ∧ spec.id = l.id := by
  rw [target_of_wire he hl, idxOf?_eq_some_iff hids, getElem?_ids]

theorem schema_eq_some_iff (he : e ∈ wire specs catalog) {t : TableSource}
    (hop : e.operation = .tableSource t) {schema : TableSchema} :
    e.schema = some schema ↔ t.table = some schema.displayName ∧ catalog.IsFirst schema := by
  obtain ⟨spec, _, rfl⟩ := List.mem_map.mp he
  have hschema : (entry (specs.map NodeSpec.id) catalog spec).schema =
      t.table.bind catalog.find? := congrArg (schemaOf catalog) hop
  rw [hschema, Option.bind_eq_some_iff]
  simp only [Catalog.find?_eq_some_iff]
  constructor
  · intro h
    obtain ⟨name, hname, rfl, hfirst⟩ := h
    exact ⟨hname, hfirst⟩
  · intro h
    exact ⟨_, h.1, rfl, h.2⟩

/-- A link of a wired entry leads to a node of its id, however far the nodes are unfolded. -/
theorem id_of_target (hids : (specs.map NodeSpec.id).Nodup) (he : e ∈ wire specs catalog)
    (hl : l ∈ e.inputs) {depth : Nat} {m : Node} (hk : l.target = some k)
    (hm : (unfoldBelow (wire specs catalog) depth)[k]? = some m) : m.id = l.id := by
  obtain ⟨spec, hspec, hid⟩ := (target_eq_some_iff hids he hl).mp hk
  obtain ⟨e', he', hid'⟩ := id_of_unfoldBelow hm
  rw [getElem?_wire hspec, Option.some.injEq] at he'
  rw [hid', ← he', ← hid]
  rfl

end Entries

/-- Declarations with different ids make a graph of them. -/
theorem wired_of_nodup (hids : (specs.map NodeSpec.id).Nodup)
    (hentries : g.entries = wire specs catalog) : Wired specs catalog g := by
  have hsize : g.size = specs.length := by
    rw [size, hentries, wire, List.length_map]
  have hnodes : g.nodes = g.entries.map fun e => e.node (unfoldBelow g.entries g.entries.length) :=
    unfoldTo_eq_map _ _
  have hnodeIds : g.nodes.map Node.id = specs.map NodeSpec.id := by
    rw [nodes_map_id, hentries, wire, List.map_map]
    rfl
  have hschema {n : Node} (hn : n ∈ g.nodes) {t : TableSource}
      (hop : n.operation = .tableSource t) {schema : TableSchema} :
      n.schema = some schema ↔ t.table = some schema.displayName ∧ catalog.IsFirst schema := by
    rw [hnodes] at hn
    obtain ⟨e, he, rfl⟩ := List.mem_map.mp hn
    exact schema_eq_some_iff (hentries ▸ he) hop
  refine ⟨hsize, ?_, ?_, ?_, ?_, ?_, ?_, ?_, ?_, fun id n => node_eq_ok_iff hids hnodeIds, ?_, ?_⟩
  · intro k spec hspec
    refine ⟨_, hentries ▸ getElem?_wire hspec, rfl, rfl, ?_⟩
    rw [entry, List.map_map]
    exact List.map_id _
  · intro e he l hl k
    exact target_eq_some_iff hids (hentries ▸ he) hl
  · intro e he l hl
    rw [target_of_wire (hentries ▸ he) hl, List.idxOf?_eq_none_iff, notMem_ids_iff]
  · intro e he l hl k hk
    obtain ⟨spec, hspec, _⟩ := (target_eq_some_iff hids (hentries ▸ he) hl).mp hk
    rw [hsize]
    exact (List.getElem?_eq_some_iff.mp hspec).1
  · intro e he t hop schema
    exact schema_eq_some_iff (hentries ▸ he) hop
  · intro n hn t hop schema ht hfirst
    have hsome := (hschema hn hop).mpr ⟨ht, hfirst⟩
    have hcolumns : TableSource.columnsOf n.schema = schema.columns := by
      rw [hsome, TableSource.columnsOf]
    refine ⟨hcolumns, hcolumns ▸ Node.projection_eq_exposed hop, fun hc => ⟨?_, ?_⟩⟩
    · rw [hsome]
      exact TableSource.source_of_columns ht hc
    · exact Node.query_of_table hop hsome ht hc
  · intro n hn t hop hnone
    have hno : n.schema = none := by
      rw [Option.eq_none_iff_forall_ne_some]
      intro schema hsome
      obtain ⟨ht, hfirst⟩ := (hschema hn hop).mp hsome
      exact hnone schema ht hfirst
    have hprojection := Node.projection_eq_exposed (d := g.dialect) hop
    rw [hno] at hprojection ⊢
    exact ⟨rfl, hprojection, TableSource.source_ne_ok⟩
  · intro k e he
    refine ⟨_, by rw [hnodes, List.getElem?_map, he, Option.map_some], rfl, rfl, rfl, ?_⟩
    rw [hentries] at he ⊢
    exact inputs_of_entry fun l hl j m hj hm =>
      id_of_target hids (List.mem_of_getElem? he) hl hj hm
  · intro spec hspec
    obtain ⟨k, hk⟩ := List.getElem?_of_mem hspec
    have hid : (g.nodes.map Node.id)[k]? = some spec.id := by
      rw [hnodeIds, getElem?_ids]
      exact ⟨spec, hk, rfl⟩
    rw [List.getElem?_map, Option.map_eq_some_iff] at hid
    obtain ⟨n, hn, hid⟩ := hid
    exact ⟨n, (node_eq_ok_iff hids hnodeIds).mpr ⟨k, spec, hk, rfl, hn⟩, hid⟩
  · intro id
    rw [node, Outcome.ofOption_eq_error, ← notMem_ids_iff, ← hnodeIds]
    simp

theorem build_eq_error_iff {d : Dialect} {e : CompileError} :
    build specs catalog d = .error e ↔
      ∃ id, repeatedId? [] (specs.map NodeSpec.id) = some id ∧ .duplicateNodeId id = e := by
  unfold build
  dsimp only
  cases repeatedId? [] (specs.map NodeSpec.id) <;> simp

/-- Wiring fails just where two declarations share an id, and then reports the id of the first one
whose id was declared before it. Otherwise it makes a graph of these declarations. -/
theorem wiring_exact (specs : List NodeSpec) (catalog : Catalog) (d : Dialect) :
    ((∃ e, build specs catalog d = .error e) ↔ ¬(specs.map NodeSpec.id).Nodup) ∧
      (∀ e, build specs catalog d = .error e → ∃ before spec after,
        specs = before ++ spec :: after ∧ e = .duplicateNodeId spec.id ∧
          spec.id ∈ before.map NodeSpec.id ∧ (before.map NodeSpec.id).Nodup) ∧
      ∀ g notes, build specs catalog d = .ok (g, notes) →
        g.dialect = d ∧ Wired specs catalog g := by
  refine ⟨?_, fun e he => ?_, fun g notes hg => ?_⟩
  · have hrepeats : (∃ id, repeatedId? [] (specs.map NodeSpec.id) = some id) ↔
        ¬(specs.map NodeSpec.id).Nodup := by
      rw [← Option.ne_none_iff_exists', ne_eq, repeatedId?_eq_none]
      simp
    simp only [build_eq_error_iff, ← hrepeats]
    constructor
    · intro h
      obtain ⟨_, id, hid, _⟩ := h
      exact ⟨id, hid⟩
    · intro h
      obtain ⟨id, hid⟩ := h
      exact ⟨_, id, hid, rfl⟩
  · obtain ⟨id, hid, rfl⟩ := build_eq_error_iff.mp he
    obtain ⟨ids, _, hsplit, hnodup, _, hagain⟩ := split_of_repeatedId? hid
    obtain ⟨before, rest, rfl, rfl, hrest⟩ := List.map_eq_append_iff.mp hsplit
    obtain ⟨spec, after, rfl, rfl, _⟩ := List.map_eq_cons_iff.mp hrest
    exact ⟨before, spec, after, rfl, rfl, by simpa using hagain, hnodup⟩
  · obtain ⟨hids, rfl⟩ := exists_build_iff.mp ⟨notes, hg⟩
    exact ⟨rfl, wired_of_nodup hids rfl⟩

end Graph

end DataflowSql

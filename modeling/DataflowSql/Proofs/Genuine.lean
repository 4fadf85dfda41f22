import DataflowSql.Proofs.Configured

/-! Errors are genuine. What an error says about a node is so, and the node is the one asked about
or lies below it. -/
namespace DataflowSql

open Relation Outcome

/-- What an error that names the node says about it. -/
inductive Node.Fault (g : Graph) (n : Node) : CompileError → Prop
  | unknownInput {input : String} (declared : input ∈ n.inputs.map Input.id)
      (unknown : ∀ m ∈ g.nodes, m.id ≠ input) : Fault g n (.unknownInput n.id input)
  | missingInput {index : Nat} (missing : n.inputs.length ≤ index) :
      Fault g n (.missingInput n.id index n.inputs.length)
  | columnIndexOutOfRange {index len : Nat} (outside : len ≤ index) :
      Fault g n (.columnIndexOutOfRange n.id index len)
  | missingSetting (setting : Setting) : Fault g n (.missingSetting n.id setting)
  | unknownTable {t : TableSource} {table : String} (op : n.operation = .tableSource t)
      (asked : t.table = some table) (empty : TableSource.columnsOf n.schema = []) :
      Fault g n (.unknownTable n.id table)
  | invalidLiteral {value : String} {fault : LiteralFault}
      (op : (∃ f, n.operation = .filter f) ∨ ∃ x, n.operation = .extract x) :
      Fault g n (.invalidLiteral n.id value fault)

/-- What an error says when a graph is asked for the node `id`, or for a page of its rows. -/
inductive Graph.Genuine (g : Graph) (s : Strategy) (id : String) (page : Option Page) :
    CompileError → Prop
  | unknownNode (unknown : ∀ n ∈ g.nodes, n.id ≠ id) : Genuine g s id page (.unknownNode id)
  | fault {target n : Node} {e : CompileError} (found : (g.node id).result = .ok target)
      (below : ReflTransGen Node.Reads target n) (fault : n.Fault g e) : Genuine g s id page e
  | pageOutOfRange {q : Page} (numbered : s = .commonTableExpressions) (asked : page = some q)
      (past : q.window? = none) : Genuine g s id page (.pageOutOfRange q.offset q.limit)

namespace Node

variable {g : Graph} {d : Dialect} {n : Node}

section Operations

theorem failsOnly_column (p : Projection) (i : Nat) :
    (p.column n.id i).FailsOnly (n.Fault g) :=
  failsOnly_ofOption fun hnone => .columnIndexOutOfRange (by simpa using hnone)

theorem failsOnly_setting {α : Type} (o : Option α) (setting : Setting) :
    (Outcome.ofOption (.missingSetting n.id setting) o).FailsOnly (n.Fault g) :=
  failsOnly_ofOption fun _ => .missingSetting setting

/-- A table source is not set, or finds no columns. -/
theorem fault_requireColumns {t : TableSource} (hop : n.operation = .tableSource t) :
    (t.requireColumns n.id n.schema).FailsOnly (n.Fault g) := by
  refine (failsOnly_setting _ _).bind fun table htable => ?_
  split
  · rename_i hempty
    rw [ofOption_eq_ok] at htable
    exact failsOnly_fail (.unknownTable hop htable (by simpa using hempty))
  · exact failsOnly_pure ()

theorem fault_predicate {f : Filter} (hop : n.operation = .filter f) (p : Projection) :
    (f.predicate d n.id fun _ => Outcome.ok p).FailsOnly (n.Fault g) := by
  refine Filter.failsOnly_predicate (fun _ => .missingSetting _) (fun _ => .missingSetting _)
    (fun _ _ houtside => .columnIndexOutOfRange houtside) (fun _ _ _ _ => .missingSetting _) ?_
  intro e he
  obtain ⟨value, fault, _, rfl⟩ := he
  exact .invalidLiteral (.inl ⟨f, hop⟩)

theorem fault_outputs (sm : Summarize) (p : Projection) :
    (sm.outputs d n.id p).FailsOnly (n.Fault g) :=
  failsOnly_outputs sm (fun _ houtside => .columnIndexOutOfRange houtside) (.missingSetting _)

theorem fault_slice {x : Extract} (hop : n.operation = .extract x) (p : Projection) :
    (x.slice d n.id fun _ => Outcome.ok p).FailsOnly (n.Fault g) := by
  have hpositive (value : Option Int) (setting : Setting) :
      (Extract.positive n.id value setting).FailsOnly (n.Fault g) := by
    unfold Extract.positive
    split
    · exact failsOnly_fail (.missingSetting setting)
    · split
      · exact failsOnly_ok _
      · exact failsOnly_fail (.invalidLiteral (.inr ⟨x, hop⟩))
  have hneedle (value : Option String) (setting : Setting) :
      (Extract.needle n.id value setting).FailsOnly (n.Fault g) := failsOnly_setting _ _
  refine (failsOnly_setting _ _).bind fun index _ => ?_
  refine (failsOnly_ok p).bind fun q _ => (failsOnly_column q index).bind fun source _ => ?_
  refine FailsOnly.bind ?_ fun start _ => FailsOnly.bind ?_ fun _ _ => failsOnly_pure _
  · unfold Extract.start
    split
    · exact failsOnly_pure _
    · exact (hpositive _ _).bind fun _ _ => failsOnly_pure _
    · exact (hneedle _ _).bind fun _ _ => failsOnly_pure _
    · exact (hneedle _ _).bind fun _ _ => failsOnly_pure _
  · unfold Extract.sliceLength
    dsimp only
    split
    · exact failsOnly_pure _
    · exact (hpositive _ _).bind fun _ _ => failsOnly_pure _
    · exact (hpositive _ _).bind fun _ _ => failsOnly_pure _
    · exact (hneedle _ _).bind fun _ _ => failsOnly_pure _
    · exact (hneedle _ _).bind fun _ _ => failsOnly_pure _

theorem fault_picks (c : ChartProjection) (p : Projection) :
    (c.picks n.id p).FailsOnly (n.Fault g) := by
  unfold ChartProjection.picks
  split
  · exact failsOnly_fail (.missingSetting _)
  · split
    · rename_i i hfind
      exact failsOnly_fail (.columnIndexOutOfRange (by simpa using List.find?_some hfind))
    · exact failsOnly_ok _

end Operations

/-- What is wrong with a node of a graph is what the error says about it. -/
theorem fault_of_defect {e : CompileError} (hends : ∀ id, .endless id ∉ n.inputs)
    (habsent : ∀ id, .absent id ∈ n.inputs → ∀ m ∈ g.nodes, m.id ≠ id) (h : Defect d n e) :
    n.Fault g e := by
  cases h with
  | missingInput _ missing => exact .missingInput missing
  | unknownInput _ absent =>
    exact .unknownInput (List.mem_map.mpr ⟨_, absent, rfl⟩) (habsent _ absent)
  | endlessInput cut => exact absurd cut (hends _)
  | table op error => exact fault_requireColumns op e error
  | selection => exact .missingSetting _
  | filterUnset => exact .missingSetting _
  | filter op input error => exact fault_predicate op _ e error
  | joinUnset => exact .missingSetting _
  | joinColumn _ _ _ _ missing => exact .columnIndexOutOfRange missing
  | summary _ _ error => exact fault_outputs _ _ e error
  | emptySummary => exact .missingSetting _
  | slice op _ error => exact fault_slice op _ e error
  | chart _ _ error => exact fault_picks _ _ e error

end Node

namespace Graph

variable {g : Graph} {specs : List NodeSpec} {catalog : Catalog} {d : Dialect}
  {notes : List BuildNote}

/-- An input that is wired as absent names no node. -/
theorem ne_of_absent_mem_inputs (hb : build specs catalog d = .ok (g, notes)) {n : Node}
    (hn : n ∈ g.nodes) {id : String} (h : .absent id ∈ n.inputs) : ∀ m ∈ g.nodes, m.id ≠ id := by
  obtain ⟨_, rfl⟩ := exists_build_iff.mp ⟨notes, hb⟩
  rw [nodes, unfoldTo_eq_map] at hn
  obtain ⟨e, he, rfl⟩ := List.mem_map.mp hn
  obtain ⟨spec, _, rfl⟩ := List.mem_map.mp he
  simp only [Entry.node, entry, Node.inputs, List.map_map, List.mem_map, Function.comp_apply,
    link] at h
  obtain ⟨i, _, hi⟩ := h
  intro m hm hid
  have hids : m.id ∈ specs.map NodeSpec.id := by
    have hmem := List.mem_map_of_mem (f := Node.id) hm
    rw [nodes_map_id] at hmem
    simpa [entry, Function.comp_def] using hmem
  cases htarget : (specs.map NodeSpec.id).idxOf? i with
  | none =>
    simp only [htarget, Input.absent.injEq] at hi
    rw [List.idxOf?_eq_none_iff] at htarget
    exact htarget (hi ▸ hid ▸ hids)
  | some k =>
    simp only [htarget] at hi
    split at hi <;> cases hi

variable {s : Strategy} {id : String} {page : Option Page} {target : Node} {e : CompileError}

theorem genuine_of_blames (hb : build specs catalog d = .ok (g, notes)) (ha : g.Acyclic)
    (ht : (g.node id).result = .ok target) (h : target.Blames g.dialect e) :
    g.Genuine s id page e := by
  obtain ⟨n, hbelow, hdefect⟩ := h
  have hn := (nodes_complete hb ha).mem_of_below (mem_nodes_of_node ht) hbelow
  exact .fault ht hbelow (Node.fault_of_defect (endless_notMem_inputs hb hn)
    (fun _ => ne_of_absent_mem_inputs hb hn) hdefect)

theorem genuine_of_sortFailure (ht : (g.node id).result = .ok target)
    (h : target.SortFailure g.dialect e) : g.Genuine s id page e := by
  cases h with
  | intro below _ _ _ missing => exact .fault ht below (.columnIndexOutOfRange missing)

theorem genuine_of_orderFailure (ht : (g.node id).result = .ok target)
    (h : target.OrderFailure g.dialect s page e) : g.Genuine s id page e := by
  cases h with
  | sort below => exact genuine_of_sortFailure ht below
  | noColumns => exact .fault ht .refl (.columnIndexOutOfRange (Nat.le_refl 0))
  | page numbered asked past => exact .pageOutOfRange numbered asked past

/-- A question to a node of the graph fails as the node does, or because there is none. -/
theorem failsOnly_node_bind {α : Type} {f : Node → Outcome α}
    (h : ∀ target, (g.node id).result = .ok target → (f target).FailsOnly (g.Genuine s id page)) :
    (g.node id >>= f).FailsOnly (g.Genuine s id page) := by
  refine FailsOnly.bind (failsOnly_ofOption fun hnone => .unknownNode fun n hn => ?_) h
  simpa using List.find?_eq_none.mp hnone n hn

/-- In a graph without cycles every error of a question about the node `id` says what is so. -/
theorem errors_genuine (hb : build specs catalog d = .ok (g, notes)) (ha : g.Acyclic)
    (s : Strategy) (id : String) :
    (g.node id >>= Node.projection g.dialect).FailsOnly (g.Genuine s id none) ∧
      (g.node id >>= Node.sortKey g.dialect).FailsOnly (g.Genuine s id none) ∧
      (g.node id >>= Node.queryText g.dialect s).FailsOnly (g.Genuine s id none) ∧
      (∀ page, ((g.withStrategy s).fetchStatement id page).FailsOnly (g.Genuine s id page)) ∧
      ((g.withStrategy s).countStatement id).FailsOnly (g.Genuine s id none) := by
  have hc := nodes_complete hb ha
  have hblames {page : Option Page} {target : Node} (ht : (g.node id).result = .ok target)
      (e : CompileError) (he : target.Blames g.dialect e) : g.Genuine s id page e :=
    genuine_of_blames hb ha ht he
  refine ⟨?_, ?_, ?_, fun page => ?_, ?_⟩
  · refine failsOnly_node_bind fun target ht => ?_
    exact Node.failsOnly_projection.mono (hblames ht)
  · refine failsOnly_node_bind fun target ht => ?_
    exact Node.failsOnly_sortKey.mono fun e he =>
      he.elim (hblames ht e) (genuine_of_sortFailure ht)
  · refine failsOnly_node_bind fun target ht => ?_
    exact (Node.failsOnly_query.mono (hblames ht)).bind fun _ _ => failsOnly_pure _
  · refine failsOnly_node_bind fun target ht => FailsOnly.bind ?_ fun _ _ => failsOnly_pure _
    have htarget := mem_nodes_of_node ht
    exact (Node.failsOnly_fetch hc htarget (within_of_mem_nodes htarget) page).mono fun e he =>
      he.elim (hblames ht e) (genuine_of_orderFailure ht)
  · refine failsOnly_node_bind fun target ht => FailsOnly.bind ?_ fun _ _ => failsOnly_pure _
    have htarget := mem_nodes_of_node ht
    exact (Node.failsOnly_count hc htarget (within_of_mem_nodes htarget)).mono (hblames ht)

/-- A word for a number, a column that is not there, and a page past the last row. -/
theorem errors_genuine_strayed :
    (strayed.countStatement "late").result = .error (.invalidLiteral "late" "soon" .notNumber) ∧
      strayed.Genuine .commonTableExpressions "late" none
        (.invalidLiteral "late" "soon" .notNumber) ∧
      (strayed.node "late" >>= Node.sortKey .postgreSql).result =
        .error (.columnIndexOutOfRange "strayed" 9 2) ∧
      strayed.Genuine .commonTableExpressions "late" none
        (.columnIndexOutOfRange "strayed" 9 2) ∧
      (strayed.fetchStatement "orders" (some ⟨18446744073709551615, 1⟩)).result =
        .error (.pageOutOfRange 18446744073709551615 1) ∧
      strayed.Genuine .commonTableExpressions "orders" (some ⟨18446744073709551615, 1⟩)
        (.pageOutOfRange 18446744073709551615 1) := by
  obtain ⟨_, hkey, _, _, hcount⟩ :=
    errors_genuine build_strayed acyclic_strayed .commonTableExpressions "late"
  obtain ⟨_, _, _, hfetch, _⟩ :=
    errors_genuine build_strayed acyclic_strayed .commonTableExpressions "orders"
  exact ⟨rfl, hcount _ rfl, rfl, hkey _ rfl, rfl, hfetch _ _ rfl⟩

end Graph

end DataflowSql

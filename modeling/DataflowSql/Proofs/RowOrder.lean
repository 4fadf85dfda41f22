import DataflowSql.Proofs.OutputColumns

/-! The order of rows. However a sort key comes about, set by a sort, handed on, moved behind a
selection or taken to be the standard one, it names some columns, each once, and all of them are
there; only rows without columns have a key that cannot be used. -/
namespace DataflowSql

open Sql

namespace SortKey

/-- A key for rows of so many columns. Rows without columns have the standard key. -/
structure WellFormed (k : SortKey) (length : Nat) : Prop where
  nonempty : k ≠ []
  nodup : (k.map SortColumn.index).Nodup
  inRange : (∀ c ∈ k, c.index < length) ∨ length = 0 ∧ k = standard

variable {k : SortKey} {length : Nat}

theorem wellFormed_standard (length : Nat) : standard.WellFormed length where
  nonempty := by simp [standard]
  nodup := by simp [standard]
  inRange := by
    by_cases hlength : length = 0
    · exact .inr ⟨hlength, rfl⟩
    · refine .inl fun c hc => ?_
      rw [standard, List.mem_singleton] at hc
      subst hc
      exact Nat.pos_of_ne_zero hlength

theorem WellFormed.lt (h : k.WellFormed length) (hlength : 0 < length) :
    ∀ c ∈ k, c.index < length := by
  rcases h.inRange with hlt | ⟨hzero, _⟩
  · exact hlt
  · omega

theorem WellFormed.eq_standard (h : k.WellFormed 0) : k = standard := by
  rcases h.inRange with hlt | ⟨_, hstandard⟩
  · obtain ⟨c, hc⟩ := List.exists_mem_of_ne_nil k h.nonempty
    exact absurd (hlt c hc) (Nat.not_lt_zero _)
  · exact hstandard

theorem WellFormed.mono (h : k.WellFormed length) (hlength : 0 < length) {longer : Nat}
    (hle : length ≤ longer) : k.WellFormed longer where
  nonempty := h.nonempty
  nodup := h.nodup
  inRange := .inl fun c hc => Nat.lt_of_lt_of_le (h.lt hlength c hc) hle

/-- A position that is found tells the column that was looked for. -/
theorem eq_of_idxOf? {picks : List Nat} {a b j : Nat} (ha : picks.idxOf? a = some j)
    (hb : picks.idxOf? b = some j) : a = b := by
  obtain ⟨_, ha, _⟩ := List.idxOf?_eq_some_iff.mp ha
  obtain ⟨_, hb, _⟩ := List.idxOf?_eq_some_iff.mp hb
  exact ha.symm.trans hb

/-- A key behind a selection is one for the selected columns, however often each is selected. -/
theorem wellFormed_remap (hk : (k.map SortColumn.index).Nodup) (picks : List Nat) :
    (k.remap picks).WellFormed picks.length := by
  unfold remap
  dsimp only
  split
  · exact wellFormed_standard picks.length
  · rename_i hmoved
    refine ⟨by simpa using hmoved, ?_, .inl fun c hc => ?_⟩
    · have hindexes : (k.filterMap fun c => (picks.idxOf? c.index).map fun j =>
          SortColumn.mk j c.direction).map SortColumn.index =
          (k.map SortColumn.index).filterMap picks.idxOf? := by
        simp [List.map_filterMap, List.filterMap_map, Function.comp_def]
      rw [hindexes]
      exact hk.filterMap fun a b j ha hb => eq_of_idxOf? ha hb
    · obtain ⟨c', _, hc'⟩ := List.mem_filterMap.mp hc
      obtain ⟨j, hj, rfl⟩ := Option.map_eq_some_iff.mp hc'
      obtain ⟨hlt, _⟩ := List.idxOf?_eq_some_iff.mp hj
      exact hlt

/-- The names in a key are names of columns, each once. -/
theorem WellFormed.names_columns (h : k.WellFormed length) (hlength : 0 < length) :
    k.names.Nodup ∧ k.names ⊆ columnNames length := by
  have hnames : k.names = (k.map SortColumn.index).map columnName := by
    simp [names, Function.comp_def]
  rw [hnames]
  refine ⟨h.nodup.map columnName_injective, List.map_subset _ fun i hi => ?_⟩
  obtain ⟨c, hc, rfl⟩ := List.mem_map.mp hi
  exact List.mem_range.mpr (h.lt hlength c hc)

end SortKey

namespace Sorting

variable {s : Sorting} {id : String} {key k : SortKey}

theorem nodup_extendKey (h : (key.map SortColumn.index).Nodup) (c : SortColumn) :
    ((extendKey key c).map SortColumn.index).Nodup := by
  unfold extendKey
  split
  · exact h
  · rename_i hnew
    rw [List.map_append, List.map_singleton, ← List.concat_eq_append, List.nodup_concat]
    refine ⟨fun hmem => hnew ?_, h⟩
    obtain ⟨k, hk, hindex⟩ := List.mem_map.mp hmem
    exact List.any_eq_true.mpr ⟨k, hk, by simpa using hindex⟩

theorem mem_extendKey {c x : SortColumn} (h : x ∈ extendKey key c) : x ∈ key ∨ x = c := by
  unfold extendKey at h
  split at h
  · exact .inl h
  · simpa using h

theorem extendKey_ne_nil (c : SortColumn) : extendKey key c ≠ [] := by
  unfold extendKey
  split
  · rename_i hany
    rintro rfl
    simp at hany
  · simp

/-- The columns of a key that is put together are columns asked for, each once. -/
theorem foldl_extendKey (cs : List SortColumn) (h : (key.map SortColumn.index).Nodup) :
    ((cs.foldl extendKey key).map SortColumn.index).Nodup ∧
      (∀ x ∈ cs.foldl extendKey key, x ∈ key ∨ x ∈ cs) ∧
      (key ≠ [] ∨ cs ≠ [] → cs.foldl extendKey key ≠ []) := by
  induction cs generalizing key with
  | nil => exact ⟨h, by simp, by simp⟩
  | cons c cs ih =>
    obtain ⟨hnodup, hmem, hne⟩ := ih (nodup_extendKey h c)
    refine ⟨hnodup, fun x hx => ?_, fun _ => hne (.inl (extendKey_ne_nil c))⟩
    rcases hmem x hx with hx | hx
    · rcases mem_extendKey hx with hx | rfl
      · exact .inl hx
      · simp
    · exact .inr (List.mem_cons_of_mem c hx)

theorem index_of_mem_requested {c : SortColumn} (h : c ∈ s.requested) :
    c.index ∈ s.sortColumns := by
  obtain ⟨e, he, rfl⟩ := List.mem_map.mp h
  exact (List.mem_zipIdx he).2.2 ▸ List.getElem_mem _

theorem wellFormed_of_keyOver {length : Nat} (hs : s.sortColumns ≠ [])
    (h : (s.keyOver id length).result = .ok k) : k.WellFormed length := by
  unfold keyOver at h
  split at h
  · simp at h
  · rename_i hnone
    rw [Outcome.ok_eq_ok] at h
    subst h
    have hnil : (([] : SortKey).map SortColumn.index).Nodup := List.nodup_nil
    obtain ⟨hnodup, hmem, hne⟩ := foldl_extendKey s.requested hnil
    have hrequested : s.requested ≠ [] := by simpa [requested] using hs
    refine ⟨hne (.inr hrequested), hnodup, .inl fun c hc => ?_⟩
    have hasked : c ∈ s.requested := by simpa using hmem c hc
    simpa using List.find?_eq_none.mp hnone c.index (index_of_mem_requested hasked)

end Sorting

namespace Node

variable {d : Dialect} {n : Node} {k : SortKey} {p : Projection}

/-- The key of a node is one for its columns. -/
theorem wellFormed_sortKey (hk : (n.sortKey d).result = .ok k)
    (hp : (n.projection d).result = .ok p) : k.WellFormed p.length := by
  induction n using reads_induction generalizing k p with
  | step n ih =>
    rw [sortKey_eq] at hk
    rw [projection_eq] at hp
    cases hop : n.operation with
    | select st =>
      simp only [hop, Outcome.bind_eq_ok, Outcome.pure_eq_ok, inputProjection_eq_ok] at hk hp
      obtain ⟨m, hm, ps, hps, key, hkey, rfl⟩ := hk
      obtain ⟨ps', ⟨m', hm', hps'⟩, rfl⟩ := hp
      obtain rfl := Outcome.result_unique hm hm'
      obtain rfl := Outcome.result_unique hps hps'
      have hnodup := (ih m (reads_of_input hm) hkey hps).nodup
      have hremap := SortKey.wellFormed_remap hnodup ((st.picks ps.length).map (·.index))
      rwa [List.length_map, ← Select.length_projection] at hremap
    | filter f =>
      simp only [hop, Outcome.bind_eq_ok, inputProjection_eq_ok] at hk hp
      obtain ⟨m, hm, hkey⟩ := hk
      obtain ⟨m', hm', hps⟩ := hp
      obtain rfl := Outcome.result_unique hm hm'
      exact ih m (reads_of_input hm) hkey hps
    | sort st =>
      simp only [hop] at hk hp
      unfold Sorting.key at hk
      split at hk
      · rw [Outcome.ok_eq_ok] at hk
        subst hk
        exact SortKey.wellFormed_standard p.length
      · rename_i hcolumns
        rw [Outcome.bind_eq_ok] at hk
        obtain ⟨ps, hps, hkey⟩ := hk
        obtain rfl := Outcome.result_unique hp hps
        exact Sorting.wellFormed_of_keyOver (by simpa using hcolumns) hkey
    | extract e =>
      simp only [hop, Outcome.bind_eq_ok, inputProjection_eq_ok, Extract.projection,
        Projection.column, Outcome.ofOption_eq_ok, Outcome.pure_eq_ok] at hk hp
      obtain ⟨m, hm, hkey⟩ := hk
      obtain ⟨ps, ⟨m', hm', hps⟩, i, _, source, hsource, rfl⟩ := hp
      obtain rfl := Outcome.result_unique hm hm'
      -- the sliced column is there, so the key of the input is not the one of rows without columns
      have hpos : 0 < ps.length := Nat.zero_lt_of_lt (List.getElem?_eq_some_iff.mp hsource).1
      exact (ih m (reads_of_input hm) hkey hps).mono hpos (by simp)
    | chartProjection c =>
      simp only [hop, Outcome.bind_eq_ok, ChartProjection.projection, Outcome.pure_eq_ok] at hk hp
      obtain ⟨m, hm, follows, _, hk⟩ := hk
      obtain ⟨ps, hps, picks, hpicks, rfl⟩ := hp
      cases follows with
      | true =>
        simp only [if_true, Outcome.pure_eq_ok] at hk
        subst hk
        exact SortKey.wellFormed_standard _
      | false =>
        simp only [Bool.false_eq_true, if_false, Outcome.bind_eq_ok, Outcome.pure_eq_ok] at hk
        obtain ⟨key, hkey, ps', hps', picks', hpicks', rfl⟩ := hk
        obtain rfl := Outcome.result_unique hps hps'
        obtain rfl := Outcome.result_unique hpicks hpicks'
        obtain ⟨m', hm', hps⟩ := inputProjection_eq_ok.mp hps
        obtain rfl := Outcome.result_unique hm hm'
        rw [ChartProjection.length_picked hpicks]
        exact SortKey.wellFormed_remap (ih m (reads_of_input hm) hkey hps).nodup picks
    | _ =>
      simp only [hop, Outcome.ok_eq_ok] at hk
      subst hk
      exact SortKey.wellFormed_standard p.length

/-- The check of the key against the columns of the node fails for rows without columns only. -/
theorem checkedSortKey_eq_error_iff (hk : (n.sortKey d).result = .ok k)
    (hp : (n.projection d).result = .ok p) {e : CompileError} :
    (n.checkedSortKey d p.length).result = .error e ↔
      p = [] ∧ e = .columnIndexOutOfRange n.id 0 0 := by
  have hwell := wellFormed_sortKey hk hp
  simp only [checkedSortKey, Outcome.bind_eq_error, hk, reduceCtorEq, false_or, Except.ok.injEq,
    exists_eq_left']
  by_cases hempty : p = []
  · subst hempty
    rw [hwell.eq_standard]
    simpa [SortKey.standard] using eq_comm
  · have hlt := hwell.lt (List.length_pos_iff.mpr hempty)
    have hnone : k.find? (fun c => p.length ≤ c.index) = none := by
      simpa [List.find?_eq_none] using hlt
    simp [hnone, hempty]

theorem sortKey_of_checkedSortKey {length : Nat}
    (h : (n.checkedSortKey d length).result = .ok k) : (n.sortKey d).result = .ok k := by
  rw [checkedSortKey, Outcome.bind_eq_ok] at h
  obtain ⟨k', hk, h⟩ := h
  split at h
  · simp at h
  · rw [Outcome.pure_eq_ok] at h
    exact h ▸ hk

end Node

/-- The key behind `ORDER BY`, in a definition or after all of them. -/
def Definition.order? : Definition → Option SortKey
  | .rows _ _ => none
  | .numbered _ key => some key

def Body.order? : Body → Option SortKey
  | .nested _ _ key _ => some key
  | .listed _ _ key => some key
  | .windowed _ _ _ _ key => some key
  | .count _ _ => none

/-- The keys of a statement. A query of a node has none. -/
def Statement.orders (st : Statement) : List SortKey :=
  st.definitions.filterMap Definition.order? ++ st.body.order?.toList

/-- A text with these keys behind `ORDER BY`, one after the other. -/
inductive Ordered : List SortKey → String → Prop
  | last (w : String) : Ordered [] w
  | order {keys : List SortKey} {w : String} (before : String) (key : SortKey)
      (after : Ordered keys w) : Ordered (key :: keys) (before ++ "ORDER BY " ++ key.text ++ w)

namespace Ordered

variable {d : Dialect} {keys more : List SortKey} {u v : String}

theorem prepend (h : Ordered keys v) (u : String) : Ordered keys (u ++ v) := by
  cases h with
  | last => exact .last _
  | order before key after =>
    simp only [← String.append_assoc]
    exact .order (u ++ before) key after

theorem append (hu : Ordered keys u) (hv : Ordered more v) : Ordered (keys ++ more) (u ++ v) := by
  induction hu with
  | last w => exact hv.prepend w
  | order before key _ ih =>
    rw [String.append_assoc]
    exact .order before key ih

theorem behind (h : Ordered keys u) (v : String) : Ordered keys (u ++ v) := by
  simpa using h.append (.last v)

theorem of_clause {clause : String} (start : String) (h : clause = start ++ "ORDER BY ")
    (key : SortKey) : Ordered [key] (clause ++ key.text) := by
  subst h
  simpa using Ordered.order start key (.last "")

theorem definition (e : Definition) : Ordered e.order?.toList (e.sql d) := by
  cases e with
  | rows n q => exact .last _
  | numbered n key =>
    have hkey : Ordered [key] ("SELECT *, ROW_NUMBER() OVER (ORDER BY " ++ key.text) :=
      of_clause "SELECT *, ROW_NUMBER() OVER (" (by decide) key
    exact (((hkey.behind _).behind _).prepend _).behind _

theorem definitions (es : List Definition) : Ordered (es.filterMap Definition.order?)
    (", ".intercalate (es.map (Definition.sql d))) := by
  induction es with
  | nil => exact .last _
  | cons e es ih =>
    have hkeys : (e :: es).filterMap Definition.order? =
        e.order?.toList ++ es.filterMap Definition.order? := by
      cases h : e.order? <;> simp [h]
    rw [hkeys, List.map_cons]
    cases es with
    | nil => simpa using definition e
    | cons f es =>
      rw [List.map_cons, String.intercalate_cons_cons, String.append_assoc]
      exact (definition e).append (ih.prepend ", ")

theorem body (b : Body) : Ordered b.order?.toList (b.sql d) := by
  have hclause : " ORDER BY " = " " ++ "ORDER BY " := by decide
  unfold Body.sql
  cases b with
  | nested columns q key page =>
    refine behind ?_ _
    rw [String.append_assoc]
    exact (of_clause ") AS results " (by decide) key).prepend _
  | listed columns name key =>
    dsimp only
    rw [String.append_assoc]
    exact (of_clause " " hclause key).prepend _
  | windowed columns name first last key =>
    dsimp only
    rw [String.append_assoc]
    exact (of_clause " " hclause key).prepend _
  | count q name => exact .last _

/-- The keys of a statement stand in its text, in order, each behind an `ORDER BY`. -/
theorem statement (st : Statement) : Ordered st.orders (st.sql d) := by
  rw [Statement.orders, Statement.sql]
  split
  · rename_i hempty
    rw [List.isEmpty_iff.mp hempty]
    exact body st.body
  · exact (((definitions st.definitions).prepend "WITH ").behind " ").append (body st.body)

end Ordered

namespace Node

variable {d : Dialect} {s : Strategy} {target : Node}

/-- The definitions of nodes leave the order of rows open. -/
theorem order?_of_definitions {nodes : List Node} {es : List Definition}
    (h : (definitions d nodes).result = .ok es) : es.filterMap Definition.order? = [] := by
  rw [List.filterMap_eq_nil_iff]
  intro e he
  obtain ⟨n, _, hn⟩ := Outcome.exists_of_mem_mapM h e he
  simp only [Outcome.bind_eq_ok, Outcome.pure_eq_ok] at hn
  obtain ⟨q, _, rfl⟩ := hn
  rfl

/-- A statement for rows is ordered by the checked key of its target, wherever it is ordered. -/
theorem orders_of_fetch {depth : Nat} {page : Option Page} {st : Statement}
    (h : (target.fetch d s depth page).result = .ok st) :
    ∃ p k, (target.projection d).result = .ok p ∧
      (target.checkedSortKey d p.length).result = .ok k ∧ st.orders ≠ [] ∧
      ∀ key ∈ st.orders, key = k := by
  simp only [fetch, Outcome.bind_eq_ok] at h
  obtain ⟨p, hp, k, hk, h⟩ := h
  refine ⟨p, k, hp, hk, ?_⟩
  cases s with
  | inline =>
    simp only [Outcome.bind_eq_ok, Outcome.pure_eq_ok] at h
    obtain ⟨q, _, rfl⟩ := h
    simp [Statement.orders, Body.order?]
  | commonTableExpressions =>
    simp only [Outcome.bind_eq_ok] at h
    obtain ⟨order, _, rows, hrows, h⟩ := h
    have hnone := order?_of_definitions hrows
    cases page with
    | none =>
      rw [Outcome.pure_eq_ok] at h
      subst h
      simp [Statement.orders, Body.order?, hnone]
    | some page =>
      simp only [Outcome.bind_eq_ok, Outcome.pure_eq_ok] at h
      obtain ⟨⟨first, last⟩, _, rfl⟩ := h
      simp [Statement.orders, Body.order?, Definition.order?, hnone]

/-- The rows of a target that is fetched have columns. -/
theorem wellFormed_of_checkedSortKey {p : Projection} {k : SortKey}
    (hp : (target.projection d).result = .ok p)
    (hk : (target.checkedSortKey d p.length).result = .ok k) :
    0 < p.length ∧ k.WellFormed p.length := by
  have hkey := sortKey_of_checkedSortKey hk
  refine ⟨List.length_pos_iff.mpr fun hempty => ?_, wellFormed_sortKey hkey hp⟩
  have herror := (checkedSortKey_eq_error_iff hkey hp).mpr ⟨hempty, rfl⟩
  rw [hk] at herror
  cases herror

end Node

namespace Graph

/-- The key of a node names some columns, each once, and all are there unless the node has none and
the key is the standard one. So the check of a key fails exactly for rows without columns, and
wherever a statement orders rows it names columns of its target, each once: behind every `ORDER BY`
of its text stand these names, each with its direction. -/
theorem rows_ordered_by_columns (g : Graph) :
    (∀ (n : Node) (k : SortKey) (p : Projection), (n.sortKey g.dialect).result = .ok k →
      (n.projection g.dialect).result = .ok p →
      k ≠ [] ∧ (k.map SortColumn.index).Nodup ∧
        ((∀ c ∈ k, c.index < p.length) ∨ p = [] ∧ k = SortKey.standard) ∧
        ((∃ e, (n.checkedSortKey g.dialect p.length).result = .error e) ↔ p = [])) ∧
    ∀ (id : String) (page : Option Page) (sql : String),
      (g.fetchStatement id page).result = .ok sql →
      ∃ target st p, (g.node id).result = .ok target ∧
        (target.fetch g.dialect g.strategy g.size page).result = .ok st ∧
        st.sql g.dialect = sql ∧ (target.projection g.dialect).result = .ok p ∧
        st.Spelled g.dialect sql ∧ Ordered st.orders sql ∧ st.orders ≠ [] ∧
        ∀ k ∈ st.orders, k ≠ [] ∧ k.names.Nodup ∧ k.names ⊆ columnNames p.length ∧
          k.text = ", ".intercalate
            (List.zipWith (fun name word => name ++ " " ++ word) k.names k.words) := by
  constructor
  · intro n k p hk hp
    have hwell := Node.wellFormed_sortKey hk hp
    refine ⟨hwell.nonempty, hwell.nodup, by simpa using hwell.inRange, ?_⟩
    simp only [Node.checkedSortKey_eq_error_iff hk hp, exists_and_left, exists_eq, and_true]
  · intro id page sql h
    obtain ⟨target, st, ht, hst, rfl, hspelled⟩ := statement_of_fetch h
    obtain ⟨p, k, hp, hk, hne, hall⟩ := Node.orders_of_fetch hst
    obtain ⟨hpos, hwell⟩ := Node.wellFormed_of_checkedSortKey hp hk
    refine ⟨target, st, p, ht, hst, rfl, hp, hspelled, .statement st, hne, fun key hkey => ?_⟩
    obtain ⟨hnodup, hcolumns⟩ := hwell.names_columns hpos
    rw [hall key hkey]
    exact ⟨hwell.nonempty, hnodup, hcolumns, k.spelled_text⟩

/-- A sort by two columns, one of them asked for twice; a selection behind it that takes the second
column twice; and one that takes no column that is there. -/
def rankedSpecs : List NodeSpec :=
  [⟨"orders", [], .tableSource ⟨some "orders"⟩⟩,
    ⟨"ranked", ["orders"], .sort ⟨[1, 0, 1], [.descending]⟩⟩,
    ⟨"twice", ["ranked"], .select ⟨some [7, 1, 1], []⟩⟩,
    ⟨"bare", ["ranked"], .select ⟨some [9], []⟩⟩]

def ranked : Graph where
  dialect := .postgreSql
  strategy := .commonTableExpressions
  entries := rankedSpecs.map (entry (rankedSpecs.map NodeSpec.id) diamondCatalog)

/-- The key follows the selected column to its first place, and is not to be had without columns. -/
theorem rows_ordered_by_columns_ranked :
    (∃ target st sql, (ranked.node "twice").result = .ok target ∧
      (target.fetch .postgreSql .commonTableExpressions 4 (some ⟨0, 5⟩)).result = .ok st ∧
      sql = "WITH node_orders AS (SELECT node_orders_table.\"id\" AS Column_0, " ++
        "node_orders_table.\"total\" AS Column_1 FROM \"orders\" AS node_orders_table), " ++
        "node_ranked AS (SELECT * FROM node_orders), " ++
        "node_twice AS (SELECT node_ranked.Column_1 AS Column_0, node_ranked.Column_1 AS " ++
        "Column_1 FROM node_ranked), node_twice_paged AS (SELECT *, ROW_NUMBER() OVER (ORDER " ++
        "BY Column_0 DESC) AS ROW_NUM FROM node_twice) SELECT Column_0, Column_1 FROM " ++
        "node_twice_paged WHERE ROW_NUM BETWEEN 1 AND 5 ORDER BY Column_0 DESC" ∧
      Ordered [[⟨0, .descending⟩], [⟨0, .descending⟩]] sql ∧
      st.orders = [[⟨0, .descending⟩], [⟨0, .descending⟩]] ∧
      ∀ k ∈ st.orders, k.text = "Column_0 DESC" ∧ k.names.Nodup ∧
        k.names ⊆ ["Column_0", "Column_1"]) ∧
    ∃ bare, (ranked.node "bare").result = .ok bare ∧
      (bare.sortKey .postgreSql).result = .ok SortKey.standard ∧
      ∃ e, (bare.checkedSortKey .postgreSql 0).result = .error e := by
  obtain ⟨hkeys, hfetch⟩ := rows_ordered_by_columns ranked
  constructor
  · have hsql : (ranked.fetchStatement "twice" (some ⟨0, 5⟩)).result = .ok _ := rfl
    obtain ⟨target, st, p, ht, hst, _, hp, _, hordered, _, hall⟩ := hfetch _ _ _ hsql
    have htarget : (ranked.node "twice").result = .ok _ := rfl
    obtain rfl := Outcome.result_unique htarget ht
    obtain rfl := Outcome.result_unique hst rfl
    obtain rfl := Outcome.result_unique hp rfl
    refine ⟨_, _, _, rfl, rfl, by decide +kernel, hordered, rfl, fun k hk => ?_⟩
    obtain ⟨_, hnodup, hcolumns, htext⟩ := hall k hk
    have hkey : k ∈ ([[⟨0, .descending⟩], [⟨0, .descending⟩]] : List SortKey) := hk
    obtain rfl : k = [⟨0, .descending⟩] := by simpa using hkey
    exact ⟨htext.trans (by decide +kernel), hnodup, hcolumns⟩
  · have hbare : (ranked.node "bare").result = .ok _ := rfl
    have hempty {n : Node} (hn : (ranked.node "bare").result = .ok n)
        (hk : (n.sortKey .postgreSql).result = .ok SortKey.standard)
        (hp : (n.projection .postgreSql).result = .ok []) :=
      (hkeys n SortKey.standard [] hk hp).2.2.2.mpr rfl
    exact ⟨_, hbare, rfl, hempty hbare rfl rfl⟩

end Graph

end DataflowSql

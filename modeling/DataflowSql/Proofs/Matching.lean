import Mathlib.Data.List.Nodup
import DataflowSql.Proofs.Splicing

/-! Columns matched by name. An append puts out each name once, in the order names are first seen,
and every branch of its query lists the same names: the first column of that name in its input, or
nothing. -/
namespace DataflowSql

open Sql

namespace Projection

theorem position?_eq (p : Projection) (name : String) : p.position? name = p.names.idxOf? name := by
  rw [position?, names, List.idxOf?, List.findIdx?_map]
  refine congrArg (List.findIdx? · p) (funext fun c => ?_)
  simp [BEq.beq]

theorem isSome_position?_iff {p : Projection} {name : String} :
    (p.position? name).isSome ↔ name ∈ p.names := by
  rw [position?_eq, Option.isSome_iff_ne_none, Ne, List.idxOf?_eq_none_iff, not_not]

/-- The first column of this name. -/
def first? (p : Projection) (name : String) : Option Column := p.find? fun c => c.name = name

theorem first?_append (p q : Projection) (name : String) :
    first? (p ++ q) name = (p.first? name).or (q.first? name) := List.find?_append

theorem first?_eq_none_iff {p : Projection} {name : String} :
    p.first? name = none ↔ name ∉ p.names := by
  simp [first?, names, List.find?_eq_none]

theorem name_mem {p : Projection} {c : Column} (h : c ∈ p) : c.name ∈ p.names :=
  List.mem_map_of_mem h

/-- Passing over other names does not change which column of a name comes first. -/
theorem first?_of_filter {p : Projection} (kept : String → Bool) {c : Column}
    (h : first? (p.filter fun x => kept x.name) c.name = some c) : p.first? c.name = some c := by
  have hkept : kept c.name = true := (List.mem_filter.mp (List.mem_of_find?_eq_some h)).2
  rw [first?, List.find?_filter] at h
  rw [first?, ← h]
  refine congrArg (List.find? · p) (funext fun x => ?_)
  by_cases hname : x.name = c.name
  · simp [hname, hkept]
  · simp [hname]

end Projection

namespace Append

/-- The columns put together from those seen so far: each name once, in the order of first sight,
and for each the column that was seen first. -/
structure Collected (seen out : Projection) : Prop where
  nodup : out.names.Nodup
  names : out.names = seen.names.eraseDups
  first : ∀ c ∈ out, seen.first? c.name = some c

theorem collected_nil : Collected [] [] := ⟨List.nodup_nil, rfl, by simp⟩

variable {seen out : Projection}

theorem Collected.mem_names_iff (h : Collected seen out) {name : String} :
    name ∈ out.names ↔ name ∈ seen.names := by
  rw [h.names, List.mem_eraseDups]

theorem Collected.addNew (h : Collected seen out) (c : Column) :
    Collected (seen ++ [c]) (addNew out c) := by
  have hseen : Projection.names (seen ++ [c]) = seen.names ++ [c.name] := List.map_append
  have hold : ∀ x ∈ out, Projection.first? (seen ++ [c]) x.name = some x := by
    intro x hx
    rw [Projection.first?_append, h.first x hx, Option.some_or]
  unfold Append.addNew
  simp only [Projection.isSome_position?_iff]
  by_cases hc : c.name ∈ out.names
  · have hnone : [c.name].removeAll seen.names = [] := by
      simpa [List.removeAll] using h.mem_names_iff.mp hc
    rw [if_pos hc]
    refine ⟨h.nodup, ?_, hold⟩
    rw [hseen, List.eraseDups_append, hnone, List.eraseDups_nil, List.append_nil, h.names]
  · have hfresh : c.name ∉ seen.names := fun hmem => hc (h.mem_names_iff.mpr hmem)
    have hone : [c.name].removeAll seen.names = [c.name] := by
      simpa [List.removeAll] using hfresh
    have hout : Projection.names (out ++ [c]) = out.names ++ [c.name] := List.map_append
    rw [if_neg hc]
    refine ⟨?_, ?_, fun x hx => ?_⟩
    · rw [hout, ← List.concat_eq_append, List.nodup_concat]
      exact ⟨hc, h.nodup⟩
    · rw [hout, hseen, List.eraseDups_append, hone, h.names]
      rfl
    · rcases List.mem_append.mp hx with hx | hx
      · exact hold x hx
      · obtain rfl := List.mem_singleton.mp hx
        rw [Projection.first?_append, Projection.first?_eq_none_iff.mpr hfresh]
        simp [Projection.first?]

theorem Collected.foldl (h : Collected seen out) (cs : Projection) :
    Collected (seen ++ cs) (cs.foldl Append.addNew out) := by
  induction cs generalizing seen out with
  | nil => simpa using h
  | cons c cs ih => simpa using ih (h.addNew c)

variable {a : Append} {first : Projection} {rest : List Projection}

/-- Names of any input, in the order of first sight. -/
theorem collected_all (h : a.includeUniqueColumns = true) :
    Collected (first :: rest).flatten (a.projection first rest) := by
  have hfold := collected_nil.foldl (first ++ rest.flatten)
  simpa [projection, h] using hfold

theorem filter_everywhere (first : Projection) (rest : List Projection) :
    (first.filter fun c => rest.all fun p => (p.position? c.name).isSome) =
      first.filter fun c => decide (∀ p ∈ first :: rest, c.name ∈ p.names) := by
  refine List.filter_congr fun c hc => ?_
  rw [Bool.eq_iff_iff, List.all_eq_true, decide_eq_true_eq, List.forall_mem_cons]
  simp only [Projection.isSome_position?_iff, Projection.name_mem hc, true_and]

/-- Names of the first input that all inputs have. -/
theorem collected_shared (h : a.includeUniqueColumns = false) :
    Collected (first.filter fun c => decide (∀ p ∈ first :: rest, c.name ∈ p.names))
      (a.projection first rest) := by
  have hfold := collected_nil.foldl
    (first.filter fun c => rest.all fun p => (p.position? c.name).isSome)
  rw [List.nil_append] at hfold
  rw [← filter_everywhere]
  simpa [projection, h] using hfold

theorem names_shared (h : a.includeUniqueColumns = false) :
    (a.projection first rest).names =
      (first.names.filter fun name => ∀ p ∈ first :: rest, name ∈ p.names).eraseDups := by
  rw [(collected_shared h).names, Projection.names, Projection.names, List.filter_map]
  rfl

theorem mem_of_mem_shared (h : a.includeUniqueColumns = false) {name : String}
    (hname : name ∈ (a.projection first rest).names) : ∀ p ∈ first :: rest, name ∈ p.names := by
  rw [names_shared h, List.mem_eraseDups, List.mem_filter, decide_eq_true_eq] at hname
  exact hname.2

theorem nodup_projection : (a.projection first rest).names.Nodup := by
  cases h : a.includeUniqueColumns with
  | true => exact (collected_all h).nodup
  | false => exact (collected_shared h).nodup

/-- Each column is the first of its name among those of all inputs. -/
theorem first?_projection {c : Column} (hc : c ∈ a.projection first rest) :
    Projection.first? (first :: rest).flatten c.name = some c := by
  cases h : a.includeUniqueColumns with
  | true => exact (collected_all h).first c hc
  | false =>
    have hfirst := (collected_shared h).first c hc
    rw [List.flatten_cons, Projection.first?_append,
      Projection.first?_of_filter (fun name => ∀ p ∈ first :: rest, name ∈ p.names) hfirst,
      Option.some_or]

/-- What stands for a column of this name where an input has columns of these names: the first one
of that name, or nothing. -/
def matched (names : List String) (name : String) : String :=
  (names.idxOf? name).elim "NULL" columnName

theorem columnName_ne_null (i : Nat) : columnName i ≠ "NULL" := by
  intro h
  have hchars := congrArg String.toList h
  simp [columnName] at hchars

theorem matched_eq_null_iff {names : List String} {name : String} :
    matched names name = "NULL" ↔ name ∉ names := by
  rw [matched, ← List.idxOf?_eq_none_iff]
  cases names.idxOf? name with
  | none => simp
  | some j => simpa using columnName_ne_null j

theorem branchExpr_sql (d : Dialect) (input : Projection) (c : Column) :
    (branchExpr input c).sql d (ColumnRef.sql d) = matched input.names c.name := by
  rw [branchExpr, matched, Projection.position?_eq]
  cases input.names.idxOf? c.name <;> rfl

/-- The texts of a branch, one for each name that is put out. -/
theorem branch_sql (d : Dialect) (out input : Projection) :
    (branch out input).map (fun e => e.sql d (ColumnRef.sql d)) =
      out.names.map (matched input.names) := by
  simp [branch, Projection.names, branchExpr_sql, Function.comp_def]

end Append

namespace Node

variable {d : Dialect} {s : Strategy} {n : Node} {a : Append}

theorem sql_stack (q : Query Node) (qs : List (Query Node)) :
    (stack q qs).sql d Node.name =
      " UNION ALL ".intercalate ((q :: qs).map fun p => p.sql d Node.name) := by
  induction qs generalizing q with
  | nil => simp [stack]
  | cons p qs ih =>
    have hstep : stack q (p :: qs) = stack (.unionAll q p) qs := rfl
    rw [hstep, ih, List.map_cons, Query.sql, String.intercalate_cons_append, List.map_cons,
      List.map_cons, String.intercalate_cons_cons]

/-- The columns of an append, given those of its inputs. -/
theorem projection_of_append (hop : n.operation = .append a) {ms : List Node}
    (hinputs : n.inputs = ms.map .found) {first : Projection} {rest : List Projection}
    (hps : List.Forall₂ (fun m p => (m.projection d).result = .ok p) ms (first :: rest)) :
    (n.projection d).result = .ok (a.projection first rest) := by
  simp only [projection_eq, hop, Outcome.bind_eq_ok]
  exact ⟨ms, allInputs_eq_ok.mpr hinputs, _, Outcome.mapM_eq_ok.mpr hps, rfl⟩

theorem sources_of_branches {ms : List Node} {ps : List Projection}
    (hps : List.Forall₂ (fun m p => (m.projection d).result = .ok p) ms ps) {out : Projection}
    {branches : List (Query Node)}
    (h : List.Forall₂ (fun m b => (do
      let available ← m.projection d
      let source ← m.read d s (.whole none)
      return Query.plain (Append.branch out available) source : Outcome _).result = .ok b)
        ms branches) :
    ∃ sources, List.Forall₂ (fun m src => (m.read d s (.whole none)).result = .ok src) ms sources ∧
      List.zipWith (fun p src => Query.plain (Append.branch out p) src) ps sources = branches := by
  induction hps generalizing branches with
  | nil =>
    cases h
    exact ⟨[], .nil, rfl⟩
  | cons hp _ ih =>
    cases h with
    | cons hb hbs =>
      simp only [Outcome.bind_eq_ok, Outcome.pure_eq_ok] at hb
      obtain ⟨p, hp', src, hsrc, rfl⟩ := hb
      obtain rfl := Outcome.result_unique hp hp'
      obtain ⟨sources, hsources, rfl⟩ := ih hbs
      exact ⟨src :: sources, .cons hsrc hsources, rfl⟩

/-- The query of an append, once it is known what its inputs put out: a branch for each of them. -/
theorem query_of_append (hop : n.operation = .append a) {ms : List Node}
    (hinputs : n.inputs = ms.map .found) {ps : List Projection}
    (hps : List.Forall₂ (fun m p => (m.projection d).result = .ok p) ms ps) {out : Projection}
    (hout : (n.projection d).result = .ok out) {q : Query Node}
    (hq : (n.query d s).result = .ok q) :
    ∃ sources : List (Source Node),
      List.Forall₂ (fun m src => (m.read d s (.whole none)).result = .ok src) ms sources ∧
      q.sql d Node.name = " UNION ALL ".intercalate ((List.zipWith (fun p src =>
        Query.plain (Append.branch out p) src) ps sources).map fun b => b.sql d Node.name) := by
  simp only [query, queryStep, hop, readers, Outcome.bind_eq_ok, Slot.mapM_reach_eq_ok] at hq
  obtain ⟨out', hout', _, ⟨ms', hms', rfl⟩, branches, hbranches, hq⟩ := hq
  obtain rfl := Outcome.result_unique hout hout'
  obtain rfl : ms = ms' := by
    rw [hinputs] at hms'
    exact List.map_injective_iff.mpr (fun _ _ h => Input.found.inj h) hms'
  rw [Outcome.mapM_eq_ok, List.forall₂_map_left_iff] at hbranches
  obtain ⟨sources, hsources, rfl⟩ := sources_of_branches hps hbranches
  refine ⟨sources, hsources, ?_⟩
  split at hq
  · simp at hq
  · rename_i b bs hb
    rw [Outcome.pure_eq_ok] at hq
    rw [← hq, sql_stack, hb]

/-- Columns of an append are matched by name. Each name is put out once, with the type it has where
it is first seen: all names of the inputs, or those of the first input that every input has. The
query has one branch for each input, in order, which lists for each of these names the first column
of that name, and nothing where there is none. -/
theorem append_columns_matched (d : Dialect) {n : Node} {a : Append}
    (hop : n.operation = .append a) {ms : List Node} (hinputs : n.inputs = ms.map .found)
    {first : Projection} {rest : List Projection}
    (hps : List.Forall₂ (fun m p => (m.projection d).result = .ok p) ms (first :: rest)) :
    ∃ out, (n.projection d).result = .ok out ∧ out.names.Nodup ∧
      (∀ c ∈ out, Projection.first? (first :: rest).flatten c.name = some c) ∧
      (a.includeUniqueColumns = true →
        out.names = (Projection.names (first :: rest).flatten).eraseDups) ∧
      (a.includeUniqueColumns = false →
        out.names =
          (first.names.filter fun name => ∀ p ∈ first :: rest, name ∈ p.names).eraseDups ∧
        ∀ p ∈ first :: rest, "NULL" ∉ out.names.map (Append.matched p.names)) ∧
      (∀ p ∈ first :: rest, ∀ name, Append.matched p.names name = "NULL" ↔ name ∉ p.names) ∧
      ∀ s w, (n.queryText d s).result = .ok w →
        ∃ sources : List (Source Node),
          List.Forall₂ (fun m src => (m.read d s (.whole none)).result = .ok src) ms sources ∧
          w = " UNION ALL ".intercalate (List.zipWith (fun p src =>
            Fragment.text ⟨out.names.map (Append.matched p.names), src.sql d Node.name⟩)
              (first :: rest) sources) := by
  have hout := projection_of_append hop hinputs hps
  refine ⟨_, hout, Append.nodup_projection, fun c hc => Append.first?_projection hc,
    fun h => (Append.collected_all h).names, fun h => ⟨Append.names_shared h, fun p hp hnull => ?_⟩,
    fun p _ name => Append.matched_eq_null_iff, fun s w hw => ?_⟩
  · obtain ⟨name, hname, hnull⟩ := List.mem_map.mp hnull
    exact Append.matched_eq_null_iff.mp hnull (Append.mem_of_mem_shared h hname p hp)
  · obtain ⟨q, hq, rfl⟩ := queryText_eq_ok.mp hw
    obtain ⟨sources, hsources, hsql⟩ := query_of_append hop hinputs hps hout hq
    refine ⟨sources, hsources, ?_⟩
    simp only [hsql, List.map_zipWith, sql_plain, Operand.fragment, Append.branch_sql]

def salesColumns : Projection := [⟨"id", "int"⟩, ⟨"name", "text"⟩, ⟨"id", "bigint"⟩]

def refundsColumns : Projection := [⟨"name", "varchar"⟩, ⟨"total", "decimal"⟩, ⟨"id", "int"⟩]

def tableNode (id : String) (columns : List Column) : Node :=
  .mk id (.tableSource ⟨some id⟩) (some ⟨id, none, none, columns⟩) []

/-- Two tables below each other, and the first one again. One name stands twice in it. -/
def stackedNode (unique : Bool) : Node :=
  .mk "stacked" (.append ⟨unique⟩) none [.found (tableNode "sales" salesColumns),
    .found (tableNode "refunds" refundsColumns), .found (tableNode "sales" salesColumns)]

/-- Both settings: names that only one table has are put out, or left out. -/
theorem append_columns_matched_stacked :
    (∃ out, ((stackedNode true).projection .postgreSql).result = .ok out ∧
      out = [⟨"id", "int"⟩, ⟨"name", "text"⟩, ⟨"total", "decimal"⟩] ∧
      out.names = (Projection.names
        [salesColumns, refundsColumns, salesColumns].flatten).eraseDups ∧
      ((stackedNode true).queryText .postgreSql .commonTableExpressions).result =
        .ok ("SELECT Column_0 AS Column_0, Column_1 AS Column_1, NULL AS Column_2 " ++
          "FROM node_sales UNION ALL " ++
          "SELECT Column_2 AS Column_0, Column_0 AS Column_1, Column_1 AS Column_2 " ++
          "FROM node_refunds UNION ALL " ++
          "SELECT Column_0 AS Column_0, Column_1 AS Column_1, NULL AS Column_2 " ++
          "FROM node_sales")) ∧
    ∃ out, ((stackedNode false).projection .postgreSql).result = .ok out ∧
      out.names = ["id", "name"] ∧
      ∀ p ∈ [salesColumns, refundsColumns, salesColumns],
        "NULL" ∉ out.names.map (Append.matched p.names) := by
  have hps : List.Forall₂ (fun m p => (m.projection .postgreSql).result = .ok p)
      [tableNode "sales" salesColumns, tableNode "refunds" refundsColumns,
        tableNode "sales" salesColumns] [salesColumns, refundsColumns, salesColumns] :=
    .cons rfl (.cons rfl (.cons rfl .nil))
  constructor
  · obtain ⟨out, hout, _, _, hnames, _⟩ :=
      append_columns_matched .postgreSql (n := stackedNode true) rfl rfl hps
    refine ⟨out, hout, Outcome.result_unique hout rfl, hnames rfl, ?_⟩
    have htext : ((stackedNode true).queryText .postgreSql .commonTableExpressions).result =
      .ok _ := rfl
    exact htext.trans (congrArg Except.ok (by decide +kernel))
  · obtain ⟨out, hout, _, _, _, hshared, _⟩ :=
      append_columns_matched .postgreSql (n := stackedNode false) rfl rfl hps
    obtain ⟨hnames, hnull⟩ := hshared rfl
    exact ⟨out, hout, hnames.trans (by decide +kernel), hnull⟩

end Node

end DataflowSql

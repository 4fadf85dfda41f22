import DataflowSql.Proofs.Failures
import DataflowSql.Proofs.Strategy

/-! Spare inputs. Most operations read their first input only, but all inputs that a node declares
count as its dependencies. So a statement defines what its queries name and, beyond that, the spare
inputs, and it fails where one of them does. -/
namespace DataflowSql

open Sql Relation

namespace Sql

variable {ρ : Type} {body : ρ → Option (Query ρ)} {name : ρ → String}

theorem parts_of_bind_map {α β γ : Type} {x : Option α} {y : Option β} {f : α → β → γ} {c : γ}
    (h : (x.bind fun a => y.map (f a)) = some c) : (∃ a, x = some a) ∧ ∃ b, y = some b := by
  obtain ⟨a, ha, h⟩ := Option.bind_eq_some_iff.mp h
  obtain ⟨b, hb, _⟩ := Option.map_eq_some_iff.mp h
  exact ⟨⟨a, ha⟩, b, hb⟩

mutual

/-- References are put in place only if all have bodies. -/
theorem Query.exists_body {q p : Query ρ} (h : q.place? body name = some p) {t : ρ}
    (ht : t ∈ q.mentions) : ∃ b, body t = some b := by
  match q with
  | .select star items source condition groups =>
    rw [Query.place?, Option.map_eq_some_iff] at h
    obtain ⟨src, hsrc, _⟩ := h
    rw [Query.mentions] at ht
    exact Source.exists_body hsrc ht
  | .union l r =>
    obtain ⟨⟨pl, hl⟩, pr, hr⟩ := parts_of_bind_map h
    rw [Query.mentions, List.mem_append] at ht
    rcases ht with ht | ht
    · exact Query.exists_body hl ht
    · exact Query.exists_body hr ht
  | .unionAll l r =>
    obtain ⟨⟨pl, hl⟩, pr, hr⟩ := parts_of_bind_map h
    rw [Query.mentions, List.mem_append] at ht
    rcases ht with ht | ht
    · exact Query.exists_body hl ht
    · exact Query.exists_body hr ht

theorem Source.exists_body {src p : Source ρ} (h : src.place? body name = some p) {t : ρ}
    (ht : t ∈ src.mentions) : ∃ b, body t = some b := by
  match src with
  | .table path range => simp [Source.mentions] at ht
  | .named t' range =>
    rw [Source.place?, Option.map_eq_some_iff] at h
    obtain ⟨b, hb, _⟩ := h
    rw [Source.mentions, List.mem_singleton] at ht
    exact ⟨b, ht ▸ hb⟩
  | .nested _ q range =>
    rw [Source.place?, Option.map_eq_some_iff] at h
    obtain ⟨pq, hq, _⟩ := h
    rw [Source.mentions] at ht
    exact Query.exists_body hq ht
  | .join l m r =>
    obtain ⟨⟨pl, hl⟩, pr, hr⟩ := parts_of_bind_map h
    rw [Source.mentions, List.mem_append] at ht
    rcases ht with ht | ht
    · exact Source.exists_body hl ht
    · exact Source.exists_body hr ht

end

end Sql

namespace Node

variable {d : Dialect} {n m : Node} {q : Query Node} {ds : List Node}

/-- The inputs that count as dependencies of the node though its query only reads the first one. -/
def spareInputs (n : Node) : List Input :=
  match arity n.operation, inputMode n.operation with
  | .one, .whole _ => n.inputs.drop 1
  | _, _ => []

theorem spareInputs_of_one (one : arity n.operation = .one)
    (mode : inputMode n.operation = .whole none) : n.spareInputs = n.inputs.drop 1 := by
  rw [spareInputs, one, mode]

section Reads

theorem Layout.exists_branch (layout : Layout) : ∃ b, b ∈ layout.branches := by
  cases layout <;> exact ⟨_, List.mem_cons_self⟩

/-- A query has a branch, and names all that the branch reads. -/
theorem reads_of_query (hq : (n.query d .commonTableExpressions).result = .ok q) :
    ∃ b src, IsBranch d n b ∧ (b.place.source d .commonTableExpressions).result = .ok src ∧
      src.reads ⊆ q.mentions := by
  obtain ⟨layout, hlayout, hq⟩ := query_eq_ok.mp hq
  obtain ⟨b, hb⟩ := layout.exists_branch
  obtain ⟨src, hsrc, hsub⟩ := mentions_of_mem_branches hq hb
  exact ⟨b, src, isBranch_of_layout hlayout hb, hsrc, mentions_of_place hsrc ▸ hsub⟩

/-- An append has one branch for each input. -/
theorem branches_of_append (all : arity n.operation = .all) {layout : Layout}
    (h : (n.layout d).result = .ok layout) :
    ∃ (out : Projection) (ms : List Node), n.inputs = ms.map .found ∧
      (ms.mapM (appendBranch d out)).result = .ok layout.branches := by
  unfold Node.layout at h
  cases hop : n.operation with
  | append a =>
    simp only [hop, Outcome.bind_eq_ok, allInputs_eq_ok] at h
    obtain ⟨out, _, ms, hms, bs, hbs, h⟩ := h
    refine ⟨out, ms, hms, ?_⟩
    cases bs with
    | nil => simp at h
    | cons b bs =>
      rw [Outcome.pure_eq_ok] at h
      subst h
      exact hbs
  | _ => simp [hop, arity] at all

theorem mem_mentions_of_append (all : arity n.operation = .all)
    (hq : (n.query d .commonTableExpressions).result = .ok q) (hm : n.Reads m) :
    m ∈ q.mentions := by
  obtain ⟨layout, hlayout, hq⟩ := query_eq_ok.mp hq
  obtain ⟨out, ms, hms, hbs⟩ := branches_of_append all hlayout
  obtain ⟨b, hb, hmb⟩ := Outcome.exists_mem_of_mapM hbs m (mem_of_reads_of_inputs hms hm)
  simp only [appendBranch, Outcome.bind_eq_ok, Outcome.pure_eq_ok] at hmb
  obtain ⟨available, _, rfl⟩ := hmb
  obtain ⟨src, hsrc, hsub⟩ := mentions_of_mem_branches hq hb
  apply hsub
  rw [mentions_of_place hsrc, reads_of_read_whole hsrc, List.mem_singleton]

/-- Beyond what one branch of its query reads, a node with one or two inputs depends on spare inputs
only. -/
theorem mem_reads_or_spare {b : Branch} {src : Source Node} (some : arity n.operation ≠ .all)
    (hb : IsBranch d n b) (hsrc : (b.place.source d .commonTableExpressions).result = .ok src)
    (hds : (n.dependencies d .commonTableExpressions).result = .ok ds) (hm : m ∈ ds) :
    m ∈ src.reads ∨ .found m ∈ n.spareInputs := by
  have hdeps := isDependencies_of_eq_ok hds
  cases hb with
  | table path none =>
    cases hdeps with
    | none => simp at hm
    | spliced one => simp [none] at one
    | operands two => simp [none] at two
    | inputs some => simp [none] at some
  | input one first heading =>
    cases hdeps with
    | none zero => simp [one] at zero
    | operands two => simp [one] at two
    | spliced _ mode first' read =>
      obtain rfl := Outcome.result_unique first first'
      rw [Place.source, mode] at hsrc
      rw [Outcome.result_unique hsrc read]
      exact .inl hm
    | inputs _ mode inputs =>
      rw [Place.source, mode] at hsrc
      rw [reads_of_read_whole hsrc, spareInputs_of_one one mode, inputs]
      have hfirst := input_eq_ok.mp first
      rw [inputs] at hfirst
      cases ds with
      | nil => simp at hm
      | cons k ks =>
        obtain rfl : k = _ := by simpa using hfirst
        simpa using hm
  | join two columns clause =>
    obtain ⟨hl, hr, hrange, _⟩ := clause
    obtain ⟨ls, rs, hls, hrs, rfl⟩ := place_join_eq_ok.mp hsrc
    cases hdeps with
    | none zero => simp [two] at zero
    | spliced one => simp [two] at one
    | inputs some => simp [two] at some
    | operands _ left right renamed readLeft readRight =>
      obtain rfl := Outcome.result_unique hl left
      obtain rfl := Outcome.result_unique hr right
      obtain rfl := Outcome.result_unique hrange renamed
      rw [Source.reads, Outcome.result_unique hls readLeft, Outcome.result_unique hrs readRight]
      exact .inl hm
  | append out available all reads => exact absurd all some

theorem dependsOn_of_spare (hds : (n.dependencies d .commonTableExpressions).result = .ok ds) :
    ∀ i ∈ n.spareInputs, ∃ m ∈ ds, i = .found m := by
  intro i hi
  cases isDependencies_of_eq_ok hds with
  | none zero => simp [spareInputs, zero] at hi
  | spliced one mode => simp [spareInputs, mode] at hi
  | operands two => simp [spareInputs, two] at hi
  | inputs some mode inputs =>
    rcases some with one | all
    · rw [spareInputs_of_one one mode, inputs] at hi
      obtain ⟨m, hm, rfl⟩ := List.mem_map.mp (List.mem_of_mem_drop hi)
      exact ⟨m, hm, rfl⟩
    · simp [spareInputs, all] at hi

/-- The dependencies of a node are what its query names and its spare inputs. -/
theorem mem_dependencies_iff (hq : (n.query d .commonTableExpressions).result = .ok q)
    (hds : (n.dependencies d .commonTableExpressions).result = .ok ds) :
    m ∈ ds ↔ m ∈ q.mentions ∨ .found m ∈ n.spareInputs := by
  constructor
  · intro hm
    by_cases hall : arity n.operation = .all
    · cases isDependencies_of_eq_ok hds with
      | none zero => simp [hall] at zero
      | spliced one => simp [hall] at one
      | operands two => simp [hall] at two
      | inputs _ _ inputs =>
        exact .inl (mem_mentions_of_append hall hq (reads_of_mem inputs hm))
    · obtain ⟨b, src, hb, hsrc, hsub⟩ := reads_of_query hq
      exact (mem_reads_or_spare hall hb hsrc hds hm).imp_left fun h => hsub h
  · intro h
    rcases h with h | h
    · exact mentions_subset_dependencies hq hds m h
    · obtain ⟨k, hk, hfound⟩ := dependsOn_of_spare hds _ h
      cases hfound
      exact hk

theorem exists_map_found {is : List Input} (h : ∀ i ∈ is, ∃ m, i = .found m) :
    ∃ ms : List Node, is = ms.map .found := by
  induction is with
  | nil => exact ⟨[], rfl⟩
  | cons i is ih =>
    obtain ⟨m, rfl⟩ := h i (by simp)
    obtain ⟨ms, rfl⟩ := ih fun k hk => h k (by simp [hk])
    exact ⟨m :: ms, rfl⟩

theorem inputMode_eq (o : Operation) : inputMode o = .spliced ∨ inputMode o = .whole none := by
  cases o <;> simp [inputMode]

/-- Where a node has a query only a spare input can stop its dependencies. -/
theorem exists_dependencies (hq : (n.query d .commonTableExpressions).result = .ok q)
    (hspare : ∀ i ∈ n.spareInputs, ∃ m, i = .found m) :
    ∃ ds, (n.dependencies d .commonTableExpressions).result = .ok ds := by
  suffices h : ∃ ds, IsDependencies d .commonTableExpressions n ds by
    obtain ⟨ds, hds⟩ := h
    exact ⟨ds, eq_ok_of_isDependencies hds⟩
  obtain ⟨b, src, hb, hsrc, _⟩ := reads_of_query hq
  cases hb with
  | table path none => exact ⟨[], .none none⟩
  | @input m _ one first heading =>
    rcases inputMode_eq n.operation with mode | mode
    · rw [Place.source, mode] at hsrc
      exact ⟨_, .spliced one mode first hsrc⟩
    · have hfound : ∀ i ∈ n.inputs, ∃ k, i = .found k := by
        have hfirst := input_eq_ok.mp first
        rw [spareInputs_of_one one mode] at hspare
        cases hinputs : n.inputs with
        | nil => simp
        | cons i is =>
          rw [hinputs] at hfirst hspare
          obtain rfl : i = .found m := by simpa using hfirst
          intro k hk
          rcases List.mem_cons.mp hk with rfl | hk
          · exact ⟨m, rfl⟩
          · exact hspare k hk
      obtain ⟨ms, hms⟩ := exists_map_found hfound
      exact ⟨ms, .inputs (.inl one) mode hms⟩
  | join two columns clause =>
    obtain ⟨hl, hr, hrange, _⟩ := clause
    obtain ⟨ls, rs, hls, hrs, rfl⟩ := place_join_eq_ok.mp hsrc
    exact ⟨_, .operands two hl hr hrange hls hrs⟩
  | append out available all reads =>
    obtain ⟨layout, hlayout, _⟩ := query_eq_ok.mp hq
    obtain ⟨_, ms, hms, _⟩ := branches_of_append all hlayout
    have mode : inputMode n.operation = .whole none := by
      cases hop : n.operation <;> simp [hop, arity] at all ⊢
      rfl
    exact ⟨ms, .inputs (.inr all) mode hms⟩

end Reads

section Counting

/-- With its spare inputs in order, all that a node with a query in place depends on has a query. -/
theorem queries_of_inline
    (hspare : ∀ m, ReflTransGen (DependsOn d .commonTableExpressions) n m →
      ∀ i ∈ m.spareInputs, ∃ k q, i = .found k ∧ (k.query d .inline).result = .ok q)
    (hn : ∃ p, (n.query d .inline).result = .ok p) :
    ∀ m, ReflTransGen (DependsOn d .commonTableExpressions) n m →
      (∃ q, (m.query d .commonTableExpressions).result = .ok q) ∧
      ∃ ds, (m.dependencies d .commonTableExpressions).result = .ok ds := by
  have hinline : ∀ m, ReflTransGen (DependsOn d .commonTableExpressions) n m →
      ∃ p, (m.query d .inline).result = .ok p := by
    intro m hm
    induction hm with
    | refl => exact hn
    | @tail k m hk hkm ih =>
      obtain ⟨p, hp⟩ := ih
      obtain ⟨q, hq, hplace⟩ := (changed_query k p).mp hp
      obtain ⟨ds, hds, hm⟩ := hkm
      rcases (mem_dependencies_iff hq hds).mp hm with hm | hm
      · obtain ⟨b, hb⟩ := Query.exists_body hplace hm
        exact ⟨b, Outcome.toOption_eq_some.mp hb⟩
      · obtain ⟨m', b, hfound, hb⟩ := hspare k hk _ hm
        cases hfound
        exact ⟨b, hb⟩
  intro m hm
  obtain ⟨p, hp⟩ := hinline m hm
  obtain ⟨q, hq, _⟩ := (changed_query m p).mp hp
  refine ⟨⟨q, hq⟩, exists_dependencies hq fun i hi => ?_⟩
  obtain ⟨k, _, hk, _⟩ := hspare m hm i hi
  exact ⟨k, hk⟩

/-- A statement that counts rows by name needs the queries of all that its target depends on. -/
theorem exists_count_of_queries {nodes : List Node} (hc : Complete nodes) {target : Node}
    (ht : target ∈ nodes) {depth : Nat} (hw : target.Within (depth + 1))
    (h : ∀ m, ReflTransGen (DependsOn d .commonTableExpressions) target m →
      (∃ q, (m.query d .commonTableExpressions).result = .ok q) ∧
      ∃ ds, (m.dependencies d .commonTableExpressions).result = .ok ds) :
    ∃ st, (target.count d .commonTableExpressions depth).result = .ok st := by
  obtain ⟨⟨q, hq⟩, _⟩ := h target .refl
  refine Outcome.exists_ok_of_failsOnly ((Outcome.failsOnly_of_ok hq).bind fun _ _ => ?_)
  refine (failsOnly_dependencyOrder hw fun m hm => ?_).bind fun order horder => ?_
  · obtain ⟨_, ds, hds⟩ := h m hm
    exact Outcome.failsOnly_of_ok hds
  · obtain ⟨ds, hds, hcovers⟩ := dependencyOrder_covers hc ht horder
    refine Outcome.FailsOnly.bind (Outcome.failsOnly_mapM fun m hm => ?_) fun _ _ =>
      Outcome.failsOnly_pure _
    have hreached := (transGen_dependsOn_iff hds).mpr ((hcovers.mem_iff m).mp hm)
    obtain ⟨⟨qm, hqm⟩, _⟩ := h m hreached.to_reflTransGen
    exact (Outcome.failsOnly_of_ok hqm).bind fun _ _ => Outcome.failsOnly_pure _

/-- Rows can be counted by name exactly where they can be counted in place and every spare input
has a query. -/
theorem exists_count_iff {nodes : List Node} (hc : Complete nodes) {target : Node}
    (ht : target ∈ nodes) {depth : Nat} (hw : target.Within (depth + 1)) :
    (∃ st, (target.count d .commonTableExpressions depth).result = .ok st) ↔
      (∃ st, (target.count d .inline depth).result = .ok st) ∧
      ∀ m, ReflTransGen (DependsOn d .commonTableExpressions) target m →
        ∀ i ∈ m.spareInputs, ∃ k q, i = .found k ∧ (k.query d .inline).result = .ok q := by
  constructor
  · intro h
    obtain ⟨st, hst⟩ := h
    refine ⟨exists_count_inline hc ht hst, fun m hm i hi => ?_⟩
    have hqueries := queries_of_count hc ht hst
    obtain ⟨_, ds, hds⟩ := hqueries m hm
    obtain ⟨k, hk, rfl⟩ := dependsOn_of_spare hds i hi
    obtain ⟨q, hq⟩ := exists_inlineQuery fun j hj => hqueries j ((hm.tail ⟨ds, hds, hk⟩).trans hj)
    exact ⟨k, q, rfl, hq⟩
  · intro h
    obtain ⟨⟨st, hst⟩, hspare⟩ := h
    obtain ⟨p, hp, _⟩ := count_inline_eq_ok.mp hst
    exact exists_count_of_queries hc ht hw (queries_of_inline hspare ⟨p, hp⟩)

end Counting

end Node

/-- The nodes whose rows a statement reads by name. -/
def Statement.mentions (st : Statement) : List Node :=
  st.definitions.flatMap Definition.mentions ++ st.body.mentions

namespace Statement

/-- Whatever is defined besides the target is read. -/
def Minimal (target : Node) (st : Statement) : Prop :=
  ∀ m q, .rows m q ∈ st.definitions → m = target ∨ m ∈ st.mentions

/-- The spare inputs of the target, and of all that is defined, are read. -/
def SparesRead (target : Node) (st : Statement) : Prop :=
  ∀ n, (n = target ∨ ∃ q, .rows n q ∈ st.definitions) →
    ∀ m, .found m ∈ n.spareInputs → m ∈ st.mentions

/-- The statement defines the nodes of the order, perhaps the target, and nothing else, and it reads
what their queries name. -/
structure Defines (d : Dialect) (target : Node) (order : List Node) (st : Statement) : Prop where
  rows : ∀ m ∈ order, ∃ q, .rows m q ∈ st.definitions
  only : ∀ m q, .rows m q ∈ st.definitions → m = target ∨ m ∈ order
  reads : ∀ n ∈ order ++ [target], ∃ q,
    (n.query d .commonTableExpressions).result = .ok q ∧ q.mentions ⊆ st.mentions

variable {d : Dialect} {target : Node} {order nodes : List Node} {st : Statement}

theorem mentions_of_rows {n : Node} {q : Query Node} (h : .rows n q ∈ st.definitions) :
    q.mentions ⊆ st.mentions := by
  intro m hm
  exact List.mem_append_left _ (List.mem_flatMap.mpr ⟨.rows n q, h, hm⟩)

theorem Defines.mem_iff (h : st.Defines d target order) (n : Node) :
    n ∈ order ++ [target] ↔ n = target ∨ ∃ q, .rows n q ∈ st.definitions := by
  rw [List.mem_append, List.mem_singleton]
  constructor
  · intro hn
    exact hn.symm.imp_right (h.rows n)
  · intro hn
    rcases hn with rfl | ⟨q, hq⟩
    · exact .inr rfl
    · exact (h.only n q hq).symm

/-- A statement is minimal exactly when it reads its spare inputs. -/
theorem Defines.minimal_iff (h : st.Defines d target order) (hc : Node.Complete nodes)
    (ht : target ∈ nodes)
    (hcovers : Node.Covers d .commonTableExpressions [target] (order ++ [target])) :
    st.Minimal target ↔ st.SparesRead target := by
  have hmem (m : Node) : m ∈ order ++ [target] ↔
      ReflTransGen (Node.DependsOn d .commonTableExpressions) target m := by
    simpa using hcovers.mem_iff m
  constructor
  · intro hminimal n hn m hspare
    rw [← h.mem_iff n] at hn
    obtain ⟨before, after, hsplit⟩ := List.append_of_mem hn
    obtain ⟨ds, hds, _⟩ := hcovers.first before n after hsplit
    obtain ⟨k, hk, hfound⟩ := Node.dependsOn_of_spare hds _ hspare
    cases hfound
    have hbelow := TransGen.tail' ((hmem n).mp hn) ⟨ds, hds, hk⟩
    have hne : m ≠ target := fun heq =>
      Node.id_ne_of_reaches hc ht hbelow (congrArg Node.id heq)
    obtain ⟨q, hq⟩ := ((h.mem_iff m).mp ((hmem m).mpr hbelow.to_reflTransGen)).resolve_left hne
    exact (hminimal m q hq).resolve_left hne
  · intro hspares m q hrows
    have hbelow := (hmem m).mp ((h.mem_iff m).mpr (.inr ⟨q, hrows⟩))
    rcases reflTransGen_iff_eq_or_transGen.mp hbelow with heq | hbelow
    · exact .inl heq
    · obtain ⟨n, hn, ds, hds, hm⟩ := TransGen.tail'_iff.mp hbelow
      have hdefined := (hmem n).mpr hn
      obtain ⟨qn, hqn, hsub⟩ := h.reads n hdefined
      rcases (Node.mem_dependencies_iff hqn hds).mp hm with hm | hm
      · exact .inr (hsub hm)
      · exact .inr (hspares n ((h.mem_iff n).mp hdefined) m hm)

theorem query_of_definitions {ns : List Node} {es : List Definition}
    (h : (Node.definitions d ns).result = .ok es) :
    (∀ n ∈ ns, ∃ q, (n.query d .commonTableExpressions).result = .ok q ∧ .rows n q ∈ es) ∧
      ∀ n q, .rows n q ∈ es → n ∈ ns := by
  constructor
  · intro n hn
    obtain ⟨e, he, hne⟩ := Outcome.exists_mem_of_mapM h n hn
    simp only [Outcome.bind_eq_ok, Outcome.pure_eq_ok] at hne
    obtain ⟨q, hq, rfl⟩ := hne
    exact ⟨q, hq, he⟩
  · intro n q hrows
    obtain ⟨m, hm, hmq⟩ := Outcome.exists_of_mem_mapM h _ hrows
    simp only [Outcome.bind_eq_ok, Outcome.pure_eq_ok] at hmq
    obtain ⟨_, _, heq⟩ := hmq
    cases heq
    exact hm

theorem defines_of_fetch {depth : Nat} {page : Option Page}
    (h : (target.fetch d .commonTableExpressions depth page).result = .ok st) :
    ∃ order, (target.dependencyOrder d .commonTableExpressions depth).result = .ok order ∧
      st.Defines d target order := by
  simp only [Node.fetch, Outcome.bind_eq_ok] at h
  obtain ⟨p, _, key, _, order, horder, rows, hrows, h⟩ := h
  obtain ⟨hqueries, honly⟩ := query_of_definitions hrows
  -- The numbered rows of a page define no further node.
  have hdefinitions : ∀ n q, .rows n q ∈ st.definitions ↔ .rows n q ∈ rows := by
    intro n q
    cases page with
    | none =>
      rw [Outcome.pure_eq_ok] at h
      subst h
      rfl
    | some page =>
      simp only [Outcome.bind_eq_ok, Outcome.pure_eq_ok] at h
      obtain ⟨_, _, rfl⟩ := h
      simp
  refine ⟨order, horder, fun m hm => ?_, fun m q hm => ?_, fun n hn => ?_⟩
  · obtain ⟨q, _, hq⟩ := hqueries m (List.mem_append_left _ hm)
    exact ⟨q, (hdefinitions m q).mpr hq⟩
  · have hmem := honly m q ((hdefinitions m q).mp hm)
    rw [List.mem_append, List.mem_singleton] at hmem
    exact hmem.symm
  · obtain ⟨q, hq, hrow⟩ := hqueries n hn
    exact ⟨q, hq, mentions_of_rows ((hdefinitions n q).mpr hrow)⟩

theorem defines_of_count {depth : Nat}
    (h : (target.count d .commonTableExpressions depth).result = .ok st) :
    ∃ order, (target.dependencyOrder d .commonTableExpressions depth).result = .ok order ∧
      st.Defines d target order := by
  simp only [Node.count, Outcome.bind_eq_ok, Outcome.pure_eq_ok] at h
  obtain ⟨q, hq, order, horder, rows, hrows, rfl⟩ := h
  obtain ⟨hqueries, honly⟩ := query_of_definitions hrows
  refine ⟨order, horder, fun m hm => ?_, fun m q hm => .inr (honly m q hm), fun n hn => ?_⟩
  · obtain ⟨q, _, hrow⟩ := hqueries m hm
    exact ⟨q, hrow⟩
  · rw [List.mem_append, List.mem_singleton] at hn
    rcases hn with hn | rfl
    · obtain ⟨qn, hqn, hrow⟩ := hqueries n hn
      exact ⟨qn, hqn, mentions_of_rows hrow⟩
    · exact ⟨q, hq, List.subset_append_right _ _⟩

end Statement

namespace Graph

/-- In a graph without cycles a statement with common table expressions defines, besides its target,
only what is read by name, except for spare inputs that nothing reads. Counting rows by name works
where counting them in place does, unless a spare input has no query. -/
theorem definitions_minimal_iff {specs : List NodeSpec} {catalog : Catalog} {d : Dialect}
    {g : Graph} {notes : List BuildNote} (hb : build specs catalog d = .ok (g, notes))
    (ha : g.Acyclic) {id : String} {target : Node} (ht : (g.node id).result = .ok target) :
    (∀ page sql,
      ((g.withStrategy .commonTableExpressions).fetchStatement id page).result = .ok sql →
        ∃ st, (target.fetch g.dialect .commonTableExpressions g.size page).result = .ok st ∧
          st.sql g.dialect = sql ∧ st.Spelled g.dialect sql ∧
          (st.Minimal target ↔ st.SparesRead target)) ∧
    (∀ sql, ((g.withStrategy .commonTableExpressions).countStatement id).result = .ok sql →
      ∃ st, (target.count g.dialect .commonTableExpressions g.size).result = .ok st ∧
        st.sql g.dialect = sql ∧ st.Spelled g.dialect sql ∧
        (st.Minimal target ↔ st.SparesRead target)) ∧
    ((∃ sql, ((g.withStrategy .commonTableExpressions).countStatement id).result = .ok sql) ↔
      (∃ sql, ((g.withStrategy .inline).countStatement id).result = .ok sql) ∧
      ∀ m, ReflTransGen (Node.DependsOn g.dialect .commonTableExpressions) target m →
        ∀ i ∈ m.spareInputs, ∃ k q, i = .found k ∧
          (k.query g.dialect .inline).result = .ok q) := by
  have hc := nodes_complete hb ha
  have htarget := mem_nodes_of_node ht
  have hstatement (s : Strategy) :
      (∃ sql, ((g.withStrategy s).countStatement id).result = .ok sql) ↔
        ∃ st, (target.count g.dialect s g.size).result = .ok st := by
    simp only [countStatement, Outcome.bind_eq_ok, Outcome.pure_eq_ok]
    constructor
    · intro h
      obtain ⟨_, target', ht', st, hst, _⟩ := h
      obtain rfl := Outcome.result_unique (x := g.node id) ht ht'
      exact ⟨st, hst⟩
    · intro h
      obtain ⟨st, hst⟩ := h
      exact ⟨_, target, ht, st, hst, rfl⟩
  refine ⟨?_, ?_, ?_⟩
  · intro page sql h
    obtain ⟨target', st, ht', hst, hsql, hspelled⟩ := statement_of_fetch h
    obtain rfl := Outcome.result_unique (x := g.node id) ht ht'
    obtain ⟨order, horder, hdefines⟩ := Statement.defines_of_fetch hst
    exact ⟨st, hst, hsql, hspelled,
      hdefines.minimal_iff hc htarget (Node.covers_target hc htarget horder)⟩
  · intro sql h
    obtain ⟨target', st, ht', hst, hsql, hspelled⟩ := statement_of_count h
    obtain rfl := Outcome.result_unique (x := g.node id) ht ht'
    obtain ⟨order, horder, hdefines⟩ := Statement.defines_of_count hst
    exact ⟨st, hst, hsql, hspelled,
      hdefines.minimal_iff hc htarget (Node.covers_target hc htarget horder)⟩
  · rw [hstatement, hstatement]
    exact Node.exists_count_iff hc htarget (within_of_mem_nodes htarget)

/-- Filters with a second input: the first one again, another table, and one that is not there. -/
def spareSpecs : List NodeSpec :=
  [⟨"orders", [], .tableSource ⟨some "orders"⟩⟩,
    ⟨"extra", [], .tableSource ⟨some "orders"⟩⟩,
    ⟨"twice", ["orders", "orders"], .filter ⟨some 0, some .isNotEmpty, none, false⟩⟩,
    ⟨"kept", ["orders", "extra"], .filter ⟨some 0, some .isNotEmpty, none, false⟩⟩,
    ⟨"lost", ["orders", "gone"], .filter ⟨some 0, some .isNotEmpty, none, false⟩⟩]

def spareGraph : Graph where
  dialect := .postgreSql
  strategy := .commonTableExpressions
  entries := spareSpecs.map (entry (spareSpecs.map NodeSpec.id) diamondCatalog)

theorem build_spareGraph : build spareSpecs diamondCatalog .postgreSql =
    .ok (spareGraph, [.absentInput "lost" "gone", .built 5 .postgreSql]) := rfl

theorem acyclic_spareGraph : spareGraph.Acyclic := acyclic_of_earlier (by decide)

def ordersSource : Node :=
  .mk "orders" (.tableSource ⟨some "orders"⟩)
    (some ⟨"orders", none, none, [⟨"id", "int"⟩, ⟨"total", "decimal"⟩]⟩) []

def twiceNode : Node :=
  .mk "twice" (.filter ⟨some 0, some .isNotEmpty, none, false⟩) none
    [.found ordersSource, .found ordersSource]

/-- A spare input that is read as the first input is no burden. -/
theorem definitions_minimal_iff_twice :
    ∃ st sql, (spareGraph.node "twice").result = .ok twiceNode ∧
      (twiceNode.fetch .postgreSql .commonTableExpressions 5 none).result = .ok st ∧
      sql = "WITH node_orders AS (SELECT node_orders_table.\"id\" AS Column_0, " ++
        "node_orders_table.\"total\" AS Column_1 FROM \"orders\" AS node_orders_table), " ++
        "node_twice AS (SELECT * FROM node_orders WHERE Column_0 IS NOT NULL) SELECT Column_0, " ++
        "Column_1 FROM node_twice ORDER BY Column_0 ASC" ∧
      st.sql .postgreSql = sql ∧ st.Spelled .postgreSql sql ∧
      st.definitions.map Definition.name = ["node_orders", "node_twice"] ∧
      twiceNode.spareInputs = [.found ordersSource] ∧ st.Minimal twiceNode ∧
      ∃ sql, ((spareGraph.withStrategy .inline).countStatement "twice").result = .ok sql := by
  obtain ⟨hfetch, _, hcount⟩ := definitions_minimal_iff build_spareGraph acyclic_spareGraph
    (show (spareGraph.node "twice").result = .ok twiceNode from rfl)
  obtain ⟨q₁, q₂, p, key, hst, hq₁, hq₂⟩ : ∃ q₁ q₂ p key,
      (twiceNode.fetch .postgreSql .commonTableExpressions 5 none).result =
        .ok ⟨[.rows ordersSource q₁, .rows twiceNode q₂], .listed p "node_twice" key⟩ ∧
      q₁.mentions = [] ∧ q₂.mentions = [ordersSource] := ⟨_, _, _, _, rfl, rfl, rfl⟩
  have hspare : twiceNode.spareInputs = [.found ordersSource] := rfl
  have hnone : ordersSource.spareInputs = [] := rfl
  obtain ⟨st, hst', hsql, hspelled, hiff⟩ := hfetch none _ rfl
  obtain rfl := Outcome.result_unique hst hst'
  refine ⟨_, _, rfl, hst, by decide +kernel, hsql, hspelled, rfl, hspare, hiff.mpr ?_,
    (hcount.mp ⟨_, rfl⟩).1⟩
  intro n hn m hm
  have hnode : n = twiceNode ∨ n = ordersSource := by
    simp only [List.mem_cons, Definition.rows.injEq, List.not_mem_nil, or_false] at hn
    rcases hn with hn | ⟨_, ⟨hn, _⟩ | ⟨hn, _⟩⟩
    · exact .inl hn
    · exact .inr hn
    · exact .inl hn
  rcases hnode with rfl | rfl
  · rw [hspare] at hm
    simpa [Statement.mentions, Definition.mentions, Body.mentions, hq₁, hq₂] using hm
  · simp [hnone] at hm

/-- A second input that no query reads is defined all the same, and one that is not there stops the
count by name but not the count in place. -/
theorem definitions_spare :
    (∃ target st, (spareGraph.node "kept").result = .ok target ∧
      (target.count .postgreSql .commonTableExpressions 5).result = .ok st ∧
      st.definitions.map Definition.name = ["node_extra", "node_orders"] ∧
      st.mentions.map Node.id = ["orders"] ∧ ¬ st.Minimal target) ∧
    (∃ sql, ((spareGraph.withStrategy .inline).countStatement "lost").result = .ok sql) ∧
    ((spareGraph.withStrategy .commonTableExpressions).countStatement "lost").result =
      .error (.unknownInput "lost" "gone") := by
  refine ⟨⟨_, _, rfl, rfl, rfl, rfl, fun hminimal => ?_⟩, ⟨_, rfl⟩, rfl⟩
  rcases hminimal _ _ List.mem_cons_self with heq | hmem
  · have hid : "extra" = "kept" := congrArg Node.id heq
    exact absurd hid (by decide)
  · have hid : "extra" ∈ ["orders"] := List.mem_map_of_mem (f := Node.id) hmem
    exact absurd hid (by decide)

end Graph

end DataflowSql

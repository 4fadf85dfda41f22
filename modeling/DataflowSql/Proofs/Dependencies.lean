import DataflowSql.Proofs.Layout

/-! What the query of a node reads, and what the node is taken to depend on. Whatever a query reads
lies below its node, and the reads of a query are dependencies of the node. -/
namespace DataflowSql.Node

open Sql Relation

variable {d : Dialect} {s : Strategy} {n : Node}

/-- The node `m` is one of the dependencies of `n`. -/
def DependsOn (d : Dialect) (s : Strategy) (n m : Node) : Prop :=
  ∃ ds, (n.dependencies d s).result = .ok ds ∧ m ∈ ds

theorem reads_of_input {m : Node} {i : Nat} (h : (n.input i).result = .ok m) : n.Reads m :=
  reads_of_getElem? (input_eq_ok.mp h)

theorem mem_of_reads_of_inputs {m : Node} {ms : List Node} (h : n.inputs = ms.map .found)
    (hr : n.Reads m) : m ∈ ms := by
  rw [Reads, h] at hr
  simpa using hr

theorem reads_of_read_whole {range : Option String} {src : Source Node}
    (h : (n.read d s (.whole range)).result = .ok src) : src.reads = [n] := by
  cases s with
  | commonTableExpressions =>
    rw [read_whole_named, Outcome.ok_eq_ok] at h
    subst h
    rfl
  | inline =>
    obtain ⟨q, _, rfl⟩ := read_whole_nested_eq_ok.mp h
    rfl

/-- What a reading of a node refers to is that node or lies below it. -/
theorem below_of_read {mode : Mode} {src : Source Node}
    (h : (n.read d s mode).result = .ok src) : ∀ k ∈ src.reads, ReflTransGen Reads n k := by
  induction n using reads_induction generalizing mode src with
  | step n ih =>
    cases mode with
    | whole range =>
      rw [reads_of_read_whole h]
      simp [ReflTransGen.refl]
    | spliced =>
      obtain ⟨place, hplace, hsrc⟩ := read_spliced_eq_ok.mp h
      cases isSplice_of_splice hplace with
      | whole =>
        rw [reads_of_read_whole hsrc]
        simp [ReflTransGen.refl]
      | table path =>
        rw [Place.source, Outcome.pure_eq_ok] at hsrc
        subst hsrc
        simp [Source.reads]
      | join clause =>
        obtain ⟨hl, hr, _, _⟩ := clause
        obtain ⟨ls, rs, hls, hrs, rfl⟩ := place_join_eq_ok.mp hsrc
        intro k hk
        rcases List.mem_append.mp hk with hk | hk
        · exact .head (reads_of_input hl) (ih _ (reads_of_input hl) hls k hk)
        · exact .head (reads_of_input hr) (ih _ (reads_of_input hr) hrs k hk)

/-- All that the dependencies of a node can be. -/
inductive IsDependencies (d : Dialect) (s : Strategy) (n : Node) : List Node → Prop
  | none (zero : arity n.operation = .zero) : IsDependencies d s n []
  | spliced {m : Node} {src : Source Node} (one : arity n.operation = .one)
      (mode : inputMode n.operation = .spliced) (first : (n.input 0).result = .ok m)
      (read : (m.read d s .spliced).result = .ok src) : IsDependencies d s n src.reads
  | operands {l r : Node} {range : Option String} {ls rs : Source Node}
      (two : arity n.operation = .two)
      (left : (n.input 0).result = .ok l) (right : (n.input 1).result = .ok r)
      (renamed : (renameRight? n.id l r).result = .ok range)
      (readLeft : (l.read d s .spliced).result = .ok ls)
      (readRight : (r.read d s (rightMode range)).result = .ok rs) :
      IsDependencies d s n (ls.reads ++ rs.reads)
  | inputs {ms : List Node} (some : arity n.operation = .one ∨ arity n.operation = .all)
      (mode : inputMode n.operation = .whole none) (inputs : n.inputs = ms.map .found) :
      IsDependencies d s n ms

theorem isDependencies_of_eq_ok {ds : List Node} (h : (n.dependencies d s).result = .ok ds) :
    IsDependencies d s n ds := by
  unfold dependencies at h
  cases hop : n.operation with
  | tableSource t =>
    simp only [hop, Outcome.ok_eq_ok] at h
    subst h
    exact .none (by rw [hop]; rfl)
  | select st =>
    simp only [hop, Outcome.bind_eq_ok, Outcome.pure_eq_ok, reachAt_readers_eq_ok] at h
    obtain ⟨_, ⟨m, hm, rfl⟩, src, hsrc, rfl⟩ := h
    exact .spliced (by rw [hop]; rfl) (by rw [hop]; rfl) hm hsrc
  | join j =>
    simp only [hop, Outcome.bind_eq_ok, Outcome.pure_eq_ok, reachAt_readers_eq_ok,
      rightSource] at h
    obtain ⟨_, ⟨l, hl, rfl⟩, ls, hls, _, ⟨r, hr, rfl⟩, rs, ⟨range, hrange, hrs⟩, rfl⟩ := h
    have hright : (r.read d s (rightMode range)).result = .ok rs := by
      cases range <;> exact hrs
    exact .operands (by rw [hop]; rfl) hl hr hrange hls hright
  | append a =>
    rw [hop] at h
    exact .inputs (.inr (by rw [hop]; rfl)) (by rw [hop]; rfl) (allInputs_eq_ok.mp h)
  | _ =>
    rw [hop] at h
    exact .inputs (.inl (by rw [hop]; rfl)) (by rw [hop]; rfl) (allInputs_eq_ok.mp h)

theorem eq_ok_of_isDependencies {ds : List Node} (h : IsDependencies d s n ds) :
    (n.dependencies d s).result = .ok ds := by
  unfold dependencies
  cases h with
  | none zero =>
    cases hop : n.operation with
    | tableSource t => rfl
    | _ => simp [hop, arity] at zero
  | spliced one mode first read =>
    cases hop : n.operation with
    | select st =>
      simp only [Outcome.bind_eq_ok, Outcome.pure_eq_ok, reachAt_readers_eq_ok]
      exact ⟨_, ⟨_, first, rfl⟩, _, read, rfl⟩
    | _ => simp [hop, inputMode] at mode
  | @operands l r range ls rs two left right renamed readLeft readRight =>
    cases hop : n.operation with
    | join j =>
      simp only [Outcome.bind_eq_ok, Outcome.pure_eq_ok, reachAt_readers_eq_ok, rightSource]
      refine ⟨_, ⟨l, left, rfl⟩, ls, readLeft, _, ⟨r, right, rfl⟩, rs, ⟨range, renamed, ?_⟩, rfl⟩
      cases range <;> exact readRight
    | _ => simp [hop, arity] at two
  | inputs some mode inputs =>
    have hall := allInputs_eq_ok.mpr inputs
    cases hop : n.operation with
    | tableSource t => simp [hop, arity] at some
    | select st => simp [hop, inputMode] at mode
    | join j => simp [hop, arity] at some
    | _ => exact hall

/-- Dependencies lie strictly below the node. -/
theorem below_of_dependsOn {m : Node} (h : DependsOn d s n m) : TransGen Reads n m := by
  obtain ⟨ds, hds, hm⟩ := h
  cases isDependencies_of_eq_ok hds with
  | none => simp at hm
  | spliced _ _ first read =>
    exact TransGen.head' (reads_of_input first) (below_of_read read m hm)
  | operands _ left right _ readLeft readRight =>
    rcases List.mem_append.mp hm with hm | hm
    · exact TransGen.head' (reads_of_input left) (below_of_read readLeft m hm)
    · exact TransGen.head' (reads_of_input right) (below_of_read readRight m hm)
  | inputs _ _ inputs => exact TransGen.single (reads_of_mem inputs hm)

theorem below_of_transGen_dependsOn {m : Node} (h : TransGen (DependsOn d s) n m) :
    TransGen Reads n m := by
  induction h with
  | single h => exact below_of_dependsOn h
  | tail _ h ih => exact ih.trans (below_of_dependsOn h)

theorem below_of_reaches {m : Node} (h : ReflTransGen (DependsOn d s) n m) :
    ReflTransGen Reads n m := by
  rcases reflTransGen_iff_eq_or_transGen.mp h with rfl | h
  · exact .refl
  · exact (below_of_transGen_dependsOn h).to_reflTransGen

/-- Whatever a `SELECT` of the node's query reads is one of its dependencies. -/
theorem reads_subset_dependencies {b : Branch} {src : Source Node} {ds : List Node}
    (hb : IsBranch d n b) (hsrc : (b.place.source d s).result = .ok src)
    (hds : (n.dependencies d s).result = .ok ds) : ∀ k ∈ src.reads, k ∈ ds := by
  have hdeps := isDependencies_of_eq_ok hds
  cases hb with
  | table path none =>
    rw [Place.source, Outcome.pure_eq_ok] at hsrc
    subst hsrc
    simp [Source.reads]
  | input one first heading =>
    cases hdeps with
    | none zero => simp [one] at zero
    | operands two => simp [one] at two
    | spliced _ mode first' read =>
      obtain rfl := Outcome.result_unique first first'
      rw [Place.source, mode] at hsrc
      rw [Outcome.result_unique hsrc read]
      exact fun k hk => hk
    | inputs _ mode inputs =>
      rw [Place.source, mode] at hsrc
      rw [reads_of_read_whole hsrc]
      intro k hk
      rw [List.mem_singleton] at hk
      subst hk
      exact mem_of_reads_of_inputs inputs (reads_of_input first)
  | join two columns clause =>
    obtain ⟨hl, hr, hrange, _⟩ := clause
    obtain ⟨ls, rs, hls, hrs, rfl⟩ := place_join_eq_ok.mp hsrc
    cases hdeps with
    | none zero => simp [two] at zero
    | spliced one => simp [two] at one
    | inputs some => simp [two] at some
    | operands _ left right renamed readLeft readRight =>
      obtain rfl := Outcome.result_unique hl left
      obtain rfl := Outcome.result_unique hr right
      obtain rfl := Outcome.result_unique hrange renamed
      rw [Source.reads, Outcome.result_unique hls readLeft, Outcome.result_unique hrs readRight]
      exact fun k hk => hk
  | append out available all reads =>
    rw [Place.source] at hsrc
    rw [reads_of_read_whole hsrc]
    intro k hk
    rw [List.mem_singleton] at hk
    subst hk
    cases hdeps with
    | none zero => simp [all] at zero
    | spliced one => simp [all] at one
    | operands two => simp [all] at two
    | inputs _ _ inputs => exact mem_of_reads_of_inputs inputs reads

end DataflowSql.Node

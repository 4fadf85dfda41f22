import DataflowSql.Proofs.Dependencies
import DataflowSql.Proofs.Expression
import DataflowSql.Statement

/-! Queries and statements are phrases: every text a user supplies stays inside the quoted token it
is written in. -/
namespace DataflowSql

open Sql

variable {d : Dialect} {s : Strategy}

namespace Node

section Columns

variable {l r : Node} {id : String}

theorem isName_of_renameRight? {range : String}
    (h : (renameRight? id l r).result = .ok (some range)) : IsName range := by
  simp only [renameRight?, Outcome.bind_eq_ok, Outcome.pure_eq_ok, Join.rename?] at h
  obtain ⟨_, _, _, _, h⟩ := h
  split_ifs at h
  cases h
  exact isName_rightRange id

theorem isPhrase_of_rightColumn {own : Nat → Outcome (Expr ColumnRef)} {index : Nat}
    {e : Expr ColumnRef} (hown : ∀ i x, (own i).result = .ok x → x.IsPhrase d)
    (h : (rightColumn id l r own index).result = .ok e) : e.IsPhrase d := by
  simp only [rightColumn, Outcome.bind_eq_ok] at h
  obtain ⟨range, hrange, h⟩ := h
  cases range with
  | some range =>
    obtain rfl := Outcome.pure_eq_ok.mp h
    exact Expr.isPhrase_ranged (isName_of_renameRight? hrange) index
  | none => exact hown index e h

theorem isPhrase_of_joinColumn {first own : Nat → Outcome (Expr ColumnRef)} {index : Nat}
    {e : Expr ColumnRef} (hfirst : ∀ i x, (first i).result = .ok x → x.IsPhrase d)
    (hown : ∀ i x, (own i).result = .ok x → x.IsPhrase d)
    (h : (joinColumn d id l r first own index).result = .ok e) : e.IsPhrase d := by
  simp only [joinColumn, Outcome.bind_eq_ok] at h
  obtain ⟨ls, _, h⟩ := h
  split at h
  · exact hfirst index e h
  · simp only [Outcome.bind_eq_ok] at h
    obtain ⟨rs, _, h⟩ := h
    split at h
    · exact isPhrase_of_rightColumn hown h
    · exact absurd h Outcome.fail_ne_ok

/-- Columns are fields of a table or output columns of a range, and ranges are names. -/
theorem isPhrase_of_column {n : Node} {index : Nat} {e : Expr ColumnRef}
    (h : (n.column d index).result = .ok e) : e.IsPhrase d := by
  induction n using reads_induction generalizing index e with
  | step n ih =>
    have hwhole (h : (Outcome.ok (.column (.ranged n.name index)) :
        Outcome (Expr ColumnRef)).result = .ok e) : e.IsPhrase d := by
      obtain rfl := Outcome.ok_eq_ok.mp h
      exact Expr.isPhrase_ranged (isName_nodeName n.id) index
    rw [column, fold_eq] at h
    unfold columnStep at h
    cases hop : n.operation with
    | tableSource t =>
      simp only [hop, TableSource.rawColumn, Outcome.bind_eq_ok, Outcome.pure_eq_ok] at h
      obtain ⟨c, _, rfl⟩ := h
      exact TableSource.isPhrase_columnExpr n.id c
    | join j =>
      simp only [hop] at h
      split at h
      · simp only [Outcome.bind_eq_ok, Slot.reachAt_eq_ok] at h
        obtain ⟨_, ⟨l, hl, rfl⟩, _, ⟨r, hr, rfl⟩, h⟩ := h
        refine isPhrase_of_joinColumn ?_ ?_ h
        · intro i x hx
          exact ih l (reads_of_getElem? hl) hx
        · intro i x hx
          exact ih r (reads_of_getElem? hr) hx
      · exact hwhole h
    | _ =>
      simp only [hop] at h
      exact hwhole h

end Columns

/-- A heading all of whose expressions are phrases. -/
structure Heading.Readable (d : Dialect) (h : Heading) : Prop where
  items : ∀ i ∈ h.items, i.expr.IsPhrase d
  condition : ∀ p ∈ h.condition, p.IsPhrase d
  groups : ∀ e ∈ h.groups, e.IsPhrase d

theorem expr_of_mem_number {exprs : List (Expr ColumnRef)} {i : Item}
    (h : i ∈ Item.number exprs) : i.expr ∈ exprs := by
  obtain ⟨e, he, rfl⟩ := List.mem_map.mp h
  exact List.fst_mem_of_mem_zipIdx he

theorem readable_plain {exprs : List (Expr ColumnRef)} (h : ∀ e ∈ exprs, e.IsPhrase d) :
    (Heading.plain exprs).Readable d where
  items := fun _ hi => h _ (expr_of_mem_number hi)
  condition := by simp [Heading.plain]
  groups := by simp [Heading.plain]

theorem readable_of_headingOver {n m : Node} {h : Heading}
    (hh : (headingOver d n m).result = .ok h) : h.Readable d := by
  unfold headingOver at hh
  split at hh
  · simp only [Outcome.bind_eq_ok, Outcome.guarded_eq_ok, Outcome.pure_eq_ok] at hh
    obtain ⟨p, _, _, exprs, hexprs, rfl⟩ := hh
    apply readable_plain
    intro e he
    obtain ⟨pick, _, hpick⟩ := Outcome.exists_of_mem_mapM hexprs e he
    exact isPhrase_of_column hpick
  · simp only [Outcome.bind_eq_ok, Outcome.pure_eq_ok] at hh
    obtain ⟨condition, hcondition, rfl⟩ := hh
    refine ⟨by simp, ?_, by simp⟩
    intro p hp
    cases hp
    exact Filter.isPhrase_of_predicate hcondition
  · simp only [Outcome.bind_eq_ok, Outcome.guarded_eq_ok, Outcome.pure_eq_ok] at hh
    obtain ⟨p, _, outputs, houtputs, _, rfl⟩ := hh
    have hall := Summarize.isPhrase_of_outputs houtputs
    refine ⟨?_, by simp, ?_⟩
    · intro i hi
      obtain ⟨o, ho, hexpr⟩ := List.mem_map.mp (expr_of_mem_number hi)
      exact hexpr ▸ hall o ho
    · intro e he
      obtain ⟨o, ho, rfl⟩ := List.mem_map.mp he
      exact hall o (List.mem_append_left _ ho)
  · simp only [Outcome.bind_eq_ok, Outcome.pure_eq_ok] at hh
    obtain ⟨p, _, slice, hslice, rfl⟩ := hh
    refine ⟨?_, by simp, by simp⟩
    intro i hi
    rw [List.mem_singleton] at hi
    subst hi
    exact Extract.isPhrase_of_slice hslice
  · simp only [Outcome.bind_eq_ok, Outcome.pure_eq_ok] at hh
    obtain ⟨p, _, picks, _, rfl⟩ := hh
    apply readable_plain
    intro e he
    obtain ⟨i, _, rfl⟩ := List.mem_map.mp he
    exact Expr.isPhrase_output i
  · obtain rfl := Outcome.pure_eq_ok.mp hh
    exact ⟨by simp, by simp, by simp⟩

theorem readable_of_isBranch {n : Node} {b : Branch} (hb : IsBranch d n b) :
    b.heading.Readable d := by
  cases hb with
  | table path none =>
    apply readable_plain
    intro e he
    obtain ⟨c, _, rfl⟩ := List.mem_map.mp he
    exact TableSource.isPhrase_columnExpr n.id c
  | input one first heading => exact readable_of_headingOver heading
  | join two columns clause =>
    apply readable_plain
    intro e he
    obtain ⟨i, _, hi⟩ := Outcome.exists_of_mem_mapM columns e he
    exact isPhrase_of_joinColumn (fun _ _ => isPhrase_of_column) (fun _ _ => isPhrase_of_column) hi
  | append out available all reads =>
    apply readable_plain
    intro e he
    obtain ⟨c, _, rfl⟩ := List.mem_map.mp he
    exact Append.isPhrase_branchExpr available c

section Queries

variable {name : Node → String} {h : Heading} {src : Source Node}

theorem phrase_selectList (hh : h.Readable d) : Phrase d (selectList d h.star h.items) := by
  apply phrase_intercalate
  · cases d <;> decide
  · intro w hw
    rcases List.mem_append.mp hw with hw | hw
    · have hstar : w = "*" := by
        split at hw
        · simpa using hw
        · simp at hw
      subst hstar
      exact phrase_of_fits (by cases d <;> decide)
    · obtain ⟨i, hi, rfl⟩ := List.mem_map.mp hw
      exact Phrase.link (hh.items i hi) (by cases d <;> decide)
        (phrase_name (isName_columnName i.index))

theorem trailer_conditionText (hh : h.Readable d) : Trailer d (conditionText d h.condition) := by
  cases hc : h.condition with
  | none => exact trailer_empty
  | some p => exact trailer_of_links (by cases d <;> decide) (hh.condition p hc)

theorem trailer_groupsText (hh : h.Readable d) : Trailer d (groupsText d h.groups) := by
  unfold groupsText
  split
  · exact trailer_empty
  · apply trailer_of_links (by cases d <;> decide)
    apply phrase_intercalate (by cases d <;> decide)
    intro w hw
    obtain ⟨e, he, rfl⟩ := List.mem_map.mp hw
    exact hh.groups e he

theorem phrase_selectFrom (hh : h.Readable d) (hsrc : Phrase d (src.sql d name)) :
    Phrase d ((h.selectFrom src).sql d name) := by
  have hselect : Phrase d ("SELECT " ++ selectList d h.star h.items) :=
    (phrase_selectList hh).headed (by cases d <;> decide)
  rw [Heading.selectFrom, Query.sql]
  exact ((hselect.link (by cases d <;> decide) hsrc).trail (trailer_conditionText hh)).trail
    (trailer_groupsText hh)

theorem phrase_stack {q : Query Node} {qs : List (Query Node)}
    (h : ∀ p ∈ q :: qs, Phrase d (p.sql d name)) : Phrase d ((stack q qs).sql d name) := by
  induction qs generalizing q with
  | nil => exact h q (by simp)
  | cons p qs ih =>
    apply ih (q := .unionAll q p)
    intro r hr
    rcases List.mem_cons.mp hr with rfl | hr
    · rw [Query.sql]
      exact (h q (by simp)).link (by cases d <;> decide) (h p (by simp))
    · exact h r (by simp [hr])

theorem phrase_meeting {n l r : Node} {j : Join} {shape : JoinShape} {m : Meeting} {u v : String}
    (hm : (meeting d n j l r shape).result = .ok m) (hu : Phrase d u) (hv : Phrase d v) :
    Phrase d (m.sql d u v) := by
  cases shape with
  | cross =>
    obtain rfl := Outcome.pure_eq_ok.mp hm
    exact hu.link (by cases d <;> decide) hv
  | keyed kind =>
    simp only [meeting, Outcome.bind_eq_ok, Outcome.pure_eq_ok] at hm
    obtain ⟨_, _, _, _, _, _, _, _, x, hx, y, hy, rfl⟩ := hm
    have hleft := isPhrase_of_column hx
    have hright := isPhrase_of_rightColumn (fun _ _ => isPhrase_of_column) hy
    have hjoined : Phrase d (operatorText u kind.text v) :=
      phrase_operatorText hu (by cases kind <;> cases d <;> decide) hv
    exact (hjoined.link (by cases d <;> decide) hleft).link (by cases d <;> decide) hright

/-- A join on the right of another stands in parentheses. -/
theorem phrase_operand (hsrc : Phrase d (src.sql d name)) :
    Phrase d (if src.isJoin then "(" ++ src.sql d name ++ ")" else src.sql d name) := by
  split
  · exact hsrc.enclose (a := 1) (by cases d <;> decide) (by cases d <;> decide)
  · exact hsrc

end Queries

/-- A mode that gives a node no range but a name. -/
def Mode.Named (mode : Mode) : Prop := ∀ range, mode = .whole (some range) → IsName range

theorem named_rightMode {l r : Node} {id : String} {range : Option String}
    (h : (renameRight? id l r).result = .ok range) : (rightMode range).Named := by
  intro name hname
  cases range with
  | none => cases hname
  | some range =>
    cases hname
    exact isName_of_renameRight? h

theorem named_inputMode (op : Operation) : (inputMode op).Named := by
  intro range hrange
  unfold inputMode at hrange
  split at hrange
  all_goals cases hrange

/-- The node can be read in every way that a consumer may ask for. -/
def Readable (d : Dialect) (s : Strategy) (n : Node) : Prop :=
  ∀ mode src, mode.Named → (n.read d s mode).result = .ok src → Phrase d (src.sql d Node.name)

variable {n : Node}

theorem phrase_of_isJoinPlace {place : Place} {src : Source Node}
    (hreads : ∀ m, n.Reads m → m.Readable d s) (hplace : IsJoinPlace d n place)
    (hsrc : (place.source d s).result = .ok src) : Phrase d (src.sql d Node.name) := by
  obtain ⟨hl, hr, hrange, hm⟩ := hplace
  obtain ⟨ls, rs, hls, hrs, rfl⟩ := place_join_eq_ok.mp hsrc
  have hleft := hreads _ (reads_of_input hl) _ ls (by intro range h; cases h) hls
  have hright := hreads _ (reads_of_input hr) _ rs (named_rightMode hrange) hrs
  rw [Source.sql]
  exact phrase_meeting hm hleft (phrase_operand hright)

theorem phrase_table (path : List String) (id : String) :
    Phrase d ((Source.table path (tableRange id) : Source Node).sql d Node.name) := by
  rw [Source.sql]
  exact (phrase_quotePath path).link (by cases d <;> decide) (phrase_name (isName_tableRange id))

theorem phrase_of_branch {b : Branch} {q : Query Node}
    (hreads : ∀ m, n.Reads m → m.Readable d s) (hb : IsBranch d n b)
    (hq : (b.query d s).result = .ok q) : Phrase d (q.sql d Node.name) := by
  obtain ⟨src, hsrc, rfl⟩ := branch_query_eq_ok.mp hq
  apply phrase_selectFrom (readable_of_isBranch hb)
  cases hb with
  | table path none =>
    obtain rfl := Outcome.pure_eq_ok.mp hsrc
    exact phrase_table path n.id
  | input one first heading =>
    exact hreads _ (reads_of_input first) _ src (named_inputMode n.operation) hsrc
  | join two columns clause => exact phrase_of_isJoinPlace hreads clause hsrc
  | append out available all reads =>
    exact hreads _ reads _ src (by intro range h; cases h) hsrc

theorem phrase_of_query_of_reads {q : Query Node} (hreads : ∀ m, n.Reads m → m.Readable d s)
    (hq : (n.query d s).result = .ok q) : Phrase d (q.sql d Node.name) := by
  obtain ⟨layout, hlayout, hq⟩ := query_eq_ok.mp hq
  have hbranch {b : Branch} {p : Query Node} (hb : b ∈ layout.branches)
      (hp : (b.query d s).result = .ok p) : Phrase d (p.sql d Node.name) :=
    phrase_of_branch hreads (isBranch_of_layout hlayout hb) hp
  cases layout with
  | single b => exact hbranch (by simp [Layout.branches]) hq
  | union l r =>
    simp only [Layout.query, Outcome.bind_eq_ok, Outcome.pure_eq_ok] at hq
    obtain ⟨ql, hl, qr, hr, rfl⟩ := hq
    rw [Query.sql]
    exact (hbranch (by simp [Layout.branches]) hl).link (by cases d <;> decide)
      (hbranch (by simp [Layout.branches]) hr)
  | stack b bs =>
    obtain ⟨p, ps, hps, rfl⟩ := stack_query_eq_ok.mp hq
    apply phrase_stack
    intro p' hp'
    obtain ⟨c, hc, hcp⟩ := Outcome.exists_of_mem_mapM hps p' hp'
    exact hbranch hc hcp

theorem phrase_of_read_whole {range : Option String} {src : Source Node}
    (hreads : ∀ m, n.Reads m → m.Readable d s) (hrange : (Mode.whole range).Named)
    (h : (n.read d s (.whole range)).result = .ok src) : Phrase d (src.sql d Node.name) := by
  have hname : IsName n.name := isName_nodeName n.id
  cases s with
  | commonTableExpressions =>
    rw [read_whole_named, Outcome.ok_eq_ok] at h
    subst h
    cases range with
    | none =>
      rw [Source.sql]
      exact phrase_name hname
    | some range =>
      rw [Source.sql]
      exact (phrase_name hname).link (by cases d <;> decide) (phrase_name (hrange range rfl))
  | inline =>
    obtain ⟨q, hq, rfl⟩ := read_whole_nested_eq_ok.mp h
    have hrange' : IsName (range.getD n.name) := by
      cases range with
      | none => exact hname
      | some range => exact hrange range rfl
    rw [Source.sql]
    exact Phrase.bracket (a := 1) (by cases d <;> decide) (phrase_of_query_of_reads hreads hq)
      (by cases d <;> decide) (phrase_name hrange')

theorem readable (n : Node) : n.Readable d s := by
  induction n using reads_induction with
  | step n ih =>
    intro mode src hmode h
    cases mode with
    | whole range => exact phrase_of_read_whole ih hmode h
    | spliced =>
      obtain ⟨place, hplace, hsrc⟩ := read_spliced_eq_ok.mp h
      cases isSplice_of_splice hplace with
      | whole => exact phrase_of_read_whole ih (by intro range h; cases h) hsrc
      | table path =>
        obtain rfl := Outcome.pure_eq_ok.mp hsrc
        exact phrase_table path n.id
      | join clause => exact phrase_of_isJoinPlace ih clause hsrc

theorem phrase_of_query {q : Query Node} (h : (n.query d s).result = .ok q) :
    Phrase d (q.sql d Node.name) :=
  phrase_of_query_of_reads (fun m _ => readable m) h

end Node

section Statements

theorem phrase_sortKey (key : SortKey) : Phrase d key.text := by
  apply phrase_intercalate (by cases d <;> decide)
  intro w hw
  obtain ⟨c, _, rfl⟩ := List.mem_map.mp hw
  apply Phrase.link (phrase_name (isName_columnName c.index)) (by cases d <;> decide)
  exact phrase_of_fits (by cases c.direction <;> cases d <;> decide)

theorem phrase_selectColumns (columns : Nat) : Phrase d ("SELECT " ++ columnList columns) := by
  apply Phrase.headed ?_ (by cases d <;> decide)
  apply phrase_intercalate (by cases d <;> decide)
  intro w hw
  obtain ⟨i, _, rfl⟩ := List.mem_map.mp hw
  exact phrase_name (isName_columnName i)

theorem phrase_word (a : UInt64) : Phrase d (toString a) := phrase_name (isName_nat a.toNat)

theorem phrase_page (p : Page) : Phrase d (p.clause d) := by
  have hoffset := phrase_word (d := d) p.offset
  have hlimit := phrase_word (d := d) p.limit
  cases d with
  | mySql => exact (hoffset.headed (by decide)).link (by decide) hlimit
  | postgreSql => exact (hlimit.headed (by decide)).link (by decide) hoffset
  | sqlServer =>
    exact ((hoffset.headed (by decide)).link (by decide) hlimit).trail
      (trailer_of_closes (by decide))

theorem phrase_definition {e : Definition} (hbody : Phrase d (e.body d)) : Phrase d (e.sql d) := by
  have hname : IsName e.name := by
    cases e with
    | rows n q => exact isName_nodeName n.id
    | numbered n key => exact isName_pagedName n.id
  have hopen : links d 0 " AS (" 1 = true := by
    cases d <;> decide
  have hclose : closes d 1 ")" = true := by
    cases d <;> decide
  intro n
  exact (((phrase_name hname n).append (takes_of_links hopen n)).append (hbody _)).append
    (takes_of_closes hclose n)

theorem phrase_numbered (n : Node) (key : SortKey) :
    Phrase d ((Definition.numbered n key).body d) :=
  Phrase.bracket (a := 1) (by cases d <;> decide) (phrase_sortKey key) (by cases d <;> decide)
    (phrase_name (isName_nodeName n.id))

theorem phrase_nested {columns : Nat} {q : Query Node} {key : SortKey} {page : Option Page}
    (hq : Phrase d (q.sql d Node.name)) : Phrase d ((Body.nested columns q key page).sql d) := by
  have hopen : links d 0 " FROM (" 1 = true := by
    cases d <;> decide
  have hclose : links d 1 ") AS results ORDER BY " 0 = true := by
    cases d <;> decide
  apply Phrase.trail
  · intro n
    exact ((((phrase_selectColumns columns n).append (takes_of_links hopen n)).append (hq _)).append
      (takes_of_links hclose n)).append (phrase_sortKey key n)
  · cases page with
    | none => exact trailer_empty
    | some p => exact trailer_of_links (by cases d <;> decide) (phrase_page p)

theorem phrase_listed {columns : Nat} {name : String} {key : SortKey} (hname : IsName name) :
    Phrase d ((Body.listed columns name key).sql d) :=
  ((phrase_selectColumns columns).link (by cases d <;> decide)
    (phrase_name hname)).link (by cases d <;> decide) (phrase_sortKey key)

theorem phrase_windowed {columns : Nat} {name : String} {first last : Nat} {key : SortKey}
    (hname : IsName name) : Phrase d ((Body.windowed columns name first last key).sql d) :=
  ((((phrase_selectColumns columns).link (by cases d <;> decide)
    (phrase_name hname)).link (by cases d <;> decide)
    (phrase_name (isName_nat first))).link (by cases d <;> decide)
    (phrase_name (isName_nat last))).link (by cases d <;> decide) (phrase_sortKey key)

theorem phrase_count {q : Query Node} {name : String} (hq : Phrase d (q.sql d Node.name))
    (hname : IsName name) : Phrase d ((Body.count q name).sql d) :=
  Phrase.bracket (a := 1) (by cases d <;> decide) hq (by cases d <;> decide) (phrase_name hname)

theorem phrase_statement {st : Statement} (hdefinitions : ∀ e ∈ st.definitions, Phrase d (e.sql d))
    (hbody : Phrase d (st.body.sql d)) : Phrase d (st.sql d) := by
  have hlist : Phrase d (", ".intercalate (st.definitions.map (Definition.sql d))) := by
    apply phrase_intercalate (by cases d <;> decide)
    intro w hw
    obtain ⟨e, he, rfl⟩ := List.mem_map.mp hw
    exact hdefinitions e he
  unfold Statement.sql
  split
  · exact hbody
  · exact (hlist.headed (by cases d <;> decide)).link (by cases d <;> decide) hbody

theorem phrase_of_definitions {nodes : List Node} {es : List Definition}
    (h : (Node.definitions d nodes).result = .ok es) : ∀ e ∈ es, Phrase d (e.sql d) := by
  intro e he
  obtain ⟨n, _, hn⟩ := Outcome.exists_of_mem_mapM h e he
  simp only [Outcome.bind_eq_ok, Outcome.pure_eq_ok] at hn
  obtain ⟨q, hq, rfl⟩ := hn
  exact phrase_definition (Node.phrase_of_query hq)

variable {depth : Nat} {target : Node} {st : Statement}

theorem phrase_of_fetch {page : Option Page}
    (h : (target.fetch d s depth page).result = .ok st) : Phrase d (st.sql d) := by
  simp only [Node.fetch, Outcome.bind_eq_ok] at h
  obtain ⟨p, _, key, _, h⟩ := h
  cases s with
  | inline =>
    simp only [Outcome.bind_eq_ok, Outcome.pure_eq_ok] at h
    obtain ⟨q, hq, rfl⟩ := h
    exact phrase_statement (by simp) (phrase_nested (Node.phrase_of_query hq))
  | commonTableExpressions =>
    simp only [Outcome.bind_eq_ok] at h
    obtain ⟨order, _, rows, hrows, h⟩ := h
    have hphrases := phrase_of_definitions hrows
    cases page with
    | none =>
      obtain rfl := Outcome.pure_eq_ok.mp h
      exact phrase_statement hphrases (phrase_listed (isName_nodeName target.id))
    | some page =>
      simp only [Outcome.bind_eq_ok, Outcome.pure_eq_ok] at h
      obtain ⟨⟨first, last⟩, _, rfl⟩ := h
      refine phrase_statement ?_ (phrase_windowed (isName_pagedName target.id))
      intro e he
      rcases List.mem_append.mp he with he | he
      · exact hphrases e he
      · rw [List.mem_singleton] at he
        subst he
        exact phrase_definition (phrase_numbered target key)

theorem phrase_of_count (h : (target.count d s depth).result = .ok st) : Phrase d (st.sql d) := by
  simp only [Node.count, Outcome.bind_eq_ok] at h
  obtain ⟨q, hq, h⟩ := h
  have hbody := phrase_count (Node.phrase_of_query hq) (isName_nodeName target.id)
  cases s with
  | inline =>
    obtain rfl := Outcome.pure_eq_ok.mp h
    exact phrase_statement (by simp) hbody
  | commonTableExpressions =>
    simp only [Outcome.bind_eq_ok, Outcome.pure_eq_ok] at h
    obtain ⟨order, _, rows, hrows, rfl⟩ := h
    exact phrase_statement (phrase_of_definitions hrows) hbody

/-- A phrase is a text that ends outside of quoted tokens, and a tidy one. -/
theorem tidy_of_phrase {w : String} (h : Phrase d w) :
    ∃ ls, d.lex? w.toList = some ls ∧ Tidy ls := by
  obtain ⟨k, hk, rfl, hmode⟩ := h 0 .outside ⟨0, false⟩ ⟨rfl, rfl⟩
  rcases hmode with hmode | ⟨q, content, _, hmode⟩
  · refine ⟨(LexMode.outside.scan d w.toList).1, ?_, Nesting.tidy_of_checks hk⟩
    simp [Dialect.lex?, hmode, LexMode.finish?]
  · refine ⟨(LexMode.outside.scan d w.toList).1 ++ [.quoted content], ?_, ?_⟩
    · simp [Dialect.lex?, hmode, LexMode.finish?]
    · apply Nesting.tidy_of_checks
      rw [List.foldlM_append, hk]
      rfl

end Statements

namespace Graph

/-- Whatever the ids, names and values in a graph are, each of its statements ends outside of quoted
tokens, and outside of them it is tidy. -/
theorem statement_tidy {g : Graph} {id sql : String}
    (h : (∃ page, (g.fetchStatement id page).result = .ok sql) ∨
      (g.countStatement id).result = .ok sql) :
    ∃ ls, g.dialect.lex? sql.toList = some ls ∧ Tidy ls := by
  apply tidy_of_phrase
  rcases h with ⟨page, h⟩ | h
  · simp only [fetchStatement, Outcome.bind_eq_ok, Outcome.pure_eq_ok] at h
    obtain ⟨target, _, st, hst, rfl⟩ := h
    exact phrase_of_fetch hst
  · simp only [countStatement, Outcome.bind_eq_ok, Outcome.pure_eq_ok] at h
    obtain ⟨target, _, st, hst, rfl⟩ := h
    exact phrase_of_count hst

/-- Quotes, brackets, parentheses and comment marks in every place that takes a text. -/
def hostile : Graph where
  dialect := .sqlServer
  strategy := .inline
  entries :=
    [⟨"'(", .tableSource ⟨some "a]b"⟩, some ⟨"a]b", none, none, [⟨"]]'--", "text"⟩]⟩, []⟩,
    ⟨"\"]", .filter ⟨some 0, some .greaterThan, some "x')--", true⟩, none, [⟨"'(", some 0⟩]⟩]

/-- The value and the column name come back as the contents of one token each. -/
theorem statement_tidy_hostile :
    ∃ sql ls, (hostile.countStatement "\"]").result = .ok sql ∧
      Dialect.sqlServer.lex? sql.toList = some ls ∧ Tidy ls ∧
      .quoted "x')--".toList ∈ ls ∧ .quoted "]]'--".toList ∈ ls := by
  have hkept : ((hostile.countStatement "\"]").result.toOption.bind fun sql =>
      Dialect.sqlServer.lex? sql.toList).any (fun ls => .quoted "x')--".toList ∈ ls ∧
        .quoted "]]'--".toList ∈ ls) = true := by
    decide +kernel
  cases hsql : (hostile.countStatement "\"]").result with
  | error e =>
    rw [hsql] at hkept
    cases hkept
  | ok sql =>
    obtain ⟨ls, hls, htidy⟩ := statement_tidy (.inr hsql)
    have hls' : Dialect.sqlServer.lex? sql.toList = some ls := hls
    rw [hsql, Except.toOption, Option.bind_some, hls', Option.any_some, decide_eq_true_eq] at hkept
    exact ⟨sql, ls, rfl, hls', htidy, hkept⟩

end Graph

end DataflowSql

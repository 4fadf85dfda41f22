import Mathlib.Data.List.Basic
import DataflowSql.Proofs.Order
import DataflowSql.Proofs.Spelling

/-! Pages. With common table expressions a page is a window of row numbers, counted from one and
with both ends; written in place it is a clause of the dialect that skips rows and then takes some.
Both give the same rows, and pages that follow each other neither lose nor repeat one. -/
namespace DataflowSql

/-- What the paging clause of a dialect says: skip so many rows, then take so many. -/
inductive Dialect.Slices : Dialect → String → (skip take : Nat) → Prop
  | mySql (skip take : Nat) :
      Slices .mySql ("LIMIT " ++ toString skip ++ "," ++ toString take) skip take
  | postgreSql (skip take : Nat) :
      Slices .postgreSql ("LIMIT " ++ toString take ++ " OFFSET " ++ toString skip) skip take
  | sqlServer (skip take : Nat) :
      Slices .sqlServer
        ("OFFSET " ++ toString skip ++ " ROWS FETCH NEXT " ++ toString take ++ " ROWS ONLY")
        skip take

theorem eq_of_digits {a b : Nat} (h : (toString a).toList = (toString b).toList) : a = b := by
  rw [Nat.toString_eq_repr, Nat.toString_eq_repr, Nat.toList_repr, Nat.toList_repr] at h
  rw [← Nat.ofDigitChars_ten_toDigits (n := a), h, Nat.ofDigitChars_ten_toDigits]

/-- A number ends before the first character that is no digit. -/
theorem number_append_inj {a b : Nat} {c : Char} (hc : c.isDigit = false) {us vs : List Char}
    (h : (toString a).toList ++ c :: us = (toString b).toList ++ c :: vs) : a = b ∧ us = vs := by
  have hdigits (n : Nat) (ws : List Char) :
      ((toString n).toList ++ c :: ws).takeWhile Char.isDigit = (toString n).toList := by
    have hall : ∀ x ∈ (toString n).toList, x.isDigit = true := by
      intro x hx
      rw [Nat.toString_eq_repr, Nat.toList_repr] at hx
      exact Nat.isDigit_of_mem_toDigits (by decide) (by decide) hx
    rw [List.takeWhile_append_of_pos hall, List.takeWhile_cons_of_neg (by simp [hc]),
      List.append_nil]
  have hnumber : (toString a).toList = (toString b).toList := by
    rw [← hdigits a us, h, hdigits b vs]
  refine ⟨eq_of_digits hnumber, ?_⟩
  rw [hnumber] at h
  simpa using h

/-- Two numbers in a text can be told from it if no digit follows the first. -/
theorem two_numbers_inj (before between after : String) {c : Char} {cs : List Char}
    (hbetween : between.toList = c :: cs) (hc : c.isDigit = false) {a b a' b' : Nat}
    (h : before ++ toString a ++ between ++ toString b ++ after =
      before ++ toString a' ++ between ++ toString b' ++ after) : a = a' ∧ b = b' := by
  have hafter := (String.append_left_inj _).mp h
  rw [String.append_assoc, String.append_assoc, String.append_assoc, String.append_assoc] at hafter
  have hbefore := congrArg String.toList ((String.append_right_inj _).mp hafter)
  simp only [String.toList_append, hbetween, List.cons_append] at hbefore
  obtain ⟨rfl, hrest⟩ := number_append_inj hc hbefore
  exact ⟨rfl, eq_of_digits (List.append_cancel_left hrest)⟩

namespace Page

theorem toString_word (w : UInt64) : toString w = toString w.toNat := rfl

/-- The clause of a page says what the page says, in every dialect. -/
theorem slices_clause_iff (d : Dialect) (p : Page) {skip take : Nat} :
    d.Slices (p.clause d) skip take ↔ skip = p.offset.toNat ∧ take = p.limit.toNat := by
  constructor
  · intro h
    generalize hw : p.clause d = w at h
    cases h with
    | mySql =>
      have htexts := two_numbers_inj "LIMIT " "," "" rfl rfl
        (by simpa [clause, toString_word] using hw)
      exact ⟨htexts.1.symm, htexts.2.symm⟩
    | postgreSql =>
      have htexts := two_numbers_inj "LIMIT " " OFFSET " "" rfl rfl
        (by simpa [clause, toString_word] using hw)
      exact ⟨htexts.2.symm, htexts.1.symm⟩
    | sqlServer =>
      have htexts := two_numbers_inj "OFFSET " " ROWS FETCH NEXT " " ROWS ONLY" rfl rfl
        (by simpa [clause, toString_word] using hw)
      exact ⟨htexts.1.symm, htexts.2.symm⟩
  · rintro ⟨rfl, rfl⟩
    cases d with
    | mySql => exact .mySql _ _
    | postgreSql => exact .postgreSql _ _
    | sqlServer => exact .sqlServer _ _

/-- Its first and its last row number are words. -/
def Addressable (p : Page) : Prop :=
  p.offset.toNat + 1 < UInt64.size ∧ p.offset.toNat + p.limit.toNat < UInt64.size

instance : DecidablePred Addressable := fun p =>
  inferInstanceAs (Decidable (p.offset.toNat + 1 < UInt64.size ∧ _ < UInt64.size))

theorem window?_eq (p : Page) : p.window? =
    if p.Addressable then some (p.offset.toNat + 1, p.offset.toNat + p.limit.toNat) else none :=
  rfl

end Page

section Rows

variable {α : Type}

/-- The rows with numbers from `first` to `last`, where the first row has number one. -/
def numberedRows (first last : Nat) (rows : List α) : List α :=
  ((rows.zipIdx 1).filter fun r => decide (first ≤ r.2 ∧ r.2 ≤ last)).map Prod.fst

theorem numbered_from (start first last : Nat) (rows : List α) :
    ((rows.zipIdx start).filter fun r => decide (first ≤ r.2 ∧ r.2 ≤ last)).map Prod.fst =
      (rows.take (last + 1 - start)).drop (first - start) := by
  induction rows generalizing start with
  | nil => simp
  | cons x rows ih =>
    rw [List.zipIdx_cons]
    by_cases hlast : last < start
    · have hnone : last + 1 - start = 0 := by omega
      have hnext : last + 1 - (start + 1) = 0 := by omega
      rw [List.filter_cons_of_neg (by simp; omega), ih, hnone, hnext]
      simp
    · have htake : last + 1 - start = (last + 1 - (start + 1)) + 1 := by omega
      rw [htake, List.take_succ_cons]
      by_cases hfirst : start < first
      · have hdrop : first - start = (first - (start + 1)) + 1 := by omega
        rw [List.filter_cons_of_neg (by simp; omega), ih, hdrop, List.drop_succ_cons]
      · have hdrop : first - start = 0 := by omega
        have hnext : first - (start + 1) = 0 := by omega
        rw [List.filter_cons_of_pos (by simp; omega), List.map_cons, ih, hdrop, hnext]
        rfl

/-- A window of row numbers is the same as rows skipped and rows taken. -/
theorem numberedRows_eq (skip take : Nat) (rows : List α) :
    numberedRows (skip + 1) (skip + take) rows = (rows.drop skip).take take := by
  rw [numberedRows, numbered_from, List.drop_take]
  simp

/-- The rows that the body of a statement returns, where `rows` are all those of its target in the
order of its key. A number of rows is not among them. -/
inductive Body.Returns (d : Dialect) (rows : List α) : Body → List α → Prop
  | nested (columns : Nat) (query : Sql.Query Node) (key : SortKey) :
      Returns d rows (.nested columns query key none) rows
  | sliced {page : Page} {skip take : Nat} (columns : Nat) (query : Sql.Query Node)
      (key : SortKey) (clause : d.Slices (page.clause d) skip take) :
      Returns d rows (.nested columns query key (some page)) ((rows.drop skip).take take)
  | listed (columns : Nat) (name : String) (key : SortKey) :
      Returns d rows (.listed columns name key) rows
  | windowed (columns : Nat) (name : String) (first last : Nat) (key : SortKey) :
      Returns d rows (.windowed columns name first last key) (numberedRows first last rows)

end Rows

theorem Body.sql_of_page {d : Dialect} (columns : Nat) (query : Sql.Query Node) (key : SortKey)
    (page : Page) : (Body.nested columns query key (some page)).sql d =
      (Body.nested columns query key none).sql d ++ " " ++ page.clause d := by
  unfold Body.sql
  dsimp only
  -- Opaque, so that no text is compared character by character.
  generalize "SELECT " ++ columnList columns ++ " FROM (" ++ query.sql d Node.name ++
    ") AS results ORDER BY " ++ key.text = rows
  rw [String.append_empty, String.append_assoc]

namespace Node

variable {d : Dialect} {target : Node} {depth : Nat}

/-- A statement for a page defines what the one for all rows defines, and then the numbered rows. -/
theorem fetch_of_page {st : Statement}
    (h : (target.fetch d .commonTableExpressions depth none).result = .ok st) :
    ∃ columns key, st.definitions ≠ [] ∧ st.body = .listed columns target.name key ∧
      ∀ page : Page, (target.fetch d .commonTableExpressions depth (some page)).result =
        if page.Addressable then
          .ok ⟨st.definitions ++ [.numbered target key],
            .windowed columns (Sql.pagedName target.id) (page.offset.toNat + 1)
              (page.offset.toNat + page.limit.toNat) key⟩
        else .error (.pageOutOfRange page.offset page.limit) := by
  simp only [fetch, Outcome.bind_eq_ok, Outcome.pure_eq_ok] at h
  obtain ⟨p, hp, key, hkey, order, horder, rows, hrows, rfl⟩ := h
  refine ⟨p.length, key, ?_, rfl, fun page => ?_⟩
  · rintro rfl
    rw [definitions, Outcome.mapM_eq_ok] at hrows
    simpa using hrows.length_eq
  · simp only [fetch, Outcome.result_bind_of_ok hp, Outcome.result_bind_of_ok hkey,
      Outcome.result_bind_of_ok horder, Outcome.result_bind_of_ok hrows, Page.window?_eq]
    split <;> rfl

/-- Written in place, a statement for a page is the one for all rows and the page. -/
theorem fetch_of_page_in_place {st : Statement}
    (h : (target.fetch d .inline depth none).result = .ok st) :
    ∃ columns query key, st = ⟨[], .nested columns query key none⟩ ∧
      ∀ page : Page, (target.fetch d .inline depth (some page)).result =
        .ok ⟨[], .nested columns query key (some page)⟩ := by
  simp only [fetch, Outcome.bind_eq_ok, Outcome.pure_eq_ok] at h
  obtain ⟨p, hp, key, hkey, q, hq, rfl⟩ := h
  refine ⟨p.length, q, key, rfl, fun page => ?_⟩
  simp only [fetch, Outcome.bind_eq_ok, Outcome.pure_eq_ok]
  exact ⟨p, hp, key, hkey, q, hq, rfl⟩

end Node

namespace Statement

variable {d : Dialect} {definitions : List Definition}

theorem sql_of_concat (h : definitions ≠ []) (e : Definition) (body : Body) :
    (Statement.mk (definitions ++ [e]) body).sql d =
      "WITH " ++ ", ".intercalate (definitions.map (Definition.sql d)) ++ ", " ++ e.sql d ++ " " ++
        body.sql d := by
  rw [(spelled_sql _).defined (by simp), List.map_append, List.map_singleton,
    String.intercalate_append_of_ne_nil (by simpa using h) (by simp), String.intercalate_singleton]
  simp only [String.append_assoc]

end Statement

namespace Page

/-- The page `q` starts behind the last row of `p`, and `r` has the rows of both. -/
structure Meets (p q r : Page) : Prop where
  next : q.offset.toNat = p.offset.toNat + p.limit.toNat
  start : r.offset = p.offset
  both : r.limit.toNat = p.limit.toNat + q.limit.toNat

variable {p q r : Page}

theorem window?_eq_some {first last : Nat} : p.window? = some (first, last) ↔
    p.Addressable ∧ first = p.offset.toNat + 1 ∧ last = p.offset.toNat + p.limit.toNat := by
  rw [window?_eq]
  split
  · simp [*, eq_comm]
  · simp [*]

/-- The window of two pages that meet goes from the first row of one to the last of the other. -/
theorem Meets.window? (h : Meets p q r) {first last first' last' : Nat}
    (hp : p.window? = some (first, last)) (hq : q.window? = some (first', last')) :
    first' = last + 1 ∧ r.window? = some (first, last') := by
  simp only [window?_eq_some] at hp hq ⊢
  obtain ⟨⟨hp₁, hp₂⟩, rfl, rfl⟩ := hp
  obtain ⟨⟨hq₁, hq₂⟩, rfl, rfl⟩ := hq
  obtain ⟨next, start, both⟩ := h
  rw [Addressable, start]
  omega

theorem Meets.rows {α : Type} (h : Meets p q r) (rows : List α) :
    (rows.drop r.offset.toNat).take r.limit.toNat =
      (rows.drop p.offset.toNat).take p.limit.toNat ++
        (rows.drop q.offset.toNat).take q.limit.toNat := by
  rw [h.start, h.both, h.next, List.take_add, List.drop_drop]

end Page

namespace Graph

/-- The statement for the rows of a node returns `result`, where `rows` are all of them in order. -/
def Returns {α : Type} (g : Graph) (id : String) (page : Option Page) (rows result : List α) :
    Prop :=
  ∃ target st, (g.node id).result = .ok target ∧
    (target.fetch g.dialect g.strategy g.size page).result = .ok st ∧
    st.body.Returns g.dialect rows result

variable {g : Graph} {id : String} {target : Node} {st : Statement} {page : Page}

theorem returns_iff {α : Type} {page : Option Page} {rows result : List α}
    (ht : (g.node id).result = .ok target)
    (hst : (target.fetch g.dialect g.strategy g.size page).result = .ok st) :
    g.Returns id page rows result ↔ st.body.Returns g.dialect rows result := by
  constructor
  · intro h
    obtain ⟨target', st', ht', hst', hreturns⟩ := h
    obtain rfl := Outcome.result_unique ht ht'
    obtain rfl := Outcome.result_unique hst hst'
    exact hreturns
  · intro h
    exact ⟨target, st, ht, hst, h⟩

theorem result_fetchStatement (ht : (g.node id).result = .ok target) (page : Option Page) :
    (g.fetchStatement id page).result =
      (target.fetch g.dialect g.strategy g.size page).result.map (Statement.sql g.dialect) := by
  rw [fetchStatement, Outcome.result_bind_of_ok ht]
  exact Outcome.result_bind_pure _ _

/-- The text for a page is that for all rows, with one more definition and other rows of it. -/
theorem fetch_of_window {sql : String}
    (h : ((g.withStrategy .commonTableExpressions).fetchStatement id none).result = .ok sql) :
    ∃ target definitions columns key, (g.node id).result = .ok target ∧
      sql = "WITH " ++ definitions ++ " " ++
        ("SELECT " ++ columns ++ " FROM " ++ target.name ++ " ORDER BY " ++ key) ∧
      ∀ page : Page,
        ((g.withStrategy .commonTableExpressions).fetchStatement id (some page)).result =
          if page.Addressable then
            .ok ("WITH " ++ definitions ++ ", " ++
              (Sql.pagedName target.id ++ " AS (" ++
                ("SELECT *, ROW_NUMBER() OVER (ORDER BY " ++ key ++ ") AS ROW_NUM FROM " ++
                  target.name) ++ ")") ++ " " ++
              ("SELECT " ++ columns ++ " FROM " ++ Sql.pagedName target.id ++
                " WHERE ROW_NUM BETWEEN " ++ toString (page.offset.toNat + 1) ++ " AND " ++
                toString (page.offset.toNat + page.limit.toNat) ++ " ORDER BY " ++ key))
          else .error (.pageOutOfRange page.offset page.limit) := by
  obtain ⟨target, st, ht, hst, rfl, _⟩ := statement_of_fetch h
  obtain ⟨columns, key, hne, hbody, hpage⟩ := Node.fetch_of_page hst
  obtain ⟨definitions, body⟩ := st
  obtain rfl : body = _ := hbody
  refine ⟨target, ", ".intercalate (definitions.map (Definition.sql g.dialect)),
    columnList columns, key.text, ht, (Statement.spelled_sql _).defined hne, fun page => ?_⟩
  have hresult := (result_fetchStatement ht (some page)).trans (congrArg _ (hpage page))
  rw [hresult]
  split
  · exact congrArg Except.ok (Statement.sql_of_concat hne _ _)
  · rfl

/-- Numbered and filtered by number, the rows are those skipped to and taken. -/
theorem returns_of_window {α : Type} {sql : String}
    (h : ((g.withStrategy .commonTableExpressions).fetchStatement id none).result = .ok sql)
    (page : Page) (rows result : List α) :
    (g.withStrategy .commonTableExpressions).Returns id (some page) rows result ↔
      page.Addressable ∧ result = (rows.drop page.offset.toNat).take page.limit.toNat := by
  obtain ⟨target, st, ht, hst, rfl, _⟩ := statement_of_fetch h
  obtain ⟨columns, key, -, -, hpage⟩ := Node.fetch_of_page hst
  specialize hpage page
  by_cases haddr : page.Addressable
  · rw [if_pos haddr] at hpage
    rw [returns_iff ht hpage, and_iff_right haddr, ← numberedRows_eq]
    constructor
    · rintro ⟨⟩
      rfl
    · rintro rfl
      exact .windowed _ _ _ _ _
  · rw [if_neg haddr] at hpage
    constructor
    · rintro ⟨target', st', ht', hst', -⟩
      obtain rfl := Outcome.result_unique ht ht'
      cases hpage.symm.trans hst'
    · intro hrows
      exact absurd hrows.1 haddr

theorem fetch_of_clause {sql : String}
    (h : ((g.withStrategy .inline).fetchStatement id none).result = .ok sql) (page : Page) :
    ((g.withStrategy .inline).fetchStatement id (some page)).result =
      .ok (sql ++ " " ++ page.clause g.dialect) := by
  obtain ⟨target, st, ht, hst, rfl, _⟩ := statement_of_fetch h
  obtain ⟨columns, query, key, rfl, hpage⟩ := Node.fetch_of_page_in_place hst
  have hresult := (result_fetchStatement ht (some page)).trans (congrArg _ (hpage page))
  rw [hresult]
  exact congrArg Except.ok (Body.sql_of_page columns query key page)

theorem returns_of_clause {α : Type} {sql : String}
    (h : ((g.withStrategy .inline).fetchStatement id none).result = .ok sql)
    (page : Page) (rows result : List α) :
    (g.withStrategy .inline).Returns id (some page) rows result ↔
      result = (rows.drop page.offset.toNat).take page.limit.toNat := by
  obtain ⟨target, st, ht, hst, rfl, _⟩ := statement_of_fetch h
  obtain ⟨columns, query, key, rfl, hpage⟩ := Node.fetch_of_page_in_place hst
  rw [returns_iff ht (hpage page)]
  constructor
  · rintro (_ | ⟨_, _, _, hclause⟩)
    obtain ⟨rfl, rfl⟩ := (page.slices_clause_iff _).mp hclause
    rfl
  · rintro rfl
    exact .sliced _ _ _ ((page.slices_clause_iff _).mpr ⟨rfl, rfl⟩)

/-- A page of a node that has a statement for all its rows is refused exactly if the number of its
first or last row is no word. If it is not refused, the statement numbers the rows and returns those
behind the offset, as many as the limit, and so does the clause of any dialect. Two pages that meet
have the rows of the page that spans them, and no row in common. -/
theorem pages_exact (g : Graph) {id sql : String}
    (h : ((g.withStrategy .commonTableExpressions).fetchStatement id none).result = .ok sql) :
    (∃ target definitions columns key, (g.node id).result = .ok target ∧
      sql = "WITH " ++ definitions ++ " " ++
        ("SELECT " ++ columns ++ " FROM " ++ target.name ++ " ORDER BY " ++ key) ∧
      ∀ page : Page,
        ((g.withStrategy .commonTableExpressions).fetchStatement id (some page)).result =
          if page.Addressable then
            .ok ("WITH " ++ definitions ++ ", " ++
              (Sql.pagedName target.id ++ " AS (" ++
                ("SELECT *, ROW_NUMBER() OVER (ORDER BY " ++ key ++ ") AS ROW_NUM FROM " ++
                  target.name) ++ ")") ++ " " ++
              ("SELECT " ++ columns ++ " FROM " ++ Sql.pagedName target.id ++
                " WHERE ROW_NUM BETWEEN " ++ toString (page.offset.toNat + 1) ++ " AND " ++
                toString (page.offset.toNat + page.limit.toNat) ++ " ORDER BY " ++ key))
          else .error (.pageOutOfRange page.offset page.limit)) ∧
    (∀ (α : Type) (page : Page) (rows result : List α),
      (g.withStrategy .commonTableExpressions).Returns id (some page) rows result ↔
        page.Addressable ∧ result = (rows.drop page.offset.toNat).take page.limit.toNat) ∧
    (∀ (d : Dialect) (page : Page) (skip take : Nat), d.Slices (page.clause d) skip take ↔
      skip = page.offset.toNat ∧ take = page.limit.toNat) ∧
    (∀ text, ((g.withStrategy .inline).fetchStatement id none).result = .ok text → ∀ page : Page,
      ((g.withStrategy .inline).fetchStatement id (some page)).result =
        .ok (text ++ " " ++ page.clause g.dialect) ∧
      ∀ (α : Type) (rows result : List α),
        (g.withStrategy .inline).Returns id (some page) rows result ↔
          result = (rows.drop page.offset.toNat).take page.limit.toNat) ∧
    ∀ p q r : Page, p.Meets q r → ∀ first last first' last',
      p.window? = some (first, last) → q.window? = some (first', last') →
        first' = last + 1 ∧ r.window? = some (first, last') ∧
        (∀ row, ¬((first ≤ row ∧ row ≤ last) ∧ first' ≤ row ∧ row ≤ last')) ∧
        ∀ (α : Type) (rows inP inQ inR : List α),
          (g.withStrategy .commonTableExpressions).Returns id (some p) rows inP →
          (g.withStrategy .commonTableExpressions).Returns id (some q) rows inQ →
          ((g.withStrategy .commonTableExpressions).Returns id (some r) rows inR ↔
            inR = inP ++ inQ) := by
  refine ⟨fetch_of_window h, fun _ => returns_of_window h, fun d page _ _ =>
    page.slices_clause_iff d, fun text htext page =>
      ⟨fetch_of_clause htext page, fun _ => returns_of_clause htext page⟩, ?_⟩
  intro p q r hmeets first last first' last' hp hq
  obtain ⟨hnext, hboth⟩ := hmeets.window? hp hq
  refine ⟨hnext, hboth, fun row => by omega, fun α rows inP inQ inR hinP hinQ => ?_⟩
  have haddr := (Page.window?_eq_some.mp hboth).1
  obtain ⟨-, rfl⟩ := (returns_of_window h p rows inP).mp hinP
  obtain ⟨-, rfl⟩ := (returns_of_window h q rows inQ).mp hinQ
  rw [returns_of_window h, and_iff_right haddr, hmeets.rows]

/-- At the last row number there is, the first offset too far away, and two pages that meet. -/
theorem pages_exact_diamond :
    (∃ sql, (diamond.fetchStatement "sorted" (some ⟨18446744073709551614, 1⟩)).result = .ok sql) ∧
    (diamond.fetchStatement "sorted" (some ⟨18446744073709551615, 0⟩)).result =
      .error (.pageOutOfRange 18446744073709551615 0) ∧
    (diamond.fetchStatement "sorted" (some ⟨2, 18446744073709551614⟩)).result =
      .error (.pageOutOfRange 2 18446744073709551614) ∧
    diamond.Returns "sorted" (some ⟨1, 2⟩) [10, 20, 30, 40] [20, 30] ∧
    (diamond.withStrategy .inline).Returns "sorted" (some ⟨1, 2⟩) [10, 20, 30, 40] [20, 30] ∧
    diamond.Returns "sorted" (some ⟨3, 5⟩) [10, 20, 30, 40] [40] ∧
    diamond.Returns "sorted" (some ⟨1, 7⟩) [10, 20, 30, 40] ([20, 30] ++ [40]) := by
  have hall : ((diamond.withStrategy .commonTableExpressions).fetchStatement "sorted" none).result =
    .ok _ := rfl
  have hinline : ((diamond.withStrategy .inline).fetchStatement "sorted" none).result = .ok _ := rfl
  obtain ⟨⟨_, _, _, _, _, _, hpage⟩, hreturns, _, htext, hmeet⟩ := pages_exact diamond hall
  have hfirst := (hreturns Nat ⟨1, 2⟩ [10, 20, 30, 40] [20, 30]).mpr (by decide)
  have hsecond := (hreturns Nat ⟨3, 5⟩ [10, 20, 30, 40] [40]).mpr (by decide)
  obtain ⟨_, _, _, hrows⟩ :=
    hmeet ⟨1, 2⟩ ⟨3, 5⟩ ⟨1, 7⟩ ⟨rfl, rfl, rfl⟩ 2 3 4 8 (by decide) (by decide)
  exact ⟨⟨_, (hpage ⟨18446744073709551614, 1⟩).trans (if_pos (by decide))⟩,
    (hpage ⟨18446744073709551615, 0⟩).trans (if_neg (by decide)),
    (hpage ⟨2, 18446744073709551614⟩).trans (if_neg (by decide)),
    hfirst, ((htext _ hinline ⟨1, 2⟩).2 Nat _ _).mpr rfl, hsecond,
    (hrows Nat _ _ _ _ hfirst hsecond).mpr rfl⟩

end Graph
end DataflowSql

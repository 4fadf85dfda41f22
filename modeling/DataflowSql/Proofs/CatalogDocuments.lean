import DataflowSql.Document.Read
import DataflowSql.Proofs.JsonText

/-! Catalog documents. The document of a catalog is read as that catalog, with the fields of its
objects in any order, with or without the object around the list of tables, and also from its
compact text. -/
namespace DataflowSql.Document

open Json

/-- The order of fields inside a value does not matter to what is taken from it. -/
def OrderFree {α : Type} (f : Json → Option α) : Prop := ∀ x y, Reordered x y → f x = f y

section OrderFree

variable {α β : Type} {f : Json → Option α} {fs gs : List (String × Json)} {name : String}

theorem OrderFree.alike (h : OrderFree f) {x y : Json} (hxy : Alike x y) : f x = f y := by
  cases hxy with
  | refl => rfl
  | single hxy => exact h x y hxy

theorem OrderFree.closure (h : OrderFree f) {x y : Json}
    (hxy : Relation.ReflTransGen Reordered x y) : f x = f y := by
  induction hxy with
  | refl => rfl
  | tail _ hstep ih => exact ih.trans (h _ _ hstep)

/-- With names that differ, every field is the only one of its name. -/
theorem onlyField_of_nodup (names : (fs.map Prod.fst).Nodup) :
    onlyField fs name = some (lastField? name fs) := by
  induction fs with
  | nil => rfl
  | cons f fs ih =>
    rw [List.map_cons, List.nodup_cons] at names
    rw [lastField?_cons]
    by_cases hf : f.1 = name
    · have hnone : fs.filter (fun g => g.1 = name) = [] := by
        rw [List.filter_eq_nil_iff]
        intro g hg
        simp only [decide_eq_true_eq, ← hf]
        exact fun he => names.1 (he ▸ List.mem_map_of_mem hg)
      have hlast : lastField? name fs = none := by
        rw [Option.eq_none_iff_forall_ne_some]
        intro x hx
        exact names.1 (hf ▸ List.mem_map.mpr ⟨_, mem_of_lastField? hx, rfl⟩)
      simp [onlyField, hf, hnone, hlast]
    · have hskip : onlyField (f :: fs) name = onlyField fs name := by simp [onlyField, hf]
      rw [hskip, ih names.2, if_neg hf, Option.or_none]

theorem onlyField_rel {R : Json → Json → Prop} (h : List.Forall₂ (FieldRel R) fs gs) :
    Option.Rel (Option.Rel R) (onlyField fs name) (onlyField gs name) := by
  have hfilter : List.Forall₂ (FieldRel R) (fs.filter fun f => f.1 = name)
      (gs.filter fun g => g.1 = name) := by
    refine List.rel_filter ?_ h
    intro f g hfg
    simp [hfg.1]
  simp only [onlyField]
  generalize fs.filter (fun f => f.1 = name) = ks at hfilter
  generalize gs.filter (fun g => g.1 = name) = ls at hfilter
  cases hfilter with
  | nil => exact .some .none
  | cons hkl hrest =>
    cases hrest with
    | nil => exact .some (.some hkl.2)
    | cons _ _ => exact .none

theorem onlyField_of_reordered (h : Reordered (.object fs) (.object gs)) (name : String) :
    Option.Rel (Option.Rel Alike) (onlyField fs name) (onlyField gs name) := by
  cases h with
  | here names order =>
    rw [onlyField_of_nodup names, lastField?_of_perm names order,
      ← onlyField_of_nodup ((order.map _).nodup_iff.mp names)]
    exact onlyField_rel (fieldRel_rfl (fun _ => .refl) gs)
  | field fs gs name inner =>
    exact onlyField_rel (fieldRel_replace (fun _ => .refl) (.single inner) fs gs name)

theorem bind_of_rel {γ δ : Type} {R : γ → δ → Prop} {a : Option γ} {b : Option δ}
    (h : Option.Rel R a b) {next : γ → Option β} {next' : δ → Option β}
    (hnext : ∀ x y, R x y → next x = next' y) : a >>= next = b >>= next' := by
  cases h with
  | none => rfl
  | some hxy => exact hnext _ _ hxy

/-- What is taken from the only field of a name, and what goes on with it. -/
theorem bind_onlyField (h : Reordered (.object fs) (.object gs)) (hf : OrderFree f)
    {next next' : α → Option β} (hnext : ∀ v, next v = next' v) :
    (do next (← f (← ← onlyField fs name))) = (do next' (← f (← ← onlyField gs name))) := by
  obtain rfl : next = next' := funext hnext
  refine bind_of_rel (onlyField_of_reordered h name) fun a b hab => ?_
  refine bind_of_rel hab fun x y hxy => ?_
  rw [hf.alike hxy]

theorem orderFree_stringOf : OrderFree stringOf := by
  intro x y hxy
  rcases compound_of_reordered hxy with ⟨xs, ys, rfl, rfl, _⟩ | ⟨fs, gs, rfl, rfl⟩ <;> rfl

theorem stringOrNull_of_rel {a b : Option Json} (h : Option.Rel Alike a b) :
    stringOrNull a = stringOrNull b := by
  cases h with
  | none => rfl
  | some hxy =>
    cases hxy with
    | refl => rfl
    | single hxy =>
      rcases compound_of_reordered hxy with ⟨xs, ys, rfl, rfl, _⟩ | ⟨fs, gs, rfl, rfl⟩ <;> rfl

theorem mapM_of_rel {xs ys : List Json} (hf : OrderFree f) (h : List.Forall₂ Alike xs ys) :
    xs.mapM f = ys.mapM f := by
  induction h with
  | nil => rfl
  | cons hxy _ ih => rw [List.mapM_cons, List.mapM_cons, hf.alike hxy, ih]

theorem getElem?_rel {R : Json → Json → Prop} {xs ys : List Json} (h : List.Forall₂ R xs ys)
    (i : Nat) : Option.Rel R xs[i]? ys[i]? := by
  induction h generalizing i with
  | nil => exact .none
  | cons hxy _ ih =>
    cases i with
    | zero => exact .some hxy
    | succ i => exact ih i

theorem OrderFree.listOf (hf : OrderFree f) : OrderFree (listOf f) := by
  intro x y hxy
  rcases compound_of_reordered hxy with ⟨xs, ys, rfl, rfl, hitems⟩ | ⟨fs, gs, rfl, rfl⟩
  · exact mapM_of_rel hf hitems
  · rfl

end OrderFree

theorem orderFree_column : OrderFree column := by
  intro x y hxy
  rcases compound_of_reordered hxy with ⟨xs, ys, rfl, rfl, hitems⟩ | ⟨fs, gs, rfl, rfl⟩
  · cases hitems with
    | nil => rfl
    | cons hname hitems =>
      cases hitems with
      | nil => rfl
      | cons htype hitems =>
        cases hitems with
        | nil =>
          simp only [column, orderFree_stringOf.alike hname, orderFree_stringOf.alike htype]
        | cons _ _ => rfl
  · refine bind_onlyField hxy orderFree_stringOf fun name => ?_
    exact bind_onlyField hxy orderFree_stringOf fun type => rfl

theorem tableOf_of_rel {n n' s s' m m' c c' : Option Json} (hn : Option.Rel Alike n n')
    (hs : Option.Rel Alike s s') (hm : Option.Rel Alike m m') (hc : Option.Rel Alike c c') :
    tableOf n s m c = tableOf n' s' m' c' := by
  simp only [tableOf, stringOrNull_of_rel hs, stringOrNull_of_rel hm]
  refine bind_of_rel hn fun x y hxy => ?_
  rw [orderFree_stringOf.alike hxy]
  cases hc with
  | none => rfl
  | some hc => simp only [orderFree_column.listOf.alike hc]

theorem orderFree_table : OrderFree table := by
  intro x y hxy
  rcases compound_of_reordered hxy with ⟨xs, ys, rfl, rfl, hitems⟩ | ⟨fs, gs, rfl, rfl⟩
  · have hget := getElem?_rel hitems
    simp only [table, hitems.length_eq, tableOf_of_rel (hget 0) (hget 1) (hget 2) (hget 3)]
  · have hfield := onlyField_of_reordered hxy
    refine bind_of_rel (hfield _) fun _ _ hdisplay => ?_
    refine bind_of_rel (hfield _) fun _ _ hschema => ?_
    refine bind_of_rel (hfield _) fun _ _ hname => ?_
    refine bind_of_rel (hfield _) fun _ _ hcolumns => ?_
    exact tableOf_of_rel hdisplay hschema hname hcolumns

theorem orderFree_catalog : OrderFree catalog := by
  intro x y hxy
  rcases compound_of_reordered hxy with ⟨xs, ys, rfl, rfl, _⟩ | ⟨fs, gs, rfl, rfl⟩
  · exact congrArg (Option.map Catalog.mk) (orderFree_table.listOf _ _ hxy)
  · exact bind_onlyField hxy orderFree_table.listOf fun tables => rfl

/-- The fields of a table, with its columns as they are written. -/
def tableFields (t : TableSchema) (columns : Json) : List (String × Json) :=
  [("display_name", .string t.displayName)] ++ optionalField "schema" t.schema ++
    optionalField "name" t.name ++ [("columns", columns)]

theorem nodup_tableFields (t : TableSchema) (columns : Json) :
    ((tableFields t columns).map Prod.fst).Nodup := by
  obtain ⟨displayName, schema, name, _⟩ := t
  cases schema <;> cases name <;> simp [tableFields, optionalField]

theorem table_tableFields {t : TableSchema} {columns : Json}
    (h : listOf column columns = some t.columns) :
    table (.object (tableFields t columns)) = some t := by
  obtain ⟨displayName, schema, name, _⟩ := t
  cases schema <;> cases name <;>
    simp [tableFields, table, optionalField, onlyField, tableOf, stringOf, stringOrNull, h]

theorem listOf_map {α : Type} {f : Json → Option α} {g : α → Json} (h : ∀ a, f (g a) = some a)
    (as : List α) : listOf f (.array (as.map g)) = some as := by
  change (as.map g).mapM f = some as
  induction as with
  | nil => rfl
  | cons a as ih => simp [h, ih]

theorem column_columnJson (c : Column) : column (columnJson c) = some c := by
  simp [columnJson, column, onlyField, stringOf]

theorem table_tableJson (t : TableSchema) : table (tableJson t) = some t :=
  table_tableFields (listOf_map column_columnJson t.columns)

/-- An object around the list makes no difference, whatever the list and the other fields hold. -/
theorem catalog_of_onlyField {fields : List (String × Json)} {tables : List Json}
    (h : onlyField fields "tables" = some (some (.array tables))) :
    catalog (.object fields) = catalog (.array tables) := by
  change (onlyField fields "tables" >>= fun x => x >>= fun y => listOf table y >>= fun ts =>
    some ⟨ts⟩) = (listOf table (.array tables)).map Catalog.mk
  rw [h]
  change (listOf table (.array tables)).bind (some ∘ Catalog.mk) = _
  rw [Option.map_eq_bind]

theorem catalog_of_listOf {tables : List Json} {ts : List TableSchema}
    (h : listOf table (.array tables) = some ts) : catalog (.array tables) = some ⟨ts⟩ := by
  change (listOf table (.array tables)).map Catalog.mk = some ⟨ts⟩
  rw [h]
  rfl

/-- The list of the tables of a catalog, and the document of the catalog around it. -/
theorem catalog_tables (c : Catalog) : catalog (.array (c.tables.map tableJson)) = some c :=
  catalog_of_listOf (listOf_map table_tableJson c.tables)

theorem catalog_catalogJson (c : Catalog) : catalog (catalogJson c) = some c :=
  (catalog_of_onlyField rfl).trans (catalog_tables c)

/-- What `g` writes as JSON is taken by `f` from what its compact text is read as. -/
def ReadBack {α : Type} (brackets : Nat) (g : α → Json) (f : Json → Option α) : Prop :=
  ∀ a, ∃ x, Reads brackets (g a).compact.toList x ∧ f x = some a

theorem exists_reads {α : Type} {n : Nat} {g : α → Json} {f : Json → Option α}
    (h : ReadBack n g f) (as : List α) :
    ∃ xs, Reads (n + 1) (compact (.array (as.map g))).toList (.array xs) ∧
      listOf f (.array xs) = some as := by
  suffices hitems : ∃ xs, List.Forall₂ (fun y x => Reads n y.compact.toList x) (as.map g) xs ∧
      xs.mapM f = some as by
    obtain ⟨xs, hreads, htaken⟩ := hitems
    exact ⟨xs, reads_compact_array hreads, htaken⟩
  induction as with
  | nil => exact ⟨[], .nil, rfl⟩
  | cons a as ih =>
    obtain ⟨x, hx, hfx⟩ := h a
    obtain ⟨xs, hxs, hfxs⟩ := ih
    exact ⟨x :: xs, .cons hx hxs, by simp [hfx, hfxs]⟩

theorem readBack_column : ReadBack 1 columnJson column := by
  intro c
  refine ⟨_, reads_compact_object (.cons ⟨rfl, reads_string 0 c.name⟩
    (.cons ⟨rfl, reads_string 0 c.type⟩ .nil)), ?_⟩
  rw [← column_columnJson c]
  exact (orderFree_column _ _ (.here (by simp) (sortedFields_perm (by simp)).symm)).symm

theorem reads_optionalField (n : Nat) (name : String) (o : Option String) :
    List.Forall₂ (FieldRel fun x y => Reads n x.compact.toList y) (optionalField name o)
      (optionalField name o) := by
  cases o with
  | none => exact .nil
  | some s => exact .cons ⟨rfl, reads_string n s⟩ .nil

theorem reads_tableFields {t : TableSchema} {x : Json}
    (h : Reads 2 (projectionJson t.columns).compact.toList x) :
    List.Forall₂ (FieldRel fun x y => Reads 2 x.compact.toList y)
      (tableFields t (projectionJson t.columns)) (tableFields t x) := by
  refine List.rel_append (List.rel_append (List.rel_append ?_ ?_) ?_) ?_
  · exact .cons ⟨rfl, reads_string 2 t.displayName⟩ .nil
  · exact reads_optionalField 2 "schema" t.schema
  · exact reads_optionalField 2 "name" t.name
  · exact .cons ⟨rfl, h⟩ .nil

theorem readBack_table : ReadBack 3 tableJson table := by
  intro t
  obtain ⟨xs, hxs, hcolumns⟩ := exists_reads readBack_column t.columns
  have names := nodup_tableFields t (.array xs)
  refine ⟨_, reads_compact_object (reads_tableFields hxs), ?_⟩
  rw [← table_tableFields hcolumns]
  exact (orderFree_table _ _ (.here names (sortedFields_perm names).symm)).symm

/-- Of the list of tables, and of the document around it: one bracket more is open there. -/
theorem readBack_tables :
    ReadBack 4 (fun c : Catalog => .array (c.tables.map tableJson)) catalog := by
  intro c
  obtain ⟨xs, hxs, htables⟩ := exists_reads readBack_table c.tables
  exact ⟨.array xs, hxs, catalog_of_listOf htables⟩

theorem readBack_catalog : ReadBack 5 catalogJson catalog := by
  intro c
  obtain ⟨xs, hxs, htables⟩ := exists_reads readBack_table c.tables
  have hfields : List.Forall₂ (FieldRel fun (x y : Json) => Reads 4 x.compact.toList y)
      [("tables", .array (c.tables.map tableJson))] [("tables", .array xs)] :=
    .cons ⟨rfl, hxs⟩ .nil
  refine ⟨_, reads_compact_object hfields, ?_⟩
  exact (catalog_of_onlyField rfl).trans (catalog_of_listOf htables)

theorem readCatalog_of_readBack {n : Nat} {g : Catalog → Json} (h : ReadBack n g catalog)
    (hn : n ≤ nesting) (c : Catalog) : readCatalog (g c).compact = .ok c := by
  obtain ⟨x, hx, hcatalog⟩ := h c
  rw [readCatalog, readValue_of_reads hx hn]
  simp [Except.mapError, ok_bind, pure_eq, hcatalog, isEnd, skipSpace]

/-- The document of a catalog gives the catalog back, in whatever order its fields stand, and so
does the bare list of its tables; both are also read back from their texts. A list means the same
alone and as the only field `tables` of an object. -/
theorem catalog_documents_round_trip (c : Catalog) :
    (∀ document, Relation.ReflTransGen Reordered (catalogJson c) document →
      catalog document = some c) ∧
    (∀ document, Relation.ReflTransGen Reordered (.array (c.tables.map tableJson)) document →
      catalog document = some c) ∧
    readCatalog (catalogJson c).compact = .ok c ∧
    readCatalog (compact (.array (c.tables.map tableJson))) = .ok c ∧
    ∀ fields tables, onlyField fields "tables" = some (some (.array tables)) →
      catalog (.object fields) = catalog (.array tables) := by
  refine ⟨?_, ?_, ?_, ?_, ?_⟩
  · intro document horder
    rw [← orderFree_catalog.closure horder, catalog_catalogJson]
  · intro document horder
    rw [← orderFree_catalog.closure horder, catalog_tables]
  · exact readCatalog_of_readBack readBack_catalog (by decide) c
  · exact readCatalog_of_readBack readBack_tables (by decide) c
  · intro fields tables
    exact catalog_of_onlyField

/-- A table whose fields stand in the order of their names, and a field that is not known beside
the tables. -/
theorem catalog_documents_round_trip_sorted :
    let column : Json := .object [("name", .string "say \"hi\""), ("type", .string "")]
    let fields : List (String × Json) := [("columns", .array [column]),
      ("display_name", .string "dbo.t"), ("schema", .string "a.b")]
    let c : Catalog := ⟨[⟨"dbo.t", some "a.b", none, [⟨"say \"hi\"", ""⟩]⟩]⟩
    catalog (.object [("tables", .array [.object fields])]) = some c ∧
    catalog (.array [.object fields]) = some c ∧
    catalog (.object [("version", .null), ("tables", .array [.object fields])]) = some c := by
  intro column fields c
  obtain ⟨hdocument, hlist, _, _, haround⟩ := catalog_documents_round_trip c
  have hsorted : Reordered (.object [("display_name", .string "dbo.t"), ("schema", .string "a.b"),
      ("columns", .array [column])]) (.object fields) :=
    .here (by decide) (List.perm_append_singleton _ [_, _])
  have halone := hlist _ (.single (.item [] [] hsorted))
  exact ⟨hdocument _ (.single (.field [] [] "tables" (.item [] [] hsorted))), halone,
    (haround _ _ rfl).trans halone⟩

end DataflowSql.Document

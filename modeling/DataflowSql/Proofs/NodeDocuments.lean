import DataflowSql.Document.Nodes
import DataflowSql.Proofs.Fields

/-! Node documents in other words. The list of nodes may stand alone or under `nodes`, the fields
of every object in any order, and beside the fields that a node is read from there may be others.
None of this changes what is read, nor which error is told when something is wrong. -/
namespace DataflowSql.Document

open Json

/-- An answer, with its error as it is told. -/
def told {α : Type} (x : Except ShapeError α) : Except String α := x.mapError ShapeError.message

section Told

variable {α β : Type} {x y : Except ShapeError α}

theorem told_bind {f g : α → Except ShapeError β} (hxy : told x = told y)
    (hfg : ∀ a, told (f a) = told (g a)) : told (x >>= f) = told (y >>= g) := by
  cases x with
  | error e =>
    cases y with
    | error e' => exact congrArg Except.error (Except.error.inj hxy)
    | ok b => cases hxy
  | ok a =>
    cases y with
    | error e' => cases hxy
    | ok b =>
      obtain rfl := Except.ok.inj hxy
      exact hfg a

theorem told_map (f : α → β) (hxy : told x = told y) : told (x.map f) = told (y.map f) :=
  told_bind (f := fun a => .ok (f a)) (g := fun a => .ok (f a)) hxy fun _ => rfl

/-- The first item that fails decides, and it is told the same. -/
theorem told_mapM {r : Reader α} {xs ys : List Json}
    (h : List.Forall₂ (fun x y => told (r x) = told (r y)) xs ys) :
    told (xs.mapM r) = told (ys.mapM r) := by
  induction h with
  | nil => rfl
  | cons hxy _ ih =>
    rw [List.mapM_cons, List.mapM_cons]
    exact told_bind hxy fun a => told_bind ih fun as => rfl

end Told

/-- The order of fields inside a value changes nothing that the reader tells. -/
def Respects {α : Type} (r : Reader α) : Prop := ∀ x y, Reordered x y → told (r x) = told (r y)

section Readers

variable {α : Type} {r : Reader α}

theorem Respects.alike (h : Respects r) {x y : Json} (hxy : Alike x y) :
    told (r x) = told (r y) := by
  cases hxy with
  | refl => rfl
  | single hxy => exact h x y hxy

/-- A reader that takes neither arrays nor objects says no more about them than what they are. -/
theorem respects_of_refuses (expected : Expected)
    (harray : ∀ xs, r (.array xs) = .error (.wrongType (.array xs) expected))
    (hobject : ∀ fs, r (.object fs) = .error (.wrongType (.object fs) expected)) :
    Respects r := by
  intro x y hxy
  rcases compound_of_reordered hxy with ⟨xs, ys, rfl, rfl, _⟩ | ⟨fs, gs, rfl, rfl⟩
  · rw [harray, harray]
    rfl
  · rw [hobject, hobject]
    rfl

theorem respects_text : Respects text := respects_of_refuses .text (fun _ => rfl) fun _ => rfl

theorem respects_truth : Respects truth := respects_of_refuses .truth (fun _ => rfl) fun _ => rfl

theorem respects_index : Respects index := respects_of_refuses .index (fun _ => rfl) fun _ => rfl

theorem respects_word : Respects word := respects_of_refuses .word (fun _ => rfl) fun _ => rfl

theorem Respects.list (h : Respects r) : Respects (list r) := by
  intro x y hxy
  rcases compound_of_reordered hxy with ⟨xs, ys, rfl, rfl, hitems⟩ | ⟨fs, gs, rfl, rfl⟩
  · exact told_mapM (hitems.imp fun _ _ => h.alike)
  · rfl

theorem Respects.optional (h : Respects r) : Respects (optional r) := by
  intro x y hxy
  have hitem := told_map some (h x y hxy)
  rcases compound_of_reordered hxy with ⟨xs, ys, rfl, rfl, _⟩ | ⟨fs, gs, rfl, rfl⟩
  · exact hitem
  · exact hitem

/-- A value that is no scalar is told by its compact text. -/
theorem respects_scalarText : Respects scalarText := by
  intro x y hxy
  have htext : (ShapeError.notScalar x).message = (ShapeError.notScalar y).message :=
    congrArg (_ ++ ·) (compact_of_reordered hxy)
  rcases compound_of_reordered hxy with ⟨xs, ys, rfl, rfl, _⟩ | ⟨fs, gs, rfl, rfl⟩
  · exact congrArg Except.error htext
  · exact congrArg Except.error htext

theorem respects_nothing : Respects nothing := by
  intro x y hxy
  cases hxy with
  | item xs ys inner => rfl
  | field fs gs name inner => cases fs <;> rfl
  | @here fs gs names order =>
    cases fs with
    | nil => rw [order.nil_eq]
    | cons f fs =>
      cases gs with
      | nil => cases order.eq_nil
      | cons g gs => rfl

/-- What a choice is made from, once the fields of its object are sorted. -/
theorem told_choice {choices : List (String × α)} {fs gs : List (String × Json)}
    (h : List.Forall₂ (FieldRel Alike) (sortedFields fs) (sortedFields gs)) :
    told (choice choices (.object fs)) = told (choice choices (.object gs)) := by
  simp only [choice]
  generalize sortedFields fs = ks at h
  generalize sortedFields gs = ls at h
  cases h with
  | nil => rfl
  | @cons k l ks ls hkl hrest =>
    cases hrest with
    | cons _ _ => rfl
    | nil =>
      obtain ⟨name, x⟩ := k
      obtain ⟨name', y⟩ := l
      obtain ⟨rfl, hxy⟩ : name = name' ∧ Alike x y := hkl
      refine told_bind rfl fun a => ?_
      exact told_bind (respects_nothing.alike hxy) fun _ => rfl

theorem respects_choice (choices : List (String × α)) : Respects (choice choices) := by
  intro x y hxy
  cases hxy with
  | item xs ys inner => rfl
  | here names order =>
    refine told_choice ?_
    rw [sortedFields_of_perm names order]
    exact fieldRel_rfl (fun _ => .refl) _
  | field fs gs name inner =>
    exact told_choice (sortedFields_rel (fieldRel_replace (fun _ => .refl) (.single inner) ..))

end Readers

/-- Both lists of fields hold the same under each of these names, up to the order of fields inside
the values. -/
def Agree (names : List String) (fs gs : Fields) : Prop :=
  ∀ name ∈ names, Option.Rel Alike (lastField? name fs) (lastField? name gs)

/-- What is told depends only on the fields of these names. -/
def ReadsOnly {α : Type} (names : List String) (r : Fields → Except ShapeError α) : Prop :=
  ∀ fs gs, Agree names fs gs → told (r fs) = told (r gs)

section Settings

variable {α β : Type} {names : List String} {fs gs : Fields}

theorem told_fieldOr {r : Reader α} (h : Respects r) {name : String}
    (hname : Option.Rel Alike (lastField? name fs) (lastField? name gs)) (missing : α) :
    told (fieldOr fs name missing r) = told (fieldOr gs name missing r) := by
  unfold fieldOr
  generalize lastField? name fs = x at hname ⊢
  generalize lastField? name gs = y at hname ⊢
  cases hname with
  | none => rfl
  | some hxy => exact h.alike hxy

theorem readsOnly_pure (a : α) : ReadsOnly names (fun _ => pure a) := fun _ _ _ => rfl

theorem readsOnly_field {r : Reader α} (h : Respects r) {name : String} (hname : name ∈ names)
    (missing : α) {next : α → Fields → Except ShapeError β}
    (hnext : ∀ a, ReadsOnly names (next a)) :
    ReadsOnly names (fun fs => fieldOr fs name missing r >>= fun a => next a fs) := by
  intro fs gs hagree
  exact told_bind (told_fieldOr h (hagree name hname) missing) fun a => hnext a fs gs hagree

theorem ReadsOnly.map {r : Fields → Except ShapeError α} (h : ReadsOnly names r) (f : α → β) :
    ReadsOnly names fun fs => (r fs).map f :=
  fun fs gs hagree => told_map f (h fs gs hagree)

end Settings

/-- The settings of each operation, in the order the operations are numbered. -/
def settingNames : List (String × List String) :=
  [("TableSource", ["Table"]),
   ("Select", ["IncludedColumnIndexes", "ColumnAliases"]),
   ("Filter", ["FilterColumnIndex", "Operator", "FilterValue", "CaseSensitive"]),
   ("Sort", ["SortColumns", "SortDirections"]),
   ("Join", ["JoinType", "Table1Column", "Table2Column"]),
   ("Append", ["IncludeUniqueColumns"]),
   ("Summarize", ["GroupByColumnIndexes", "GroupByFunctions", "AggregateColumnIndexes",
      "AggregateFunctions"]),
   ("Extract", ["InputColumnIndex", "StartType", "StartPosition", "StartSearch", "EndType",
      "EndPosition", "EndLength", "EndSearch", "ColumnName"]),
   ("ChartProjection", ["ChartType", "HorizontalColumnIndex", "DataSeriesColumnIndexes",
      "ValueColumnIndex"])]

/-- The settings of the operation that a value of `Type` selects, by name or by number. -/
def settingsOf : Json → List String
  | .string s => (settingNames.lookup s).getD []
  | .integer n => if n < 0 then [] else (settingNames[n.toNat]?.map Prod.snd).getD []
  | _ => []

section Operations

theorem respects_indexOption : Respects indexOption := respects_index.optional

theorem respects_wordOption : Respects wordOption := respects_word.optional

theorem respects_textOption : Respects textOption := respects_text.optional

theorem readsOnly_tableSource : ReadsOnly ["Table"] tableSource :=
  readsOnly_field respects_textOption (by simp) _ fun _ => readsOnly_pure _

theorem readsOnly_select : ReadsOnly ["IncludedColumnIndexes", "ColumnAliases"] select :=
  readsOnly_field respects_textOption.list (by simp) _ fun _ =>
  readsOnly_field respects_index.list.optional (by simp) _ fun _ => readsOnly_pure _

theorem readsOnly_filter :
    ReadsOnly ["FilterColumnIndex", "Operator", "FilterValue", "CaseSensitive"] filter :=
  readsOnly_field respects_truth (by simp) _ fun _ =>
  readsOnly_field respects_indexOption (by simp) _ fun _ =>
  readsOnly_field respects_scalarText (by simp) _ fun _ =>
  readsOnly_field (respects_choice _).optional (by simp) _ fun _ => readsOnly_pure _

theorem readsOnly_sorting : ReadsOnly ["SortColumns", "SortDirections"] sorting :=
  readsOnly_field respects_index.list (by simp) _ fun _ =>
  readsOnly_field (respects_choice _).list (by simp) _ fun _ => readsOnly_pure _

theorem readsOnly_join : ReadsOnly ["JoinType", "Table1Column", "Table2Column"] join :=
  readsOnly_field (respects_choice _) (by simp) _ fun _ =>
  readsOnly_field respects_indexOption (by simp) _ fun _ =>
  readsOnly_field respects_indexOption (by simp) _ fun _ => readsOnly_pure _

theorem readsOnly_append : ReadsOnly ["IncludeUniqueColumns"] append :=
  readsOnly_field respects_truth (by simp) _ fun _ => readsOnly_pure _

theorem readsOnly_summarize : ReadsOnly ["GroupByColumnIndexes", "GroupByFunctions",
    "AggregateColumnIndexes", "AggregateFunctions"] summarize :=
  readsOnly_field respects_indexOption.list (by simp) _ fun _ =>
  readsOnly_field (respects_choice _).list (by simp) _ fun _ =>
  readsOnly_field respects_index.list (by simp) _ fun _ =>
  readsOnly_field (respects_choice _).list (by simp) _ fun _ => readsOnly_pure _

theorem readsOnly_extract : ReadsOnly ["InputColumnIndex", "StartType", "StartPosition",
    "StartSearch", "EndType", "EndPosition", "EndLength", "EndSearch", "ColumnName"] extract :=
  readsOnly_field respects_textOption (by simp) _ fun _ =>
  readsOnly_field respects_wordOption (by simp) _ fun _ =>
  readsOnly_field respects_wordOption (by simp) _ fun _ =>
  readsOnly_field respects_textOption (by simp) _ fun _ =>
  readsOnly_field (respects_choice _) (by simp) _ fun _ =>
  readsOnly_field respects_indexOption (by simp) _ fun _ =>
  readsOnly_field respects_wordOption (by simp) _ fun _ =>
  readsOnly_field respects_textOption (by simp) _ fun _ =>
  readsOnly_field (respects_choice _) (by simp) _ fun _ => readsOnly_pure _

theorem readsOnly_chartProjection : ReadsOnly ["ChartType", "HorizontalColumnIndex",
    "DataSeriesColumnIndexes", "ValueColumnIndex"] chartProjection :=
  readsOnly_field (respects_choice _) (by simp) _ fun _ =>
  readsOnly_field respects_index.list.optional (by simp) _ fun _ =>
  readsOnly_field respects_indexOption (by simp) _ fun _ =>
  readsOnly_field respects_indexOption (by simp) _ fun _ => readsOnly_pure _

/-- Every operation is read from its own settings. -/
theorem readsOnly_operations :
    List.Forall₂ (fun o s => o.1 = s.1 ∧ ReadsOnly s.2 o.2) operations settingNames :=
  .cons ⟨rfl, readsOnly_tableSource.map _⟩ <|
  .cons ⟨rfl, readsOnly_select.map _⟩ <|
  .cons ⟨rfl, readsOnly_filter.map _⟩ <|
  .cons ⟨rfl, readsOnly_sorting.map _⟩ <|
  .cons ⟨rfl, readsOnly_join.map _⟩ <|
  .cons ⟨rfl, readsOnly_append.map _⟩ <|
  .cons ⟨rfl, readsOnly_summarize.map _⟩ <|
  .cons ⟨rfl, readsOnly_extract.map _⟩ <|
  .cons ⟨rfl, readsOnly_chartProjection.map _⟩ .nil

theorem readsOnly_lookup {s : String} {r : Fields → Except ShapeError Operation}
    {os : List (String × (Fields → Except ShapeError Operation))}
    {ss : List (String × List String)}
    (hos : List.Forall₂ (fun o s => o.1 = s.1 ∧ ReadsOnly s.2 o.2) os ss)
    (h : os.lookup s = some r) : ReadsOnly ((ss.lookup s).getD []) r := by
  induction hos with
  | nil => simp at h
  | @cons o t os ss hot _ ih =>
    obtain ⟨name, r'⟩ := o
    obtain ⟨name', names⟩ := t
    obtain ⟨rfl, hreads⟩ : name = name' ∧ ReadsOnly names r' := hot
    rw [List.lookup_cons] at h ⊢
    by_cases hs : s == name
    · simp only [hs] at h ⊢
      cases h
      exact hreads
    · simp only [hs] at h ⊢
      exact ih h

/-- What a value of `Type` selects is read from the settings that the value stands for. -/
theorem readsOnly_of_operationReader {type : Json} {r : Fields → Except ShapeError Operation}
    (h : operationReader type = .ok r) : ReadsOnly (settingsOf type) r := by
  cases type with
  | string s =>
    simp only [operationReader, named] at h
    split at h
    · next r' hlookup =>
      cases h
      exact readsOnly_lookup readsOnly_operations hlookup
    · cases h
  | integer n =>
    simp only [operationReader, settingsOf] at h ⊢
    split_ifs at h ⊢ with hn
    split at h
    · next o ho =>
      cases h
      obtain ⟨hi, rfl⟩ := List.getElem?_eq_some_iff.mp ho
      have hi' : n.toNat < settingNames.length := readsOnly_operations.length_eq ▸ hi
      rw [List.getElem?_eq_getElem hi']
      exact (readsOnly_operations.get hi hi').2
    · cases h
  | _ => cases h

end Operations

/-- The names that a node with these fields is read from. -/
def ownNames (fs : Fields) : List String :=
  ["Id", "Inputs", "Type"] ++ ((lastField? "Type" fs).map settingsOf).getD []

theorem told_operation {β : Type} {type type' : Json} (htype : Alike type type') {fs gs : Fields}
    (h : Agree (settingsOf type) fs gs) {next : Operation → Except ShapeError β} :
    told (operationReader type >>= fun r => r fs >>= next) =
      told (operationReader type' >>= fun r => r gs >>= next) := by
  cases htype with
  | refl =>
    cases hr : operationReader type with
    | error e => rfl
    | ok r =>
      change told (r fs >>= next) = told (r gs >>= next)
      exact told_bind (readsOnly_of_operationReader hr fs gs h) fun _ => rfl
  | single hreordered =>
    -- no array and no object selects an operation
    rcases compound_of_reordered hreordered with ⟨xs, ys, rfl, rfl, _⟩ | ⟨ks, ls, rfl, rfl⟩
    · rfl
    · rfl

/-- A node is told from the fields of its own names. -/
theorem told_node {fs gs : Fields} (h : Agree (ownNames fs) fs gs) :
    told (node (.object fs)) = told (node (.object gs)) := by
  have hid := h "Id" (by simp [ownNames])
  have hinputs := h "Inputs" (by simp [ownNames])
  have htype := h "Type" (by simp [ownNames])
  have hrespects : Respects fun j => (text j).map some :=
    fun x y hxy => told_map some (respects_text x y hxy)
  simp only [node]
  refine told_bind (told_fieldOr hrespects hid _) fun id => ?_
  refine told_bind (told_fieldOr respects_text.list hinputs _) fun inputs => ?_
  refine told_bind rfl fun id => ?_
  generalize htypes : lastField? "Type" fs = t at htype ⊢
  generalize lastField? "Type" gs = t' at htype ⊢
  cases htype with
  | none => rfl
  | some halike =>
    refine told_operation halike fun name hname => ?_
    exact h name (by simp [ownNames, htypes, hname])

theorem respects_node : Respects node := by
  intro x y hxy
  rcases compound_of_reordered hxy with ⟨xs, ys, rfl, rfl, _⟩ | ⟨fs, gs, rfl, rfl⟩
  · rfl
  · exact told_node fun name _ => lastField?_of_reordered hxy name

/-- A field of a name that the node is not read from. -/
theorem told_node_of_foreign {fs gs : Fields} {name : String} (h : name ∉ ownNames (fs ++ gs))
    (value : Json) : told (node (.object (fs ++ gs))) =
      told (node (.object (fs ++ (name, value) :: gs))) := by
  refine told_node fun own hown => ?_
  have hne : name ≠ own := fun he => h (he ▸ hown)
  rw [lastField?_of_ne hne]
  exact lastField?_rel (fieldRel_rfl (fun _ => .refl) _)

/-- One change to a document that leaves alone what it says: the list of nodes is put under
`nodes`, the fields of an object are put in another order, or a node gets a field that it is not
read from. -/
inductive Restated : Json → Json → Prop
  | wrapped {xs : List Json} {fs : Fields} (list : lastField? "nodes" fs = some (.array xs)) :
      Restated (.array xs) (.object fs)
  | reordered {x y : Json} (order : Reordered x y) : Restated x y
  | added (xs ys : List Json) (fs gs : Fields) (name : String) (value : Json)
      (foreign : name ∉ ownNames (fs ++ gs)) :
      Restated (.array (xs ++ .object (fs ++ gs) :: ys))
        (.array (xs ++ .object (fs ++ (name, value) :: gs) :: ys))
  | within (fs gs : Fields) {xs ys : List Json} (inner : Restated (.array xs) (.array ys)) :
      Restated (.object (fs ++ ("nodes", .array xs) :: gs))
        (.object (fs ++ ("nodes", .array ys) :: gs))

theorem told_nodes_of_object {R : Json → Json → Prop}
    (hR : ∀ x y, R x y → told (list node x) = told (list node y)) {fs gs : Fields}
    (h : Option.Rel R (lastField? "nodes" fs) (lastField? "nodes" gs)) :
    told (nodes (.object fs)) = told (nodes (.object gs)) := by
  simp only [nodes, nodeList]
  generalize lastField? "nodes" fs = x at h ⊢
  generalize lastField? "nodes" gs = y at h ⊢
  cases h with
  | none => rfl
  | some hxy => exact hR _ _ hxy

/-- One change does not change the answer. -/
theorem told_of_restated {x y : Json} (h : Restated x y) : told (nodes x) = told (nodes y) := by
  induction h with
  | wrapped hlist => simp only [nodes, nodeList, hlist, Option.getD_some]
  | reordered hxy =>
    rcases compound_of_reordered hxy with ⟨xs, ys, rfl, rfl, _⟩ | ⟨fs, gs, rfl, rfl⟩
    · exact respects_node.list _ _ hxy
    · exact told_nodes_of_object (fun _ _ => respects_node.list.alike)
        (lastField?_of_reordered hxy "nodes")
  | added xs ys fs gs name value hforeign =>
    refine told_mapM (List.rel_append ?_ (.cons (told_node_of_foreign hforeign value) ?_))
    · exact List.forall₂_same.mpr fun _ _ => rfl
    · exact List.forall₂_same.mpr fun _ _ => rfl
  | within fs gs inner ih =>
    let R (x y : Json) : Prop := told (list node x) = told (list node y)
    have hlists := fieldRel_replace (R := R) (fun _ => rfl) ih fs gs "nodes"
    exact told_nodes_of_object (fun _ _ => id) (lastField?_rel hlists)

/-- However a list of nodes is restated, step after step, the same nodes are read from it or the
same error is told. -/
theorem node_documents_agree {xs : List Json} {document : Json}
    (h : Relation.ReflTransGen Restated (.array xs) document) :
    told (nodes document) = told (nodes (.array xs)) := by
  induction h with
  | refl => rfl
  | tail _ hstep ih => rw [← told_of_restated hstep, ih]

/-- The list under `nodes`, a setting of another operation beside the fields of the node, and then
all its fields the other way round. -/
theorem node_documents_agree_relaid :
    told (nodes (.object [("version", .integer 2), ("nodes", .array [.object
      [("Operator", .string "Nearly"), ("Table", .string "orders"), ("Type", .string "TableSource"),
        ("Id", .string "t")]])])) = .ok [⟨"t", [], .tableSource ⟨some "orders"⟩⟩] := by
  let fields : Fields :=
    [("Id", .string "t"), ("Type", .string "TableSource"), ("Table", .string "orders")]
  let foreign : Fields := [("Operator", .string "Nearly")]
  let around (fs : Fields) : Json :=
    .object [("version", .integer 2), ("nodes", .array [.object fs])]
  have hwrapped : Restated (.array [.object fields]) (around fields) := .wrapped rfl
  have hadded : Restated (around fields) (around (fields ++ foreign)) :=
    .within [_] [] (.added [] [] fields [] _ _ (by decide))
  have hturned : Restated (around (fields ++ foreign)) (around (fields ++ foreign).reverse) :=
    .reordered (.field [_] [] _ (.item [] [] (.here (by decide) (List.reverse_perm _).symm)))
  exact node_documents_agree (((Relation.ReflTransGen.single hwrapped).tail hadded).tail hturned)

end DataflowSql.Document

import FeedGraph.Plan.OfDocument
import FeedGraph.Proofs.Plan.Collection
import FeedGraph.Proofs.Plan.Conformance
import FeedGraph.Schema.Reader

/-!
# Typing: accepted operations are well typed

`Declared` says that a field is what the schema declares it to be on its type, in its arguments, in
its type and in whether anything is selected of it. `Plan.declared_ofDocument` says so of every
field of an accepted operation, on every level, and that no output name comes twice on any of them;
this is what the executor relies on. `Plan.wellTyped_ofDocument` adds that something is selected of
every object, since fragments are not empty.

A schema may declare an argument twice, with two types. `Ambiguous.null_for_required_argument` is
about such a schema, where an argument that must not be null comes out as null; that is why a value
is only said to conform to *a* declaration of its name.
-/

namespace FeedGraph

/-- A field is what the schema declares it to be on a type: it is the name of the type, or there is
a declaration of it, with its type, with arguments that are `ArgumentsTyped` for it, and with
nothing selected of its values unless they are objects. -/
inductive Declared (schema : Schema) (container : String) (field : PlannedField) : Prop where
  /-- the name of the type, which is a text -/
  | typename : field.name = PlannedField.typename → field.type = .named "String" false →
      field.arguments = [] → field.fields = [] → Declared schema container field
  /-- a declared field whose values have no parts -/
  | leaf (definition : FieldDef) : field.name ≠ PlannedField.typename →
      schema.field? container field.name = some definition → field.type = definition.type →
      ArgumentsTyped schema definition.arguments field.arguments →
      schema.isLeaf field.type.underlying = true → field.fields = [] →
        Declared schema container field
  /-- a declared field whose values are objects -/
  | object (definition : FieldDef) : field.name ≠ PlannedField.typename →
      schema.field? container field.name = some definition → field.type = definition.type →
      ArgumentsTyped schema definition.arguments field.arguments →
      schema.IsObject field.type.underlying → Declared schema container field

/-- A declared field, and if its values are objects, something is selected of them. The second part
is only known of fragments that are not empty, which is why it is apart. -/
structure WellTyped (schema : Schema) (container : String) (field : PlannedField) : Prop where
  /-- it is what the schema declares it to be -/
  declared : Declared schema container field
  /-- something is selected of objects -/
  selecting : field.name ≠ PlannedField.typename → schema.IsObject field.type.underlying →
    field.fields ≠ []

namespace Declared

variable {schema : Schema} {container : String} {first second field : PlannedField}

theorem type_of_typename (h : Declared schema container field)
    (hn : field.name = PlannedField.typename) : field.type = .named "String" false := by
  cases h with
  | typename _ ht => exact ht
  | leaf _ hn' => exact absurd hn hn'
  | object _ hn' => exact absurd hn hn'

theorem exists_definition (h : Declared schema container field)
    (hn : field.name ≠ PlannedField.typename) :
    ∃ definition, schema.field? container field.name = some definition ∧
      field.type = definition.type ∧
      ArgumentsTyped schema definition.arguments field.arguments := by
  cases h with
  | typename hn' => exact absurd hn' hn
  | leaf definition _ hd ht ha => exact ⟨definition, hd, ht, ha⟩
  | object definition _ hd ht ha => exact ⟨definition, hd, ht, ha⟩

/-- Two fields of one name on one type have one type, as `Schema.field?` finds one declaration for a
name. With `PlannedField.Agrees` this makes merging sound: the first field can stand for both. -/
theorem type_eq (h₁ : Declared schema container first) (h₂ : Declared schema container second)
    (hname : first.name = second.name) : first.type = second.type := by
  by_cases hn : first.name = PlannedField.typename
  · rw [h₁.type_of_typename hn, h₂.type_of_typename (hname.symm.trans hn)]
  · obtain ⟨d₁, hd₁, ht₁, -⟩ := h₁.exists_definition hn
    obtain ⟨d₂, hd₂, ht₂, -⟩ := h₂.exists_definition (hname ▸ hn)
    rw [hname, hd₂] at hd₁
    rw [ht₁, ht₂, Option.some.inj hd₁]

theorem replace (h : Declared schema container field) {below : List PlannedField}
    (hbelow : field.fields = [] → below = []) :
    Declared schema container { field with fields := below } := by
  cases h with
  | typename hn ht ha hf => exact .typename hn ht ha (hbelow hf)
  | leaf d hn hd ht ha hl hf => exact .leaf d hn hd ht ha hl (hbelow hf)
  | object d hn hd ht ha ho => exact .object d hn hd ht ha ho

theorem fields_eq_nil (h : Declared schema container field)
    (ho : field.name = PlannedField.typename ∨ ¬schema.IsObject field.type.underlying) :
    field.fields = [] := by
  cases h with
  | typename _ _ _ hf => exact hf
  | leaf _ _ _ _ _ _ hf => exact hf
  | object _ hn _ _ _ ho' =>
    rcases ho with ho | ho
    · exact absurd ho hn
    · exact absurd ho' ho

theorem join (h₁ : Declared schema container first) (h₂ : Declared schema container second)
    (hname : first.name = second.name) :
    Declared schema container { first with fields := first.fields ++ second.fields } := by
  have htype := h₁.type_eq h₂ hname
  cases h₁ with
  | typename hn ht ha hf =>
    have := h₂.fields_eq_nil (Or.inl (hname.symm.trans hn))
    exact .typename hn ht ha (by simp [hf, this])
  | leaf d hn hd ht ha hl hf =>
    -- the second one has the same type, which is not one of objects
    have hno : ¬schema.IsObject second.type.underlying := by
      intro ho
      rw [← htype] at ho
      rw [ho.not_isLeaf] at hl
      cases hl
    have := h₂.fields_eq_nil (Or.inr hno)
    exact .leaf d hn hd ht ha hl (by simp [hf, this])
  | object d hn hd ht ha ho => exact .object d hn hd ht ha ho

end Declared

/-! ## From collected fields to accepted operations -/

/-- What is shown throughout a selection in one go: `Declared` without a condition, and `WellTyped`
if no fragment is empty. -/
def Sound (schema : Schema) (fragments : List Fragment) (container : String)
    (field : PlannedField) : Prop :=
  Declared schema container field ∧ (Filled fragments → WellTyped schema container field)

/-- Two fields of one name have one declaration (`Declared.type_eq`), and if something was selected
of one of them, then something is selected of both. -/
theorem joins_sound (schema : Schema) (fragments : List Fragment) :
    PlannedField.Joins (Sound schema fragments) := by
  intro container first second h₁ h₂ hname
  refine ⟨h₁.1.type_eq h₂.1 hname, h₁.1.join h₂.1 hname, fun hfilled => ⟨?_, ?_⟩⟩
  · exact h₁.1.join h₂.1 hname
  · intro hn ho hnil
    exact (h₁.2 hfilled).selecting hn ho (List.append_eq_nil_iff.mp hnil).1

/-- `PlannedField.Replaces` only replaces something by something. -/
theorem replaces_sound (schema : Schema) (fragments : List Fragment) :
    PlannedField.Replaces (Sound schema fragments) := by
  intro container field below h hbelow
  refine ⟨h.1.replace hbelow.mpr, fun hfilled => ⟨h.1.replace hbelow.mpr, ?_⟩⟩
  intro hn ho hnil
  exact (h.2 hfilled).selecting hn ho (hbelow.mp hnil)

/-- The induction is along `Collected`. The fields below are merged there, and `throughout_merge`
takes what the hypotheses of the induction say of them before to what they are afterwards. -/
theorem Checker.Collected.sound {checker : Checker} {container : String} {field : PlannedField}
    (h : Collected checker container field) :
    field.Throughout (Sound checker.schema checker.fragments) container := by
  induction h with
  | @typename container alias? place =>
    have hdeclared : Declared checker.schema container
        ⟨alias?, PlannedField.typename, .named "String" false, [], [], place⟩ :=
      .typename rfl rfl rfl rfl
    exact .intro ⟨hdeclared, fun _ => ⟨hdeclared, fun hn => absurd rfl hn⟩⟩
      (fun _ hmem => absurd hmem List.not_mem_nil)
  | @leaf container name alias? definition _ values place hn hd hv hl =>
    have hdeclared : Declared checker.schema container
        ⟨alias?, name, definition.type, values, [], place⟩ :=
      .leaf definition hn hd rfl (Coercion.argumentsTyped_coerceAll hv) hl rfl
    refine .intro ⟨hdeclared, fun _ => ⟨hdeclared, fun _ ho => ?_⟩⟩
      (fun _ hmem => absurd hmem List.not_mem_nil)
    rw [Schema.IsObject.not_isLeaf ho] at hl
    cases hl
  | @object container name alias? definition _ values place _ fields hn hd hv ho _ hsome hmerge
      ih =>
    have hdeclared : Declared checker.schema container
        ⟨alias?, name, definition.type, values, fields, place⟩ :=
      .object definition hn hd rfl (Coercion.argumentsTyped_coerceAll hv) ho
    refine .intro ⟨hdeclared, fun hfilled => ⟨hdeclared, fun _ _ => ?_⟩⟩ ?_
    · exact PlannedField.merge_ne_nil hmerge (hsome hfilled)
    · exact PlannedField.throughout_merge (joins_sound _ _) (replaces_sound _ _) hmerge ih

namespace Plan

/-- The steps that an accepted operation has passed, each with what it gives: the choice, the root,
the values of variables, and what is selected of the root. -/
theorem ok_of_ofDocument {schema : Schema} {document : Document} {operationName? : Option String}
    {supplied : Members Json} {depthLimit : Nat} {plan : Plan}
    (h : ofDocument schema document operationName? supplied depthLimit = .ok plan) :
    ∃ name? operation root bindings fields count,
      document.choose operationName? = .ok (name?, operation) ∧
      rootOf schema operation = .ok root ∧ operation.bindings supplied = .ok bindings ∧
      (Checker.mk schema bindings document.fragments depthLimit).select root operation.selections
        0 = .ok (fields, count) ∧
      plan = ⟨name?, operation.kind, fields⟩ := by
  obtain ⟨⟨name?, operation⟩, hchoose, h⟩ := ok_of_bind h
  obtain ⟨root, hroot, h⟩ := ok_of_bind h
  obtain ⟨bindings, hbindings, h⟩ := ok_of_bind h
  obtain ⟨⟨fields, count⟩, hselect, h⟩ := ok_of_bind h
  obtain rfl := Except.ok.inj h
  exact ⟨name?, operation, root, bindings, fields, count, hchoose, hroot, hbindings, hselect, rfl⟩

theorem ofDocument_of_choose {document : Document} {operationName? name? : Option String}
    {operation : Operation} (h : document.choose operationName? = .ok (name?, operation))
    (schema : Schema) (supplied : Members Json) (depthLimit : Nat) :
    ofDocument schema document operationName? supplied depthLimit =
      ofOperation schema document.fragments supplied depthLimit name? operation := by
  simp only [ofDocument, h, bind, Except.bind]

theorem ofOperation_of_rootOf {schema : Schema} {operation : Operation} {root : TypeDef}
    (h : rootOf schema operation = .ok root) (fragments : List Fragment) (supplied : Members Json)
    (depthLimit : Nat) (name? : Option String) :
    ofOperation schema fragments supplied depthLimit name? operation =
      operation.bindings supplied >>= fun bindings =>
        Checker.select ⟨schema, bindings, fragments, depthLimit⟩ root operation.selections 0 >>=
          fun result => .ok ⟨name?, operation.kind, result.1⟩ := by
  rw [ofOperation, h]
  rfl

theorem rooted_of_rootOf {schema : Schema} {operation : Operation} {root : TypeDef}
    (h : rootOf schema operation = .ok root) :
    schema.root? operation.kind = some root.name ∧ schema.type? root.name = some root := by
  rw [rootOf] at h
  split at h
  · cases h
  · split at h
    · next kind _ definition hroot =>
      obtain rfl := Except.ok.inj h
      obtain ⟨name, hname, htype⟩ := Option.bind_eq_some_iff.mp hroot
      rw [Schema.name_of_type? htype]
      exact ⟨hname, htype⟩
    · cases h

theorem root?_of_rootOf {schema : Schema} {operation : Operation} {root : TypeDef}
    (h : rootOf schema operation = .ok root) : schema.root? operation.kind = some root.name :=
  (rooted_of_rootOf h).1

/-- What is true of an accepted operation, on every level: `Sound` fields, by `Collected.sound`,
with different output names, by `distinctOutputs_merge`. -/
theorem sound_ofDocument {schema : Schema} {document : Document} {operationName? : Option String}
    {supplied : Members Json} {depthLimit : Nat} {plan : Plan}
    (h : ofDocument schema document operationName? supplied depthLimit = .ok plan) :
    ∃ root, schema.root? plan.kind = some root ∧ PlannedField.DistinctOutputs plan.fields ∧
      ∀ field ∈ plan.fields, field.Throughout (Sound schema document.fragments) root := by
  obtain ⟨name?, operation, root, bindings, fields, count, -, hroot, -, hselect, rfl⟩ :=
    ok_of_ofDocument h
  obtain ⟨collected, hall, hmerge⟩ := Checker.collected_select hselect
  refine ⟨root.name, root?_of_rootOf hroot, PlannedField.distinctOutputs_merge hmerge, ?_⟩
  exact PlannedField.throughout_merge (joins_sound _ _) (replaces_sound _ _) hmerge
    (fun field hmem => (hall field hmem).sound)

/-- The fields of an accepted operation are declared on their types, and no output name comes twice
in a selection. This is what the executor relies on, and it needs nothing of the document. -/
theorem declared_ofDocument {schema : Schema} {document : Document}
    {operationName? : Option String} {supplied : Members Json} {depthLimit : Nat} {plan : Plan}
    (h : ofDocument schema document operationName? supplied depthLimit = .ok plan) :
    ∃ root, schema.root? plan.kind = some root ∧ PlannedField.DistinctOutputs plan.fields ∧
      ∀ field ∈ plan.fields, field.Throughout (Declared schema) root := by
  obtain ⟨root, hroot, hdistinct, hall⟩ := sound_ofDocument h
  exact ⟨root, hroot, hdistinct, fun field hmem => (hall field hmem).mono fun _ _ hs => hs.1⟩

/-- An accepted operation is well typed: on every level, each field is declared on its type, has its
declared type and arguments that fit their declarations, something is selected of it exactly if its
values are objects, and no output name comes twice. -/
theorem wellTyped_ofDocument {schema : Schema} {document : Document}
    {operationName? : Option String} {supplied : Members Json} {depthLimit : Nat} {plan : Plan}
    (hfilled : ∀ fragment ∈ document.fragments, fragment.selections ≠ [])
    (h : ofDocument schema document operationName? supplied depthLimit = .ok plan) :
    ∃ root, schema.root? plan.kind = some root ∧ PlannedField.DistinctOutputs plan.fields ∧
      ∀ field ∈ plan.fields, field.Throughout (WellTyped schema) root := by
  obtain ⟨root, hroot, hdistinct, hall⟩ := sound_ofDocument h
  exact ⟨root, hroot, hdistinct,
    fun field hmem => (hall field hmem).mono fun _ _ hs => hs.2 hfilled⟩

end Plan

/-! ## Concerts

A small schema, and a document with fragments and fields that are to be merged. -/

namespace Concerts

/-- Concerts, which must have a title and may have a venue and a list of acts that has no gaps. -/
def schema : Schema :=
  { Schema.initial with
    types := Schema.initial.types ++
      [⟨"Query", none, .object
          [⟨"concert", .named "Concert" true, none, [⟨"id", .named "ID" false, none⟩]⟩]⟩,
        ⟨"Concert", none, .object
          [⟨"title", .named "String" false, none, []⟩, ⟨"venue", .named "Venue" true, none, []⟩,
            ⟨"acts", .list (.named "Concert" false) true, none, []⟩]⟩,
        ⟨"Venue", none, .object [⟨"name", .named "String" false, none, []⟩]⟩] }

def seven (place : Position) : Argument :=
  ⟨"id", .number (.integer 7 (by decide)), place⟩

/-- The same concert twice under one name, once in a fragment, with different selections. -/
def document : Document where
  operations := .anonymous ⟨.query, [],
    [.spread "Top" ⟨1, 3⟩,
      .field (some "c") "concert" [seven ⟨2, 16⟩]
        [.field none "venue" [] [.field none "name" [] [] ⟨3, 9⟩] ⟨3, 1⟩,
          .field none "acts" [] [.field none "title" [] [] ⟨4, 8⟩] ⟨4, 1⟩] ⟨2, 1⟩], ⟨1, 1⟩⟩
  fragments := [⟨"Top", "Query",
    [.field (some "c") "concert" [seven ⟨7, 16⟩]
      [.field none "title" [] [] ⟨8, 1⟩, .field none "__typename" [] [] ⟨9, 1⟩,
        .field none "venue" [] [.field (some "hall") "name" [] [] ⟨10, 9⟩] ⟨10, 1⟩] ⟨7, 1⟩],
    ⟨6, 1⟩⟩]

def plan : Plan :=
  ⟨none, .query,
    [⟨some "c", "concert", .named "Concert" true, [("id", .string "7")],
      [⟨none, "title", .named "String" false, [], [], ⟨8, 1⟩⟩,
        ⟨none, "__typename", .named "String" false, [], [], ⟨9, 1⟩⟩,
        ⟨none, "venue", .named "Venue" true, [],
          [⟨some "hall", "name", .named "String" false, [], [], ⟨10, 9⟩⟩,
            ⟨none, "name", .named "String" false, [], [], ⟨3, 9⟩⟩], ⟨10, 1⟩⟩,
        ⟨none, "acts", .list (.named "Concert" false) true, [],
          [⟨none, "title", .named "String" false, [], [], ⟨4, 8⟩⟩], ⟨4, 1⟩⟩], ⟨7, 1⟩⟩]⟩

theorem ofDocument_eq : Plan.ofDocument schema document none [] 16 = .ok plan := by
  with_unfolding_all rfl

/-- The plan is well typed, from the root down. -/
theorem wellTyped_plan : (∀ fragment ∈ document.fragments, fragment.selections ≠ []) ∧
    Plan.ofDocument schema document none [] 16 = .ok plan ∧
    ∃ root, schema.root? plan.kind = some root ∧ PlannedField.DistinctOutputs plan.fields ∧
      ∀ field ∈ plan.fields, field.Throughout (WellTyped schema) root := by
  have hfilled : ∀ fragment ∈ document.fragments, fragment.selections ≠ [] := by
    simp [document]
  exact ⟨hfilled, ofDocument_eq, Plan.wellTyped_ofDocument hfilled ofDocument_eq⟩

end Concerts

/-! ## An argument that is declared twice -/

namespace Ambiguous

/-- A type with a field that declares one argument twice: first so that it must not be null, and
then with null for a default. -/
def query : TypeDef :=
  ⟨"Query", none, .object [⟨"f", .named "Int" true, none,
    [⟨"a", .named "Int" false, none⟩, ⟨"a", .named "Int" true, some (.null, ⟨1, 34⟩)⟩]⟩]⟩

def schema : Schema :=
  { Schema.initial with types := Schema.initial.types ++ [query] }

def document : Document where
  operations := .anonymous ⟨.query, [],
    [.field none "f" [⟨"a", .number (.integer 1 (by decide)), ⟨1, 8⟩⟩] [] ⟨1, 3⟩], ⟨1, 1⟩⟩
  fragments := []

/-- The default of the later declaration takes the place of what is given for the first, which must
not be null. -/
theorem null_for_required_argument :
    Schema.ofDefinitions [.type query] = .ok schema ∧
    ∃ plan, Plan.ofDocument schema document none [] 16 = .ok plan ∧
      ∃ field ∈ plan.fields, ∃ definition, schema.field? "Query" field.name = some definition ∧
        ∃ argument ∈ definition.arguments, argument.type.nullable = false ∧
          Members.get? field.arguments argument.name = some .null := by
  refine ⟨by rfl, ⟨none, .query, [⟨none, "f", .named "Int" true, [("a", .null)], [], ⟨1, 3⟩⟩]⟩,
    by with_unfolding_all rfl, _, List.mem_singleton_self _, _, by rfl, _, List.mem_cons_self,
    by rfl, by rfl⟩

end Ambiguous

end FeedGraph

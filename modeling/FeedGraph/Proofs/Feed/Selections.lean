import FeedGraph.Feed.Service
import FeedGraph.Proofs.Plan.Typing

/-!
# Selections: what can be selected of the feed

An accepted operation selects declared fields only. For each type of the feed this leaves a few
fields, with their types and with the texts that they have to be given as arguments
(`selected_author`, `selected_message`, `selected_query`, `selected_mutation`).

From no field does a way lead back to where queries and mutations start (`underlying_ne_root`).
-/

namespace FeedGraph

/-- A field that is found is declared on the type, under the name that was looked for. -/
theorem Schema.mem_of_field? {schema : Schema} {type field : String} {definition : FieldDef}
    (h : schema.field? type field = some definition) :
    ∃ typeDef, schema.type? type = some typeDef ∧ definition ∈ typeDef.kind.fields ∧
      definition.name = field := by
  obtain ⟨typeDef, htype, hfield⟩ := Option.bind_eq_some_iff.mp h
  exact ⟨typeDef, htype, List.mem_of_find?_eq_some hfield, by simpa using List.find?_some hfield⟩

/-- The text that a field is given as an argument, as `textArgument` finds it but without its
fault. -/
def PlannedField.text? (field : PlannedField) (name : String) : Option String :=
  (Members.get? field.arguments name).bind Value.string?

/-- A way to a catalog on which nothing gets through, for engines of which only the store
matters. -/
def Transport.blocked : Transport where
  exchange := fun _ _ _ => .broken "connection refused"
  complaint := fun _ => "not JSON"

/-- The same complaint about every text, at its first character. Documents that are well formed are
read without it. -/
def Complaint.plain (_ : String) : Complaint := ⟨"not a document", .start, none⟩

/-- A request that is accepted has a plan, and what is found of the outcome is so of this plan. With
this, one evaluation of a test says that a request is accepted and what its plan is like. -/
theorem Engine.exists_plan {σ : Type} {engine : Engine σ} {request : Request} {P : Plan → Bool}
    (h : (engine.plan request).toOption.any P = true) :
    ∃ plan, engine.plan request = .ok plan ∧ P plan = true := by
  cases hplan : engine.plan request with
  | error rejection => simp [hplan, Except.toOption] at h
  | ok plan => exact ⟨plan, rfl, by simpa [hplan, Except.toOption] using h⟩

namespace Feed

/-! ## Texts -/

/-- The types whose values are texts: those of all arguments of the feed but the limit. -/
def IsText (type : TypeRef) : Prop := type = required "ID" ∨ type = required "String"

/-- Values of the scalars for texts. -/
theorem exists_text_of_builtin {name : String} {value : Value} (h : BuiltinValue name value)
    (hname : name = "ID" ∨ name = "String") : ∃ text, value = .string text := by
  cases h with
  | id text => exact ⟨text, rfl⟩
  | string text => exact ⟨text, rfl⟩
  | _ => simp at hname

/-- Such a value is a text. -/
theorem exists_text {type : TypeRef} (htype : IsText type) {value : Value}
    (h : Conforms schema type value) : ∃ text, value = .string text := by
  rcases htype with rfl | rfl
  all_goals
    cases h with
    | null hnull => cases hnull
    | builtin _ _ _ hvalue => exact exists_text_of_builtin hvalue (by simp)
    | custom _ _ hbuiltin _ => cases hbuiltin
    | enumeration ht hk _ =>
      obtain rfl := Option.some.inj ht
      cases hk
    | input _ ht hk _ _ _ =>
      obtain rfl := Option.some.inj ht
      cases hk

/-- A text that is given is found by resolvers, so that they never have the fault of
`textArgument`. -/
theorem textArgument_of_text? {field : PlannedField} {name text : String}
    (h : field.text? name = some text) : textArgument field.arguments name = .ok text := by
  rw [PlannedField.text?] at h
  rw [textArgument, h]

/-- Arguments that have to be texts are given: their types are not nullable, so that a plan without
them would not be well typed (`ArgumentsTyped`). -/
theorem exists_text? {definitions : List InputDef} {field : PlannedField}
    (h : ArgumentsTyped schema definitions field.arguments)
    (htext : ∀ definition ∈ definitions, IsText definition.type) {definition : InputDef}
    (hmem : definition ∈ definitions) : ∃ text, field.text? definition.name = some text := by
  have hnullable : definition.type.nullable = false := by
    rcases htext definition hmem with htype | htype <;> rw [htype] <;> rfl
  have hname := h.provides.required definition hmem hnullable
  obtain ⟨value, hvalue⟩ := Option.isSome_iff_exists.mp ((Members.get?_isSome_iff _ _).mpr hname)
  obtain ⟨other, hother, -, hconforms⟩ := h.conforms _ (Members.mem_of_get? hvalue)
  obtain ⟨text, rfl⟩ := exists_text (htext other hother) hconforms
  refine ⟨text, ?_⟩
  rw [PlannedField.text?, hvalue]
  rfl

/-! ## The fields of each type -/

section

variable {field : PlannedField}

/-- A selected field is that of the type's name or one that the type declares. The lemmas for single
types below are this one, with the declarations of the type gone through. -/
theorem selected {type : String} {typeDef : TypeDef} (htype : schema.type? type = some typeDef)
    (h : Declared schema type field) :
    field.name = PlannedField.typename ∨ ∃ definition ∈ typeDef.kind.fields,
      field.name = definition.name ∧ field.type = definition.type ∧
        ArgumentsTyped schema definition.arguments field.arguments := by
  by_cases hname : field.name = PlannedField.typename
  · exact .inl hname
  · obtain ⟨definition, hdefinition, hdeclared⟩ := h.exists_definition hname
    obtain ⟨found, hfound, hmem, hfield⟩ := Schema.mem_of_field? hdefinition
    rw [htype] at hfound
    obtain rfl := Option.some.inj hfound
    exact .inr ⟨definition, hmem, hfield.symm, hdeclared⟩

theorem selected_author (h : Declared schema "Author" field) :
    field.name = PlannedField.typename ∨
      (field.name = "id" ∧ field.type = required "ID") ∨
      (field.name = "firstName" ∧ field.type = required "String") ∨
      (field.name = "lastName" ∧ field.type = required "String") ∨
      (field.name = "fullName" ∧ field.type = required "String") := by
  have hfound : schema.type? "Author" = some authorType := rfl
  rcases selected hfound h with hname | ⟨definition, hmem, hname, htype, -⟩
  · exact .inl hname
  · rw [hname, htype]
    simp only [authorType, TypeKind.fields, List.mem_cons, List.not_mem_nil, or_false] at hmem
    rcases hmem with rfl | rfl | rfl | rfl <;> simp [plain]

theorem selected_message (h : Declared schema "Message" field) :
    field.name = PlannedField.typename ∨
      (field.name = "id" ∧ field.type = required "ID") ∨
      (field.name = "text" ∧ field.type = required "String") ∨
      (field.name = "author" ∧ field.type = optional "Author") := by
  have hfound : schema.type? "Message" = some messageType := rfl
  rcases selected hfound h with hname | ⟨definition, hmem, hname, htype, -⟩
  · exact .inl hname
  · rw [hname, htype]
    simp only [messageType, TypeKind.fields, List.mem_cons, List.not_mem_nil, or_false] at hmem
    rcases hmem with rfl | rfl | rfl <;> simp [plain]

/-- What is selected of the root of queries. Nothing is said of the types of films, which are not
needed for what does not ask for them. -/
theorem selected_query (h : Declared schema "Query" field) :
    field.name = PlannedField.typename ∨
      (field.name = "allMessages" ∧ field.type = .list (required "Message") false) ∨
      (field.name = "message" ∧ field.type = optional "Message" ∧
        ∃ id, field.text? "id" = some id) ∨
      (field.name = "allAuthors" ∧ field.type = .list (required "Author") false) ∨
      (field.name = "author" ∧ field.type = optional "Author" ∧
        ∃ id, field.text? "id" = some id) ∨
      field.name = "allFilms" ∨ field.name = "film" := by
  have hfound : schema.type? "Query" = some queryType := rfl
  rcases selected hfound h with hname | ⟨definition, hmem, hname, htype, harguments⟩
  · exact .inl hname
  · rw [hname, htype]
    simp only [queryType, TypeKind.fields, List.mem_cons, List.not_mem_nil, or_false] at hmem
    have hid : definition.arguments = [argument "id" (required "ID")] →
        ∃ id, field.text? "id" = some id := by
      intro heq
      rw [heq] at harguments
      exact exists_text? harguments (by simp [argument, IsText]) List.mem_cons_self
    rcases hmem with rfl | rfl | rfl | rfl | rfl | rfl
    · exact .inr (.inl ⟨rfl, rfl⟩)
    · exact .inr (.inr (.inl ⟨rfl, rfl, hid rfl⟩))
    · exact .inr (.inr (.inr (.inl ⟨rfl, rfl⟩)))
    · exact .inr (.inr (.inr (.inr (.inl ⟨rfl, rfl, hid rfl⟩))))
    · exact .inr (.inr (.inr (.inr (.inr (.inl rfl)))))
    · exact .inr (.inr (.inr (.inr (.inr (.inr rfl)))))

/-- What is selected of the root of mutations, with the texts that an action is made of. -/
theorem selected_mutation (h : Declared schema "Mutation" field) :
    field.name = PlannedField.typename ∨
      (field.name = "postMessage" ∧ field.type = required "Message" ∧
        ∃ text authorId, field.text? "text" = some text ∧
          field.text? "authorId" = some authorId) ∨
      (field.name = "deleteMessage" ∧ field.type = required "Boolean" ∧
        ∃ id, field.text? "id" = some id) := by
  have hfound : schema.type? "Mutation" = some mutationType := rfl
  rcases selected hfound h with hname | ⟨definition, hmem, hname, htype, harguments⟩
  · exact .inl hname
  · rw [hname, htype]
    simp only [mutationType, TypeKind.fields, List.mem_cons, List.not_mem_nil, or_false] at hmem
    -- all arguments of mutations are texts
    have htext : ∀ argument ∈ definition.arguments,
        ∃ text, field.text? argument.name = some text := by
      have hall : ∀ argument ∈ definition.arguments, IsText argument.type := by
        rcases hmem with rfl | rfl <;> simp [withArguments, argument, IsText]
      exact fun argument hargument => exists_text? harguments hall hargument
    rcases hmem with rfl | rfl
    · obtain ⟨text, htext'⟩ := htext (argument "text" (required "String")) List.mem_cons_self
      obtain ⟨authorId, hauthorId⟩ := htext (argument "authorId" (required "ID"))
        (List.mem_cons_of_mem _ List.mem_cons_self)
      exact .inr (.inl ⟨rfl, rfl, text, authorId, htext', hauthorId⟩)
    · obtain ⟨id, hid⟩ := htext (argument "id" (required "ID")) List.mem_cons_self
      exact .inr (.inr ⟨rfl, rfl, id, hid⟩)

/-- No field of the feed leads to where queries or mutations start, which is read off `Feed.schema`.
So what is asked of a root is asked at the first level of an operation and nowhere else. -/
theorem underlying_ne_root {container : String} (h : Declared schema container field) :
    field.type.underlying ≠ "Query" ∧ field.type.underlying ≠ "Mutation" := by
  have hall : ∀ typeDef ∈ schema.types, ∀ definition ∈ typeDef.kind.fields,
      definition.type.underlying ≠ "Query" ∧ definition.type.underlying ≠ "Mutation" := by
    decide
  by_cases hname : field.name = PlannedField.typename
  · rw [h.type_of_typename hname]
    decide
  · obtain ⟨definition, hdefinition, htype, -⟩ := h.exists_definition hname
    obtain ⟨typeDef, hfound, hmem, -⟩ := Schema.mem_of_field? hdefinition
    rw [htype]
    exact hall typeDef (List.mem_of_find?_eq_some hfound) definition hmem

end

/-! ## Operations -/

section

variable {complain : String → Complaint} {catalog : Catalog} {depthLimit : Nat}
  {request : Request} {plan : Plan}

/-- What an accepted operation selects of its root is declared, with no output name twice on any
level. This is `Plan.declared_ofDocument` and `Plan.sound_ofDocument`, for the feed. -/
theorem exists_root (hplan : (engine complain catalog depthLimit).plan request = .ok plan) :
    ∃ root, schema.root? plan.kind = some root ∧ PlannedField.DistinctOutputs plan.fields ∧
      ∀ field ∈ plan.fields, field.Throughout (Declared schema) root := by
  rw [Engine.plan] at hplan
  split at hplan
  · cases hplan
  · split at hplan
    · cases hplan
    · exact Plan.declared_ofDocument hplan

/-- The same if the root is known. -/
theorem declared_plan {root : String}
    (hplan : (engine complain catalog depthLimit).plan request = .ok plan)
    (hroot : schema.root? plan.kind = some root) :
    PlannedField.DistinctOutputs plan.fields ∧
      ∀ field ∈ plan.fields, field.Throughout (Declared schema) root := by
  obtain ⟨other, hother, hdeclared⟩ := exists_root hplan
  obtain rfl : root = other := Option.some.inj (hroot.symm.trans hother)
  exact hdeclared

theorem root_of_query (hkind : plan.kind = .query) : schema.root? plan.kind = some "Query" := by
  rw [hkind]
  rfl

theorem root_of_mutation (hkind : plan.kind = .mutation) :
    schema.root? plan.kind = some "Mutation" := by
  rw [hkind]
  rfl

/-- An accepted operation is a query or a mutation, since the schema has no root for
subscriptions. -/
theorem kind_of_plan (hplan : (engine complain catalog depthLimit).plan request = .ok plan) :
    plan.kind = .query ∨ plan.kind = .mutation := by
  obtain ⟨root, hroot, -⟩ := exists_root hplan
  cases hkind : plan.kind with
  | query => exact .inl rfl
  | mutation => exact .inr rfl
  | subscription =>
    rw [hkind] at hroot
    cases hroot

end

end Feed

end FeedGraph

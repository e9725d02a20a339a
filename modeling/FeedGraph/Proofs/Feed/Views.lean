import FeedGraph.Proofs.Execution.Completions
import FeedGraph.Proofs.Execution.Frames
import FeedGraph.Proofs.Feed.Selections

/-!
# Views: what is answered for records

A view is what a selection shows of a record: an object with the selected fields, in their order,
each under its output name. Authors show their own properties and their full name; messages show
theirs and a view of their author, who is looked up in the store (`Author.view`, `Message.view`,
`Store.view`).

Views are said without resolvers, types and null propagation. The main statements are that they are
what comes of these: an accepted selection of an author, of a message or of the root of queries
evaluates to its view, without failures (`object_author`, `object_message`, `object_query`).
-/

namespace FeedGraph

/-! ## Views -/

/-- The object with a member for each selected field, in their order. Of several members with one
name a client would see the last; plans have distinct output names. -/
def view (selected : List PlannedField) (member : PlannedField → Json) : Json :=
  .object (selected.map fun field => (field.output, member field))

/-- What a field of an author shows. Names that no author has do not come here, since plans are
checked against the schema. -/
def Author.member (author : Author) (field : PlannedField) : Json :=
  match field.name with
  | "__typename" => .string "Author"
  | "id" => .string author.id
  | "firstName" => .string author.firstName
  | "lastName" => .string author.lastName
  | "fullName" => .string author.fullName
  | _ => .null

/-- What a selection shows of an author. -/
def Author.view (author : Author) (selected : List PlannedField) : Json :=
  FeedGraph.view selected author.member

/-- What a field of a message shows: for its author, a view of the first one with the author's id,
or null. Authors are not kept in messages, so the store is needed. -/
def Message.member (store : Store) (message : Message) (field : PlannedField) : Json :=
  match field.name with
  | "__typename" => .string "Message"
  | "id" => .string message.id
  | "text" => .string message.text
  | "author" => Feed.optionalJson (Author.view · field.fields) (store.author? message.authorId)
  | _ => .null

/-- What a selection shows of a message. -/
def Message.view (store : Store) (message : Message) (selected : List PlannedField) : Json :=
  FeedGraph.view selected (message.member store)

/-- What a field of the root of queries shows: all records in the order in which they were added, or
the first one with an id, or null. -/
def Store.member (store : Store) (field : PlannedField) : Json :=
  match field.name with
  | "__typename" => .string "Query"
  | "allMessages" => .array (store.messages.map (Message.view store · field.fields))
  | "message" =>
    Feed.optionalJson (Message.view store · field.fields) ((field.text? "id").bind store.message?)
  | "allAuthors" => .array (store.authors.map (Author.view · field.fields))
  | "author" =>
    Feed.optionalJson (Author.view · field.fields) ((field.text? "id").bind store.author?)
  | _ => .null

/-- What a selection shows of a store. -/
def Store.view (store : Store) (selected : List PlannedField) : Json :=
  FeedGraph.view selected store.member

/-! ## Values without failures -/

namespace Evaluation

variable {schema : Schema} {outcome : Inquiry → Outcome}

/-- A list whose items come to values, at whatever path, comes to the list of these. -/
theorem complete_of_values {site : Executor.Site} {select : String → Json → Path → Completion}
    {item : TypeRef} {nullable : Bool} {α : Type} {toJson value : α → Json} {items : List α}
    (h : ∀ a path, complete schema site select item (toJson a) path = .value (value a))
    (path : Path) :
    complete schema site select (.list item nullable) (.array (items.map toJson)) path =
      .value (.array (items.map value)) := by
  have hitems : ((items.map toJson).zipIdx.map fun part =>
      complete schema site select item part.1 (path ++ [.index part.2])) =
        items.map fun a => .value (value a) := by
    calc
      _ = items.zipIdx.map fun part => Completion.value (value part.1) := by
        rw [List.zipIdx_map, List.map_map]
        exact List.map_congr_left fun part _ => h part.1 _
      _ = (items.zipIdx.map Prod.fst).map fun a => Completion.value (value a) := by
        rw [List.map_map]
        rfl
      _ = _ := by rw [List.zipIdx_map_fst]
  rw [complete_array, hitems, Completion.list_of_values]
  exact Completion.absorb_of_value nullable rfl

/-- A record that what is selected of it makes a value of. The type of a record has parts, so
completion looks at what is selected. -/
theorem complete_record {site : Executor.Site} {select : String → Json → Path → Completion}
    {name : String} {nullable : Bool} {record value : Json} {path : Path}
    (hleaf : schema.isLeaf name = false) (hrecord : ∃ members, record = .object members)
    (h : select name record path = .value value) :
    complete schema site select (.named name nullable) record path = .value value := by
  obtain ⟨members, rfl⟩ := hrecord
  rw [complete_object hleaf, h]
  exact Completion.absorb_of_value nullable rfl

/-- A record that may be missing: null is allowed where one is looked up by its id. -/
theorem complete_optional {site : Executor.Site} {select : String → Json → Path → Completion}
    {name : String} {path : Path} {α : Type} {toJson value : α → Json}
    (hleaf : schema.isLeaf name = false) (hrecord : ∀ a, ∃ members, toJson a = .object members)
    (h : ∀ a, select name (toJson a) path = .value (value a)) (record? : Option α) :
    complete schema site select (.named name true) (Feed.optionalJson toJson record?) path =
      .value (Feed.optionalJson value record?) := by
  cases record? with
  | none => exact complete_null _
  | some a => exact complete_record hleaf (hrecord a) (h a)

/-- An object whose fields come to values shows them under their output names. -/
theorem object_of_values {selected : List PlannedField} (hnames : (selected.map (·.output)).Nodup)
    {type : String} {parent : Json} {path : Path} {member : PlannedField → Json}
    (h : ∀ asked ∈ selected,
      field schema outcome type parent path asked = .value (member asked)) :
    object schema outcome selected type parent path = .value (view selected member) := by
  rw [object, List.map_congr_left h]
  exact Completion.object_of_values member hnames

end Evaluation

/-! ## Records -/

namespace Feed

variable {catalog : Catalog} {state : FeedState} {field : PlannedField}

/-- What resolvers have for a field in a state: what their fibers end with. For resolvers that wait
for something this is what they have if nothing comes in between. -/
def outcomes (catalog : Catalog) (state : FeedState) : Outcomes := fun type field parent arguments =>
  let (resolution, next) := (resolvers catalog).resolve type field parent arguments state
  (resolution.fiber.run next).1

theorem field_author (author : Author) (h : Declared schema "Author" field) (path : Path) :
    Evaluation.field schema (outcomes catalog state).of "Author" author.toJson path field =
      .value (author.member field) := by
  rw [Evaluation.field_eq, Author.member]
  rcases selected_author h with hname | ⟨hname, htype⟩ | ⟨hname, htype⟩ | ⟨hname, htype⟩ |
    ⟨hname, htype⟩
  · rw [if_pos hname, hname]
    rfl
  all_goals
    rw [if_neg (by rw [hname]; decide), Outcomes.of, hname, htype]
    rfl

/-- A selection of an author evaluates to its view; no field of an author has parts, so the fields
are looked at one by one. -/
theorem object_author (author : Author) {selected : List PlannedField}
    (hdistinct : PlannedField.DistinctOutputs selected)
    (h : ∀ field ∈ selected, field.Throughout (Declared schema) "Author") (path : Path) :
    Evaluation.object schema (outcomes catalog state).of selected "Author" author.toJson path =
      .value (author.view selected) :=
  Evaluation.object_of_values hdistinct.nodup fun field hmem =>
    field_author author (h field hmem).here path

theorem field_message (message : Message)
    (hdistinct : PlannedField.DistinctOutputs field.fields)
    (h : field.Throughout (Declared schema) "Message") (path : Path) :
    Evaluation.field schema (outcomes catalog state).of "Message" message.toJson path field =
      .value (message.member state.store field) := by
  rw [Evaluation.field_eq, Message.member]
  rcases selected_message h.here with hname | ⟨hname, htype⟩ | ⟨hname, htype⟩ | ⟨hname, htype⟩
  · rw [if_pos hname, hname]
    rfl
  · rw [if_neg (by rw [hname]; decide), Outcomes.of, hname, htype]
    rfl
  · rw [if_neg (by rw [hname]; decide), Outcomes.of, hname, htype]
    rfl
  · have hbelow := h.descend
    rw [htype] at hbelow
    have houtcome : (outcomes catalog state) "Message" "author" message.toJson field.arguments =
        .ok (optionalJson Author.toJson (state.store.author? message.authorId)) := rfl
    rw [if_neg (by rw [hname]; decide), Outcomes.of, hname, htype, houtcome]
    exact Evaluation.complete_optional rfl (fun author => ⟨_, rfl⟩)
      (fun author => object_author author hdistinct hbelow _) _

/-- A selection of a message evaluates to its view. For the author of a message this is
`object_author`. -/
theorem object_message (message : Message) {selected : List PlannedField}
    (hdistinct : PlannedField.DistinctOutputs selected)
    (h : ∀ field ∈ selected, field.Throughout (Declared schema) "Message") (path : Path) :
    Evaluation.object schema (outcomes catalog state).of selected "Message" message.toJson path =
      .value (message.view state.store selected) :=
  Evaluation.object_of_values hdistinct.nodup fun field hmem =>
    field_message message (hdistinct.inner field hmem) (h field hmem) path

/-- A field of the root of queries is a film or films of the catalog. All other fields are answered
from the store. -/
def IsFilm (field : PlannedField) : Prop := field.name = "allFilms" ∨ field.name = "film"

instance : DecidablePred IsFilm := fun _ => instDecidableOr

/-- The record with the id that is given: with an id, the argument is found, and what the resolver
has is what the view shows. -/
theorem map_id {id : String} (hid : field.text? "id" = some id) {α : Type}
    (toJson : α → Json) (record? : String → Option α) :
    ((textArgument field.arguments "id").map fun id => optionalJson toJson (record? id)) =
      .ok (optionalJson toJson ((field.text? "id").bind record?)) := by
  rw [textArgument_of_text? hid, hid]
  rfl

theorem field_query (hdistinct : PlannedField.DistinctOutputs field.fields)
    (h : field.Throughout (Declared schema) "Query") (hfilm : ¬IsFilm field) (path : Path) :
    Evaluation.field schema (outcomes catalog state).of "Query" (.object []) path field =
      .value (state.store.member field) := by
  have hbelow := h.descend
  rw [Evaluation.field_eq, Store.member]
  rcases selected_query h.here with hname | ⟨hname, htype⟩ | ⟨hname, htype, id, hid⟩ |
    ⟨hname, htype⟩ | ⟨hname, htype, id, hid⟩ | hname | hname
  · rw [if_pos hname, hname]
    rfl
  · have houtcome : (outcomes catalog state) "Query" "allMessages" (.object []) field.arguments =
        .ok (.array (state.store.messages.map Message.toJson)) := rfl
    rw [htype] at hbelow
    rw [if_neg (by rw [hname]; decide), Outcomes.of, hname, htype, houtcome]
    exact Evaluation.complete_of_values (fun message path =>
      Evaluation.complete_record rfl ⟨_, rfl⟩ (object_message message hdistinct hbelow path)) _
  · have houtcome : (outcomes catalog state) "Query" "message" (.object []) field.arguments =
        .ok (optionalJson Message.toJson ((field.text? "id").bind state.store.message?)) :=
      map_id hid _ _
    rw [htype] at hbelow
    rw [if_neg (by rw [hname]; decide), Outcomes.of, hname, htype, houtcome]
    exact Evaluation.complete_optional rfl (fun message => ⟨_, rfl⟩)
      (fun message => object_message message hdistinct hbelow _) _
  · have houtcome : (outcomes catalog state) "Query" "allAuthors" (.object []) field.arguments =
        .ok (.array (state.store.authors.map Author.toJson)) := rfl
    rw [htype] at hbelow
    rw [if_neg (by rw [hname]; decide), Outcomes.of, hname, htype, houtcome]
    exact Evaluation.complete_of_values (fun author path =>
      Evaluation.complete_record rfl ⟨_, rfl⟩ (object_author author hdistinct hbelow path)) _
  · have houtcome : (outcomes catalog state) "Query" "author" (.object []) field.arguments =
        .ok (optionalJson Author.toJson ((field.text? "id").bind state.store.author?)) :=
      map_id hid _ _
    rw [htype] at hbelow
    rw [if_neg (by rw [hname]; decide), Outcomes.of, hname, htype, houtcome]
    exact Evaluation.complete_optional rfl (fun author => ⟨_, rfl⟩)
      (fun author => object_author author hdistinct hbelow _) _
  · exact absurd (.inl hname) hfilm
  · exact absurd (.inr hname) hfilm

end Feed

end FeedGraph

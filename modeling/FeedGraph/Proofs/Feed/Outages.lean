import FeedGraph.Proofs.Execution.NullPropagation
import FeedGraph.Proofs.Feed.Films

/-!
# Outages: what requests to the catalog come to

A request to the catalog brings films exactly if the exchange ends with a status of success, and the
body is JSON with the films where they belong (`Exchange.Brings`). Several things can be wrong with
an exchange at once, say its status and its body (`Exchange.Spoiled`). The fault of the request is
the one that comes first in the order of `CatalogFault.rank`, and there is a fault whenever there
are no films (`Exchange.Classified`).

In the response, a field whose request failed has one error, and there is nothing else wrong with it
or below it (`Feed.errors_of_fault`). A field whose request brought films has none at its own place,
only below it, where the films do not fit. Fields for films are never null, so that one fault is
enough to leave no data. The main statement is `Feed.answer_outages`.
-/

namespace FeedGraph

/-! ## Following names -/

namespace Json

/-- A value has another one at a path: at each step there is an object with a member that is not
null. This is the case in which `Exchange.follow` finds something. -/
inductive Holds : List String → Json → Json → Prop where
  | here (value : Json) : Holds [] value value
  | member {name : String} {rest : List String} {members : List (String × Json)} {inner value : Json} :
      Members.get? members name = some inner → inner ≠ .null → Holds rest inner value →
        Holds (name :: rest) (.object members) value

/-- A value has none at a path: at some step there is no object, or its member is missing or null.
It is stated by itself, and not as the negation of `Json.Holds`, since it is a fault that a response
tells of. -/
inductive Lacks : List String → Json → Prop where
  | notObject {name : String} {rest : List String} {value : Json} :
      (∀ members, value ≠ .object members) → Lacks (name :: rest) value
  | absent {name : String} {rest : List String} {members : List (String × Json)} :
      Members.get? members name = none → Lacks (name :: rest) (.object members)
  | null {name : String} {rest : List String} {members : List (String × Json)} :
      Members.get? members name = some .null → Lacks (name :: rest) (.object members)
  | member {name : String} {rest : List String} {members : List (String × Json)} {inner : Json} :
      Members.get? members name = some inner → Lacks rest inner → Lacks (name :: rest) (.object members)

end Json

namespace Exchange

variable {name : String} {rest path : List String} {json inner value : Json}
  {members : List (String × Json)}

/-- A member that is not null is what is followed. -/
theorem follow_member (h : Members.get? members name = some inner) (hnull : inner ≠ .null) :
    follow (name :: rest) (.object members) = follow rest inner := by
  rw [follow, Json.member?, h]
  cases inner with
  | null => exact absurd rfl hnull
  | _ => rfl

theorem follow_of_holds (h : json.Holds path value) : follow path json = some value := by
  induction h with
  | here value => rfl
  | member hmember hnull _ ih => rw [follow_member hmember hnull, ih]

theorem follow_of_lacks (h : json.Lacks path) : follow path json = none := by
  induction h with
  | @notObject name rest value hobject =>
    have hmember : value.member? name = none := by
      cases value with
      | object members => exact absurd rfl (hobject members)
      | _ => rfl
    rw [follow, hmember]
  | absent hmember => rw [follow, Json.member?, hmember]
  | null hmember => rw [follow, Json.member?, hmember]
  | @member name rest members inner hmember _ ih =>
    by_cases hnull : inner = .null
    · rw [follow, Json.member?, hmember, hnull]
    · rw [follow_member hmember hnull, ih]

/-- At a path, a value has another one, or it has none; by `follow_of_holds` and `follow_of_lacks`
never both. -/
theorem holds_or_lacks (path : List String) (json : Json) :
    (∃ value, json.Holds path value) ∨ json.Lacks path := by
  induction path generalizing json with
  | nil => exact .inl ⟨json, .here json⟩
  | cons name rest ih =>
    by_cases hobject : ∃ members, json = .object members
    · obtain ⟨members, rfl⟩ := hobject
      cases hmember : Members.get? members name with
      | none => exact .inr (.absent hmember)
      | some inner =>
        by_cases hnull : inner = .null
        · exact .inr (.null (hnull ▸ hmember))
        · rcases ih inner with ⟨value, hvalue⟩ | hlacks
          · exact .inl ⟨value, .member hmember hnull hvalue⟩
          · exact .inr (.member hmember hlacks)
    · exact .inr (.notObject fun members heq => hobject ⟨members, heq⟩)

/-- What a value has at two steps is inside two objects. The paths of the catalog have two steps, so
`Exchange.Brings` can be said without paths. -/
theorem holds_pair_iff {first second : String} (hvalue : value ≠ .null) :
    json.Holds [first, second] value ↔
      ∃ members inner, json = .object members ∧ Members.get? members first = some (.object inner) ∧
        Members.get? inner second = some value := by
  constructor
  · rintro (_ | ⟨hfirst, -, _ | ⟨hsecond, -, _ | _⟩⟩)
    exact ⟨_, _, rfl, hfirst, hsecond⟩
  · rintro ⟨members, inner, rfl, hfirst, hsecond⟩
    exact .member hfirst Json.noConfusion (.member hsecond hvalue (.here value))

end Exchange

/-! ## What an exchange comes to -/

/-- The order in which faults count, which is the order in which an exchange is looked at: there has
to be an address, then an answer, its status, its body, something at the path, and the right shape
of that. -/
def CatalogFault.rank : CatalogFault → Nat
  | .invalidUrl _ => 0
  | .unreachable _ => 1
  | .timedOut => 1
  | .status _ => 2
  | .malformed _ => 3
  | .missing _ => 4
  | .unexpected _ _ => 5

namespace Exchange

/-- A status of success. -/
abbrev IsSuccess (status : Nat) : Prop := 200 ≤ status ∧ status < 300

/-- The exchange ended well, and in its body there is a value under a name inside of `data`. Members
with null in them do not count as values here; the shapes that are asked for exclude them. -/
def Brings (exchange : Exchange) (name : String) (value : Json) : Prop :=
  ∃ status body members inner, exchange = .answered status body ∧ IsSuccess status ∧
    Json.ofBytes? body = some (.object members) ∧
    Members.get? members "data" = some (.object inner) ∧ Members.get? inner name = some value

/-- What is wrong with an exchange that should bring a value of some shape; several things may be.
The words of whoever carried the exchange, or reads JSON, are part of what is wrong. What is in the
body is told of also if the status is bad. -/
inductive Spoiled {α : Type} (complaint : ByteArray → String) (name : String) (shape : α → Json)
    (expected : String) : Exchange → CatalogFault → Prop where
  | broken {reason : String} :
      Spoiled complaint name shape expected (.broken reason) (.unreachable reason)
  | timedOut : Spoiled complaint name shape expected .timedOut .timedOut
  | status {status : Nat} {body : ByteArray} : ¬IsSuccess status →
      Spoiled complaint name shape expected (.answered status body) (.status status)
  | malformed {status : Nat} {body : ByteArray} : Json.ofBytes? body = none →
      Spoiled complaint name shape expected (.answered status body) (.malformed (complaint body))
  | missing {status : Nat} {body : ByteArray} {json : Json} : Json.ofBytes? body = some json →
      json.Lacks ["data", name] →
        Spoiled complaint name shape expected (.answered status body) (.missing ["data", name])
  | unexpected {status : Nat} {body : ByteArray} {json found : Json} :
      Json.ofBytes? body = some json → json.Holds ["data", name] found →
        (∀ value, found ≠ shape value) →
          Spoiled complaint name shape expected (.answered status body)
            (.unexpected ["data", name] expected)

/-- What a request comes to, given the exchange: it has a value exactly if the exchange brings it,
and otherwise the fault that is the first of all that is wrong. The second condition makes that
fault the only one, since no two faults of an exchange have the same rank (`Spoiled.unique`). -/
structure Classified {α : Type} (exchange : Exchange) (complaint : ByteArray → String)
    (name : String) (shape : α → Json) (expected : String) (result : Except CatalogFault α) :
    Prop where
  /-- a value is what the exchange brings -/
  ok_iff : ∀ value, result = .ok value ↔ exchange.Brings name (shape value)
  /-- a fault is wrong with it, and nothing that comes before is -/
  error_iff : ∀ fault, result = .error fault ↔ Spoiled complaint name shape expected exchange fault ∧
    ∀ other, Spoiled complaint name shape expected exchange other → fault.rank ≤ other.rank

section

variable {α : Type} {complaint : ByteArray → String} {name expected : String} {shape : α → Json}
  {exchange : Exchange} {result : Except CatalogFault α} {fault other : CatalogFault}

/-- No two faults of an exchange come at the same point. Only a broken exchange and one out of time
share a rank, and an exchange is not both. -/
theorem Spoiled.unique (h : Spoiled complaint name shape expected exchange fault)
    (h' : Spoiled complaint name shape expected exchange other) (hrank : fault.rank = other.rank) :
    fault = other := by
  cases h <;> cases h' <;> first | rfl | cases hrank

/-- What is brought is found in the body. -/
theorem Brings.holds {value : Json} (hnull : value ≠ .null) (h : exchange.Brings name value) :
    ∃ status body json, exchange = .answered status body ∧ IsSuccess status ∧
      Json.ofBytes? body = some json ∧ json.Holds ["data", name] value := by
  obtain ⟨status, body, members, inner, rfl, hstatus, hbody, hdata, hvalue⟩ := h
  exact ⟨status, body, .object members, rfl, hstatus, hbody,
    (holds_pair_iff hnull).mpr ⟨members, inner, rfl, hdata, hvalue⟩⟩

/-- If there is a body, what is brought is found in this one: an answer has one body, and its text
is that of one JSON. -/
theorem Brings.follow {status : Nat} {body : ByteArray} {json value : Json}
    (hbody : Json.ofBytes? body = some json) (hnull : value ≠ .null)
    (h : (answered status body).Brings name value) : follow ["data", name] json = some value := by
  obtain ⟨_, _, other, heq, -, hother, hholds⟩ := h.holds hnull
  cases heq
  cases hbody.symm.trans hother
  exact follow_of_holds hholds

/-- What is brought is the only value, because `Exchange.follow` is a function. -/
theorem Brings.unique {value other : Json} (hnull : value ≠ .null) (hnull' : other ≠ .null)
    (h : exchange.Brings name value) (h' : exchange.Brings name other) : value = other := by
  obtain ⟨status, body, json, rfl, -, hbody, hholds⟩ := h.holds hnull
  exact Option.some.inj ((follow_of_holds hholds).symm.trans (h'.follow hbody hnull'))

/-- Nothing is wrong with an exchange that brings a value of the shape: each fault says that one of
the conditions of `Exchange.Brings` fails. -/
theorem Brings.not_spoiled {value : α} (hnull : shape value ≠ .null)
    (h : exchange.Brings name (shape value)) : ¬Spoiled complaint name shape expected exchange fault := by
  obtain ⟨status, body, json, rfl, hstatus, hbody, hholds⟩ := h.holds hnull
  have hfollow := follow_of_holds hholds
  intro hspoiled
  cases hspoiled with
  | status hnot => exact hnot hstatus
  | malformed hnone => cases hbody.symm.trans hnone
  | missing hjson hlacks =>
    cases hbody.symm.trans hjson
    cases hfollow.symm.trans (follow_of_lacks hlacks)
  | unexpected hjson hfound hshape =>
    cases hbody.symm.trans hjson
    exact hshape value (Option.some.inj ((follow_of_holds hfound).symm.trans hfollow))

/-- With a fault that is the first of all that is wrong, a request is classified. It has no value
then, for the exchange brings none. -/
theorem classified_error (hnull : ∀ value, shape value ≠ .null) (hresult : result = .error fault)
    (hspoiled : Spoiled complaint name shape expected exchange fault)
    (hfirst : ∀ other, Spoiled complaint name shape expected exchange other → fault.rank ≤ other.rank) :
    exchange.Classified complaint name shape expected result where
  ok_iff value := by
    rw [hresult]
    exact iff_of_false nofun fun h => h.not_spoiled (hnull value) hspoiled
  error_iff other := by
    rw [hresult, Except.error.injEq]
    constructor
    · rintro rfl
      exact ⟨hspoiled, hfirst⟩
    · rintro ⟨hother, hbefore⟩
      exact hspoiled.unique hother (Nat.le_antisymm (hfirst other hother) (hbefore fault hspoiled))

/-- So it is with a value that the exchange brings. It is the only one, because the shape is
injective, and there is no fault. -/
theorem classified_ok (hinjective : Function.Injective shape) (hnull : ∀ value, shape value ≠ .null)
    {value : α} (hresult : result = .ok value) (hbrings : exchange.Brings name (shape value)) :
    exchange.Classified complaint name shape expected result where
  ok_iff other := by
    rw [hresult, Except.ok.injEq]
    constructor
    · rintro rfl
      exact hbrings
    · exact fun hother => hinjective (hbrings.unique (hnull value) (hnull other) hother)
  error_iff fault := by
    rw [hresult]
    exact iff_of_false nofun fun h => hbrings.not_spoiled (hnull value) h.1

/-- The names are followed in the body, if there is one. This is the last step of
`Exchange.extract`; the ones before have to do with the status and the text of the body. -/
theorem extract_answered (complaint : ByteArray → String) {status : Nat} {body : ByteArray}
    {json : Json} (path : List String) (hstatus : IsSuccess status)
    (hbody : Json.ofBytes? body = some json) :
    (answered status body).extract complaint path =
      match Exchange.follow path json with
      | some value => .ok value
      | none => .error (.missing path) := by
  have hcontent : (answered status body).content complaint = .ok json := by
    rw [content, if_pos hstatus, hbody]
  rw [extract, hcontent]
  rfl

/-- Of an answer with a bad status the body is not read. -/
theorem extract_of_status (complaint : ByteArray → String) {status : Nat} (body : ByteArray)
    (path : List String) (hstatus : ¬IsSuccess status) :
    (answered status body).extract complaint path = .error (.status status) := by
  rw [extract, content, if_neg hstatus]
  rfl

/-- Nothing is looked for in a body that is not JSON. -/
theorem extract_of_malformed (complaint : ByteArray → String) {status : Nat} {body : ByteArray}
    (path : List String) (hstatus : IsSuccess status) (hbody : Json.ofBytes? body = none) :
    (answered status body).extract complaint path = .error (.malformed (complaint body)) := by
  rw [extract, content, if_pos hstatus, hbody]
  rfl

section

variable (hinjective : Function.Injective shape) (hnull : ∀ value, shape value ≠ .null)
  (herror : ∀ fault, exchange.extract complaint ["data", name] = .error fault →
    result = .error fault)
  (hshape : ∀ value, exchange.extract complaint ["data", name] = .ok (shape value) →
    result = .ok value)
  (hother : ∀ found, exchange.extract complaint ["data", name] = .ok found →
    (∀ value, found ≠ shape value) → result = .error (.unexpected ["data", name] expected))

include hinjective hnull herror hshape hother

/-- If the exchange ended well and there is JSON, what counts is what is found in it: nothing,
something of the wrong shape, or a value. The faults of lower rank are excluded by the
hypotheses. -/
theorem classified_of_body {status : Nat} {body : ByteArray} {json : Json}
    (hexchange : exchange = .answered status body) (hstatus : IsSuccess status)
    (hbody : Json.ofBytes? body = some json) :
    exchange.Classified complaint name shape expected result := by
  have hextract := extract_answered complaint ["data", name] hstatus hbody
  rw [← hexchange] at hextract
  rcases holds_or_lacks ["data", name] json with ⟨found, hfound⟩ | hlacks
  · rw [follow_of_holds hfound] at hextract
    by_cases hexists : ∃ value, found = shape value
    · obtain ⟨value, rfl⟩ := hexists
      obtain ⟨members, inner, rfl, hdata, hvalue⟩ := (holds_pair_iff (hnull value)).mp hfound
      exact classified_ok hinjective hnull (hshape value hextract)
        ⟨status, body, members, inner, hexchange, hstatus, hbody, hdata, hvalue⟩
    · have hunlike : ∀ value, found ≠ shape value := fun value heq => hexists ⟨value, heq⟩
      subst hexchange
      refine classified_error hnull (hother found hextract hunlike)
        (.unexpected hbody hfound hunlike) fun fault h => ?_
      cases h with
      | status hnot => exact absurd hstatus hnot
      | malformed hnone => cases hbody.symm.trans hnone
      | missing hjson hlacks =>
        cases hbody.symm.trans hjson
        cases (follow_of_holds hfound).symm.trans (follow_of_lacks hlacks)
      | unexpected _ _ _ => exact Nat.le_refl _
  · rw [follow_of_lacks hlacks] at hextract
    subst hexchange
    refine classified_error hnull (herror _ hextract) (.missing hbody hlacks) fun fault h => ?_
    cases h with
    | status hnot => exact absurd hstatus hnot
    | malformed hnone => cases hbody.symm.trans hnone
    | missing _ _ => exact Nat.le_refl _
    | unexpected _ _ _ => exact Nat.le_succ _

/-- A request that has what is found under the name, if that is of the shape, is classified. The
cases are those of an exchange, in the order of the ranks: broken, out of time, a bad status, no
JSON, and the rest (`classified_of_body`). -/
theorem classified_of_extract : exchange.Classified complaint name shape expected result := by
  cases exchange with
  | broken =>
    refine classified_error hnull (herror _ rfl) .broken fun fault h => ?_
    cases h
    exact Nat.le_refl _
  | timedOut =>
    refine classified_error hnull (herror _ rfl) .timedOut fun fault h => ?_
    cases h
    exact Nat.le_refl _
  | answered status body =>
    by_cases hstatus : IsSuccess status
    case neg =>
      have hextract := extract_of_status complaint body ["data", name] hstatus
      refine classified_error hnull (herror _ hextract) (.status hstatus) fun fault h => ?_
      -- whatever the body is, the status comes before it
      cases h <;> simp only [CatalogFault.rank] <;> decide
    case pos =>
      cases hbody : Json.ofBytes? body with
      | some json =>
        exact classified_of_body hinjective hnull herror hshape hother rfl hstatus hbody
      | none =>
        have hextract := extract_of_malformed complaint ["data", name] hstatus hbody
        refine classified_error hnull (herror _ hextract) (.malformed hbody) fun fault h => ?_
        cases h with
        | status hnot => exact absurd hstatus hnot
        | malformed _ => exact Nat.le_refl _
        | missing hjson _ => cases hbody.symm.trans hjson
        | unexpected hjson _ _ => cases hbody.symm.trans hjson

end

end

/-- A request for a list is classified. -/
theorem classified_films (complaint : ByteArray → String) (exchange : Exchange) :
    exchange.Classified complaint "movies" Json.array "a list" (exchange.films complaint) := by
  refine classified_of_extract (fun _ _ => Json.array.inj) (fun _ => Json.noConfusion)
    (fun fault h => ?_) (fun films h => ?_) fun found h hunlike => ?_
  · rw [films, filmsPath, h]
    rfl
  · rw [Exchange.films, filmsPath, h]
    rfl
  · rw [films, filmsPath, h]
    cases found with
    | array films => exact absurd rfl (hunlike films)
    | _ => rfl

/-- A request for a single film is classified. -/
theorem classified_film (complaint : ByteArray → String) (exchange : Exchange) :
    exchange.Classified complaint "movie" Json.object "an object" (exchange.film complaint) := by
  refine classified_of_extract (fun _ _ => Json.object.inj) (fun _ => Json.noConfusion)
    (fun fault h => ?_) (fun members h => ?_) fun found h hunlike => ?_
  · rw [film, filmPath, h]
    rfl
  · rw [film, filmPath, h]
    rfl
  · rw [film, filmPath, h]
    cases found with
    | object members => exact absurd rfl (hunlike members)
    | _ => rfl

end Exchange

/-! ## Failures of fields -/

/-- A failure of what is in a value is not at the place of the value: it comes from one of the
places below, none of which is the place itself. -/
theorem PropagatesBelow.path_ne {schema : Schema} {base : Path} {places : List Place}
    {completion : Completion} (h : PropagatesBelow schema base places completion) {failure : Failure}
    (hmem : failure ∈ completion.failures) : failure.path ≠ base := by
  obtain ⟨place, hplace, reason, -, rfl⟩ := h.failures failure hmem
  exact h.strict place hplace

/-- A failure of a part is at its place or below it, because every place of a part is. -/
theorem Propagates.prefix_of_failure {schema : Schema} {base : Path} {places : List Place}
    {completion : Completion} (h : Propagates schema base places completion) {failure : Failure}
    (hmem : failure ∈ completion.failures) : base <+: failure.path := by
  obtain ⟨place, hplace, reason, -, rfl⟩ := h.failures failure hmem
  exact h.below place hplace

/-- If what fails in a field is at it or below it, then the errors there are those for the field. No
error of another field is there, since output names are distinct. -/
theorem Response.errors_below {selected : List PlannedField} {completion : PlannedField → Completion}
    (hnames : (selected.map PlannedField.output).Nodup)
    (hbelow : ∀ field ∈ selected, ∀ failure ∈ (completion field).failures,
      [.field field.output] <+: failure.path) {field : PlannedField} (hmem : field ∈ selected) :
    (ofCompletions selected (selected.map completion)).errors.filter
        (fun error => [.field field.output] <+: error.path) =
      (completion field).failures.map .ofFailure := by
  obtain ⟨before, after, rfl⟩ := List.append_of_mem hmem
  rw [List.map_append, List.map_cons, List.nodup_middle, List.nodup_cons, ← List.map_append]
    at hnames
  let below (failure : Failure) : Bool := [.field field.output] <+: failure.path
  have hown : (completion field).failures.filter below = (completion field).failures :=
    List.filter_eq_self.mpr fun failure hfailure =>
      decide_eq_true (hbelow field hmem failure hfailure)
  have hothers : ∀ others : List PlannedField, others ⊆ before ++ after →
      others.flatMap (fun other => (completion other).failures.filter below) = [] := by
    intro others hothers
    refine List.flatMap_eq_nil_iff.mpr fun other hother => List.filter_eq_nil_iff.mpr ?_
    intro failure hfailure hon
    have hother := hothers hother
    have hstep : PathStep.field field.output ≠ .field other.output := by
      rw [Ne, PathStep.field.injEq]
      exact fun heq => hnames.1 (heq ▸ List.mem_map_of_mem hother)
    have hselected : other ∈ before ++ field :: after :=
      List.mem_append.mpr ((List.mem_append.mp hother).imp_right (List.mem_cons_of_mem field))
    exact @Path.not_prefix_of_ne [] _ _ _ _ hstep (List.prefix_refl _)
      (hbelow other hselected failure hfailure) (of_decide_eq_true hon)
  have hfailures : (Completion.allFailures ((before ++ field :: after).map completion)).filter below =
      (completion field).failures := by
    rw [Completion.allFailures, List.flatMap_map, List.filter_flatMap, List.flatMap_append,
      List.flatMap_cons, hown, hothers before (List.subset_append_left _ _),
      hothers after (List.subset_append_right _ _), List.nil_append, List.append_nil]
  rw [← hfailures, ofCompletions, Completion.object]
  exact List.filter_map

namespace Evaluation

variable {schema : Schema} {outcome : Inquiry → Outcome} {site : Executor.Site}
  {selected : List PlannedField} {path : Path} {nullable : Bool} {failure : Failure}

/-- What is selected of any object fails below it only. -/
theorem propagatesBelow_selected (hdistinct : PlannedField.DistinctOutputs selected) (name : String)
    (members : List (String × Json)) (path : Path) :
    PropagatesBelow schema path
      (objectPlaces schema outcome selected name (.object members) path)
      (object schema outcome selected name (.object members) path) :=
  propagatesBelow_object hdistinct.nodup fun below hbelow =>
    propagates_field below (hdistinct.inner below hbelow) name (.object members) path

/-- A failure of an object where one is wanted is below it: the object itself is there, so that only
its fields can fail. -/
theorem path_ne_of_object (hdistinct : PlannedField.DistinctOutputs selected) {name : String}
    (hleaf : schema.isLeaf name = false) {members : List (String × Json)}
    (hmem : failure ∈ (complete schema site (object schema outcome selected) (.named name nullable)
      (.object members) path).failures) : failure.path ≠ path := by
  rw [complete_object hleaf, Completion.failures_absorb] at hmem
  exact (propagatesBelow_selected hdistinct name members path).path_ne hmem

/-- A failure of a list where one is wanted is below it, at an item or in one, and no item has the
path of the list. -/
theorem path_ne_of_array (hsite : site.field ≠ PlannedField.typename)
    (hdistinct : PlannedField.DistinctOutputs selected) {item : TypeRef} {items : List Json}
    (hmem : failure ∈ (complete schema site (object schema outcome selected) (.list item nullable)
      (.array items) path).failures) : failure.path ≠ path := by
  rw [complete_array, Completion.failures_absorb] at hmem
  have hparts : ∀ part ∈ items.zipIdx, Propagates schema (path ++ [.index part.2]) _
      (complete schema site (object schema outcome selected) item part.1
        (path ++ [.index part.2])) :=
    fun part _ => propagates_complete hsite (propagatesBelow_selected hdistinct) item part.1 _
  exact PropagatesBelow.path_ne
    (Branching.gather ⟨nodup_indexSteps items, hparts⟩ (madeOf_list items _)) hmem

end Evaluation

namespace Feed

section

variable {outcome : Inquiry → Outcome} {field : PlannedField} {records : List Json} {fault : CatalogFault}

/-- A field whose request failed has nothing but this failure. Its type is required, so that the
failure is not absorbed. -/
theorem AsksFilms.field_error (h : AsksFilms outcome field (.error fault)) :
    Evaluation.field schema outcome "Query" (.object []) [] field =
      .failed ⟨.fault ⟨fault.message⟩, field.position, [.field field.output]⟩ := by
  have hrequired : field.type.nullable = false := by
    rcases h.type_eq with ⟨-, htype⟩ | ⟨-, htype⟩ <;> rw [htype] <;> rfl
  rw [h.field_eq, hrequired]
  rfl

/-- A field whose request brought films has no failure at its own place. Films come as a list for
`allFilms` and as an object otherwise, which is what the types of the two fields want. -/
theorem AsksFilms.path_ne (h : AsksFilms outcome field (.ok records))
    (hrecords : field.name ≠ "allFilms" → ∃ members, records = [.object members])
    (hdistinct : PlannedField.DistinctOutputs field.fields) {failure : Failure}
    (hmem : failure ∈ (Evaluation.field schema outcome "Query" (.object []) [] field).failures) :
    failure.path ≠ [.field field.output] := by
  rw [h.field_eq] at hmem
  rcases h.type_eq with ⟨hall, htype⟩ | ⟨hone, htype⟩
  · simp only [answered, hall, if_true, htype] at hmem
    have hsite : "allFilms" ≠ PlannedField.typename := by decide
    exact Evaluation.path_ne_of_array hsite hdistinct hmem
  · have hne : field.name ≠ "allFilms" := by rw [hone]; decide
    obtain ⟨members, rfl⟩ := hrecords hne
    simp only [answered, hne, if_false, htype] at hmem
    exact Evaluation.path_ne_of_object hdistinct rfl hmem

end

/-! ## Responses -/

section

variable {complain : String → Complaint} {catalog : Catalog} {depthLimit : Nat}
  {request : Request} {plan : Plan}
  {field : PlannedField} {films : FilmRequest} {fault : CatalogFault} {records : List Json}

/-- A catalog that has a single film has an object. -/
theorem object_of_records {sent : List Url} (hrequest : filmRequest? field = some films)
    (hrecords : catalog.records sent films = .ok records) (hname : field.name ≠ "allFilms") :
    ∃ members, records = [.object members] := by
  rw [filmRequest?, if_neg hname] at hrequest
  split at hrequest
  · obtain ⟨id, -, rfl⟩ := Option.map_eq_some_iff.mp hrequest
    obtain ⟨members, -, rfl⟩ := ok_of_map hrecords
    exact ⟨members, rfl⟩
  · cases hrequest

/-- The errors at a field of the root or below it are those of its evaluation in the state of its
turn (`answer_turns`), since the failures of each field are at or below its own place. -/
theorem errors_below (hplan : (engine complain catalog depthLimit).plan request = .ok plan)
    (hkind : plan.kind = .query) (hmem : field ∈ plan.fields) (state : FeedState) :
    (((engine complain catalog depthLimit).answer request).run state).1.errors.filter
        (fun error => [.field field.output] <+: error.path) =
      (Evaluation.field schema (outcomes catalog (state.atTurn catalog plan.fields field)).of "Query"
        (.object []) [] field).failures.map .ofFailure := by
  obtain ⟨hdistinct, -⟩ := declared_plan hplan (root_of_query hkind)
  rw [(answer_turns hplan hkind state).1]
  exact Response.errors_below hdistinct.nodup (fun other hother failure hfailure =>
    (Evaluation.propagates_field other (hdistinct.inner other hother) _ _ _).prefix_of_failure
      hfailure) hmem

/-- A request for films that failed leaves one error for its field, and no data. -/
theorem errors_of_fault (hplan : (engine complain catalog depthLimit).plan request = .ok plan)
    (hkind : plan.kind = .query) (hmem : field ∈ plan.fields)
    (hrequest : filmRequest? field = some films) {state : FeedState}
    (hfault : catalog.records (state.atTurn catalog plan.fields field).sent films = .error fault) :
    let response := (((engine complain catalog depthLimit).answer request).run state).1
    response.errors.filter (fun error => [.field field.output] <+: error.path) =
        [⟨fault.message, [field.position], [.field field.output]⟩] ∧
      response.data? = some .null := by
  have hasks := asksFilms_plan hplan hkind hmem hrequest catalog
    (state.atTurn catalog plan.fields field)
  rw [hfault] at hasks
  refine ⟨?_, ?_⟩
  · rw [errors_below hplan hkind hmem state, hasks.field_error]
    rfl
  · rw [(answer_turns hplan hkind state).1, Response.data?_ofCompletions_eq_null_iff]
    exact ⟨_, List.mem_map_of_mem hmem, by rw [hasks.field_error]; rfl⟩

/-- A request that brought films leaves no error at the place of its field. Errors there would be
among those of the field (`errors_below`), and these are below it (`AsksFilms.path_ne`). -/
theorem path_ne_of_records (hplan : (engine complain catalog depthLimit).plan request = .ok plan)
    (hkind : plan.kind = .query) (hmem : field ∈ plan.fields)
    (hrequest : filmRequest? field = some films) {state : FeedState}
    (hrecords : catalog.records (state.atTurn catalog plan.fields field).sent films = .ok records) :
    ∀ error ∈ (((engine complain catalog depthLimit).answer request).run state).1.errors,
      error.path ≠ [.field field.output] := by
  intro error herror hpath
  have hon : [PathStep.field field.output] <+: error.path := hpath.symm ▸ List.prefix_refl _
  have hbelow : error ∈ List.filter (fun error => [.field field.output] <+: error.path) _ :=
    List.mem_filter.mpr ⟨herror, decide_eq_true hon⟩
  rw [errors_below hplan hkind hmem state] at hbelow
  obtain ⟨failure, hfailure, rfl⟩ := List.mem_map.mp hbelow
  have hasks := asksFilms_plan hplan hkind hmem hrequest catalog
    (state.atTurn catalog plan.fields field)
  rw [hrecords] at hasks
  obtain ⟨hdistinct, -⟩ := declared_plan hplan (root_of_query hkind)
  exact hasks.path_ne (object_of_records hrequest hrecords) (hdistinct.inner field hmem) hfailure
    hpath

end

/-- What a request to the catalog comes to follows from the exchange, whatever was sent before: the
films that it brings, as they were sent, or the first fault of all that is wrong with it. In the
response to a query, a field whose request failed has exactly one error at or below its place, and
this has the message of the fault, with the words of whoever carried the exchange or reads JSON in
it; and a field whose request brought films has none at its place. What comes of the request of a
field depends on what was sent before the field's turn (`FeedState.atTurn`). -/
theorem answer_outages (catalog : Catalog) :
    (∀ sent limit timeout? url, catalog.url (.list limit) = .ok url →
      (catalog.exchange sent url timeout?).Classified catalog.complaint "movies" Json.array "a list"
        (catalog.films sent limit timeout?)) ∧
    (∀ sent id timeout? url, catalog.url (.details id) = .ok url →
      (catalog.exchange sent url timeout?).Classified catalog.complaint "movie" Json.object
        "an object" (catalog.film sent id timeout?)) ∧
    ∀ complain depthLimit request plan,
      (engine complain catalog depthLimit).plan request = .ok plan → plan.kind = .query →
        ∀ field ∈ plan.fields, ∀ films, filmRequest? field = some films → ∀ state,
          let response := (((engine complain catalog depthLimit).answer request).run state).1
          let sent := (state.atTurn catalog plan.fields field).sent
          (∀ fault, catalog.records sent films = .error fault →
            response.errors.filter (fun error => [.field field.output] <+: error.path) =
                [⟨fault.message, [field.position], [.field field.output]⟩] ∧
              response.data? = some .null) ∧
          ∀ records, catalog.records sent films = .ok records →
            ∀ error ∈ response.errors, error.path ≠ [.field field.output] := by
  refine ⟨fun sent limit timeout? url hurl => ?_, fun sent id timeout? url hurl => ?_, ?_⟩
  · rw [Catalog.films, Catalog.ask, hurl]
    exact Exchange.classified_films _ _
  · rw [Catalog.film, Catalog.ask, hurl]
    exact Exchange.classified_film _ _
  · intro complain depthLimit request plan hplan hkind field hmem films hrequest state
    exact ⟨fun fault hfault => errors_of_fault hplan hkind hmem hrequest hfault,
      fun records hrecords => path_ne_of_records hplan hkind hmem hrequest hrecords⟩

end Feed

namespace Cinema

/-- A catalog that refuses to list its films, though it sends a list, and sends single ones, each of
them with another one under the same name before it. -/
def closed : Catalog where
  exchange := fun _ url _ =>
    if url.path = .segments ["api", "list_movies.json"] then
      .answered 503 "\x7b\"data\": \x7b\"movies\": []\x7d\x7d".toUTF8
    else
      .answered 200 "\x7b\"data\": \x7b\"movie\": [], \"movie\": \x7b\x7d\x7d\x7d".toUTF8
  complaint := fun _ => "not JSON"
  base := ⟨"http", some "[::1]:8080", .segments ["api", ""], none, none⟩
  timeout? := none

/-- An address that is asked for. -/
def address (resource query : String) : Url :=
  ⟨"http", some "[::1]:8080", .segments ["api", resource], some query, none⟩

theorem url_list : closed.url (.list 10) = .ok (address "list_movies.json" "limit=10") := by
  decide +kernel

theorem url_details : closed.url (.details "7") = .ok (address "movie_details.json" "movie_id=7") := by
  decide +kernel

/-- The single film is there whatever was sent before, since this makes no difference to this
catalog. -/
theorem exists_film : ∃ members, ∀ sent, closed.film sent "7" none = .ok members := by
  have hsome : (closed.film [] "7" none).toOption.isSome = true := by decide +kernel
  cases h : closed.film [] "7" none with
  | error fault => rw [h] at hsome; cases hsome
  | ok members => exact ⟨members, fun _ => h⟩

/-- The list is refused and the single film is not, and the response says so. The general theorem is
applied to both fields of one request. -/
theorem closed_outages : ∃ plan, (Feed.engine .plain closed 16).plan request = .ok plan ∧
    plan.kind = .query ∧ plan.fields.map Feed.filmRequest? = films ∧
    (∀ sent, closed.films sent 10 none = .error (.status 503)) ∧
    (∃ members, ∀ sent, closed.film sent "7" none = .ok members ∧
      (closed.exchange sent (address "movie_details.json" "movie_id=7") none).Brings "movie"
        (.object members)) ∧
    ∀ state, ∀ field ∈ plan.fields,
      let response := (((Feed.engine .plain closed 16).answer request).run state).1
      (Feed.filmRequest? field = some (.list 10) →
        response.errors.filter (fun error => [.field field.output] <+: error.path) =
            [⟨"The film catalog responded with status 503", [field.position],
              [.field field.output]⟩] ∧
          response.data? = some .null) ∧
      (Feed.filmRequest? field = some (.details "7") →
        ∀ error ∈ response.errors, error.path ≠ [.field field.output]) := by
  obtain ⟨plan, hplan, h⟩ := Engine.exists_plan accepted
  rw [decide_eq_true_iff] at h
  obtain ⟨hkind, hasked, -⟩ := h
  obtain ⟨hlist, hdetails, hresponse⟩ := Feed.answer_outages closed
  have hrefused : ∀ sent, closed.films sent 10 none = .error (.status 503) := by
    intro sent
    refine ((hlist sent 10 none _ url_list).error_iff (.status 503)).mpr ⟨.status (by decide), ?_⟩
    intro other hother
    cases hother <;> exact Nat.le_of_ble_eq_true rfl
  obtain ⟨members, hfilm⟩ := exists_film
  have hbrings := fun sent => ((hdetails sent "7" none _ url_details).ok_iff members).mp (hfilm sent)
  have hrecords : ∀ sent, closed.records sent (.details "7") = .ok [.object members] := by
    intro sent
    change (closed.film sent "7" none).map _ = _
    rw [hfilm]
    rfl
  refine ⟨plan, hplan, hkind, hasked, hrefused, ⟨members, fun sent => ⟨hfilm sent, hbrings sent⟩⟩,
    fun state field hmem => ?_⟩
  have hfield := fun films hrequest =>
    hresponse .plain 16 request plan hplan hkind field hmem films hrequest state
  exact ⟨fun hrequest => (hfield _ hrequest).1 _ (hrefused _),
    fun hrequest => (hfield _ hrequest).2 _ (hrecords _)⟩

end Cinema

end FeedGraph

import FeedGraph.Document.Value

/-!
# Variables: which ones a literal contains

`Literal.variableNames` lists them. A literal in which all variables have values contains none once
these are put in their places (`Literal.variableNames_bind`), and a value contains none as a literal
(`Value.variableNames_toLiteral`).

`Literal.structural` and `Value.structural` are inductions that do not treat the items of a list and
the members of an object as lists of their own.
-/

namespace FeedGraph

namespace Literal

/-- Induction on literals: what holds of a list if it holds of the items, and of an object if it
holds of the members. The recursor asks for motives of lists of items and of lists of members. -/
theorem structural {motive : Literal → Prop} (unbound : ∀ name, motive (.variable name))
    (null : motive .null) (number : ∀ n, motive (.number n)) (string : ∀ s, motive (.string s))
    (boolean : ∀ b, motive (.boolean b)) (enumeration : ∀ name, motive (.enumeration name))
    (list : ∀ items, (∀ item ∈ items, motive item) → motive (.list items))
    (object : ∀ members : List (String × Literal), (∀ member ∈ members, motive member.2) →
      motive (.object members))
    (literal : Literal) : motive literal :=
  @Literal.rec motive (fun items => ∀ item ∈ items, motive item)
    (fun members => ∀ member ∈ members, motive member.2) (fun member => motive member.2)
    unbound null number string boolean enumeration list object
    (fun _ hmem => absurd hmem List.not_mem_nil)
    (fun _ _ hitem hrest => List.forall_mem_cons.mpr ⟨hitem, hrest⟩)
    (fun _ hmem => absurd hmem List.not_mem_nil)
    (fun _ _ hmember hrest => List.forall_mem_cons.mpr ⟨hmember, hrest⟩)
    (fun _ _ hliteral => hliteral) literal

/-! ## The variables of a literal -/

mutual

/-- The names of the variables in a literal, in order. -/
def variableNames : Literal → List String
  | .variable name => [name]
  | .list items => itemVariableNames items
  | .object members => memberVariableNames members
  | _ => []

def itemVariableNames : List Literal → List String
  | [] => []
  | item :: rest => item.variableNames ++ itemVariableNames rest

def memberVariableNames : List (String × Literal) → List String
  | [] => []
  | (_, literal) :: rest => literal.variableNames ++ memberVariableNames rest

end

theorem variableNames_list (items : List Literal) :
    (list items).variableNames = items.flatMap variableNames := by
  rw [variableNames]
  induction items with
  | nil => rfl
  | cons item rest ih => rw [itemVariableNames, ih, List.flatMap_cons]

theorem variableNames_object (members : List (String × Literal)) :
    (object members).variableNames = members.flatMap fun member => member.2.variableNames := by
  rw [variableNames]
  induction members with
  | nil => rfl
  | cons member rest ih => rw [memberVariableNames, ih, List.flatMap_cons]

theorem variableNames_item {items : List Literal} (h : (list items).variableNames = []) :
    ∀ item ∈ items, item.variableNames = [] := by
  rw [variableNames_list] at h
  exact List.flatMap_eq_nil_iff.mp h

theorem variableNames_member {members : List (String × Literal)} (h : (object members).variableNames = []) :
    ∀ member ∈ members, member.2.variableNames = [] := by
  rw [variableNames_object] at h
  exact List.flatMap_eq_nil_iff.mp h

/-- A literal without variables is none. -/
theorem ne_variable {literal : Literal} (h : literal.variableNames = []) (name : String) :
    literal ≠ .variable name := by
  rintro rfl
  cases h

end Literal

/-! ## Values -/

namespace Value

/-- Induction on values, in the same way. -/
theorem structural {motive : Value → Prop} (null : motive .null) (boolean : ∀ b, motive (.boolean b))
    (number : ∀ n, motive (.number n)) (string : ∀ s, motive (.string s))
    (enumeration : ∀ name, motive (.enumeration name))
    (list : ∀ items, (∀ item ∈ items, motive item) → motive (.list items))
    (object : ∀ members : List (String × Value), (∀ member ∈ members, motive member.2) →
      motive (.object members))
    (value : Value) : motive value :=
  @Value.rec motive (fun items => ∀ item ∈ items, motive item)
    (fun members => ∀ member ∈ members, motive member.2) (fun member => motive member.2)
    null boolean number string enumeration list object
    (fun _ hmem => absurd hmem List.not_mem_nil)
    (fun _ _ hitem hrest => List.forall_mem_cons.mpr ⟨hitem, hrest⟩)
    (fun _ hmem => absurd hmem List.not_mem_nil)
    (fun _ _ hmember hrest => List.forall_mem_cons.mpr ⟨hmember, hrest⟩)
    (fun _ _ hvalue => hvalue) value

theorem toLiterals_eq_map (items : List Value) : toLiterals items = items.map toLiteral := by
  induction items with
  | nil => rfl
  | cons item rest ih => rw [toLiterals, ih, List.map_cons]

theorem toLiteralMembers_eq_map (members : List (String × Value)) :
    toLiteralMembers members = members.map fun member => (member.1, member.2.toLiteral) := by
  induction members with
  | nil => rfl
  | cons member rest ih => rw [toLiteralMembers, ih, List.map_cons]

/-- There is no constructor of `Value` for variables. -/
@[simp] theorem variableNames_toLiteral (value : Value) : value.toLiteral.variableNames = [] := by
  induction value using structural with
  | list items ih =>
    rw [toLiteral, toLiterals_eq_map, Literal.variableNames_list, List.flatMap_map]
    exact List.flatMap_eq_nil_iff.mpr ih
  | object members ih =>
    rw [toLiteral, toLiteralMembers_eq_map, Literal.variableNames_object, List.flatMap_map]
    exact List.flatMap_eq_nil_iff.mpr ih
  | _ => rfl

end Value

/-! ## Binding -/

namespace Literal

variable {bindings : Members Value}

theorem bindItems_eq_map (items : List Literal) :
    bindItems bindings items = items.map (bind bindings) := by
  induction items with
  | nil => rfl
  | cons item rest ih => rw [bindItems, ih, List.map_cons]

theorem bindMembers_eq_map (members : List (String × Literal)) :
    bindMembers bindings members = members.map fun member => (member.1, bind bindings member.2) := by
  induction members with
  | nil => rfl
  | cons member rest ih => rw [bindMembers, ih, List.map_cons]

/-- All variables in a literal have values. -/
def Bound (bindings : Members Value) (literal : Literal) : Prop :=
  ∀ name ∈ literal.variableNames, Members.has bindings name = true

instance (literal : Literal) : Decidable (Bound bindings literal) :=
  inferInstanceAs (Decidable (∀ name ∈ literal.variableNames, Members.has bindings name = true))

/-- Where all variables have values, none is left, as values have none themselves. -/
theorem variableNames_bind {literal : Literal} (h : literal.Bound bindings) :
    (literal.bind bindings).variableNames = [] := by
  induction literal using structural with
  | unbound name =>
    obtain ⟨value, hvalue⟩ := Option.isSome_iff_exists.mp (h name List.mem_cons_self)
    rw [bind, hvalue]
    exact value.variableNames_toLiteral
  | list items ih =>
    rw [bind, bindItems_eq_map, variableNames_list, List.flatMap_map]
    refine List.flatMap_eq_nil_iff.mpr fun item hitem => ih item hitem fun name hname => h name ?_
    rw [variableNames_list]
    exact List.mem_flatMap_of_mem hitem hname
  | object members ih =>
    rw [bind, bindMembers_eq_map, variableNames_object, List.flatMap_map]
    refine List.flatMap_eq_nil_iff.mpr fun member hmember =>
      ih member hmember fun name hname => h name ?_
    rw [variableNames_object]
    exact List.mem_flatMap_of_mem hmember hname
  | _ => rfl

end Literal

end FeedGraph

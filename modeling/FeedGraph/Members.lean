/-!
# Members: ordered name–value pairs

Objects, argument lists and input objects are all finite maps whose order shows in the answer. They
are kept as lists of pairs in the order in which the names first came up. Writing a name that is
already there replaces its value and leaves its place.

The view of such a list is `Members.get?`; each operation comes with the lemma that says what it
does to that view.
-/

namespace FeedGraph

universe u v

/-- Name–value pairs, in the order in which the names first came up. Nothing in the type keeps names
different; `set` and `ofPairs` do. -/
abbrev Members (α : Type u) := List (String × α)

namespace Members

variable {α : Type u} {β : Type v}

/-- The value under the first pair with the given name. -/
def get? : Members α → String → Option α
  | [], _ => none
  | (key, value) :: rest, name => if key = name then some value else get? rest name

/-- Writes a value under a name: in the place of that name if there is one, else at the end. -/
def set : Members α → String → α → Members α
  | [], name, value => [(name, value)]
  | (key, old) :: rest, name, value =>
    if key = name then (key, value) :: rest else (key, old) :: set rest name value

def erase : Members α → String → Members α
  | [], _ => []
  | (key, value) :: rest, name => if key = name then rest else (key, value) :: erase rest name

/-- Reads pairs one after the other; a repeated name keeps its first place and its last value. -/
def ofPairs (pairs : List (String × α)) : Members α :=
  pairs.foldl (fun members pair => set members pair.1 pair.2) []

def names (members : Members α) : List String := members.map (·.1)

def has (members : Members α) (name : String) : Bool := (get? members name).isSome

/-! ## What each operation does to the view -/

@[simp] theorem get?_nil (name : String) : get? ([] : Members α) name = none := rfl

theorem get?_cons (key : String) (value : α) (rest : Members α) (name : String) :
    get? ((key, value) :: rest) name = if key = name then some value else get? rest name := rfl

@[simp] theorem get?_set_self (members : Members α) (name : String) (value : α) :
    get? (set members name value) name = some value := by
  induction members with
  | nil => simp [set, get?]
  | cons pair rest ih =>
    obtain ⟨key, old⟩ := pair
    by_cases h : key = name <;> simp [set, get?, h, ih]

theorem get?_set_of_ne (members : Members α) {name other : String} (value : α)
    (h : name ≠ other) : get? (set members name value) other = get? members other := by
  induction members with
  | nil => simp [set, get?, h]
  | cons pair rest ih =>
    obtain ⟨key, old⟩ := pair
    by_cases hk : key = name
    · subst hk
      simp [set, get?, h]
    · simp only [set, hk, if_false, get?_cons, ih]

theorem names_set_of_mem (members : Members α) {name : String} (value : α)
    (h : name ∈ names members) : names (set members name value) = names members := by
  induction members with
  | nil => simp [names] at h
  | cons pair rest ih =>
    obtain ⟨key, old⟩ := pair
    by_cases hk : key = name
    · simp [set, names, hk]
    · have hr : name ∈ names rest := by simpa [names, Ne.symm hk] using h
      have := ih hr
      simp only [names] at this ⊢
      simp [set, hk, this]

theorem set_of_not_mem (members : Members α) {name : String} (value : α)
    (h : name ∉ names members) : set members name value = members ++ [(name, value)] := by
  induction members with
  | nil => rfl
  | cons pair rest ih =>
    obtain ⟨key, old⟩ := pair
    have hk : key ≠ name := fun e => h (by simp [names, e])
    have hr : name ∉ names rest := fun m => h (by simp [names] at m ⊢; exact Or.inr m)
    simp [set, hk, ih hr]

theorem get?_erase_of_ne (members : Members α) {name other : String} (h : name ≠ other) :
    get? (erase members name) other = get? members other := by
  induction members with
  | nil => rfl
  | cons pair rest ih =>
    obtain ⟨key, value⟩ := pair
    by_cases hk : key = name
    · subst hk
      rw [erase, if_pos rfl, get?_cons, if_neg h]
    · rw [erase, if_neg hk, get?_cons, get?_cons, ih]

/-- Writing keeps names different: a name that is there is not added, and a new one differs from all
that are there. -/
theorem nodup_names_set {members : Members α} (name : String) (value : α)
    (h : (names members).Nodup) : (names (set members name value)).Nodup := by
  by_cases hm : name ∈ names members
  · rw [names_set_of_mem members value hm]
    exact h
  · rw [set_of_not_mem members value hm, names, List.map_append, List.nodup_append]
    refine ⟨h, by simp, ?_⟩
    intro first hf last hl heq
    rw [List.map_cons, List.map_nil, List.mem_singleton] at hl
    rw [heq, hl] at hf
    exact hm hf

theorem nodup_names_ofPairs (pairs : List (String × α)) : (names (ofPairs pairs)).Nodup := by
  have from_members : ∀ members : Members α, (names members).Nodup →
      (names (pairs.foldl (fun members pair => set members pair.1 pair.2) members)).Nodup := by
    induction pairs with
    | nil => exact fun _ h => h
    | cons pair rest ih => exact fun members h => ih _ (nodup_names_set pair.1 pair.2 h)
  exact from_members [] List.nodup_nil

theorem ofPairs_of_nodup {pairs : List (String × α)} (h : (names pairs).Nodup) :
    ofPairs pairs = pairs := by
  have from_members : ∀ members : Members α, (names (members ++ pairs)).Nodup →
      pairs.foldl (fun members pair => set members pair.1 pair.2) members = members ++ pairs := by
    clear h
    induction pairs with
    | nil => exact fun members _ => (List.append_nil members).symm
    | cons pair rest ih =>
      intro members h
      have hnew : pair.1 ∉ names members := by
        rw [names, List.map_append, List.nodup_append] at h
        exact fun hmem => h.2.2 pair.1 hmem pair.1 List.mem_cons_self rfl
      rw [List.foldl_cons, set_of_not_mem members pair.2 hnew]
      have heq : members ++ pair :: rest = (members ++ [(pair.1, pair.2)]) ++ rest := by simp
      rw [heq] at h ⊢
      exact ih _ h
  exact from_members [] h

/-! ## Where pairs come from -/

theorem mem_of_get? {members : Members α} {name : String} {value : α}
    (h : get? members name = some value) : (name, value) ∈ members := by
  induction members with
  | nil => cases h
  | cons pair rest ih =>
    obtain ⟨key, old⟩ := pair
    rw [get?_cons] at h
    by_cases hk : key = name
    · rw [if_pos hk, Option.some.injEq] at h
      rw [hk, h]
      exact List.mem_cons_self
    · rw [if_neg hk] at h
      exact List.mem_cons_of_mem _ (ih h)

/-- Where each name comes once, a value is found under its name. With `mem_of_get?`, finding is
being one of the pairs. -/
theorem get?_of_mem {members : Members α} (h : (names members).Nodup) {name : String} {value : α}
    (hmem : (name, value) ∈ members) : get? members name = some value := by
  induction members with
  | nil => cases hmem
  | cons pair rest ih =>
    obtain ⟨key, old⟩ := pair
    obtain ⟨hkey, hrest⟩ := List.nodup_cons.mp h
    rw [get?_cons]
    rcases List.mem_cons.mp hmem with heq | hmem
    · obtain ⟨rfl, rfl⟩ := Prod.mk.inj heq
      exact if_pos rfl
    · have hne : key ≠ name := by
        rintro rfl
        exact hkey (List.mem_map.mpr ⟨_, hmem, rfl⟩)
      rw [if_neg hne, ih hrest hmem]

theorem mem_set {members : Members α} {name : String} {value : α} {pair : String × α}
    (h : pair ∈ set members name value) : pair = (name, value) ∨ pair ∈ members := by
  induction members with
  | nil => exact Or.inl (List.mem_singleton.mp h)
  | cons first rest ih =>
    obtain ⟨key, old⟩ := first
    by_cases hk : key = name
    · rw [set, if_pos hk, hk] at h
      exact (List.mem_cons.mp h).imp_right (List.mem_cons_of_mem _)
    · rw [set, if_neg hk] at h
      rcases List.mem_cons.mp h with rfl | h
      · exact Or.inr List.mem_cons_self
      · exact (ih h).imp_right (List.mem_cons_of_mem _)

theorem mem_of_mem_erase {members : Members α} {name : String} {pair : String × α}
    (h : pair ∈ erase members name) : pair ∈ members := by
  induction members with
  | nil => exact h
  | cons first rest ih =>
    obtain ⟨key, old⟩ := first
    by_cases hk : key = name
    · rw [erase, if_pos hk] at h
      exact List.mem_cons_of_mem _ h
    · rw [erase, if_neg hk] at h
      rcases List.mem_cons.mp h with rfl | h
      · exact List.mem_cons_self
      · exact List.mem_cons_of_mem _ (ih h)

theorem mem_of_mem_ofPairs {pairs : List (String × α)} {pair : String × α}
    (h : pair ∈ ofPairs pairs) : pair ∈ pairs := by
  have from_members : ∀ members : Members α,
      pair ∈ pairs.foldl (fun members pair => set members pair.1 pair.2) members →
        pair ∈ members ∨ pair ∈ pairs := by
    clear h
    induction pairs with
    | nil => exact fun _ h => Or.inl h
    | cons first rest ih =>
      intro members h
      rcases ih _ h with h | h
      · rcases mem_set h with rfl | h
        · exact Or.inr List.mem_cons_self
        · exact Or.inl h
      · exact Or.inr (List.mem_cons_of_mem _ h)
  exact (from_members [] h).resolve_left List.not_mem_nil

theorem get?_isSome_iff (members : Members α) (name : String) :
    (get? members name).isSome ↔ name ∈ names members := by
  induction members with
  | nil => simp [names]
  | cons pair rest ih =>
    obtain ⟨key, value⟩ := pair
    by_cases h : key = name
    · simp [get?, names, h]
    · have h' : name ≠ key := fun e => h e.symm
      simp only [names] at ih
      simp [get?, names, h, h', ih]

/-- What is left of pairs of which some names are kept. -/
theorem get?_filter (keep : String → Bool) (members : Members α) (name : String) :
    get? (members.filter fun pair => keep pair.1) name =
      if keep name then get? members name else none := by
  induction members with
  | nil => simp
  | cons pair rest ih =>
    obtain ⟨key, value⟩ := pair
    rw [List.filter_cons]
    by_cases hkey : key = name
    · subst hkey
      by_cases hkeep : keep key = true <;> simp [hkeep, get?_cons, ih]
    · by_cases hkeep : keep key = true <;> simp [hkeep, hkey, get?_cons, ih]

/-- The value that is read under a name is the last one given for it. -/
theorem get?_ofPairs (pairs : List (String × α)) (name : String) :
    get? (ofPairs pairs) name = (pairs.filter (·.1 = name)).getLast?.map (·.2) := by
  have from_members : ∀ members : Members α,
      get? (pairs.foldl (fun members pair => set members pair.1 pair.2) members) name =
        ((pairs.filter (·.1 = name)).getLast?.map (·.2)).or (get? members name) := by
    induction pairs with
    | nil => exact fun _ => rfl
    | cons pair rest ih =>
      intro members
      rw [List.foldl_cons, ih]
      by_cases h : pair.1 = name
      · rw [List.filter_cons_of_pos (by simpa using h), List.getLast?_cons, ← h, get?_set_self]
        cases (rest.filter (·.1 = pair.1)).getLast? <;> rfl
      · rw [List.filter_cons_of_neg (by simpa using h), get?_set_of_ne members pair.2 h]
  rw [ofPairs, from_members, get?_nil, Option.or_none]

theorem mem_names_ofPairs {pairs : List (String × α)} {name : String} :
    name ∈ names (ofPairs pairs) ↔ name ∈ names pairs := by
  rw [← get?_isSome_iff, get?_ofPairs, Option.isSome_map, List.getLast?_isSome]
  simp [names, List.filter_eq_nil_iff]

/-- Where each name comes once, dropping one leaves the pairs with other names. -/
theorem erase_eq_filter {members : Members α} (h : (names members).Nodup) (name : String) :
    erase members name = members.filter (·.1 ≠ name) := by
  induction members with
  | nil => rfl
  | cons pair rest ih =>
    obtain ⟨key, value⟩ := pair
    obtain ⟨hkey, hrest⟩ := List.nodup_cons.mp h
    by_cases hk : key = name
    · subst hk
      rw [erase, if_pos rfl, List.filter_cons_of_neg (by simp)]
      refine (List.filter_eq_self.mpr fun other hother => ?_).symm
      have hne : other.1 ≠ key := fun he => hkey (List.mem_map.mpr ⟨other, hother, he⟩)
      simpa using hne
    · rw [erase, if_neg hk, List.filter_cons_of_pos (by simpa using hk), ih hrest]

theorem get?_erase_self {members : Members α} (h : (names members).Nodup) (name : String) :
    get? (erase members name) name = none := by
  cases hget : get? (erase members name) name with
  | none => rfl
  | some value =>
    have hmem := mem_of_get? hget
    rw [erase_eq_filter h] at hmem
    exact absurd rfl (of_decide_eq_true (List.mem_filter.mp hmem).2)

/-! ## Other values under the same names -/

theorem get?_map (f : α → β) (members : Members α) (name : String) :
    get? (members.map fun member => (member.1, f member.2)) name = (get? members name).map f := by
  induction members with
  | nil => rfl
  | cons member rest ih =>
    by_cases hk : member.1 = name <;> simp [get?, hk, ih]

theorem erase_map (f : α → β) (members : Members α) (name : String) :
    erase (members.map fun member => (member.1, f member.2)) name =
      (erase members name).map fun member => (member.1, f member.2) := by
  induction members with
  | nil => rfl
  | cons member rest ih =>
    by_cases hk : member.1 = name <;> simp [erase, hk, ih]

theorem set_map (f : α → β) (members : Members α) (name : String) (value : α) :
    set (members.map fun member => (member.1, f member.2)) name (f value) =
      (set members name value).map fun member => (member.1, f member.2) := by
  induction members with
  | nil => rfl
  | cons member rest ih =>
    by_cases hk : member.1 = name <;> simp [set, hk, ih]

theorem ofPairs_map (f : α → β) (pairs : List (String × α)) :
    ofPairs (pairs.map fun pair => (pair.1, f pair.2)) =
      (ofPairs pairs).map fun pair => (pair.1, f pair.2) := by
  have from_members : ∀ members : Members α,
      (pairs.map fun pair => (pair.1, f pair.2)).foldl
          (fun members pair => set members pair.1 pair.2)
          (members.map fun member => (member.1, f member.2)) =
        (pairs.foldl (fun members pair => set members pair.1 pair.2) members).map fun pair =>
          (pair.1, f pair.2) := by
    induction pairs with
    | nil => exact fun _ => rfl
    | cons pair rest ih =>
      intro members
      rw [List.map_cons, List.foldl_cons, List.foldl_cons, set_map]
      exact ih _
  exact from_members []

end Members

end FeedGraph

import Mathlib.Data.List.Forall2
import Mathlib.Data.List.Perm.Subperm
import FeedGraph.Proofs.Document.Variables

/-!
# Equality: values that are equal

Values are equal part by part. The members of an object may stand in any order, and the two zeros
among the doubles are one number, so that equal values need not be the same.

On values without repeated names, which are what objects can hold (`Value.keyed`), this is an
equivalence: `Value.same_refl`, `Value.same_symm` and `Value.same_trans`, and the same of lists of
members.
-/

namespace FeedGraph

namespace Binary64

variable {x y z : Binary64}

theorem same_iff : x.same y = true ↔ (x.isZero = true ∧ y.isZero = true) ∨ x = y := by
  rw [same, Bool.or_eq_true, Bool.and_eq_true, decide_eq_true_iff]

theorem same_symm (h : x.same y = true) : y.same x = true := by
  rw [same_iff] at h ⊢
  exact h.imp And.symm Eq.symm

theorem same_trans (h : x.same y = true) (h' : y.same z = true) : x.same z = true := by
  rw [same_iff] at h h' ⊢
  rcases h with ⟨hx, hy⟩ | rfl
  · rcases h' with ⟨-, hz⟩ | rfl
    · exact .inl ⟨hx, hz⟩
    · exact .inl ⟨hx, hy⟩
  · exact h'

end Binary64

namespace Value

namespace Number

variable {n m k : Number}

theorem same_symm (h : n.same m = true) : m.same n = true := by
  cases n <;> cases m <;> simp only [same, decide_eq_true_iff, Bool.false_eq_true] at h ⊢
  · exact h.symm
  · exact h.symm
  · exact Binary64.same_symm h

theorem same_trans (h : n.same m = true) (h' : m.same k = true) : n.same k = true := by
  cases n <;> cases m <;> simp only [same, decide_eq_true_iff, Bool.false_eq_true] at h
  all_goals
    cases k <;> simp only [same, decide_eq_true_iff, Bool.false_eq_true] at h' ⊢
  · exact h.trans h'
  · exact h.trans h'
  · exact Binary64.same_trans h h'

end Number

mutual

/-- Whether in every object inside a value each name comes once. Objects are lists of members here,
of which `Value.same` looks up one for each name; with repeated names, a value need not even be
equal to itself. -/
def keyed : Value → Bool
  | .list items => keyedItems items
  | .object members => decide (Members.names members).Nodup && keyedMembers members
  | _ => true

def keyedItems : List Value → Bool
  | [] => true
  | item :: rest => item.keyed && keyedItems rest

def keyedMembers : List (String × Value) → Bool
  | [] => true
  | (_, value) :: rest => value.keyed && keyedMembers rest

end

theorem keyed_list {items : List Value} :
    (list items).keyed = true ↔ ∀ item ∈ items, item.keyed = true := by
  rw [keyed]
  induction items with
  | nil => simp [keyedItems]
  | cons item rest ih => rw [keyedItems, Bool.and_eq_true, ih, List.forall_mem_cons]

theorem keyed_object {members : List (String × Value)} :
    (object members).keyed = true ↔
      (Members.names members).Nodup ∧ ∀ member ∈ members, member.2.keyed = true := by
  rw [keyed, Bool.and_eq_true, decide_eq_true_iff]
  refine and_congr_right fun hdistinct => ?_
  clear hdistinct
  induction members with
  | nil => simp [keyedMembers]
  | cons member rest ih => rw [keyedMembers, Bool.and_eq_true, ih, List.forall_mem_cons]

/-! ## Part by part -/

theorem sameItems_iff {as bs : List Value} :
    sameItems as bs = true ↔ List.Forall₂ (fun a b => a.same b = true) as bs := by
  induction as generalizing bs with
  | nil => cases bs <;> simp [sameItems]
  | cons a rest ih =>
    cases bs with
    | nil => simp [sameItems]
    | cons b others => rw [sameItems, Bool.and_eq_true, ih, List.forall₂_cons]

theorem sameMembers_iff {as bs : Members Value} :
    sameMembers as bs = true ↔
      ∀ member ∈ as, ∃ b, Members.get? bs member.1 = some b ∧ member.2.same b = true := by
  induction as with
  | nil => simp [sameMembers]
  | cons member rest ih =>
    obtain ⟨name, a⟩ := member
    rw [sameMembers, Bool.and_eq_true, ih, List.forall_mem_cons]
    cases Members.get? bs name <;> simp

/-- As many members, each with an equal one of its name. It is not symmetric in its form;
`same_symm` says that it is in effect. -/
theorem sameObject_iff {as bs : Members Value} :
    sameObject as bs = true ↔ as.length = bs.length ∧
      ∀ member ∈ as, ∃ b, Members.get? bs member.1 = some b ∧ member.2.same b = true := by
  rw [sameObject, Bool.and_eq_true, decide_eq_true_iff, sameMembers_iff]

theorem same_object {as bs : Members Value} : (object as).same (object bs) = sameObject as bs := by
  rw [same, sameObject]

/-! ## An equivalence -/

/-- As many different names, all of them among others, are the others: from inclusion and equal
lengths, the other inclusion. -/
theorem mem_names_of_length {as bs : Members Value} (hdistinct : (Members.names as).Nodup)
    (hlength : as.length = bs.length)
    (hsub : ∀ member ∈ as, ∃ b, Members.get? bs member.1 = some b ∧ member.2.same b = true) :
    Members.names bs ⊆ Members.names as := by
  have hnames : Members.names as ⊆ Members.names bs := by
    intro name hname
    obtain ⟨member, hmem, rfl⟩ := List.mem_map.mp hname
    obtain ⟨b, hb, -⟩ := hsub member hmem
    rw [← Members.get?_isSome_iff, hb]
    rfl
  have hle : (Members.names bs).length ≤ (Members.names as).length := by
    simp [Members.names, hlength]
  have hperm := (List.subperm_of_subset hdistinct hnames).perm_of_length_le hle
  exact hperm.symm.subset

theorem same_refl {value : Value} (h : value.keyed = true) : value.same value = true := by
  induction value using Value.structural with
  | list items ih =>
    rw [same, sameItems_iff, List.forall₂_same]
    exact fun item hmem => ih item hmem (keyed_list.mp h item hmem)
  | object members ih =>
    obtain ⟨hdistinct, hmembers⟩ := keyed_object.mp h
    rw [same_object, sameObject_iff]
    refine ⟨rfl, fun member hmem => ⟨member.2, ?_, ih member hmem (hmembers member hmem)⟩⟩
    exact Members.get?_of_mem hdistinct hmem
  | number n => cases n <;> simp [same, Number.same]
  | _ => simp [same]

/-- The induction is on the first value. For objects it needs `mem_names_of_length`, to have a
member for each member of the other one. -/
theorem same_symm {a b : Value} (ha : a.keyed = true) (hb : b.keyed = true)
    (h : a.same b = true) : b.same a = true := by
  induction a using Value.structural generalizing b with
  | list items ih =>
    cases b with
    | list others =>
      rw [same, sameItems_iff] at h ⊢
      rw [keyed_list] at ha hb
      induction h with
      | nil => exact .nil
      | @cons item other items others hitem _ ih' =>
        rw [List.forall_mem_cons] at ha hb ih
        exact .cons (ih.1 ha.1 hb.1 hitem) (ih' ih.2 ha.2 hb.2)
    | _ => simp [same] at h
  | object as ih =>
    cases b with
    | object bs =>
      rw [same_object, sameObject_iff] at h ⊢
      obtain ⟨hdistinct, has⟩ := keyed_object.mp ha
      obtain ⟨hdistinct', hbs⟩ := keyed_object.mp hb
      obtain ⟨hlength, hmembers⟩ := h
      refine ⟨hlength.symm, fun member hmem => ?_⟩
      -- no name of the second is missing in the first, for there are as many in both
      have hname := mem_names_of_length hdistinct hlength hmembers
        (List.mem_map_of_mem (f := Prod.fst) hmem)
      obtain ⟨a, hget⟩ := Option.isSome_iff_exists.mp ((Members.get?_isSome_iff _ _).mpr hname)
      have hmem' := Members.mem_of_get? hget
      obtain ⟨b, hb', hsame⟩ := hmembers _ hmem'
      rw [Members.get?_of_mem hdistinct' hmem] at hb'
      obtain rfl := Option.some.inj hb'
      exact ⟨a, hget, ih _ hmem' (has _ hmem') (hbs _ hmem) hsame⟩
    | _ => simp [same] at h
  | number n =>
    cases b with
    | number m =>
      rw [same] at h ⊢
      exact Number.same_symm h
    | _ => simp [same] at h
  | _ => cases b <;> simp_all [same]

/-- Unlike the other two this needs no condition: members are looked up in the second object by the
names of the first, and then in the third. -/
theorem same_trans {a b c : Value} (h : a.same b = true) (h' : b.same c = true) :
    a.same c = true := by
  induction a using Value.structural generalizing b c with
  | list items ih =>
    cases b with
    | list others =>
      cases c with
      | list more =>
        rw [same, sameItems_iff] at h h' ⊢
        induction h generalizing more with
        | nil => exact h'
        | cons hitem _ ih' =>
          rw [List.forall_mem_cons] at ih
          cases h' with
          | cons hother hothers => exact .cons (ih.1 hitem hother) (ih' ih.2 _ hothers)
      | _ => simp [same] at h'
    | _ => simp [same] at h
  | object as ih =>
    cases b with
    | object bs =>
      cases c with
      | object cs =>
        rw [same_object, sameObject_iff] at h h' ⊢
        refine ⟨h.1.trans h'.1, fun member hmem => ?_⟩
        obtain ⟨b, hb, hab⟩ := h.2 member hmem
        obtain ⟨c, hc, hbc⟩ := h'.2 _ (Members.mem_of_get? hb)
        exact ⟨c, hc, ih member hmem hab hbc⟩
      | _ => simp [same] at h'
    | _ => simp [same] at h
  | number n =>
    cases b with
    | number m =>
      cases c with
      | number k =>
        rw [same] at h h' ⊢
        exact Number.same_trans h h'
      | _ => simp [same] at h'
    | _ => simp [same] at h
  | _ => cases b <;> cases c <;> simp_all [same]

end Value

end FeedGraph

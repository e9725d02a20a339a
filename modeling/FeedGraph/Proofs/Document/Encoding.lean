import FeedGraph.Document.Tagged

/-!
# Encoding: tagged JSON as a format

In tagged JSON, null is a text and every other value an object with one member, whose name is its
kind; below the kind of numbers there is one more such object (`Value.Tagged`). What is written
keeps to the format as it stands. A reader takes more: null may be below its kind, too, and integers
are taken for doubles (`Value.tagged_iff_ofTagged?`). Still it takes any JSON for one value at most,
so that two values are never written alike. The main statement is `Value.toTagged_lossless`.
-/

namespace FeedGraph.Value

/-! ## The format -/

/-- Tagged JSON for a number: the three ways in which it is held are kept apart even where the
values are the same. With `lenient`, an integer stands for the double next to it. -/
inductive TaggedNumber (lenient : Prop) : Json → Number → Prop where
  | int64 {i : Int} {inRange : Json.IntegerRange i} {n : Int64} : n.toInt = i →
      TaggedNumber lenient (.object [("I64", .number (.integer i inRange))]) (.int64 n)
  | uint64 {i : Int} {inRange : Json.IntegerRange i} {n : UInt64} : (n.toNat : Int) = i →
      TaggedNumber lenient (.object [("U64", .number (.integer i inRange))]) (.uint64 n)
  | double (x : Binary64) : TaggedNumber lenient (.object [("F64", .number (.double x))]) (.double x)
  | rounded {i : Int} {inRange : Json.IntegerRange i} {x : Binary64} : lenient →
      Binary64.ofInt? i = some x →
        TaggedNumber lenient (.object [("F64", .number (.integer i inRange))]) (.double x)

mutual

/-- Tagged JSON for a value. With `lenient`, null is below its kind as well. The format as it is
written is `Tagged False`, and what readers take is `Tagged True`. -/
inductive Tagged (lenient : Prop) : Json → Value → Prop where
  | null : Tagged lenient (.string "Null") .null
  | nullBelow : lenient → Tagged lenient (.object [("Null", .null)]) .null
  | boolean (b : Bool) : Tagged lenient (.object [("Bool", .boolean b)]) (.boolean b)
  | number {json : Json} {n : Number} : TaggedNumber lenient json n →
      Tagged lenient (.object [("Number", json)]) (.number n)
  | string (s : String) : Tagged lenient (.object [("String", .string s)]) (.string s)
  | enumeration (name : String) :
      Tagged lenient (.object [("Enum", .string name)]) (.enumeration name)
  | list {items : List Json} {values : List Value} : TaggedItems lenient items values →
      Tagged lenient (.object [("List", .array items)]) (.list values)
  | object {members : List (String × Json)} {values : List (String × Value)} :
      TaggedMembers lenient members values →
        Tagged lenient (.object [("Object", .object members)]) (.object values)

inductive TaggedItems (lenient : Prop) : List Json → List Value → Prop where
  | nil : TaggedItems lenient [] []
  | cons {item : Json} {rest : List Json} {value : Value} {values : List Value} :
      Tagged lenient item value → TaggedItems lenient rest values →
        TaggedItems lenient (item :: rest) (value :: values)

inductive TaggedMembers (lenient : Prop) :
    List (String × Json) → List (String × Value) → Prop where
  | nil : TaggedMembers lenient [] []
  | cons {name : String} {member : Json} {rest : List (String × Json)} {value : Value}
      {values : List (String × Value)} : Tagged lenient member value →
        TaggedMembers lenient rest values →
          TaggedMembers lenient ((name, member) :: rest) ((name, value) :: values)

end

/-! ## What is written -/

section

variable {lenient : Prop}

theorem taggedNumber_toTagged (n : Number) : TaggedNumber lenient n.toTagged n := by
  cases n with
  | int64 n => exact .int64 rfl
  | uint64 n => exact .uint64 rfl
  | double x => exact .double x

mutual

/-- What is written keeps to the format, also to the narrower one. -/
theorem tagged_toTagged (value : Value) : Tagged lenient value.toTagged value := by
  match value with
  | .null => exact .null
  | .boolean b => exact .boolean b
  | .number n => exact .number (taggedNumber_toTagged n)
  | .string s => exact .string s
  | .enumeration name => exact .enumeration name
  | .list items => exact .list (taggedItems_toTaggedItems items)
  | .object members => exact .object (taggedMembers_toTaggedMembers members)

theorem taggedItems_toTaggedItems (items : List Value) :
    TaggedItems lenient (toTaggedItems items) items := by
  match items with
  | [] => exact .nil
  | item :: rest => exact .cons (tagged_toTagged item) (taggedItems_toTaggedItems rest)

theorem taggedMembers_toTaggedMembers (members : List (String × Value)) :
    TaggedMembers lenient (toTaggedMembers members) members := by
  match members with
  | [] => exact .nil
  | (name, member) :: rest =>
    exact .cons (tagged_toTagged member) (taggedMembers_toTaggedMembers rest)

end

end

theorem TaggedNumber.eq_toTagged {json : Json} {n : Number} (h : TaggedNumber False json n) :
    json = n.toTagged := by
  cases h with
  | int64 hn =>
    subst hn
    rfl
  | uint64 hn =>
    subst hn
    rfl
  | double x => rfl
  | rounded hnever _ => exact hnever.elim

mutual

/-- Nothing else keeps to the format as it stands: without what is allowed to readers, each
constructor leaves one choice. -/
theorem Tagged.eq_toTagged {json : Json} {value : Value} (h : Tagged False json value) :
    json = value.toTagged := by
  cases h with
  | null | boolean | string | enumeration => rfl
  | nullBelow hnever => exact hnever.elim
  | number hn => rw [toTagged, hn.eq_toTagged]
  | list hitems => rw [toTagged, hitems.eq_toTaggedItems]
  | object hmembers => rw [toTagged, hmembers.eq_toTaggedMembers]

theorem TaggedItems.eq_toTaggedItems {items : List Json} {values : List Value}
    (h : TaggedItems False items values) : items = toTaggedItems values := by
  cases h with
  | nil => rfl
  | cons hitem hrest => rw [toTaggedItems, ← hitem.eq_toTagged, ← hrest.eq_toTaggedItems]

theorem TaggedMembers.eq_toTaggedMembers {members : List (String × Json)}
    {values : List (String × Value)} (h : TaggedMembers False members values) :
    members = toTaggedMembers values := by
  cases h with
  | nil => rfl
  | cons hmember hrest => rw [toTaggedMembers, ← hmember.eq_toTagged, ← hrest.eq_toTaggedMembers]

end

/-! ## What is read -/

/-- An integer is rounded in the same way however it is held. -/
theorem Number.double?_ofJson {i : Int} (inRange : Json.IntegerRange i) :
    (ofJson (.integer i inRange)).double? = Binary64.ofInt? i := by
  obtain ⟨hlow, hhigh⟩ := inRange
  rw [ofJson]
  split
  · next hsmall => rw [double?, Int64.toInt_ofInt_of_le hlow hsmall]
  · next hlarge =>
    have hnegative : decide (i < 0) = false := decide_eq_false (by omega)
    have hsame : (UInt64.ofNat i.toNat).toNat = i.natAbs := by
      rw [UInt64.toNat_ofNat']
      omega
    rw [double?, hsame, Binary64.ofInt?, hnegative]

theorem taggedNumber_iff {json : Json} {n : Number} :
    TaggedNumber True json n ↔ Number.ofTagged? json = some n := by
  constructor
  · intro h
    cases h with
    | @int64 i inRange n hn =>
      have hsmall : i < 0x8000000000000000 := hn ▸ n.toInt_lt
      rw [Number.ofTagged?, Number.ofTag?, if_pos hsmall, ← hn, Int64.ofInt_toInt]
    | @uint64 i inRange n hn =>
      rw [Number.ofTagged?, Number.ofTag?, if_pos (by omega), ← hn, Int.toNat_natCast,
        UInt64.ofNat_toNat]
    | double x => rfl
    | rounded _ hx =>
      rw [Number.ofTagged?, Number.ofTag?, Number.double?_ofJson, hx]
      rfl
  · intro h
    rw [Number.ofTagged?.eq_def] at h
    split at h
    · next tag number =>
      rw [Number.ofTag?.eq_def] at h
      split at h
      · next i inRange =>
        split at h
        · next hsmall =>
          obtain rfl := Option.some.inj h
          exact .int64 (Int64.toInt_ofInt_of_le inRange.1 hsmall)
        · cases h
      · next i inRange =>
        split at h
        · next hnonneg =>
          obtain rfl := Option.some.inj h
          have hhigh := inRange.2
          refine .uint64 ?_
          rw [UInt64.toNat_ofNat']
          omega
        · cases h
      · obtain ⟨x, hx, rfl⟩ := Option.map_eq_some_iff.mp h
        cases number with
        | double y =>
          obtain rfl := Option.some.inj hx
          exact .double y
        | integer i inRange =>
          rw [Number.double?_ofJson] at hx
          exact .rounded trivial hx
      · cases h
    · cases h

theorem ofTagged?_of_several (first second : String × Json) (rest : List (String × Json)) :
    ofTagged? (.object (first :: second :: rest)) = none := by
  obtain ⟨tag, json⟩ := first
  cases json <;> rfl

mutual

theorem Tagged.ofTagged? {json : Json} {value : Value} (h : Tagged True json value) :
    Value.ofTagged? json = some value := by
  cases h with
  | null | nullBelow | boolean | string | enumeration => rfl
  | @number json n hn =>
    have hread := taggedNumber_iff.mp hn
    cases hn <;> exact congrArg (Option.map Value.number) hread
  | list hitems => exact congrArg (Option.map Value.list) hitems.ofTaggedItems?
  | object hmembers => exact congrArg (Option.map Value.object) hmembers.ofTaggedMembers?

theorem TaggedItems.ofTaggedItems? {items : List Json} {values : List Value}
    (h : TaggedItems True items values) : Value.ofTaggedItems? items = some values := by
  cases h with
  | nil => rfl
  | cons hitem hrest =>
    rw [Value.ofTaggedItems?, hitem.ofTagged?, hrest.ofTaggedItems?]
    rfl

theorem TaggedMembers.ofTaggedMembers? {members : List (String × Json)}
    {values : List (String × Value)} (h : TaggedMembers True members values) :
    Value.ofTaggedMembers? members = some values := by
  cases h with
  | nil => rfl
  | cons hmember hrest =>
    rw [Value.ofTaggedMembers?, hmember.ofTagged?, hrest.ofTaggedMembers?]
    rfl

end

mutual

theorem tagged_of_ofTagged? (json : Json) {value : Value} (h : Value.ofTagged? json = some value) :
    Tagged True json value := by
  match json with
  | .string tag =>
    rw [Value.ofTagged?, Option.ite_none_right_eq_some] at h
    obtain ⟨rfl, ⟨⟩⟩ := h
    exact .null
  | .object [(tag, .null)] =>
    rw [Value.ofTagged?, Option.ite_none_right_eq_some] at h
    obtain ⟨rfl, ⟨⟩⟩ := h
    exact .nullBelow trivial
  | .object [(tag, .boolean b)] =>
    rw [Value.ofTagged?, Option.ite_none_right_eq_some] at h
    obtain ⟨rfl, ⟨⟩⟩ := h
    exact .boolean b
  | .object [(tag, .string s)] =>
    rw [Value.ofTagged?] at h
    split at h
    · next htag =>
      subst htag
      obtain rfl := Option.some.inj h
      exact .string s
    · rw [Option.ite_none_right_eq_some] at h
      obtain ⟨rfl, ⟨⟩⟩ := h
      exact .enumeration s
  | .object [(tag, .array items)] =>
    rw [Value.ofTagged?, Option.ite_none_right_eq_some] at h
    obtain ⟨rfl, h⟩ := h
    obtain ⟨values, hvalues, rfl⟩ := Option.map_eq_some_iff.mp h
    exact .list (taggedItems_of_ofTaggedItems? items hvalues)
  | .object [(tag, .object members)] =>
    rw [Value.ofTagged?] at h
    split at h
    · next htag =>
      subst htag
      obtain ⟨n, hn, rfl⟩ := Option.map_eq_some_iff.mp h
      exact .number (taggedNumber_iff.mpr hn)
    · rw [Option.ite_none_right_eq_some] at h
      obtain ⟨rfl, h⟩ := h
      obtain ⟨values, hvalues, rfl⟩ := Option.map_eq_some_iff.mp h
      exact .object (taggedMembers_of_ofTaggedMembers? members hvalues)
  | .object (first :: second :: rest) => cases (ofTagged?_of_several first second rest).symm.trans h
  | .null | .boolean _ | .number _ | .array _ | .object [] | .object [(_, .number _)] => cases h

theorem taggedItems_of_ofTaggedItems? (items : List Json) {values : List Value}
    (h : Value.ofTaggedItems? items = some values) : TaggedItems True items values := by
  match items with
  | [] =>
    obtain rfl := Option.some.inj h
    exact .nil
  | item :: rest =>
    rw [Value.ofTaggedItems?] at h
    split at h
    · cases h
    · next value hvalue =>
      obtain ⟨others, hothers, rfl⟩ := Option.map_eq_some_iff.mp h
      exact .cons (tagged_of_ofTagged? item hvalue) (taggedItems_of_ofTaggedItems? rest hothers)

theorem taggedMembers_of_ofTaggedMembers? (members : List (String × Json))
    {values : List (String × Value)} (h : Value.ofTaggedMembers? members = some values) :
    TaggedMembers True members values := by
  match members with
  | [] =>
    obtain rfl := Option.some.inj h
    exact .nil
  | (name, member) :: rest =>
    rw [Value.ofTaggedMembers?] at h
    split at h
    · cases h
    · next value hvalue =>
      obtain ⟨others, hothers, rfl⟩ := Option.map_eq_some_iff.mp h
      exact .cons (tagged_of_ofTagged? member hvalue)
        (taggedMembers_of_ofTaggedMembers? rest hothers)

end

/-- A value is read from JSON exactly if the JSON is tagged for it, with what is allowed. -/
theorem tagged_iff_ofTagged? {json : Json} {value : Value} :
    Tagged True json value ↔ ofTagged? json = some value :=
  ⟨Tagged.ofTagged?, tagged_of_ofTagged? json⟩

/-- Tagged JSON loses nothing. What is written for a value is the one JSON that keeps to the format
as it stands, and this value is read from it. Whatever else is read keeps to the format with what is
allowed. Two values are written alike only if they are the same: held in the same way, of the same
kind, and with their items and members in the same order. -/
theorem toTagged_lossless :
    (∀ value, ofTagged? value.toTagged = some value) ∧
    (∀ json value, Tagged False json value ↔ json = value.toTagged) ∧
    (∀ json value, ofTagged? json = some value ↔ Tagged True json value) ∧
    ∀ first second : Value, first.toTagged = second.toTagged ↔ first = second := by
  refine ⟨ofTagged?_toTagged, fun json value => ⟨Tagged.eq_toTagged, ?_⟩,
    fun _ _ => tagged_iff_ofTagged?.symm, fun first second => ⟨fun heq => ?_, congrArg toTagged⟩⟩
  · rintro rfl
    exact tagged_toTagged value
  · have hfirst := ofTagged?_toTagged first
    rw [heq, ofTagged?_toTagged] at hfirst
    exact (Option.some.inj hfirst).symm

end FeedGraph.Value

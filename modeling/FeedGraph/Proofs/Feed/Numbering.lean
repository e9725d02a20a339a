import FeedGraph.Proofs.Feed.Identity

/-!
# Numbering: where the numbers run out

The numbers that messages are posted under are counted up from the highest one in a store, and have
64 bits. As long as the count has them, the number of a post is above all that are taken: those that
the store has at the beginning, and those of earlier posts. So its id is none of a message that is
there. But nothing stops the count at its end, and a store may begin there: behind the last number
it goes on with zero, and then the number of a post is not above the others any more.

The main statement is `FeedState.numbered_post`. It says both, of any store and after any calls: the
number of a post is above those that are taken exactly if the count has not run out.
-/

namespace FeedGraph

/-! ## The highest number -/

/-- The number of a message has 64 bits; what is larger is no number, and the id counts as a
text. -/
theorem Message.lt_of_number? {message : Message} {n : Nat} (h : message.number? = some n) :
    n < UInt64.size := by
  rw [number?] at h
  split at h
  · next i hread =>
    obtain rfl := Option.some.inj h
    obtain ⟨-, hle⟩ := IntegerFormat.holds_of_read hread
    have hhighest : ((IntegerFormat.natural64.highest : Nat) : Int) = 18446744073709551615 := by decide
    have hsize : UInt64.size = 18446744073709551616 := rfl
    omega
  · cases h

/-- A number of 64 bits is read from its digits. -/
theorem Message.number?_toString {n : Nat} (h : n < UInt64.size) (text authorId : String) :
    (Message.mk (toString n) text authorId).number? = some n := by
  have hread : IntegerFormat.natural64.read (toString n).toList = .ok n :=
    IntegerFormat.read_toString _ (Nat.le_sub_one_of_lt h)
  rw [number?, hread]
  rfl

/-- The highest number is that of a message, or zero if no message has a number. -/
theorem Store.highestId_cases (store : Store) :
    store.highestId = 0 ∨ ∃ message ∈ store.messages, message.number? = some store.highestId := by
  have hfold : ∀ (numbers : List Nat) (start : Nat),
      numbers.foldl max start = start ∨ numbers.foldl max start ∈ numbers := by
    intro numbers
    induction numbers with
    | nil => exact fun start => .inl rfl
    | cons first rest ih =>
      intro start
      rcases ih (max start first) with h | h
      · rw [List.foldl_cons, h]
        rcases Nat.le_total start first with hle | hle
        · exact .inr (List.mem_cons.mpr (.inl (Nat.max_eq_right hle)))
        · exact .inl (Nat.max_eq_left hle)
      · exact .inr (List.mem_cons_of_mem _ h)
  rcases hfold (store.messages.filterMap Message.number?) 0 with h | h
  · exact .inl h
  · exact .inr (List.mem_filterMap.mp h)

/-- It has 64 bits. -/
theorem Store.highestId_lt (store : Store) : store.highestId < UInt64.size := by
  rcases store.highestId_cases with h | ⟨message, -, h⟩
  · rw [h]
    decide
  · exact message.lt_of_number? h

namespace FeedState

variable {ι : Type}

/-! ## Counting on, and round -/

/-- Each post takes one number, and behind the last number comes zero. Without a bound on the posts
this is all that is true (`nextId_after` has the bound). -/
theorem nextId_after_mod (state : FeedState) (calls : List (Call ι)) :
    (state.after calls).nextId.toNat =
      (state.nextId.toNat + (Call.contents calls).length) % UInt64.size := by
  induction calls generalizing state with
  | nil => exact (Nat.mod_eq_of_lt (UInt64.toNat_lt_size _)).symm
  | cons call rest ih =>
    obtain ⟨client, action⟩ := call
    rw [after_cons, ih]
    cases action with
    | post text authorId =>
      have hlength : (Call.contents (⟨client, .post text authorId⟩ :: rest)).length =
          (Call.contents rest).length + 1 := rfl
      rw [perform, nextId_post, hlength, UInt64.toNat_add, UInt64.toNat_one, Nat.mod_add_mod]
      congr 1
      omega
    | delete id => rfl

/-- Counting starts behind the highest number, which is at zero if that is the last one. -/
theorem nextId_ofStore_mod (store : Store) :
    (ofStore store).nextId.toNat = (store.highestId + 1) % UInt64.size := by
  rw [ofStore, UInt64.toNat_add, UInt64.toNat_one,
    UInt64.toNat_ofNat_of_lt' store.highestId_lt]

/-- The numbers of messages that are posted, in the order in which they are. -/
theorem numbers_added (state : FeedState) (calls : List (Call ι)) :
    (state.added calls).filterMap (·.1.number?) =
      (List.range (Call.contents calls).length).map fun i =>
        (state.nextId.toNat + i) % UInt64.size := by
  induction calls generalizing state with
  | nil => rfl
  | cons call rest ih =>
    obtain ⟨client, action⟩ := call
    cases action with
    | post text authorId =>
      have hadded : state.added (⟨client, .post text authorId⟩ :: rest) =
          ((state.post text authorId).1, rest) :: (state.post text authorId).2.added rest := rfl
      have hlength : (Call.contents (⟨client, .post text authorId⟩ :: rest)).length =
          (Call.contents rest).length + 1 := rfl
      have hnumber : (state.post text authorId).1.number? = some state.nextId.toNat :=
        Message.number?_toString (UInt64.toNat_lt_size _) text authorId
      rw [hadded, List.filterMap_cons_some (by exact hnumber), ih, hlength, List.range_succ_eq_map,
        List.map_cons, List.map_map, nextId_post]
      refine congrArg₂ List.cons (Nat.mod_eq_of_lt (UInt64.toNat_lt_size _)).symm ?_
      refine List.map_congr_left fun i _ => ?_
      rw [UInt64.toNat_add, UInt64.toNat_one, Nat.mod_add_mod, Function.comp_apply]
      congr 1
      omega
    | delete id => exact ih (state.delete id).2

/-! ## The number of a post -/

/-- What has been counted when a message is posted behind some calls, as a number that may have more
than 64 bits. -/
def turn (store : Store) (before : List (Call ι)) : Nat :=
  store.highestId + 1 + (Call.contents before).length

/-- The numbers that are taken then: those of the messages that the store has at the beginning, and
those of the messages that the calls have posted, deleted or not. -/
def taken (store : Store) (before : List (Call ι)) : List Nat :=
  (store.messages ++ ((ofStore store).added before).map (·.1)).filterMap Message.number?

/-- A number is taken by a message of the store, or by a post that was counted before. -/
theorem mem_taken {store : Store} {before : List (Call ι)} {n : Nat} :
    n ∈ taken store before ↔ (∃ message ∈ store.messages, message.number? = some n) ∨
      ∃ i < (Call.contents before).length, (store.highestId + 1 + i) % UInt64.size = n := by
  rw [taken, List.filterMap_append, List.mem_append, List.mem_filterMap, List.filterMap_map]
  refine or_congr_right ?_
  have hnumbers := numbers_added (ofStore store) before
  rw [nextId_ofStore_mod] at hnumbers
  simp only [Nat.mod_add_mod] at hnumbers
  change n ∈ ((ofStore store).added before).filterMap (·.1.number?) ↔ _
  rw [hnumbers, List.mem_map]
  simp only [List.mem_range]

/-- What the number of a message that is posted behind some calls is. Both directions are stated,
for what holds and for what does not once the count has run out. -/
structure Numbered (store : Store) (before : List (Call ι)) (posted : Message) : Prop where
  /-- its id is the count in digits, where behind the last number of 64 bits comes zero -/
  id : posted.id = toString (turn store before % UInt64.size)
  /-- so that this is its number -/
  number : posted.number? = some (turn store before % UInt64.size)
  /-- its number is above all that are taken exactly if the count has not run out -/
  above_iff : (∀ n ∈ taken store before, n < turn store before % UInt64.size) ↔
    turn store before < UInt64.size
  /-- and then its id is none of a message that is there -/
  fresh : turn store before < UInt64.size →
    ∀ message ∈ ((ofStore store).after before).store.messages, message.id ≠ posted.id

/-- As long as the count has not run out, it is above the numbers that are taken: those of the store
are not above the highest, and those of posts were counted before. -/
theorem lt_turn {store : Store} {before : List (Call ι)} (h : turn store before < UInt64.size)
    {n : Nat} (hn : n ∈ taken store before) : n < turn store before := by
  rcases mem_taken.mp hn with ⟨message, hmem, hnumber⟩ | ⟨i, hlt, rfl⟩
  · have hle : n ≤ store.highestId := Store.le_highestId hmem hnumber
    rw [turn]
    omega
  · rw [turn] at h ⊢
    rw [Nat.mod_eq_of_lt (by omega)]
    omega

/-- When it has, the last number of 64 bits is taken: either the store had it, or it was counted on
the way. -/
theorem last_mem_taken {store : Store} {before : List (Call ι)}
    (h : UInt64.size ≤ turn store before) : UInt64.size - 1 ∈ taken store before := by
  rw [turn] at h
  have hlt := store.highestId_lt
  rw [mem_taken]
  by_cases hlast : store.highestId = UInt64.size - 1
  · -- the store has it at the beginning
    rcases store.highestId_cases with hzero | ⟨message, hmem, hnumber⟩
    · rw [hzero] at hlast
      exact absurd hlast (by decide)
    · exact .inl ⟨message, hmem, hlast ▸ hnumber⟩
  · -- it has been counted
    refine .inr ⟨UInt64.size - 2 - store.highestId, by omega, ?_⟩
    rw [Nat.mod_eq_of_lt (by omega)]
    omega

/-- The messages that are there have numbers that are taken, being among those that were added. -/
theorem number_mem_taken {store : Store} {before : List (Call ι)} {message : Message}
    (hmem : message ∈ ((ofStore store).after before).store.messages) {n : Nat}
    (hn : message.number? = some n) : n ∈ taken store before := by
  rw [messages_after, Call.standing] at hmem
  obtain ⟨entry, hentry, rfl⟩ := List.mem_map.mp hmem
  refine List.mem_filterMap.mpr ⟨entry.1, ?_, hn⟩
  rcases List.mem_append.mp (List.mem_filter.mp hentry).1 with hold | hnew
  · obtain ⟨message, hmessage, rfl⟩ := List.mem_map.mp hold
    exact List.mem_append_left _ hmessage
  · exact List.mem_append_right _ (List.mem_map_of_mem hnew)

/-- A message that is posted on any store, behind any calls, gets the number that has been counted.
That is above all numbers that are taken, and its id is none of a message that is there, exactly as
long as the count has no more than 64 bits. There is no hypothesis: the case in which the count has
run out is part of the statement. -/
theorem numbered_post (store : Store) (before : List (Call ι)) (text authorId : String) :
    Numbered store before (((ofStore store).after before).post text authorId).1 := by
  have hnext : ((ofStore store).after before).nextId.toNat = turn store before % UInt64.size := by
    rw [nextId_after_mod, nextId_ofStore_mod, Nat.mod_add_mod, turn]
  have hid : (((ofStore store).after before).post text authorId).1.id =
      toString (turn store before % UInt64.size) := congrArg toString hnext
  have hnumber : (((ofStore store).after before).post text authorId).1.number? =
      some (turn store before % UInt64.size) :=
    hnext ▸ Message.number?_toString (UInt64.toNat_lt_size _) text authorId
  refine ⟨hid, hnumber, ⟨fun h => ?_, fun h n hn => ?_⟩, fun h message hmem heq => ?_⟩
  · by_contra hout
    have hlast := h _ (last_mem_taken (Nat.le_of_not_lt hout))
    have hmod : turn store before % UInt64.size < UInt64.size := Nat.mod_lt _ (by decide)
    omega
  · rw [Nat.mod_eq_of_lt h]
    exact lt_turn h hn
  · -- a message with the same id would have the same number, which then would be taken
    have hsame : message.number? = some (turn store before % UInt64.size) := by
      rw [← hnumber, Message.number?, Message.number?, heq]
    have htaken := lt_turn h (number_mem_taken hmem hsame)
    rw [Nat.mod_eq_of_lt h] at htaken
    exact Nat.lt_irrefl _ htaken

end FeedState

/-! ## A store at the end of the numbers -/

namespace Brimful

/-- A store with the first and the last number of 64 bits. -/
def store : Store where
  authors := []
  messages := [⟨"0", "the first", "1"⟩, ⟨"18446744073709551615", "the last", "1"⟩]

/-- Behind the last number comes zero: what is posted next gets the id of a message that is there,
which is lost when the new one is deleted. -/
theorem post_repeats :
    let posted := (FeedState.ofStore store).post "one more" "1"
    posted.1 = ⟨"0", "one more", "1"⟩ ∧ store.message? posted.1.id = some ⟨"0", "the first", "1"⟩ ∧
      posted.1.number? = some 0 ∧ 18446744073709551615 ∈ FeedState.taken store ([] : List (Call Unit)) ∧
      (posted.2.delete posted.1.id).2.store.messages =
        [⟨"18446744073709551615", "the last", "1"⟩] := by
  decide +kernel

end Brimful

end FeedGraph

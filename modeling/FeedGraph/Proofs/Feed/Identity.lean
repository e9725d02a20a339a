import Mathlib.Data.List.Basic
import FeedGraph.Feed.State
import FeedGraph.Proofs.Number.Decimal

/-!
# Identity: no id is given twice

Clients post and delete messages, as many as there are and in whatever order. A call is performed as
a whole, so that whatever several clients do at a time is a list of calls in the order in which they
take effect; `FeedState.after` is the state that such calls leave.

The main statement is `FeedState.identified_after`: as long as the numbers do not run out, posts
return one number after the other, the messages at any time are those that no call has deleted since
they were added, and an id is never seen again once its message is deleted.

An id is *spent* when no post will return it any more (`FeedState.Spent`). A step spends the id that
it gives away and makes none available again; `FeedState.Sound` says that the ids of all messages
are spent. That also holds of what a store has at the beginning, where ids may be any texts: a text
that is no number is never returned, and a number is not above the highest.
-/

namespace FeedGraph

/-! ## Calls -/

/-- What a client may ask for. -/
inductive Action where
  /-- to post a message with a text for an author -/
  | post (text authorId : String)
  /-- to delete the messages with an id -/
  | delete (id : String)
  deriving DecidableEq

/-- The text and the author that are given with a post. -/
def Action.content? : Action → Option (String × String)
  | .post text authorId => some (text, authorId)
  | .delete _ => none

/-- A call of one of several clients. Who makes it has no part in what it does, and the type of
clients may be any. -/
structure Call (ι : Type) where
  /-- the client -/
  client : ι
  /-- what it asks for -/
  action : Action

namespace Call

variable {ι : Type}

/-- What is posted in calls, in their order. -/
def contents (calls : List (Call ι)) : List (String × String) :=
  calls.filterMap (·.action.content?)

/-- Whether one of some calls deletes an id. -/
def deletes (calls : List (Call ι)) (id : String) : Bool :=
  calls.any (·.action = .delete id)

@[simp] theorem deletes_nil (id : String) : deletes ([] : List (Call ι)) id = false := rfl

@[simp] theorem deletes_cons (call : Call ι) (rest : List (Call ι)) (id : String) :
    deletes (call :: rest) id = (decide (call.action = .delete id) || deletes rest id) := rfl

/-- Of messages, each with the calls since it was added, those that none of these deletes. Whether a
message is there depends on later calls only, never on earlier ones with the same id. -/
def standing (entries : List (Message × List (Call ι))) : List Message :=
  (entries.filter fun entry => !deletes entry.2 entry.1.id).map (·.1)

theorem standing_append (entries others : List (Message × List (Call ι))) :
    standing (entries ++ others) = standing entries ++ standing others := by
  rw [standing, List.filter_append, List.map_append]
  rfl

/-- Of messages that were added before the same calls. -/
theorem standing_map (messages : List Message) (calls : List (Call ι)) :
    standing (messages.map (·, calls)) = messages.filter fun message => !deletes calls message.id := by
  rw [standing, List.filter_map, List.map_map]
  exact List.map_id _

end Call

/-- What a client gets for a call. -/
inductive Receipt where
  /-- the message as it was added -/
  | posted (message : Message)
  /-- whether there was a message to delete -/
  | deleted (found : Bool)

namespace FeedState

variable {ι : Type}

/-- Performs what is asked for, as a whole: nothing of another client comes in between. -/
def perform (state : FeedState) : Action → Receipt × FeedState
  | .post text authorId => (.posted (state.post text authorId).1, (state.post text authorId).2)
  | .delete id => (.deleted (state.delete id).1, (state.delete id).2)

/-- The state after some calls, in the order in which they take effect. -/
def after (state : FeedState) (calls : List (Call ι)) : FeedState :=
  calls.foldl (fun state call => (state.perform call.action).2) state

/-- The messages that calls return, each with the calls that come behind it. Those are the ones that
may delete it. -/
def added (state : FeedState) : List (Call ι) → List (Message × List (Call ι))
  | [] => []
  | call :: rest =>
    match state.perform call.action with
    | (.posted message, next) => (message, rest) :: next.added rest
    | (.deleted _, next) => next.added rest

@[simp] theorem after_nil (state : FeedState) : state.after ([] : List (Call ι)) = state := rfl

@[simp] theorem after_cons (state : FeedState) (call : Call ι) (rest : List (Call ι)) :
    state.after (call :: rest) = (state.perform call.action).2.after rest := rfl

theorem after_append (state : FeedState) (calls others : List (Call ι)) :
    state.after (calls ++ others) = (state.after calls).after others :=
  List.foldl_append

/-! ## Numbers -/

/-- A number is followed by the next one, unless it is the last of 64 bits, behind which the count
goes on at zero. -/
theorem toNat_add_one {n : UInt64} (h : n.toNat + 1 < UInt64.size) :
    (n + 1).toNat = n.toNat + 1 := by
  rw [UInt64.toNat_add, UInt64.toNat_one]
  exact Nat.mod_eq_of_lt h

/-- There are numbers for all that is posted. This is the bound that `identified_after` assumes,
counted from the number that is next. -/
def Suffices (state : FeedState) (calls : List (Call ι)) : Prop :=
  state.nextId.toNat + (Call.contents calls).length < UInt64.size

/-- Behind the number of a post there is still another one, so that the count does not come back to
zero by it. -/
theorem Suffices.room {state : FeedState} {client : ι} {text authorId : String}
    {rest : List (Call ι)} (h : state.Suffices (⟨client, .post text authorId⟩ :: rest)) :
    state.nextId.toNat + 1 < UInt64.size := by
  have hall : state.nextId.toNat + ((Call.contents rest).length + 1) < UInt64.size := h
  omega

/-- What comes behind a call has enough numbers too, and counts on by one for a post. Every
induction on calls goes from a state to the next by this. -/
theorem Suffices.tail {state : FeedState} {call : Call ι} {rest : List (Call ι)}
    (h : state.Suffices (call :: rest)) :
    (state.perform call.action).2.Suffices rest ∧
      (state.perform call.action).2.nextId.toNat =
        state.nextId.toNat + (Call.contents [call]).length := by
  obtain ⟨client, action⟩ := call
  cases action with
  | post text authorId =>
    have hlt : state.nextId.toNat + ((Call.contents rest).length + 1) < UInt64.size := h
    have hnext : (state.nextId + 1).toNat = state.nextId.toNat + 1 := toNat_add_one h.room
    refine ⟨?_, hnext⟩
    rw [Suffices, perform, nextId_post, hnext]
    omega
  | delete id => exact ⟨h, rfl⟩

/-- There are numbers for the first calls too. -/
theorem Suffices.init {state : FeedState} {calls others : List (Call ι)}
    (h : state.Suffices (calls ++ others)) : state.Suffices calls := by
  rw [Suffices, Call.contents, List.filterMap_append, List.length_append] at h
  rw [Suffices, Call.contents]
  omega

/-- The next number after some calls: each post takes one and deletions take none. -/
theorem nextId_after {state : FeedState} {calls : List (Call ι)} (h : state.Suffices calls) :
    (state.after calls).nextId.toNat = state.nextId.toNat + (Call.contents calls).length := by
  induction calls generalizing state with
  | nil => rfl
  | cons call rest ih =>
    rw [after_cons, ih h.tail.1, h.tail.2, Nat.add_assoc, ← List.length_append, Call.contents,
      Call.contents, ← List.filterMap_append]
    rfl

/-- Behind some calls there are numbers for those that follow. -/
theorem Suffices.after {state : FeedState} {calls others : List (Call ι)}
    (h : state.Suffices (calls ++ others)) : (state.after calls).Suffices others := by
  rw [Suffices, nextId_after h.init]
  rw [Suffices, Call.contents, List.filterMap_append, List.length_append] at h
  rwa [Call.contents, Call.contents, Nat.add_assoc]

/-- The numbers go on behind the highest one of the store, if that is not the last. -/
theorem nextId_ofStore {store : Store} (h : store.highestId < UInt64.size - 1) :
    (ofStore store).nextId.toNat = store.highestId + 1 := by
  have hhighest : (UInt64.ofNat store.highestId).toNat = store.highestId :=
    UInt64.toNat_ofNat_of_lt' (by omega)
  rw [ofStore, toNat_add_one (by omega), hhighest]

/-- A store whose highest number leaves room. -/
theorem suffices_ofStore {store : Store} {calls : List (Call ι)}
    (h : store.highestId + (Call.contents calls).length < UInt64.size - 1) :
    (ofStore store).Suffices calls := by
  rw [Suffices, nextId_ofStore (by omega)]
  omega

/-- Posts return one number after the other, with what was given. Deletions in between leave no
gap. -/
theorem map_added {state : FeedState} {calls : List (Call ι)} (h : state.Suffices calls) :
    (state.added calls).map (·.1) =
      ((Call.contents calls).zipIdx state.nextId.toNat).map fun (content, n) =>
        ⟨toString n, content.1, content.2⟩ := by
  induction calls generalizing state with
  | nil => rfl
  | cons call rest ih =>
    have htail := h.tail
    obtain ⟨client, action⟩ := call
    cases action with
    | post text authorId =>
      have hnext : (state.post text authorId).2.nextId.toNat = state.nextId.toNat + 1 := htail.2
      have hrest := ih htail.1
      rw [perform, hnext] at hrest
      exact congrArg₂ List.cons rfl hrest
    | delete id => exact ih htail.1

/-! ## Messages -/

/-- The messages at any time are those that were there or were added, in this order, and that no
call has deleted since. By induction on the calls: a deletion takes away all messages with its id
that are there, and those that are added later are not concerned. -/
theorem messages_after (state : FeedState) (calls : List (Call ι)) :
    (state.after calls).store.messages =
      Call.standing (state.store.messages.map (·, calls) ++ state.added calls) := by
  rw [Call.standing_append, Call.standing_map]
  induction calls generalizing state with
  | nil => simp [added, Call.standing]
  | cons call rest ih =>
    obtain ⟨client, action⟩ := call
    rw [after_cons, ih]
    cases action with
    | post text authorId =>
      -- the message that is added stands first among those that are added from here on
      have hadded : state.added (⟨client, .post text authorId⟩ :: rest) =
          [(state.post text authorId).1].map (·, rest) ++
            (state.post text authorId).2.added rest := rfl
      rw [hadded, Call.standing_append, Call.standing_map, perform, store_post,
        Store.messages_insert, List.filter_append, List.append_assoc]
      simp
    | delete id =>
      have hadded : state.added (⟨client, .delete id⟩ :: rest) =
          (state.delete id).2.added rest := rfl
      rw [hadded, perform, store_delete, Store.remove, List.filter_filter]
      congr 2
      funext message
      simp [eq_comm, Bool.and_comm]

/-- Calls leave the authors as they are. -/
@[simp] theorem authors_after (state : FeedState) (calls : List (Call ι)) :
    (state.after calls).store.authors = state.store.authors := by
  induction calls generalizing state with
  | nil => rfl
  | cons call rest ih =>
    obtain ⟨client, action⟩ := call
    rw [after_cons, ih]
    cases action <;> rfl

/-! ## Spent ids -/

/-- No post will return an id any more, as long as there are numbers: it is not written like any
number that is still to come. This is what is known of an id whose message may have been deleted
long ago. -/
def Spent (state : FeedState) (id : String) : Prop :=
  ∀ n, state.nextId.toNat ≤ n → n < UInt64.size → id ≠ toString n

/-- The ids of all messages are spent. It is the invariant of the feed (`Sound.perform`), and it
holds at the beginning (`sound_ofStore`). -/
def Sound (state : FeedState) : Prop :=
  ∀ message ∈ state.store.messages, state.Spent message.id

/-- What a store has at the beginning is spent: a text that is no number, and a number that is not
above the highest. A number in an unusual spelling counts for the highest, though no post returns
that spelling. -/
theorem sound_ofStore {store : Store} (h : store.highestId < UInt64.size - 1) :
    (ofStore store).Sound := by
  intro message hmem n hle hlt heq
  have hnext : (ofStore store).nextId.toNat = store.highestId + 1 := nextId_ofStore h
  have hread : IntegerFormat.natural64.read (toString n).toList = .ok n :=
    IntegerFormat.read_toString _ (Nat.le_sub_one_of_lt hlt)
  -- an id that a post might return is a number, and so the highest is not below it
  have hnumber : message.number? = some n := by
    rw [Message.number?, heq, hread]
    rfl
  have hhighest : n ≤ store.highestId := Store.le_highestId hmem hnumber
  omega

/-- What is spent stays spent, because the next number only grows. -/
theorem Spent.perform {state : FeedState} {call : Call ι} {rest : List (Call ι)} {id : String}
    (hid : state.Spent id) (h : state.Suffices (call :: rest)) :
    (state.perform call.action).2.Spent id := by
  intro n hle
  rw [h.tail.2] at hle
  exact hid n (by omega)

theorem Spent.after {state : FeedState} {calls : List (Call ι)} {id : String}
    (hid : state.Spent id) (h : state.Suffices calls) : (state.after calls).Spent id := by
  induction calls generalizing state with
  | nil => exact hid
  | cons call rest ih => exact ih (hid.perform h) h.tail.1

/-- A post spends the id that it returns: the numbers that are still to come are larger, and
different numbers have different digits. -/
theorem spent_post {state : FeedState} {text authorId : String}
    (h : state.nextId.toNat + 1 < UInt64.size) :
    (state.post text authorId).2.Spent (state.post text authorId).1.id := by
  intro n hle _ heq
  rw [nextId_post, toNat_add_one h] at hle
  have := IntegerFormat.digits_injective heq
  omega

/-- A step keeps the ids of all messages spent. Only a post adds a message, and it spends the id. -/
theorem Sound.perform {state : FeedState} {call : Call ι} {rest : List (Call ι)}
    (hsound : state.Sound) (h : state.Suffices (call :: rest)) :
    (state.perform call.action).2.Sound := by
  intro message hmem
  have hkeep : state.Spent message.id → (state.perform call.action).2.Spent message.id :=
    fun hid => hid.perform h
  obtain ⟨client, action⟩ := call
  cases action with
  | post text authorId =>
    rw [FeedState.perform, store_post, Store.messages_insert] at hmem
    rcases List.mem_append.mp hmem with hmem | hmem
    · exact hkeep (hsound message hmem)
    · obtain rfl := List.mem_singleton.mp hmem
      exact spent_post h.room
  | delete id =>
    rw [FeedState.perform, store_delete, Store.mem_messages_remove] at hmem
    exact hkeep (hsound message hmem.1)

theorem Sound.after {state : FeedState} {calls : List (Call ι)} (hsound : state.Sound)
    (h : state.Suffices calls) : (state.after calls).Sound := by
  induction calls generalizing state with
  | nil => exact hsound
  | cons call rest ih => exact ih (hsound.perform h) h.tail.1

/-- What was returned is spent. -/
theorem spent_added {state : FeedState} {calls : List (Call ι)} (h : state.Suffices calls) :
    ∀ entry ∈ state.added calls, (state.after calls).Spent entry.1.id := by
  induction calls generalizing state with
  | nil => exact fun _ hmem => absurd hmem List.not_mem_nil
  | cons call rest ih =>
    intro entry hmem
    have htail := h.tail
    have hrest := ih htail.1
    obtain ⟨client, action⟩ := call
    cases action with
    | post text authorId =>
      rcases List.mem_cons.mp hmem with rfl | hmem
      · exact (spent_post h.room).after htail.1
      · exact hrest entry hmem
    | delete id => exact hrest entry hmem

/-- Under a spent id no call adds a message, since a post would have to return the id. -/
theorem Spent.mem_perform {state : FeedState} {call : Call ι} {message : Message}
    (hid : state.Spent message.id) (hmem : message ∈ (state.perform call.action).2.store.messages) :
    message ∈ state.store.messages := by
  obtain ⟨client, action⟩ := call
  cases action with
  | post text authorId =>
    rw [FeedState.perform, store_post, Store.messages_insert] at hmem
    rcases List.mem_append.mp hmem with hmem | hmem
    · exact hmem
    · have hnew : message.id = toString state.nextId.toNat := by
        rw [List.mem_singleton.mp hmem]
        rfl
      exact absurd hnew (hid _ (Nat.le_refl _) (UInt64.toNat_lt_size _))
  | delete id =>
    rw [FeedState.perform, store_delete, Store.mem_messages_remove] at hmem
    exact hmem.1

/-- The messages with a spent id only become fewer, call by call. -/
theorem Spent.mem_after {state : FeedState} {calls : List (Call ι)} {message : Message}
    (hid : state.Spent message.id) (h : state.Suffices calls)
    (hmem : message ∈ (state.after calls).store.messages) : message ∈ state.store.messages := by
  induction calls generalizing state with
  | nil => exact hmem
  | cons call rest ih => exact hid.mem_perform (ih (hid.perform h) h.tail.1 hmem)

/-- Under the id of a message that was returned there is no other message: when it was returned its
id was not in use, since it was not spent, and from then on it is. -/
theorem eq_of_mem_added {state : FeedState} {calls : List (Call ι)} (hsound : state.Sound)
    (h : state.Suffices calls) {entry : Message × List (Call ι)} (hentry : entry ∈ state.added calls)
    {message : Message} (hmem : message ∈ (state.after calls).store.messages)
    (hid : message.id = entry.1.id) : message = entry.1 := by
  induction calls generalizing state with
  | nil => exact absurd hentry List.not_mem_nil
  | cons call rest ih =>
    have hstep := hsound.perform h
    have htail := h.tail.1
    obtain ⟨client, action⟩ := call
    cases action with
    | post text authorId =>
      rcases List.mem_cons.mp hentry with rfl | hentry
      · -- the id is spent behind the post, so that the message was there already then
        have hspent : (state.post text authorId).2.Spent message.id := hid ▸ spent_post h.room
        have hthen : message ∈ (state.post text authorId).2.store.messages :=
          hspent.mem_after htail hmem
        rw [store_post, Store.messages_insert] at hthen
        rcases List.mem_append.mp hthen with hbefore | hnew
        · -- but not before it
          exact absurd hid (hsound message hbefore _ (Nat.le_refl _) (UInt64.toNat_lt_size _))
        · exact List.mem_singleton.mp hnew
      · exact ih hstep htail hentry hmem
    | delete id => exact ih hstep htail hentry hmem

/-! ## Identity -/

/-- What messages and their ids are, at any time while calls are performed one after the other on a
store. The conditions are those that clients rely on when they keep an id. -/
structure Identified (store : Store) (calls : List (Call ι)) : Prop where
  /-- posts return one number after the other, from the one behind the highest, with the text and
  the author that were given -/
  returned : ((ofStore store).added calls).map (·.1) =
    ((Call.contents calls).zipIdx (store.highestId + 1)).map fun (content, n) =>
      ⟨toString n, content.1, content.2⟩
  /-- the id that a post returns is none of a message that there was at any time, and was not
  returned before -/
  fresh : ∀ {before rest : List (Call ι)} {client : ι} {text authorId : String},
    calls = before ++ ⟨client, .post text authorId⟩ :: rest →
    let id := (((ofStore store).after before).post text authorId).1.id
    (∀ earlier, earlier <+: before →
      ∀ message ∈ ((ofStore store).after earlier).store.messages, message.id ≠ id) ∧
    ∀ entry ∈ (ofStore store).added before, entry.1.id ≠ id
  /-- the messages are those of the store, and behind them those that were posted, that have not
  been deleted -/
  present : ∀ {before : List (Call ι)}, before <+: calls →
    ((ofStore store).after before).store.messages =
      Call.standing (store.messages.map (·, before) ++ (ofStore store).added before)
  /-- looking up the id of a message that was posted and has not been deleted finds it -/
  found : ∀ {before : List (Call ι)}, before <+: calls →
    ∀ entry ∈ (ofStore store).added before, Call.deletes entry.2 entry.1.id = false →
      ((ofStore store).after before).store.message? entry.1.id = some entry.1
  /-- deleting tells whether there is a message with the id, and removes the messages with this id
  and no other -/
  deleted : ∀ {before rest : List (Call ι)} {client : ι} {id : String},
    calls = before ++ ⟨client, .delete id⟩ :: rest →
    let state := (ofStore store).after before
    ((state.delete id).1 = true ↔ ∃ message ∈ state.store.messages, message.id = id) ∧
      (state.delete id).2.store.messages = state.store.messages.filter (·.id ≠ id)
  /-- what has been deleted is not found again, and cannot be deleted again -/
  gone : ∀ {before later : List (Call ι)} {client : ι} {id : String},
    before ++ ⟨client, .delete id⟩ :: later <+: calls →
    (((ofStore store).after before).delete id).1 = true →
    let state := (ofStore store).after (before ++ ⟨client, .delete id⟩ :: later)
    state.store.message? id = none ∧ (state.delete id).1 = false
  /-- the authors stay as they are -/
  authors : ∀ {before : List (Call ι)}, before <+: calls →
    ((ofStore store).after before).store.authors = store.authors

/-- Deleting tells whether there is a message with the id, and not how many there are. -/
theorem delete_eq_true {state : FeedState} {id : String} :
    (state.delete id).1 = true ↔ ∃ message ∈ state.store.messages, message.id = id := by
  rw [delete, Store.holds, List.any_eq_true]
  simp only [decide_eq_true_iff]

/-- An id under which there was a message is not in use again, once it has been deleted: no post
returns it, and nothing else adds messages. -/
theorem gone_after {state : FeedState} {calls : List (Call ι)} {id : String}
    (hid : state.Spent id) (h : state.Suffices calls) (hnone : state.store.holds id = false) :
    (state.after calls).store.message? id = none ∧ ((state.after calls).delete id).1 = false := by
  have hgone : ∀ message ∈ (state.after calls).store.messages, message.id ≠ id := by
    intro message hmem heq
    have hthen : message ∈ state.store.messages := Spent.mem_after (heq ▸ hid) h hmem
    rw [Store.holds, List.any_eq_false] at hnone
    exact hnone message hthen (decide_eq_true heq)
  refine ⟨?_, Bool.eq_false_iff.mpr ?_⟩
  · rw [Store.message?, List.find?_eq_none]
    exact fun message hmem => by simpa using hgone message hmem
  · rw [Ne, delete_eq_true]
    rintro ⟨message, hmem, heq⟩
    exact hgone message hmem heq

/-- Whatever calls are performed in whatever order on whatever store: as long as there are numbers
for what is posted, messages keep their identity. The invariant `Sound` holds at the beginning and
is kept by each call; from that, each condition is a lemma about the state that the calls lead
to. -/
theorem identified_after (store : Store) (calls : List (Call ι))
    (h : store.highestId + (Call.contents calls).length < UInt64.size - 1) :
    Identified store calls := by
  have hall : (ofStore store).Suffices calls := suffices_ofStore h
  have hsound : (ofStore store).Sound := sound_ofStore (by omega)
  have hrooms : ∀ {before : List (Call ι)}, before <+: calls →
      (ofStore store).Suffices before := by
    rintro before ⟨rest, rfl⟩
    exact hall.init
  constructor
  case returned => rw [map_added hall, nextId_ofStore (by omega)]
  case fresh =>
    rintro before rest client text authorId rfl
    have hbefore : (ofStore store).Suffices before := hrooms ⟨_, rfl⟩
    -- what is spent is not returned
    have hother : ∀ {id}, ((ofStore store).after before).Spent id →
        id ≠ (((ofStore store).after before).post text authorId).1.id :=
      fun hid => hid _ (Nat.le_refl _) (UInt64.toNat_lt_size _)
    refine ⟨?_, fun entry hentry => hother (spent_added hbefore entry hentry)⟩
    rintro earlier ⟨between, rfl⟩ message hmem
    refine hother ?_
    rw [after_append]
    exact (hsound.after hbefore.init message hmem).after hbefore.after
  case present => exact fun _ => messages_after _ _
  case found =>
    intro before hbefore entry hentry hkept
    have hmem : entry.1 ∈ ((ofStore store).after before).store.messages := by
      rw [messages_after, Call.standing]
      refine List.mem_map_of_mem (List.mem_filter.mpr ⟨List.mem_append_right _ hentry, ?_⟩)
      rw [hkept]
      rfl
    rw [Store.message?]
    cases hfind : List.find? (fun message : Message => decide (message.id = entry.1.id))
        ((ofStore store).after before).store.messages with
    | none => exact absurd (decide_eq_true rfl) (List.find?_eq_none.mp hfind _ hmem)
    | some message =>
      -- what is found has the same id, and there is no other message that has
      have hid : message.id = entry.1.id := by simpa using List.find?_some hfind
      rw [eq_of_mem_added hsound (hrooms hbefore) hentry (List.mem_of_find?_eq_some hfind) hid]
  case deleted => exact fun _ => ⟨delete_eq_true, rfl⟩
  case gone =>
    intro before later client id hdone htrue
    have hroom : (ofStore store).Suffices (before ++ ⟨client, .delete id⟩ :: later) := hrooms hdone
    obtain ⟨message, hmem, rfl⟩ := delete_eq_true.mp htrue
    -- there was a message with the id, so that no later post returns it
    have hspent : ((ofStore store).after before).Spent message.id :=
      hsound.after hroom.init message hmem
    rw [after_append, after_cons]
    exact gone_after (hspent.perform hroom.after) hroom.after.tail.1 (Store.holds_remove _ _)
  case authors => exact fun _ => authors_after _ _

end FeedState

/-! ## Notices -/

namespace Notices

/-- Ids that are texts, numbers that are written in another way, and one that occurs twice. -/
def store : Store where
  authors := [⟨"1", "John", "Doe"⟩]
  messages := [⟨"draft", "to be continued", "1"⟩, ⟨"007", "seven", "1"⟩, ⟨"+3", "three", "2"⟩,
    ⟨"draft", "to be written", "9"⟩]

/-- Two clients post and delete at a time. -/
def calls : List (Call Bool) :=
  [⟨true, .post "lost" "1"⟩, ⟨false, .delete "draft"⟩, ⟨false, .post "found" "5"⟩,
    ⟨true, .delete "8"⟩, ⟨false, .delete "7"⟩, ⟨true, .post "lost again" "1"⟩]

theorem identified_calls : store.highestId + (Call.contents calls).length < UInt64.size - 1 ∧
    FeedState.Identified store calls :=
  have h : store.highestId + (Call.contents calls).length < UInt64.size - 1 := by
    decide
  ⟨h, FeedState.identified_after store calls h⟩

/-- The numbers go on behind seven, and the one that was deleted is not given again; a number may be
written with zeros or a sign in front. -/
example : ((FeedState.ofStore store).after calls).store.messages =
    [⟨"007", "seven", "1"⟩, ⟨"+3", "three", "2"⟩, ⟨"9", "found", "5"⟩,
      ⟨"10", "lost again", "1"⟩] := by
  decide

end Notices

end FeedGraph

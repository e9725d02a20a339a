import FeedGraph.Json.Basic
import FeedGraph.Number.IntegerFormat

/-!
# Store: authors and messages

Both are kept in the order in which they were added. Ids are texts, and nothing keeps two records
from having the same one; looking up an id finds the first.
-/

namespace FeedGraph

/-- Someone who can post messages. -/
structure Author where
  /-- the author's id -/
  id : String
  /-- the first name -/
  firstName : String
  /-- the last name -/
  lastName : String
  deriving DecidableEq

namespace Author

def fullName (author : Author) : String := author.firstName ++ " " ++ author.lastName

def toJson (author : Author) : Json :=
  .object [("id", .string author.id), ("firstName", .string author.firstName),
    ("lastName", .string author.lastName)]

end Author

/-- A message. -/
structure Message where
  /-- the message's id -/
  id : String
  /-- what it says -/
  text : String
  /-- the id of its author, who need not be known -/
  authorId : String
  deriving DecidableEq

namespace Message

def toJson (message : Message) : Json :=
  .object [("id", .string message.id), ("text", .string message.text),
    ("authorId", .string message.authorId)]

/-- The id as a number, if it is one of 64 bits. -/
def number? (message : Message) : Option Nat :=
  match IntegerFormat.natural64.read message.id.toList with
  | .ok n => some n.toNat
  | .error _ => none

end Message

/-- Authors and messages. -/
structure Store where
  /-- the authors, in the order in which they were added -/
  authors : List Author
  /-- the messages, in the order in which they were added -/
  messages : List Message
  deriving DecidableEq

namespace Store

/-- What the service starts with. -/
def seed : Store where
  authors := [⟨"1", "John", "Doe"⟩, ⟨"2", "Yusung", "Kim"⟩]
  messages := [⟨"1", "Hello world", "1"⟩, ⟨"2", "Second tweet", "2"⟩]

def author? (store : Store) (id : String) : Option Author := store.authors.find? (·.id = id)

def message? (store : Store) (id : String) : Option Message := store.messages.find? (·.id = id)

/-- The largest id of a message that is a number; zero if none is. -/
def highestId (store : Store) : Nat :=
  (store.messages.filterMap Message.number?).foldl max 0

def insert (store : Store) (message : Message) : Store :=
  { store with messages := store.messages ++ [message] }

/-- Removes all messages with an id. -/
def remove (store : Store) (id : String) : Store :=
  { store with messages := store.messages.filter (·.id ≠ id) }

def holds (store : Store) (id : String) : Bool := store.messages.any (·.id = id)

/-! ## What each operation does to the messages -/

@[simp] theorem messages_insert (store : Store) (message : Message) :
    (store.insert message).messages = store.messages ++ [message] := rfl

theorem mem_messages_remove {store : Store} {id : String} {message : Message} :
    message ∈ (store.remove id).messages ↔ message ∈ store.messages ∧ message.id ≠ id := by
  rw [remove, List.mem_filter, decide_eq_true_iff]

@[simp] theorem holds_remove (store : Store) (id : String) :
    (store.remove id).holds id = false := by
  rw [holds, List.any_eq_false]
  intro message hm
  rw [decide_eq_true_iff]
  exact (mem_messages_remove.mp hm).2

/-- The largest id is not below any other; so the one after it is new. -/
theorem le_highestId {store : Store} {message : Message} {n : Nat} (hm : message ∈ store.messages)
    (hn : message.number? = some n) : n ≤ store.highestId := by
  have bound : ∀ (numbers : List Nat) (start : Nat),
      start ≤ numbers.foldl max start ∧ ∀ m ∈ numbers, m ≤ numbers.foldl max start := by
    intro numbers
    induction numbers with
    | nil => exact fun start => ⟨Nat.le_refl start, by simp⟩
    | cons first rest ih =>
      intro start
      obtain ⟨hs, hr⟩ := ih (max start first)
      refine ⟨Nat.le_trans (Nat.le_max_left start first) hs, ?_⟩
      intro m hm
      rcases List.mem_cons.mp hm with rfl | hm
      · exact Nat.le_trans (Nat.le_max_right start m) hs
      · exact hr m hm
  exact (bound _ 0).2 n (List.mem_filterMap.mpr ⟨message, hm, hn⟩)

end Store

end FeedGraph

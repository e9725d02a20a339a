import FeedGraph.Feed.Store
import FeedGraph.Url.Basic

/-!
# State: what requests change

The store, the id that the next message gets and the requests that went to the catalog. Ids of
messages are counted up from the largest there was at the beginning, and are not given twice even if
a message is deleted. They are numbers of 64 bits: behind the largest follows zero.
-/

namespace FeedGraph

/-- What requests read and change. The addresses that were asked for are kept because the answers of
a catalog may depend on them (`Transport`). -/
structure FeedState where
  /-- authors and messages -/
  store : Store
  /-- the id of the next message -/
  nextId : UInt64
  /-- the addresses that were asked for at the catalog, in order -/
  sent : List Url

namespace FeedState

/-- The state with a store from which ids go on: at first, the next id is one more than the
largest. -/
def ofStore (store : Store) : FeedState := ⟨store, UInt64.ofNat store.highestId + 1, []⟩

def draft (state : FeedState) (text authorId : String) : Message :=
  ⟨toString state.nextId.toNat, text, authorId⟩

/-- Posts a message, and counts the id on. -/
def post (state : FeedState) (text authorId : String) : Message × FeedState :=
  (state.draft text authorId,
    { state with
      store := state.store.insert (state.draft text authorId)
      nextId := state.nextId + 1 })

/-- Deletes the messages with an id, and tells whether there were any. -/
def delete (state : FeedState) (id : String) : Bool × FeedState :=
  (state.store.holds id, { state with store := state.store.remove id })

def send (state : FeedState) (url : Url) : FeedState := { state with sent := state.sent ++ [url] }

/-! ## What each operation does to the parts -/

@[simp] theorem store_post (state : FeedState) (text authorId : String) :
    (state.post text authorId).2.store = state.store.insert (state.post text authorId).1 := rfl

@[simp] theorem nextId_post (state : FeedState) (text authorId : String) :
    (state.post text authorId).2.nextId = state.nextId + 1 := rfl

@[simp] theorem store_delete (state : FeedState) (id : String) :
    (state.delete id).2.store = state.store.remove id := rfl

end FeedState

end FeedGraph

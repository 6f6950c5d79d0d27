import EventPipeline.Text.Utf8

/-!
An outbox inside the process. Each message id is recorded once, with what it was first stored with.
-/

set_option autoImplicit false

namespace EventPipeline

structure OutboxRecord where
  eventType : String
  messageId : String
  payload : Bytes
deriving DecidableEq, Repr

structure OutboxStore where
  records : List OutboxRecord
deriving DecidableEq, Repr

namespace OutboxStore

def empty : OutboxStore := ⟨[]⟩

def contains (store : OutboxStore) (messageId : String) : Bool :=
  store.records.any fun record => record.messageId == messageId

def insert (store : OutboxStore) (record : OutboxRecord) : OutboxStore :=
  if store.contains record.messageId then store else ⟨store.records ++ [record]⟩

def size (store : OutboxStore) : Nat := store.records.length

def isEmpty (store : OutboxStore) : Bool := store.records.isEmpty

end OutboxStore

end EventPipeline

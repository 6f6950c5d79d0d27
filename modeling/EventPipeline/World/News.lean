import EventPipeline.World.Basic

/-!
What has happened between two moments: everything that a world only ever adds to, less what was
there before.
-/

set_option autoImplicit false

namespace EventPipeline

structure Arrivals where
  broker : BrokerId
  topic : String
  messages : List Message
deriving DecidableEq

structure News (F : EventFamily) where
  calls : List (Call F)
  trace : List TraceRecord
  published : List Arrivals
  stored : List (List OutboxRecord)

namespace World

variable {F : EventFamily}

def arrivals (before after : World F) (broker : BrokerId) (topic : String) : Arrivals where
  broker := broker
  topic := topic
  messages :=
    ((after.broker broker).broker.published topic).drop
      ((before.broker broker).broker.published topic).length

-- The news since `before`, of the watched topics on every broker.
def newsSince (after before : World F) (watched : List String) : News F where
  calls := after.calls.drop before.calls.length
  trace := after.trace.drop before.trace.length
  published :=
    (after.brokers.flatMap fun entry => watched.map fun topic =>
        arrivals before after entry.1 topic).filter fun arrivals => !arrivals.messages.isEmpty
  stored := (List.range after.stores.length).map fun id =>
    (after.store id).store.records.drop (before.store id).store.records.length

end World

end EventPipeline

import EventPipeline.Stage.Chain

/-!
The stage that moves hopeless messages, exactly as they were received, to a queue of dead letters
and then reports success. If that fails, its failure replaces the one of the message.
-/

set_option autoImplicit false

namespace EventPipeline

variable {F : EventFamily}

inductive Classifier where
  | standard
  | custom (classifier : ClassifierId)
deriving DecidableEq, Repr

def Classifier.decide (classifier : Classifier) (e : EventError) : Program F Bool :=
  match classifier with
  | .standard => pure e.isPoison
  | .custom classifier => Program.classify classifier e

structure PoisonQueue where
  queue : String
  broker : BrokerId
  classifier : Classifier
deriving DecidableEq, Repr

namespace PoisonQueue

def divert (poison : PoisonQueue) (handlerName : String) (message : Message) (e : EventError) :
    Program F (Except EventError (List Message)) := do
  let about := [("handler", handlerName), ("message_uuid", message.uuid), ("poison_queue", poison.queue)]
  match ← Program.publish poison.broker poison.queue message with
  | .error refusal =>
      Program.log .error "Failed to publish message to poison queue"
        (about ++ [("error", refusal.message), ("cause", e.message)])
      pure (.error refusal)
  | .ok () =>
      Program.log .warn "Message moved to poison queue" (about ++ [("error", e.message)])
      Program.count (.poisoned handlerName)
      pure (.ok [])

def wrap (poison : PoisonQueue) (handlerName : String) (next : Handler F) : Handler F :=
  fun message => do
    match ← next message with
    | .ok outputs => pure (.ok outputs)
    | .error e =>
        if ← poison.classifier.decide e then poison.divert handlerName message e
        else pure (.error e)

def stage (poison : PoisonQueue) : Stage F := ⟨"poison_queue", poison.wrap⟩

end PoisonQueue

end EventPipeline

import EventPipeline.Config
import EventPipeline.Registry
import EventPipeline.TypedHandler

/-!
What binds a handler to its queues, and when such a request is complete.
-/

set_option autoImplicit false

namespace EventPipeline

variable {F : EventFamily}

structure Registration (F : EventFamily) where
  name : Option String
  consumeQueue : String
  publishQueue : Option String
  handler : Option (Handler F)
  schema : Option (SchemaEntry F)
  subscriber : Option BrokerId
  publisher : Option BrokerId

namespace Registration

def ofQueue (consumeQueue : String) : Registration F :=
  ⟨none, consumeQueue, none, none, none, none, none⟩

-- An empty publish queue means that nothing is published.
def ofQueues (queues : QueuePair) : Registration F :=
  { ofQueue queues.consume with
    publishQueue := if queues.publish.isEmpty then none else some queues.publish }

-- A typed handler brings the schema of its input along.
def withTyped (registration : Registration F) (handler : HandlerId) (input output : F.Kind)
    (decoder : Codec (F.Value input)) (encoder : Codec (F.Value output)) : Registration F :=
  { registration with
    handler := some (.typed handler input output decoder encoder)
    schema := some (.of input decoder) }

def resolvedName (registration : Registration F) : Option String :=
  match registration.name.filter fun name => !isBlankText name with
  | some name => some name
  | none => registration.schema.map fun entry => entry.name ++ "_handler"

def validate (registration : Registration F) : Except EventError (String × Handler F) :=
  match registration.handler with
  | none => .error (.registration "handler is required")
  | some handler =>
      if isBlankText registration.consumeQueue then
        .error (.registration "consume queue is required")
      else if (registration.publishQueue.map isBlankText).getD false then
        .error (.registration "publish queue must not be empty when set")
      else
        match registration.resolvedName with
        | none => .error (.registration "handler name is required when no schema is given")
        | some name => .ok (name, handler)

def describe (registration : Registration F) : String :=
  "HandlerRegistration \x7b name: " ++ quotedOption registration.name ++
    ", consume_queue: " ++ quoted registration.consumeQueue ++
    ", publish_queue: " ++ quotedOption registration.publishQueue ++
    ", has_handler: " ++ (if registration.handler.isSome then "true" else "false") ++
    ", schema: " ++ quotedOption (registration.schema.map SchemaEntry.name) ++ " \x7d"

end Registration

end EventPipeline

import EventPipeline.Program
import EventPipeline.Text.Blank

/-!
Publishing typed events from outside the handlers. A producer can only publish while somebody still
owns the publisher it was made for.
-/

set_option autoImplicit false

namespace EventPipeline

variable {F : EventFamily}

def producerName : String := "producer"

def produce (broker : BrokerId) (connected : Bool) (kind : F.Kind) (codec : Codec (F.Value kind))
    (queue : String) (value : F.Value kind) (metadata : Metadata) :
    Program F (Except EventError String) :=
  if !connected then pure (.error .notInitialized)
  else if isBlankText queue then pure (.error (.config "queue name is required to publish"))
  else
    match codec.encode value with
    | .error e => pure (.error e)
    | .ok payload => do
        let uuid ← Program.freshId
        let stamped := metadata.set Metadata.schemaKey (F.schema kind)
        match ← Program.publish broker queue ⟨uuid, payload, stamped⟩ with
        | .error e => pure (.error e)
        | .ok () =>
            Program.count (.published producerName queue)
            Program.log .debug "Produced event"
              [("queue", queue), ("message_uuid", uuid), ("schema", F.schema kind)]
            pure (.ok uuid)

end EventPipeline

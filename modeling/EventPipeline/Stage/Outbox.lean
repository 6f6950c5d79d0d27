import EventPipeline.Stage.Chain

/-!
The stage that records every output before it is returned. A failed write fails the whole call.
-/

set_option autoImplicit false

namespace EventPipeline

variable {F : EventFamily}

def storeAll (store : StoreId) (handlerName : String) :
    List Message → Program F (Except EventError Unit)
  | [] => pure (.ok ())
  | output :: rest => do
      let eventType := output.metadata.schema?.getD ""
      let about := [("handler", handlerName), ("message_uuid", output.uuid)]
      match ← Program.store store eventType output.uuid output.payload with
      | .error e =>
          Program.log .error "Failed to store outgoing message" (about ++ [("error", e.message)])
          pure (.error e)
      | .ok () =>
          Program.log .debug "Stored outgoing message" (about ++ [("event_type", eventType)])
          storeAll store handlerName rest

def recordWith (store : StoreId) (handlerName : String) (next : Handler F) : Handler F :=
  fun message => do
    match ← next message with
    | .error e => pure (.error e)
    | .ok outputs =>
        match ← storeAll store handlerName outputs with
        | .error e => pure (.error e)
        | .ok () => pure (.ok outputs)

def Stage.outbox (store : StoreId) : Stage F := ⟨"outbox", recordWith store⟩

end EventPipeline

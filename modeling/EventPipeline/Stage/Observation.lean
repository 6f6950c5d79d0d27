import EventPipeline.Number.Decimal
import EventPipeline.Stage.Chain

/-!
The stages that only watch: one logs every message and its outcome, the other runs the handler
inside a span.
-/

set_option autoImplicit false

namespace EventPipeline

variable {F : EventFamily}

def logAround (handlerName : String) (next : Handler F) : Handler F := fun message => do
  let about := [("handler", handlerName), ("message_uuid", message.uuid)]
  Program.note (.event .debug "Handling message"
    ⟨about ++ [("payload", message.payloadText)], some message.metadata⟩)
  let result ← next message
  match result with
  | .ok outputs =>
      Program.log .debug "Message handled" (about ++ [("outputs", decimalText outputs.length)])
  | .error e => Program.log .debug "Message handling failed" (about ++ [("error", e.message)])
  pure result

def Stage.logging : Stage F := ⟨"logging", logAround⟩

def spanName : String := "event.handle"

-- The span is closed also when the handler panics, but then it gets no outcome.
def traceAround (handlerName : String) (next : Handler F) : Handler F := fun message => do
  Program.note (.spanOpened spanName
    ⟨[("handler", handlerName), ("message_uuid", message.uuid),
      ("schema", message.metadata.schema?.getD ""),
      ("correlation_id", message.metadata.correlationId?.getD "")], some message.metadata⟩)
  let result ← (next message).catchPanic fun p => do
    Program.note (.spanClosed spanName)
    Program.panic p
  Program.note (.spanRecorded [("outcome", match result with | .ok _ => "ok" | .error _ => "error")])
  Program.note (.spanClosed spanName)
  pure result

def Stage.tracing : Stage F := ⟨"tracing", traceAround⟩

end EventPipeline

import EventPipeline.Stage.Chain

/-!
The stage that turns a panic of anything inside it into an error.
-/

set_option autoImplicit false

namespace EventPipeline

variable {F : EventFamily}

def recoverWith (handlerName : String) (next : Handler F) : Handler F := fun message =>
  (next message).catchPanic fun p => do
    Program.log .error "Recovered from panic while handling message"
      [("handler", handlerName), ("message_uuid", message.uuid), ("panic", p.message)]
    Program.count (.panicRecovered handlerName)
    pure (.error (.panicked p.message))

def Stage.recoverer : Stage F := ⟨"recoverer", recoverWith⟩

end EventPipeline

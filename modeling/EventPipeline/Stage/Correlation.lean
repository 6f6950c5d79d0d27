import EventPipeline.Stage.Chain

/-!
The stage that gives a correlation id to messages that arrive without one, an empty one included.
-/

set_option autoImplicit false

namespace EventPipeline

variable {F : EventFamily}

def Metadata.isUncorrelated (bag : Metadata) : Bool :=
  match bag.correlationId? with
  | none => true
  | some id => id.isEmpty

def correlate (next : Handler F) : Handler F := fun message =>
  if message.metadata.isUncorrelated then do
    let id ← Program.freshId
    next { message with metadata := message.metadata.set Metadata.correlationKey id }
  else next message

def Stage.correlation : Stage F := ⟨"correlation", fun _ next => correlate next⟩

end EventPipeline

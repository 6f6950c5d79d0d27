import EventPipeline.Stage.Chain

/-!
A stage that marks what passes through it: it appends one piece to the payload on the way in and
another to every output on the way out.
-/

set_option autoImplicit false

namespace EventPipeline

variable {F : EventFamily}

def Message.append (message : Message) (piece : Bytes) : Message :=
  { message with payload := message.payload ++ piece }

def tagWith (before after : Bytes) (next : Handler F) : Handler F := fun message => do
  match ← next (message.append before) with
  | .ok outputs => pure (.ok (outputs.map fun output => output.append after))
  | .error e => pure (.error e)

def Stage.tag (before after : Bytes) : Stage F := ⟨"tag", fun _ next => tagWith before after next⟩

end EventPipeline

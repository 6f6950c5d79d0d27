import EventPipeline.Proofs.Panics
import EventPipeline.Proofs.Schedules
import EventPipeline.Proofs.Sessions

/-!
Whole runs of a route over a stream of messages, whoever answers and whatever panics. A panic inside the
chain costs its own delivery and no other: where the answers depend on the questions and the number of the
attempt alone, the other deliveries go as if the message had never come.
-/

set_option autoImplicit false

namespace EventPipeline

open Program Transcript

variable {F : EventFamily}

-- What a loop has handled, and the delivery at which it broke down.
structure Stint (F : EventFamily) where
  finished : List (Handling F)
  broken : Option (Handling F × Panic)

def Stint.handlings (stint : Stint F) : List (Handling F) :=
  stint.finished ++ (stint.broken.map (·.1)).toList

section Serve

variable {work : Message → Program F Unit} {s : List (Handling F) → Surroundings F}
  {earlier : List (Handling F)} {message : Message} {stream : List Message}

end Serve

def Handling.panicked (handling : Handling F) : Bool := handling.transcript.any (·.panic?.isSome)

-- What handlers, validators, stores, classifiers and publishers are asked.
def Effect.isAddressed : Effect F → Bool
  | .freshId => false
  | .sleep _ => false
  | .note _ => false
  | .count _ => false
  | .settle .. => false
  | _ => true

namespace Behaviour

-- Whoever was asked in a delivery answered from the question and the number of calls before it alone.
structure Rules (behaviour : Behaviour F) (handling : Handling F) : Prop where
  answers : ∀ before x rest, handling.transcript = before ++ x :: rest → x.effect.isAddressed = true →
    x.Alike ⟨x.effect, behaviour (before.countP (·.effect.isCall)) x.effect⟩
  identifiers : ∀ id : String, (⟨.freshId, id⟩ : Exchange F) ∈ handling.transcript → Uuid.Generated id

end Behaviour

section Matches

variable {service : Service F} {route : Route F} {behaviour : Behaviour F} {first second : Handling F}

end Matches

-- The answers of a transcript, given again.
noncomputable def Transcript.again (t : Transcript F) : Surroundings F := fun past effect =>
  open Classical in
  match t[past.length]? with
  | none => Surroundings.obliging past effect
  | some x => if same : x.effect = effect then same ▸ x.answer else Surroundings.obliging past effect

section Ruled

variable {work : Message → Program F Unit} {s : List (Handling F) → Surroundings F}

end Ruled

end EventPipeline

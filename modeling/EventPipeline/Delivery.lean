import EventPipeline.EventError
import EventPipeline.Message

/-!
A message as it arrives. A delivery that nobody waits for takes every verdict.
-/

set_option autoImplicit false

namespace EventPipeline

structure Delivery where
  message : Message
  report : Settlement → Except EventError Unit

namespace Delivery

def unattended (message : Message) : Delivery := ⟨message, fun _ => .ok ()⟩

def settle (delivery : Delivery) (settlement : Settlement) : Except EventError Unit :=
  delivery.report settlement

-- The text of a delivery shows its message alone.
def describe (delivery : Delivery) : String :=
  "Delivery \x7b message: " ++ delivery.message.describe ++ ", .. \x7d"

end Delivery

end EventPipeline

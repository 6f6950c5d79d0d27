import EventPipeline.Service.Route
import EventPipeline.World.Basic

/-!
The loop of one route. It looks at the shutdown signal before it takes a delivery, never while one
is in flight, and works on one delivery at a time.
-/

set_option autoImplicit false

namespace EventPipeline

structure Signal where
  stop : Bool
  version : Nat
  connected : Bool
deriving DecidableEq, Repr

namespace Signal

def create (stop : Bool) : Signal := ⟨stop, 0, true⟩

def send (signal : Signal) (stop : Bool) : Signal :=
  { signal with stop, version := signal.version + 1 }

def drop (signal : Signal) : Signal := { signal with connected := false }

end Signal

variable {F : EventFamily}

inductive Phase (F : EventFamily) where
  | starting
  | listening
  | working (rest : Program F Unit)
  | waiting (effect : Effect F) (pending : Pending F effect.Answer)
      (next : effect.Answer → Program F Unit)
  | ended
  | failed (p : Panic)

structure Consumer (F : EventFamily) where
  route : Route F
  handler : Handler F
  stream : StreamId
  -- The version of the signal that was seen last.
  seen : Nat
  phase : Phase F

namespace Consumer

def note (consumer : Consumer F) (message : String) (withQueue : Bool) : TraceRecord :=
  .event .info message
    (("handler", consumer.route.name) ::
      if withQueue then [("queue", consumer.route.consumeQueue)] else [])

def leave (consumer : Consumer F) (phase : Phase F) (w : World F) : Consumer F × World F :=
  ({ consumer with phase },
    w.changeBroker consumer.route.subscriber fun broker => broker.dropStream consumer.stream)

-- The top of the loop: the value of the signal, news of the signal, then the stream.
def listen (signal : Signal) (consumer : Consumer F) (w : World F) :
    Option (Consumer F × World F) :=
  if signal.stop then
    some (consumer.leave .ended
      (w.record [consumer.note "Received shutdown signal, stopping consumer" false]))
  else if signal.version ≠ consumer.seen then some ({ consumer with seen := signal.version }, w)
  else if !signal.connected then
    some (consumer.leave .ended
      (w.record [consumer.note "Shutdown sender dropped, stopping consumer" false]))
  else
    match w.receive consumer.route.subscriber consumer.stream with
    | (.message message, w) =>
        some ({ consumer with
          phase := .working (consumer.route.process consumer.handler message) }, w)
    | (.pending, _) => none
    | (.ended, w) =>
        some (consumer.leave .ended (w.record [consumer.note "Subscription closed" true]))

def step (signal : Signal) (consumer : Consumer F) (w : World F) : Option (Consumer F × World F) :=
  match consumer.phase with
  | .starting =>
      some ({ consumer with phase := .listening }, w.record [consumer.note "Consumer started" true])
  | .listening => listen signal consumer w
  | .working (.done ()) => some ({ consumer with phase := .listening }, w)
  | .working (.panic p) => some (consumer.leave (.failed p) w)
  | .working (.perform effect next) =>
      let (pending, w) := w.start effect
      some ({ consumer with phase := .waiting effect pending next }, w)
  | .waiting _ pending next =>
      if pending.wake ≤ w.clock then
        let (answer, w) := pending.resume w
        some ({ consumer with phase := .working (next answer) }, w)
      else none
  | .ended => none
  | .failed _ => none

def wake? (consumer : Consumer F) : Option Nat :=
  match consumer.phase with
  | .waiting _ pending _ => some pending.wake
  | _ => none

def hasEnded (consumer : Consumer F) : Bool :=
  match consumer.phase with
  | .ended => true
  | _ => false

end Consumer

end EventPipeline

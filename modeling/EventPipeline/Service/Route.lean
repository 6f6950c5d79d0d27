import EventPipeline.Service.Basic

/-!
What a route does with one delivery: run the message through the stages, publish what comes out, and
settle the delivery. Failures that may pass ask for redelivery.
-/

set_option autoImplicit false

namespace EventPipeline

variable {F : EventFamily}

namespace Route

def publishAll (route : Route F) (queue : String) :
    List Message → Program F (Except EventError Unit)
  | [] => pure (.ok ())
  | output :: rest => do
      match ← Program.publish route.publisher queue output with
      | .error e => pure (.error e)
      | .ok () =>
          Program.count (.published route.name queue)
          Program.log .debug "Published output"
            [("handler", route.name), ("queue", queue), ("message_uuid", output.uuid)]
          publishAll route queue rest

def dispatch (route : Route F) (handler : Handler F) (message : Message) :
    Program F (Except EventError Unit) := do
  match ← handler message with
  | .error e => pure (.error e)
  | .ok outputs =>
      match outputs, route.publishQueue with
      | [], _ => pure (.ok ())
      | outputs, none =>
          pure (.error (.config ("handler '" ++ route.name ++ "' produced " ++
            decimalText outputs.length ++ " message(s) but has no publish queue")))
      | outputs, some queue => route.publishAll queue outputs

def settle (route : Route F) (message : Message) (settlement : Settlement) (failure : String) :
    Program F Unit := do
  match ← Program.settle route.subscriber settlement with
  | .ok () => pure ()
  | .error e =>
      Program.log .warn failure
        [("handler", route.name), ("message_uuid", message.uuid), ("error", e.message)]

-- The settlement is the last thing that happens to a delivery.
def process (route : Route F) (handler : Handler F) (message : Message) : Program F Unit := do
  Program.count (.received route.name)
  match ← route.dispatch handler message with
  | .ok () =>
      Program.count (.processed route.name)
      route.settle message .ack "Failed to ack message"
  | .error e =>
      Program.count (.failed route.name e.category.name)
      Program.log .error "Message processing failed"
        [("handler", route.name), ("queue", route.consumeQueue), ("message_uuid", message.uuid),
          ("error", e.message)]
      route.settle message (.nack e.isRetryable) "Failed to nack message"

end Route

end EventPipeline

import EventPipeline.Service.Consumer

/-!
The life of a service: set up, started, running, finished. All streams are opened before the first
delivery is taken; the publisher is closed after the last loop has ended.
-/

set_option autoImplicit false

namespace EventPipeline

variable {F : EventFamily}

inductive Lifetime (F : EventFamily) where
  | configured (service : Service F)
  | starting (service : Service F)
  | running (transport : Transport) (consumers : List (Consumer F))
  | finished (result : Except EventError Unit)
  | dropped

def openRoute (service : Service F) (route : Route F) (w : World F) :
    Except EventError (Consumer F × World F) :=
  (w.subscribe route.subscriber route.consumeQueue).map fun result =>
    (⟨route, service.pipeline route, result.1, 0, .starting⟩, result.2)

-- Opens the streams in order. If one cannot be opened, the ones before it are let go.
def openRoutes (service : Service F) : List (Route F) → World F →
    Except EventError (List (Consumer F)) × World F
  | [], w => (.ok [], w)
  | route :: routes, w =>
      match openRoute service route w with
      | .error e => (.error e, w)
      | .ok (consumer, w) =>
          match openRoutes service routes w with
          | (.ok consumers, w) => (.ok (consumer :: consumers), w)
          | (.error e, w) => (.error e, (consumer.leave .ended w).2)

def startService (service : Service F) (w : World F) : Lifetime F × World F :=
  let w :=
    if service.routes.isEmpty then
      w.record [.event .warn "No handlers registered, nothing to consume" { texts := [] }]
    else w
  match openRoutes service service.routes w with
  | (.error e, w) => (.finished (.error e), w)
  | (.ok consumers, w) =>
      (.running service.transport consumers,
        w.record [.event .info "Starting event service"
          [("handlers", decimalText consumers.length), ("transport", service.transport.kind.name)]])

def finishService (transport : Transport) (w : World F) : Lifetime F × World F :=
  let (result, w) := w.close transport.publisher
  let w :=
    match result with
    | .ok () => w
    | .error e => w.record [.event .warn "Failed to close publisher" [("error", e.message)]]
  (.finished (.ok ()), w.record [.event .info "Event service stopped" { texts := [] }])

-- The first consumer that can make a step makes it.
def stepConsumers (signal : Signal) : List (Consumer F) → World F →
    Option (List (Consumer F) × World F)
  | [], _ => none
  | consumer :: consumers, w =>
      match consumer.step signal w with
      | some (consumer, w) => some (consumer :: consumers, w)
      | none =>
          (stepConsumers signal consumers w).map fun result => (consumer :: result.1, result.2)

def failureText : Panic → String
  | .text message => "task 1 panicked with message " ++ quoted message
  | .unknown => "task 1 panicked"

def buryConsumer : List (Consumer F) → World F → Option (List (Consumer F) × World F)
  | [], _ => none
  | consumer :: consumers, w =>
      match consumer.phase with
      | .failed p =>
          some ({ consumer with phase := .ended } :: consumers,
            w.record [.event .error "Consumer task failed" [("error", failureText p)]])
      | _ => (buryConsumer consumers w).map fun result => (consumer :: result.1, result.2)

end EventPipeline

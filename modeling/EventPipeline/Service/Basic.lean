import EventPipeline.Registration
import EventPipeline.Stage.Correlation
import EventPipeline.Stage.Observation
import EventPipeline.Stage.Outbox
import EventPipeline.Stage.PoisonQueue
import EventPipeline.Stage.Recovery
import EventPipeline.Stage.Retry
import EventPipeline.Stage.SchemaValidation

/-!
A service: its transport, its registry, the stages it wraps handlers in, and the registered routes.
-/

set_option autoImplicit false

namespace EventPipeline

variable {F : EventFamily}

structure Transport where
  kind : TransportKind
  publisher : BrokerId
  subscriber : BrokerId
deriving DecidableEq, Repr

namespace Transport

def memory (broker : BrokerId) : Transport := ⟨.memory, broker, broker⟩

-- Only the broker inside the process can be built; the others need a client of their own.
def build (config : Config) (broker : BrokerId) : Except EventError Transport :=
  match config.transport with
  | .memory => .ok (memory broker)
  | kind => .error (.transportUnavailable kind.name)

end Transport

structure Route (F : EventFamily) where
  name : String
  consumeQueue : String
  publishQueue : Option String
  handler : Handler F
  schema : Option (SchemaEntry F)
  subscriber : BrokerId
  publisher : BrokerId

structure Service (F : EventFamily) where
  config : Config
  transport : Transport
  outbox : Option StoreId
  validator : Option ValidatorId
  classifier : Classifier
  registry : SchemaRegistry F
  routes : List (Route F)

namespace Service

def create (config : Config) (transport : Transport) (outbox : Option StoreId)
    (validator : Option ValidatorId) (classifier : Classifier) : Service F :=
  ⟨config, transport, outbox, validator, classifier, .empty, []⟩

-- A blank poison queue counts as none.
def poison? (service : Service F) : Option PoisonQueue :=
  (service.config.poisonQueue.filter fun queue => !isBlankText queue).map fun queue =>
    ⟨queue, service.transport.publisher, service.classifier⟩

-- Dead letters leave outside the correlation stage, so they are the messages as received.
def chain (service : Service F) : Chain F :=
  [Stage.recoverer] ++
    (service.poison?.map PoisonQueue.stage).toList ++
    [Stage.correlation, Stage.logging, Stage.tracing,
      SchemaValidation.stage ⟨service.registry, service.validator⟩,
      Stage.retry service.config.retry] ++
    (service.outbox.map Stage.outbox).toList

def handlerNames (service : Service F) : List String := service.routes.map (·.name)

def creationTrace (service : Service F) : List TraceRecord :=
  [.event .info "Event service configured"
    [("transport", service.transport.kind.name), ("middleware", service.chain.describe),
      ("poison_queue", quotedOption service.config.poisonQueue)]]

def buildingTrace (config : Config) : List TraceRecord :=
  [.event .info "Building transport" [("transport", config.transport.name)]]

def route (service : Service F) (registration : Registration F) (name : String)
    (handler : Handler F) : Route F where
  name := name
  consumeQueue := registration.consumeQueue
  publishQueue := registration.publishQueue
  handler := handler
  schema := registration.schema
  subscriber := registration.subscriber.getD service.transport.subscriber
  publisher := registration.publisher.getD service.transport.publisher

def insertSchema (registry : SchemaRegistry F) :
    Option (SchemaEntry F) → Except EventError (SchemaRegistry F)
  | none => .ok registry
  | some entry => registry.insert entry

-- Everything is checked before anything is recorded.
def register (service : Service F) (registration : Registration F) :
    Except EventError (Service F) := do
  let (name, handler) ← registration.validate
  if service.handlerNames.contains name then
    .error (.registration ("handler '" ++ name ++ "' is already registered"))
  else
    let registry ← insertSchema service.registry registration.schema
    .ok { service with
      registry
      routes := service.routes ++ [service.route registration name handler] }

def registrationTrace (before after : Service F) : List TraceRecord :=
  let schemas := after.registry.entries.drop before.registry.entries.length
  let routes := after.routes.drop before.routes.length
  (schemas.map fun entry =>
      TraceRecord.event .debug "Registered schema"
        [("schema", entry.name), ("type_name", entry.typeName)]) ++
    (routes.map fun route =>
      TraceRecord.event .info "Registered handler"
        [("handler", route.name), ("consume_queue", route.consumeQueue),
          ("publish_queue", quotedOption route.publishQueue)])

def pipeline (service : Service F) (route : Route F) : Handler F :=
  service.chain.apply route.name route.handler

end Service

end EventPipeline

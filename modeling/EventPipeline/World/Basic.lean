import EventPipeline.Text.Uuid
import EventPipeline.World.Fault

/-!
The surroundings of a program: a clock of whole milliseconds, a source of identifiers, brokers,
stores, and collaborators that answer by rules of their own. Every answer to an effect is given here.
-/

set_option autoImplicit false

namespace EventPipeline

structure Response (α : Type) where
  pause : Duration
  reply : Nat → Reply α × Nat

-- How handlers, validators and classifiers behave. Handlers also see the number of the call.
structure Collaborators (F : EventFamily) where
  raw : HandlerId → Nat → Message → Response (List Message)
  typed : HandlerId → Nat → (input output : F.Kind) → HandlerContext (F.Value input) →
    Response (List (Outgoing (F.Value output)))
  validate : ValidatorId → DecodedEvent F → Reply Unit
  classify : ClassifierId → EventError → Except Panic Bool

inductive Invocation (F : EventFamily) where
  | raw (message : Message)
  | typed (input : F.Kind) (context : HandlerContext (F.Value input))

structure Call (F : EventFamily) where
  handler : HandlerId
  time : Nat
  invocation : Invocation F

structure World (F : EventFamily) where
  collaborators : Collaborators F
  clock : Nat
  ids : Nat
  brokers : List (BrokerId × FaultyBroker)
  stores : List FaultyStore
  calls : List (Call F)
  trace : List TraceRecord
  measurements : List Measurement

-- Something that becomes available at a time.
structure Pending (F : EventFamily) (α : Type) where
  wake : Nat
  resume : World F → α × World F

namespace World

variable {F : EventFamily}

def create (collaborators : Collaborators F) (brokers : List (BrokerId × FaultyBroker))
    (stores : List FaultyStore) : World F :=
  ⟨collaborators, 0, 0, brokers, stores, [], [], []⟩

def broker (w : World F) (id : BrokerId) : FaultyBroker :=
  ((w.brokers.find? fun entry => entry.1 == id).map (·.2)).getD (.create .none)

def setBroker (w : World F) (id : BrokerId) (b : FaultyBroker) : World F :=
  if w.brokers.any fun entry => entry.1 == id then
    { w with brokers := w.brokers.map fun entry => if entry.1 = id then (id, b) else entry }
  else { w with brokers := w.brokers ++ [(id, b)] }

def store (w : World F) (id : StoreId) : FaultyStore := w.stores.getD id (.create .none)

def setStore (w : World F) (id : StoreId) (s : FaultyStore) : World F :=
  { w with stores := w.stores.set id s }

def record (w : World F) (records : List TraceRecord) : World F :=
  { w with trace := w.trace ++ records }

def count (w : World F) (measurement : Measurement) : World F :=
  { w with measurements := w.measurements ++ [measurement] }

def callsOf (w : World F) (handler : HandlerId) : Nat :=
  w.calls.countP fun call => call.handler == handler

def recordCall (w : World F) (handler : HandlerId) (invocation : Invocation F) : World F :=
  { w with calls := w.calls ++ [⟨handler, w.clock, invocation⟩] }

def after (w : World F) (pause : Duration) : Nat := w.clock + pause.waitMillis

def publishedTrace (b : FaultyBroker) (topic : String) (message : Message) : List TraceRecord :=
  [.event .debug "Published message"
    [("topic", topic), ("message_uuid", message.uuid),
      ("subscribers", decimalText (b.broker.listeners topic))]]

def replyOf : Except EventError Unit → Reply Unit
  | .ok () => .ok ()
  | .error e => .error e

def publish (w : World F) (id : BrokerId) (topic : String) (message : Message) :
    Except EventError Unit × World F :=
  let (result, b) := (w.broker id).publish topic message
  let w := w.setBroker id b
  match result with
  | .ok () => (.ok (), w.record (publishedTrace b topic message))
  | .error e => (.error e, w)

def publishInside (w : World F) (id : BrokerId) (topic : String) (message : Message) :
    Except EventError Unit × World F :=
  match (w.broker id).publishInside topic message with
  | .ok b => (.ok (), (w.setBroker id b).record (publishedTrace b topic message))
  | .error e => (.error e, w)

def subscribe (w : World F) (id : BrokerId) (topic : String) : Except EventError (StreamId × World F) :=
  ((w.broker id).subscribe topic).map fun result => (result.1, w.setBroker id result.2)

def changeBroker (w : World F) (id : BrokerId) (change : Broker → Broker) : World F :=
  let b := w.broker id
  w.setBroker id { b with broker := change b.broker }

def receive (w : World F) (id : BrokerId) (stream : StreamId) : Reception × World F :=
  let b := w.broker id
  let (reception, broker) := b.broker.receive stream
  (reception, w.setBroker id { b with broker })

def close (w : World F) (id : BrokerId) : Except EventError Unit × World F :=
  let (result, b) := (w.broker id).close
  (result, w.setBroker id b)

def now {α : Type} (w : World F) (resume : World F → α × World F) : Pending F α × World F :=
  (⟨w.clock, resume⟩, w)

def respond {α : Type} (w : World F) (handler : HandlerId) (invocation : Invocation F)
    (response : Response α) : Pending F (Reply α) × World F :=
  (⟨w.after response.pause, fun w =>
      let (reply, ids) := response.reply w.ids
      (reply, { w with ids })⟩,
    w.recordCall handler invocation)

def start (w : World F) : (effect : Effect F) → Pending F effect.Answer × World F
  | .freshId => w.now fun w => (Uuid.ofNat w.ids, { w with ids := w.ids + 1 })
  | .sleep duration => (⟨w.after duration, fun w => ((), w)⟩, w)
  | .note record => w.now fun w => ((), w.record [record])
  | .count measurement => w.now fun w => ((), w.count measurement)
  | .publish id topic message => w.now fun w =>
      let (result, w) := w.publish id topic message
      (replyOf result, w)
  | .settle id settlement => w.now fun w =>
      let (reply, b) := (w.broker id).settle settlement
      (reply, w.setBroker id b)
  | .store id eventType messageId payload => w.now fun w =>
      let (result, s) := (w.store id).insert ⟨eventType, messageId, payload⟩
      (replyOf result, w.setStore id s)
  | .validate validator event => w.now fun w => (w.collaborators.validate validator event, w)
  | .classify classifier e => w.now fun w => (w.collaborators.classify classifier e, w)
  | .callRaw handler message =>
      w.respond handler (.raw message)
        (w.collaborators.raw handler (w.callsOf handler) message)
  | .callTyped handler input output context =>
      w.respond handler (.typed input context)
        (w.collaborators.typed handler (w.callsOf handler) input output context)

-- Runs a program with nothing beside it: the clock jumps to the time of the next answer.
def run {α : Type} : Program F α → World F → Except Panic α × World F
  | .done value, w => (.ok value, w)
  | .panic p, w => (.error p, w)
  | .perform effect next, w =>
      let (pending, w) := w.start effect
      let (answer, w) := pending.resume { w with clock := pending.wake }
      run (next answer) w

end World

end EventPipeline

import EventPipeline.EventError
import EventPipeline.Message

/-!
The broker inside the process. Every topic keeps a log of all messages published to it; a new stream
first gets the log and then every later message. Each stream has its own copy. Settlements are
counted, and nothing is delivered again.
-/

set_option autoImplicit false

namespace EventPipeline

abbrev StreamId := Nat

structure MessageStream where
  id : StreamId
  topic : String
  received : List Message
  pending : List Message
  -- Whether later messages still reach it.
  attached : Bool
  -- Whether its reader has gone away.
  dropped : Bool
deriving DecidableEq

structure Broker where
  log : List (String × Message)
  streams : List MessageStream
  acked : Nat
  nacked : Nat
  requeued : Nat
  closed : Bool
deriving DecidableEq

inductive Reception where
  | message (message : Message)
  | pending
  | ended
deriving DecidableEq

namespace Broker

def empty : Broker := ⟨[], [], 0, 0, 0, false⟩

def refusal : EventError := .transport "memory" "broker is closed"

def published (broker : Broker) (topic : String) : List Message :=
  (broker.log.filter fun entry => entry.1 == topic).map (·.2)

def settled (broker : Broker) : Nat := broker.acked + broker.nacked

def isListening (stream : MessageStream) (topic : String) : Bool :=
  stream.topic == topic && stream.attached && !stream.dropped

def deliver (topic : String) (message : Message) (stream : MessageStream) : MessageStream :=
  if isListening stream topic then { stream with pending := stream.pending ++ [message] } else stream

def publish (broker : Broker) (topic : String) (message : Message) : Except EventError Broker :=
  if broker.closed then .error refusal
  else .ok { broker with
    log := broker.log ++ [(topic, message)]
    streams := broker.streams.map (deliver topic message) }

def listeners (broker : Broker) (topic : String) : Nat :=
  broker.streams.countP fun stream => isListening stream topic

def subscribe (broker : Broker) (topic : String) : Except EventError (StreamId × Broker) :=
  if broker.closed then .error refusal
  else
    let id := broker.streams.length
    .ok (id, { broker with
      streams := broker.streams ++ [⟨id, topic, [], broker.published topic, true, false⟩] })

def stream? (broker : Broker) (id : StreamId) : Option MessageStream :=
  broker.streams.find? fun stream => stream.id == id

def updateStream (broker : Broker) (id : StreamId) (change : MessageStream → MessageStream) : Broker :=
  { broker with
    streams := broker.streams.map fun stream => if stream.id = id then change stream else stream }

def take (stream : MessageStream) : MessageStream :=
  match stream.pending with
  | [] => stream
  | message :: rest => { stream with received := stream.received ++ [message], pending := rest }

-- A stream that is no longer attached ends once its pending messages are taken.
def receive (broker : Broker) (id : StreamId) : Reception × Broker :=
  match broker.stream? id with
  | none => (.ended, broker)
  | some stream =>
      match stream.pending with
      | message :: _ => (.message message, broker.updateStream id take)
      | [] => (if stream.attached then .pending else .ended, broker)

def dropStream (broker : Broker) (id : StreamId) : Broker :=
  broker.updateStream id fun stream => { stream with dropped := true }

def settle (broker : Broker) : Settlement → Broker
  | .ack => { broker with acked := broker.acked + 1 }
  | .nack requeue =>
      { broker with nacked := broker.nacked + 1, requeued := broker.requeued + requeue.toNat }

def close (broker : Broker) : Broker :=
  { broker with
    closed := true
    streams := broker.streams.map fun stream => { stream with attached := false } }

-- What a transport does on closing if it has nothing of its own to let go.
def leaveOpen (broker : Broker) : Except EventError Unit × Broker := (.ok (), broker)

end Broker

end EventPipeline

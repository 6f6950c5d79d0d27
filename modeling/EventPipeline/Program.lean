import EventPipeline.EventFamily
import EventPipeline.Measurement
import EventPipeline.Message
import EventPipeline.Trace

/-!
What code in the pipeline does, as data. A program asks its surroundings for one effect after
another and goes on with the answers; whoever runs it decides what the answers are and when they
come. Statements about a program therefore hold for every broker, store and handler.
-/

set_option autoImplicit false

namespace EventPipeline

inductive Panic where
  | text (message : String)
  | unknown
deriving DecidableEq, Repr

def Panic.message : Panic → String
  | .text message => message
  | .unknown => "unknown panic"

inductive Reply (α : Type) where
  | ok (value : α)
  | error (e : EventError)
  | panic (p : Panic)

structure HandlerContext (α : Type) where
  payload : α
  metadata : Metadata
  messageId : String

-- A value to emit. Without metadata of its own it inherits the inbound ones.
structure Outgoing (α : Type) where
  value : α
  metadata : Option Metadata

abbrev HandlerId := Nat

abbrev ValidatorId := Nat

abbrev ClassifierId := Nat

abbrev StoreId := Nat

abbrev BrokerId := String

inductive Effect (F : EventFamily) where
  | freshId
  | sleep (duration : Duration)
  | note (record : TraceRecord)
  | count (measurement : Measurement)
  | publish (broker : BrokerId) (queue : String) (message : Message)
  | settle (broker : BrokerId) (settlement : Settlement)
  | store (store : StoreId) (eventType messageId : String) (payload : Bytes)
  | validate (validator : ValidatorId) (event : DecodedEvent F)
  | classify (classifier : ClassifierId) (e : EventError)
  | callRaw (handler : HandlerId) (message : Message)
  | callTyped (handler : HandlerId) (input output : F.Kind) (context : HandlerContext (F.Value input))

def Effect.Answer {F : EventFamily} : Effect F → Type
  | .freshId => String
  | .sleep _ | .note _ | .count _ => Unit
  | .publish .. | .settle .. | .store .. | .validate .. => Reply Unit
  | .classify .. => Except Panic Bool
  | .callRaw .. => Reply (List Message)
  | .callTyped _ _ output _ => Reply (List (Outgoing (F.Value output)))

inductive Program (F : EventFamily) (α : Type) where
  | done (value : α)
  | panic (p : Panic)
  | perform (effect : Effect F) (next : effect.Answer → Program F α)

namespace Program

variable {F : EventFamily} {α β : Type}

def bind : Program F α → (α → Program F β) → Program F β
  | .done value, f => f value
  | .panic p, _ => .panic p
  | .perform effect next, f => .perform effect fun answer => (next answer).bind f

instance : Monad (Program F) where
  pure := .done
  bind := bind

def catchPanic : Program F α → (Panic → Program F α) → Program F α
  | .done value, _ => .done value
  | .panic p, handler => handler p
  | .perform effect next, handler => .perform effect fun answer => (next answer).catchPanic handler

def ofReply : Reply α → Program F (Except EventError α)
  | .ok value => .done (.ok value)
  | .error e => .done (.error e)
  | .panic p => .panic p

def freshId : Program F String := .perform .freshId .done

def sleep (duration : Duration) : Program F Unit := .perform (.sleep duration) .done

def note (record : TraceRecord) : Program F Unit := .perform (.note record) .done

def log (level : Level) (message : String) (fields : Labels) : Program F Unit :=
  note (.event level message fields)

def count (measurement : Measurement) : Program F Unit := .perform (.count measurement) .done

def publish (broker : BrokerId) (queue : String) (message : Message) :
    Program F (Except EventError Unit) :=
  .perform (.publish broker queue message) ofReply

def settle (broker : BrokerId) (settlement : Settlement) : Program F (Except EventError Unit) :=
  .perform (.settle broker settlement) ofReply

def store (store : StoreId) (eventType messageId : String) (payload : Bytes) :
    Program F (Except EventError Unit) :=
  .perform (.store store eventType messageId payload) ofReply

def validate (validator : ValidatorId) (event : DecodedEvent F) :
    Program F (Except EventError Unit) :=
  .perform (.validate validator event) ofReply

def classify (classifier : ClassifierId) (e : EventError) : Program F Bool :=
  .perform (.classify classifier e) fun
    | .ok verdict => .done verdict
    | .error p => .panic p

def callRaw (handler : HandlerId) (message : Message) :
    Program F (Except EventError (List Message)) :=
  .perform (.callRaw handler message) ofReply

def callTyped (handler : HandlerId) (input output : F.Kind)
    (context : HandlerContext (F.Value input)) :
    Program F (Except EventError (List (Outgoing (F.Value output)))) :=
  .perform (.callTyped handler input output context) ofReply

end Program

abbrev Handler (F : EventFamily) := Message → Program F (Except EventError (List Message))

end EventPipeline

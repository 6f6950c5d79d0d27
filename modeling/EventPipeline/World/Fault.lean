import EventPipeline.Broker
import EventPipeline.Number.Decimal
import EventPipeline.OutboxStore
import EventPipeline.Program

/-!
Brokers and stores that fail on command. Calls are numbered from 0, and a refused call does not
reach what stands behind.
-/

set_option autoImplicit false

namespace EventPipeline

inductive CallSet where
  | all
  | only (numbers : List Nat)
deriving DecidableEq, Repr

namespace CallSet

def none : CallSet := .only []

def contains : CallSet → Nat → Bool
  | .all, _ => true
  | .only numbers, n => numbers.contains n

end CallSet

structure Faults where
  refusedPublishes : CallSet
  refusesClose : Bool
  missingTopics : List String
  refusedSettlements : CallSet
  panickingSettlements : CallSet
deriving DecidableEq, Repr

def Faults.none : Faults := ⟨.none, false, [], .none, .none⟩

structure FaultyBroker where
  broker : Broker
  faults : Faults
  publishes : Nat
  settlements : Nat
deriving DecidableEq

namespace FaultyBroker

def create (faults : Faults) : FaultyBroker := ⟨.empty, faults, 0, 0⟩

-- Past the faults, straight to the broker inside.
def publishInside (b : FaultyBroker) (topic : String) (message : Message) :
    Except EventError FaultyBroker :=
  (b.broker.publish topic message).map fun broker => { b with broker }

def publish (b : FaultyBroker) (topic : String) (message : Message) :
    Except EventError Unit × FaultyBroker :=
  let counted := { b with publishes := b.publishes + 1 }
  if b.faults.refusedPublishes.contains b.publishes then
    (.error (.transport "kafka" ("publish " ++ decimalText b.publishes ++ " refused")), counted)
  else
    match counted.publishInside topic message with
    | .ok after => (.ok (), after)
    | .error e => (.error e, counted)

def subscribe (b : FaultyBroker) (topic : String) : Except EventError (StreamId × FaultyBroker) :=
  if b.faults.missingTopics.contains topic then .error (.transport "rabbitmq" ("no queue " ++ topic))
  else (b.broker.subscribe topic).map fun result => (result.1, { b with broker := result.2 })

def settle (b : FaultyBroker) (settlement : Settlement) : Reply Unit × FaultyBroker :=
  let counted := { b with settlements := b.settlements + 1 }
  let number := decimalText b.settlements
  if b.faults.panickingSettlements.contains b.settlements then
    (.panic (.text ("settle " ++ number ++ " panicked")), counted)
  else if b.faults.refusedSettlements.contains b.settlements then
    (.error (.transport "aws" ("settle " ++ number ++ " refused")), counted)
  else (.ok (), { counted with broker := b.broker.settle settlement })

def close (b : FaultyBroker) : Except EventError Unit × FaultyBroker :=
  if b.faults.refusesClose then (.error (.transport "kafka" "close refused"), b)
  else (.ok (), { b with broker := b.broker.close })

end FaultyBroker

structure FaultyStore where
  store : OutboxStore
  refused : CallSet
  writes : Nat
deriving DecidableEq, Repr

namespace FaultyStore

def create (refused : CallSet) : FaultyStore := ⟨.empty, refused, 0⟩

def insert (s : FaultyStore) (record : OutboxRecord) : Except EventError Unit × FaultyStore :=
  let counted := { s with writes := s.writes + 1 }
  if s.refused.contains s.writes then
    (.error (.outbox ("write " ++ decimalText s.writes ++ " refused")), counted)
  else (.ok (), { counted with store := s.store.insert record })

end FaultyStore

end EventPipeline

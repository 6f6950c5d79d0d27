import EventPipeline.Scenario.Script
import EventPipeline.Service.Basic
import EventPipeline.Stage.Tag
import EventPipeline.World.News

/-!
Chains put together from a description, with a broker for every poison stage and a store for every
outbox stage.
-/

set_option autoImplicit false

namespace EventPipeline.Scenario

open Events

inductive StageSpec where
  | recoverer
  | correlation
  | logging
  | tracing
  | retry (policy : RetryPolicy)
  | poison (queue : String) (faults : Faults) (closed : Bool) (verdicts : Option Verdicts)
  | validation (registered : List Kind) (ruled : Option (List Kind))
  | outbox (refused : CallSet)
  | tag (before after : Bytes)

structure Rig where
  chain : Chain family
  brokers : List (BrokerId × FaultyBroker)
  queues : List (BrokerId × String)
  stores : List FaultyStore
  validators : List (RulesValidator family)
  verdicts : List Verdicts

def registryOf (kinds : List Kind) : SchemaRegistry family :=
  kinds.foldl (fun registry kind => ((registry.insert (entry kind)).toOption).getD registry) .empty

def validatorOf (kinds : List Kind) : RulesValidator family :=
  kinds.foldl (fun validator kind => validator.add (rule kind)) .empty

namespace Rig

def empty : Rig := ⟨[], [], [], [], [], []⟩

def addStage (rig : Rig) (stage : Stage family) : Rig := { rig with chain := rig.chain ++ [stage] }

def addPoison (rig : Rig) (queue : String) (faults : Faults) (closed : Bool)
    (verdicts : Option Verdicts) : Rig :=
  let id := "poison " ++ decimalText rig.brokers.length
  let fresh := FaultyBroker.create faults
  let broker := if closed then { fresh with broker := fresh.broker.close } else fresh
  let classifier := if verdicts.isSome then Classifier.custom rig.verdicts.length else .standard
  { rig.addStage (PoisonQueue.stage ⟨queue, id, classifier⟩) with
    brokers := rig.brokers ++ [(id, broker)]
    queues := rig.queues ++ [(id, queue)]
    verdicts := rig.verdicts ++ verdicts.toList }

def add (rig : Rig) : StageSpec → Rig
  | .recoverer => rig.addStage .recoverer
  | .correlation => rig.addStage .correlation
  | .logging => rig.addStage .logging
  | .tracing => rig.addStage .tracing
  | .retry policy => rig.addStage (.retry policy)
  | .poison queue faults closed verdicts => rig.addPoison queue faults closed verdicts
  | .validation registered ruled =>
      let validator := ruled.map fun _ => rig.validators.length
      { rig.addStage (SchemaValidation.stage ⟨registryOf registered, validator⟩) with
        validators := rig.validators ++ (ruled.map validatorOf).toList }
  | .outbox refused =>
      { rig.addStage (.outbox rig.stores.length) with stores := rig.stores ++ [.create refused] }
  | .tag before after => rig.addStage (.tag before after)

def ofSpecs (specs : List StageSpec) : Rig := specs.foldl add empty

def world (rig : Rig) (script : Script) : World family :=
  .create (collaborators [script] rig.validators rig.verdicts) rig.brokers rig.stores

def deadLetters (rig : Rig) (w : World family) : List (List Message) :=
  rig.queues.map fun entry => (w.broker entry.1).broker.published entry.2

end Rig

end EventPipeline.Scenario

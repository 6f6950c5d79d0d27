import EventPipeline.Broker.Timeline

/-!
A broker with readers that are known by name. A second reader of the same name takes the place of
the first.
-/

set_option autoImplicit false

namespace EventPipeline.Scenario

structure Bench where
  line : Timeline
  readers : List (String × StreamId)

namespace Bench

def create : Bench := ⟨.create, []⟩

def broker (bench : Bench) : Broker := bench.line.broker

def setBroker (bench : Bench) (broker : Broker) : Bench :=
  { bench with line := { bench.line with broker } }

def catchUp (bench : Bench) : Bench := { bench with line := bench.line.wait 0 }

def publish (bench : Bench) (topic : String) (message : Message) : Except EventError Unit × Bench :=
  match bench.broker.publish topic message with
  | .ok broker => (.ok (), bench.setBroker broker)
  | .error e => (.error e, bench)

def dropReader (bench : Bench) (name : String) : Bool × Bench :=
  match bench.readers.lookup name with
  | none => (false, bench)
  | some id =>
      (true, { bench.setBroker (bench.broker.dropStream id) with
        readers := bench.readers.filter fun entry => entry.1 != name })

def subscribe (bench : Bench) (name topic : String) : Except EventError Unit × Bench :=
  match bench.broker.subscribe topic with
  | .error e => (.error e, bench)
  | .ok (id, broker) =>
      let after := ((bench.setBroker broker).dropReader name).2
      (.ok (), { after with readers := after.readers ++ [(name, id)] })

def receive (bench : Bench) (name : String) : Option Reception × Bench :=
  match bench.readers.lookup name with
  | none => (none, bench)
  | some id =>
      let (reception, broker) := bench.broker.receive id
      (some reception, bench.setBroker broker)

def settle (bench : Bench) (settlement : Settlement) : Bench :=
  bench.setBroker (bench.broker.settle settlement)

def close (bench : Bench) : Bench := bench.setBroker bench.broker.close

end Bench

end EventPipeline.Scenario

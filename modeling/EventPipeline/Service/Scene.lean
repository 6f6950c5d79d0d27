import EventPipeline.Producer
import EventPipeline.Service.Lifetime

/-!
A service in its surroundings, with the shutdown signal and a producer that was taken when the
service was built. Nothing is consumed while an operation here is carried out; the consumers work
only while time passes.
-/

set_option autoImplicit false

namespace EventPipeline

variable {F : EventFamily}

structure Scene (F : EventFamily) where
  world : World F
  lifetime : Lifetime F
  signal : Signal
  outlet : BrokerId

namespace Scene

def create (service : Service F) (world : World F) : Scene F where
  world := world.record service.creationTrace
  lifetime := .configured service
  signal := .create false
  outlet := service.transport.publisher

def service? (scene : Scene F) : Option (Service F) :=
  match scene.lifetime with
  | .configured service => some service
  | _ => none

-- Producers work as long as somebody owns the publisher of the service.
def isConnected (scene : Scene F) : Bool :=
  match scene.lifetime with
  | .configured _ | .starting _ | .running .. => true
  | .finished _ | .dropped => false

def outcome? (scene : Scene F) : Option (Except EventError Unit) :=
  match scene.lifetime with
  | .finished result => some result
  | _ => none

-- A handler can only be added to a service that was not started.
def register (scene : Scene F) (registration : Registration F) :
    Except EventError Unit × Scene F :=
  match scene.lifetime with
  | .configured service =>
      match service.register registration with
      | .error e => (.error e, scene)
      | .ok after =>
          (.ok (), { scene with
            lifetime := .configured after
            world := scene.world.record (Service.registrationTrace service after) })
  | _ => (.error .notInitialized, scene)

def start (scene : Scene F) (stop : Bool) : Scene F :=
  match scene.lifetime with
  | .configured service => { scene with lifetime := .starting service, signal := .create stop }
  | _ => scene

def drop (scene : Scene F) : Scene F :=
  match scene.lifetime with
  | .configured _ => { scene with lifetime := .dropped }
  | _ => scene

def send (scene : Scene F) (stop : Bool) : Bool × Scene F :=
  (scene.signal.stop, { scene with signal := scene.signal.send stop })

def dropSender (scene : Scene F) : Scene F := { scene with signal := scene.signal.drop }

def publish (scene : Scene F) (broker : BrokerId) (topic : String) (message : Message) :
    Except EventError Unit × Scene F :=
  let (result, world) := scene.world.publishInside broker topic message
  (result, { scene with world })

def closeBroker (scene : Scene F) (broker : BrokerId) : Scene F :=
  { scene with world := scene.world.changeBroker broker Broker.close }

def produce (scene : Scene F) (kind : F.Kind) (codec : Codec (F.Value kind)) (queue : String)
    (value : F.Value kind) (metadata : Metadata) :
    Except Panic (Except EventError String) × Scene F :=
  let program := EventPipeline.produce scene.outlet scene.isConnected kind codec queue value metadata
  let (result, world) := scene.world.run program
  (result, { scene with world })

def step (scene : Scene F) : Option (Scene F) :=
  match scene.lifetime with
  | .starting service =>
      let (lifetime, world) := startService service scene.world
      some { scene with lifetime, world }
  | .running transport consumers =>
      match stepConsumers scene.signal consumers scene.world with
      | some (consumers, world) =>
          some { scene with lifetime := .running transport consumers, world }
      | none =>
          match buryConsumer consumers scene.world with
          | some (consumers, world) =>
              some { scene with lifetime := .running transport consumers, world }
          | none =>
              if consumers.all Consumer.hasEnded then
                let (lifetime, world) := finishService transport scene.world
                some { scene with lifetime, world }
              else none
  | .configured _ | .finished _ | .dropped => none

def nextWake? (scene : Scene F) : Option Nat :=
  match scene.lifetime with
  | .running _ consumers => (consumers.filterMap Consumer.wake?).min?
  | _ => none

def atTime (scene : Scene F) (time : Nat) : Scene F :=
  { scene with world := { scene.world with clock := time } }

def runUntil (limit : Nat) : Nat → Scene F → Scene F
  | 0, scene => scene.atTime limit
  | fuel + 1, scene =>
      match scene.step with
      | some scene => runUntil limit fuel scene
      | none =>
          match scene.nextWake? with
          | some time =>
              if time ≤ limit then runUntil limit fuel (scene.atTime time) else scene.atTime limit
          | none => scene.atTime limit

-- Enough for any run that ends in practice.
def enoughFuel : Nat := 1000000000

def advance (scene : Scene F) (pause : Duration) : Scene F :=
  runUntil (scene.world.after pause) enoughFuel scene

def year : Duration := .ofMillis (365 * 86400 * 1000)

def idle (scene : Scene F) : Scene F := scene.advance year

end Scene

end EventPipeline

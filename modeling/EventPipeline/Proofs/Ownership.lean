import EventPipeline.Proofs.Counters
import EventPipeline.Proofs.Drawing
import EventPipeline.Proofs.Production
import EventPipeline.Proofs.RoundTrips
import EventPipeline.Proofs.Startup

/-!
Who owns the publisher of a service, and what its producers can do meanwhile. The service owns it at several
places at once, from its creation to the end of its run, and the world outside may own it as well. Producers
publish while anybody does; what keeps them from publishing shows in no log and no counter.
-/

set_option autoImplicit false

namespace EventPipeline

variable {F : EventFamily}

inductive Owner where
  -- The service, and later the run that it was started as.
  | service
  -- The poison stage of the service.
  | chain
  | route (name : String)
  -- The poison stage that the handler of a route is wrapped in.
  | wrapped (name : String)
  | outsider (number : Nat)
deriving DecidableEq

-- A broker is publisher and subscriber in one.
def Route.owners (guarded : Bool) (outlet : BrokerId) (route : Route F) : List Owner :=
  (if route.publisher = outlet ∨ route.subscriber = outlet then [.route route.name] else []) ++
    if guarded then [.wrapped route.name] else []

-- A loop lets go of its route as soon as it is left.
def Consumer.owners (guarded : Bool) (outlet : BrokerId) (consumer : Consumer F) : List Owner :=
  match consumer.phase with
  | .ended | .failed _ => []
  | _ => consumer.route.owners guarded outlet

def Lifetime.owners (guarded : Bool) (outlet : BrokerId) : Lifetime F → List Owner
  | .configured service | .starting service =>
      .service :: ((if guarded then [.chain] else []) ++ service.routes.flatMap (Route.owners guarded outlet))
  | .running _ consumers =>
      .service :: ((if guarded then [.chain] else []) ++ consumers.flatMap (Consumer.owners guarded outlet))
  | .finished _ | .dropped => []

-- A scene with what is known of the owners of its publisher.
structure Holding (F : EventFamily) where
  scene : Scene F
  guarded : Bool
  outsiders : Nat

-- What may come next in the life of a service. Only an owner can let others share.
inductive Episode (F : EventFamily) where
  | register (registration : Registration F)
  | start (stop : Bool)
  | step
  | act (act : Act)
  | produce (offer : Production F)
  | drop
  | share
  | release

namespace Holding

def create (service : Service F) (w : World F) : Holding F := ⟨.create service w, service.poison?.isSome, 0⟩

def owners (h : Holding F) : List Owner :=
  h.scene.lifetime.owners h.guarded h.scene.outlet ++ (List.range h.outsiders).map .outsider

-- The broker of an offer is the one that the producer was made for.
def offered (h : Holding F) (offer : Production F) : Production F :=
  { offer with broker := h.scene.outlet, connected := !h.owners.isEmpty }

def produce (h : Holding F) (offer : Production F) : Except Panic (Except EventError String) × Holding F :=
  let ran := h.scene.world.run (h.offered offer).program
  (ran.1, { h with scene := { h.scene with world := ran.2 } })

def after (h : Holding F) : Episode F → Holding F
  | .register registration => { h with scene := (h.scene.register registration).2 }
  | .start stop => { h with scene := h.scene.start stop }
  | .step => { h with scene := h.scene.step.getD h.scene }
  | .act act => { h with scene := (h.scene.act act).2 }
  | .produce offer => (h.produce offer).2
  | .drop => { h with scene := h.scene.drop }
  | .share => if h.owners = [] then h else { h with outsiders := h.outsiders + 1 }
  | .release => { h with outsiders := h.outsiders - 1 }

def history (h : Holding F) (episodes : List (Episode F)) : Holding F := episodes.foldl after h

def closed (h : Holding F) : Bool := (h.scene.world.broker h.scene.outlet).broker.closed

-- The service itself is the first to own the publisher and the last to let go of it.
theorem unowned_iff {h : Holding F} : h.owners = [] ↔ h.scene.isConnected = false ∧ h.outsiders = 0 := by
  have inside : h.scene.lifetime.owners h.guarded h.scene.outlet = [] ↔ h.scene.isConnected = false := by
    unfold Scene.isConnected Lifetime.owners
    cases h.scene.lifetime <;> simp
  rw [owners, List.append_eq_nil_iff, inside, List.map_eq_nil_iff, List.range_eq_nil]

-- With nobody outside, a producer goes by the scene alone.
theorem produce_scene {h : Holding F} (alone : h.outsiders = 0) (offer : Production F) :
    ((h.produce offer).1, (h.produce offer).2.scene) =
      h.scene.produce offer.kind offer.codec offer.queue offer.value offer.metadata := by
  have connected : (!h.owners.isEmpty) = h.scene.isConnected := by
    cases known : h.scene.isConnected with
    | false => rw [unowned_iff.mpr ⟨known, alone⟩]; rfl
    | true =>
        cases owners : h.owners with
        | cons first rest => rfl
        | nil => rw [(unowned_iff.mp owners).1] at known; cases known
  unfold produce Scene.produce offered Production.program
  rw [connected]

end Holding

-- How one scene comes from another: the brokers were called, and every loop waits for an answer that was
-- really started.
structure Scene.Continues (before after : Scene F) : Prop where
  outlet : after.outlet = before.outlet
  anchored : ∀ consumer ∈ after.lifetime.consumers, consumer.Anchored
  called : ∃ calls, before.world.Called calls after.world

theorem nobody_anchored {lifetime : Lifetime F} (nobody : lifetime.consumers = []) :
    ∀ consumer ∈ lifetime.consumers, consumer.Anchored := by
  rw [nobody]
  exact fun consumer member => absurd member List.not_mem_nil

namespace Scene

variable {scene : Scene F} (anchored : ∀ consumer ∈ scene.lifetime.consumers, consumer.Anchored)

theorem open_routes_starting {service : Service F} {routes : List (Route F)} {w v : World F}
    {consumers : List (Consumer F)} (opened : openRoutes service routes w = (.ok consumers, v)) :
    ∀ consumer ∈ consumers, consumer.phase = .starting := by
  induction routes generalizing w v consumers with
  | nil =>
      cases opened
      exact fun consumer member => absurd member List.not_mem_nil
  | cons route routes ih =>
      unfold openRoutes at opened
      split at opened
      · cases opened
      · next first between subscribed =>
          split at opened
          · next others last rest =>
              cases opened
              intro consumer member
              rcases List.mem_cons.mp member with rfl | later
              · unfold openRoute at subscribed
                cases reply : w.subscribe route.subscriber route.consumeQueue with
                | error e => rw [reply] at subscribed; cases subscribed
                | ok result =>
                    rw [reply] at subscribed
                    cases subscribed
                    rfl
              · exact ih rest consumer later
          · cases opened

include anchored

theorem register_continues (registration : Registration F) :
    scene.Continues (scene.register registration).2 := by
  unfold register
  split
  · split
    · exact ⟨rfl, anchored, _, World.called_of_brokers rfl rfl rfl⟩
    · exact ⟨rfl, nobody_anchored rfl, _, World.called_of_brokers rfl rfl rfl⟩
  · exact ⟨rfl, anchored, _, World.called_of_brokers rfl rfl rfl⟩

theorem start_continues (stop : Bool) : scene.Continues (scene.start stop) := by
  unfold start
  split
  · exact ⟨rfl, nobody_anchored rfl, _, World.called_of_brokers rfl rfl rfl⟩
  · exact ⟨rfl, anchored, _, World.called_of_brokers rfl rfl rfl⟩

theorem drop_continues : scene.Continues scene.drop := by
  unfold drop
  split
  · exact ⟨rfl, nobody_anchored rfl, _, World.called_of_brokers rfl rfl rfl⟩
  · exact ⟨rfl, anchored, _, World.called_of_brokers rfl rfl rfl⟩

theorem act_continues (act : Act) : scene.Continues (scene.act act).2 := by
  have staffed : scene.Staffed scene.lifetime.consumers := fun i consumer known =>
    ⟨anchored consumer (List.mem_of_getElem? known), consumer, known, rfl⟩
  obtain ⟨kept, ⟨calls, called, -⟩, -⟩ := perform_draws staffed [act]
  refine ⟨?_, fun consumer member => ?_, calls, called⟩
  · cases act with
    | turn turn => rfl
    | conclude =>
        change scene.conclude.2.outlet = scene.outlet
        unfold conclude
        repeat' split
        all_goals rfl
  · obtain ⟨i, known⟩ := List.getElem?_of_mem member
    exact (kept i consumer known).1

theorem step_continues {next : Scene F} (stepped : scene.step = some next) : scene.Continues next := by
  cases lifetime : scene.lifetime with
  | running transport consumers =>
      obtain ⟨act, rfl⟩ := step_acts lifetime stepped
      exact act_continues anchored act
  | starting service =>
      unfold step at stepped
      rw [lifetime] at stepped
      cases stepped
      obtain ⟨u, last, outcome, early, opened, late, begun⟩ := start_opens service scene.world
      obtain ⟨-, calls, -, called, -⟩ := open_routes_subscribes opened
      refine ⟨rfl, ?_, _, World.called_trans (World.called_trans early called) late⟩
      change ∀ consumer ∈ (startService service scene.world).1.consumers, consumer.Anchored
      rw [begun]
      cases outcome with
      | error e => exact nobody_anchored rfl
      | ok consumers =>
          intro consumer member effect pending next waiting
          rw [open_routes_starting opened consumer member] at waiting
          cases waiting
  | _ =>
      unfold step at stepped
      rw [lifetime] at stepped
      cases stepped

end Scene

-- A service that is over stays over.
namespace Scene

variable {scene : Scene F} (gone : scene.isConnected = false)

theorem disconnected_iff :
    scene.isConnected = false ↔ (∃ result, scene.lifetime = .finished result) ∨ scene.lifetime = .dropped := by
  unfold isConnected
  cases scene.lifetime <;> simp

include gone

theorem register_over (registration : Registration F) : (scene.register registration).2 = scene := by
  unfold register
  rcases disconnected_iff.mp gone with ⟨result, lifetime⟩ | lifetime <;> rw [lifetime]

theorem start_over (stop : Bool) : scene.start stop = scene := by
  unfold start
  rcases disconnected_iff.mp gone with ⟨result, lifetime⟩ | lifetime <;> rw [lifetime]

theorem drop_over : scene.drop = scene := by
  unfold drop
  rcases disconnected_iff.mp gone with ⟨result, lifetime⟩ | lifetime <;> rw [lifetime]

theorem step_over : scene.step = none := by
  unfold step
  rcases disconnected_iff.mp gone with ⟨result, lifetime⟩ | lifetime <;> rw [lifetime]

theorem act_over (act : Act) : (scene.act act).2.isConnected = scene.isConnected := by
  have kept : (scene.act act).2.lifetime = scene.lifetime := by
    rcases disconnected_iff.mp gone with ⟨result, lifetime⟩ | lifetime
    · exact (finished_stays lifetime [act]).2.1.trans lifetime.symm
    · cases act with
      | turn turn =>
          change scene.lifetime.withConsumers _ = _
          rw [lifetime]
          rfl
      | conclude =>
          have same : scene.conclude = ([], scene) := by
            unfold conclude
            rw [lifetime]
          exact congrArg (fun run => run.2.lifetime) same
  unfold isConnected
  rw [kept]

end Scene

namespace Holding

variable {h : Holding F}

structure Sound (h : Holding F) : Prop where
  anchored : ∀ consumer ∈ h.scene.lifetime.consumers, consumer.Anchored
  plain : (h.scene.world.broker h.scene.outlet).faults = .none

theorem sound_continues {scene : Scene F} (sound : h.Sound) (continues : h.scene.Continues scene) :
    (Holding.mk scene h.guarded h.outsiders).Sound := by
  obtain ⟨calls, called⟩ := continues.called
  refine ⟨continues.anchored, ?_⟩
  change (scene.world.broker scene.outlet).faults = .none
  rw [continues.outlet, called.faults]
  exact sound.plain

theorem after_sound (sound : h.Sound) (episode : Episode F) : (h.after episode).Sound := by
  cases episode with
  | register registration => exact sound_continues sound (Scene.register_continues sound.anchored registration)
  | start stop => exact sound_continues sound (Scene.start_continues sound.anchored stop)
  | act act => exact sound_continues sound (Scene.act_continues sound.anchored act)
  | drop => exact sound_continues sound (Scene.drop_continues sound.anchored)
  | release => exact ⟨sound.anchored, sound.plain⟩
  | step =>
      change (Holding.mk (h.scene.step.getD h.scene) h.guarded h.outsiders).Sound
      cases stepped : h.scene.step with
      | none => exact sound
      | some next => exact sound_continues sound (Scene.step_continues sound.anchored stepped)
  | produce offer =>
      obtain ⟨result, v, ran, comes⟩ := (h.offered offer).run_comes h.scene.world
      obtain ⟨calls, called, -⟩ := Production.comes_called comes
      change (h.produce offer).2.Sound
      unfold produce
      rw [ran]
      exact sound_continues sound ⟨rfl, sound.anchored, calls, called⟩
  | share =>
      change (if h.owners = [] then h else _).Sound
      split
      · exact sound
      · exact ⟨sound.anchored, sound.plain⟩

theorem history_sound (sound : h.Sound) (episodes : List (Episode F)) : (h.history episodes).Sound := by
  induction episodes generalizing h with
  | nil => exact sound
  | cons episode episodes ih => exact ih (after_sound sound episode)

-- Nobody can come by the publisher any more once nobody owns it.
theorem after_unowned (lost : h.owners = []) (episode : Episode F) : (h.after episode).owners = [] := by
  obtain ⟨gone, alone⟩ := unowned_iff.mp lost
  cases episode with
  | register registration => exact unowned_iff.mpr ⟨by rw [after, Scene.register_over gone, gone], alone⟩
  | start stop => exact unowned_iff.mpr ⟨by rw [after, Scene.start_over gone, gone], alone⟩
  | step => exact unowned_iff.mpr ⟨by rw [after, Scene.step_over gone]; exact gone, alone⟩
  | act act => exact unowned_iff.mpr ⟨(Scene.act_over gone act).trans gone, alone⟩
  | produce offer => exact unowned_iff.mpr ⟨gone, alone⟩
  | drop => exact unowned_iff.mpr ⟨by rw [after, Scene.drop_over gone, gone], alone⟩
  | share => rw [after, if_pos lost, lost]
  | release => exact unowned_iff.mpr ⟨gone, by rw [after, alone]⟩

theorem history_unowned (lost : h.owners = []) (episodes : List (Episode F)) : (h.history episodes).owners = [] := by
  induction episodes generalizing h with
  | nil => exact lost
  | cons episode episodes ih => exact ih (after_unowned lost episode)

end Holding

namespace World

variable {w : World F} {id : BrokerId}

-- A broker without faults takes what is published to it exactly while it is open.
theorem publish_shut (plain : (w.broker id).faults = .none) (shut : (w.broker id).broker.closed = true)
    (topic : String) (message : Message) :
    w.publish id topic message =
      (.error Broker.refusal, w.setBroker id { w.broker id with publishes := (w.broker id).publishes + 1 }) := by
  have refused : (w.broker id).publish topic message =
      (.error Broker.refusal, { w.broker id with publishes := (w.broker id).publishes + 1 }) := by
    simp [FaultyBroker.publish, FaultyBroker.publishInside, Broker.publish, plain, shut, Faults.none, CallSet.none,
      CallSet.contains, Except.map]
  rw [publish, refused]

theorem publish_open (plain : (w.broker id).faults = .none) (opened : (w.broker id).broker.closed = false)
    (topic : String) (message : Message) : ∃ v, w.publish id topic message = (.ok (), v) := by
  have accepted : ((w.broker id).publish topic message).1 = .ok () := by
    simp [FaultyBroker.publish, FaultyBroker.publishInside, Broker.publish, plain, opened, Faults.none, CallSet.none,
      CallSet.contains, Except.map]
  refine ⟨_, Prod.ext ?_ rfl⟩
  unfold publish
  dsimp only
  rw [accepted]

end World

namespace Holding

variable {h : Holding F} {offer : Production F}

-- Neither a log nor a counter is different.
structure SameBooks (h after : Holding F) : Prop where
  logs : ∀ broker topic, (after.scene.world.broker broker).broker.published topic =
    (h.scene.world.broker broker).broker.published topic
  measurements : after.scene.world.measurements = h.scene.world.measurements

-- One message more on one queue, and one count more on the producer's counter for it.
structure Booked (h : Holding F) (offer : Production F) (message : Message) (after : Holding F) : Prop where
  schema : message.metadata.schema? = some (F.schema offer.kind)
  headers : ∀ key, key ≠ Metadata.schemaKey → message.metadata.get? key = offer.metadata.get? key
  payload : offer.codec.encode offer.value = .ok message.payload
  logs : ∀ broker topic, (after.scene.world.broker broker).broker.published topic =
    (h.scene.world.broker broker).broker.published topic ++
      if broker = h.scene.outlet ∧ topic = offer.queue then [message] else []
  readings : ∀ m : Measurement, m.reading after.scene.world.measurements =
    m.reading h.scene.world.measurements + if m = .published producerName offer.queue then 1 else 0

theorem offered_connected (owned : h.owners ≠ []) : (h.offered offer).connected = true := by
  cases owners : h.owners with
  | nil => exact absurd owners owned
  | cons first rest => simp [offered, owners]

theorem produce_unowned (lost : h.owners = []) (offer : Production F) :
    h.produce offer = (.ok (.error .notInitialized), h) := by
  have unconnected : (h.offered offer).connected = false := by simp [offered, lost]
  unfold produce
  rw [Production.run_unowned unconnected]

theorem produce_unnamed (owned : h.owners ≠ []) (blank : isBlankText offer.queue = true) :
    h.produce offer = (.ok (.error (.config "queue name is required to publish")), h) := by
  unfold produce
  rw [Production.run_unnamed (offered_connected owned) blank]

theorem produce_unencoded (owned : h.owners ≠ []) (named : isBlankText offer.queue = false) {e : EventError}
    (bad : offer.codec.encode offer.value = .error e) : h.produce offer = (.ok (.error e), h) := by
  unfold produce
  rw [Production.run_unencoded (p := h.offered offer) (offered_connected owned) named bad]

theorem produce_refused (plain : (h.scene.world.broker h.scene.outlet).faults = .none) (owned : h.owners ≠ [])
    (named : isBlankText offer.queue = false) {payload : Bytes}
    (encoded : offer.codec.encode offer.value = .ok payload) (shut : h.closed = true) :
    ∃ after, h.produce offer = (.ok (.error Broker.refusal), after) ∧ h.SameBooks after := by
  let w := Production.naming h.scene.world
  have answered := World.publish_shut (w := w) plain shut offer.queue
    ((h.offered offer).message (Uuid.ofNat h.scene.world.ids) payload)
  unfold produce
  rw [Production.run_encoded (p := h.offered offer) (offered_connected owned) named encoded answered]
  refine ⟨_, rfl, fun broker topic => ?_, ?_⟩
  · dsimp only
    rw [World.broker_set_broker]
    split
    · next here =>
        rw [here]
        rfl
    · rfl
  · dsimp only
    rw [World.set_broker_only]
    rfl

theorem produce_booked (plain : (h.scene.world.broker h.scene.outlet).faults = .none) (owned : h.owners ≠ [])
    (named : isBlankText offer.queue = false) {payload : Bytes}
    (encoded : offer.codec.encode offer.value = .ok payload) (opened : h.closed = false) :
    ∃ message after, h.produce offer = (.ok (.ok message.uuid), after) ∧ h.Booked offer message after := by
  let w := Production.naming h.scene.world
  let message := (h.offered offer).message (Uuid.ofNat h.scene.world.ids) payload
  obtain ⟨v, answered⟩ := World.publish_open (w := w) plain opened offer.queue message
  have comes := @Production.Comes.accepted _ (h.offered offer) h.scene.world payload v encoded answered
    ((h.offered offer).produced (Uuid.ofNat h.scene.world.ids))
  unfold produce
  rw [Production.run_encoded (p := h.offered offer) (offered_connected owned) named encoded answered]
  obtain ⟨other, again, -, logs⟩ := Production.comes_published comes
  cases encoded.symm.trans again
  refine ⟨message, _, rfl, offer.metadata.get_set_same _ _, fun key apart => offer.metadata.get_set_other apart _,
    encoded, logs, fun m => ?_⟩
  have measured := Production.comes_measured comes
  dsimp only
  rw [measured, Measurement.reading_eq_count, Measurement.reading_eq_count, List.count_append, Production.counts,
    List.count_singleton]
  by_cases own : m = .published producerName offer.queue
  · simp [own, offered]
  · simp [own, offered, Ne.symm own]

theorem create_sound {service : Service F} {w : World F}
    (plain : (w.broker service.transport.publisher).faults = .none) : (create service w).Sound :=
  ⟨nobody_anchored rfl, plain⟩

end Holding

theorem producers_publish_while_owned (service : Service F) {w : World F}
    (plain : (w.broker service.transport.publisher).faults = .none) (episodes : List (Episode F)) :
    let h := (Holding.create service w).history episodes
    (h.owners = [] ↔ h.scene.isConnected = false ∧ h.outsiders = 0) ∧
    (h.outsiders = 0 → ∀ offer, ((h.produce offer).1, (h.produce offer).2.scene) =
      h.scene.produce offer.kind offer.codec offer.queue offer.value offer.metadata) ∧
    (∀ offer,
      (h.owners = [] → h.produce offer = (.ok (.error .notInitialized), h)) ∧
      (h.owners ≠ [] → isBlankText offer.queue = true →
        h.produce offer = (.ok (.error (.config "queue name is required to publish")), h)) ∧
      (h.owners ≠ [] → isBlankText offer.queue = false → ∀ e, offer.codec.encode offer.value = .error e →
        h.produce offer = (.ok (.error e), h) ∧ (offer.codec.Shipped → ∃ text, e = .serialization text)) ∧
      (h.owners ≠ [] → isBlankText offer.queue = false → ∀ payload, offer.codec.encode offer.value = .ok payload →
        (h.closed = true →
          ∃ after, h.produce offer = (.ok (.error Broker.refusal), after) ∧ h.SameBooks after) ∧
        (h.closed = false →
          ∃ message after, h.produce offer = (.ok (.ok message.uuid), after) ∧ h.Booked offer message after))) ∧
    (h.scene.isConnected = false → h.outsiders = 0 → ∀ later offer,
      (h.history later).produce offer = (.ok (.error .notInitialized), h.history later)) := by
  intro h
  have sound : h.Sound := Holding.history_sound (Holding.create_sound plain) episodes
  refine ⟨Holding.unowned_iff, fun alone offer => Holding.produce_scene alone offer, fun offer => ⟨?_, ?_, ?_, ?_⟩, ?_⟩
  · exact fun lost => Holding.produce_unowned lost offer
  · exact fun owned blank => Holding.produce_unnamed owned blank
  · exact fun owned named e bad =>
      ⟨Holding.produce_unencoded owned named bad, fun shipped => encode_refusal shipped bad⟩
  · exact fun owned named payload encoded =>
      ⟨Holding.produce_refused sound.plain owned named encoded, Holding.produce_booked sound.plain owned named encoded⟩
  · intro gone alone later offer
    exact Holding.produce_unowned (Holding.history_unowned (Holding.unowned_iff.mpr ⟨gone, alone⟩) later) offer

theorem a_share_outlives_the_service :
    let w : World Events.family := .create echoCollaborators [] []
    let shared := (Holding.create (copyService .default) w).history [.share, .drop]
    (w.broker (copyService .default : Service Events.family).transport.publisher).faults = .none ∧
      shared.scene.isConnected = false ∧
      (∃ message after, shared.produce pingProduction = (.ok (.ok message.uuid), after) ∧
        (after.scene.world.broker "main").broker.published "in" = [message]) ∧
      ∀ later, ((shared.after .release).history later).produce pingProduction =
        (.ok (.error .notInitialized), (shared.after .release).history later) := by
  intro w shared
  have plain : (w.broker (copyService .default : Service Events.family).transport.publisher).faults = .none := rfl
  refine ⟨plain, rfl, ?_, ?_⟩
  · obtain ⟨-, -, offers, -⟩ := producers_publish_while_owned (copyService .default) plain [.share, .drop]
    obtain ⟨-, -, -, published⟩ := offers pingProduction
    obtain ⟨message, after, ran, booked⟩ := (published (List.cons_ne_nil _ _) (by decide) _ rfl).2 rfl
    exact ⟨message, after, ran, booked.logs "main" "in"⟩
  · obtain ⟨-, -, -, afterwards⟩ := producers_publish_while_owned (copyService .default) plain [.share, .drop, .release]
    exact fun later => afterwards rfl rfl later pingProduction

end EventPipeline

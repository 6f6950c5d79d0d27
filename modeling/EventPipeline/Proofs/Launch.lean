import EventPipeline.Proofs.Drawing
import EventPipeline.Proofs.Schedules

/-!
Startup is all or nothing. If a subscription is refused the run ends with that error and has touched
nothing but the streams it opened, which are gone again. If nobody refuses, all streams are open before
anything is taken from one of them, and none is opened later.
-/

set_option autoImplicit false

namespace EventPipeline

variable {F : EventFamily}

-- Beside the streams, a start leaves only remarks.
theorem start_running {service : Service F} {w v : World F} {consumers : List (Consumer F)}
    (opened : openRoutes service service.routes w = (.ok consumers, v)) :
    ∃ trace, startService service w = (.running service.transport consumers, { v with trace }) := by
  unfold startService
  cases routes : service.routes with
  | nil =>
      rw [routes] at opened
      cases opened
      exact ⟨_, rfl⟩
  | cons route rest =>
      rw [routes] at opened
      dsimp only [List.isEmpty_cons]
      rw [if_neg Bool.false_ne_true, opened]
      exact ⟨_, rfl⟩

theorem start_refused {service : Service F} {w v : World F} {e : EventError}
    (opened : openRoutes service service.routes w = (.error e, v)) :
    startService service w = (.finished (.error e), v) := by
  unfold startService
  cases routes : service.routes with
  | nil =>
      rw [routes] at opened
      cases opened
  | cons route rest =>
      rw [routes] at opened
      dsimp only [List.isEmpty_cons]
      rw [if_neg Bool.false_ne_true, opened]

theorem start_steps {scene : Scene F} {service : Service F}
    (configured : scene.lifetime = .configured service) (stop : Bool) :
    (scene.start stop).step = some { scene with
      lifetime := (startService service scene.world).1
      world := (startService service scene.world).2
      signal := .create stop } := by
  rw [Scene.start, configured]
  rfl

namespace Scene

-- One subscription was refused after those before it. Their streams were let go as they were opened, and
-- whatever happens later, the service has no part in it.
structure CalledOff (before : Scene F) (done : List (Route F)) (route : Route F) (e : EventError)
    (started : Scene F) : Prop where
  result : started.lifetime = .finished (.error e)
  refused : ∃ streams u, before.world.Subscribes done streams u ∧
    u.subscribe route.subscriber route.consumeQueue = .error e
  letGo : before.world.Opens done true started.world
  afterwards : ∀ acts, (started.perform acts).1 = [] ∧
    (started.perform acts).2.lifetime = .finished (.error e) ∧
    started.world.Spared (started.perform acts).2.world

-- Each route has a stream of its own, opened in the order of the routes, and nothing was taken from any.
-- Whatever happens later, no stream is opened, and what a loop takes comes from the stream it has.
structure UnderWay (service : Service F) (before started : Scene F) (consumers : List (Consumer F)) :
    Prop where
  running : started.lifetime = .running service.transport consumers
  subscribed : ∃ streams u, before.world.Subscribes service.routes streams u ∧
    consumers = List.zipWith service.consumer service.routes streams ∧
    before.world.Opens service.routes false u ∧
    started.world = { u with trace := started.world.trace }
  loops : consumers.map (·.route) = service.routes
  apart : (consumers.map Consumer.key).Nodup
  untouched : ∀ consumer ∈ consumers, consumer.Reads started.world []
  later : ∀ acts,
    (∀ id, ((started.perform acts).2.world.broker id).broker.topics =
      (started.world.broker id).broker.topics) ∧
    ∀ i message, .noted ⟨i, .took message⟩ ∈ (started.perform acts).1 →
      ∃ consumer, consumers[i]? = some consumer ∧
        (started.perform acts).2.world.Gave consumer.key message

theorem start_called_off {service : Service F} {scene : Scene F} (historic : scene.world.Historic)
    {done left : List (Route F)} {route : Route F} {e : EventError}
    (routes : service.routes = done ++ route :: left)
    (accepted : ∀ early ∈ done, scene.world.refusal? early = none)
    (refused : scene.world.refusal? route = some e) (signal : Signal) :
    scene.CalledOff done route e { scene with
      lifetime := (startService service scene.world).1
      world := (startService service scene.world).2
      signal } := by
  obtain ⟨streams, u, v, subscribes, last, opened, letGo⟩ :=
    open_routes_refused service left (historic_sound historic) accepted refused
  rw [← routes] at opened
  rw [start_refused opened]
  refine ⟨rfl, ⟨streams, u, subscribes, last⟩, letGo, fun acts => ?_⟩
  obtain ⟨silent, still, -⟩ := @finished_stays F
    { scene with lifetime := .finished (.error e), world := v, signal } _ rfl acts
  exact ⟨silent, still, finished_spares rfl acts⟩

theorem start_under_way {service : Service F} {scene : Scene F} (historic : scene.world.Historic)
    (accepted : ∀ route ∈ service.routes, scene.world.refusal? route = none) (signal : Signal) :
    ∃ consumers, scene.UnderWay service { scene with
      lifetime := (startService service scene.world).1
      world := (startService service scene.world).2
      signal } consumers := by
  obtain ⟨streams, u, subscribes, opened⟩ := open_routes_accepted service accepted
  obtain ⟨trace, started⟩ := start_running opened
  obtain ⟨loops, fresh, apart, -⟩ := open_routes_fresh (historic_sound historic) opened
  have remarked : u.Called World.nothing { u with trace } := World.called_of_brokers rfl rfl rfl
  rw [started]
  refine ⟨_, rfl, ⟨streams, u, subscribes, rfl, World.subscribes_opens subscribes, rfl⟩, loops, apart,
    fun consumer member => reads_called (fresh consumer member).reads remarked fun _ _ asked => (nomatch asked),
    fun acts => ?_⟩
  have staffed : Staffed (List.zipWith service.consumer service.routes streams)
      { scene with
        lifetime := .running service.transport (List.zipWith service.consumer service.routes streams)
        world := { u with trace }
        signal } := by
    intro i consumer known
    refine ⟨fun effect pending next waiting => ?_, consumer, known, rfl⟩
    rw [(fresh consumer (List.mem_of_getElem? known)).phase] at waiting
    cases waiting
  obtain ⟨-, ⟨calls, called, unsubscribed⟩, taken⟩ := perform_draws staffed acts
  refine ⟨fun id => ?_, taken⟩
  rw [called.inside]
  exact Broker.run_topics _ (unsubscribed id)

end Scene

theorem startup_is_all_or_nothing (service : Service F) {scene : Scene F} (historic : scene.world.Historic)
    (configured : scene.lifetime = .configured service) (stop : Bool) :
    ∃ started, (scene.start stop).step = some started ∧
      (∀ done route left e, service.routes = done ++ route :: left →
        (∀ early ∈ done, scene.world.refusal? early = none) → scene.world.refusal? route = some e →
        scene.CalledOff done route e started) ∧
      ((∀ route ∈ service.routes, scene.world.refusal? route = none) →
        ∃ consumers, scene.UnderWay service started consumers) :=
  ⟨_, start_steps configured stop,
    fun _ _ _ _ routes accepted refused => Scene.start_called_off historic routes accepted refused _,
    fun accepted => Scene.start_under_way historic accepted _⟩

-- A message waits on the first queue, and the broker of the second route does not know its queue.
def waitingMessage : Message := ⟨"a", [], .empty⟩

def waitingWorld : World Events.family :=
  .create echoCollaborators
    [("main", { FaultyBroker.create .none with
      broker := (Broker.empty.run [.publish "in" waitingMessage]).2 }),
      ("spare", .create { Faults.none with missingTopics := ["orders"] })] []

def strayRoute : Route Events.family :=
  (copyService .default).route
    { copyRegistration with name := some "stray", consumeQueue := "orders", subscriber := some "spare" }
    "stray" (.raw 0)

def strandedService : Service Events.family :=
  { pairService with routes := [copyRoute .default, strayRoute, copyRoute .default] }

theorem waiting_historic : waitingWorld.Historic := by
  intro id
  by_cases main : id = "main"
  · subst main
    exact ⟨[.publish "in" waitingMessage], rfl⟩
  · refine ⟨[], ?_⟩
    by_cases spare : id = "spare"
    · subst spare
      rfl
    · simp [waitingWorld, World.create, World.broker, Ne.symm main, Ne.symm spare, FaultyBroker.create,
        Broker.run]

theorem stranded_service_takes_nothing :
    waitingWorld.Historic ∧
      (∃ started, ((Scene.create strandedService waitingWorld).start false).step = some started ∧
        started.lifetime = .finished (.error (.transport "rabbitmq" "no queue orders")) ∧
        (started.world.broker "main").broker.streams = [⟨0, "in", [], [waitingMessage], true, true⟩] ∧
        (started.world.broker "main").tally = (0, 0, 0, 0, 0) ∧
        (started.world.broker "spare").broker.streams = []) ∧
      ∃ started consumers, ((Scene.create pairService waitingWorld).start false).step = some started ∧
        started.lifetime = .running pairService.transport consumers ∧
        (started.world.broker "main").broker.streams =
          [⟨0, "in", [], [waitingMessage], true, false⟩, ⟨1, "in", [], [waitingMessage], true, false⟩] := by
  refine ⟨waiting_historic, ?_, ?_⟩
  · obtain ⟨started, stepped, calledOff, -⟩ :=
      @startup_is_all_or_nothing _ strandedService (Scene.create strandedService waitingWorld)
        waiting_historic rfl false
    have off := calledOff [copyRoute .default] strayRoute [copyRoute .default] _ rfl
      (fun early member => by rw [List.mem_singleton.mp member]; rfl) rfl
    refine ⟨started, stepped, off.result, ?_, ?_, ?_⟩
    · rw [off.letGo.brokers]
      rfl
    · rw [off.letGo.brokers]
      rfl
    · rw [off.letGo.brokers]
      rfl
  · obtain ⟨started, stepped, -, underWay⟩ :=
      @startup_is_all_or_nothing _ pairService (Scene.create pairService waitingWorld)
        waiting_historic rfl false
    obtain ⟨consumers, under⟩ := underWay fun route member => by
      simp only [pairService, List.mem_cons, List.not_mem_nil, or_false] at member
      rcases member with rfl | rfl <;> rfl
    obtain ⟨streams, u, -, -, opens, same⟩ := under.subscribed
    refine ⟨started, consumers, stepped, under.running, ?_⟩
    have brokers : started.world.broker "main" = u.broker "main" := by
      rw [same]
      rfl
    rw [brokers, opens.brokers]
    rfl

end EventPipeline

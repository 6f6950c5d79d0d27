import EventPipeline.Proofs.Conclusion
import EventPipeline.Proofs.Subscriptions

/-!
What a run draws from the streams of its brokers. Its loops take from their own streams alone, and nobody
opens a stream any more; once the run has ended, only the world outside goes on.
-/

set_option autoImplicit false

namespace EventPipeline

variable {F : EventFamily}

namespace Broker

def topics (broker : Broker) : List String := broker.streams.map (·.topic)

theorem topics_map {streams : List MessageStream} {change : MessageStream → MessageStream}
    (keeps : ∀ stream, (change stream).topic = stream.topic) :
    (streams.map change).map (·.topic) = streams.map (·.topic) := by
  rw [List.map_map]
  exact List.map_congr_left fun stream _ => keeps stream

-- Only a subscription opens a stream.
theorem does_topics {broker after : Broker} {c : BrokerCall} {answer : BrokerAnswer}
    (does : Does broker c answer after) (unsubscribed : c.subscribed? = none) :
    after.topics = broker.topics := by
  have updated : ∀ (id : StreamId) (change : MessageStream → MessageStream),
      (∀ stream, (change stream).topic = stream.topic) →
      (broker.updateStream id change).topics = broker.topics := by
    intro id change keeps
    apply topics_map
    intro stream
    split
    · exact keeps stream
    · rfl
  cases does with
  | published opened topic message => exact topics_map fun stream => (deliver_keeps topic message stream).1
  | subscribed opened topic => cases unsubscribed
  | gave found waiting => exact updated _ take fun stream => (take_keeps stream).1
  | dropped id => exact updated id _ fun _ => rfl
  | settled settlement => cases settlement <;> rfl
  | ended => exact topics_map fun _ => rfl
  | _ => rfl

theorem run_topics (broker : Broker) {calls : List BrokerCall}
    (unsubscribed : ∀ c ∈ calls, c.subscribed? = none) : (broker.run calls).2.topics = broker.topics := by
  induction calls generalizing broker with
  | nil => rfl
  | cons c calls ih =>
      have first := does_topics (call_does broker c) (unsubscribed c List.mem_cons_self)
      exact (ih _ fun other member => unsubscribed other (List.mem_cons_of_mem _ member)).trans first

-- What a stream gave stays given, also when its reader goes away.
theorem does_received {broker after : Broker} {c : BrokerCall} {answer : BrokerAnswer}
    (does : Does broker c answer after) {id : StreamId} {stream : MessageStream}
    (found : broker.stream? id = some stream) :
    ∃ later, after.stream? id = some later ∧ stream.received <+: later.received := by
  by_cases dropped : c = .drop id
  · subst dropped
    cases does
    have there := stream_update broker id id (fun stream => { stream with dropped := true }) fun _ => rfl
    rw [if_pos rfl, found] at there
    exact ⟨_, there, List.prefix_refl _⟩
  · obtain ⟨later, reached, -, -, received⟩ := does_follows does found dropped
    exact ⟨later, reached, received ▸ List.prefix_append _ _⟩

theorem run_received {broker : Broker} {id : StreamId} {stream : MessageStream}
    (found : broker.stream? id = some stream) (calls : List BrokerCall) :
    ∃ later, (broker.run calls).2.stream? id = some later ∧ stream.received <+: later.received := by
  induction calls generalizing broker stream with
  | nil => exact ⟨stream, found, List.prefix_refl _⟩
  | cons c calls ih =>
      obtain ⟨next, known, grown⟩ := does_received (call_does broker c) found
      obtain ⟨last, reached, grown₁⟩ := ih known
      exact ⟨last, reached, grown.trans grown₁⟩

theorem receive_gives {broker : Broker} {id : StreamId} {message : Message}
    (got : (broker.receive id).1 = .message message) :
    ∃ stream, (broker.receive id).2.stream? id = some stream ∧ message ∈ stream.received := by
  have does := receive_does broker id
  rw [got] at does
  generalize (broker.receive id).2 = after at does
  generalize same : BrokerAnswer.received (.message message) = other at does
  cases does with
  | @gave _ stream _ rest found waiting =>
      cases same
      have there := stream_update broker id id take take_id
      rw [if_pos rfl, found] at there
      refine ⟨take stream, there, ?_⟩
      rw [take_pending waiting]
      exact List.mem_append_right _ List.mem_cons_self
  | @dry _ stream found empty => cases attached : stream.attached <;> rw [attached] at same <;> cases same
  | unknown missing => cases same

end Broker

-- What a service has asked of a broker and what the broker has counted of it.
def FaultyBroker.tally (b : FaultyBroker) : Nat × Nat × Nat × Nat × Nat :=
  (b.publishes, b.settlements, b.broker.acked, b.broker.nacked, b.broker.requeued)

namespace World

-- No handler was called, and nothing was stored, counted, published or settled by a service.
structure Spared (w v : World F) : Prop where
  calls : v.calls = w.calls
  stores : v.stores = w.stores
  measurements : v.measurements = w.measurements
  tallies : ∀ id, (v.broker id).tally = (w.broker id).tally

theorem spared_refl (w : World F) : w.Spared w := ⟨rfl, rfl, rfl, fun _ => rfl⟩

theorem spared_trans {w u v : World F} (first : w.Spared u) (second : u.Spared v) : w.Spared v :=
  ⟨second.calls.trans first.calls, second.stores.trans first.stores,
    second.measurements.trans first.measurements, fun id => (second.tallies id).trans (first.tallies id)⟩

theorem spared_set_broker (w : World F) (id : BrokerId) {b : FaultyBroker}
    (same : b.tally = (w.broker id).tally) : w.Spared (w.setBroker id b) := by
  refine ⟨by rw [set_broker_only], by rw [set_broker_only], by rw [set_broker_only], ?_⟩
  intro other
  rw [broker_set_broker]
  split
  · next here => rw [here, same]
  · rfl

theorem spared_publish_inside (w : World F) (id : BrokerId) (topic : String) (message : Message) :
    w.Spared (w.publishInside id topic message).2 := by
  by_cases closed : (w.broker id).broker.closed = true
  · have refused : (w.broker id).publishInside topic message = .error Broker.refusal := by
      rw [FaultyBroker.publishInside, Broker.publish, if_pos closed]
      rfl
    rw [publishInside, refused]
    exact spared_refl w
  · rw [publishInside, FaultyBroker.publishInside, Broker.publish, if_neg closed]
    have spared := spared_set_broker w id (b := { w.broker id with
      broker := { (w.broker id).broker with
        log := (w.broker id).broker.log ++ [(topic, message)]
        streams := (w.broker id).broker.streams.map (Broker.deliver topic message) } }) rfl
    exact ⟨spared.calls, spared.stores, spared.measurements, spared.tallies⟩

-- A message that a stream has given to its reader.
def Gave (w : World F) (key : BrokerId × StreamId) (message : Message) : Prop :=
  ∃ stream, (w.broker key.1).broker.stream? key.2 = some stream ∧ message ∈ stream.received

theorem gave_called {w v : World F} {calls : BrokerId → List BrokerCall} (called : w.Called calls v)
    {key : BrokerId × StreamId} {message : Message} (gave : w.Gave key message) : v.Gave key message := by
  obtain ⟨stream, found, member⟩ := gave
  obtain ⟨later, reached, grown⟩ := Broker.run_received found (calls key.1)
  rw [← called.inside] at reached
  exact ⟨later, reached, grown.subset member⟩

end World

namespace Scene

-- When a run has ended, only the world outside goes on.
theorem act_spares {scene : Scene F} {result : Except EventError Unit}
    (finished : scene.lifetime = .finished result) (act : Act) :
    scene.world.Spared (scene.act act).2.world := by
  cases act with
  | conclude =>
      rw [act, conclude, finished]
      exact World.spared_refl _
  | turn turn =>
      cases turn with
      | close broker => exact World.spared_set_broker scene.world broker rfl
      | choose choice =>
          cases choice with
          | step i =>
              have nobody : scene.crew.consumers[i]? = none := by
                rw [crew, finished]
                rfl
              change scene.world.Spared (scene.crew.choose (.step i)).2.world
              rw [Crew.choose, nobody]
              exact World.spared_refl _
          | publish broker topic message => exact World.spared_publish_inside scene.world broker topic message
          | wait millis => exact ⟨rfl, rfl, rfl, fun _ => rfl⟩
          | send stop => exact World.spared_refl _
          | dropSender => exact World.spared_refl _

theorem finished_spares {scene : Scene F} {result : Except EventError Unit}
    (finished : scene.lifetime = .finished result) (acts : List Act) :
    scene.world.Spared (scene.perform acts).2.world := by
  induction acts generalizing scene with
  | nil => exact World.spared_refl _
  | cons act acts ih =>
      have still : (scene.act act).2.lifetime = .finished result := (finished_stays finished [act]).2.1
      exact World.spared_trans (act_spares finished act) (ih still)

end Scene

theorem Consumer.moves_anchored {signal : Signal} {consumer after : Consumer F} {w v : World F}
    {happening : Option (Happening F)} (moves : consumer.Moves signal w happening after v)
    (anchored : consumer.Anchored) : after.Anchored := by
  intro effect pending next waiting
  cases moves with
  | noticed phase => exact anchored effect pending next waiting
  | began phase =>
      cases waiting
      exact ⟨w, rfl⟩
  | _ => cases waiting

namespace Scene

-- Every loop at work reads the stream that was opened for it.
def Staffed (crew : List (Consumer F)) (scene : Scene F) : Prop :=
  ∀ (i : Nat) consumer, scene.lifetime.consumers[i]? = some consumer →
    consumer.Anchored ∧ ∃ first, crew[i]? = some first ∧ first.key = consumer.key

-- What a run does with the streams of a crew: it takes from them alone, and it opens no other.
structure Draws (crew : List (Consumer F)) (before : Scene F) (deeds : List (Deed F)) (after : Scene F) :
    Prop where
  staffed : after.Staffed crew
  called : ∃ calls, before.world.Called calls after.world ∧ ∀ id c, c ∈ calls id → c.subscribed? = none
  taken : ∀ i message, .noted ⟨i, .took message⟩ ∈ deeds →
    ∃ first, crew[i]? = some first ∧ after.world.Gave first.key message

theorem draws_nothing {crew : List (Consumer F)} {before after : Scene F} (staffed : after.Staffed crew)
    {calls : BrokerId → List BrokerCall} (called : before.world.Called calls after.world)
    (unsubscribed : ∀ id c, c ∈ calls id → c.subscribed? = none) : Draws crew before [] after :=
  ⟨staffed, ⟨calls, called, unsubscribed⟩, fun _ _ member => nomatch member⟩

theorem draws_append {crew : List (Consumer F)} {before between after : Scene F}
    {first second : List (Deed F)} (early : Draws crew before first between)
    (late : Draws crew between second after) : Draws crew before (first ++ second) after := by
  obtain ⟨calls, called, unsubscribed⟩ := early.called
  obtain ⟨calls₁, called₁, unsubscribed₁⟩ := late.called
  refine ⟨late.staffed, ⟨_, World.called_trans called called₁, ?_⟩, ?_⟩
  · intro id c member
    rcases List.mem_append.mp member with here | there
    · exact unsubscribed id c here
    · exact unsubscribed₁ id c there
  · intro i message member
    rcases List.mem_append.mp member with here | there
    · obtain ⟨consumer, known, gave⟩ := early.taken i message here
      exact ⟨consumer, known, World.gave_called called₁ gave⟩
    · exact late.taken i message there

theorem unsubscribed_nothing (id : BrokerId) (c : BrokerCall) (member : c ∈ World.nothing id) :
    c.subscribed? = none := nomatch member

theorem consumers_with {lifetime : Lifetime F} {consumers : List (Consumer F)} {i : Nat}
    {consumer : Consumer F}
    (known : (lifetime.withConsumers consumers).consumers[i]? = some consumer) :
    consumers[i]? = some consumer := by
  cases lifetime with
  | running transport others => exact known
  | _ => cases known

theorem staffed_with_crew {crew : List (Consumer F)} {scene : Scene F} (staffed : scene.Staffed crew)
    (next : Crew F) (same : next.consumers = scene.crew.consumers) : (scene.withCrew next).Staffed crew := by
  intro i consumer known
  have among := consumers_with known
  rw [same] at among
  exact staffed i consumer among

-- A step of one loop. Only a message that its own stream gave is noted as taken.
theorem moves_draws {crew : List (Consumer F)} {scene : Scene F} (staffed : scene.Staffed crew) {i : Nat}
    {consumer after : Consumer F} {v : World F} {happening : Option (Happening F)}
    (known : scene.crew.consumers[i]? = some consumer)
    (moves : consumer.Moves scene.signal scene.world happening after v) :
    Draws crew scene ((happening.map (Entry.mk i)).toList.map .noted)
      (scene.withCrew { scene.crew with consumers := scene.crew.consumers.set i after, world := v }) := by
  obtain ⟨anchored, first, there, key⟩ := staffed i consumer known
  obtain ⟨route, -, stream⟩ := Consumer.moves_keeps moves
  obtain ⟨calls, called, cause⟩ := Consumer.moves_called moves anchored
  refine ⟨?_, ⟨calls, called, ?_⟩, ?_⟩
  · intro j other found
    have among := consumers_with found
    rw [List.getElem?_set] at among
    split at among
    · next here =>
        split at among
        · cases among
          refine ⟨Consumer.moves_anchored moves anchored, first, here ▸ there, ?_⟩
          rw [key, Consumer.key, Consumer.key, route, stream]
        · cases among
    · exact staffed j other among
  · intro id c member
    rcases cause id c member with ⟨-, ⟨rfl, -⟩ | ⟨rfl, -⟩⟩ | ⟨x, -, asked⟩
    · rfl
    · rfl
    · rcases Effect.asks_only asked with ⟨topic, message, rfl⟩ | ⟨settlement, rfl⟩ <;> rfl
  · intro j message member
    cases happening with
    | none => cases member
    | some what =>
        obtain ⟨rfl, rfl⟩ : j = i ∧ .took message = what := by simpa using member
        refine ⟨first, there, ?_⟩
        rw [key]
        cases moves with
        | took phase got quiet =>
            obtain ⟨source, found, given⟩ := Broker.receive_gives got
            have inside := (World.called_receive scene.world consumer.route.subscriber consumer.stream).inside
              consumer.route.subscriber
            rw [World.only_same] at inside
            exact ⟨source, (congrArg (Broker.stream? · consumer.stream) inside).trans found, given⟩

theorem turn_draws {crew : List (Consumer F)} {scene : Scene F} (staffed : scene.Staffed crew)
    (turn : Turn) : Draws crew scene (scene.act (.turn turn)).1 (scene.act (.turn turn)).2 := by
  cases turn with
  | close broker =>
      refine draws_nothing (staffed_with_crew staffed _ rfl) (Crew.called_close scene.world broker) ?_
      intro id c member
      rw [(World.mem_only.mp member).2]
      rfl
  | choose choice =>
      have chosen := Crew.choose_chosen scene.crew choice
      change Draws crew scene ((scene.crew.choose choice).1.map .noted)
        (scene.withCrew (scene.crew.choose choice).2)
      generalize (scene.crew.choose choice).1 = journal, (scene.crew.choose choice).2 = next at chosen
      cases chosen with
      | stuck i =>
          exact draws_nothing (staffed_with_crew staffed _ rfl) (World.called_of_brokers rfl rfl rfl)
            unsubscribed_nothing
      | moved known moves => exact moves_draws staffed known moves
      | outside called signal =>
          refine draws_nothing (staffed_with_crew staffed _ rfl) called fun id c member => ?_
          obtain ⟨topic, message, -, same⟩ := Crew.called_outside member
          rw [same]
          rfl

end Scene

-- A loop that broke down is written off, and no other loop changes.
theorem bury_spares {consumers after : List (Consumer F)} {w v : World F}
    (buried : buryConsumer consumers w = some (after, v)) :
    w.Called World.nothing v ∧ ∀ (i : Nat) consumer, after[i]? = some consumer →
      ∃ old, consumers[i]? = some old ∧ old.key = consumer.key ∧
        (consumer.phase = .ended ∨ consumer = old) := by
  induction consumers generalizing after with
  | nil => cases buried
  | cons first consumers ih =>
      rw [buryConsumer] at buried
      split at buried
      · cases buried
        refine ⟨Consumer.called_record w _, fun i consumer known => ?_⟩
        cases i with
        | zero => cases known; exact ⟨first, rfl, rfl, .inl rfl⟩
        | succ i => exact ⟨consumer, known, rfl, .inr rfl⟩
      · obtain ⟨⟨others, world⟩, later, same⟩ := Option.map_eq_some_iff.mp buried
        cases same
        obtain ⟨called, keys⟩ := ih later
        refine ⟨called, fun i consumer known => ?_⟩
        cases i with
        | zero => cases known; exact ⟨first, rfl, rfl, .inr rfl⟩
        | succ i => exact keys i consumer known

namespace Scene

theorem conclude_draws {crew : List (Consumer F)} {scene : Scene F} (staffed : scene.Staffed crew) :
    Draws crew scene scene.conclude.1 scene.conclude.2 := by
  have resting : Draws crew scene [] scene :=
    draws_nothing staffed (World.called_of_brokers rfl rfl rfl) unsubscribed_nothing
  unfold conclude
  split
  · next transport consumers running =>
      split
      · next after world buried =>
          obtain ⟨called, keys⟩ := bury_spares buried
          refine draws_nothing ?_ called unsubscribed_nothing
          intro i consumer known
          obtain ⟨old, there, key, state⟩ := keys i consumer known
          obtain ⟨anchored, first, origin, same⟩ := staffed i old (by rw [running]; exact there)
          refine ⟨?_, first, origin, same.trans key⟩
          rcases state with ended | rfl
          · intro effect pending next waiting
            rw [ended] at waiting
            cases waiting
          · exact anchored
      · split
        · obtain ⟨calls, called, only, -⟩ := called_finish transport scene.world
          refine ⟨fun i consumer known => (nomatch known), ⟨calls, called, fun id c member => ?_⟩, ?_⟩
          · rw [only id c member]
            rfl
          · intro i message member
            cases List.mem_singleton.mp member
        · exact resting
  · exact resting

theorem perform_draws {crew : List (Consumer F)} {scene : Scene F} (staffed : scene.Staffed crew)
    (acts : List Act) : Draws crew scene (scene.perform acts).1 (scene.perform acts).2 := by
  induction acts generalizing scene with
  | nil => exact draws_nothing staffed (World.called_of_brokers rfl rfl rfl) unsubscribed_nothing
  | cons act acts ih =>
      have first : Draws crew scene (scene.act act).1 (scene.act act).2 := by
        cases act with
        | turn turn => exact turn_draws staffed turn
        | conclude => exact conclude_draws staffed
      exact draws_append first (ih first.staffed)

end Scene

end EventPipeline

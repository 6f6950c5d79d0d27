import EventPipeline.Proofs.Repeatable
import EventPipeline.Proofs.Turns

/-!
Runs in which brokers and stores never fail. Then an answer in the journal depends on the question alone,
unless a handler gave it, and the log of a queue that no route writes to holds what came from outside.
-/

set_option autoImplicit false

namespace EventPipeline

open Program Transcript

variable {F : EventFamily}

structure World.Reliable (w : World F) : Prop where
  faultless : ∀ id, (w.broker id).faults = .none
  opened : ∀ id, (w.broker id).broker.closed = false
  stores : ∀ id, (w.store id).refused = .none

def Exchange.Honest (collaborators : Collaborators F) : Exchange F → Prop
  | ⟨.freshId, text⟩ => Uuid.Generated text
  | ⟨.publish .., reply⟩ => reply = Reply.ok ()
  | ⟨.settle .., reply⟩ => reply = Reply.ok ()
  | ⟨.store .., reply⟩ => reply = Reply.ok ()
  | ⟨.validate validator event, reply⟩ => reply = collaborators.validate validator event
  | ⟨.classify classifier e, verdict⟩ => verdict = collaborators.classify classifier e
  | _ => True

theorem reliable_called {w v : World F} {calls : BrokerId → List BrokerCall} (reliable : w.Reliable)
    (called : w.Called calls v) (kept : ∀ id, .close ∉ calls id) : v.Reliable := by
  refine ⟨fun id => ?_, fun id => ?_, fun id => ?_⟩
  · rw [called.faults]
    exact reliable.faultless id
  · rw [called.inside, Broker.run_closed, reliable.opened]
    simpa using kept id
  · rw [called.stores]
    exact reliable.stores id

theorem nothing_refused (n : Nat) : CallSet.none.contains n = false := rfl

theorem reliable_publish {w : World F} (reliable : w.Reliable) (id : BrokerId) (topic : String)
    (message : Message) : (w.publish id topic message).1 = .ok () := by
  simp [World.publish, FaultyBroker.publish, reliable.faultless, Faults.none, nothing_refused,
    FaultyBroker.publishInside, Broker.publish, reliable.opened, Except.map]

theorem reliable_settle {w : World F} (reliable : w.Reliable) (id : BrokerId) (settlement : Settlement) :
    ((w.broker id).settle settlement).1 = .ok () := by
  simp [FaultyBroker.settle, reliable.faultless, Faults.none, nothing_refused]

theorem reliable_store {w : World F} (reliable : w.Reliable) (id : StoreId) (record : OutboxRecord) :
    ((w.store id).insert record).1 = .ok () := by
  simp [FaultyStore.insert, reliable.stores, nothing_refused]

-- With reliable brokers and stores the answer is a function of the question, except for the identifiers,
-- which are made up, and for the handlers, of which nothing is said here.
theorem resume_honest (origin : World F) {w : World F} (reliable : w.Reliable) (effect : Effect F) :
    Exchange.Honest w.collaborators ⟨effect, ((origin.start effect).1.resume w).1⟩ := by
  cases effect with
  | freshId => exact ⟨w.ids, rfl⟩
  | publish id topic message => exact congrArg World.replyOf (reliable_publish reliable id topic message)
  | settle id settlement => exact reliable_settle reliable id settlement
  | store id eventType messageId payload =>
      exact congrArg World.replyOf (reliable_store reliable id ⟨eventType, messageId, payload⟩)
  | validate validator event => exact rfl
  | classify classifier e => exact rfl
  | _ => trivial

-- No route and no poison queue writes to a queue that some route reads.
structure Service.Separate (service : Service F) : Prop where
  outputs : ∀ reader ∈ service.routes, ∀ route ∈ service.routes,
    route.publisher = reader.subscriber → route.publishQueue ≠ some reader.consumeQueue
  letters : ∀ reader ∈ service.routes, ∀ poison, service.poison? = some poison →
    poison.broker = reader.subscriber → poison.queue ≠ reader.consumeQueue

def Effect.Elsewhere (broker : BrokerId) (topic : String) (effect : Effect F) : Prop :=
  ∀ queue message, effect = .publish broker queue message → queue ≠ topic

theorem elsewhere_of_internal {broker : BrokerId} {topic : String} (effect : Effect F)
    (internal : effect.reachesBroker = false) : effect.Elsewhere broker topic := by
  intro queue message same
  subst same
  cases internal

theorem elsewhere_settle (broker other : BrokerId) (topic : String) (settlement : Settlement) :
    (Effect.settle other settlement : Effect F).Elsewhere broker topic := by
  intro queue message same
  cases same

-- A route publishes its outputs and its dead letters and nothing else.
theorem process_elsewhere {service : Service F} (built : service.Built) (separate : service.Separate)
    {reader route : Route F} (reads : reader ∈ service.routes) (member : route ∈ service.routes)
    (message : Message) :
    (route.process (service.pipeline route) message).Only
      (Effect.Elsewhere reader.subscriber reader.consumeQueue) := by
  have internal : ∀ e : Effect F, e.reachesBroker = false →
      e.Elsewhere reader.subscriber reader.consumeQueue := elsewhere_of_internal
  have remarks : ∀ e : Effect F, e.isRemark = true →
      e.Elsewhere reader.subscriber reader.consumeQueue :=
    fun e told => internal e (unreached_of_routine (routine_of_remark told))
  have confined : (service.pipeline route).Only
      (Effect.Elsewhere reader.subscriber reader.consumeQueue) := by
    apply pipeline_only internal service (built_standard built member)
    intro poison found letter queue message same
    obtain ⟨broker, target, -⟩ := Effect.publish.inj same
    rw [← target]
    exact separate.letters reader reads poison found broker
  have outlet : ∀ queue, route.publishQueue = some queue → ∀ message,
      (Effect.publish route.publisher queue message : Effect F).Elsewhere
        reader.subscriber reader.consumeQueue := by
    intro queue target letter other message same
    obtain ⟨broker, here, -⟩ := Effect.publish.inj same
    intro same
    subst same
    rw [here] at target
    exact separate.outputs reader reads route member broker target
  exact process_only remarks outlet (elsewhere_settle _ _ _) confined message

namespace Consumer

theorem answered_waiting {signal : Signal} {consumer after : Consumer F} {w v : World F} {x : Exchange F}
    (moves : Moves signal consumer w (some (.answered x)) after v) :
    ∃ (pending : Pending F x.effect.Answer) (next : x.effect.Answer → Program F Unit),
      consumer.phase = .waiting x.effect pending next ∧ x.answer = (pending.resume w).1 := by
  cases moves with
  | answered phase => exact ⟨_, _, phase, rfl⟩

theorem waiting_allowed {work : Message → Program F Unit} {allowed : Effect F → Prop}
    (confined : ∀ message, (work message).Only allowed) {effect : Effect F}
    {pending : Pending F effect.Answer} {next : effect.Answer → Program F Unit}
    {happenings : List (Happening F)} (tracks : Tracks work (.waiting effect pending next) happenings) :
    allowed effect := by
  obtain ⟨_, _, -, -, underway⟩ := tracks
  cases underway with
  | @waiting handling _ _ origin reached => exact (only_after (confined handling.message) reached).1

end Consumer

theorem asks_publish_of {effect : Effect F} {id : BrokerId} {topic : String} {message : Message}
    (asked : effect.asks id (.publish topic message)) : effect = .publish id topic message := by
  cases effect with
  | publish broker queue other =>
      obtain ⟨rfl, same⟩ := asked
      cases same
      rfl
  | settle broker settlement => cases asked.2
  | _ => cases asked

theorem asks_no_close {effect : Effect F} {id : BrokerId} : ¬ effect.asks id .close := by
  intro asked
  rcases Effect.asks_only asked with ⟨topic, message, same⟩ | ⟨settlement, same⟩ <;> cases same

theorem published_on_none (broker : Broker) {topic : String} {calls : List BrokerCall}
    (silent : ∀ message, .publish topic message ∉ calls) :
    publishedOn topic (broker.run calls).1 = [] := by
  induction calls generalizing broker with
  | nil => rfl
  | cons c calls ih =>
      have later := ih (broker.call c).2 fun message member => silent message (List.mem_cons_of_mem _ member)
      rw [Broker.run, published_on_cons, later, List.append_nil]
      cases c with
      | publish target message =>
          have apart : target ≠ topic := by
            intro same
            subst same
            exact silent message List.mem_cons_self
          cases (broker.call (.publish target message)).1 with
          | published result => cases result <;> simp [publishedOn, Answered.publishedOn?, apart]
          | _ => rfl
      | _ => rfl

def Choice.outside? (broker : BrokerId) (topic : String) : Choice → Option Message
  | .publish target queue message => if target = broker ∧ queue = topic then some message else none
  | _ => none

def externals (broker : BrokerId) (topic : String) (choices : List Choice) : List Message :=
  choices.filterMap (Choice.outside? broker topic)

namespace Crew

structure Trusted (collaborators : Collaborators F) (past : Journal F) (crew : Crew F) : Prop where
  reliable : crew.world.Reliable
  same : crew.world.collaborators = collaborators
  honest : ∀ entry ∈ past, ∀ x, entry.happening = .answered x → x.Honest collaborators

theorem step_trusted {service : Service F} {collaborators : Collaborators F} {past : Journal F}
    {crew : Crew F} (orderly : crew.Orderly service past) (trusted : crew.Trusted collaborators past)
    {i : Nat} {consumer after : Consumer F} {v : World F} {happening : Option (Happening F)}
    (known : crew.consumers[i]? = some consumer)
    (moves : consumer.Moves crew.signal crew.world happening after v) :
    Trusted collaborators (past ++ (happening.map (Entry.mk i)).toList)
      { crew with consumers := crew.consumers.set i after, world := v } := by
  have anchored := orderly_anchored orderly known
  obtain ⟨calls, called, cause⟩ := Consumer.moves_called moves anchored
  refine ⟨reliable_called trusted.reliable called ?_, called.collaborators.trans trusted.same, ?_⟩
  · intro id member
    rcases cause id _ member with ⟨-, ⟨same, -⟩ | ⟨same, -⟩⟩ | ⟨x, -, asked⟩
    · cases same
    · cases same
    · exact asks_no_close asked
  · intro entry member x answered
    rcases List.mem_append.mp member with old | new
    · exact trusted.honest entry old x answered
    · obtain ⟨what, rfl, rfl⟩ := Option.map_eq_some_iff.mp (Option.mem_toList.mp new)
      have same : what = .answered x := answered
      subst same
      obtain ⟨pending, next, phase, answer⟩ := Consumer.answered_waiting moves
      obtain ⟨origin, rfl⟩ := anchored _ _ _ phase
      have honest := resume_honest origin trusted.reliable x.effect
      rw [← answer, trusted.same] at honest
      exact honest

theorem chosen_trusted {service : Service F} {collaborators : Collaborators F} {past journal : Journal F}
    {crew next : Crew F} (orderly : crew.Orderly service past) (trusted : crew.Trusted collaborators past)
    {choice : Choice} (chosen : crew.Chosen choice journal next) :
    next.Trusted collaborators (past ++ journal) := by
  cases chosen with
  | stuck i => rwa [List.append_nil]
  | moved known moves => exact step_trusted orderly trusted known moves
  | outside called signal =>
      rw [List.append_nil]
      refine ⟨reliable_called trusted.reliable called ?_, called.collaborators.trans trusted.same,
        trusted.honest⟩
      intro id member
      obtain ⟨topic, message, -, same⟩ := called_outside member
      cases same

-- No step of a consumer adds to a queue that no route writes to.
theorem step_logs {service : Service F} (built : service.Built) (separate : service.Separate)
    {past : Journal F} {crew : Crew F} (orderly : crew.Orderly service past) {reader : Route F}
    (reads : reader ∈ service.routes) {i : Nat} {consumer after : Consumer F} {v : World F}
    {happening : Option (Happening F)} (known : crew.consumers[i]? = some consumer)
    (moves : consumer.Moves crew.signal crew.world happening after v) :
    (v.broker reader.subscriber).broker.published reader.consumeQueue =
      (crew.world.broker reader.subscriber).broker.published reader.consumeQueue := by
  obtain ⟨calls, called, cause⟩ := Consumer.moves_called moves (orderly_anchored orderly known)
  rw [called.inside, Broker.run_logs, published_on_none, List.append_nil]
  intro message member
  rcases cause _ _ member with ⟨-, ⟨same, -⟩ | ⟨same, -⟩⟩ | ⟨x, answered, asked⟩
  · cases same
  · cases same
  · rw [answered] at moves
    obtain ⟨pending, next, phase, -⟩ := Consumer.answered_waiting moves
    have tracks := orderly.tracks_at known
    rw [phase] at tracks
    have member := List.mem_of_getElem? (orderly.route_at known)
    have elsewhere := Consumer.waiting_allowed (process_elsewhere built separate reads member) tracks
    exact elsewhere _ _ (asks_publish_of asked) rfl

theorem outside_logs {w : World F} (reliable : w.Reliable) (id : BrokerId) (topic : String)
    (choice : Choice) :
    publishedOn topic ((w.broker id).broker.run (choice.calls id)).1 = externals id topic [choice] := by
  cases choice with
  | publish broker queue message =>
      by_cases here : id = broker
      · have answered := Broker.does_call (.published (reliable.opened id) queue message)
        rw [Choice.calls, here, World.only_same, ← here, Broker.run, answered]
        by_cases same : queue = topic
        · simp [Broker.run, publishedOn, Answered.publishedOn?, externals, Choice.outside?, same, here]
        · simp [Broker.run, publishedOn, Answered.publishedOn?, externals, Choice.outside?, same]
      · have apart : broker ≠ id := Ne.symm here
        simp [Choice.calls, World.only, here, Broker.run, publishedOn, externals, Choice.outside?, apart]
  | _ => rfl

-- A queue that no route writes to only gets what comes from outside.
theorem chosen_logs {service : Service F} (built : service.Built) (separate : service.Separate)
    {past journal : Journal F} {crew next : Crew F} (orderly : crew.Orderly service past)
    (reliable : crew.world.Reliable) {reader : Route F} (reads : reader ∈ service.routes) {choice : Choice}
    (chosen : crew.Chosen choice journal next) :
    (next.world.broker reader.subscriber).broker.published reader.consumeQueue =
      (crew.world.broker reader.subscriber).broker.published reader.consumeQueue ++
        externals reader.subscriber reader.consumeQueue [choice] := by
  cases chosen with
  | stuck i => exact (List.append_nil _).symm
  | moved known moves =>
      exact (step_logs built separate orderly reads known moves).trans (List.append_nil _).symm
  | outside called signal => rw [called.inside, Broker.run_logs, outside_logs reliable]

theorem follow_trusted {service : Service F} {collaborators : Collaborators F} {past : Journal F}
    {crew : Crew F} (orderly : crew.Orderly service past) (trusted : crew.Trusted collaborators past)
    (choices : List Choice) :
    Trusted collaborators (past ++ (crew.follow choices).1) (crew.follow choices).2 := by
  induction choices generalizing past crew with
  | nil => simpa [follow] using trusted
  | cons choice choices ih =>
      rw [follow, ← List.append_assoc]
      have chosen := choose_chosen crew choice
      exact ih (chosen_orderly orderly chosen) (chosen_trusted orderly trusted chosen)

theorem follow_logs {service : Service F} (built : service.Built) (separate : service.Separate)
    {collaborators : Collaborators F} {past : Journal F} {crew : Crew F}
    (orderly : crew.Orderly service past) (trusted : crew.Trusted collaborators past) {reader : Route F}
    (reads : reader ∈ service.routes) (choices : List Choice) :
    ((crew.follow choices).2.world.broker reader.subscriber).broker.published reader.consumeQueue =
      (crew.world.broker reader.subscriber).broker.published reader.consumeQueue ++
        externals reader.subscriber reader.consumeQueue choices := by
  induction choices generalizing past crew with
  | nil => exact (List.append_nil _).symm
  | cons choice choices ih =>
      have apart : choice :: choices = [choice] ++ choices := rfl
      have chosen := choose_chosen crew choice
      rw [follow, ih (chosen_orderly orderly chosen) (chosen_trusted orderly trusted chosen),
        chosen_logs built separate orderly trusted.reliable reads chosen, List.append_assoc]
      congr 1
      rw [apart, externals, externals, externals, List.filterMap_append]

end Crew

end EventPipeline

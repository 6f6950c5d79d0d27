import EventPipeline.Proofs.Sessions

/-!
Routes are subscribed for one after another. The first refusal ends it, and then the streams that were
open are let go as they are. A subscription opens one stream and changes nothing else.
-/

set_option autoImplicit false

namespace EventPipeline

variable {F : EventFamily}

def BrokerCall.subscribed? : BrokerCall → Option String
  | .subscribe topic => some topic
  | _ => none

-- What the routes read from one broker, in order.
def topicsOn (routes : List (Route F)) (id : BrokerId) : List String :=
  (routes.filter (·.subscriber = id)).map (·.consumeQueue)

namespace Broker

-- Streams for some topics, numbered from a start. Each of them begins with the log of its topic.
def openings (broker : Broker) (start : StreamId) (topics : List String) (dropped : Bool) :
    List MessageStream :=
  topics.mapIdx fun i topic => ⟨start + i, topic, [], broker.published topic, true, dropped⟩

theorem openings_cons (broker : Broker) (start : StreamId) (topic : String) (topics : List String)
    (dropped : Bool) :
    broker.openings start (topic :: topics) dropped =
      ⟨start, topic, [], broker.published topic, true, dropped⟩ ::
        broker.openings (start + 1) topics dropped := by
  simp [openings, List.mapIdx_cons, Nat.add_assoc, Nat.add_comm 1]

def opened (broker : Broker) (topics : List String) (dropped : Bool) : Broker :=
  { broker with
    streams := broker.streams ++ broker.openings broker.streams.length topics dropped }

theorem opened_nil (broker : Broker) (dropped : Bool) : broker.opened [] dropped = broker := by
  simp [opened, openings]

-- One stream first and the others after it.
theorem opened_after (broker : Broker) (topic : String) (topics : List String) (dropped : Bool) :
    (broker.opened [topic] false).opened topics dropped =
      { broker with
        streams := broker.streams ++ ⟨broker.streams.length, topic, [], broker.published topic, true, false⟩ ::
          broker.openings (broker.streams.length + 1) topics dropped } := by
  have others : (broker.opened [topic] false).openings (broker.opened [topic] false).streams.length topics
      dropped = broker.openings (broker.streams.length + 1) topics dropped := by
    rw [opened, List.length_append, openings_cons]
    rfl
  rw [opened, others, opened, openings_cons, List.append_assoc]
  rfl

theorem opened_cons (broker : Broker) (topic : String) (topics : List String) :
    (broker.opened [topic] false).opened topics false = broker.opened (topic :: topics) false := by
  rw [opened_after, opened, openings_cons]

theorem map_absent {streams : List MessageStream} {id : StreamId} (absent : ∀ stream ∈ streams, stream.id ≠ id)
    (change : MessageStream → MessageStream) :
    (streams.map fun stream => if stream.id = id then change stream else stream) = streams :=
  (List.map_congr_left fun stream member => if_neg (absent stream member)).trans (List.map_id streams)

-- Numbers tell streams apart, so letting go of the first one leaves those before and after it alone.
theorem opened_dropped {broker : Broker} (sound : Sound broker) (topic : String) (topics : List String) :
    ((broker.opened [topic] false).opened topics true).dropStream broker.streams.length =
      broker.opened (topic :: topics) true := by
  have before : ∀ stream ∈ broker.streams, stream.id ≠ broker.streams.length := by
    intro stream member same
    have missing := stream_missing sound
    rw [← same, stream_of_mem sound member] at missing
    cases missing
  have after : ∀ stream ∈ broker.openings (broker.streams.length + 1) topics true,
      stream.id ≠ broker.streams.length := by
    intro stream member
    obtain ⟨i, small, rfl⟩ := List.mem_mapIdx.mp member
    exact Nat.ne_of_gt (Nat.lt_of_lt_of_le (Nat.lt_succ_self _) (Nat.le_add_right _ i))
  rw [opened_after, dropStream, updateStream, List.map_append, List.map_cons, map_absent before,
    map_absent after, if_pos rfl, opened, openings_cons]

end Broker

def FaultyBroker.opened (b : FaultyBroker) (topics : List String) (dropped : Bool) : FaultyBroker :=
  { b with broker := b.broker.opened topics dropped }

theorem FaultyBroker.opened_nothing (b : FaultyBroker) (dropped : Bool) : b.opened [] dropped = b :=
  congrArg (fun broker => { b with broker }) (Broker.opened_nil b.broker dropped)

namespace World

theorem set_broker_only (w : World F) (id : BrokerId) (b : FaultyBroker) :
    w.setBroker id b = { w with brokers := (w.setBroker id b).brokers } := by
  unfold setBroker
  split <;> rfl

-- How one world comes from another by opening streams for routes, and perhaps letting go of them. Nothing
-- else is changed in any broker, nor beside the brokers.
structure Opens (w : World F) (routes : List (Route F)) (dropped : Bool) (v : World F) : Prop where
  brokers : ∀ id, v.broker id = (w.broker id).opened (topicsOn routes id) dropped
  rest : v = { w with brokers := v.brokers }

theorem opens_nothing (w : World F) (dropped : Bool) : w.Opens [] dropped w :=
  ⟨fun id => ((w.broker id).opened_nothing dropped).symm, rfl⟩

theorem topics_here (route : Route F) (routes : List (Route F)) :
    topicsOn (route :: routes) route.subscriber =
      route.consumeQueue :: topicsOn routes route.subscriber := by
  simp [topicsOn]

theorem topics_elsewhere {route : Route F} {id : BrokerId} (elsewhere : id ≠ route.subscriber)
    (routes : List (Route F)) : topicsOn (route :: routes) id = topicsOn routes id := by
  simp [topicsOn, Ne.symm elsewhere]

theorem subscribe_opens {w u : World F} {route : Route F} {stream : StreamId}
    (subscribed : w.subscribe route.subscriber route.consumeQueue = .ok (stream, u)) :
    stream = (w.broker route.subscriber).broker.streams.length ∧ w.Opens [route] false u := by
  have opened : stream = (w.broker route.subscriber).broker.streams.length ∧
      u = w.setBroker route.subscriber ((w.broker route.subscriber).opened [route.consumeQueue] false) := by
    unfold subscribe FaultyBroker.subscribe Broker.subscribe at subscribed
    split at subscribed
    · cases subscribed
    · split at subscribed
      · cases subscribed
      · cases subscribed
        exact ⟨rfl, rfl⟩
  obtain ⟨numbered, rfl⟩ := opened
  refine ⟨numbered, fun id => ?_, set_broker_only w _ _⟩
  rw [broker_set_broker]
  by_cases here : id = route.subscriber
  · rw [if_pos here, here, topics_here]
    rfl
  · rw [if_neg here, topics_elsewhere here]
    exact ((w.broker id).opened_nothing false).symm

theorem opens_cons {w u v : World F} {route : Route F} {routes : List (Route F)}
    (first : w.Opens [route] false u) (rest : u.Opens routes false v) :
    w.Opens (route :: routes) false v := by
  refine ⟨fun id => ?_, ?_⟩
  · rw [rest.brokers, first.brokers]
    by_cases here : id = route.subscriber
    · subst here
      rw [topics_here, topics_here]
      exact congrArg (fun broker => { w.broker route.subscriber with broker }) (Broker.opened_cons _ _ _)
    · rw [topics_elsewhere here, topics_elsewhere here]
      exact congrArg (FaultyBroker.opened · _ _) ((w.broker id).opened_nothing false)
  · rw [rest.rest, first.rest]

-- The streams opened later were let go of before the first one is.
theorem opens_leave {w u v : World F} {route : Route F} {routes : List (Route F)}
    (sound : ∀ id, Broker.Sound (w.broker id).broker) (first : w.Opens [route] false u)
    (rest : u.Opens routes true v) {consumer : Consumer F} (routed : consumer.route = route)
    (numbered : consumer.stream = (w.broker route.subscriber).broker.streams.length) (phase : Phase F) :
    w.Opens (route :: routes) true (consumer.leave phase v).2 := by
  subst routed
  have before : ∀ id, v.broker id =
      ((w.broker id).opened (topicsOn [consumer.route] id) false).opened (topicsOn routes id) true := by
    intro id
    rw [rest.brokers, first.brokers]
  refine ⟨fun id => ?_, ?_⟩
  · rw [Consumer.leave, changeBroker, broker_set_broker]
    by_cases here : id = consumer.route.subscriber
    · subst here
      rw [if_pos rfl, before, topics_here, topics_here, numbered]
      exact congrArg (fun broker => { w.broker consumer.route.subscriber with broker })
        (Broker.opened_dropped (sound _) _ _)
    · rw [if_neg here, before, topics_elsewhere here, topics_elsewhere here]
      exact congrArg (FaultyBroker.opened · _ _) ((w.broker id).opened_nothing false)
  · rw [Consumer.leave, changeBroker, set_broker_only, rest.rest, first.rest]

def refusal? (w : World F) (route : Route F) : Option EventError :=
  match w.subscribe route.subscriber route.consumeQueue with
  | .ok _ => none
  | .error e => some e

theorem refusal_none {w : World F} {route : Route F} :
    w.refusal? route = none ↔
      ∃ stream u, w.subscribe route.subscriber route.consumeQueue = .ok (stream, u) := by
  unfold refusal?
  split
  · next result subscribed => exact ⟨fun _ => ⟨result.1, result.2, subscribed⟩, fun _ => rfl⟩
  · next subscribed => exact ⟨nofun, fun ⟨stream, u, same⟩ => nomatch subscribed.symm.trans same⟩

theorem refusal_some {w : World F} {route : Route F} {e : EventError} :
    w.refusal? route = some e ↔ w.subscribe route.subscriber route.consumeQueue = .error e := by
  unfold refusal?
  split
  · next subscribed => exact ⟨nofun, fun same => nomatch subscribed.symm.trans same⟩
  · next other subscribed => rw [subscribed, Except.error.injEq, Option.some.injEq]

theorem refusal_spec (w : World F) (route : Route F) :
    w.refusal? route =
      if (w.broker route.subscriber).faults.missingTopics.contains route.consumeQueue then
        some (.transport "rabbitmq" ("no queue " ++ route.consumeQueue))
      else if (w.broker route.subscriber).broker.closed then some Broker.refusal
      else none := by
  unfold refusal? subscribe FaultyBroker.subscribe Broker.subscribe
  by_cases missing : (w.broker route.subscriber).faults.missingTopics.contains route.consumeQueue = true
  · rw [if_pos missing, if_pos missing]
    rfl
  · rw [if_neg missing, if_neg missing]
    by_cases closed : (w.broker route.subscriber).broker.closed = true
    · rw [if_pos closed, if_pos closed]
      rfl
    · rw [if_neg closed, if_neg closed]
      rfl

-- Whom a broker refuses does not depend on the streams that are open.
theorem opens_refusal {w v : World F} {routes : List (Route F)} {dropped : Bool}
    (opens : w.Opens routes dropped v) (route : Route F) : v.refusal? route = w.refusal? route := by
  rw [refusal_spec, refusal_spec, opens.brokers]
  rfl

-- Subscriptions one after another, each in the world that the one before it has left.
inductive Subscribes : World F → List (Route F) → List StreamId → World F → Prop where
  | none (w : World F) : Subscribes w [] [] w
  | next {w u v : World F} {route : Route F} {stream : StreamId} {routes : List (Route F)}
      {streams : List StreamId}
      (first : w.subscribe route.subscriber route.consumeQueue = .ok (stream, u))
      (rest : Subscribes u routes streams v) : Subscribes w (route :: routes) (stream :: streams) v

theorem subscribes_opens {w v : World F} {routes : List (Route F)} {streams : List StreamId}
    (subscribes : w.Subscribes routes streams v) : w.Opens routes false v := by
  induction subscribes with
  | none w => exact opens_nothing w false
  | next first rest ih => exact opens_cons (subscribe_opens first).2 ih

end World

def Service.consumer (service : Service F) (route : Route F) (stream : StreamId) : Consumer F :=
  ⟨route, service.pipeline route, stream, 0, .starting⟩

theorem open_route_accepted (service : Service F) {route : Route F} {w u : World F} {stream : StreamId}
    (subscribed : w.subscribe route.subscriber route.consumeQueue = .ok (stream, u)) :
    openRoute service route w = .ok (service.consumer route stream, u) := by
  rw [openRoute, subscribed]
  rfl

-- Induction on the routes. A subscription changes nobody's refusal, so all of them can be asked beforehand.
theorem open_routes_accepted (service : Service F) {routes : List (Route F)} {w : World F}
    (accepted : ∀ route ∈ routes, w.refusal? route = none) :
    ∃ streams v, w.Subscribes routes streams v ∧
      openRoutes service routes w = (.ok (List.zipWith service.consumer routes streams), v) := by
  induction routes generalizing w with
  | nil => exact ⟨[], w, .none w, rfl⟩
  | cons route routes ih =>
      obtain ⟨stream, u, first⟩ := World.refusal_none.mp (accepted route List.mem_cons_self)
      obtain ⟨-, opens⟩ := World.subscribe_opens first
      obtain ⟨streams, v, subscribes, opened⟩ := ih fun other member =>
        (World.opens_refusal opens other).trans (accepted other (List.mem_cons_of_mem _ member))
      refine ⟨stream :: streams, v, .next first subscribes, ?_⟩
      rw [openRoutes, open_route_accepted service first]
      dsimp only
      rw [opened]
      rfl

theorem open_routes_refused (service : Service F) {done : List (Route F)} (left : List (Route F))
    {route : Route F} {e : EventError} {w : World F} (sound : ∀ id, Broker.Sound (w.broker id).broker)
    (accepted : ∀ route ∈ done, w.refusal? route = none) (refused : w.refusal? route = some e) :
    ∃ streams u v, w.Subscribes done streams u ∧
      u.subscribe route.subscriber route.consumeQueue = .error e ∧
      openRoutes service (done ++ route :: left) w = (.error e, v) ∧ w.Opens done true v := by
  induction done generalizing w with
  | nil =>
      have first := World.refusal_some.mp refused
      refine ⟨[], w, w, .none w, first, ?_, World.opens_nothing w true⟩
      rw [List.nil_append, openRoutes, openRoute, first]
      rfl
  | cons early done ih =>
      obtain ⟨stream, between, first⟩ := World.refusal_none.mp (accepted early List.mem_cons_self)
      obtain ⟨numbered, opens⟩ := World.subscribe_opens first
      have sound₁ := Crew.called_sound (World.called_subscribe first).1 sound
      obtain ⟨streams, u, v, subscribes, last, opened, rest⟩ := ih sound₁
        (fun other member =>
          (World.opens_refusal opens other).trans (accepted other (List.mem_cons_of_mem _ member)))
        ((World.opens_refusal opens route).trans refused)
      refine ⟨stream :: streams, u, ((service.consumer early stream).leave .ended v).2,
        .next first subscribes, last, ?_, World.opens_leave sound opens rest rfl numbered .ended⟩
      rw [List.cons_append, openRoutes, open_route_accepted service first]
      dsimp only
      rw [opened]

theorem topics_only (route : Route F) (id : BrokerId) :
    (World.only route.subscriber (.subscribe route.consumeQueue) id).filterMap BrokerCall.subscribed? =
      topicsOn [route] id := by
  by_cases here : id = route.subscriber
  · simp [World.only, topicsOn, here, BrokerCall.subscribed?]
  · simp [World.only, topicsOn, here, Ne.symm here]

theorem topics_append (first second : List (Route F)) (id : BrokerId) :
    topicsOn (first ++ second) id = topicsOn first id ++ topicsOn second id := by
  simp [topicsOn]

-- How far subscriptions one after another get: through all routes, or up to the first that is refused.
inductive World.Reaches (w : World F) (routes : List (Route F)) :
    Except EventError (List (Consumer F)) → List (Route F) → Prop where
  | through (consumers : List (Consumer F)) (accepted : ∀ route ∈ routes, w.refusal? route = none) :
      Reaches w routes (.ok consumers) routes
  | upTo {done left : List (Route F)} {route : Route F} {e : EventError}
      (part : routes = done ++ route :: left) (accepted : ∀ early ∈ done, w.refusal? early = none)
      (refused : w.refusal? route = some e) : Reaches w routes (.error e) done

theorem World.reaches_next {w u : World F} {route : Route F} {routes done : List (Route F)}
    {outcome : Except EventError (List (Consumer F))} (accepted : w.refusal? route = none)
    (same : ∀ other, u.refusal? other = w.refusal? other) (rest : u.Reaches routes outcome done)
    (consumer : Consumer F) :
    w.Reaches (route :: routes) (outcome.map (consumer :: ·)) (route :: done) := by
  cases rest with
  | through consumers later =>
      refine .through (consumer :: consumers) (List.forall_mem_cons.mpr ⟨accepted, fun other member => ?_⟩)
      rw [← same, later other member]
  | upTo part later refused =>
      refine .upTo (congrArg (route :: ·) part) (List.forall_mem_cons.mpr ⟨accepted, fun other member => ?_⟩) ?_
      · rw [← same, later other member]
      · rw [← same, refused]

-- Induction on the routes: each is subscribed for after the ones before it, until a broker refuses.
theorem open_routes_subscribes {service : Service F} {routes : List (Route F)} {w v : World F}
    {outcome : Except EventError (List (Consumer F))} (opened : openRoutes service routes w = (outcome, v)) :
    ∃ done calls, w.Reaches routes outcome done ∧ w.Called calls v ∧
      ∀ id, (calls id).filterMap BrokerCall.subscribed? = topicsOn done id := by
  induction routes generalizing w outcome v with
  | nil =>
      cases opened
      exact ⟨[], World.nothing, .through [] nofun, World.called_of_brokers rfl rfl rfl, fun _ => rfl⟩
  | cons route routes ih =>
      rw [openRoutes] at opened
      cases asked : w.subscribe route.subscriber route.consumeQueue with
      | error e =>
          rw [openRoute, asked] at opened
          cases opened
          exact ⟨[], World.nothing, .upTo (List.nil_append _).symm nofun (World.refusal_some.mpr asked),
            World.called_of_brokers rfl rfl rfl, fun _ => rfl⟩
      | ok result =>
          obtain ⟨stream, between⟩ := result
          rw [open_route_accepted service asked] at opened
          have called := (World.called_subscribe asked).1
          have accepted := World.refusal_none.mpr ⟨stream, between, asked⟩
          cases rest : openRoutes service routes between with
          | mk later last =>
              simp only [rest] at opened
              obtain ⟨done, calls, reaches, called₁, topics⟩ := ih rest
              have further := World.reaches_next accepted
                (World.opens_refusal (World.subscribe_opens asked).2) reaches (service.consumer route stream)
              have both := World.called_trans called called₁
              have read : ∀ id, (World.only route.subscriber (.subscribe route.consumeQueue) id ++
                  calls id).filterMap BrokerCall.subscribed? = topicsOn (route :: done) id := by
                intro id
                rw [List.filterMap_append, topics_only, topics]
                exact (topics_append [route] done id).symm
              cases later with
              | ok consumers =>
                  cases opened
                  exact ⟨route :: done, _, further, both, read⟩
              | error e =>
                  cases opened
                  refine ⟨route :: done, _, further,
                    World.called_trans both (Consumer.called_leave _ .ended last), fun id => ?_⟩
                  have silent : (World.only route.subscriber (.drop stream) id).filterMap
                      BrokerCall.subscribed? = [] := by
                    apply List.filterMap_eq_nil_iff.mpr
                    intro c member
                    obtain ⟨-, rfl⟩ := World.mem_only.mp member
                    rfl
                  rw [List.filterMap_append, read]
                  exact (congrArg (_ ++ ·) silent).trans (List.append_nil _)

end EventPipeline

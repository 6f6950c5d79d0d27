import EventPipeline.Proofs.Deliveries

/-!
The invariant of a crew: brokers with a sound history, a stream for each consumer that no other consumer
reads, and for each consumer a journal that accounts for its phase and for what it took. Every choice of
the next step keeps it.
-/

set_option autoImplicit false

namespace EventPipeline

open Program Transcript

variable {F : EventFamily}

def Consumer.key (consumer : Consumer F) : BrokerId × StreamId :=
  (consumer.route.subscriber, consumer.stream)

structure Crew.Orderly (service : Service F) (past : Journal F) (crew : Crew F) : Prop where
  sound : ∀ id, Broker.Sound (crew.world.broker id).broker
  apart : (crew.consumers.map Consumer.key).Nodup
  routes : crew.consumers.map (·.route) = service.routes
  handlers : ∀ consumer ∈ crew.consumers, consumer.handler = service.pipeline consumer.route
  tracks : ∀ (i : Nat) consumer, crew.consumers[i]? = some consumer →
    Tracks (consumer.route.process consumer.handler) consumer.phase (past.of i)
  follows : ∀ (i : Nat) consumer, crew.consumers[i]? = some consumer →
    consumer.Follows crew.world (takenOf (past.of i))

-- The consumers are those of the routes, in the same order.
namespace Crew.Orderly

variable {service : Service F} {past : Journal F} {crew : Crew F} (orderly : crew.Orderly service past)
  {i : Nat}

include orderly

theorem size : crew.consumers.length = service.routes.length := by
  rw [← orderly.routes, List.length_map]

theorem route_at {consumer : Consumer F} (known : crew.consumers[i]? = some consumer) :
    service.routes[i]? = some consumer.route := by
  rw [← orderly.routes, List.getElem?_map, known]
  rfl

theorem consumer_at {route : Route F} (known : service.routes[i]? = some route) :
    ∃ consumer, crew.consumers[i]? = some consumer ∧ consumer.route = route := by
  rwa [← orderly.routes, List.getElem?_map, Option.map_eq_some_iff] at known

theorem tracks_at {consumer : Consumer F} (known : crew.consumers[i]? = some consumer) :
    Tracks (consumer.route.process (service.pipeline consumer.route)) consumer.phase (past.of i) := by
  rw [← orderly.handlers consumer (List.mem_of_getElem? known)]
  exact orderly.tracks i consumer known

end Crew.Orderly

theorem map_set_same {α β : Type} {f : α → β} {l : List α} {i : Nat} {a b : α} (known : l[i]? = some b)
    (same : f a = f b) : (l.set i a).map f = l.map f := by
  apply List.ext_getElem?
  intro j
  rw [List.getElem?_map, List.getElem?_map, List.getElem?_set]
  by_cases here : i = j
  · subst here
    obtain ⟨small, rfl⟩ := List.getElem?_eq_some_iff.mp known
    simp [small, same]
  · rw [if_neg here]

theorem apart_at {α β : Type} {f : α → β} {members : List α} (distinct : (members.map f).Nodup)
    {i j : Nat} {a b : α} (first : members[i]? = some a) (second : members[j]? = some b)
    (different : i ≠ j) : f a ≠ f b := by
  intro same
  obtain ⟨small, -⟩ := List.getElem?_eq_some_iff.mp first
  apply different
  apply (List.getElem?_inj (by rwa [List.length_map]) distinct).mp
  rw [List.getElem?_map, List.getElem?_map, first, second, Option.map_some, Option.map_some, same]

namespace Journal

theorem of_own (i : Nat) (happening : Option (Happening F)) :
    Journal.of ((happening.map (Entry.mk i)).toList) i = happening.toList := by
  cases happening with
  | none => rfl
  | some what => simp [Journal.of]

theorem of_other {i j : Nat} (different : i ≠ j) (happening : Option (Happening F)) :
    Journal.of ((happening.map (Entry.mk i)).toList) j = [] := by
  cases happening with
  | none => rfl
  | some what => simp [Journal.of, different]

end Journal

namespace Crew

theorem orderly_anchored {service : Service F} {past : Journal F} {crew : Crew F}
    (orderly : crew.Orderly service past) {i : Nat} {consumer : Consumer F}
    (known : crew.consumers[i]? = some consumer) : consumer.Anchored := by
  intro effect pending next phase
  have tracks := orderly.tracks i consumer known
  rw [phase] at tracks
  exact tracks_waiting tracks

theorem called_sound {w v : World F} {calls : BrokerId → List BrokerCall} (called : w.Called calls v)
    (sound : ∀ id, Broker.Sound (w.broker id).broker) : ∀ id, Broker.Sound (v.broker id).broker := by
  intro id
  rw [called.inside]
  exact Broker.run_sound (sound id) (calls id)

-- What comes from outside takes nothing from a stream.
theorem outside_orderly {service : Service F} {past : Journal F} {crew : Crew F}
    (orderly : crew.Orderly service past) {v : World F} {calls : BrokerId → List BrokerCall}
    (called : crew.world.Called calls v)
    (harmless : ∀ id stream, .receive stream ∉ calls id ∧ .drop stream ∉ calls id) (signal : Signal) :
    Orderly service past { crew with signal, world := v } := by
  refine ⟨called_sound called orderly.sound, orderly.apart, orderly.routes, orderly.handlers,
    orderly.tracks, ?_⟩
  intro i consumer known
  exact Consumer.follows_called (orderly.follows i consumer known) rfl rfl id called
    (fun _ => (harmless _ _).2) (harmless _ _).1

-- For the consumer that steps the journal grows by what happened; for every other it stays as it was.
theorem step_orderly {service : Service F} {past : Journal F} {crew : Crew F}
    (orderly : crew.Orderly service past) {i : Nat} {consumer after : Consumer F} {v : World F}
    {happening : Option (Happening F)} (known : crew.consumers[i]? = some consumer)
    (moves : consumer.Moves crew.signal crew.world happening after v) :
    Orderly service (past ++ (happening.map (Entry.mk i)).toList)
      { crew with consumers := crew.consumers.set i after, world := v } := by
  obtain ⟨route, handler, stream⟩ := Consumer.moves_keeps moves
  have anchored := orderly_anchored orderly known
  obtain ⟨calls, called, -⟩ := Consumer.moves_called moves anchored
  obtain ⟨small, -⟩ := List.getElem?_eq_some_iff.mp known
  have key : after.key = consumer.key := by simp only [Consumer.key, route, stream]
  refine ⟨called_sound called orderly.sound, ?_, ?_, ?_, ?_, ?_⟩
  · rw [map_set_same known key]
    exact orderly.apart
  · rw [map_set_same known route]
    exact orderly.routes
  · intro other member
    rcases List.mem_or_eq_of_mem_set member with old | same
    · exact orderly.handlers other old
    · rw [same, handler, route]
      exact orderly.handlers consumer (List.mem_of_getElem? known)
  · intro j other found
    rw [Journal.of_append]
    rw [List.getElem?_set] at found
    by_cases here : i = j
    · subst here
      rw [if_pos rfl, if_pos small] at found
      cases found
      rw [Journal.of_own, route, handler]
      exact moves_tracks moves (orderly.tracks i consumer known)
    · rw [if_neg here] at found
      rw [Journal.of_other here, List.append_nil]
      exact orderly.tracks j other found
  · intro j other found
    rw [Journal.of_append]
    rw [List.getElem?_set] at found
    by_cases here : i = j
    · subst here
      rw [if_pos rfl, if_pos small] at found
      cases found
      rw [Journal.of_own, taken_of_append]
      exact Consumer.moves_follows moves anchored (orderly.sound _) (orderly.follows i consumer known)
    · rw [if_neg here] at found
      rw [Journal.of_other here, List.append_nil]
      exact Consumer.moves_spares moves anchored (apart_at orderly.apart found known (Ne.symm here))
        (orderly.follows j other found)

theorem chosen_orderly {service : Service F} {past journal : Journal F} {crew next : Crew F}
    (orderly : crew.Orderly service past) {choice : Choice} (chosen : crew.Chosen choice journal next) :
    next.Orderly service (past ++ journal) := by
  cases chosen with
  | stuck i => rwa [List.append_nil]
  | moved known moves => exact step_orderly orderly known moves
  | outside called signal =>
      rw [List.append_nil]
      apply outside_orderly orderly called
      intro id stream
      constructor
      · intro member
        obtain ⟨topic, message, -, same⟩ := called_outside member
        cases same
      · intro member
        obtain ⟨topic, message, -, same⟩ := called_outside member
        cases same

theorem follow_orderly {service : Service F} {past : Journal F} {crew : Crew F}
    (orderly : crew.Orderly service past) (choices : List Choice) :
    Orderly service (past ++ (crew.follow choices).1) (crew.follow choices).2 := by
  induction choices generalizing past crew with
  | nil => simpa [follow] using orderly
  | cons choice choices ih =>
      rw [follow, ← List.append_assoc]
      exact ih (chosen_orderly orderly (choose_chosen crew choice))

end Crew

-- How a consumer stands that was just opened between two worlds.
structure Consumer.Fresh (service : Service F) (w v : World F) (consumer : Consumer F) : Prop where
  handler : consumer.handler = service.pipeline consumer.route
  phase : consumer.phase = .starting
  unknown : (w.broker consumer.route.subscriber).broker.stream? consumer.stream = none
  reads : consumer.Reads v []

theorem open_route_fresh {service : Service F} {route : Route F} {w v : World F} {consumer : Consumer F}
    (sound : ∀ id, Broker.Sound (w.broker id).broker)
    (opened : openRoute service route w = .ok (consumer, v)) :
    consumer.route = route ∧ consumer.Fresh service w v ∧
      w.Called (World.only route.subscriber (.subscribe route.consumeQueue)) v := by
  unfold openRoute at opened
  cases subscribed : w.subscribe route.subscriber route.consumeQueue with
  | error e => rw [subscribed] at opened; cases opened
  | ok result =>
      rw [subscribed] at opened
      cases opened
      obtain ⟨called, answer⟩ := World.called_subscribe subscribed
      have inside := called.inside route.subscriber
      rw [World.only_same] at inside
      have created := Broker.subscribed_stream (sound route.subscriber) answer
      have there := (congrArg (Broker.stream? · result.1) inside).trans created
      refine ⟨rfl, ⟨rfl, rfl, Broker.subscribed_unknown (sound route.subscriber) answer, ?_⟩, called⟩
      exact ⟨_, there, rfl, rfl, rfl⟩

def Subscribing (calls : BrokerId → List BrokerCall) : Prop :=
  ∀ id c, c ∈ calls id → ∃ topic, c = .subscribe topic

theorem subscribing_only (id : BrokerId) (topic : String) :
    Subscribing (World.only id (.subscribe topic)) := by
  intro other c member
  obtain ⟨-, same⟩ := World.mem_only.mp member
  exact ⟨topic, same⟩

theorem subscribing_harmless {calls : BrokerId → List BrokerCall} (subscribing : Subscribing calls)
    (id : BrokerId) (stream : StreamId) : .receive stream ∉ calls id ∧ .drop stream ∉ calls id := by
  constructor
  · intro member
    obtain ⟨topic, same⟩ := subscribing id _ member
    cases same
  · intro member
    obtain ⟨topic, same⟩ := subscribing id _ member
    cases same

theorem reads_called {consumer : Consumer F} {w v : World F} {calls : BrokerId → List BrokerCall}
    {taken : List Message} (reads : consumer.Reads w taken) (called : w.Called calls v)
    (subscribing : Subscribing calls) : consumer.Reads v taken := by
  obtain ⟨stream, found, topic, undropped, received⟩ := reads
  obtain ⟨unread, kept⟩ := subscribing_harmless subscribing consumer.route.subscriber consumer.stream
  obtain ⟨later, reached, topic₁, undropped₁, received₁⟩ := Broker.run_follows found kept
  rw [Broker.received_by_unread _ unread, List.append_nil] at received₁
  refine ⟨later, ?_, topic₁.trans topic, undropped₁.trans undropped, received₁.trans received⟩
  rw [called.inside]
  exact reached

-- Induction on the routes. The first stream is known to its broker before the others are opened, while
-- theirs are not, so no key comes twice.
theorem open_routes_fresh {service : Service F} {routes : List (Route F)} {w v : World F}
    {consumers : List (Consumer F)} (sound : ∀ id, Broker.Sound (w.broker id).broker)
    (opened : openRoutes service routes w = (.ok consumers, v)) :
    consumers.map (·.route) = routes ∧ (∀ consumer ∈ consumers, consumer.Fresh service w v) ∧
      (consumers.map Consumer.key).Nodup ∧ ∃ calls, w.Called calls v ∧ Subscribing calls := by
  induction routes generalizing w consumers v with
  | nil =>
      cases opened
      exact ⟨rfl, by simp, by simp, World.nothing, World.called_of_brokers rfl rfl rfl,
        fun _ _ member => nomatch member⟩
  | cons route routes ih =>
      unfold openRoutes at opened
      cases first : openRoute service route w with
      | error e => simp only [first] at opened; cases opened
      | ok result =>
          obtain ⟨consumer, between⟩ := result
          simp only [first] at opened
          cases rest : openRoutes service routes between with
          | mk outcome last =>
              rw [rest] at opened
              cases outcome with
              | error e => cases opened
              | ok others =>
                  cases opened
                  obtain ⟨same, fresh, called⟩ := open_route_fresh sound first
                  obtain ⟨routes', freshOthers, apart, calls, called', subscribing⟩ :=
                    ih (Crew.called_sound called sound) rest
                  have opening := subscribing_only route.subscriber route.consumeQueue
                  refine ⟨by rw [List.map_cons, same, routes'], ?_, ?_, _,
                    World.called_trans called called', ?_⟩
                  · intro other member
                    rcases List.mem_cons.mp member with here | later
                    · subst here
                      exact ⟨fresh.handler, fresh.phase, fresh.unknown,
                        reads_called fresh.reads called' subscribing⟩
                    · have late := freshOthers other later
                      refine ⟨late.handler, late.phase, ?_, late.reads⟩
                      cases early : (w.broker other.route.subscriber).broker.stream? other.stream with
                      | none => rfl
                      | some stream =>
                          obtain ⟨kept, reached, -⟩ :=
                            Broker.run_follows early (subscribing_harmless opening _ _).2
                          have unknown := late.unknown
                          rw [called.inside, reached] at unknown
                          cases unknown
                  · rw [List.map_cons, List.nodup_cons]
                    refine ⟨?_, apart⟩
                    intro member
                    obtain ⟨other, later, key⟩ := List.mem_map.mp member
                    have unknown := (freshOthers other later).unknown
                    obtain ⟨stream, found, -⟩ := fresh.reads
                    obtain ⟨subscriber, number⟩ := Prod.mk.inj key
                    rw [subscriber, number, found] at unknown
                    cases unknown
                  · intro id c member
                    rcases List.mem_append.mp member with early | late
                    · exact opening id c early
                    · exact subscribing id c late

-- Whatever the brokers have been through before a service starts.
def World.Historic (w : World F) : Prop :=
  ∀ id, ∃ calls, (w.broker id).broker = (Broker.empty.run calls).2

theorem historic_sound {w : World F} (historic : w.Historic) (id : BrokerId) :
    Broker.Sound (w.broker id).broker := by
  obtain ⟨calls, same⟩ := historic id
  rw [same]
  exact Broker.run_sound Broker.sound_empty calls

theorem opened_orderly {service : Service F} {w v : World F} {consumers : List (Consumer F)}
    (historic : w.Historic) (opened : openRoutes service service.routes w = (.ok consumers, v))
    (signal : Signal) : Crew.Orderly service [] ⟨signal, consumers, v⟩ := by
  obtain ⟨routes, fresh, apart, calls, called, -⟩ := open_routes_fresh (historic_sound historic) opened
  refine ⟨Crew.called_sound called (historic_sound historic), apart, routes,
    fun consumer member => (fresh consumer member).handler, ?_, ?_⟩
  · intro i consumer known
    have starting := (fresh consumer (List.mem_of_getElem? known)).phase
    exact ⟨[], [], rfl, by simp, by rw [starting]; exact .starting⟩
  · intro i consumer known
    exact ⟨List.nil_prefix, fun _ => (fresh consumer (List.mem_of_getElem? known)).reads⟩

theorem ends_settled {service : Service F} {route : Route F} (standard : route.handler.Standard)
    {message : Message} {t : Transcript F}
    (ends : Ends (route.process (service.pipeline route) message) t (.ok ())) :
    (settlements t).length = 1 := by
  obtain ⟨handled, result, delivering, concluding, delivered, account⟩ := process_account standard ends
  cases delivered with
  | ok fate => rw [account.settled fate rfl, List.length_singleton]
  | error p => cases (account.unsettled p rfl).2

-- A handling that was broken off can be completed somehow, and even then it has one settlement.
theorem leads_settled {service : Service F} {route : Route F} (standard : route.handler.Standard)
    {message : Message} {t : Transcript F} {rest : Program F Unit}
    (reached : Leads (route.process (service.pipeline route) message) t rest) :
    (settlements t).length ≤ 1 := by
  have completed : Ends (route.process (service.pipeline route) message) (t ++ (play .obliging [] rest).1)
      (play .obliging [] rest).2 := leads_append reached (ends_play _ _ _)
  obtain ⟨handled, result, delivering, concluding, delivered, account⟩ :=
    process_account standard completed
  have bound : (settlements (t ++ (play .obliging [] rest).1)).length ≤ 1 := by
    cases delivered with
    | ok fate => exact Nat.le_of_eq (congrArg List.length (account.settled fate rfl))
    | error p => rw [(account.unsettled p rfl).1]; exact Nat.zero_le 1
  rw [settlements_append, List.length_append] at bound
  omega

def InTurn (work : Message → Program F Unit) (happenings : List (Happening F)) : Prop :=
  ∃ (finished : List (Handling F)) (current : List (Happening F)),
    happenings = finished.flatMap Handling.happenings ++ current ∧
    (∀ handling ∈ finished, Handled work handling ∧ (settlements handling.transcript).length = 1) ∧
    (current = [] ∨ ∃ (handling : Handling F) (rest : Program F Unit) (begun : List (Happening F)),
      current = handling.happenings ++ begun ∧
      Leads (work handling.message) handling.transcript rest ∧
      (settlements handling.transcript).length ≤ 1 ∧
      (begun = [] ∨ ∃ (effect : Effect F) (next : effect.Answer → Program F Unit),
        rest = .perform effect next ∧ begun = [.began effect]))

theorem tracks_in_turn {service : Service F} {route : Route F} (standard : route.handler.Standard)
    {phase : Phase F} {happenings : List (Happening F)}
    (tracks : Tracks (route.process (service.pipeline route)) phase happenings) :
    InTurn (route.process (service.pipeline route)) happenings := by
  obtain ⟨finished, current, same, handled, underway⟩ := tracks
  refine ⟨finished, current, same, fun handling member => ⟨handled handling member,
    ends_settled standard (handled handling member)⟩, ?_⟩
  cases underway with
  | starting => exact .inl rfl
  | listening => exact .inl rfl
  | ended => exact .inl rfl
  | @working handling rest reached =>
      exact .inr ⟨handling, rest, [], by simp, reached, leads_settled standard reached, .inl rfl⟩
  | @waiting handling effect next origin reached =>
      exact .inr ⟨handling, _, _, rfl, reached, leads_settled standard reached,
        .inr ⟨effect, next, rfl, rfl⟩⟩
  | @failed handling p reached =>
      exact .inr ⟨handling, _, [], by simp, reached, leads_settled standard reached, .inl rfl⟩

theorem settlements_of_handlings {finished : List (Handling F)}
    (settled : ∀ handling ∈ finished, (settlements handling.transcript).length = 1) :
    (settlements (finished.flatMap (·.transcript))).length = finished.length := by
  induction finished with
  | nil => rfl
  | cons handling rest ih =>
      rw [List.flatMap_cons, settlements_append, List.length_append,
        settled handling List.mem_cons_self, ih fun other member => settled other (List.mem_cons_of_mem _ member),
        List.length_cons, Nat.add_comm]

-- Every finished delivery has one settlement and the one in hand at most one.
theorem in_turn_unsettled {work : Message → Program F Unit} {happenings : List (Happening F)}
    (turns : InTurn work happenings) :
    (settlements (answersOf happenings)).length ≤ (takenOf happenings).length ∧
      (takenOf happenings).length ≤ (settlements (answersOf happenings)).length + 1 := by
  obtain ⟨finished, current, rfl, handled, rest⟩ := turns
  have done := settlements_of_handlings fun handling member => (handled handling member).2
  rw [answers_of_append, taken_of_append, answers_of_handlings, taken_of_handlings, settlements_append,
    List.length_append, List.length_append, List.length_map, done]
  rcases rest with rfl | ⟨handling, _, begun, rfl, -, once, last⟩
  · exact ⟨Nat.le_refl _, Nat.le_succ _⟩
  · have nothing : takenOf begun = [] ∧ answersOf begun = [] := by
      rcases last with rfl | ⟨effect, next, -, rfl⟩
      · exact ⟨rfl, rfl⟩
      · exact ⟨rfl, rfl⟩
    rw [answers_of_append, taken_of_append, nothing.1, nothing.2, answers_of_handling, taken_of_handling,
      List.append_nil, List.append_nil, List.length_singleton]
    omega

theorem crew_in_turn {service : Service F} (built : service.Built) {past : Journal F} {crew : Crew F}
    (orderly : crew.Orderly service past) {i : Nat} {route : Route F}
    (known : service.routes[i]? = some route) :
    takenOf (past.of i) <+:
        (crew.world.broker route.subscriber).broker.published route.consumeQueue ∧
      (takenOf (past.of i)).length ≤ (settlements (answersOf (past.of i))).length + 1 ∧
      InTurn (route.process (service.pipeline route)) (past.of i) := by
  have standard := built_standard built (List.mem_of_getElem? known)
  obtain ⟨consumer, found, rfl⟩ := orderly.consumer_at known
  have turns := tracks_in_turn standard (orderly.tracks_at found)
  exact ⟨(orderly.follows i consumer found).logged, (in_turn_unsettled turns).2, turns⟩

end EventPipeline

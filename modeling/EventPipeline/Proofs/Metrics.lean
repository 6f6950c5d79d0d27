import EventPipeline.Proofs.Counters
import EventPipeline.Proofs.Production
import EventPipeline.Proofs.Registrations
import EventPipeline.Proofs.Schedules
import Mathlib.Algebra.BigOperators.Group.List.Basic
import Mathlib.Algebra.Ring.Nat

/-!
The counters of a route add up. Along any session of a service, with producers at work beside the loops, the
counters under the name of a route grow by what its deliveries have measured and by nothing else; between
two deliveries they agree with what the deliveries came to.
-/

set_option autoImplicit false

namespace EventPipeline

open Program Transcript

variable {F : EventFamily}

theorem built_names {service : Service F} (built : service.Built) :
    (service.routes.map (·.name)).Nodup := by
  apply Service.names_distinct
  induction built with
  | create config transport outbox validator classifier => exact .create config transport outbox validator classifier
  | register built standard registered ih => exact .register ih registered

-- Only the answer to a count changes the measurements of the world.
theorem resume_measured (origin w : World F) (effect : Effect F) :
    ((origin.start effect).1.resume w).2.measurements =
      w.measurements ++ measurements [⟨effect, ((origin.start effect).1.resume w).1⟩] := by
  cases effect with
  | count m => rfl
  | publish id topic message => exact (kept_publish w id topic message).measurements.trans (List.append_nil _).symm
  | settle id settlement => exact (kept_set_broker w id _).measurements.trans (List.append_nil _).symm
  | _ => exact (List.append_nil _).symm

namespace Consumer

variable {signal : Signal} {consumer after : Consumer F} {w v : World F}
  {happening : Option (Happening F)}

theorem moves_measured (moves : Moves signal consumer w happening after v) (anchored : consumer.Anchored) :
    v.measurements = w.measurements ++ measurements (answersOf happening.toList) := by
  have silent : ∀ {u : World F}, u.measurements = w.measurements → u.measurements = w.measurements ++ [] :=
    fun same => same.trans (List.append_nil _).symm
  cases moves with
  | started phase same kept => exact silent kept.measurements
  | noticed phase off news => exact silent rfl
  | took phase got quiet => exact silent (kept_set_broker w _ _).measurements
  | @left phase between same kept reason =>
      exact silent ((kept_changed between _ _).measurements.trans kept.measurements)
  | finished phase => exact silent rfl
  | failed phase => exact silent (kept_changed w _ _).measurements
  | @began effect next phase => exact silent (by cases effect <;> rfl)
  | @answered effect pending next phase =>
      obtain ⟨origin, rfl⟩ := anchored _ _ _ phase
      exact resume_measured origin w effect

-- A consumer counts under the name of its own route.
theorem moves_own {service : Service F} (standard : consumer.route.handler.Standard)
    (moves : Moves signal consumer w happening after v) {happenings : List (Happening F)}
    (tracks : Tracks (consumer.route.process (service.pipeline consumer.route)) consumer.phase happenings) :
    ∀ m ∈ measurements (answersOf happening.toList), m.handler = consumer.route.name := by
  cases moves with
  | @answered effect pending next phase =>
      rw [phase] at tracks
      obtain ⟨_, _, -, -, underway⟩ := tracks
      cases underway with
      | @waiting handling _ _ origin reached =>
          intro m member
          have counted := leads_measured standard (leads_snoc reached ((origin.start effect).1.resume w).1)
          apply counted m
          rw [measurements_append]
          exact List.mem_append_right _ member
  | _ => exact fun _ member => nomatch member

end Consumer

namespace Crew

-- What a session adds to the measurements, as far as one route is concerned.
def Counts (w : World F) (route : Route F) (happenings : List (Happening F)) (v : World F) : Prop :=
  ∃ gained, v.measurements = w.measurements ++ gained ∧
    Measurement.named route.name gained = measurements (answersOf happenings)

theorem counts_nothing {w v : World F} (route : Route F) (same : v.measurements = w.measurements) :
    Counts w route [] v := ⟨[], same.trans (List.append_nil _).symm, rfl⟩

theorem counts_trans {w v after : World F} {route : Route F} {first second : List (Happening F)}
    (before : Counts w route first v) (later : Counts v route second after) :
    Counts w route (first ++ second) after := by
  obtain ⟨gained, same, named⟩ := before
  obtain ⟨more, same₂, named₂⟩ := later
  refine ⟨gained ++ more, by rw [same₂, same, List.append_assoc], ?_⟩
  rw [Measurement.named_append, named, named₂, answers_of_append, measurements_append]

variable {service : Service F} {past : Journal F} {crew : Crew F} {i : Nat} {route : Route F}

theorem turn_counts (built : service.Built) (orderly : crew.Orderly service past)
    (known : service.routes[i]? = some route) (turn : Turn) :
    Counts crew.world route ((crew.turn turn).1.of i) (crew.turn turn).2.world := by
  cases turn with
  | close broker => exact counts_nothing route (kept_changed crew.world broker Broker.close).measurements
  | choose choice =>
      have chosen := choose_chosen crew choice
      change Counts crew.world route ((crew.choose choice).1.of i) (crew.choose choice).2.world
      generalize (crew.choose choice).1 = journal, (crew.choose choice).2 = next at chosen
      cases chosen with
      | stuck j => exact counts_nothing route rfl
      | outside called signal stores later uncounted => exact counts_nothing route uncounted
      | @moved j consumer after v happening found moves =>
          have there := orderly.route_at found
          have own := Consumer.moves_own (built_standard built (List.mem_of_getElem? there)) moves
            (orderly.tracks_at found)
          refine ⟨_, Consumer.moves_measured moves (orderly_anchored orderly found), ?_⟩
          by_cases here : j = i
          · subst here
            cases there.symm.trans known
            rw [Journal.of_own]
            exact Measurement.named_all own
          · rw [Journal.of_other here]
            exact Measurement.named_none (apart_at (built_names built) there known here) own

theorem meet_counts (built : service.Built) (orderly : crew.Orderly service past)
    (known : service.routes[i]? = some route) (apart : route.name ≠ producerName) (occasion : Occasion F) :
    Counts crew.world route ((crew.meet occasion).1.of i) (crew.meet occasion).2.world := by
  cases occasion with
  | turn turn => exact turn_counts built orderly known turn
  | produce production =>
      obtain ⟨result, v, ran, comes⟩ := production.run_comes crew.world
      rw [meet, ran]
      refine ⟨_, Production.comes_measured comes, ?_⟩
      apply Measurement.named_none (Ne.symm apart)
      intro m member
      cases result with
      | ok id => cases List.mem_singleton.mp member; rfl
      | error e => cases member

-- Induction on the session: nobody else counts under the name of the route.
theorem attend_counts (built : service.Built) (orderly : crew.Orderly service past)
    (known : service.routes[i]? = some route) (apart : route.name ≠ producerName)
    (occasions : List (Occasion F)) :
    Counts crew.world route ((crew.attend occasions).1.of i) (crew.attend occasions).2.world := by
  induction occasions generalizing past crew with
  | nil => exact counts_nothing route rfl
  | cons occasion occasions ih =>
      rw [attend, Journal.of_append]
      exact counts_trans (meet_counts built orderly known apart occasion) (ih (meet_orderly orderly occasion))

end Crew

theorem sums_add {α : Type} {f g h : α → Nat} {l : List α} (each : ∀ a ∈ l, f a = g a + h a) :
    (l.map f).sum = (l.map g).sum + (l.map h).sum := by
  rw [List.map_congr_left each, List.sum_map_add]

theorem sums_count {α : Type} (p : α → Bool) (l : List α) :
    (l.map fun a => if p a then 1 else 0).sum = l.countP p := by
  induction l with
  | nil => rfl
  | cons a l ih =>
      rw [List.map_cons, List.sum_cons, ih, List.countP_cons, Nat.add_comm]

-- Each member is counted at one key, so the counts over all keys are the size.
theorem counts_over_keys {α : Type} (key : α → String) {keys : List String} (distinct : keys.Nodup)
    {l : List α} (known : ∀ a ∈ l, key a ∈ keys) :
    (keys.map fun k => l.countP fun a => key a == k).sum = l.length := by
  induction l with
  | nil => simp
  | cons a l ih =>
      have once : (keys.map fun k => if key a == k then 1 else 0).sum = 1 := calc
        _ = keys.countP fun k => key a == k := sums_count _ keys
        _ = keys.count (key a) := List.countP_congr fun k _ => by rw [beq_iff_eq, beq_iff_eq, eq_comm]
        _ = 1 := by rw [distinct.count, if_pos (known a List.mem_cons_self)]
      have rest := ih fun b member => known b (List.mem_cons_of_mem _ member)
      rw [sums_add (g := fun k => l.countP fun b => key b == k) (h := fun k => if key a == k then 1 else 0)
        fun k _ => List.countP_cons, rest, once, List.length_cons]

namespace Reckoning

def reached (reckoning : Reckoning F) : Bool := !reckoning.attempts.isEmpty

def rejectedFor (category : ErrorCategory) (reckoning : Reckoning F) : Bool :=
  match reckoning.delivered with
  | .ok (.error e) => e.category == category
  | _ => false

def diverted (reckoning : Reckoning F) : Bool := reckoning.letter?.isSome

def panicked (reckoning : Reckoning F) : Bool :=
  match reckoning.guarded with
  | .ok _ => false
  | .error _ => true

variable (reckoning : Reckoning F) (name : String) (route : Route F) (category : ErrorCategory)

theorem received_weight (finished : ∃ fate, reckoning.delivered = .ok fate) :
    reckoning.weight (.received name) = reckoning.weight (.processed name) +
      (reckoning.weight (.failed name "transient") + reckoning.weight (.failed name "permanent")) := by
  obtain ⟨fate, done⟩ := finished
  cases fate with
  | ok _ => simp only [weight, done]
  | error e => cases failed : e.category <;> simp [weight, done, failed, ErrorCategory.name]

theorem acked_weight : reckoning.weight (.processed name) =
    (verdicts route reckoning.delivered).count (route.subscriber, .ack) := by
  rcases delivered : reckoning.delivered with p | e | _ <;> simp [weight, delivered, verdicts, Settlement.of]

theorem nacked_weight : reckoning.weight (.failed name category.name) =
    (verdicts route reckoning.delivered).count (route.subscriber, .nack (category == .transient)) := by
  rcases delivered : reckoning.delivered with p | e | _
  · simp [weight, delivered, verdicts]
  · cases failed : e.category <;> cases category <;>
      simp [weight, delivered, verdicts, Settlement.of, failed, ErrorCategory.name]
  · simp [weight, delivered, verdicts, Settlement.of]

theorem rejected_weight : reckoning.weight (.failed name category.name) =
    if reckoning.rejectedFor category then 1 else 0 := by
  rcases delivered : reckoning.delivered with p | e | _
  · simp [weight, rejectedFor, delivered]
  · cases failed : e.category <;> cases category <;>
      simp [weight, rejectedFor, delivered, failed, ErrorCategory.name]
  · simp [weight, rejectedFor, delivered]

theorem retried_weight : reckoning.attempts.length =
    reckoning.weight (.retried name) + if reckoning.reached then 1 else 0 := by
  cases attempts : reckoning.attempts <;> simp [weight, reached, attempts]

theorem recovered_weight : reckoning.weight (.panicRecovered name) =
    if reckoning.panicked then 1 else 0 := by
  cases guarded : reckoning.guarded <;> simp [weight, panicked, guarded]

end Reckoning

-- The counters of a route, the settlements it made and what its deliveries came to agree.
structure Balance (route : Route F) (gained : List Measurement) (made : List (BrokerId × Settlement))
    (reckonings : List (Reckoning F)) : Prop where
  taken : (Measurement.received route.name).reading gained = reckonings.length
  received : (Measurement.received route.name).reading gained =
    (Measurement.processed route.name).reading gained +
      ((Measurement.failed route.name "transient").reading gained +
        (Measurement.failed route.name "permanent").reading gained)
  acked : (Measurement.processed route.name).reading gained = made.count (route.subscriber, .ack)
  nacked : ∀ category : ErrorCategory, (Measurement.failed route.name category.name).reading gained =
    made.count (route.subscriber, .nack (category == .transient))
  rejected : ∀ category : ErrorCategory, (Measurement.failed route.name category.name).reading gained =
    reckonings.countP (Reckoning.rejectedFor category)
  published : ∀ queues : List String, queues.Nodup → (∀ queue, route.publishQueue = some queue → queue ∈ queues) →
    (queues.map fun queue => (Measurement.published route.name queue).reading gained).sum =
      (reckonings.map fun reckoning => reckoning.outputs.length).sum
  poisoned : (Measurement.poisoned route.name).reading gained = reckonings.countP Reckoning.diverted
  retried : (Measurement.retried route.name).reading gained + reckonings.countP Reckoning.reached =
    (reckonings.map fun reckoning => reckoning.attempts.length).sum
  recovered : (Measurement.panicRecovered route.name).reading gained = reckonings.countP Reckoning.panicked

theorem reading_reckoned {name : String} {gained : List Measurement} {reckonings : List (Reckoning F)}
    (counted : Measurement.named name gained = reckonings.flatMap (Reckoning.measured name)) {m : Measurement}
    (own : m.handler = name) : m.reading gained = (reckonings.map fun r => r.weight m).sum := by
  rw [← Measurement.reading_named, own, counted, Measurement.reading_eq_count, List.count_flatMap]
  exact congrArg List.sum (List.map_congr_left fun r _ => r.count_measured own)

theorem published_weights {queues : List String} (distinct : queues.Nodup) {reckonings : List (Reckoning F)}
    (known : ∀ r ∈ reckonings, ∀ p ∈ r.outputs, p.queue ∈ queues) (name : String) :
    (queues.map fun queue => (reckonings.map fun r => r.weight (.published name queue)).sum).sum =
      (reckonings.map fun r => r.outputs.length).sum := by
  have sorted : ∀ p ∈ reckonings.flatMap (·.outputs), p.queue ∈ queues := by
    intro p member
    obtain ⟨r, within, taken⟩ := List.mem_flatMap.mp member
    exact known r within p taken
  have each : ∀ queue, (reckonings.map fun r => r.weight (.published name queue)).sum =
      (reckonings.flatMap (·.outputs)).countP fun p => p.queue == queue := by
    intro queue
    rw [List.countP_flatMap]
    rfl
  rw [List.map_congr_left fun queue _ => each queue, counts_over_keys Publication.queue distinct sorted,
    List.length_flatMap]

theorem balanced {route : Route F} {gained : List Measurement} {made : List (BrokerId × Settlement)}
    {reckonings : List (Reckoning F)}
    (counted : Measurement.named route.name gained = reckonings.flatMap (Reckoning.measured route.name))
    (settled : made = reckonings.flatMap fun r => verdicts route r.delivered)
    (finished : ∀ r ∈ reckonings, ∃ fate, r.delivered = .ok fate)
    (outlet : ∀ r ∈ reckonings, ∀ p ∈ r.outputs, route.publishQueue = some p.queue) :
    Balance route gained made reckonings := by
  have reading : ∀ m : Measurement, m.handler = route.name →
      m.reading gained = (reckonings.map fun r => r.weight m).sum := fun m own => reading_reckoned counted own
  have settling : ∀ call, made.count call = (reckonings.map fun r => (verdicts route r.delivered).count call).sum := by
    intro call
    rw [settled, List.count_flatMap]
    rfl
  have agreed : ∀ {f g : Reckoning F → Nat}, (∀ r, f r = g r) → (reckonings.map f).sum = (reckonings.map g).sum :=
    fun each => congrArg List.sum (List.map_congr_left fun r _ => each r)
  refine ⟨?_, ?_, ?_, ?_, ?_, ?_, ?_, ?_, ?_⟩
  · rw [reading _ rfl]
    exact (sums_count (fun _ => true) reckonings).trans (congrFun List.countP_true reckonings)
  · rw [reading _ rfl, reading _ rfl, reading _ rfl, reading _ rfl, ← sums_add fun r _ => rfl]
    exact sums_add fun r member => r.received_weight route.name (finished r member)
  · rw [reading _ rfl, settling]
    exact agreed fun r => r.acked_weight route.name route
  · intro category
    rw [reading _ rfl, settling]
    exact agreed fun r => r.nacked_weight route.name route category
  · intro category
    rw [reading _ rfl, ← sums_count]
    exact agreed fun r => r.rejected_weight route.name category
  · intro queues distinct known
    rw [List.map_congr_left fun queue _ => reading (.published route.name queue) rfl]
    exact published_weights distinct (fun r member p taken => known p.queue (outlet r member p taken)) route.name
  · rw [reading _ rfl, ← sums_count]
    rfl
  · rw [reading _ rfl, ← sums_count]
    exact (sums_add fun r _ => r.retried_weight route.name).symm
  · rw [reading _ rfl, ← sums_count]
    exact agreed fun r => r.recovered_weight route.name

-- One delivery of a consumer with its reckoning.
structure Delivered (F : EventFamily) where
  handling : Handling F
  reckoning : Reckoning F

structure Service.Reckoned (service : Service F) (route : Route F) (d : Delivered F) : Prop where
  handled : Handled (route.process (service.pipeline route)) d.handling
  reckons : service.Reckons route d.handling.message d.handling.transcript d.reckoning

theorem handlings_reckoned {service : Service F} {route : Route F} (standard : route.handler.Standard)
    {finished : List (Handling F)}
    (handled : ∀ handling ∈ finished, Handled (route.process (service.pipeline route)) handling) :
    ∃ deliveries : List (Delivered F), deliveries.map (·.handling) = finished ∧
      ∀ d ∈ deliveries, service.Reckoned route d ∧
        measurements d.handling.transcript = d.reckoning.measured route.name ∧
        ∃ fate, d.reckoning.delivered = .ok fate := by
  induction finished with
  | nil => exact ⟨[], rfl, nofun⟩
  | cons handling rest ih =>
      have done := handled handling List.mem_cons_self
      obtain ⟨reckoning, reckons, counted, returned⟩ := process_reckoned standard done
      obtain ⟨deliveries, same, each⟩ := ih fun other member => handled other (List.mem_cons_of_mem _ member)
      refine ⟨⟨handling, reckoning⟩ :: deliveries, congrArg (handling :: ·) same, ?_⟩
      intro d member
      rcases List.mem_cons.mp member with rfl | later
      · exact ⟨⟨done, reckons⟩, counted, returned rfl⟩
      · exact each d later

theorem handled_balance {service : Service F} {route : Route F} (standard : route.handler.Standard)
    {finished : List (Handling F)}
    (handled : ∀ handling ∈ finished, Handled (route.process (service.pipeline route)) handling)
    {gained : List Measurement}
    (counted : Measurement.named route.name gained = measurements (finished.flatMap (·.transcript))) :
    ∃ deliveries : List (Delivered F), deliveries.map (·.handling) = finished ∧
      (∀ d ∈ deliveries, service.Reckoned route d) ∧
      Balance route gained (settlements (finished.flatMap (·.transcript))) (deliveries.map (·.reckoning)) := by
  obtain ⟨deliveries, rfl, each⟩ := handlings_reckoned standard handled
  refine ⟨deliveries, rfl, fun d member => (each d member).1, ?_⟩
  rw [List.flatMap_map] at counted ⊢
  apply balanced
  · rw [counted, measurements, List.filterMap_flatMap, List.flatMap_map]
    exact congrArg List.flatten (List.map_congr_left fun d within => (each d within).2.1)
  · rw [settlements, List.filterMap_flatMap, List.flatMap_map]
    exact congrArg List.flatten (List.map_congr_left fun d within =>
      reckons_settled standard (each d within).1.reckons)
  · intro r member
    obtain ⟨d, within, rfl⟩ := List.mem_map.mp member
    exact (each d within).2.2
  · intro r member p taken
    obtain ⟨d, within, rfl⟩ := List.mem_map.mp member
    exact (reckons_outputs (each d within).1.reckons p taken).2

-- First for deliveries whose collaborators answer in any way, then for the sessions of a service in its world.
theorem route_counters_balance {service : Service F} (built : service.Built) {i : Nat} {route : Route F}
    (known : service.routes[i]? = some route) (apart : route.name ≠ producerName) :
    (∀ (finished : List (Handling F)) (gained : List Measurement),
      (∀ handling ∈ finished, Handled (route.process (service.pipeline route)) handling) →
      Measurement.named route.name gained = measurements (finished.flatMap (·.transcript)) →
      ∃ deliveries : List (Delivered F), deliveries.map (·.handling) = finished ∧
        (∀ d ∈ deliveries, service.Reckoned route d) ∧
        Balance route gained (settlements (finished.flatMap (·.transcript))) (deliveries.map (·.reckoning))) ∧
    ∀ (w : World F) (crew : Crew F) (occasions : List (Occasion F)) (consumer : Consumer F),
      let session := crew.attend occasions
      w.Historic → openRoutes service service.routes w = (.ok crew.consumers, crew.world) →
      session.2.consumers[i]? = some consumer → consumer.phase.resting = true →
      ∃ (gained : List Measurement) (deliveries : List (Delivered F)),
        session.2.world.measurements = crew.world.measurements ++ gained ∧
        session.1.of i = deliveries.flatMap (·.handling.happenings) ∧
        (∀ d ∈ deliveries, service.Reckoned route d) ∧
        Balance route gained (settlements (answersOf (session.1.of i))) (deliveries.map (·.reckoning)) := by
  have standard := built_standard built (List.mem_of_getElem? known)
  refine ⟨fun finished gained handled counted => handled_balance standard handled counted, ?_⟩
  intro w crew occasions consumer session historic opened there resting
  have start : crew.Orderly service [] := opened_orderly historic opened crew.signal
  have orderly := Crew.attend_orderly start occasions
  obtain ⟨gained, grown, counted⟩ := Crew.attend_counts built start known apart occasions
  have tracks := orderly.tracks_at there
  rw [Option.some.inj ((orderly.route_at there).symm.trans known), List.nil_append] at tracks
  obtain ⟨finished, current, split, handled, underway⟩ := tracks
  rw [resting_idle underway resting, List.append_nil] at split
  rw [split, answers_of_handlings] at counted
  obtain ⟨deliveries, rfl, reckoned, balance⟩ := handled_balance standard handled counted
  refine ⟨gained, deliveries, grown, by rw [split, List.flatMap_map], reckoned, ?_⟩
  rwa [split, answers_of_handlings]

-- The first of two messages passes; the second declares a schema that is not registered and is refused.
def mixedOccasions : List (Occasion Events.family) :=
  .turn (.choose (arrival "a")) :: .produce pingProduction :: List.replicate 60 (.turn (.choose (.step 0)))

theorem pair_counters_balance :
    openRoutes pairService pairService.routes pairWorld = (.ok pairCrew.consumers, pairCrew.world) ∧
      ∃ (gained : List Measurement) (deliveries : List (Delivered Events.family)),
        (pairCrew.attend mixedOccasions).2.world.measurements = pairCrew.world.measurements ++ gained ∧
        Balance (copyRoute .default) gained (settlements (answersOf ((pairCrew.attend mixedOccasions).1.of 0)))
          (deliveries.map (·.reckoning)) ∧
        (Measurement.received "copy").reading (pairCrew.attend mixedOccasions).2.world.measurements = 2 ∧
        (Measurement.processed "copy").reading (pairCrew.attend mixedOccasions).2.world.measurements = 1 := by
  have opened : openRoutes pairService pairService.routes pairWorld =
      (.ok pairCrew.consumers, pairCrew.world) := by rfl
  have known : pairService.routes[0]? = some (copyRoute .default) := rfl
  obtain ⟨-, sessions⟩ := route_counters_balance pair_built known (by decide)
  have rests : (pairCrew.attend mixedOccasions).2.consumers[0]?.map (·.phase.resting) = some true := by
    decide +kernel
  obtain ⟨consumer, there, resting⟩ := Option.map_eq_some_iff.mp rests
  obtain ⟨gained, deliveries, grown, -, -, balance⟩ :=
    sessions pairWorld pairCrew mixedOccasions consumer (single_historic _ _) opened there resting
  exact ⟨opened, gained, deliveries, grown, balance, by decide +kernel, by decide +kernel⟩

end EventPipeline

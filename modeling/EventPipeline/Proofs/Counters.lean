import EventPipeline.Proofs.Inquiries

/-!
What a delivery adds to the counters. Each stage counts under the name of its route, right beside the step
that it counts, so what a run measured can be told from what became of the delivery.
-/

set_option autoImplicit false

namespace EventPipeline

open Program Transcript

variable {F : EventFamily}

namespace Measurement

def handler : Measurement → String
  | .received handler => handler
  | .processed handler => handler
  | .failed handler _ => handler
  | .retried handler => handler
  | .poisoned handler => handler
  | .published handler _ => handler
  | .panicRecovered handler => handler

-- The counter that a measurement adds one to. The histogram of durations is not a counter.
def counter (m : Measurement) : Series := m.series.head (by cases m <;> exact List.cons_ne_nil _ _)

def reading (m : Measurement) (measurements : List Measurement) : Nat :=
  (measurements.flatMap series).count m.counter

-- No two measurements share a counter, and none of them counts as another's record.
theorem count_series (m n : Measurement) : n.series.count m.counter = if n = m then 1 else 0 := by
  cases m <;> cases n <;> simp [series, counter, List.count_cons]

theorem reading_eq_count (m : Measurement) (measurements : List Measurement) :
    m.reading measurements = measurements.count m := by
  induction measurements with
  | nil => rfl
  | cons n rest ih =>
      unfold reading at ih ⊢
      rw [List.flatMap_cons, List.count_append, ih, count_series, List.count_cons, Nat.add_comm]
      simp

def named (name : String) (measurements : List Measurement) : List Measurement :=
  measurements.filter fun m => m.handler == name

@[simp] theorem named_append (name : String) (first second : List Measurement) :
    named name (first ++ second) = named name first ++ named name second := List.filter_append ..

theorem named_all {name : String} {measurements : List Measurement}
    (own : ∀ m ∈ measurements, m.handler = name) : named name measurements = measurements :=
  List.filter_eq_self.mpr fun m member => beq_iff_eq.mpr (own m member)

theorem named_none {name other : String} {measurements : List Measurement} (apart : other ≠ name)
    (foreign : ∀ m ∈ measurements, m.handler = other) : named name measurements = [] := by
  apply List.filter_eq_nil_iff.mpr
  intro m member
  rw [foreign m member, beq_iff_eq]
  exact apart

theorem reading_named (m : Measurement) (measurements : List Measurement) :
    m.reading (named m.handler measurements) = m.reading measurements := by
  rw [reading_eq_count, reading_eq_count, named]
  exact List.count_filter (beq_iff_eq.mpr rfl)

end Measurement

def Exchange.measurement? : Exchange F → Option Measurement
  | ⟨.count m, _⟩ => some m
  | _ => none

namespace Transcript

def measurements (t : Transcript F) : List Measurement := t.filterMap Exchange.measurement?

@[simp] theorem measurements_append (t u : Transcript F) :
    measurements (t ++ u) = measurements t ++ measurements u := List.filterMap_append

theorem measurements_of_uncounted {t : Transcript F} (silent : ∀ x ∈ t, ∀ m, x.effect ≠ .count m) :
    measurements t = [] := by
  apply List.filterMap_eq_nil_iff.mpr
  rintro ⟨effect, answer⟩ member
  cases effect with
  | count m => exact absurd rfl (silent _ member m)
  | _ => rfl

theorem measurements_of_notes {t : Transcript F} (notes : Notes t) : measurements t = [] := by
  apply measurements_of_uncounted
  intro x member m same
  obtain ⟨record, note⟩ := notes x member
  rw [same] at note
  cases note

end Transcript

-- Handlers and the outbox count nothing.
theorem core_uncounted {service : Service F} {route : Route F} (standard : route.handler.Standard)
    (message : Message) : (service.core route message).Only fun e => ∀ m, e ≠ .count m := by
  refine Service.core_only (fun _ _ => nofun) (fun _ _ _ _ _ => nofun) (standard_only ?_ (fun _ => nofun) standard message)
  rintro e call m rfl
  cases call

theorem retries_measured {policy : RetryPolicy} {name : String}
    {work : Program F (Except EventError (List Message))} {tried left : Nat} {attempts : List (Attempt F)}
    {t : Transcript F} {outcome : Handler.Outcome} (silent : work.Only fun e => ∀ m, e ≠ .count m)
    (retries : Retries policy name work tried left attempts t outcome) :
    measurements t = List.replicate (attempts.length - 1) (.retried name) := by
  induction retries with
  | last ran final => exact measurements_of_uncounted (leads_only silent ran)
  | again ran failed passing record later ih =>
      obtain ⟨earlier, final, before, rfl, -, -⟩ := retries_last later
      have quiet := measurements_of_uncounted (leads_only silent ran)
      rw [measurements_append, measurements_append, ih, quiet, List.length_cons, List.length_append,
        List.length_singleton]
      exact List.replicate_succ.symm

theorem passage_measured {service : Service F} {route : Route F} (standard : route.handler.Standard)
    {message : Message} {attempts : List (Attempt F)} {t : Transcript F} {outcome : Handler.Outcome}
    (passage : service.Passage route message attempts t outcome) :
    measurements t = List.replicate (attempts.length - 1) (.retried route.name) := by
  have named : ∀ {fresh : Transcript F} {received : Message}, message.Correlated fresh received →
      measurements fresh = [] := by
    intro fresh received correlated
    cases correlated <;> rfl
  have checked : ∀ {received : Message} {checking : Transcript F} {verdict},
      service.validation.Checks received checking verdict → measurements checking = [] := by
    intro received checking verdict checks
    cases checks <;> rfl
  cases passage with
  | rejected correlated entering leaving checks bad =>
      simp [named correlated, measurements_of_notes entering, checked checks, measurements_of_notes leaving]
  | admitted correlated entering leaving checks retries =>
      simp [named correlated, measurements_of_notes entering, checked checks, measurements_of_notes leaving,
        retries_measured (core_uncounted standard _) retries]

namespace PoisonQueue

theorem decide_measured {classifier : Classifier} {e : EventError} {t : Transcript F}
    {decision : Except Panic Bool} (ends : Ends (classifier.decide e) t decision) : measurements t = [] := by
  have confined : (classifier.decide e).Only fun effect : Effect F => ∀ m, effect ≠ .count m :=
    only_decide (fun _ _ _ => nofun) classifier e
  exact measurements_of_uncounted (leads_only confined ends)

-- A dead letter is counted when the poison queue has taken it.
theorem divert_measured {poison : PoisonQueue} {name : String} {message : Message} {e : EventError}
    {t : Transcript F} {outcome : Except Panic (Except EventError (List Message))}
    (ends : Ends (poison.divert name message e) t outcome) :
    measurements t = (accepted t).map fun _ => .poisoned name := by
  rcases ends_bind.mp ends with ⟨p, rfl, refused⟩ | ⟨answer, t₁, t₂, rfl, answered, ending⟩
  · obtain ⟨reply, rfl, same⟩ := ends_publish.mp refused
    cases reply with
    | panic p => rfl
    | ok _ => cases same
    | error e => cases same
  · obtain ⟨reply, rfl, same⟩ := ends_publish.mp answered
    cases answer with
    | error refusal =>
        obtain ⟨u, rfl, last⟩ := ends_note_bind.mp ending
        obtain ⟨rfl, -⟩ := ends_done.mp last
        cases reply with
        | error e => rfl
        | ok _ => cases same
        | panic p => cases same
    | ok _ =>
        obtain ⟨u, rfl, rest⟩ := ends_note_bind.mp ending
        obtain ⟨v, rfl, last⟩ := ends_count_bind.mp rest
        obtain ⟨rfl, -⟩ := ends_done.mp last
        cases reply with
        | ok _ => rfl
        | error e => cases same
        | panic p => cases same

theorem ruling_measured {poison : PoisonQueue} {name : String} {message : Message}
    {inside outcome : Handler.Outcome} {later : Transcript F}
    (ruling : poison.Ruling name message inside later outcome) :
    measurements later = (accepted later).map fun _ => .poisoned name := by
  have undelivered : ∀ {e : EventError} {t : Transcript F} {decision}, Ends (poison.classifier.decide e) t decision →
      measurements t = [] ∧ accepted t = [] := by
    intro e t decision ends
    exact ⟨decide_measured ends, by rw [accepted, (decide_quiet ends).1]; rfl⟩
  cases ruling with
  | broken p => rfl
  | passed outputs => rfl
  | undecided decision => simp [undelivered decision]
  | spared decision => simp [undelivered decision]
  | diverted decision diversion => simp [undelivered decision, divert_measured diversion]

-- A message is published to the poison queue once at most.
theorem ruling_letter? {poison : PoisonQueue} {name : String} {message : Message}
    {inside outcome : Handler.Outcome} {later : Transcript F}
    (ruling : poison.Ruling name message inside later outcome) :
    ∃ letter? : Option Publication, accepted later = letter?.toList := by
  cases ruling with
  | broken p => exact ⟨none, rfl⟩
  | passed outputs => exact ⟨none, rfl⟩
  | undecided decision => exact ⟨none, by rw [accepted, (decide_quiet decision).1]; rfl⟩
  | spared decision => exact ⟨none, by rw [accepted, (decide_quiet decision).1]; rfl⟩
  | diverted decision diversion =>
      obtain ⟨reply, letter, -⟩ := ends_divert diversion
      refine ⟨acceptance? (⟨poison.broker, poison.queue, message⟩, reply), ?_⟩
      rw [accepted, publishes_append, (decide_quiet decision).1, letter]
      cases reply <;> rfl

end PoisonQueue

-- The dead letter is all that the guarded stages add to the passage.
theorem ends_guarded {service : Service F} {route : Route F} {message : Message} {t : Transcript F}
    {outcome : Handler.Outcome} (ends : Ends (service.guarded route message) t outcome) :
    ∃ attempts inner inside later, ∃ letter? : Option Publication, t = inner ++ later ∧
      service.Passage route message attempts inner inside ∧ accepted later = letter?.toList ∧
      measurements later = letter?.toList.map (fun _ => .poisoned route.name) ∧
      ∀ p ∈ letter?, ∃ poison, service.poison? = some poison ∧ p = ⟨poison.broker, poison.queue, message⟩ := by
  cases found : service.poison? with
  | none =>
      rw [guarded_none found] at ends
      obtain ⟨attempts, passage⟩ := Service.ends_inner ends
      exact ⟨attempts, t, outcome, [], none, (List.append_nil t).symm, passage, rfl, rfl, nofun⟩
  | some poison =>
      rw [guarded_some found] at ends
      obtain ⟨inner, inside, later, rfl, tried, ruling⟩ := PoisonQueue.ends_wrap ends
      obtain ⟨attempts, passage⟩ := Service.ends_inner tried
      obtain ⟨letter?, taken⟩ := PoisonQueue.ruling_letter? ruling
      refine ⟨attempts, inner, inside, later, letter?, rfl, passage, taken, ?_, ?_⟩
      · rw [PoisonQueue.ruling_measured ruling, taken]
      · intro p member
        have within : p ∈ accepted later := taken ▸ Option.mem_toList.mpr member
        obtain ⟨e, -, same⟩ := ruling_letter ruling p (sent_of_accepted within)
        exact ⟨poison, rfl, same⟩

def recoveries (name : String) : Handler.Outcome → List Measurement
  | .ok _ => []
  | .error _ => [.panicRecovered name]

theorem rescue_measured (name : String) (record : TraceRecord) (inside : Handler.Outcome) :
    measurements (rescue name record inside : Transcript F) = recoveries name inside := by
  cases inside <;> rfl

theorem pipeline_parts {service : Service F} {route : Route F} (standard : route.handler.Standard)
    {message : Message} {t : Transcript F} {result : Except EventError (List Message)}
    (ends : Ends (service.pipeline route message) t (.ok result)) :
    ∃ attempts inner inside later closing guarded, ∃ letter? : Option Publication,
      t = inner ++ (later ++ closing) ∧ result = recovered guarded ∧ service.Passage route message attempts inner inside ∧
      Ends (service.guarded route message) (inner ++ later) guarded ∧ accepted later = letter?.toList ∧
      (∀ p ∈ letter?, ∃ poison, service.poison? = some poison ∧ p = ⟨poison.broker, poison.queue, message⟩) ∧
      measurements t = List.replicate (attempts.length - 1) (.retried route.name) ++
        (letter?.toList.map (fun _ => .poisoned route.name) ++ recoveries route.name guarded) := by
  rw [pipeline_eq] at ends
  obtain ⟨within, guarded, record, rfl, inside, returned⟩ := ends_rescued ends
  obtain ⟨attempts, inner, tried, later, letter?, rfl, passage, taken, counted, letter⟩ := ends_guarded inside
  refine ⟨attempts, inner, tried, later, _, guarded, letter?, List.append_assoc _ _ _, Except.ok.inj returned,
    passage, inside, taken, letter, ?_⟩
  rw [measurements_append, measurements_append, passage_measured standard passage, counted, rescue_measured,
    List.append_assoc]

namespace Route

-- Induction on the outputs: each is counted once the publisher has taken it, and the last may be refused.
theorem publish_all_measured {route : Route F} {queue : String} {outputs : List Message} {t : Transcript F}
    {outcome : Except Panic (Except EventError Unit)}
    (ends : Ends (route.publishAll queue outputs) t outcome) :
    measurements t = (accepted t).map fun p => .published route.name p.queue := by
  induction outputs generalizing t with
  | nil =>
      obtain ⟨rfl, -⟩ := ends_done.mp ends
      rfl
  | cons output rest ih =>
      rcases ends_bind.mp ends with ⟨p, rfl, broken⟩ | ⟨answer, t₁, t₂, rfl, answered, ending⟩
      · obtain ⟨reply, rfl, same⟩ := ends_publish.mp broken
        cases reply with
        | panic p => rfl
        | ok _ => cases same
        | error e => cases same
      · obtain ⟨reply, rfl, same⟩ := ends_publish.mp answered
        cases answer with
        | error e =>
            obtain ⟨rfl, -⟩ := ends_done.mp ending
            cases reply with
            | error e => rfl
            | ok _ => cases same
            | panic p => cases same
        | ok _ =>
            obtain ⟨u, rfl, logged⟩ := ends_count_bind.mp ending
            obtain ⟨v, rfl, remaining⟩ := ends_note_bind.mp logged
            cases reply with
            | ok _ => exact congrArg (.published route.name queue :: ·) (ih remaining)
            | error e => cases same
            | panic p => cases same

theorem delivers_measured {route : Route F} {result : Except EventError (List Message)} {t : Transcript F}
    {outcome : Except Panic (Except EventError Unit)} (delivers : route.Delivers result t outcome) :
    measurements t = (accepted t).map fun p => .published route.name p.queue := by
  cases delivers with
  | failed e => rfl
  | empty => rfl
  | homeless present absent => rfl
  | published target ends => exact publish_all_measured ends

end Route

-- What became of one delivery, as far as it is counted.
structure Reckoning (F : EventFamily) where
  -- The calls that the retry stage made, none for a message that did not reach it.
  attempts : List (Attempt F)
  -- How the stages inside the recoverer ended.
  guarded : Handler.Outcome
  -- The dead letter, if the poison queue took one, and the outputs that the publisher took.
  letter? : Option Publication
  outputs : List Publication
  delivered : Except Panic (Except EventError Unit)

def verdicts (route : Route F) : Except Panic (Except EventError Unit) → List (BrokerId × Settlement)
  | .ok fate => [(route.subscriber, .of fate)]
  | .error _ => []

namespace Reckoning

def conclusions (name : String) : Except Panic (Except EventError Unit) → List Measurement
  | .ok (.ok _) => [.processed name]
  | .ok (.error e) => [.failed name e.category.name]
  | .error _ => []

def measured (name : String) (reckoning : Reckoning F) : List Measurement :=
  .received name :: (List.replicate (reckoning.attempts.length - 1) (.retried name) ++
    (reckoning.letter?.toList.map (fun _ => .poisoned name) ++
      (recoveries name reckoning.guarded ++
        (reckoning.outputs.map (fun p => .published name p.queue) ++ conclusions name reckoning.delivered))))

theorem measured_own (name : String) (reckoning : Reckoning F) :
    ∀ m ∈ reckoning.measured name, m.handler = name := by
  intro m member
  simp only [measured, List.mem_cons, List.mem_append, List.mem_replicate, List.mem_map] at member
  rcases member with rfl | ⟨-, rfl⟩ | ⟨p, -, rfl⟩ | panic | ⟨p, -, rfl⟩ | conclusion
  · rfl
  · rfl
  · rfl
  · unfold recoveries at panic
    split at panic
    · cases panic
    · cases List.mem_singleton.mp panic
      rfl
  · rfl
  · unfold conclusions at conclusion
    split at conclusion
    · cases List.mem_singleton.mp conclusion
      rfl
    · cases List.mem_singleton.mp conclusion
      rfl
    · cases conclusion

-- What a delivery adds to a counter of its route.
def weight (reckoning : Reckoning F) : Measurement → Nat
  | .received _ => 1
  | .processed _ =>
      match reckoning.delivered with
      | .ok (.ok _) => 1
      | _ => 0
  | .failed _ category =>
      match reckoning.delivered with
      | .ok (.error e) => if e.category.name = category then 1 else 0
      | _ => 0
  | .retried _ => reckoning.attempts.length - 1
  | .poisoned _ => if reckoning.letter?.isSome then 1 else 0
  | .published _ queue => reckoning.outputs.countP fun p => p.queue == queue
  | .panicRecovered _ =>
      match reckoning.guarded with
      | .error _ => 1
      | .ok _ => 0

theorem count_published (name queue : String) (outputs : List Publication) :
    (outputs.map fun p => Measurement.published name p.queue).count (.published name queue) =
      outputs.countP fun p => p.queue == queue := by
  rw [List.count_eq_countP, List.countP_map]
  apply List.countP_congr
  simp

theorem count_elsewhere (name : String) (outputs : List Publication) {m : Measurement}
    (other : ∀ name queue, m ≠ .published name queue) :
    (outputs.map fun p => Measurement.published name p.queue).count m = 0 := by
  apply List.count_eq_zero.mpr
  intro member
  obtain ⟨p, -, same⟩ := List.mem_map.mp member
  exact other name p.queue same.symm

theorem count_measured {name : String} (reckoning : Reckoning F) {m : Measurement}
    (own : m.handler = name) : (reckoning.measured name).count m = reckoning.weight m := by
  subst own
  obtain ⟨attempts, guarded, letter?, outputs, delivered⟩ := reckoning
  cases m with
  | poisoned name =>
      cases letter? <;> cases guarded <;> rcases delivered with p | e | _ <;>
        simp [measured, weight, recoveries, conclusions, Measurement.handler, List.count_replicate,
          count_elsewhere]
  | published name queue =>
      cases guarded <;> rcases delivered with p | e | _ <;>
        simp [measured, weight, recoveries, conclusions, Measurement.handler, List.map_const',
          List.count_replicate, count_published]
  | _ =>
      cases guarded <;> rcases delivered with p | e | _ <;>
        simp [measured, weight, recoveries, conclusions, Measurement.handler, List.map_const',
          List.count_replicate, count_elsewhere, List.count_cons]

end Reckoning

-- The parts of a run that its reckoning is taken from.
inductive Service.Reckons (service : Service F) (route : Route F) (message : Message) :
    Transcript F → Reckoning F → Prop where
  | parts {attempts : List (Attempt F)} {inner later closing delivering concluding : Transcript F}
      {inside guarded : Handler.Outcome} {letter? : Option Publication}
      {delivered : Except Panic (Except EventError Unit)}
      (passage : service.Passage route message attempts inner inside)
      (taken : accepted later = letter?.toList)
      (letter : ∀ p ∈ letter?, ∃ poison, service.poison? = some poison ∧
        p = ⟨poison.broker, poison.queue, message⟩)
      (guards : Ends (service.guarded route message) (inner ++ later) guarded)
      (piped : Ends (service.pipeline route message) (inner ++ (later ++ closing)) (.ok (recovered guarded)))
      (delivers : route.Delivers (recovered guarded) delivering delivered)
      (settled : settlements concluding = verdicts route delivered) :
      Reckons service route message
        (⟨.count (.received route.name), ()⟩ :: (inner ++ (later ++ closing) ++ (delivering ++ concluding)))
        ⟨attempts, guarded, letter?, accepted delivering, delivered⟩

theorem process_parts {service : Service F} {route : Route F} {message : Message} {t : Transcript F}
    {outcome : Except Panic Unit} (ends : Ends (route.process (service.pipeline route) message) t outcome) :
    ∃ handled result delivering delivered concluding,
      t = ⟨.count (.received route.name), ()⟩ :: (handled ++ (delivering ++ concluding)) ∧
      Ends (service.pipeline route message) handled (.ok result) ∧
      route.Delivers result delivering delivered ∧
      measurements concluding = Reckoning.conclusions route.name delivered ∧
      settlements concluding = verdicts route delivered ∧
      (outcome = .ok () → ∃ fate, delivered = .ok fate) := by
  obtain ⟨u, rest, rfl, ⟨p, rfl, rfl, broken⟩ | ⟨fate, record, reply, last, rfl, dispatched, notes, -⟩⟩ :=
    Route.ends_process_verdict ends
  · rcases Route.ends_dispatch broken with ⟨q, -, inside⟩ | ⟨handled, result, after, rfl, returned, delivers⟩
    · obtain ⟨result, same⟩ := pipeline_returns inside
      cases same
    · exact ⟨handled, result, after, .error p, [], by simp, returned, delivers, rfl, rfl, nofun⟩
  · rcases Route.ends_dispatch dispatched with ⟨q, same, -⟩ | ⟨handled, result, after, rfl, returned, delivers⟩
    · cases same
    · have uncounted := measurements_of_notes notes
      have unsettled := (quiet_of_remarks (remarks_of_notes notes)).2
      refine ⟨handled, result, after, .ok fate, _, congrArg (_ :: ·) (List.append_assoc _ _ _), returned, delivers,
        ?_, ?_, fun _ => ⟨fate, rfl⟩⟩
      · cases fate with
        | ok _ => exact congrArg (.processed route.name :: ·) uncounted
        | error e => exact congrArg (.failed route.name e.category.name :: ·) uncounted
      · rw [settlements_append, (Route.quiet_of_remarked route record fate).2]
        exact congrArg (_ :: ·) unsettled

theorem process_reckoned {service : Service F} {route : Route F} (standard : route.handler.Standard)
    {message : Message} {t : Transcript F} {outcome : Except Panic Unit}
    (ends : Ends (route.process (service.pipeline route) message) t outcome) :
    ∃ reckoning, service.Reckons route message t reckoning ∧
      measurements t = reckoning.measured route.name ∧
      (outcome = .ok () → ∃ fate, reckoning.delivered = .ok fate) := by
  obtain ⟨handled, result, delivering, delivered, concluding, rfl, piped, delivers, concludes, settled, returned⟩ :=
    process_parts ends
  obtain ⟨attempts, inner, inside, later, closing, guarded, letter?, rfl, rfl, passage, guards, taken, letter,
    counted⟩ := pipeline_parts standard piped
  refine ⟨⟨attempts, guarded, letter?, accepted delivering, delivered⟩,
    .parts passage taken letter guards piped delivers settled, ?_, returned⟩
  change .received route.name :: measurements (_ ++ (_ ++ _)) = _
  rw [measurements_append (inner ++ (later ++ closing)), measurements_append delivering, counted,
    Route.delivers_measured delivers, concludes, List.append_assoc, List.append_assoc]
  rfl

-- A run that is not at its end yet has counted under the same name.
theorem leads_measured {service : Service F} {route : Route F} (standard : route.handler.Standard)
    {message : Message} {t : Transcript F} {rest : Program F Unit}
    (reached : Leads (route.process (service.pipeline route) message) t rest) :
    ∀ m ∈ measurements t, m.handler = route.name := by
  obtain ⟨reckoning, -, counted, -⟩ :=
    process_reckoned standard (leads_append reached (ends_play .obliging [] rest))
  intro m member
  apply Reckoning.measured_own route.name reckoning m
  rw [← counted, measurements_append]
  exact List.mem_append_left _ member

theorem reckons_settled {service : Service F} {route : Route F} (standard : route.handler.Standard)
    {message : Message} {t : Transcript F} {reckoning : Reckoning F}
    (reckons : service.Reckons route message t reckoning) :
    settlements t = verdicts route reckoning.delivered := by
  cases reckons with
  | @parts attempts inner later closing delivering concluding inside guarded letter? delivered passage taken
      letter guards piped delivers settled =>
      change settlements (inner ++ (later ++ closing) ++ (delivering ++ concluding)) = _
      rw [settlements_append (inner ++ (later ++ closing)), settlements_append delivering,
        pipeline_settles_nothing standard piped, Route.delivers_settles_nothing delivers, settled]
      rfl

theorem reckons_outputs {service : Service F} {route : Route F} {message : Message} {t : Transcript F}
    {reckoning : Reckoning F} (reckons : service.Reckons route message t reckoning) :
    ∀ p ∈ reckoning.outputs, p.broker = route.publisher ∧ route.publishQueue = some p.queue := by
  cases reckons with
  | parts passage diverted letter guards piped delivers settled =>
      exact fun p taken => Route.delivers_to_queue delivers p (sent_of_accepted taken)

end EventPipeline

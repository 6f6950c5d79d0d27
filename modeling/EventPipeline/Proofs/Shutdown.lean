import EventPipeline.Proofs.Inquiries
import EventPipeline.Proofs.Progress
import EventPipeline.Proofs.Startup

/-!
How a service stops. A loop that was told to stop takes nothing more, what it has in hand is carried to its
settlement, and the publisher is closed behind the last loop; a service whose queues are closed first
takes all that is in them.
-/

set_option autoImplicit false

namespace EventPipeline

open Program Transcript

variable {F : EventFamily}

namespace Scene

theorem act_takes_nothing {scene : Scene F} (off : scene.signal.Off) (act : Act) (i : Nat) :
    takenOf ((journalOf (scene.act act).1).of i) = [] := by
  cases act with
  | turn turn =>
      rw [Scene.act, journal_of_noted]
      exact Crew.turn_takes_nothing off turn i
  | conclude =>
      have unnoted : journalOf (scene.act .conclude).1 = [] := by
        unfold Scene.act conclude
        dsimp only
        split
        · split
          · rfl
          · split <;> rfl
        · rfl
      rw [unnoted]
      rfl

theorem perform_takes_nothing {scene : Scene F} {acts : List Act}
    (off : ∀ before act after, acts = before ++ act :: after → (scene.perform before).2.signal.Off)
    (i : Nat) : takenOf ((journalOf (scene.perform acts).1).of i) = [] := by
  induction acts generalizing scene with
  | nil => rfl
  | cons act acts ih =>
      have first : scene.signal.Off := off [] _ _ rfl
      rw [perform, journal_of_append, Journal.of_append, taken_of_append, act_takes_nothing first,
        List.nil_append]
      exact ih fun before other after same => off (act :: before) other after (by rw [same, List.cons_append])

end Scene

theorem World.refused_closed {w : World F} {id : BrokerId} {topic : String} {message : Message}
    (refused : replyOf (w.publish id topic message).1 = .error Broker.refusal) :
    (w.broker id).broker.closed = true := by
  cases closed : (w.broker id).broker.closed with
  | true => rfl
  | false =>
      by_cases faulty : (w.broker id).faults.refusedPublishes.contains (w.broker id).publishes = true
      · simp [World.publish, FaultyBroker.publish, faulty, replyOf, Broker.refusal] at refused
      · simp [World.publish, FaultyBroker.publish, faulty, FaultyBroker.publishInside, Broker.publish, closed,
          Except.map, replyOf] at refused

namespace Crew

-- An answer is what the world says to the question at that moment.
theorem turn_answered {service : Service F} {past : Journal F} {crew : Crew F}
    (orderly : crew.Orderly service past) {turn : Turn} {i : Nat} {x : Exchange F}
    (noted : (crew.turn turn).1 = [⟨i, .answered x⟩]) :
    ∃ (effect : Effect F) (origin : World F),
      x = ⟨effect, ((origin.start effect).1.resume crew.world).1⟩ := by
  cases turn with
  | close broker => cases noted
  | choose choice =>
      have chosen := choose_chosen crew choice
      change (crew.choose choice).1 = _ at noted
      rw [noted] at chosen
      generalize same : [(⟨i, .answered x⟩ : Entry F)] = journal, (crew.choose choice).2 = next at chosen
      cases chosen with
      | stuck j => cases same
      | outside called signal stores later => cases same
      | @moved j consumer after v happening found moves =>
          cases happening with
          | none => cases same
          | some what =>
              cases same
              cases moves with
              | @answered effect pending next phase =>
                  obtain ⟨origin, rfl⟩ := orderly_anchored orderly found _ _ _ phase
                  exact ⟨effect, origin, rfl⟩

-- Nothing is refused by a closed broker unless it was closed before, or from outside meanwhile.
theorem pursue_refused {service : Service F} {past : Journal F} {crew : Crew F}
    (orderly : crew.Orderly service past) {turns : List Turn} {i : Nat} {p : Publication}
    (refused : ⟨i, .answered ⟨.publish p.broker p.queue p.message, .error Broker.refusal⟩⟩ ∈
      (crew.pursue turns).1) :
    (crew.world.broker p.broker).broker.closed = true ∨ .close p.broker ∈ turns := by
  obtain ⟨early, late, split⟩ := List.append_of_mem refused
  obtain ⟨before, turn, after, rfl, -, noted⟩ := pursue_split split
  obtain ⟨effect, origin, same⟩ := turn_answered (pursue_orderly orderly before) noted
  have closed : ((crew.pursue before).2.world.broker p.broker).broker.closed = true := by
    have effects := congrArg Exchange.effect same
    dsimp only at effects
    subst effects
    have answers := eq_of_heq (Exchange.mk.inj same).2
    exact World.refused_closed answers.symm
  rw [pursue_closes orderly before, Bool.or_eq_true] at closed
  rcases closed with already | meanwhile
  · exact .inl already
  · exact .inr (List.mem_append_left _ (List.contains_iff_mem.mp meanwhile))

end Crew

-- What a route has done when its loop is at rest. Every delivery that it took from the front of its queue
-- was worked off and got one verdict, and no handler was shown another.
structure Settled (service : Service F) (route : Route F) (w : World F) (happenings : List (Happening F))
    (finished : List (Handling F)) : Prop where
  split : happenings = finished.flatMap Handling.happenings
  handled : ∀ handling ∈ finished, Handled (route.process (service.pipeline route)) handling
  verdict : ∀ handling ∈ finished, ∃ verdict, settlements handling.transcript = [(route.subscriber, verdict)]
  shown : ∀ handling ∈ finished, ∀ call ∈ calls handling.transcript, call.Shows handling.message
  front : finished.map (·.message) <+: (w.broker route.subscriber).broker.published route.consumeQueue

theorem handled_verdict {service : Service F} {route : Route F} (standard : route.handler.Standard)
    {handling : Handling F} (handled : Handled (route.process (service.pipeline route)) handling) :
    ∃ verdict, settlements handling.transcript = [(route.subscriber, verdict)] := by
  obtain ⟨before, result, delivering, concluding, delivered, account⟩ := process_account standard handled
  cases delivered with
  | ok fate => exact ⟨_, account.settled fate rfl⟩
  | error p => cases (account.unsettled p rfl).2

theorem rest_settled {service : Service F} (built : service.Built) {past : Journal F} {crew : Crew F}
    (orderly : crew.Orderly service past) {i : Nat} {consumer : Consumer F}
    (known : crew.consumers[i]? = some consumer) (resting : consumer.phase.resting = true) :
    ∃ finished, Settled service consumer.route crew.world (past.of i) finished := by
  have standard := built_standard built (List.mem_of_getElem? (orderly.route_at known))
  have logged := (orderly.follows i consumer known).logged
  obtain ⟨finished, current, split, handled, underway⟩ := orderly.tracks_at known
  rw [resting_idle underway resting, List.append_nil] at split
  rw [split, taken_of_handlings] at logged
  exact ⟨finished, split, handled, fun handling within => handled_verdict standard (handled handling within),
    fun handling within => process_shows standard (handled handling within), logged⟩

theorem settled_later {service : Service F} {route : Route F} {w v : World F}
    {happenings : List (Happening F)} {finished : List (Handling F)} (settled : Settled service route w happenings finished)
    {calls : BrokerId → List BrokerCall} (called : w.Called calls v) :
    Settled service route v happenings finished :=
  { settled with front := settled.front.trans (Consumer.published_grows called _ _) }

-- How a run has returned: its loops had all ended when it closed the publisher, which was the last it did,
-- and every route has settled what it took.
structure Returned (service : Service F) (opened : Scene F) (acts : List Act) : Prop where
  result : (opened.perform acts).2.lifetime = .finished (.ok ())
  closing : ∃ before after consumers outcome, acts = before ++ .conclude :: after ∧
    (opened.perform before).2.lifetime = .running service.transport consumers ∧
    (∀ consumer ∈ consumers, consumer.phase = .ended) ∧
    (opened.perform acts).1 = (journalOf (opened.perform before).1).map .noted ++
      [.closed service.transport.publisher outcome] ∧
    (outcome = .ok () →
      ((opened.perform acts).2.world.broker service.transport.publisher).broker.closed = true)
  settled : ∀ (i : Nat) (route : Route F), service.routes[i]? = some route →
    ∃ finished, Settled service route (opened.perform acts).2.world
      ((journalOf (opened.perform acts).1).of i) finished

theorem mem_turns_of {turn : Turn} {acts : List Act} : turn ∈ turnsOf acts ↔ .turn turn ∈ acts := by
  constructor
  · intro member
    obtain ⟨act, within, same⟩ := List.mem_filterMap.mp member
    cases act with
    | conclude => cases same
    | turn other => cases same; exact within
  · exact fun member => List.mem_filterMap.mpr ⟨_, member, rfl⟩

theorem turns_of_split {acts : List Act} {before after : List Turn} {turn : Turn}
    (split : turnsOf acts = before ++ turn :: after) :
    ∃ front rest, acts = front ++ .turn turn :: rest ∧ turnsOf front = before := by
  obtain ⟨first, second, rfl, early, late⟩ := List.filterMap_eq_append_iff.mp split
  obtain ⟨between, act, rest, rfl, silent, here, -⟩ := List.filterMap_eq_cons_iff.mp late
  cases act with
  | conclude => cases here
  | turn other =>
      cases here
      refine ⟨first ++ between, rest, by simp, ?_⟩
      have nothing : turnsOf between = [] := List.filterMap_eq_nil_iff.mpr silent
      rw [turns_of_append, nothing, List.append_nil]
      exact early

theorem start_launched {service : Service F} (built : service.Built) {w v : World F}
    (historic : w.Historic) (returning : w.Returning) {transport : Transport} {consumers : List (Consumer F)}
    (started : startService service w = (.running transport consumers, v)) (signal : Signal) :
    transport = service.transport ∧ Launched service ⟨signal, consumers, v⟩ := by
  obtain ⟨u, last, outcome, early, opened, late, lifetime⟩ := start_opens service w
  rw [started] at late lifetime
  obtain ⟨rfl, rfl⟩ : transport = service.transport ∧ outcome = .ok consumers := by
    cases outcome with
    | error e => cases lifetime
    | ok others => cases lifetime; exact ⟨rfl, rfl⟩
  have historic₁ := historic_called historic early
  obtain ⟨-, fresh, -, calls, called, -⟩ := open_routes_fresh (historic_sound historic₁) opened
  have orderly := opened_orderly historic₁ opened signal
  have phases : ∀ consumer ∈ consumers, consumer.phase = .starting :=
    fun consumer member => (fresh consumer member).phase
  have returning₁ : v.Returning :=
    World.returning_called (World.returning_called (World.returning_called returning early) called) late
  refine ⟨rfl, built, ?_, ⟨returning₁, ?_, ?_⟩, phases⟩
  · exact Crew.outside_orderly orderly late (fun _ _ => ⟨World.mem_nothing, World.mem_nothing⟩) signal
  · intro entry member
    cases member
  · intro consumer member p failed
    rw [phases consumer member] at failed
    cases failed

namespace Scene

-- From some moment on the loops are told to stop, or the signal rests and nobody is left to send it or all
-- queues are closed.
def Final (opened : Scene F) (service : Service F) (acts : Nat → Act) (n : Nat) : Prop :=
  let scene := fun m => (opened.perform (firstActs acts m)).2
  (∀ m ≥ n, (scene m).signal.stop = true) ∨
    (∀ m ≥ n, (scene m).signal = (scene n).signal) ∧ ((scene n).signal.connected = false ∨
      ∀ route ∈ service.routes, ((scene n).world.broker route.subscriber).broker.closed = true)

section Launched

variable {service : Service F} {start : Crew F} (launched : Launched service start) (outlet : BrokerId)

include launched

theorem launched_course (acts : List Act) :
    Course start service.transport outlet acts ((Scene.of start service.transport outlet).perform acts) :=
  perform_course launched.built launched.orderly launched.returning service.transport outlet acts

-- A run works on, or it has returned.
theorem runs_or_returned (acts : List Act) :
    (Scene.of start service.transport outlet).perform acts = atWork start service.transport outlet acts ∨
      Returned service (Scene.of start service.transport outlet) acts := by
  have course := launched_course launched outlet acts
  generalize performed : (Scene.of start service.transport outlet).perform acts = run at course
  cases course with
  | running => exact .inl rfl
  | @returned before after scene calls reached ended finished called outcome shut =>
      right
      have front := reached before (List.prefix_refl before)
      have orderly := Crew.pursue_orderly launched.orderly (turnsOf before)
      rw [List.nil_append] at orderly
      constructor
      · rw [performed]
        exact finished
      · refine ⟨before, after, _, outcome, rfl, by rw [front]; rfl, ended, ?_, ?_⟩
        · rw [performed, front, journal_at_work]
          rfl
        · rw [performed]
          exact shut
      · intro i route known
        obtain ⟨consumer, found, rfl⟩ := orderly.consumer_at known
        have last := ended consumer (List.mem_of_getElem? found)
        obtain ⟨done, settled⟩ := rest_settled launched.built orderly found (by rw [last]; rfl)
        refine ⟨done, ?_⟩
        rw [performed, atWork, journal_of_closed]
        exact settled_later settled called

-- The journal of a run is the one of a session of its crew.
theorem journal_of_run (acts : List Act) :
    ∃ front, front <+: acts ∧ journalOf ((Scene.of start service.transport outlet).perform acts).1 =
      (start.pursue (turnsOf front)).1 := by
  have course := launched_course launched outlet acts
  generalize (Scene.of start service.transport outlet).perform acts = run at course
  cases course with
  | running => exact ⟨acts, List.prefix_refl acts, journal_at_work ..⟩
  | returned before after reached ended finished called shut =>
      exact ⟨before, List.prefix_append _ _, journal_of_closed _ _ _⟩

-- Where the signal was never off, the loops have ended because their queues ran dry.
theorem returned_drained {acts : List Act}
    (on : ∀ before act after, acts = before ++ act :: after →
      ¬ ((Scene.of start service.transport outlet).perform before).2.signal.Off)
    {deeds : List (Deed F)} {scene : Scene F} {result : Except EventError Unit}
    (performed : (Scene.of start service.transport outlet).perform acts = (deeds, scene))
    (returned : scene.lifetime = .finished result)
    {i : Nat} {route : Route F} (known : service.routes[i]? = some route) :
    (scene.world.broker route.subscriber).broker.closed = true ∧
      takenOf ((journalOf deeds).of i) =
        (scene.world.broker route.subscriber).broker.published route.consumeQueue := by
  have course := launched_course launched outlet acts
  rw [performed] at course
  cases course with
  | running => cases returned
  | returned before after reached ended finished called shut =>
      have orderly := Crew.pursue_orderly launched.orderly (turnsOf before)
      have untouched : start.Drained [] := by
        intro j consumer found stopped
        rw [launched.fresh consumer (List.mem_of_getElem? found)] at stopped
        cases stopped
      have drained : Crew.Drained ([] ++ (start.pursue (turnsOf before)).1)
          (start.pursue (turnsOf before)).2 := by
        refine Crew.pursue_drained launched.orderly untouched fun early turn late split => ?_
        obtain ⟨front, rest, rfl, rfl⟩ := turns_of_split split
        have watched := on front (.turn turn) (rest ++ .conclude :: after) (by simp)
        rwa [reached front (List.prefix_append _ _)] at watched
      obtain ⟨consumer, found, rfl⟩ := orderly.consumer_at known
      obtain ⟨closed, taken⟩ := drained i consumer found (ended consumer (List.mem_of_getElem? found))
      obtain ⟨still, logs⟩ := World.closed_called called closed
      refine ⟨still, ?_⟩
      rw [atWork, journal_of_closed, logs]
      exact taken

theorem returned_of_result {acts : List Act} {result : Except EventError Unit}
    (finished : ((Scene.of start service.transport outlet).perform acts).2.lifetime = .finished result) :
    Returned service (Scene.of start service.transport outlet) acts := by
  rcases runs_or_returned launched outlet acts with running | returned
  · rw [running] at finished
    cases finished
  · exact returned

-- In a fair schedule the delivery in hand is settled sooner or later.
theorem fair_settles {acts : Nat → Act} (fair : FairSchedule service.routes.length acts) (n : Nat) {i : Nat}
    {route : Route F} (known : service.routes[i]? = some route) :
    ∃ m ≥ n, ∃ finished,
      let run := (Scene.of start service.transport outlet).perform (firstActs acts m)
      Settled service route run.2.world ((journalOf run.1).of i) finished := by
  let run : Run service := ⟨start, launched, acts⟩
  have fair₁ : run.Fair := fair
  obtain ⟨consumer, found, -⟩ := (run.orderly_at n).consumer_at known
  obtain ⟨m, later, after, found₁, resting⟩ := Run.comes_to_rest fair₁ found
  refine ⟨m, later, ?_⟩
  rcases runs_or_returned launched outlet (firstActs acts m) with running | returned
  · have same := known.symm.trans ((run.orderly_at m).route_at found₁)
    cases same
    dsimp only
    rw [running, journal_at_work]
    exact rest_settled launched.built (run.orderly_at m) found₁ resting
  · exact returned.settled i route known

theorem fair_returns {acts : Nat → Act} (fair : FairSchedule service.routes.length acts) {n : Nat}
    (final : (Scene.of start service.transport outlet).Final service acts n) :
    ∃ m, Returned service (Scene.of start service.transport outlet) (firstActs acts m) := by
  let run : Run service := ⟨start, launched, acts⟩
  have fair₁ : run.Fair := fair
  refine Classical.byContradiction fun never => ?_
  have same : ∀ m, ((Scene.of start service.transport outlet).perform (firstActs acts m)).2 =
      .of (run.crew m) service.transport outlet := by
    intro m
    rcases runs_or_returned launched outlet (firstActs acts m) with running | returned
    · rw [running]
      rfl
    · exact absurd ⟨m, returned⟩ never
  have final₁ : run.Final n := by
    unfold Final at final
    simp only [same] at final
    exact final
  obtain ⟨m, finished⟩ := Run.returns fair₁ final₁ service.transport outlet
  exact never ⟨m, returned_of_result launched outlet finished⟩

end Launched

end Scene

theorem shutdown_settles_what_was_taken {service : Service F} (built : service.Built) {w v : World F}
    (historic : w.Historic) (returning : w.Returning) {transport : Transport} {consumers : List (Consumer F)}
    (started : startService service w = (.running transport consumers, v)) (signal : Signal)
    (outlet : BrokerId) :
    let opened : Scene F := ⟨v, .running transport consumers, signal, outlet⟩
    (∀ acts more : List Act,
      (∀ before act after, more = before ++ act :: after → (opened.perform (acts ++ before)).2.signal.Off) →
      ∀ i, takenOf ((journalOf (opened.perform (acts ++ more)).1).of i) =
        takenOf ((journalOf (opened.perform acts).1).of i)) ∧
    (∀ acts : List Act,
      let run := opened.perform acts
      ((∃ others, run.2.lifetime = .running service.transport others ∧
          run.1 = (journalOf run.1).map .noted) ∨ Returned service opened acts) ∧
      (∀ (i : Nat) (route : Route F), service.routes[i]? = some route →
        InTurn (route.process (service.pipeline route)) ((journalOf run.1).of i)) ∧
      (∀ (i : Nat) (p : Publication),
        ⟨i, .answered ⟨.publish p.broker p.queue p.message, .error Broker.refusal⟩⟩ ∈ journalOf run.1 →
        (v.broker p.broker).broker.closed = true ∨ .turn (.close p.broker) ∈ acts) ∧
      ((∀ before act after, acts = before ++ act :: after → ¬ (opened.perform before).2.signal.Off) →
        Returned service opened acts → ∀ (i : Nat) (route : Route F), service.routes[i]? = some route →
          (run.2.world.broker route.subscriber).broker.closed = true ∧
            takenOf ((journalOf run.1).of i) =
              (run.2.world.broker route.subscriber).broker.published route.consumeQueue)) ∧
    (∀ acts : Nat → Act, FairSchedule service.routes.length acts →
      (∀ (n i : Nat) (route : Route F), service.routes[i]? = some route →
        ∃ m ≥ n, ∃ finished, Settled service route (opened.perform (firstActs acts m)).2.world
          ((journalOf (opened.perform (firstActs acts m)).1).of i) finished) ∧
      ((∃ n, opened.Final service acts n) → ∃ n, Returned service opened (firstActs acts n))) := by
  obtain ⟨rfl, launched⟩ := start_launched built historic returning started signal
  intro opened
  refine ⟨?_, ?_, ?_⟩
  · intro acts more off i
    have nothing : takenOf ((journalOf ((opened.perform acts).2.perform more).1).of i) = [] := by
      refine Scene.perform_takes_nothing (fun before act after same => ?_) i
      have watched := off before act after same
      rwa [Scene.perform_append] at watched
    rw [Scene.perform_append, journal_of_append, Journal.of_append, taken_of_append, nothing, List.append_nil]
  · intro acts run
    obtain ⟨front, begins, same⟩ := Scene.journal_of_run launched outlet acts
    have journal : journalOf run.1 = (Crew.pursue ⟨signal, consumers, v⟩ (turnsOf front)).1 := same
    have orderly := Crew.pursue_orderly launched.orderly (turnsOf front)
    rw [List.nil_append, ← journal] at orderly
    refine ⟨?_, fun i route known => (crew_in_turn built orderly known).2.2, ?_, ?_⟩
    · rcases Scene.runs_or_returned launched outlet acts with running | returned
      · left
        have performed : run = _ := running
        rw [performed, Scene.journal_at_work]
        exact ⟨_, rfl, rfl⟩
      · exact .inr returned
    · intro i p refused
      rw [journal] at refused
      rcases Crew.pursue_refused launched.orderly refused with already | meanwhile
      · exact .inl already
      · exact .inr (begins.subset (mem_turns_of.mp meanwhile))
    · intro on returned i route known
      exact Scene.returned_drained launched outlet on rfl returned.result known
  · intro acts fair
    refine ⟨fun n i route known => Scene.fair_settles launched outlet fair n known, ?_⟩
    rintro ⟨n, final⟩
    exact Scene.fair_returns launched outlet fair final

-- The pair of routes again. The first one has a delivery in hand and another pending when it is told to stop.
def stoppedEarly : List Act :=
  [.turn (.choose (arrival "a")), .turn (.choose (arrival "b"))] ++
    List.replicate 5 (.turn (.choose (.step 0))) ++ [.turn (.choose (.send true))] ++
    List.replicate 28 (.turn (.choose (.step 0))) ++ List.replicate 2 (.turn (.choose (.step 1))) ++
    [.conclude]

-- Here the queue is closed with two deliveries in it, and nobody tells the loops to stop.
def closedEarly : List Act :=
  [.turn (.choose (arrival "a")), .turn (.choose (arrival "b")), .turn (.close "main")] ++
    List.replicate 70 (.turn (.choose (.step 0))) ++ List.replicate 70 (.turn (.choose (.step 1))) ++
    [.conclude]

def inRotation : Nat → Act
  | 0 => .turn (.choose (arrival "a"))
  | 1 => .turn (.choose (.send true))
  | n + 2 =>
      if n % 4 = 0 then .turn (.choose (.step 0))
      else if n % 4 = 1 then .turn (.choose (.step 1))
      else if n % 4 = 2 then .turn (.choose (.wait 1))
      else .conclude

theorem rotation_fair : FairSchedule pairService.routes.length inRotation := by
  refine ⟨?_, fun n => ⟨4 * n + 4, by omega, 1, by decide, ?_⟩, fun n => ⟨4 * n + 5, by omega, ?_⟩⟩
  · intro i small n
    have two : i = 0 ∨ i = 1 := by
      change i < 2 at small
      omega
    rcases two with rfl | rfl
    · refine ⟨4 * n + 2, by omega, ?_⟩
      rw [inRotation, if_pos (by omega)]
    · refine ⟨4 * n + 3, by omega, ?_⟩
      rw [inRotation, if_neg (by omega), if_pos (by omega)]
  · rw [inRotation, if_neg (by omega), if_neg (by omega), if_pos (by omega)]
  · rw [inRotation, if_neg (by omega), if_neg (by omega), if_neg (by omega)]

def Act.signals : Act → Bool
  | .turn (.choose (.send _)) | .turn (.choose .dropSender) => true
  | _ => false

namespace Scene

theorem act_signal (scene : Scene F) {act : Act} (silent : act.signals = false) :
    (scene.act act).2.signal = scene.signal := by
  cases act with
  | conclude =>
      change scene.conclude.2.signal = scene.signal
      unfold conclude
      split
      · split
        · rfl
        · split <;> rfl
      · rfl
  | turn turn =>
      cases turn with
      | close broker => rfl
      | choose choice =>
          cases choice with
          | send stop => cases silent
          | dropSender => cases silent
          | publish broker topic message => rfl
          | wait millis => rfl
          | step i =>
              change (scene.crew.choose (.step i)).2.signal = scene.signal
              cases known : scene.crew.consumers[i]? with
              | none =>
                  simp only [Crew.choose, known]
                  rfl
              | some consumer =>
                  cases made : consumer.step scene.crew.signal scene.crew.world with
                  | none =>
                      simp only [Crew.choose, known, made]
                      rfl
                  | some result =>
                      simp only [Crew.choose, known, made]
                      rfl

theorem perform_signal (scene : Scene F) {acts : List Act} (silent : ∀ act ∈ acts, act.signals = false) :
    (scene.perform acts).2.signal = scene.signal := by
  induction acts generalizing scene with
  | nil => rfl
  | cons act acts ih =>
      have first := scene.act_signal (silent act List.mem_cons_self)
      exact (ih _ fun other member => silent other (List.mem_cons_of_mem _ member)).trans first

end Scene

theorem rotation_silent (n : Nat) : (inRotation (n + 2)).signals = false := by
  rw [inRotation]
  split
  · rfl
  · split
    · rfl
    · split <;> rfl

theorem rotation_final (opened : Scene Events.family) : opened.Final pairService inRotation 2 := by
  refine .inl fun m later => ?_
  dsimp only
  induction later with
  | refl => rfl
  | @step m later ih =>
      have next : (opened.perform (firstActs inRotation (m + 1))).2 =
          ((opened.perform (firstActs inRotation m)).2.act (inRotation m)).2 := by
        rw [firstActs, List.range_succ, List.map_append, Scene.perform_append]
        rfl
      obtain ⟨k, rfl⟩ := Nat.exists_eq_add_of_le' later
      rw [next, Scene.act_signal _ (rotation_silent k)]
      exact ih

theorem pair_returning : pairWorld.Returning := by
  intro id n
  rw [pairWorld, single_broker]
  rfl

def pairScene : Scene Events.family :=
  let (lifetime, world) := startService pairService pairWorld
  ⟨world, lifetime, .create false, "main"⟩

-- The signal of the pair is on at first.
theorem pair_watched {acts : List Act} (silent : ∀ act ∈ acts, act.signals = false)
    {before after : List Act} {act : Act} (split : acts = before ++ act :: after) : ¬ (pairScene.perform before).2.signal.Off := by
  rw [Scene.perform_signal pairScene fun other member => silent other (by rw [split]; simp [member])]
  exact @Signal.quiet_not_off _ 0 ⟨rfl, rfl, rfl⟩

def takenBy (acts : List Act) (i : Nat) : List String :=
  (takenOf ((journalOf (pairScene.perform acts).1).of i)).map (·.uuid)

theorem pair_shuts_down :
    startService pairService pairWorld =
        (.running pairService.transport pairScene.crew.consumers, pairScene.world) ∧
      (Returned pairService pairScene stoppedEarly ∧ takenBy stoppedEarly 0 = ["a"] ∧
        takenBy stoppedEarly 1 = []) ∧
      (Returned pairService pairScene closedEarly ∧ takenBy closedEarly 1 = ["a", "b"] ∧
        takenOf ((journalOf (pairScene.perform closedEarly).1).of 1) =
          ((pairScene.perform closedEarly).2.world.broker "main").broker.published "in") ∧
      FairSchedule pairService.routes.length inRotation ∧
      ∃ n, Returned pairService pairScene (firstActs inRotation n) := by
  have started : startService pairService pairWorld =
      (.running pairService.transport pairScene.crew.consumers, pairScene.world) := by rfl
  have opened : (⟨pairScene.world, .running pairService.transport pairScene.crew.consumers, .create false,
      "main"⟩ : Scene Events.family) = pairScene := by rfl
  have whole := shutdown_settles_what_was_taken pair_built (single_historic _ _) pair_returning started
    (.create false) "main"
  rw [opened] at whole
  obtain ⟨-, settles, returns⟩ := whole
  have returned : ∀ acts, (pairScene.perform acts).2.outcome?.isSome = true →
      Returned pairService pairScene acts := by
    intro acts finished
    rcases (settles acts).1 with ⟨others, running, -⟩ | returned
    · rw [Scene.outcome?, running] at finished
      cases finished
    · exact returned
  have stopped := returned stoppedEarly (by decide +kernel)
  have closed := returned closedEarly (by decide +kernel)
  have watched := @pair_watched closedEarly (by decide +kernel)
  have drained := (settles closedEarly).2.2.2 (fun _ _ _ => watched) closed 1 _ rfl
  exact ⟨started, ⟨stopped, by decide +kernel, by decide +kernel⟩, ⟨closed, by decide +kernel, drained.2⟩,
    rotation_fair, (returns inRotation rotation_fair).2 ⟨2, rotation_final _⟩⟩

end EventPipeline

import EventPipeline.Proofs.Conclusion

/-!
Runs that get on. Where every loop is scheduled again and again and time passes, the delivery in hand is
carried to its end; when the loops are told to stop, or their queues are closed, they end one by one, and
the run returns.
-/

set_option autoImplicit false

namespace EventPipeline

variable {F : EventFamily}

theorem World.start_clock (w : World F) (effect : Effect F) : (w.start effect).2.clock = w.clock := by
  cases effect <;> rfl

theorem World.resume_clock (origin w : World F) (effect : Effect F) :
    ((origin.start effect).1.resume w).2.clock = w.clock := by
  cases effect with
  | publish id topic message => exact (kept_publish w id topic message).clock
  | settle id settlement => exact (kept_set_broker w id _).clock
  | _ => rfl

theorem Consumer.moves_clock {signal : Signal} {consumer after : Consumer F} {w v : World F}
    {happening : Option (Happening F)} (moves : consumer.Moves signal w happening after v)
    (anchored : consumer.Anchored) : v.clock = w.clock := by
  cases moves with
  | started phase same kept => exact kept.clock
  | noticed phase off news => rfl
  | took phase got quiet => exact (kept_set_broker w _ _).clock
  | @left phase between same kept reason => exact (kept_changed between _ _).clock.trans kept.clock
  | finished phase => rfl
  | failed phase => exact (kept_changed w _ _).clock
  | @began effect next phase => exact World.start_clock w effect
  | @answered effect pending next phase =>
      obtain ⟨origin, rfl⟩ := anchored _ _ _ phase
      exact World.resume_clock origin w effect

namespace Consumer

section Listening

variable {signal : Signal} {consumer : Consumer F} (phase : consumer.phase = .listening) (w : World F)

include phase

theorem step_stopped (on : signal.stop = true) :
    ∃ v, consumer.step signal w = some ({ consumer with phase := .ended }, v) := by
  simp only [step, phase, listen, on, if_true]
  exact ⟨_, rfl⟩

theorem step_noticed (off : signal.stop = false) (news : signal.version ≠ consumer.seen) :
    consumer.step signal w = some ({ consumer with seen := signal.version }, w) := by
  simp only [step, phase, listen, off, Bool.false_eq_true, if_false, if_pos news]

theorem step_orphaned (off : signal.stop = false) (known : signal.version = consumer.seen)
    (gone : signal.connected = false) :
    ∃ v, consumer.step signal w = some ({ consumer with phase := .ended }, v) := by
  simp only [step, phase, listen, off, known, gone, Bool.false_eq_true, if_false, ne_eq, not_true_eq_false,
    Bool.not_false, if_true]
  exact ⟨_, rfl⟩

-- A stream that will not block is read or left.
theorem step_reads (quiet : signal.Quiet consumer.seen)
    (ready : ((w.broker consumer.route.subscriber).broker.receive consumer.stream).1 ≠ .pending) :
    (∃ v, consumer.step signal w = some ({ consumer with phase := .ended }, v)) ∨
      ∃ message v, consumer.step signal w =
          some ({ consumer with phase := .working (consumer.route.process consumer.handler message) }, v) ∧
        consumer.happening signal w = some (.took message) := by
  cases got : ((w.broker consumer.route.subscriber).broker.receive consumer.stream).1 with
  | pending => exact absurd got ready
  | ended =>
      left
      simp only [step, phase, listen, quiet.off, quiet.known, quiet.held, Bool.false_eq_true, if_false,
        ne_eq, not_true_eq_false, Bool.not_true, World.receive, got]
      exact ⟨_, rfl⟩
  | message message =>
      right
      refine ⟨message, (w.receive consumer.route.subscriber consumer.stream).2, ?_, ?_⟩
      · simp only [step, phase, listen, quiet.off, quiet.known, quiet.held, Bool.false_eq_true, if_false,
          ne_eq, not_true_eq_false, Bool.not_true, World.receive, got]
      · simp [happening, phase, quiet.off, quiet.known, quiet.held, World.receive, got, Reception.message?]

end Listening

end Consumer

-- Nobody who reads from a closed broker waits for more.
theorem Broker.closed_ready {broker : Broker} (sound : Broker.Sound broker) (closed : broker.closed = true)
    (id : StreamId) : (broker.receive id).1 ≠ .pending := by
  unfold Broker.receive
  cases found : broker.stream? id with
  | none => exact nofun
  | some stream =>
      have attached := sound.attached stream (Broker.stream_mem found)
      rw [closed] at attached
      dsimp only
      cases stream.pending with
      | cons message rest => exact nofun
      | nil => simp [attached]

namespace Crew

theorem turn_clock {service : Service F} {past : Journal F} {crew : Crew F}
    (orderly : crew.Orderly service past) (turn : Turn) :
    crew.world.clock ≤ (crew.turn turn).2.world.clock := by
  cases turn with
  | close broker => exact Nat.le_of_eq (kept_changed crew.world broker Broker.close).clock.symm
  | choose choice =>
      have chosen := choose_chosen crew choice
      change crew.world.clock ≤ (crew.choose choice).2.world.clock
      generalize (crew.choose choice).1 = journal, (crew.choose choice).2 = next at chosen
      cases chosen with
      | stuck i => exact Nat.le_refl _
      | moved known moves =>
          exact Nat.le_of_eq (Consumer.moves_clock moves (orderly_anchored orderly known)).symm
      | outside called signal stores later => exact later

-- Only its own steps change a loop.
theorem turn_spares {crew : Crew F} {turn : Turn} {i : Nat} (other : turn ≠ .choose (.step i)) :
    (crew.turn turn).2.consumers[i]? = crew.consumers[i]? := by
  cases turn with
  | close broker => rfl
  | choose choice =>
      have chosen := choose_chosen crew choice
      change (crew.choose choice).2.consumers[i]? = _
      generalize (crew.choose choice).1 = journal, (crew.choose choice).2 = next at chosen
      cases chosen with
      | stuck j => rfl
      | outside called signal stores later => rfl
      | @moved j consumer after v happening known moves =>
          have apart : j ≠ i := fun same => other (by rw [same])
          rw [List.getElem?_set, if_neg apart]

end Crew

-- Every loop gets its turns, time goes by, and the run looks after its loops.
structure FairSchedule (loops : Nat) (acts : Nat → Act) : Prop where
  steps : ∀ i < loops, ∀ n, ∃ m ≥ n, acts m = .turn (.choose (.step i))
  waits : ∀ n, ∃ m ≥ n, ∃ millis > 0, acts m = .turn (.choose (.wait millis))
  concludes : ∀ n, ∃ m ≥ n, acts m = .conclude

def firstActs (acts : Nat → Act) (n : Nat) : List Act := (List.range n).map acts

-- A service that has just started.
structure Launched (service : Service F) (start : Crew F) : Prop where
  built : service.Built
  orderly : start.Orderly service []
  returning : start.Returning []
  fresh : ∀ consumer ∈ start.consumers, consumer.phase = .starting

-- A run without end, as the schedule of its acts.
structure Run (service : Service F) where
  start : Crew F
  launched : Launched service start
  acts : Nat → Act

namespace Run

variable {service : Service F} (run : Run service)

def before (n : Nat) : List Act := firstActs run.acts n

def journal (n : Nat) : Journal F := (run.start.pursue (turnsOf (run.before n))).1

def crew (n : Nat) : Crew F := (run.start.pursue (turnsOf (run.before n))).2

theorem orderly_at (n : Nat) : (run.crew n).Orderly service (run.journal n) :=
  Crew.pursue_orderly run.launched.orderly _

theorem returning_at (n : Nat) : (run.crew n).Returning (run.journal n) :=
  Crew.pursue_returning run.launched.built run.launched.orderly run.launched.returning _

theorem before_succ (n : Nat) : run.before (n + 1) = run.before n ++ [run.acts n] := by
  rw [before, firstActs, List.range_succ, List.map_append]
  rfl

variable {run} {n : Nat}

theorem turn_at {turn : Turn} (next : run.acts n = .turn turn) :
    run.crew (n + 1) = ((run.crew n).turn turn).2 ∧
      run.journal (n + 1) = run.journal n ++ ((run.crew n).turn turn).1 := by
  have pursued : run.start.pursue (turnsOf (run.before (n + 1))) =
      (run.journal n ++ ((run.crew n).turn turn).1, ((run.crew n).turn turn).2) := by
    rw [before_succ, next, turns_of_append, Crew.pursue_append]
    change (_ ++ (_ ++ []), _) = _
    rw [List.append_nil]
    rfl
  constructor
  · rw [crew, pursued]
  · rw [journal, pursued]

theorem conclude_at (next : run.acts n = .conclude) :
    run.crew (n + 1) = run.crew n ∧ run.journal (n + 1) = run.journal n := by
  have same : turnsOf (run.before (n + 1)) = turnsOf (run.before n) := by
    rw [before_succ, next, turns_of_append]
    exact List.append_nil _
  exact ⟨congrArg (fun turns => (run.start.pursue turns).2) same,
    congrArg (fun turns => (run.start.pursue turns).1) same⟩

theorem journal_grows (i : Nat) {m : Nat} (later : n ≤ m) :
    (takenOf ((run.journal n).of i)).length ≤ (takenOf ((run.journal m).of i)).length := by
  induction later with
  | refl => exact Nat.le_refl _
  | @step m _ ih =>
      refine Nat.le_trans ih ?_
      cases next : run.acts m with
      | conclude => exact (conclude_at next).2 ▸ Nat.le_refl _
      | turn turn =>
          rw [(turn_at next).2, Journal.of_append, taken_of_append, List.length_append]
          exact Nat.le_add_right _ _

theorem clock_grows {m : Nat} (later : n ≤ m) : (run.crew n).world.clock ≤ (run.crew m).world.clock := by
  induction later with
  | refl => exact Nat.le_refl _
  | @step m _ ih =>
      refine Nat.le_trans ih ?_
      cases next : run.acts m with
      | conclude => exact (conclude_at next).1 ▸ Nat.le_refl _
      | turn turn =>
          rw [(turn_at next).1]
          exact Crew.turn_clock (run.orderly_at m) turn

theorem closed_stays {id : BrokerId} {m : Nat} (later : n ≤ m)
    (closed : ((run.crew n).world.broker id).broker.closed = true) :
    ((run.crew m).world.broker id).broker.closed = true ∧ ∀ topic,
      ((run.crew m).world.broker id).broker.published topic =
        ((run.crew n).world.broker id).broker.published topic := by
  induction later with
  | refl => exact ⟨closed, fun _ => rfl⟩
  | @step m _ ih =>
      cases next : run.acts m with
      | conclude => rw [(conclude_at next).1]; exact ih
      | turn turn =>
          obtain ⟨calls, called, -⟩ := Crew.turn_called (run.orderly_at m) turn
          obtain ⟨still, logs⟩ := World.closed_called called ih.1
          rw [(turn_at next).1]
          exact ⟨still, fun topic => (logs topic).trans (ih.2 topic)⟩

variable (run) in
abbrev Fair : Prop := FairSchedule service.routes.length run.acts

theorem time_passes (fair : run.Fair) (time n : Nat) : ∃ m ≥ n, time ≤ (run.crew m).world.clock := by
  induction time generalizing n with
  | zero => exact ⟨n, Nat.le_refl n, Nat.zero_le _⟩
  | succ time ih =>
      obtain ⟨m, later, reached⟩ := ih n
      obtain ⟨k, beyond, millis, some, next⟩ := fair.waits m
      have grown : (run.crew m).world.clock ≤ (run.crew k).world.clock := clock_grows beyond
      have waited : (run.crew (k + 1)).world.clock = (run.crew k).world.clock + millis := by
        rw [(turn_at next).1]
        rfl
      exact ⟨k + 1, by omega, by omega⟩

section Loop

variable {i : Nat} {consumer : Consumer F}

theorem stays_unless_chosen (known : (run.crew n).consumers[i]? = some consumer)
    (other : run.acts n ≠ .turn (.choose (.step i))) :
    (run.crew (n + 1)).consumers[i]? = some consumer := by
  cases next : run.acts n with
  | conclude => rwa [(conclude_at next).1]
  | turn turn =>
      rw [(turn_at next).1, Crew.turn_spares fun same => other (by rw [next, same]), known]

theorem blocked_stays (known : (run.crew n).consumers[i]? = some consumer)
    (next : run.acts n = .turn (.choose (.step i)))
    (blocked : consumer.step (run.crew n).signal (run.crew n).world = none) :
    (run.crew (n + 1)).consumers[i]? = some consumer := by
  rw [(turn_at next).1]
  simp only [Crew.turn, Crew.choose, known, blocked]

theorem stepped {after : Consumer F} {v : World F} (known : (run.crew n).consumers[i]? = some consumer)
    (next : run.acts n = .turn (.choose (.step i)))
    (made : consumer.step (run.crew n).signal (run.crew n).world = some (after, v)) :
    (run.crew (n + 1)).consumers[i]? = some after ∧
      (run.journal (n + 1)).of i =
        (run.journal n).of i ++ (consumer.happening (run.crew n).signal (run.crew n).world).toList := by
  have small := (List.getElem?_eq_some_iff.mp known).1
  rw [(turn_at next).1, (turn_at next).2, Journal.of_append]
  simp only [Crew.turn, Crew.choose, known, made, Journal.of_own, and_true]
  rw [List.getElem?_set, if_pos rfl, if_pos small]

-- Until the loop is chosen for the first time it is as it was.
theorem next_step (fair : run.Fair) (known : (run.crew n).consumers[i]? = some consumer) :
    ∃ m ≥ n, run.acts m = .turn (.choose (.step i)) ∧ (run.crew m).consumers[i]? = some consumer := by
  have small : i < service.routes.length := by
    rw [← (run.orderly_at n).size]
    exact (List.getElem?_eq_some_iff.mp known).1
  obtain ⟨last, beyond, chosen⟩ := fair.steps i small n
  obtain ⟨k, rfl⟩ := Nat.exists_eq_add_of_le beyond
  clear beyond
  induction k generalizing n with
  | zero => exact ⟨n, Nat.le_refl n, chosen, known⟩
  | succ k ih =>
      by_cases here : run.acts n = .turn (.choose (.step i))
      · exact ⟨n, Nat.le_refl n, here, known⟩
      · obtain ⟨m, later, found⟩ :=
          ih (stays_unless_chosen known here) (by rwa [Nat.add_right_comm, Nat.add_assoc])
        exact ⟨m, by omega, found⟩

-- A loop that can step whenever it is chosen does so sooner or later.
theorem makes_step {good : Consumer F → Prop} (fair : run.Fair)
    (known : (run.crew n).consumers[i]? = some consumer)
    (ready : ∀ m ≥ n, ∃ after v,
      consumer.step (run.crew m).signal (run.crew m).world = some (after, v) ∧ good after) :
    ∃ m ≥ n, ∃ after, (run.crew m).consumers[i]? = some after ∧ good after := by
  obtain ⟨m, later, next, still⟩ := next_step fair known
  obtain ⟨after, v, made, fine⟩ := ready m later
  exact ⟨m + 1, by omega, after, (stepped still next made).1, fine⟩

-- Induction on how far away the moment is at which the answer is due for sure.
theorem answer_comes (fair : run.Fair) {effect : Effect F} {pending : Pending F effect.Answer}
    {next : effect.Answer → Program F Unit} (known : (run.crew n).consumers[i]? = some consumer)
    (phase : consumer.phase = .waiting effect pending next) :
    ∃ m ≥ n, ∃ answer after, (run.crew m).consumers[i]? = some after ∧
      after.phase = .working (next answer) := by
  obtain ⟨last, beyond, due⟩ := time_passes fair pending.wake n
  obtain ⟨k, rfl⟩ := Nat.exists_eq_add_of_le beyond
  clear beyond
  have blocked : ∀ {signal : Signal} {w : World F}, ¬ pending.wake ≤ w.clock →
      consumer.step signal w = none := by
    intro signal w early
    simp only [Consumer.step, phase, if_neg early]
  have answered : ∀ {signal : Signal} {w : World F}, pending.wake ≤ w.clock →
      consumer.step signal w =
        some ({ consumer with phase := .working (next (pending.resume w).1) }, (pending.resume w).2) := by
    intro signal w reached
    simp only [Consumer.step, phase, if_pos reached]
  induction k generalizing n with
  | zero =>
      have ready : ∀ m ≥ n, ∃ after v,
          consumer.step (run.crew m).signal (run.crew m).world = some (after, v) ∧
            ∃ answer, after.phase = .working (next answer) :=
        fun m later => ⟨_, _, answered (Nat.le_trans due (clock_grows later)), _, rfl⟩
      obtain ⟨m, later, after, known₁, answer, working⟩ := makes_step fair known ready
      exact ⟨m, later, answer, after, known₁, working⟩
  | succ k ih =>
      have due₁ : pending.wake ≤ (run.crew (n + 1 + k)).world.clock := by
        rwa [Nat.add_right_comm, Nat.add_assoc]
      by_cases chosen : run.acts n = .turn (.choose (.step i))
      · by_cases reached : pending.wake ≤ (run.crew n).world.clock
        · exact ⟨n + 1, by omega, _, _, (stepped known chosen (answered reached)).1, rfl⟩
        · obtain ⟨m, later, found⟩ := ih (blocked_stays known chosen (blocked reached)) due₁
          exact ⟨m, by omega, found⟩
      · obtain ⟨m, later, found⟩ := ih (stays_unless_chosen known chosen) due₁
        exact ⟨m, by omega, found⟩

-- Induction on the work that is left of the delivery in hand.
theorem work_ends (fair : run.Fair) (rest : Program F Unit)
    (known : (run.crew n).consumers[i]? = some consumer) (phase : consumer.phase = .working rest) :
    ∃ m ≥ n, ∃ after, (run.crew m).consumers[i]? = some after ∧ after.phase = .listening := by
  induction rest generalizing n consumer with
  | done value =>
      have ready : ∀ m ≥ n, ∃ after v,
          consumer.step (run.crew m).signal (run.crew m).world = some (after, v) ∧
            after.phase = .listening :=
        fun m _ => ⟨_, _, by simp only [Consumer.step, phase]; rfl, rfl⟩
      exact makes_step fair known ready
  | panic p =>
      have works := Crew.returning_works run.launched.built (run.orderly_at n) (run.returning_at n) known
      exact absurd phase (works p)
  | perform effect next ih =>
      have ready : ∀ m ≥ n, ∃ after v,
          consumer.step (run.crew m).signal (run.crew m).world = some (after, v) ∧
            ∃ pending, after.phase = .waiting effect pending next :=
        fun m _ => ⟨_, _, by simp only [Consumer.step, phase]; rfl, _, rfl⟩
      obtain ⟨m, later, after, known₁, pending, waiting⟩ := makes_step fair known ready
      obtain ⟨k, beyond, answer, working, known₂, phase₂⟩ := answer_comes fair known₁ waiting
      obtain ⟨last, end₁, found⟩ := ih answer known₂ phase₂
      exact ⟨last, by omega, found⟩

theorem comes_to_rest (fair : run.Fair) (known : (run.crew n).consumers[i]? = some consumer) :
    ∃ m ≥ n, ∃ after, (run.crew m).consumers[i]? = some after ∧ after.phase.resting = true := by
  have back : ∀ m ≥ n, ∀ (after : Consumer F) (rest : Program F Unit),
      (run.crew m).consumers[i]? = some after →
      after.phase = .working rest →
      ∃ k ≥ n, ∃ last, (run.crew k).consumers[i]? = some last ∧ last.phase.resting = true := by
    intro m later after rest known₁ working
    obtain ⟨k, beyond, last, known₂, listening⟩ := work_ends fair rest known₁ working
    exact ⟨k, by omega, last, known₂, by rw [listening]; rfl⟩
  cases phase : consumer.phase with
  | working rest => exact back n (Nat.le_refl n) consumer rest known phase
  | waiting effect pending next =>
      obtain ⟨m, later, answer, after, known₁, working⟩ := answer_comes fair known phase
      exact back m later after _ known₁ working
  | failed p =>
      exact absurd phase ((run.returning_at n).standing consumer (List.mem_of_getElem? known) p)
  | _ => exact ⟨n, Nat.le_refl n, consumer, known, by rw [phase]; rfl⟩

end Loop

variable (run) in
def Over (i n : Nat) : Prop :=
  ∃ consumer, (run.crew n).consumers[i]? = some consumer ∧ consumer.phase = .ended

section Ending

variable {i : Nat} {consumer : Consumer F}

theorem over_stays {m : Nat} (later : n ≤ m) (finished : run.Over i n) : run.Over i m := by
  induction later with
  | refl => exact finished
  | @step m _ ih =>
      obtain ⟨consumer, known, phase⟩ := ih
      have blocked : consumer.step (run.crew m).signal (run.crew m).world = none := by
        simp only [Consumer.step, phase]
      by_cases chosen : run.acts m = .turn (.choose (.step i))
      · exact ⟨consumer, blocked_stays known chosen blocked, phase⟩
      · exact ⟨consumer, stays_unless_chosen known chosen, phase⟩

theorem ends_stopped (fair : run.Fair) (stopped : ∀ m ≥ n, (run.crew m).signal.stop = true)
    (known : (run.crew n).consumers[i]? = some consumer) (phase : consumer.phase = .listening) :
    ∃ m ≥ n, run.Over i m := by
  refine makes_step fair known fun m later => ?_
  obtain ⟨v, made⟩ := Consumer.step_stopped phase (run.crew m).world (stopped m later)
  exact ⟨_, v, made, rfl⟩

variable (run) in
-- The signal does not change any more.
def Still (n : Nat) : Prop := ∀ m ≥ n, (run.crew m).signal = (run.crew n).signal

theorem still_later {m : Nat} (still : run.Still n) (later : n ≤ m) : run.Still m := by
  intro k beyond
  rw [still k (by omega), still m later]

-- A loop looks at the signal once, and from then on has nothing to notice.
theorem looks (fair : run.Fair) (still : run.Still n) (off : (run.crew n).signal.stop = false)
    (known : (run.crew n).consumers[i]? = some consumer) (phase : consumer.phase = .listening) :
    ∃ m ≥ n, ∃ after, (run.crew m).consumers[i]? = some after ∧ after.phase = .listening ∧
      after.seen = (run.crew n).signal.version := by
  by_cases news : (run.crew n).signal.version = consumer.seen
  · exact ⟨n, Nat.le_refl n, consumer, known, phase, news.symm⟩
  · have ready : ∀ m ≥ n, ∃ after v,
        consumer.step (run.crew m).signal (run.crew m).world = some (after, v) ∧
          (after.phase = .listening ∧ after.seen = (run.crew n).signal.version) := by
      intro m later
      rw [still m later]
      exact ⟨_, _, Consumer.step_noticed phase (run.crew m).world off news, phase, rfl⟩
    exact makes_step fair known ready

theorem ends_orphaned (fair : run.Fair) (still : run.Still n) (off : (run.crew n).signal.stop = false)
    (gone : (run.crew n).signal.connected = false)
    (known : (run.crew n).consumers[i]? = some consumer) (phase : consumer.phase = .listening) :
    ∃ m ≥ n, run.Over i m := by
  obtain ⟨m, later, after, known₁, phase₁, seen⟩ := looks fair still off known phase
  have left : ∃ k ≥ m, run.Over i k := by
    refine makes_step fair known₁ fun k beyond => ?_
    rw [still k (by omega)]
    obtain ⟨v, made⟩ := Consumer.step_orphaned phase₁ (run.crew k).world off seen.symm gone
    exact ⟨_, v, made, rfl⟩
  obtain ⟨k, beyond, finished⟩ := left
  exact ⟨k, by omega, finished⟩

-- One round of a loop whose queue is closed: it ends, or it takes one more message and comes back.
theorem ends_or_takes (fair : run.Fair) (still : run.Still n) (off : (run.crew n).signal.stop = false)
    (held : (run.crew n).signal.connected = true) {route : Route F} (routed : service.routes[i]? = some route)
    (closed : ((run.crew n).world.broker route.subscriber).broker.closed = true)
    (known : (run.crew n).consumers[i]? = some consumer) (phase : consumer.phase = .listening) :
    ∃ m ≥ n, run.Over i m ∨ ∃ after, (run.crew m).consumers[i]? = some after ∧ after.phase = .listening ∧
      (takenOf ((run.journal n).of i)).length < (takenOf ((run.journal m).of i)).length := by
  obtain ⟨m, later, after, known₁, phase₁, seen⟩ := looks fair still off known phase
  obtain ⟨k, beyond, next, known₂⟩ := next_step fair known₁
  have far : n ≤ k := Nat.le_trans later beyond
  have quiet : (run.crew k).signal.Quiet after.seen := still k far ▸ ⟨off, seen.symm, held⟩
  have ready : (((run.crew k).world.broker after.route.subscriber).broker.receive after.stream).1 ≠
      .pending := by
    have same := routed.symm.trans ((run.orderly_at k).route_at known₂)
    cases same
    exact Broker.closed_ready ((run.orderly_at k).sound _) (closed_stays far closed).1 _
  rcases Consumer.step_reads phase₁ (run.crew k).world quiet ready with
    ⟨v, made⟩ | ⟨message, v, made, took⟩
  · exact ⟨k + 1, by omega, .inl ⟨_, (stepped known₂ next made).1, rfl⟩⟩
  · obtain ⟨known₃, journal⟩ := stepped known₂ next made
    obtain ⟨back, returned, last, known₄, phase₄⟩ := work_ends fair _ known₃ rfl
    refine ⟨back, by omega, .inr ⟨last, known₄, phase₄, ?_⟩⟩
    have before : (takenOf ((run.journal n).of i)).length ≤ (takenOf ((run.journal k).of i)).length :=
      journal_grows i far
    have behind : (takenOf ((run.journal (k + 1)).of i)).length ≤
        (takenOf ((run.journal back).of i)).length := journal_grows i returned
    rw [journal, took, taken_of_append, List.length_append] at behind
    change _ + 1 ≤ _ at behind
    omega

-- Induction on the messages that remain: a closed queue gets no new ones.
theorem ends_drained (fair : run.Fair) (still : run.Still n) (off : (run.crew n).signal.stop = false)
    (held : (run.crew n).signal.connected = true) {route : Route F} (routed : service.routes[i]? = some route)
    (closed : ((run.crew n).world.broker route.subscriber).broker.closed = true)
    (known : (run.crew n).consumers[i]? = some consumer) (phase : consumer.phase = .listening) :
    ∃ m ≥ n, run.Over i m := by
  generalize remaining : (((run.crew n).world.broker route.subscriber).broker.published
    route.consumeQueue).length - (takenOf ((run.journal n).of i)).length = k
  induction k using Nat.strongRecOn generalizing n consumer with
  | ind k ih =>
      obtain ⟨m, later, finished | ⟨after, known₁, phase₁, more⟩⟩ :=
        ends_or_takes fair still off held routed closed known phase
      · exact ⟨m, later, finished⟩
      · obtain ⟨closed₁, logs⟩ := closed_stays later closed
        have bound := (crew_in_turn run.launched.built (run.orderly_at m) routed).1.length_le
        have signal := still m later
        obtain ⟨last, beyond, finished⟩ := ih _ (by rw [logs] at bound ⊢; omega) (still_later still later)
          (signal ▸ off) (signal ▸ held) closed₁ known₁ phase₁ rfl
        exact ⟨last, by omega, finished⟩

variable (run) in
-- The loops are told to stop for good, or nothing is said any more and either nobody is left to say it or all
-- queues are closed.
def Final (n : Nat) : Prop :=
  (∀ m ≥ n, (run.crew m).signal.stop = true) ∨
    run.Still n ∧ ((run.crew n).signal.connected = false ∨
      ∀ route ∈ service.routes, ((run.crew n).world.broker route.subscriber).broker.closed = true)

theorem final_later {m : Nat} (final : run.Final n) (later : n ≤ m) : run.Final m := by
  rcases final with stopped | ⟨still, gone | closed⟩
  · exact .inl fun k beyond => stopped k (Nat.le_trans later beyond)
  · exact .inr ⟨still_later still later, .inl (still m later ▸ gone)⟩
  · have shut := fun route member => (closed_stays later (closed route member)).1
    exact .inr ⟨still_later still later, .inr shut⟩

theorem listening_ends (fair : run.Fair) (final : run.Final n)
    (known : (run.crew n).consumers[i]? = some consumer) (phase : consumer.phase = .listening) :
    ∃ m ≥ n, run.Over i m := by
  rcases final with stopped | ⟨still, reason⟩
  · exact ends_stopped fair stopped known phase
  · cases off : (run.crew n).signal.stop with
    | true => exact ends_stopped fair (fun m later => still m later ▸ off) known phase
    | false =>
        cases held : (run.crew n).signal.connected with
        | false => exact ends_orphaned fair still off held known phase
        | true =>
            rcases reason with gone | closed
            · rw [held] at gone
              cases gone
            · have routed := (run.orderly_at n).route_at known
              have shut := closed _ (List.mem_of_getElem? routed)
              exact ends_drained fair still off held routed shut known phase

theorem loop_ends (fair : run.Fair) (final : run.Final n)
    (known : (run.crew n).consumers[i]? = some consumer) : ∃ m ≥ n, run.Over i m := by
  obtain ⟨m, later, after, known₁, resting⟩ := comes_to_rest fair known
  have final₁ := final_later final later
  cases phase : after.phase with
  | starting =>
      have ready : ∀ k ≥ m, ∃ next v,
          after.step (run.crew k).signal (run.crew k).world = some (next, v) ∧ next.phase = .listening :=
        fun k _ => ⟨_, _, by simp only [Consumer.step, phase]; rfl, rfl⟩
      obtain ⟨k, beyond, next, known₂, listening⟩ := makes_step fair known₁ ready
      obtain ⟨last, behind, finished⟩ := listening_ends fair (final_later final₁ beyond) known₂ listening
      exact ⟨last, by omega, finished⟩
  | listening =>
      obtain ⟨last, behind, finished⟩ := listening_ends fair final₁ known₁ phase
      exact ⟨last, by omega, finished⟩
  | ended => exact ⟨m, later, after, known₁, phase⟩
  | _ => rw [phase] at resting; cases resting

-- Induction on the number of loops: those that ended stay where they are.
theorem loops_end (fair : run.Fair) (final : run.Final n) :
    ∃ m ≥ n, ∀ k ≥ m, ∀ consumer ∈ (run.crew k).consumers, consumer.phase = .ended := by
  have front : ∀ k ≤ service.routes.length, ∃ m ≥ n, ∀ i < k, run.Over i m := by
    intro k
    induction k with
    | zero => exact fun _ => ⟨n, Nat.le_refl n, fun i small => absurd small (Nat.not_lt_zero i)⟩
    | succ k ih =>
        intro small
        obtain ⟨m, later, finished⟩ := ih (by omega)
        have inside : k < (run.crew m).consumers.length := by rwa [(run.orderly_at m).size]
        have found := List.getElem?_eq_getElem inside
        obtain ⟨last, beyond, ended⟩ := loop_ends fair (final_later final later) found
        refine ⟨last, by omega, fun i within => ?_⟩
        rcases Nat.lt_succ_iff_lt_or_eq.mp within with earlier | rfl
        · exact over_stays beyond (finished i earlier)
        · exact ended
  obtain ⟨m, later, finished⟩ := front service.routes.length (Nat.le_refl _)
  refine ⟨m, later, fun k beyond consumer member => ?_⟩
  obtain ⟨i, small, rfl⟩ := List.getElem_of_mem member
  have routed : i < service.routes.length := by rwa [← (run.orderly_at k).size]
  obtain ⟨other, known, ended⟩ := over_stays beyond (finished i routed)
  rw [List.getElem?_eq_getElem small] at known
  cases known
  exact ended

theorem returns (fair : run.Fair) (final : run.Final n) (transport : Transport) (outlet : BrokerId) :
    ∃ m, ((Scene.of run.start transport outlet).perform (run.before m)).2.lifetime = .finished (.ok ()) := by
  obtain ⟨m, -, ended⟩ := loops_end fair final
  obtain ⟨k, beyond, next⟩ := fair.concludes m
  refine ⟨k + 1, ?_⟩
  rw [before_succ, Scene.perform_append, next]
  have course := Scene.perform_course run.launched.built run.launched.orderly run.launched.returning
    transport outlet (run.before k)
  generalize (Scene.of run.start transport outlet).perform (run.before k) = reached at course
  generalize same : run.before k = acts at course
  cases course with
  | returned before after reached all finished called shut => exact (Scene.finished_stays finished _).2.1
  | running =>
      have concluded := Scene.conclude_over (ended k beyond) transport outlet
      rw [← same]
      change ((Scene.of (run.crew k) transport outlet).conclude).2.lifetime = _
      rw [concluded]

end Ending

end Run

end EventPipeline

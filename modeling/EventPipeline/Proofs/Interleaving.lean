import EventPipeline.Proofs.Settlement
import EventPipeline.Proofs.WorldBrokers
import EventPipeline.Service.Lifetime

/-!
Loops side by side. The consumers of a service step in any order, while messages come from outside, time
passes and the signal changes. The journal of such a run tells which consumer did what; each consumer
takes the log of its topic from the front and handles one delivery after another.
-/

set_option autoImplicit false

namespace EventPipeline

open Program Transcript

variable {F : EventFamily}

inductive Happening (F : EventFamily) where
  | took (message : Message)
  | began (effect : Effect F)
  | answered (exchange : Exchange F)

structure Entry (F : EventFamily) where
  consumer : Nat
  happening : Happening F

abbrev Journal (F : EventFamily) := List (Entry F)

-- What the next step of a consumer is, if it is one that others can notice.
def Consumer.happening (signal : Signal) (consumer : Consumer F) (w : World F) :
    Option (Happening F) :=
  match consumer.phase with
  | .listening =>
      if signal.stop || signal.version != consumer.seen || !signal.connected then none
      else (w.receive consumer.route.subscriber consumer.stream).1.message?.map .took
  | .working (.perform effect _) => some (.began effect)
  | .waiting effect pending _ =>
      if pending.wake ≤ w.clock then some (.answered ⟨effect, (pending.resume w).1⟩) else none
  | _ => none

structure Crew (F : EventFamily) where
  signal : Signal
  consumers : List (Consumer F)
  world : World F

inductive Choice where
  | step (consumer : Nat)
  | publish (broker : BrokerId) (topic : String) (message : Message)
  | wait (millis : Nat)
  | send (stop : Bool)
  | dropSender
deriving DecidableEq

-- The calls of the brokers that a choice makes from outside.
def Choice.calls : Choice → BrokerId → List BrokerCall
  | .publish broker topic message => World.only broker (.publish topic message)
  | _ => World.nothing

namespace Crew

-- A consumer that cannot step stays as it is.
def choose (crew : Crew F) : Choice → Journal F × Crew F
  | .step i =>
      match crew.consumers[i]? with
      | none => ([], crew)
      | some consumer =>
          match consumer.step crew.signal crew.world with
          | none => ([], crew)
          | some (after, world) =>
              (((consumer.happening crew.signal crew.world).map (Entry.mk i)).toList,
                { crew with consumers := crew.consumers.set i after, world })
  | .publish broker topic message =>
      ([], { crew with world := (crew.world.publishInside broker topic message).2 })
  | .wait millis => ([], { crew with world := { crew.world with clock := crew.world.clock + millis } })
  | .send stop => ([], { crew with signal := crew.signal.send stop })
  | .dropSender => ([], { crew with signal := crew.signal.drop })

def follow (crew : Crew F) : List Choice → Journal F × Crew F
  | [] => ([], crew)
  | choice :: choices =>
      let next := crew.choose choice
      let rest := next.2.follow choices
      (next.1 ++ rest.1, rest.2)

end Crew

-- The scheduler of a scene makes one of these steps.
theorem step_consumers_chosen {signal : Signal} {consumers after : List (Consumer F)} {w v : World F}
    (stepped : stepConsumers signal consumers w = some (after, v)) :
    ∃ i, (Crew.choose ⟨signal, consumers, w⟩ (.step i)).2 = ⟨signal, after, v⟩ := by
  induction consumers generalizing after with
  | nil => cases stepped
  | cons consumer consumers ih =>
      rw [stepConsumers] at stepped
      cases first : consumer.step signal w with
      | some result =>
          rw [first] at stepped
          cases stepped
          exact ⟨0, by simp [Crew.choose, first]⟩
      | none =>
          rw [first] at stepped
          obtain ⟨⟨others, world⟩, later, same⟩ := Option.map_eq_some_iff.mp stepped
          cases same
          obtain ⟨i, chosen⟩ := ih later
          refine ⟨i + 1, ?_⟩
          simp only [Crew.choose, List.getElem?_cons_succ] at chosen ⊢
          cases known : consumers[i]? with
          | none =>
              rw [known] at chosen
              cases chosen
              rfl
          | some other =>
              rw [known] at chosen
              cases made : other.step signal w with
              | none =>
                  simp only [made] at chosen ⊢
                  cases chosen
                  rfl
              | some result =>
                  simp only [made] at chosen ⊢
                  cases chosen
                  rfl

-- The signal is off, and whoever saw this version of it has nothing to notice.
structure Signal.Quiet (signal : Signal) (seen : Nat) : Prop where
  off : signal.stop = false
  known : signal.version = seen
  held : signal.connected = true

-- What a step leaves alone that has nothing to ask of the world.
structure World.Kept (w v : World F) : Prop where
  clock : v.clock = w.clock
  stores : v.stores = w.stores
  measurements : v.measurements = w.measurements

theorem kept_set_broker (w : World F) (id : BrokerId) (b : FaultyBroker) : w.Kept (w.setBroker id b) := by
  obtain ⟨stores, -, clock⟩ := World.set_broker_rest w id b
  refine ⟨clock, stores, ?_⟩
  unfold World.setBroker
  split <;> rfl

theorem kept_changed (w : World F) (id : BrokerId) (change : Broker → Broker) :
    w.Kept (w.changeBroker id change) := kept_set_broker w id _

theorem kept_publish (w : World F) (id : BrokerId) (topic : String) (message : Message) :
    w.Kept (w.publish id topic message).2 := by
  have kept := kept_set_broker w id ((w.broker id).publish topic message).2
  unfold World.publish
  dsimp only
  split
  · exact ⟨kept.clock, kept.stores, kept.measurements⟩
  · exact kept

theorem kept_publish_inside (w : World F) (id : BrokerId) (topic : String) (message : Message) :
    w.Kept (w.publishInside id topic message).2 := by
  unfold World.publishInside
  split
  · next b published =>
      have kept := kept_set_broker w id b
      exact ⟨kept.clock, kept.stores, kept.measurements⟩
  · exact ⟨rfl, rfl, rfl⟩

namespace Consumer

-- Why a loop is left.
inductive Leaves (signal : Signal) (consumer : Consumer F) (w : World F) : Prop where
  | stopped (on : signal.stop = true)
  | orphaned (known : signal.version = consumer.seen) (gone : signal.connected = false)
  | over (quiet : signal.Quiet consumer.seen)
      (dry : ((w.broker consumer.route.subscriber).broker.receive consumer.stream).1 = .ended)

-- All that a consumer can do, with the condition for it.
inductive Moves (signal : Signal) (consumer : Consumer F) (w : World F) :
    Option (Happening F) → Consumer F → World F → Prop where
  | started (phase : consumer.phase = .starting) {v : World F} (same : w.Called World.nothing v)
      (kept : w.Kept v) : Moves signal consumer w none { consumer with phase := .listening } v
  | noticed (phase : consumer.phase = .listening) (off : signal.stop = false)
      (news : signal.version ≠ consumer.seen) :
      Moves signal consumer w none { consumer with seen := signal.version } w
  | took (phase : consumer.phase = .listening) {message : Message}
      (got : ((w.broker consumer.route.subscriber).broker.receive consumer.stream).1 = .message message)
      (quiet : signal.Quiet consumer.seen) :
      Moves signal consumer w (some (.took message))
        { consumer with phase := .working (consumer.route.process consumer.handler message) }
        (w.receive consumer.route.subscriber consumer.stream).2
  | left (phase : consumer.phase = .listening) {v : World F} (same : w.Called World.nothing v)
      (kept : w.Kept v) (reason : Leaves signal consumer w) :
      Moves signal consumer w none (consumer.leave .ended v).1 (consumer.leave .ended v).2
  | finished (phase : consumer.phase = .working (.done ())) :
      Moves signal consumer w none { consumer with phase := .listening } w
  | failed {p : Panic} (phase : consumer.phase = .working (.panic p)) :
      Moves signal consumer w none (consumer.leave (.failed p) w).1 (consumer.leave (.failed p) w).2
  | began {effect : Effect F} {next : effect.Answer → Program F Unit}
      (phase : consumer.phase = .working (.perform effect next)) :
      Moves signal consumer w (some (.began effect))
        { consumer with phase := .waiting effect (w.start effect).1 next } (w.start effect).2
  | answered {effect : Effect F} {pending : Pending F effect.Answer}
      {next : effect.Answer → Program F Unit} (phase : consumer.phase = .waiting effect pending next) :
      Moves signal consumer w (some (.answered ⟨effect, (pending.resume w).1⟩))
        { consumer with phase := .working (next (pending.resume w).1) } (pending.resume w).2

theorem ended_receive {broker : Broker} {id : StreamId} (dry : (broker.receive id).1 = .ended) :
    (broker.receive id).2 = broker := by
  have does := Broker.receive_does broker id
  rw [dry] at does
  generalize (broker.receive id).2 = after at does
  generalize same : BrokerAnswer.received .ended = other at does
  cases does with
  | gave found waiting => cases same
  | dry found empty => rfl
  | unknown missing => rfl

theorem called_record (w : World F) (records : List TraceRecord) :
    w.Called World.nothing (w.record records) := World.called_of_brokers rfl rfl rfl

theorem step_moves {signal : Signal} {consumer after : Consumer F} {w v : World F}
    (stepped : consumer.step signal w = some (after, v)) :
    Moves signal consumer w (consumer.happening signal w) after v := by
  unfold step at stepped
  unfold happening
  split at stepped
  · next phase =>
      cases stepped
      rw [phase]
      exact .started phase (called_record w _) ⟨rfl, rfl, rfl⟩
  · next phase =>
      rw [phase]
      unfold listen at stepped
      dsimp only
      by_cases stop : signal.stop = true
      · rw [if_pos stop] at stepped
        cases stepped
        rw [if_pos (by simp [stop])]
        exact .left phase (called_record w _) ⟨rfl, rfl, rfl⟩ (.stopped stop)
      · rw [if_neg stop] at stepped
        have off : signal.stop = false := by simpa using stop
        by_cases news : signal.version ≠ consumer.seen
        · rw [if_pos news] at stepped
          cases stepped
          rw [if_pos (by simp [news])]
          exact .noticed phase off news
        · rw [if_neg news] at stepped
          have known : signal.version = consumer.seen := by simpa using news
          by_cases alone : (!signal.connected) = true
          · rw [if_pos alone] at stepped
            cases stepped
            rw [if_pos (by simp [alone])]
            exact .left phase (called_record w _) ⟨rfl, rfl, rfl⟩ (.orphaned known (by simpa using alone))
          · rw [if_neg alone] at stepped
            rw [if_neg (by simp_all)]
            have quiet : signal.Quiet consumer.seen := ⟨off, known, by simpa using alone⟩
            cases got : ((w.broker consumer.route.subscriber).broker.receive consumer.stream).1 with
            | message message =>
                simp only [World.receive, got] at stepped ⊢
                cases stepped
                exact .took phase got quiet
            | pending =>
                simp only [World.receive, got] at stepped
                cases stepped
            | ended =>
                simp only [World.receive, got] at stepped ⊢
                cases stepped
                have same := World.called_same_broker w consumer.route.subscriber
                  (b := { w.broker consumer.route.subscriber with
                    broker := ((w.broker consumer.route.subscriber).broker.receive consumer.stream).2 })
                  (ended_receive got) rfl
                have kept := kept_set_broker w consumer.route.subscriber
                  { w.broker consumer.route.subscriber with
                    broker := ((w.broker consumer.route.subscriber).broker.receive consumer.stream).2 }
                exact .left phase (World.called_trans same (called_record _ _))
                  ⟨kept.clock, kept.stores, kept.measurements⟩ (.over quiet got)
  · next phase =>
      cases stepped
      rw [phase]
      exact .finished phase
  · next p phase =>
      cases stepped
      rw [phase]
      exact .failed phase
  · next effect next phase =>
      cases stepped
      rw [phase]
      exact .began phase
  · next effect pending next phase =>
      rw [phase]
      by_cases due : pending.wake ≤ w.clock
      · rw [if_pos due] at stepped
        cases stepped
        simp only [if_pos due]
        exact .answered phase
      · rw [if_neg due] at stepped
        cases stepped
  · cases stepped
  · cases stepped

end Consumer

namespace Crew

-- All that can become of a choice. A blocked consumer stays as it is; what is chosen outside leaves the
-- consumers alone and comes to the brokers as calls.
inductive Chosen (crew : Crew F) : Choice → Journal F → Crew F → Prop where
  | stuck (i : Nat) : Chosen crew (.step i) [] crew
  | moved {i : Nat} {consumer after : Consumer F} {v : World F} {happening : Option (Happening F)}
      (known : crew.consumers[i]? = some consumer)
      (moves : consumer.Moves crew.signal crew.world happening after v) :
      Chosen crew (.step i) (happening.map (Entry.mk i)).toList
        { crew with consumers := crew.consumers.set i after, world := v }
  | outside {choice : Choice} {v : World F} (called : crew.world.Called choice.calls v)
      (signal : Signal) (stores : v.stores = crew.world.stores) (later : crew.world.clock ≤ v.clock)
      (uncounted : v.measurements = crew.world.measurements) :
      Chosen crew choice [] { crew with signal, world := v }

theorem choose_chosen (crew : Crew F) (choice : Choice) :
    crew.Chosen choice (crew.choose choice).1 (crew.choose choice).2 := by
  cases choice with
  | step i =>
      cases known : crew.consumers[i]? with
      | none => simpa [choose, known] using Chosen.stuck i
      | some consumer =>
          cases stepped : consumer.step crew.signal crew.world with
          | none => simpa [choose, known, stepped] using Chosen.stuck i
          | some result =>
              have moves := Consumer.step_moves stepped
              simpa [choose, known, stepped] using Chosen.moved known moves
  | publish broker topic message =>
      have kept := kept_publish_inside crew.world broker topic message
      exact .outside (World.called_publish_inside crew.world broker topic message) crew.signal kept.stores
        (Nat.le_of_eq kept.clock.symm) kept.measurements
  | wait millis =>
      have called : crew.world.Called World.nothing
          { crew.world with clock := crew.world.clock + millis } := World.called_of_brokers rfl rfl rfl
      exact .outside called crew.signal rfl (Nat.le_add_right _ _) rfl
  | send stop =>
      exact .outside (World.called_of_brokers rfl rfl rfl) (crew.signal.send stop) rfl (Nat.le_refl _)
        rfl
  | dropSender =>
      exact .outside (World.called_of_brokers rfl rfl rfl) crew.signal.drop rfl (Nat.le_refl _) rfl

theorem called_outside {choice : Choice} {id : BrokerId} {c : BrokerCall} (member : c ∈ choice.calls id) :
    ∃ topic message, choice = .publish id topic message ∧ c = .publish topic message := by
  cases choice with
  | publish broker topic message =>
      obtain ⟨rfl, rfl⟩ := World.mem_only.mp member
      exact ⟨topic, message, rfl, rfl⟩
  | _ => cases member

end Crew

end EventPipeline

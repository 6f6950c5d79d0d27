import EventPipeline.Proofs.Returning
import EventPipeline.Proofs.Watching
import EventPipeline.Service.Scene

/-!
The run of a service to its end: the crew is at work until its last loop has ended, and then the publisher
is closed. Whatever the order, a run is one session of its crew with nothing but that closing after it.
-/

set_option autoImplicit false

namespace EventPipeline

variable {F : EventFamily}

-- What comes next in a run: a turn of the crew or of the world outside, or the run looks after its loops.
inductive Act where
  | turn (turn : Turn)
  | conclude
deriving DecidableEq

def Act.turn? : Act → Option Turn
  | .turn next => some next
  | .conclude => none

def turnsOf (acts : List Act) : List Turn := acts.filterMap Act.turn?

@[simp] theorem turns_of_append (first second : List Act) :
    turnsOf (first ++ second) = turnsOf first ++ turnsOf second := List.filterMap_append

inductive Deed (F : EventFamily) where
  | noted (entry : Entry F)
  | closed (broker : BrokerId) (result : Except EventError Unit)

def Deed.entry? : Deed F → Option (Entry F)
  | .noted entry => some entry
  | .closed .. => none

def journalOf (deeds : List (Deed F)) : Journal F := deeds.filterMap Deed.entry?

@[simp] theorem journal_of_append (first second : List (Deed F)) :
    journalOf (first ++ second) = journalOf first ++ journalOf second := List.filterMap_append

@[simp] theorem journal_of_noted (journal : Journal F) : journalOf (journal.map .noted) = journal := by
  rw [journalOf, List.filterMap_map]
  exact List.filterMap_some

@[simp] theorem journal_of_closed (journal : Journal F) (broker : BrokerId)
    (result : Except EventError Unit) : journalOf (journal.map .noted ++ [.closed broker result]) = journal := by
  rw [journal_of_append, journal_of_noted]
  exact List.append_nil journal

namespace Lifetime

def consumers : Lifetime F → List (Consumer F)
  | .running _ consumers => consumers
  | _ => []

def withConsumers (consumers : List (Consumer F)) : Lifetime F → Lifetime F
  | .running transport _ => .running transport consumers
  | lifetime => lifetime

end Lifetime

namespace Scene

def crew (scene : Scene F) : Crew F := ⟨scene.signal, scene.lifetime.consumers, scene.world⟩

def withCrew (scene : Scene F) (crew : Crew F) : Scene F :=
  { scene with
    world := crew.world
    lifetime := scene.lifetime.withConsumers crew.consumers
    signal := crew.signal }

-- A loop that broke down is reported; when all have ended the publisher is closed.
def conclude (scene : Scene F) : List (Deed F) × Scene F :=
  match scene.lifetime with
  | .running transport consumers =>
      match buryConsumer consumers scene.world with
      | some (consumers, world) => ([], { scene with lifetime := .running transport consumers, world })
      | none =>
          if consumers.all Consumer.hasEnded then
            let (lifetime, world) := finishService transport scene.world
            ([.closed transport.publisher (scene.world.close transport.publisher).1],
              { scene with lifetime, world })
          else ([], scene)
  | _ => ([], scene)

def act (scene : Scene F) : Act → List (Deed F) × Scene F
  | .turn turn =>
      let next := scene.crew.turn turn
      (next.1.map .noted, scene.withCrew next.2)
  | .conclude => scene.conclude

def perform (scene : Scene F) : List Act → List (Deed F) × Scene F
  | [] => ([], scene)
  | act :: acts =>
      let next := scene.act act
      let rest := next.2.perform acts
      (next.1 ++ rest.1, rest.2)

theorem perform_append (scene : Scene F) (first second : List Act) :
    scene.perform (first ++ second) =
      ((scene.perform first).1 ++ ((scene.perform first).2.perform second).1,
        ((scene.perform first).2.perform second).2) := by
  induction first generalizing scene with
  | nil => rfl
  | cons act acts ih =>
      rw [List.cons_append, perform, perform, ih]
      simp

-- The scheduler of a scene makes one of these steps.
theorem step_acts {scene next : Scene F} {transport : Transport} {consumers : List (Consumer F)}
    (running : scene.lifetime = .running transport consumers) (stepped : scene.step = some next) :
    ∃ act, (scene.act act).2 = next := by
  unfold step at stepped
  rw [running] at stepped
  dsimp only at stepped
  cases made : stepConsumers scene.signal consumers scene.world with
  | some result =>
      obtain ⟨after, world⟩ := result
      obtain ⟨i, chosen⟩ := step_consumers_chosen made
      rw [made] at stepped
      cases stepped
      refine ⟨.turn (.choose (.step i)), ?_⟩
      simp only [act, crew, running, Lifetime.consumers, Crew.turn, chosen, withCrew, Lifetime.withConsumers]
  | none =>
      rw [made] at stepped
      refine ⟨.conclude, ?_⟩
      simp only [act, conclude, running]
      cases buried : buryConsumer consumers scene.world with
      | some result =>
          rw [buried] at stepped
          cases stepped
          rfl
      | none =>
          rw [buried] at stepped
          dsimp only at stepped ⊢
          split at stepped
          · next idle =>
              cases stepped
              rw [if_pos idle]
          · cases stepped

end Scene

theorem bury_nobody {consumers : List (Consumer F)}
    (standing : ∀ consumer ∈ consumers, ∀ p, consumer.phase ≠ .failed p) (w : World F) :
    buryConsumer consumers w = none := by
  induction consumers with
  | nil => rfl
  | cons consumer consumers ih =>
      have rest := ih fun other member => standing other (List.mem_cons_of_mem _ member)
      rw [buryConsumer, rest]
      split
      · next p phase => exact absurd phase (standing consumer List.mem_cons_self p)
      · rfl

-- The closing succeeds or is refused, and then only a warning is left of it.
theorem called_finish (transport : Transport) (w : World F) :
    ∃ calls, w.Called calls (finishService transport w).2 ∧ (∀ id c, c ∈ calls id → c = .close) ∧
      ((w.close transport.publisher).1 = .ok () →
        ((finishService transport w).2.broker transport.publisher).broker.closed = true) := by
  have closing : ∃ calls, w.Called calls (w.close transport.publisher).2 ∧
      (∀ id c, c ∈ calls id → c = .close) ∧
      ((w.close transport.publisher).1 = .ok () → .close ∈ calls transport.publisher) := by
    by_cases refuses : (w.broker transport.publisher).faults.refusesClose = true
    · simp only [World.close, FaultyBroker.close, if_pos refuses]
      exact ⟨_, World.called_same_broker w _ (b := w.broker transport.publisher) rfl rfl,
        fun _ _ member => (nomatch member), nofun⟩
    · simp only [World.close, FaultyBroker.close, if_neg refuses]
      exact ⟨_, World.called_set_broker w transport.publisher (c := .close) rfl rfl,
        fun _ _ member => (World.mem_only.mp member).2, fun _ => by simp⟩
  obtain ⟨calls, closed, only, asked⟩ := closing
  have called : w.Called calls (finishService transport w).2 := by
    unfold finishService
    dsimp only
    split <;> exact ⟨closed.inside, closed.faults, closed.stores, closed.collaborators⟩
  refine ⟨calls, called, only, fun accepted => ?_⟩
  rw [called.inside, Broker.run_closed, List.contains_iff_mem.mpr (asked accepted), Bool.or_true]

namespace Scene

def of (crew : Crew F) (transport : Transport) (outlet : BrokerId) : Scene F :=
  ⟨crew.world, .running transport crew.consumers, crew.signal, outlet⟩

-- What a run has done, and how it stands, while the loops of its crew are at work.
def atWork (start : Crew F) (transport : Transport) (outlet : BrokerId) (acts : List Act) :
    List (Deed F) × Scene F :=
  ((start.pursue (turnsOf acts)).1.map .noted, .of (start.pursue (turnsOf acts)).2 transport outlet)

@[simp] theorem journal_at_work (start : Crew F) (transport : Transport) (outlet : BrokerId)
    (acts : List Act) :
    journalOf (atWork start transport outlet acts).1 = (start.pursue (turnsOf acts)).1 :=
  journal_of_noted _

theorem at_work_turn (start : Crew F) (transport : Transport) (outlet : BrokerId) (turn : Turn)
    (acts : List Act) :
    atWork start transport outlet (.turn turn :: acts) =
      ((start.turn turn).1.map .noted ++ (atWork (start.turn turn).2 transport outlet acts).1,
        (atWork (start.turn turn).2 transport outlet acts).2) := by
  have pursued : start.pursue (turnsOf (.turn turn :: acts)) =
      ((start.turn turn).1 ++ ((start.turn turn).2.pursue (turnsOf acts)).1,
        ((start.turn turn).2.pursue (turnsOf acts)).2) := rfl
  rw [atWork, pursued, List.map_append]
  rfl

-- How a run may stand that began with a crew: the loops are at work, or all of them have ended, the
-- publisher was closed, and nothing was done since.
inductive Course (start : Crew F) (transport : Transport) (outlet : BrokerId) :
    List Act → List (Deed F) × Scene F → Prop where
  | running (acts : List Act) : Course start transport outlet acts (atWork start transport outlet acts)
  | returned (before after : List Act) {scene : Scene F} {calls : BrokerId → List BrokerCall}
      (reached : ∀ front, front <+: before →
        (Scene.of start transport outlet).perform front = atWork start transport outlet front)
      (ended : ∀ consumer ∈ (start.pursue (turnsOf before)).2.consumers, consumer.phase = .ended)
      (finished : scene.lifetime = .finished (.ok ()))
      (called : (start.pursue (turnsOf before)).2.world.Called calls scene.world)
      {result : Except EventError Unit}
      (shut : result = .ok () → (scene.world.broker transport.publisher).broker.closed = true) :
      Course start transport outlet (before ++ .conclude :: after)
        ((atWork start transport outlet before).1 ++ [.closed transport.publisher result], scene)

section Course

variable {start : Crew F} {transport : Transport} {outlet : BrokerId} {acts : List Act}
  {run : List (Deed F) × Scene F}

theorem course_turn {turn : Turn} (course : Course (start.turn turn).2 transport outlet acts run) :
    Course start transport outlet (.turn turn :: acts) ((start.turn turn).1.map .noted ++ run.1, run.2) := by
  cases course with
  | running acts =>
      rw [← at_work_turn]
      exact .running (.turn turn :: acts)
  | returned before after reached ended finished called shut =>
      have reached₁ : ∀ front, front <+: .turn turn :: before →
          (Scene.of start transport outlet).perform front = atWork start transport outlet front := by
        intro front begins
        rcases List.prefix_cons_iff.mp begins with rfl | ⟨front, rfl, within⟩
        · rfl
        · rw [at_work_turn, ← reached front within]
          rfl
      have whole := Course.returned (.turn turn :: before) after reached₁ ended finished called shut
      rwa [at_work_turn, List.append_assoc] at whole

theorem course_conclude
    (early : (Scene.of start transport outlet).conclude = ([], Scene.of start transport outlet))
    (course : Course start transport outlet acts run) :
    Course start transport outlet (.conclude :: acts) run := by
  cases course with
  | running acts => exact Course.running (.conclude :: acts)
  | returned before after reached ended finished called shut =>
      have reached₁ : ∀ front, front <+: .conclude :: before →
          (Scene.of start transport outlet).perform front = atWork start transport outlet front := by
        intro front begins
        rcases List.prefix_cons_iff.mp begins with rfl | ⟨front, rfl, within⟩
        · rfl
        · rw [perform, Scene.act, early]
          exact reached front within
      exact Course.returned (.conclude :: before) after reached₁ ended finished called shut

end Course

-- After the end nobody is left to do anything.
theorem finished_stays {scene : Scene F} {result : Except EventError Unit}
    (finished : scene.lifetime = .finished result) (acts : List Act) :
    (scene.perform acts).1 = [] ∧ (scene.perform acts).2.lifetime = .finished result ∧
      ∃ calls, scene.world.Called calls (scene.perform acts).2.world := by
  induction acts generalizing scene with
  | nil => exact ⟨rfl, finished, _, World.called_of_brokers rfl rfl rfl⟩
  | cons act acts ih =>
      have first : (scene.act act).1 = [] ∧ (scene.act act).2.lifetime = .finished result ∧
          ∃ calls, scene.world.Called calls (scene.act act).2.world := by
        cases act with
        | conclude =>
            rw [Scene.act, conclude, finished]
            exact ⟨rfl, finished, _, World.called_of_brokers rfl rfl rfl⟩
        | turn turn =>
            have kept : (scene.lifetime.withConsumers (scene.crew.turn turn).2.consumers) =
                .finished result := by rw [finished]; rfl
            have nobody : scene.crew.consumers = [] := by rw [crew, finished]; rfl
            cases turn with
            | close broker => exact ⟨rfl, kept, _, Crew.called_close scene.world broker⟩
            | choose choice =>
                have chosen := Crew.choose_chosen scene.crew choice
                change ((scene.crew.choose choice).1.map Deed.noted) = [] ∧
                  scene.lifetime.withConsumers (scene.crew.choose choice).2.consumers = .finished result ∧
                  ∃ calls, scene.world.Called calls (scene.crew.choose choice).2.world
                change scene.lifetime.withConsumers (scene.crew.choose choice).2.consumers =
                  .finished result at kept
                generalize (scene.crew.choose choice).1 = journal,
                  (scene.crew.choose choice).2 = next at chosen kept
                cases chosen with
                | stuck i => exact ⟨rfl, kept, _, World.called_of_brokers rfl rfl rfl⟩
                | moved known moves => rw [nobody] at known; cases known
                | outside called signal stores later => exact ⟨rfl, kept, _, called⟩
      obtain ⟨silent, still, calls, called⟩ := first
      obtain ⟨silent₁, still₁, calls₁, called₁⟩ := ih still
      rw [perform, silent, silent₁]
      exact ⟨rfl, still₁, _, World.called_trans called called₁⟩

theorem conclude_over {crew : Crew F} (ended : ∀ consumer ∈ crew.consumers, consumer.phase = .ended)
    (transport : Transport) (outlet : BrokerId) :
    (Scene.of crew transport outlet).conclude =
      ([.closed transport.publisher (crew.world.close transport.publisher).1],
        { Scene.of crew transport outlet with
          lifetime := .finished (.ok ()), world := (finishService transport crew.world).2 }) := by
  have unburied : buryConsumer crew.consumers crew.world = none := by
    apply bury_nobody
    intro consumer member p failed
    rw [ended consumer member] at failed
    cases failed
  have idle : crew.consumers.all Consumer.hasEnded = true := by
    apply List.all_eq_true.mpr
    intro consumer member
    rw [Consumer.hasEnded, ended consumer member]
  simp only [conclude, of, unburied, if_pos idle]
  rfl

theorem conclude_early {crew : Crew F}
    (standing : ∀ consumer ∈ crew.consumers, ∀ p, consumer.phase ≠ .failed p)
    (busy : ¬ ∀ consumer ∈ crew.consumers, consumer.phase = .ended) (transport : Transport)
    (outlet : BrokerId) : (Scene.of crew transport outlet).conclude = ([], Scene.of crew transport outlet) := by
  have unburied := bury_nobody standing crew.world
  have early : ¬ crew.consumers.all Consumer.hasEnded = true := by
    intro idle
    refine busy fun consumer member => ?_
    have done := List.all_eq_true.mp idle consumer member
    unfold Consumer.hasEnded at done
    split at done
    · next phase => exact phase
    · cases done
  simp only [conclude, of, unburied, if_neg early]

-- Induction on the acts, for a crew in which no loop can break down.
theorem perform_course {service : Service F} (built : service.Built) {past : Journal F} {start : Crew F}
    (orderly : start.Orderly service past) (returning : start.Returning past) (transport : Transport)
    (outlet : BrokerId) (acts : List Act) :
    Course start transport outlet acts ((Scene.of start transport outlet).perform acts) := by
  induction acts generalizing past start with
  | nil => exact Course.running []
  | cons act acts ih =>
      cases act with
      | turn turn =>
          have returning₁ := Crew.turn_returning built orderly returning turn
          exact course_turn (ih (Crew.turn_orderly orderly turn) returning₁)
      | conclude =>
          by_cases ended : ∀ consumer ∈ start.consumers, consumer.phase = .ended
          · obtain ⟨calls, called, -, closed⟩ := called_finish transport start.world
            obtain ⟨silent, still, calls₁, called₁⟩ := @finished_stays _
              { Scene.of start transport outlet with
                lifetime := .finished (.ok ()), world := (finishService transport start.world).2 } _ rfl acts
            rw [perform, Scene.act, conclude_over ended, silent]
            refine Course.returned [] acts ?_ ended still (World.called_trans called called₁) fun accepted =>
              (World.closed_called called₁ (closed accepted)).1
            intro front empty
            rw [List.prefix_nil.mp empty]
            rfl
          · have early := conclude_early returning.standing ended transport outlet
            rw [perform, Scene.act, early]
            exact course_conclude early (ih orderly returning)

end Scene

end EventPipeline

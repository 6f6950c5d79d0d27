import EventPipeline.Events.Family
import EventPipeline.Proofs.Reliability

/-!
Two interleavings of the same loops. If handlers answer by message and attempt, and what the routes read
comes from outside, then the order of steps decides nothing: each route contributes the same outputs in
the same order, up to the identifiers that were made up on the way.
-/

set_option autoImplicit false

namespace EventPipeline

open Program Transcript

variable {F : EventFamily} {α β : Type}

-- How a handler answers its n-th call for one delivery, counted from 0.
abbrev Behaviour (F : EventFamily) := Nat → (effect : Effect F) → effect.Answer

def attemptsFrom : Nat → List (Happening F) → List (Nat × Exchange F)
  | _, [] => []
  | _, .took _ :: rest => attemptsFrom 0 rest
  | n, .began _ :: rest => attemptsFrom n rest
  | n, .answered x :: rest =>
      if x.effect.isCall then (n, x) :: attemptsFrom (n + 1) rest else attemptsFrom n rest

namespace Behaviour

-- Generated identifiers in the message make no difference.
def Oblivious (behaviour : Behaviour F) : Prop :=
  ∀ (n : Nat) (effect other : Effect F), effect.isCall = true → effect.Alike other →
    Exchange.Alike ⟨effect, behaviour n effect⟩ ⟨other, behaviour n other⟩

-- All answers of handlers in the journal are the ones of the behaviour, up to generated identifiers.
def Shown (behaviour : Behaviour F) (journal : Journal F) : Prop :=
  ∀ (i n : Nat) (x : Exchange F), (n, x) ∈ attemptsFrom 0 (journal.of i) →
    Exchange.Alike x ⟨x.effect, behaviour n x.effect⟩

end Behaviour

theorem alike_chain {effect other : Effect F} {a b : effect.Answer} {c d : other.Answer}
    (first : Exchange.Alike ⟨effect, a⟩ ⟨effect, b⟩) (between : Exchange.Alike ⟨effect, b⟩ ⟨other, c⟩)
    (last : Exchange.Alike ⟨other, d⟩ ⟨other, c⟩) : Exchange.Alike ⟨effect, a⟩ ⟨other, d⟩ := by
  cases between with
  | callRaw handler twin replies =>
      cases first with
      | callRaw _ _ replies₁ =>
          cases last with
          | callRaw _ _ replies₂ =>
              exact .callRaw handler twin (reply_chain @alike_messages_symm
                @alike_messages_trans replies₁ replies replies₂)
  | callTyped handler input output twin replies =>
      cases first with
      | callTyped _ _ _ _ replies₁ =>
          cases last with
          | callTyped _ _ _ _ replies₂ =>
              exact .callTyped handler input output twin (reply_chain
                (@alike_outgoing_symm _) (@alike_outgoing_trans _) replies₁ replies
                replies₂)
  | freshId _ _ =>
      cases first with
      | freshId made _ =>
          cases last with
          | freshId made₂ _ => exact .freshId made made₂
  | sleep duration => exact .sleep duration
  | note record other => exact .note record other
  | count measurement => exact .count measurement
  | publish broker queue alike reply =>
      cases first
      cases last
      exact .publish broker queue alike _
  | settle broker settlement reply =>
      cases first
      cases last
      exact .settle broker settlement _
  | store id payload types ids reply =>
      cases first
      cases last
      exact .store id payload types ids _
  | validate validator event reply =>
      cases first
      cases last
      exact .validate validator event _
  | classify classifier e verdict =>
      cases first
      cases last
      exact .classify classifier e _

theorem alike_honest {collaborators : Collaborators F} {x y : Exchange F}
    (asked : x.effect.Alike y.effect) (uncalled : x.effect.isCall = false)
    (honest : x.Honest collaborators) (honest₂ : y.Honest collaborators) : x.Alike y := by
  obtain ⟨effect, answer⟩ := x
  obtain ⟨other, answer₂⟩ := y
  obtain ⟨a, b, same⟩ := asked
  cases same with
  | freshId _ _ => exact .freshId honest honest₂
  | sleep duration => exact .sleep duration
  | note record other => exact .note record other
  | count measurement => exact .count measurement
  | publish broker queue alike =>
      cases honest
      cases honest₂
      exact .publish broker queue alike _
  | settle broker settlement =>
      cases honest
      cases honest₂
      exact .settle broker settlement _
  | store id payload types ids =>
      cases honest
      cases honest₂
      exact .store id payload types ids _
  | validate validator event =>
      cases honest
      cases honest₂
      exact .validate validator event _
  | classify classifier e =>
      cases honest
      cases honest₂
      exact .classify classifier e _
  | callRaw _ _ _ => cases uncalled
  | callTyped _ _ _ _ _ => cases uncalled

theorem alike_is_call {x y : Exchange F} (alike : x.Alike y) : x.effect.isCall = y.effect.isCall := by
  cases alike <;> rfl

-- Alike questions after alike beginnings got alike answers.
def Agree (t u : Transcript F) : Prop :=
  ∀ before x rest before₂ y rest₂, t = before ++ x :: rest → u = before₂ ++ y :: rest₂ →
    List.Forall₂ Exchange.Alike before before₂ → x.effect.Alike y.effect → x.Alike y

theorem agree_tail {x y : Exchange F} {t u : Transcript F} (agree : Agree (x :: t) (y :: u))
    (alike : x.Alike y) : Agree t u := by
  rintro before z rest before₂ z₂ rest₂ rfl rfl same asked
  exact agree (x :: before) z rest (y :: before₂) z₂ rest₂ rfl rfl (.cons alike same) asked

inductive Program.EndAlike (R : α → β → Prop) : Except Panic α → Except Panic β → Prop where
  | ok {a : α} {b : β} (related : R a b) : EndAlike R (.ok a) (.ok b)
  | panic (p : Panic) : EndAlike R (.error p) (.error p)

-- Induction on the two programs: alike questions, after alike beginnings, get alike answers, and so the
-- programs stay alike.
theorem alike_runs {R : α → β → Prop} {p : Program F α} {q : Program F β} (alike : Alike R p q)
    {t u : Transcript F} {outcome : Except Panic α} {outcome₂ : Except Panic β} (ends : Ends p t outcome)
    (ends₂ : Ends q u outcome₂) (agree : Agree t u) :
    List.Forall₂ Exchange.Alike t u ∧ EndAlike R outcome outcome₂ := by
  induction alike generalizing t u with
  | done related =>
      obtain ⟨rfl, rfl⟩ := ends_done.mp ends
      obtain ⟨rfl, rfl⟩ := ends_done.mp ends₂
      exact ⟨.nil, .ok related⟩
  | panic p =>
      obtain ⟨rfl, rfl⟩ := ends_panic.mp ends
      obtain ⟨rfl, rfl⟩ := ends_panic.mp ends₂
      exact ⟨.nil, .panic p⟩
  | perform asked _ ih =>
      obtain ⟨answer, t, rfl, later⟩ := ends_perform.mp ends
      obtain ⟨answer₂, u, rfl, later₂⟩ := ends_perform.mp ends₂
      have same := agree [] _ t [] _ u rfl rfl .nil asked
      obtain ⟨rest, ending⟩ := ih _ _ same later later₂ (agree_tail agree same)
      exact ⟨.cons same rest, ending⟩

-- The number of an attempt is the number of calls before it in the same delivery.
theorem attempt_mem (before : Transcript F) {x : Exchange F} (rest : Transcript F)
    (call : x.effect.isCall = true) (n : Nat) (later : List (Happening F)) :
    (n + before.countP (·.effect.isCall), x) ∈
      attemptsFrom n ((before ++ x :: rest).flatMap Exchange.happenings ++ later) := by
  induction before generalizing n with
  | nil => simp [Exchange.happenings, attemptsFrom, call]
  | cons y before ih =>
      cases here : y.effect.isCall with
      | true =>
          have found := ih (n + 1)
          rw [Nat.add_assoc, Nat.add_comm 1] at found
          have counted : (y :: before).countP (·.effect.isCall) = before.countP (·.effect.isCall) + 1 := by
            simp [here]
          rw [counted]
          simp only [List.cons_append, List.flatMap_cons, Exchange.happenings, attemptsFrom, here,
            List.nil_append, if_true]
          exact List.mem_cons_of_mem _ found
      | false => simpa [Exchange.happenings, attemptsFrom, here] using ih n

theorem attempts_took {n k : Nat} {x : Exchange F} (early : List (Happening F)) (message : Message)
    {rest : List (Happening F)} (member : (k, x) ∈ attemptsFrom 0 rest) :
    (k, x) ∈ attemptsFrom n (early ++ .took message :: rest) := by
  induction early generalizing n with
  | nil => exact member
  | cons what early ih =>
      cases what with
      | took _ => exact ih
      | began _ => exact ih
      | answered y =>
          rw [List.cons_append, attemptsFrom]
          split
          · exact List.mem_cons_of_mem _ ih
          · exact ih

theorem handling_attempt {finished : List (Handling F)} {handling : Handling F}
    (member : handling ∈ finished) {before rest : Transcript F} {x : Exchange F}
    (split : handling.transcript = before ++ x :: rest) (call : x.effect.isCall = true) :
    (before.countP (·.effect.isCall), x) ∈ attemptsFrom 0 (finished.flatMap Handling.happenings) := by
  obtain ⟨early, late, rfl⟩ := List.append_of_mem member
  have found := attempt_mem before rest call 0 (late.flatMap Handling.happenings)
  rw [← split, Nat.zero_add] at found
  rw [List.flatMap_append, List.flatMap_cons, Handling.happenings, List.cons_append]
  exact attempts_took _ handling.message found

theorem alike_calls {before before₂ : Transcript F} (same : List.Forall₂ Exchange.Alike before before₂) :
    before.countP (·.effect.isCall) = before₂.countP (·.effect.isCall) := by
  induction same with
  | nil => rfl
  | cons first later ih => rw [List.countP_cons, List.countP_cons, ih, alike_is_call first]

section TwoJournals

variable {collaborators : Collaborators F} {behaviour : Behaviour F} {first second : Journal F} {i : Nat}
  {finished finished₂ : List (Handling F)}

theorem handlings_agree (oblivious : behaviour.Oblivious)
    (split : first.of i = finished.flatMap Handling.happenings)
    (split₂ : second.of i = finished₂.flatMap Handling.happenings)
    (honest : ∀ entry ∈ first, ∀ x, entry.happening = .answered x → x.Honest collaborators)
    (honest₂ : ∀ entry ∈ second, ∀ x, entry.happening = .answered x → x.Honest collaborators)
    (shown : behaviour.Shown first) (shown₂ : behaviour.Shown second) {handling handling₂ : Handling F}
    (member : handling ∈ finished) (member₂ : handling₂ ∈ finished₂) :
    Agree handling.transcript handling₂.transcript := by
  intro before x rest before₂ y rest₂ here here₂ same asked
  cases call : x.effect.isCall with
  | true =>
      obtain ⟨a, b, related⟩ := asked
      have call₂ : y.effect.isCall = true := (alike_is_call related).symm.trans call
      have found := handling_attempt member here call
      have found₂ := handling_attempt member₂ here₂ call₂
      rw [← split] at found
      rw [← split₂, ← alike_calls same] at found₂
      exact alike_chain (shown i _ x found) (oblivious _ _ _ call ⟨a, b, related⟩) (shown₂ i _ y found₂)
  | false =>
      have told : x.Honest collaborators := by
        have within := handling_answered member (x := x) (by rw [here]; simp)
        rw [← split] at within
        obtain ⟨entry, known, what⟩ := journal_mem within
        exact honest entry known x what
      have told₂ : y.Honest collaborators := by
        have within := handling_answered member₂ (x := y) (by rw [here₂]; simp)
        rw [← split₂] at within
        obtain ⟨entry, known, what⟩ := journal_mem within
        exact honest₂ entry known y what
      exact alike_honest asked call told told₂

end TwoJournals

theorem related_of_same_map {R : α → α → Prop} {f : α → β} {k l : List α} (same : k.map f = l.map f)
    (related : ∀ a ∈ k, ∀ b ∈ l, f a = f b → R a b) : List.Forall₂ R k l := by
  induction k generalizing l with
  | nil => cases l with
    | nil => exact .nil
    | cons b l => cases same
  | cons a k ih =>
      cases l with
      | nil => cases same
      | cons b l =>
          obtain ⟨here, later⟩ := List.cons_eq_cons.mp same
          refine .cons (related a List.mem_cons_self b List.mem_cons_self here) (ih later ?_)
          intro c member d member₂ equal
          exact related c (List.mem_cons_of_mem _ member) d (List.mem_cons_of_mem _ member₂) equal

-- Every message was taken, and no delivery is in hand.
def Crew.Done (journal : Journal F) (crew : Crew F) : Prop :=
  ∀ (i : Nat) (consumer : Consumer F), crew.consumers[i]? = some consumer →
    consumer.phase.resting = true ∧
      takenOf (journal.of i) =
        (crew.world.broker consumer.route.subscriber).broker.published consumer.route.consumeQueue

instance (journal : Journal F) (crew : Crew F) : Decidable (crew.Done journal) :=
  decidable_of_iff
    (∀ p ∈ crew.consumers.zipIdx, p.1.phase.resting = true ∧
      takenOf (journal.of p.2) =
        (crew.world.broker p.1.route.subscriber).broker.published p.1.route.consumeQueue)
    ⟨fun all i consumer known => all (consumer, i) (List.mem_zipIdx_iff_getElem?.mpr known),
      fun done p member => done p.2 p.1 (List.mem_zipIdx_iff_getElem?.mp member)⟩

theorem done_handlings {service : Service F} {past : Journal F} {crew : Crew F}
    (orderly : crew.Orderly service past) (done : crew.Done past) {i : Nat} {route : Route F}
    (known : service.routes[i]? = some route) :
    ∃ finished : List (Handling F), past.of i = finished.flatMap Handling.happenings ∧
      (∀ handling ∈ finished, Handled (route.process (service.pipeline route)) handling) ∧
      finished.map (·.message) =
        (crew.world.broker route.subscriber).broker.published route.consumeQueue := by
  obtain ⟨consumer, found, rfl⟩ := orderly.consumer_at known
  obtain ⟨resting, taken⟩ := done i consumer found
  obtain ⟨finished, current, split, handled, underway⟩ := orderly.tracks_at found
  rw [resting_idle underway resting, List.append_nil] at split
  refine ⟨finished, split, handled, ?_⟩
  rw [← taken, split, taken_of_handlings]

-- What a route has brought to a queue, in order.
def contributed (broker : BrokerId) (queue : String) (t : Transcript F) : List Message :=
  ((accepted t).filter fun p => p.broker == broker && p.queue == queue).map (·.message)

theorem contributed_cons (broker : BrokerId) (queue : String) (x : Exchange F) (t : Transcript F) :
    contributed broker queue (x :: t) = contributed broker queue [x] ++ contributed broker queue t := by
  have apart : x :: t = [x] ++ t := rfl
  rw [apart, contributed, accepted_append, List.filter_append, List.map_append]
  rfl

theorem settlements_cons (x : Exchange F) (t : Transcript F) :
    settlements (x :: t) = settlements [x] ++ settlements t := settlements_append [x] t

theorem alike_contributed {x y : Exchange F} (alike : x.Alike y) (broker : BrokerId) (queue : String) :
    AlikeMessages (contributed broker queue [x]) (contributed broker queue [y]) := by
  cases alike with
  | publish target topic alike reply =>
      cases reply with
      | error e => exact .nil
      | panic p => exact .nil
      | ok _ =>
          by_cases here : target = broker ∧ topic = queue
          · simpa [contributed, accepted, publishes, Exchange.publish?, acceptance?, here] using alike
          · simp [contributed, accepted, publishes, Exchange.publish?, acceptance?, here]
  | _ => exact .nil

theorem alike_settlements {x y : Exchange F} (alike : x.Alike y) :
    settlements [x] = settlements [y] := by
  cases alike <;> rfl

theorem alike_transcripts_contribute {t u : Transcript F} (alike : List.Forall₂ Exchange.Alike t u) :
    settlements t = settlements u ∧
      ∀ broker queue, AlikeMessages (contributed broker queue t) (contributed broker queue u) := by
  induction alike with
  | nil => exact ⟨rfl, fun _ _ => .nil⟩
  | @cons x y t u first later ih =>
      constructor
      · rw [settlements_cons x t, settlements_cons y u, alike_settlements first, ih.1]
      · intro broker queue
        rw [contributed_cons broker queue x t, contributed_cons broker queue y u]
        exact List.rel_append (alike_contributed first broker queue) (ih.2 broker queue)

theorem finished_alike {service : Service F} {route : Route F} (standard : route.handler.Standard)
    {finished finished₂ : List (Handling F)}
    (handled : ∀ handling ∈ finished, Handled (route.process (service.pipeline route)) handling)
    (handled₂ : ∀ handling ∈ finished₂, Handled (route.process (service.pipeline route)) handling)
    (agree : ∀ handling ∈ finished, ∀ handling₂ ∈ finished₂, Agree handling.transcript handling₂.transcript)
    (messages : finished.map (·.message) = finished₂.map (·.message)) :
    List.Forall₂ Exchange.Alike (finished.flatMap (·.transcript)) (finished₂.flatMap (·.transcript)) := by
  have pairs : List.Forall₂ (fun handling handling₂ : Handling F =>
      List.Forall₂ Exchange.Alike handling.transcript handling₂.transcript) finished finished₂ := by
    apply related_of_same_map messages
    intro handling member handling₂ member₂ same
    have ends := handled handling member
    unfold Handled at ends
    rw [same] at ends
    exact (alike_runs (process_repeats service standard handling₂.message) ends
      (handled₂ handling₂ member₂) (agree handling member handling₂ member₂)).1
  exact List.rel_flatMap pairs fun _ _ alike => alike

theorem crew_handles_in_turn {service : Service F} (built : service.Built) {w : World F}
    (historic : w.Historic) {crew : Crew F}
    (opened : openRoutes service service.routes w = (.ok crew.consumers, crew.world)) :
    (∀ (choices : List Choice) (i : Nat) (route : Route F), service.routes[i]? = some route →
      let run := crew.follow choices
      takenOf (run.1.of i) <+:
          (run.2.world.broker route.subscriber).broker.published route.consumeQueue ∧
        (takenOf (run.1.of i)).length ≤ (settlements (answersOf (run.1.of i))).length + 1 ∧
        InTurn (route.process (service.pipeline route)) (run.1.of i)) ∧
    (w.Reliable → service.Separate → ∀ behaviour : Behaviour F, behaviour.Oblivious →
      ∀ first second : List Choice,
        behaviour.Shown (crew.follow first).1 → behaviour.Shown (crew.follow second).1 →
        (∀ broker topic, externals broker topic first = externals broker topic second) →
        (crew.follow first).2.Done (crew.follow first).1 →
        (crew.follow second).2.Done (crew.follow second).1 →
        ∀ (i : Nat) (route : Route F), service.routes[i]? = some route →
          let t := answersOf ((crew.follow first).1.of i)
          let u := answersOf ((crew.follow second).1.of i)
          List.Forall₂ Exchange.Alike t u ∧ settlements t = settlements u ∧
            ∀ broker queue, AlikeMessages (contributed broker queue t) (contributed broker queue u)) := by
  have start : crew.Orderly service [] := opened_orderly historic opened crew.signal
  refine ⟨?_, ?_⟩
  · intro choices i route known
    exact crew_in_turn built (Crew.follow_orderly start choices) known
  · intro reliable separate behaviour oblivious first second shown shown₂ outside done done₂ i route known
    obtain ⟨-, -, -, calls, called, subscribing⟩ := open_routes_fresh (historic_sound historic) opened
    have trusted : crew.Trusted crew.world.collaborators [] := by
      refine ⟨reliable_called reliable called ?_, rfl, fun _ member => nomatch member⟩
      intro id member
      obtain ⟨topic, same⟩ := subscribing id _ member
      cases same
    have orderly₁ := Crew.follow_orderly start first
    have orderly₂ := Crew.follow_orderly start second
    have trusted₁ := Crew.follow_trusted start trusted first
    have trusted₂ := Crew.follow_trusted start trusted second
    have member : route ∈ service.routes := List.mem_of_getElem? known
    obtain ⟨finished, split, handled, messages⟩ := done_handlings orderly₁ done known
    obtain ⟨finished₂, split₂, handled₂, messages₂⟩ := done_handlings orderly₂ done₂ known
    rw [Crew.follow_logs built separate start trusted member first, outside,
      ← Crew.follow_logs built separate start trusted member second, ← messages₂] at messages
    -- Both runs end with the same log, so the i-th route has handled the same messages in both.
    have agree : ∀ handling ∈ finished, ∀ handling₂ ∈ finished₂,
        Agree handling.transcript handling₂.transcript := by
      intro handling within handling₂ within₂
      exact handlings_agree oblivious split split₂ trusted₁.honest trusted₂.honest shown shown₂ within within₂
    have alike := finished_alike (built_standard built member) handled handled₂ agree messages
    rw [← answers_of_handlings, ← answers_of_handlings, ← split, ← split₂] at alike
    exact ⟨alike, alike_transcripts_contribute alike⟩

-- Two routes that read one queue, with handlers that return what they get.
def mirrorRegistration : Registration Events.family :=
  { copyRegistration with name := some "mirror", publishQueue := some "mirrored" }

def pairService : Service Events.family :=
  { copyService .default with
    routes := [copyRoute .default, (copyService .default).route mirrorRegistration "mirror" (.raw 0)] }

def echoCollaborators : Collaborators Events.family where
  raw _ _ message := ⟨.zero, fun ids => (.ok [message], ids)⟩
  typed _ _ _ _ _ := ⟨.zero, fun ids => (.ok [], ids)⟩
  validate _ _ := .ok ()
  classify _ _ := .ok false

def pairWorld : World Events.family := .create echoCollaborators [("main", .create .none)] []

def pairCrew : Crew Events.family :=
  match openRoutes pairService pairService.routes pairWorld with
  | (.ok consumers, w) => ⟨.create false, consumers, w⟩
  | (.error _, w) => ⟨.create false, [], w⟩

def arrival (uuid : String) : Choice := .publish "main" "in" ⟨uuid, [], .empty⟩

def oneByOne : List Choice :=
  [arrival "a", arrival "b"] ++ List.replicate 80 (.step 0) ++ List.replicate 80 (.step 1)

def byTurns : List Choice :=
  [arrival "a"] ++ (List.replicate 30 [.step 0, .step 1]).flatten ++
    ([arrival "b"] ++ (List.replicate 60 [.step 1, .step 0]).flatten)

theorem pair_built : pairService.Built := by
  have valid : mirrorRegistration.validate = .ok ("mirror", .raw 0) := by
    have named : isBlankText "mirror" = false := by decide
    have read : isBlankText "in" = false := by decide
    have written : isBlankText "mirrored" = false := by decide
    simp [Registration.validate, Registration.resolvedName, mirrorRegistration, copyRegistration,
      Registration.ofQueue, Option.filter, named, read, written]
  have registered : (copyService .default).register mirrorRegistration = .ok pairService := by
    unfold Service.register
    rw [valid]
    rfl
  refine .register (copy_built .default) ?_ registered
  intro handler found
  cases found
  exact .raw 0

theorem single_broker (collaborators : Collaborators F) (stores : List FaultyStore) (id : BrokerId) :
    (World.create collaborators [("main", .create .none)] stores).broker id = .create .none := by
  by_cases here : "main" = id
  · simp [World.create, World.broker, here]
  · simp [World.create, World.broker, here]

theorem single_historic (collaborators : Collaborators F) (stores : List FaultyStore) :
    (World.create collaborators [("main", .create .none)] stores).Historic := by
  intro id
  rw [single_broker]
  exact ⟨[], rfl⟩

theorem pair_reliable : pairWorld.Reliable := by
  refine ⟨fun id => ?_, fun id => ?_, fun id => rfl⟩
  · rw [pairWorld, single_broker]
    rfl
  · rw [pairWorld, single_broker]
    rfl

theorem pair_separate : pairService.Separate := by
  refine ⟨?_, fun _ _ _ found => nomatch found⟩
  intro reader reads route member _
  simp only [pairService, List.mem_cons, List.not_mem_nil, or_false] at reads member
  rcases reads with rfl | rfl
  · rcases member with rfl | rfl <;> decide
  · rcases member with rfl | rfl <;> decide

def Behaviour.echo : Behaviour F := fun _ effect => Surroundings.obliging [] effect

theorem echo_oblivious : (Behaviour.echo : Behaviour F).Oblivious := by
  rintro n effect other call ⟨a, b, alike⟩
  cases alike with
  | callRaw handler twin _ =>
      exact .callRaw handler twin (.ok (.cons ⟨.inl twin.uuid, twin.payload, twin_bags_alike twin.metadata⟩ .nil))
  | callTyped handler input output twin _ => exact .callTyped handler input output twin (.ok .nil)
  | _ => cases call

def Exchange.echoed : Exchange F → Bool
  | ⟨.callRaw _ message, reply⟩ =>
      match (reply : Reply (List Message)) with
      | .ok outputs => outputs == [message]
      | _ => false
  | ⟨.callTyped _ _ output _, reply⟩ =>
      match (reply : Reply (List (Outgoing (F.Value output)))) with
      | .ok outputs => outputs.isEmpty
      | _ => false
  | _ => true

def Happening.echoed : Happening F → Bool
  | .answered x => x.echoed
  | _ => true

theorem attempt_answered {n k : Nat} {x : Exchange F} {happenings : List (Happening F)}
    (member : (n, x) ∈ attemptsFrom k happenings) :
    .answered x ∈ happenings ∧ x.effect.isCall = true := by
  induction happenings generalizing k with
  | nil => cases member
  | cons what rest ih =>
      cases what with
      | took _ => exact (ih member).imp_left (List.mem_cons_of_mem _)
      | began _ => exact (ih member).imp_left (List.mem_cons_of_mem _)
      | answered y =>
          rw [attemptsFrom] at member
          split at member
          · next call =>
              rcases List.mem_cons.mp member with same | later
              · cases same
                exact ⟨List.mem_cons_self, call⟩
              · exact (ih later).imp_left (List.mem_cons_of_mem _)
          · exact (ih member).imp_left (List.mem_cons_of_mem _)

theorem shown_of_echoed {journal : Journal F} (echoed : ∀ entry ∈ journal, entry.happening.echoed = true) :
    Behaviour.echo.Shown journal := by
  intro i n x member
  obtain ⟨answered, call⟩ := attempt_answered member
  obtain ⟨entry, known, what⟩ := journal_mem answered
  have told := echoed entry known
  rw [what] at told
  obtain ⟨effect, answer⟩ := x
  cases effect with
  | callRaw handler message =>
      cases (answer : Reply (List Message)) with
      | ok outputs =>
          have same : outputs = [message] := by simpa [Happening.echoed, Exchange.echoed] using told
          subst same
          exact .callRaw handler (twin_refl message) (.ok (.cons (alike_refl message) .nil))
      | error e => cases told
      | panic p => cases told
  | callTyped handler input output context =>
      cases (answer : Reply (List (Outgoing (F.Value output)))) with
      | ok outputs =>
          have same : outputs = [] := by simpa [Happening.echoed, Exchange.echoed] using told
          subst same
          exact .callTyped handler input output ⟨rfl, .same _, rfl⟩ (.ok .nil)
      | error e => cases told
      | panic p => cases told
  | _ => cases call

theorem externals_of_steps {broker : BrokerId} {topic : String} {choices : List Choice}
    (steps : ∀ choice ∈ choices, ∃ i, choice = .step i) : externals broker topic choices = [] := by
  apply List.filterMap_eq_nil_iff.mpr
  intro choice member
  obtain ⟨i, rfl⟩ := steps choice member
  rfl

theorem same_arrivals (broker : BrokerId) (topic : String) :
    externals broker topic oneByOne = externals broker topic byTurns := by
  have alone : ∀ n i, externals broker topic (List.replicate n (.step i)) = [] := by
    intro n i
    exact externals_of_steps fun choice member => ⟨i, List.eq_of_mem_replicate member⟩
  have turns : ∀ n i j, externals broker topic (List.replicate n [.step i, .step j]).flatten = [] := by
    intro n i j
    apply externals_of_steps
    intro choice member
    obtain ⟨steps, within, here⟩ := List.mem_flatten.mp member
    rw [List.eq_of_mem_replicate within] at here
    simp only [List.mem_cons, List.not_mem_nil, or_false] at here
    exact here.elim (⟨i, ·⟩) (⟨j, ·⟩)
  unfold externals at alone turns
  simp only [oneByOne, byTurns, externals, List.filterMap_append, alone, turns, List.append_nil]
  rw [← List.filterMap_append]
  rfl

theorem pair_handles_in_turn :
    openRoutes pairService pairService.routes pairWorld = (.ok pairCrew.consumers, pairCrew.world) ∧
      takenOf ((pairCrew.follow byTurns).1.of 1) <+:
        ((pairCrew.follow byTurns).2.world.broker "main").broker.published "in" ∧
      ∀ i < 2,
        let t := answersOf ((pairCrew.follow oneByOne).1.of i)
        let u := answersOf ((pairCrew.follow byTurns).1.of i)
        (settlements t).length = 2 ∧ settlements t = settlements u ∧
          AlikeMessages (contributed "main" "out" t) (contributed "main" "out" u) := by
  have opened : openRoutes pairService pairService.routes pairWorld =
      (.ok pairCrew.consumers, pairCrew.world) := by rfl
  obtain ⟨turns, repeats⟩ := crew_handles_in_turn pair_built (single_historic _ _) opened
  have outcome := repeats pair_reliable pair_separate .echo echo_oblivious oneByOne byTurns
    (shown_of_echoed (by decide +kernel)) (shown_of_echoed (by decide +kernel)) same_arrivals
    (by decide +kernel) (by decide +kernel)
  refine ⟨opened, (turns byTurns 1 _ rfl).1, ?_⟩
  intro i small
  match i, small with
  | 0, _ =>
      obtain ⟨-, settled, outputs⟩ := outcome 0 _ rfl
      exact ⟨by decide +kernel, settled, outputs "main" "out"⟩
  | 1, _ =>
      obtain ⟨-, settled, outputs⟩ := outcome 1 _ rfl
      exact ⟨by decide +kernel, settled, outputs "main" "out"⟩

end EventPipeline

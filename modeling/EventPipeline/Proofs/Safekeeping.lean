import EventPipeline.Proofs.DeadLetter
import EventPipeline.Proofs.Inquiries

/-!
What becomes of a message that may go to a poison queue, when nothing that is published is refused. Its
outputs are all published, or it is kept as a dead letter, or it comes again; the exceptions are errors
that neither pass nor mark the message as hopeless.
-/

set_option autoImplicit false

namespace EventPipeline

open Program Transcript

variable {F : EventFamily}

-- Permanent, and still no business of the poison queue.
def EventError.isStray : EventError → Bool
  | .config _ | .unknownTransport _ | .transportUnavailable _ | .registration _ | .serialization _ => true
  | _ => false

theorem error_sorts (e : EventError) :
    e.isPoison = true ∧ e.isRetryable = false ∨ e.isPoison = false ∧ e.isRetryable = true ∧ e.isStray = false ∨
      e.isPoison = false ∧ e.isRetryable = false ∧ e.isStray = true := by
  cases e <;> simp [EventError.isPoison, EventError.isStray, EventError.isRetryable, EventError.category]

def Surroundings.Accepting (s : Surroundings F) : Prop :=
  ∀ past broker queue message, s past (.publish broker queue message) = (.ok () : Reply Unit)

theorem accepting_play {α : Type} {s : Surroundings F} (accepting : s.Accepting) (past : Transcript F)
    (p : Program F α) : ∀ x ∈ publishes (play s past p).1, x.2 = .ok () := by
  intro x member
  obtain ⟨y, within, found⟩ := List.mem_filterMap.mp member
  obtain ⟨before, effect, rfl⟩ := answer_of_mem_play s past p within
  cases effect with
  | publish broker queue message =>
      cases found
      exact accepting before broker queue message
  | _ => cases found

theorem sent_accepted {t : Transcript F} (all : ∀ x ∈ publishes t, x.2 = .ok ()) : accepted t = sent t := by
  unfold accepted sent
  generalize publishes t = list at all
  induction list with
  | nil => rfl
  | cons x rest ih =>
      obtain ⟨publication, reply⟩ := x
      cases (all _ List.mem_cons_self : reply = .ok ())
      exact congrArg (publication :: ·) (ih fun y member => all y (List.mem_cons_of_mem _ member))

-- A run in which the last call of the handler, with the outbox around it, ended so.
def Service.LastAttempt (service : Service F) (route : Route F) (message : Message) (t : Transcript F)
    (outcome : Handler.Outcome) : Prop :=
  ∃ (fresh : Transcript F) (received : Message) (before attempt after : Transcript F),
    message.Correlated fresh received ∧ t = before ++ (attempt ++ after) ∧
    Ends (service.core route received) attempt outcome ∧ Idle after

theorem checks_unprocessable {validation : SchemaValidation F} {message : Message} {t : Transcript F}
    {e : EventError} (checks : validation.Checks message t (.ok (.error e))) : e.isPoison = true := by
  generalize same : (.ok (.error e) : Except Panic (Except EventError Unit)) = verdict at checks
  cases checks with
  | undeclared absent record => cases same
  | unquestioned declared found read alone => cases same
  | unknown declared missing => cases same; rfl
  | undecodable declared found unread => cases same; rfl
  | questioned declared found read asked reply =>
      cases reply with
      | ok _ => cases same
      | panic p => cases same
      | error refusal => cases same; rfl

-- Only the check of the schema fails without an attempt, and what it fails with is poison.
theorem last_attempt_of_inner {service : Service F} {route : Route F} {message : Message}
    {inner : Transcript F} {result : Except EventError (List Message)}
    (tried : Ends (service.inner route message) inner (.ok result))
    (bearable : ∀ e, result = .error e → e.isPoison = false) {before after : Transcript F} (idle : Idle after) :
    service.LastAttempt route message (before ++ (inner ++ after)) (.ok result) := by
  rcases Service.ends_inner_last tried with ⟨received, checking, verdict, checks, bad, same⟩ |
    ⟨fresh, received, early, attempt, late, correlated, rfl, ran, remarks⟩
  · cases verdict with
    | error p => cases same
    | ok answer =>
        cases answer with
        | ok _ => exact absurd rfl bad
        | error e =>
            cases same
            have hopeless := checks_unprocessable checks
            rw [bearable e rfl] at hopeless
            cases hopeless
  · exact ⟨fresh, received, before ++ (fresh ++ early), attempt, late ++ after, correlated, by simp, ran,
      idle_append (idle_of_remarks remarks) idle⟩

-- What the poison stage and the recoverer make of an outcome, and the letter that they send.
inductive Service.Keeps (letter : Publication) : Handler.Outcome → List Publication →
    Except EventError (List Message) → Prop where
  | outputs (outputs : List Message) : Keeps letter (.ok (.ok outputs)) [] (.ok outputs)
  | buried {e : EventError} (hopeless : e.isPoison = true) : Keeps letter (.ok (.error e)) [letter] (.ok [])
  | spared {e : EventError} (bearable : e.isPoison = false) : Keeps letter (.ok (.error e)) [] (.error e)
  | panicked (p : Panic) : Keeps letter (.error p) [] (.error (.panicked p.message))

theorem wraps_keeps {service : Service F} {route : Route F} {message : Message}
    {inside : Handler.Outcome} {after : Transcript F} {result : Except EventError (List Message)}
    (wraps : service.Wraps route message inside after (.ok result))
    (standard : service.classifier = .standard) {queue : String}
    (found : service.poison? = some ⟨queue, service.transport.publisher, service.classifier⟩)
    (accepting : ∀ x ∈ publishes after, x.2 = .ok ()) :
    Service.Keeps ⟨service.transport.publisher, queue, message⟩ inside (sent after) result := by
  rw [standard] at found
  generalize same : (Except.ok result : Handler.Outcome) = outcome at wraps
  cases wraps with
  | plain absent leaving =>
      rw [absent] at found
      cases found
  | @guarded poison known later closing ruled ruling leaving =>
      cases known.symm.trans found
      cases same
      rw [sent_append, remarks_unsent leaving, List.append_nil]
      cases ruling with
      | broken p => exact .panicked p
      | passed outputs => exact .outputs outputs
      | undecided decision => cases (ends_done.mp decision).2
      | spared decision =>
          obtain ⟨rfl, verdict⟩ := ends_done.mp decision
          exact .spared (Except.ok.inj verdict).symm
      | diverted decision diversion =>
          obtain ⟨rfl, verdict⟩ := ends_done.mp decision
          obtain ⟨reply, letter, rfl⟩ := PoisonQueue.ends_divert diversion
          have taken : reply = .ok () := by
            apply accepting (_, reply)
            rw [publishes_append, List.nil_append, letter]
            exact List.mem_cons_self
          subst taken
          rw [List.nil_append, sent, letter]
          exact .buried (Except.ok.inj verdict).symm

-- What a route publishes on a queue for the result of its pipeline.
def Route.parcels (route : Route F) (queue : String) : Except EventError (List Message) → List Publication
  | .ok outputs => outputs.map fun output => ⟨route.publisher, queue, output⟩
  | .error _ => []

theorem delivers_all {route : Route F} {queue : String} (target : route.publishQueue = some queue)
    {result : Except EventError (List Message)} {t : Transcript F}
    {outcome : Except Panic (Except EventError Unit)} (delivers : route.Delivers result t outcome)
    (accepting : ∀ x ∈ publishes t, x.2 = .ok ()) :
    outcome = .ok (result.map fun _ => ()) ∧ sent t = route.parcels queue result := by
  cases delivers with
  | failed e => exact ⟨rfl, rfl⟩
  | empty => exact ⟨rfl, rfl⟩
  | homeless present absent => rw [target] at absent; cases absent
  | @published outputs other _ _ found ends =>
      cases target.symm.trans found
      rcases (Route.ends_publish_all ends).2 with ⟨all, rfl⟩ | ⟨passed, output, later, reply, -, bad, some, -⟩
      · refine ⟨rfl, ?_⟩
        rw [sent, all, List.map_map]
        rfl
      · have member : (⟨route.publisher, queue, output⟩, reply) ∈ publishes t := by
          rw [some]
          exact List.mem_append_right _ List.mem_cons_self
        exact absurd (accepting _ member) bad

-- After the pipeline nobody is called any more.
theorem process_tail {service : Service F} {route : Route F} {message : Message}
    {t handled delivering concluding : Transcript F} {outcome : Except Panic Unit}
    {result : Except EventError (List Message)} {delivered : Except Panic (Except EventError Unit)}
    (ends : Ends (route.process (service.pipeline route) message) t outcome)
    (account : Account service route message t outcome handled result delivering concluding delivered) :
    Idle (delivering ++ concluding) := by
  obtain ⟨piped, other, after, split, ends₁, outside⟩ := ends_process_pipeline ends
  have same := (List.cons_eq_cons.mp (account.whole.symm.trans split)).2
  obtain ⟨rfl, -⟩ := ends_unique account.pipeline ends₁ same
  rw [List.append_cancel_left same]
  exact fun x member => idle_of_outer (outside x member)

theorem process_keeps_messages {service : Service F} (built : service.Built)
    (standard : service.classifier = .standard) {queue : String}
    (configured : service.config.poisonQueue = some queue) (named : isBlankText queue = false)
    {route : Route F} (member : route ∈ service.routes) {outlet : String}
    (target : route.publishQueue = some outlet) (message : Message) {s : Surroundings F}
    (accepting : s.Accepting) :
    let run := (play s [] (route.process (service.pipeline route) message)).1
    (∃ outputs, service.LastAttempt route message run (.ok (.ok outputs)) ∧
        settlements run = [(route.subscriber, .ack)] ∧
        accepted run = outputs.map fun output => ⟨route.publisher, outlet, output⟩) ∨
      (settlements run = [(route.subscriber, .ack)] ∧
        accepted run = [⟨service.transport.publisher, queue, message⟩]) ∨
      settlements run = [(route.subscriber, .nack true)] ∨
      ∃ e, e.isStray = true ∧ service.LastAttempt route message run (.ok (.error e)) ∧
        settlements run = [(route.subscriber, .nack false)] ∧ accepted run = [] := by
  intro run
  have replies : ∀ x ∈ publishes run, x.2 = .ok () := accepting_play accepting [] _
  have ends := ends_play s [] (route.process (service.pipeline route) message)
  obtain ⟨handled, result, delivering, concluding, delivered, account⟩ :=
    process_account (built_standard built member) ends
  have whole : run = ⟨.count (.received route.name), ()⟩ :: (handled ++ (delivering ++ concluding)) :=
    account.whole
  have parts : publishes run = publishes handled ++ publishes delivering := by
    rw [whole]
    change publishes (handled ++ (delivering ++ concluding)) = _
    rw [publishes_append, publishes_append, account.silent, List.append_nil]
  obtain ⟨fate, out⟩ := delivers_all target account.delivers fun x within =>
    replies x (parts ▸ List.mem_append_right _ within)
  have settled := account.settled _ fate
  have outside : Idle (delivering ++ concluding) := process_tail ends account
  obtain ⟨inner, inside, after, rfl, tried, wraps⟩ := ends_pipeline_inner account.pipeline
  have quiet := (inner_quiet (built_standard built member) tried).1
  have keeps := wraps_keeps wraps standard (poison_of_config configured named) fun x within =>
    replies x (parts ▸ List.mem_append_left _ (by rw [publishes_append]; exact List.mem_append_right _ within))
  have all : accepted run = sent after ++ route.parcels outlet result := by
    rw [sent_accepted replies, sent, parts, publishes_append, quiet, ← out]
    simp [sent]
  have last : ∀ result, inside = .ok result → (∀ e, result = .error e → e.isPoison = false) →
      service.LastAttempt route message run (.ok result) := by
    rintro result rfl bearable
    have split : run = [⟨.count (.received route.name), ()⟩] ++ (inner ++ (after ++ (delivering ++ concluding))) := by
      rw [whole, List.append_assoc]
      rfl
    rw [split]
    exact last_attempt_of_inner tried bearable
      (idle_append (fun x within => idle_of_outer (wraps_outer wraps x within)) outside)
  generalize sent after = letters at keeps all
  cases keeps with
  | outputs outputs => exact .inl ⟨outputs, last _ rfl fun _ same => (by cases same), settled, all⟩
  | buried hopeless => exact .inr (.inl ⟨settled, all⟩)
  | panicked p => exact .inr (.inr (.inl settled))
  | @spared e bearable =>
      change settlements run = [(route.subscriber, .nack e.isRetryable)] at settled
      rcases error_sorts e with ⟨hopeless, -⟩ | ⟨-, passing, -⟩ | ⟨-, final, stray⟩
      · rw [bearable] at hopeless
        cases hopeless
      · rw [passing] at settled
        exact .inr (.inr (.inl settled))
      · rw [final] at settled
        exact .inr (.inr (.inr ⟨e, stray, last _ rfl fun other same => by cases same; exact bearable, settled, all⟩))

theorem obliging_accepting : (Surroundings.obliging : Surroundings F).Accepting := fun _ _ _ _ => rfl

theorem copy_keeps_messages :
    (copyService buryingConfig : Service Events.family).Built ∧ isBlankText "dead" = false ∧
      (Surroundings.obliging : Surroundings Events.family).Accepting ∧
      let run := (play .obliging [] ((copyRoute buryingConfig : Route Events.family).process
        ((copyService buryingConfig).pipeline (copyRoute buryingConfig)) ⟨"m-1", [], .empty⟩)).1
      ∃ outputs, (copyService buryingConfig).LastAttempt (copyRoute buryingConfig) ⟨"m-1", [], .empty⟩ run
          (.ok (.ok outputs)) ∧
        accepted run = outputs.map fun output => ⟨"main", "out", output⟩ := by
  have kept := process_keeps_messages (copy_built buryingConfig) rfl rfl (by decide) List.mem_cons_self rfl
    ⟨"m-1", [], .empty⟩ (obliging_accepting : (Surroundings.obliging : Surroundings Events.family).Accepting)
  refine ⟨copy_built _, by decide, obliging_accepting, ?_⟩
  rcases kept with ⟨outputs, ran, -, out⟩ | ⟨-, letter⟩ | again | ⟨e, -, -, lost, -⟩
  · exact ⟨outputs, ran, out⟩
  · exact absurd (congrArg (List.map (·.queue)) letter) (by decide)
  · cases again
  · cases lost

-- Orders whose confirmation may be missing.
def maybeRegistration : Registration Events.family :=
  { (Registration.ofQueue "in").withTyped 0 Events.Kind.orderPlaced Events.Kind.maybe
      (Events.Kind.codec .orderPlaced) (Events.Kind.codec .maybe) with
    publishQueue := some "out" }

def maybeRoute : Route Events.family :=
  (plainService buryingConfig : Service Events.family).route maybeRegistration "order_placed_handler"
    (.typed 0 Events.Kind.orderPlaced Events.Kind.maybe (Events.Kind.codec .orderPlaced)
      (Events.Kind.codec .maybe))

def maybeService : Service Events.family :=
  { (plainService buryingConfig : Service Events.family) with
    registry := ⟨[Events.entry .orderPlaced]⟩
    routes := [maybeRoute] }

-- As obliging as can be, except that every confirmation is missing.
def Surroundings.unconfirmed : Surroundings Events.family
  | _, .callTyped _ _ Events.Kind.maybe _ => .ok [⟨none, none⟩]
  | past, effect => obliging past effect

theorem missing_confirmation_is_lost :
    maybeService.Built ∧ maybeService.classifier = .standard ∧
      maybeService.config.poisonQueue = some "dead" ∧ isBlankText "dead" = false ∧
      maybeRoute ∈ maybeService.routes ∧ maybeRoute.publishQueue = some "out" ∧
      Surroundings.unconfirmed.Accepting ∧
      let run := (play .unconfirmed [] (maybeRoute.process (maybeService.pipeline maybeRoute)
        ⟨"m-1", Utf8.encode "\x7b\"id\":1\x7d".toList, .empty⟩)).1
      settlements run = [("main", .nack false)] ∧ sent run = [] := by
  refine ⟨?_, rfl, rfl, by decide, List.mem_cons_self, rfl, fun _ _ _ _ => rfl, by rfl, by rfl⟩
  refine .register (.create buryingConfig (.memory "main") none none .standard) ?_
    (show Service.register _ maybeRegistration = _ by rfl)
  intro handler found
  cases found
  exact .typed ..

end EventPipeline

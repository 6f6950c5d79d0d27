import EventPipeline.OutboxStore
import EventPipeline.Proofs.Passage

/-!
What a transcript says about handlers, validators and stores: the calls, the questions with their
answers, the writes with theirs. Most of what a pipeline asks is idle and tells nothing of the kind.
-/

set_option autoImplicit false

namespace EventPipeline

open Program Transcript

variable {F : EventFamily}

structure Write where
  store : StoreId
  record : OutboxRecord
deriving DecidableEq

abbrev Question (F : EventFamily) := ValidatorId × DecodedEvent F

namespace Exchange

def call? (x : Exchange F) : Option (Effect F) := if x.effect.isCall then some x.effect else none

def write? : Exchange F → Option (Write × Reply Unit)
  | ⟨.store store eventType messageId payload, reply⟩ =>
      some (⟨store, ⟨eventType, messageId, payload⟩⟩, reply)
  | _ => none

def validation? : Exchange F → Option (Question F × Reply Unit)
  | ⟨.validate id event, reply⟩ => some ((id, event), reply)
  | _ => none

end Exchange

-- Nothing of it is business of a handler, a validator or a store, and nothing is tried again.
def Effect.isIdle : Effect F → Bool
  | .freshId => true
  | effect => effect.isOuter

def Effect.isRetry : Effect F → Bool
  | .sleep _ => true
  | .count (.retried _) => true
  | _ => false

-- What a handler or a validator is asked.
def Effect.isInquiry : Effect F → Bool
  | .validate .. => true
  | effect => effect.isCall

theorem idle_of_outer {effect : Effect F} (outer : effect.isOuter = true) : effect.isIdle = true := by
  cases effect with
  | freshId => rfl
  | _ => exact outer

namespace Transcript

def calls (t : Transcript F) : List (Effect F) := t.filterMap Exchange.call?

def writes (t : Transcript F) : List (Write × Reply Unit) := t.filterMap Exchange.write?

def validations (t : Transcript F) : List (Question F × Reply Unit) := t.filterMap Exchange.validation?

@[simp] theorem calls_append (t u : Transcript F) : calls (t ++ u) = calls t ++ calls u :=
  List.filterMap_append

@[simp] theorem writes_append (t u : Transcript F) : writes (t ++ u) = writes t ++ writes u :=
  List.filterMap_append

@[simp] theorem validations_append (t u : Transcript F) :
    validations (t ++ u) = validations t ++ validations u := List.filterMap_append

def Idle (t : Transcript F) : Prop := ∀ x ∈ t, x.effect.isIdle = true

theorem idle_append {t u : Transcript F} (first : Idle t) (second : Idle u) : Idle (t ++ u) :=
  fun x member => (List.mem_append.mp member).elim (first x) (second x)

theorem unasked_of_no_inquiry {t : Transcript F} (quiet : ∀ x ∈ t, x.effect.isInquiry = false) :
    calls t = [] ∧ validations t = [] := by
  constructor
  · apply List.filterMap_eq_nil_iff.mpr
    rintro ⟨effect, answer⟩ member
    have unasked := quiet _ member
    cases effect with
    | callRaw handler message => cases unasked
    | callTyped handler input output context => cases unasked
    | _ => rfl
  · apply List.filterMap_eq_nil_iff.mpr
    rintro ⟨effect, answer⟩ member
    have unasked := quiet _ member
    cases effect with
    | validate id event => cases unasked
    | _ => rfl

theorem idle_quiet {t : Transcript F} (idle : Idle t) :
    calls t = [] ∧ writes t = [] ∧ validations t = [] ∧ ∀ x ∈ t, x.effect.isRetry = false := by
  have unasked : ∀ x ∈ t, x.effect.isInquiry = false := by
    rintro ⟨effect, answer⟩ member
    have quiet := idle _ member
    cases effect <;> first | rfl | cases quiet
  refine ⟨(unasked_of_no_inquiry unasked).1, ?_, (unasked_of_no_inquiry unasked).2, ?_⟩
  · apply List.filterMap_eq_nil_iff.mpr
    rintro ⟨effect, answer⟩ member
    have quiet := idle _ member
    cases effect with
    | store store eventType messageId payload => cases quiet
    | _ => rfl
  · rintro ⟨effect, answer⟩ member
    have quiet := idle _ member
    cases effect with
    | sleep duration => cases quiet
    | count m =>
        cases m with
        | retried name => cases quiet
        | _ => rfl
    | _ => rfl

end Transcript

theorem idle_of_remarks {t : Transcript F} (remarks : Remarks t) : Idle t :=
  fun x member => idle_of_outer (outer_of_remark (remarks x member))

theorem idle_of_notes {t : Transcript F} (notes : Notes t) : Idle t := idle_of_remarks (remarks_of_notes notes)

-- What is idle around a run makes no difference to it.
theorem framed_quiet {before after : Transcript F} (entering : Idle before) (leaving : Idle after)
    (t : Transcript F) :
    calls (before ++ (t ++ after)) = calls t ∧ writes (before ++ (t ++ after)) = writes t ∧
      validations (before ++ (t ++ after)) = validations t ∧
      ((∀ x ∈ t, x.effect.isRetry = false) → ∀ x ∈ before ++ (t ++ after), x.effect.isRetry = false) := by
  obtain ⟨calls₁, writes₁, validations₁, once₁⟩ := idle_quiet entering
  obtain ⟨calls₂, writes₂, validations₂, once₂⟩ := idle_quiet leaving
  refine ⟨by simp [calls₁, calls₂], by simp [writes₁, writes₂], by simp [validations₁, validations₂], ?_⟩
  intro once x member
  rcases List.mem_append.mp member with early | later
  · exact once₁ x early
  · exact (List.mem_append.mp later).elim (once x) (once₂ x)

theorem correlated_payload {message received : Message} {fresh : Transcript F}
    (correlated : message.Correlated fresh received) :
    received.payload = message.payload ∧ received.uuid = message.uuid ∧ Idle fresh := by
  cases correlated with
  | kept known => exact ⟨rfl, rfl, fun _ member => nomatch member⟩
  | filled bare id => exact ⟨rfl, rfl, fun x member => List.mem_singleton.mp member ▸ rfl⟩

theorem checks_uncalled {validation : SchemaValidation F} {message : Message} {t : Transcript F}
    {verdict : Except Panic (Except EventError Unit)} (checks : validation.Checks message t verdict) :
    calls t = [] ∧ writes t = [] ∧ ∀ x ∈ t, x.effect.isRetry = false := by
  cases checks with
  | undeclared absent record =>
      exact ⟨rfl, rfl, fun x member => List.mem_singleton.mp member ▸ rfl⟩
  | questioned declared found read asked reply =>
      exact ⟨rfl, rfl, fun x member => List.mem_singleton.mp member ▸ rfl⟩
  | _ => exact ⟨rfl, rfl, fun _ member => nomatch member⟩

-- A delivery is the passage of its message; nothing around that is said to a handler, a validator or a store.
theorem process_passage {service : Service F} {route : Route F} {message : Message} {t : Transcript F}
    {outcome : Except Panic Unit} (ends : Ends (route.process (service.pipeline route) message) t outcome) :
    ∃ before inner after attempts inside, t = before ++ (inner ++ after) ∧ Idle before ∧ Idle after ∧
      service.Passage route message attempts inner inside := by
  obtain ⟨handled, result, later, rfl, piped, outside⟩ := ends_process_pipeline ends
  obtain ⟨inner, inside, closing, rfl, tried, wraps⟩ := ends_pipeline_inner piped
  have idle : Idle (closing ++ later) :=
    idle_append (fun x member => idle_of_outer (wraps_outer wraps x member))
      fun x member => idle_of_outer (outside x member)
  have opening : Idle [(⟨.count (.received route.name), ()⟩ : Exchange F)] :=
    fun x member => List.mem_singleton.mp member ▸ rfl
  obtain ⟨attempts, passage⟩ := Service.ends_inner tried
  exact ⟨_, inner, _, attempts, inside, by simp, opening, idle, passage⟩

section Unseen

variable {β : Type} {look : Exchange F → Option β} (unnoted : ∀ record, look ⟨.note record, ()⟩ = none)

include unnoted

theorem notes_unseen {t : Transcript F} (notes : Notes t) : t.filterMap look = [] := by
  apply List.filterMap_eq_nil_iff.mpr
  rintro ⟨effect, answer⟩ member
  obtain ⟨record, same⟩ := notes _ member
  cases same
  exact unnoted record

theorem checks_unseen (unasked : ∀ id event reply, look ⟨.validate id event, reply⟩ = none)
    {validation : SchemaValidation F} {message : Message} {t : Transcript F}
    {verdict : Except Panic (Except EventError Unit)} (checks : validation.Checks message t verdict) :
    t.filterMap look = [] := by
  cases checks with
  | undeclared absent record => exact List.filterMap_cons_none (unnoted record)
  | questioned declared found read asked reply => exact List.filterMap_cons_none (unasked _ _ reply)
  | _ => rfl

end Unseen

-- Around its attempts the passage of a message only names it, takes notes, questions the validator and waits;
-- and it comes to outputs only through the last of them.
theorem passage_seen {service : Service F} {route : Route F} {message : Message}
    {attempts : List (Attempt F)} {t : Transcript F} {outcome : Handler.Outcome}
    (passage : service.Passage route message attempts t outcome) :
    ∃ (named : Transcript F) (received : Message), message.Correlated named received ∧
      (∀ {β : Type} (look : Exchange F → Option β), (∀ record, look ⟨.note record, ()⟩ = none) →
        (∀ id event reply, look ⟨.validate id event, reply⟩ = none) →
        (∀ name tried record, (retryPause service.config.retry name tried record).filterMap look = []) →
        t.filterMap look = named.filterMap look ++ attempts.flatMap fun a => a.transcript.filterMap look) ∧
      (∀ a ∈ attempts, Ends (service.core route received) a.transcript a.outcome) ∧
      ∀ outputs, outcome = .ok (.ok outputs) →
        ∃ earlier a, attempts = earlier ++ [a] ∧ a.outcome = .ok (.ok outputs) := by
  cases passage with
  | @rejected named before checking after received verdict correlated entering leaving checks bad =>
      refine ⟨named, received, correlated, ?_, nofun, ?_⟩
      · intro β look unnoted unasked _
        rw [List.filterMap_append, List.filterMap_append, List.filterMap_append, notes_unseen unnoted entering,
          notes_unseen unnoted leaving, checks_unseen unnoted unasked checks]
        rfl
      · intro outputs same
        rcases verdict with p | e | _
        · cases same
        · cases same
        · exact absurd rfl bad
  | @admitted named before checking tries after received _ _ correlated entering leaving checks retries =>
      refine ⟨named, received, correlated, ?_, retries_ran retries, ?_⟩
      · intro β look unnoted unasked unpaused
        rw [List.filterMap_append, List.filterMap_append, List.filterMap_append, List.filterMap_append,
          notes_unseen unnoted entering, notes_unseen unnoted leaving, checks_unseen unnoted unasked checks,
          List.nil_append, List.nil_append, List.append_nil, retries_seen (unpaused route.name) retries]
      · intro outputs same
        obtain ⟨earlier, a, _, split, -, last⟩ := retries_last retries
        exact ⟨earlier, a, split, last.trans same⟩

theorem correlated_silent {message received : Message} {named : Transcript F}
    (correlated : message.Correlated named received) : calls named = [] ∧ writes named = [] := by
  obtain ⟨uncalled, unwritten, -⟩ := idle_quiet (correlated_payload correlated).2.2
  exact ⟨uncalled, unwritten⟩

theorem passage_tries {service : Service F} {route : Route F} {message : Message}
    {attempts : List (Attempt F)} {t : Transcript F} {outcome : Handler.Outcome}
    (passage : service.Passage route message attempts t outcome) :
    ∃ (fresh : Transcript F) (received : Message), message.Correlated fresh received ∧
      calls t = attempts.flatMap (fun a => calls a.transcript) ∧
      writes t = attempts.flatMap (fun a => writes a.transcript) ∧
      (∀ a ∈ attempts, Ends (service.core route received) a.transcript a.outcome) ∧
      ∀ outputs, outcome = .ok (.ok outputs) →
        ∃ earlier a, attempts = earlier ++ [a] ∧ a.outcome = .ok (.ok outputs) := by
  obtain ⟨named, received, correlated, seen, ran, last⟩ := passage_seen passage
  obtain ⟨uncalled, unwritten⟩ := correlated_silent correlated
  have called : calls t = calls named ++ attempts.flatMap (fun a => calls a.transcript) :=
    seen Exchange.call? (fun _ => rfl) (fun _ _ _ => rfl) fun _ _ _ => rfl
  have wrote : writes t = writes named ++ attempts.flatMap (fun a => writes a.transcript) :=
    seen Exchange.write? (fun _ => rfl) (fun _ _ _ => rfl) fun _ _ _ => rfl
  rw [uncalled, List.nil_append] at called
  rw [unwritten, List.nil_append] at wrote
  exact ⟨named, received, correlated, called, wrote, ran, last⟩

-- All that a delivery has handlers called for and all that it writes comes from its attempts.
theorem process_tries {service : Service F} {route : Route F} {message : Message} {t : Transcript F}
    {outcome : Except Panic Unit} (ends : Ends (route.process (service.pipeline route) message) t outcome) :
    ∃ (fresh : Transcript F) (received : Message) (attempts : List (Attempt F)),
      message.Correlated fresh received ∧
      calls t = attempts.flatMap (fun a => calls a.transcript) ∧
      writes t = attempts.flatMap (fun a => writes a.transcript) ∧
      ∀ a ∈ attempts, Ends (service.core route received) a.transcript a.outcome := by
  obtain ⟨opening, inner, closing, attempts, inside, rfl, first, last, passage⟩ := process_passage ends
  obtain ⟨allCalls, allWrites, -⟩ := framed_quiet first last inner
  obtain ⟨fresh, received, correlated, called, wrote, ran, -⟩ := passage_tries passage
  rw [allCalls, allWrites]
  exact ⟨fresh, received, attempts, correlated, called, wrote, ran⟩

-- What a handler is called with is this delivery.
def Effect.Shows (message : Message) : Effect F → Prop
  | .callRaw _ shown => shown.uuid = message.uuid ∧ shown.payload = message.payload
  | .callTyped _ _ _ context => context.messageId = message.uuid
  | _ => False

theorem standard_shows {handler : Handler F} (standard : handler.Standard) (message : Message) :
    (handler message).Only fun e => e.isCall = true → e.Shows message := by
  cases standard with
  | raw id => exact ⟨fun _ => ⟨rfl, rfl⟩, fun reply => only_of_reply reply⟩
  | typed id input output decoder encoder =>
      unfold Handler.typed
      split
      · trivial
      · refine only_bind ⟨fun _ => rfl, fun reply => only_of_reply reply⟩ fun result => ?_
        cases result with
        | error e => trivial
        | ok outputs => exact only_encode_all nofun outputs

theorem core_shows {service : Service F} {route : Route F} (standard : route.handler.Standard)
    (message : Message) : (service.core route message).Only fun e => e.isCall = true → e.Shows message :=
  Service.core_only (fun _ => nofun) (fun _ _ _ _ => nofun) (standard_shows standard message)

theorem process_shows {service : Service F} {route : Route F} (standard : route.handler.Standard)
    {message : Message} {t : Transcript F} {outcome : Except Panic Unit}
    (ends : Ends (route.process (service.pipeline route) message) t outcome) :
    ∀ call ∈ calls t, call.Shows message := by
  obtain ⟨fresh, received, attempts, correlated, all, -, ran⟩ := process_tries ends
  obtain ⟨payload, uuid, -⟩ := correlated_payload correlated
  intro call member
  rw [all] at member
  obtain ⟨a, tried, within⟩ := List.mem_flatMap.mp member
  obtain ⟨x, asked, found⟩ := List.mem_filterMap.mp within
  have shows := leads_only (core_shows standard received) (ran a tried) x asked
  unfold Exchange.call? at found
  split at found
  · next isCall =>
      cases found
      have shown := shows isCall
      cases effect : x.effect with
      | callRaw id message =>
          rw [effect] at shown
          exact ⟨shown.1.trans uuid, shown.2.trans payload⟩
      | callTyped id input output context =>
          rw [effect] at shown
          exact Eq.trans shown uuid
      | _ => rw [effect] at isCall; cases isCall
  · cases found

end EventPipeline

import EventPipeline.Proofs.Settlement

/-!
A message on its way through the stages inside the poison queue. It gets its correlation id, is checked
against its schema, and is tried until a try succeeds or nothing is left to be tried. The transcript of
such a run falls into these parts, and around them there are only remarks.
-/

set_option autoImplicit false

namespace EventPipeline

open Program Transcript

variable {F : EventFamily}

abbrev Handler.Outcome := Except Panic (Except EventError (List Message))

-- What is asked outside the inner stages: remarks, the classifier, the brokers.
def Effect.isOuter : Effect F → Bool
  | .publish .. => true
  | .settle .. => true
  | .classify .. => true
  | effect => effect.isRemark

theorem Metadata.uncorrelated_iff {bag : Metadata} :
    bag.isUncorrelated = true ↔ ∀ id, id ≠ "" → bag.correlationId? ≠ some id := by
  unfold isUncorrelated
  cases known : bag.correlationId? with
  | none => simp
  | some id =>
      simp only [String.isEmpty_iff, ne_eq, Option.some.injEq]
      constructor
      · intro empty other visible same
        exact visible (same.symm.trans empty)
      · intro missing
        exact Classical.byContradiction fun visible => missing id visible rfl

-- From the message as it came to the one that the inner stages see, with what was asked for it.
inductive Message.Correlated (message : Message) : Transcript F → Message → Prop where
  | kept (known : message.metadata.isUncorrelated = false) : Correlated message [] message
  | filled (bare : message.metadata.isUncorrelated = true) (id : String) :
      Correlated message [⟨.freshId, id⟩]
        { message with metadata := message.metadata.set Metadata.correlationKey id }

theorem ends_correlate {next : Handler F} {message : Message} {t : Transcript F}
    {outcome : Handler.Outcome} (ends : Ends (correlate next message) t outcome) :
    ∃ fresh received u, t = fresh ++ u ∧ message.Correlated fresh received ∧
      Ends (next received) u outcome := by
  unfold correlate at ends
  split at ends
  · next bare =>
      obtain ⟨id, u, rfl, later⟩ := ends_perform.mp ends
      exact ⟨_, _, u, rfl, .filled bare id, later⟩
  · next known => exact ⟨[], message, t, rfl, .kept (by simpa using known), ends⟩

theorem ends_log_around {name : String} {next : Handler F} {message : Message} {t : Transcript F}
    {outcome : Handler.Outcome} (ends : Ends (logAround name next message) t outcome) :
    ∃ before u after, t = before ++ (u ++ after) ∧ Notes before ∧ Notes after ∧
      Ends (next message) u outcome := by
  obtain ⟨u, rfl, inside⟩ := ends_note_bind.mp ends
  rcases ends_bind.mp inside with ⟨p, rfl, broken⟩ | ⟨result, handled, after, rfl, returned, leaving⟩
  · exact ⟨[_], u, [], congrArg (_ :: ·) (List.append_nil u).symm, notes_note _ notes_nil,
      notes_nil, broken⟩
  · cases result with
    | ok outputs =>
        obtain ⟨v, rfl, last⟩ := ends_note_bind.mp leaving
        obtain ⟨rfl, rfl⟩ := ends_done.mp last
        exact ⟨[_], handled, _, rfl, notes_note _ notes_nil, notes_note _ notes_nil, returned⟩
    | error e =>
        obtain ⟨v, rfl, last⟩ := ends_note_bind.mp leaving
        obtain ⟨rfl, rfl⟩ := ends_done.mp last
        exact ⟨[_], handled, _, rfl, notes_note _ notes_nil, notes_note _ notes_nil, returned⟩

theorem ends_trace_around {name : String} {next : Handler F} {message : Message} {t : Transcript F}
    {outcome : Handler.Outcome} (ends : Ends (traceAround name next message) t outcome) :
    ∃ before u after, t = before ++ (u ++ after) ∧ Notes before ∧ Notes after ∧
      Ends (next message) u outcome := by
  obtain ⟨u, rfl, inside⟩ := ends_note_bind.mp ends
  rcases ends_bind.mp inside with ⟨p, rfl, broken⟩ | ⟨result, spanned, after, rfl, returned, leaving⟩
  · rcases ends_catch_panic.mp broken with ⟨_, same, -⟩ | ⟨q, handled, closing, rfl, raised, passing⟩
    · cases same
    · obtain ⟨v, rfl, last⟩ := ends_note_bind.mp passing
      obtain ⟨rfl, same⟩ := ends_panic.mp last
      cases same
      exact ⟨[_], handled, _, rfl, notes_note _ notes_nil, notes_note _ notes_nil, raised⟩
  · rcases ends_catch_panic.mp returned with ⟨_, same, handled⟩ | ⟨q, handled, closing, rfl, raised, passing⟩
    · cases same
      obtain ⟨v, rfl, closing⟩ := ends_note_bind.mp leaving
      obtain ⟨w, rfl, last⟩ := ends_note_bind.mp closing
      obtain ⟨rfl, rfl⟩ := ends_done.mp last
      exact ⟨[_], spanned, _, rfl, notes_note _ notes_nil,
        notes_note _ (notes_note _ notes_nil), handled⟩
    · obtain ⟨v, rfl, last⟩ := ends_note_bind.mp passing
      obtain ⟨-, same⟩ := ends_panic.mp last
      cases same

namespace SchemaValidation

-- How a message fares in the check of its declared schema, with what the validator was asked.
inductive Checks (validation : SchemaValidation F) (message : Message) :
    Transcript F → Except Panic (Except EventError Unit) → Prop where
  | undeclared (absent : message.metadata.schema? = none) (record : TraceRecord) :
      Checks validation message [⟨.note record, ()⟩] (.ok (.ok ()))
  | unknown {schema : String} (declared : message.metadata.schema? = some schema)
      (missing : validation.registry.lookup schema = none) :
      Checks validation message []
        (.ok (.error (reject message schema ("schema '" ++ schema ++ "' is not registered") .unknown)))
  | undecodable {schema : String} {entry : SchemaEntry F} {e : EventError}
      (declared : message.metadata.schema? = some schema)
      (found : validation.registry.lookup schema = some entry)
      (unread : entry.decode message.payload = .error e) :
      Checks validation message []
        (.ok (.error (reject message schema ("payload does not decode as '" ++ schema ++ "'") (.error e))))
  | unquestioned {schema : String} {entry : SchemaEntry F} {event : DecodedEvent F}
      (declared : message.metadata.schema? = some schema)
      (found : validation.registry.lookup schema = some entry)
      (read : entry.decode message.payload = .ok event) (alone : validation.validator = none) :
      Checks validation message [] (.ok (.ok ()))
  | questioned {schema : String} {entry : SchemaEntry F} {event : DecodedEvent F} {id : ValidatorId}
      (declared : message.metadata.schema? = some schema)
      (found : validation.registry.lookup schema = some entry)
      (read : entry.decode message.payload = .ok event) (asked : validation.validator = some id)
      (reply : Reply Unit) :
      Checks validation message [⟨.validate id event, reply⟩]
        (reply.outcome.map fun verdict =>
          verdict.mapError fun e => reject message schema "payload rejected by validator" (.error e))

theorem ends_check {validation : SchemaValidation F} {message : Message} {schema : String}
    (declared : message.metadata.schema? = some schema) {t : Transcript F}
    {verdict : Except Panic (Except EventError Unit)}
    (ends : Ends (validation.check message schema) t verdict) : validation.Checks message t verdict := by
  unfold check at ends
  split at ends
  · next missing =>
      obtain ⟨rfl, rfl⟩ := ends_done.mp ends
      exact .unknown declared missing
  · next entry found =>
      split at ends
      · next e unread =>
          obtain ⟨rfl, rfl⟩ := ends_done.mp ends
          exact .undecodable declared found unread
      · next event read =>
          split at ends
          · next alone =>
              obtain ⟨rfl, rfl⟩ := ends_done.mp ends
              exact .unquestioned declared found read alone
          · next id asked =>
              obtain ⟨reply, u, rfl, answered⟩ := ends_perform.mp ends
              have questioned := Checks.questioned declared found read asked reply
              cases reply with
              | ok _ =>
                  obtain ⟨rfl, rfl⟩ := ends_done.mp answered
                  exact questioned
              | error e =>
                  obtain ⟨rfl, rfl⟩ := ends_done.mp answered
                  exact questioned
              | panic p =>
                  obtain ⟨rfl, rfl⟩ := ends_panic.mp answered
                  exact questioned

theorem ends_validate {validation : SchemaValidation F} {name : String} {next : Handler F}
    {message : Message} {t : Transcript F} {outcome : Handler.Outcome}
    (ends : Ends (validation.wrap name next message) t outcome) :
    ∃ checking verdict, validation.Checks message checking verdict ∧
      ((verdict = .ok (.ok ()) ∧ ∃ u, t = checking ++ u ∧ Ends (next message) u outcome) ∨
        (verdict ≠ .ok (.ok ()) ∧ t = checking ∧
          outcome = verdict.map fun result => result.map fun _ => [])) := by
  unfold wrap at ends
  split at ends
  · next absent =>
      obtain ⟨u, rfl, later⟩ := ends_note_bind.mp ends
      exact ⟨[_], _, .undeclared absent _, .inl ⟨rfl, u, rfl, later⟩⟩
  · next schema declared =>
      rcases ends_bind.mp ends with ⟨p, rfl, broken⟩ | ⟨verdict, checking, u, rfl, checked, later⟩
      · exact ⟨t, _, ends_check declared broken, .inr ⟨nofun, rfl, rfl⟩⟩
      · refine ⟨checking, _, ends_check declared checked, ?_⟩
        cases verdict with
        | ok _ => exact .inl ⟨rfl, u, rfl, later⟩
        | error e =>
            obtain ⟨rfl, rfl⟩ := ends_done.mp later
            exact .inr ⟨nofun, List.append_nil _, rfl⟩

end SchemaValidation

-- One call of the handler inside the retry stage, from its first question to its outcome.
structure Attempt (F : EventFamily) where
  transcript : Transcript F
  outcome : Handler.Outcome

-- What happens between an attempt that failed and the next one.
def retryPause (policy : RetryPolicy) (name : String) (tried : Nat) (record : TraceRecord) :
    Transcript F :=
  [⟨.note record, ()⟩, ⟨.count (.retried name), ()⟩, ⟨.sleep (policy.delay tried), ()⟩]

-- The attempts from number `tried` on, of which `left` may follow the first.
inductive Retries (policy : RetryPolicy) (name : String) (work : Program F (Except EventError (List Message))) :
    Nat → Nat → List (Attempt F) → Transcript F → Handler.Outcome → Prop where
  | last {tried left : Nat} {a : Attempt F} (ran : Ends work a.transcript a.outcome)
      (final : left = 0 ∨ ∀ e, a.outcome = .ok (.error e) → e.isRetryable = false) :
      Retries policy name work tried left [a] a.transcript a.outcome
  | again {tried left : Nat} {a : Attempt F} {e : EventError} {rest : List (Attempt F)}
      {t : Transcript F} {outcome : Handler.Outcome} (ran : Ends work a.transcript a.outcome)
      (failed : a.outcome = .ok (.error e)) (passing : e.isRetryable = true) (record : TraceRecord)
      (later : Retries policy name work (tried + 1) left rest t outcome) :
      Retries policy name work tried (left + 1) (a :: rest)
        (a.transcript ++ (retryPause policy name tried record ++ t)) outcome

-- Induction on the attempts left, as the retry loop runs.
theorem ends_attempt {policy : RetryPolicy} {name : String} {next : Handler F} {message : Message}
    {tried left : Nat} {t : Transcript F} {outcome : Handler.Outcome}
    (ends : Ends (attempt policy name next message tried left) t outcome) :
    ∃ attempts, Retries policy name (next message) tried left attempts t outcome := by
  induction left generalizing tried t with
  | zero => exact ⟨[⟨t, outcome⟩], .last (a := ⟨t, outcome⟩) ends (.inl rfl)⟩
  | succ left ih =>
      rcases ends_bind.mp ends with ⟨p, rfl, broken⟩ | ⟨result, tries, after, rfl, returned, later⟩
      · exact ⟨[⟨t, .error p⟩], .last (a := ⟨t, .error p⟩) broken (.inr nofun)⟩
      · cases result with
        | ok outputs =>
            obtain ⟨rfl, rfl⟩ := ends_done.mp later
            rw [List.append_nil]
            exact ⟨[⟨tries, .ok (.ok outputs)⟩], .last (a := ⟨tries, .ok (.ok outputs)⟩) returned (.inr nofun)⟩
        | error e =>
            dsimp only at later
            split at later
            · next passing =>
                obtain ⟨u, rfl, counting⟩ := ends_note_bind.mp later
                obtain ⟨v, rfl, sleeping⟩ := ends_count_bind.mp counting
                obtain ⟨_, w, rfl, more⟩ := ends_perform.mp sleeping
                obtain ⟨attempts, retries⟩ := ih more
                exact ⟨⟨tries, .ok (.error e)⟩ :: attempts,
                  .again (a := ⟨tries, .ok (.error e)⟩) returned rfl passing _ retries⟩
            · next final =>
                obtain ⟨rfl, rfl⟩ := ends_done.mp later
                rw [List.append_nil]
                refine ⟨[⟨tries, .ok (.error e)⟩], .last (a := ⟨tries, .ok (.error e)⟩) returned (.inr ?_)⟩
                intro other same
                cases same
                simpa using final

section Retries

variable {policy : RetryPolicy} {name : String} {work : Program F (Except EventError (List Message))}
  {tried left : Nat} {attempts : List (Attempt F)} {t : Transcript F} {outcome : Handler.Outcome}

theorem retries_ran (retries : Retries policy name work tried left attempts t outcome) :
    ∀ a ∈ attempts, Ends work a.transcript a.outcome := by
  induction retries with
  | last ran final =>
      intro a member
      cases List.mem_singleton.mp member
      exact ran
  | again ran failed passing record later ih =>
      intro a member
      rcases List.mem_cons.mp member with rfl | old
      · exact ran
      · exact ih a old

-- The result is the one of the last attempt, and nothing follows that attempt.
theorem retries_last (retries : Retries policy name work tried left attempts t outcome) :
    ∃ earlier a before, attempts = earlier ++ [a] ∧ t = before ++ a.transcript ∧ a.outcome = outcome := by
  induction retries with
  | @last tried left a ran final => exact ⟨[], a, [], rfl, rfl, rfl⟩
  | @again tried left a e rest t outcome ran failed passing record later ih =>
      obtain ⟨earlier, final, before, rfl, rfl, same⟩ := ih
      exact ⟨a :: earlier, final, a.transcript ++ (retryPause policy name tried record ++ before), rfl,
        by simp, same⟩

-- What looks at neither remarks nor pauses sees the attempts alone.
theorem retries_seen {β : Type} {look : Exchange F → Option β}
    (blind : ∀ tried record, (retryPause policy name tried record).filterMap look = [])
    (retries : Retries policy name work tried left attempts t outcome) :
    t.filterMap look = attempts.flatMap fun a => a.transcript.filterMap look := by
  induction retries with
  | last ran final => simp
  | again ran failed passing record later ih =>
      rw [List.filterMap_append, List.filterMap_append, blind, List.nil_append, ih, List.flatMap_cons]

end Retries

namespace Service

-- The handler of a route with the outbox around it, if there is one: what the retry stage calls.
def core (service : Service F) (route : Route F) : Handler F :=
  match service.outbox with
  | none => route.handler
  | some store => recordWith store route.name route.handler

theorem core_only {allowed : Effect F → Prop} {service : Service F} {route : Route F} {message : Message}
    (noted : ∀ record, allowed (.note record))
    (written : ∀ store eventType messageId payload, allowed (.store store eventType messageId payload))
    (confined : (route.handler message).Only allowed) : (service.core route message).Only allowed := by
  unfold core
  cases service.outbox with
  | none => exact confined
  | some store =>
      refine only_bind confined fun result => ?_
      cases result with
      | error e => trivial
      | ok outputs =>
          refine only_bind (only_store_all noted (written store) outputs) fun stored => ?_
          cases stored <;> trivial

def validation (service : Service F) : SchemaValidation F := ⟨service.registry, service.validator⟩

theorem inner_eq (service : Service F) (route : Route F) :
    service.inner route = correlate (logAround route.name (traceAround route.name
      (service.validation.wrap route.name
        (retryWith service.config.retry route.name (service.core route))))) := by
  unfold inner innerChain core
  cases service.outbox <;> rfl

-- The parts of a run of the inner stages, with the calls that the retry stage made.
inductive Passage (service : Service F) (route : Route F) (message : Message) :
    List (Attempt F) → Transcript F → Handler.Outcome → Prop where
  | rejected {fresh before checking after : Transcript F} {received : Message}
      {verdict : Except Panic (Except EventError Unit)} (correlated : message.Correlated fresh received)
      (entering : Notes before) (leaving : Notes after)
      (checks : service.validation.Checks received checking verdict) (bad : verdict ≠ .ok (.ok ())) :
      Passage service route message [] (fresh ++ (before ++ (checking ++ after)))
        (verdict.map fun result => result.map fun _ => [])
  | admitted {fresh before checking tries after : Transcript F} {received : Message}
      {attempts : List (Attempt F)} {outcome : Handler.Outcome}
      (correlated : message.Correlated fresh received) (entering : Notes before)
      (leaving : Notes after) (checks : service.validation.Checks received checking (.ok (.ok ())))
      (retries : Retries service.config.retry route.name (service.core route received) 0
        service.config.retry.maxRetries.toNat attempts tries outcome) :
      Passage service route message attempts (fresh ++ (before ++ (checking ++ (tries ++ after)))) outcome

theorem ends_inner {service : Service F} {route : Route F} {message : Message} {t : Transcript F}
    {outcome : Handler.Outcome} (ends : Ends (service.inner route message) t outcome) :
    ∃ attempts, service.Passage route message attempts t outcome := by
  rw [inner_eq] at ends
  obtain ⟨fresh, received, u, rfl, correlated, logged⟩ := ends_correlate ends
  obtain ⟨before₁, v, after₁, rfl, entering₁, leaving₁, traced⟩ := ends_log_around logged
  obtain ⟨before₂, w, after₂, rfl, entering₂, leaving₂, validated⟩ := ends_trace_around traced
  obtain ⟨checking, verdict, checks, fate⟩ := SchemaValidation.ends_validate validated
  have entering := notes_append entering₁ entering₂
  have leaving := notes_append leaving₂ leaving₁
  rcases fate with ⟨rfl, tries, rfl, tried⟩ | ⟨bad, rfl, rfl⟩
  · obtain ⟨attempts, retries⟩ := ends_attempt tried
    exact ⟨attempts, by simpa using Passage.admitted correlated entering leaving checks retries⟩
  · exact ⟨[], by simpa using Passage.rejected correlated entering leaving checks bad⟩

-- Either the message was turned away before the first attempt, or its last attempt had the final say.
theorem ends_inner_last {service : Service F} {route : Route F} {message : Message} {t : Transcript F}
    {outcome : Handler.Outcome} (ends : Ends (service.inner route message) t outcome) :
    (∃ received checking verdict, service.validation.Checks received checking verdict ∧
        verdict ≠ .ok (.ok ()) ∧ outcome = verdict.map fun result => result.map fun _ => []) ∨
      ∃ (fresh : Transcript F) (received : Message) (before attempt after : Transcript F),
        message.Correlated fresh received ∧ t = fresh ++ (before ++ (attempt ++ after)) ∧
        Ends (service.core route received) attempt outcome ∧ Remarks after := by
  obtain ⟨attempts, passage⟩ := ends_inner ends
  cases passage with
  | @rejected fresh before checking after received verdict correlated entering leaving checks bad =>
      exact .inl ⟨received, checking, verdict, checks, bad, rfl⟩
  | @admitted fresh before checking tries after received _ _ correlated entering leaving checks retries =>
      obtain ⟨earlier, a, early, rfl, rfl, same⟩ := retries_last retries
      have ran := retries_ran retries a (by simp)
      rw [same] at ran
      exact .inr ⟨fresh, received, before ++ (checking ++ early), a.transcript, after, correlated, by simp,
        ran, remarks_of_notes leaving⟩

end Service

theorem outer_of_remark {effect : Effect F} (remark : effect.isRemark = true) : effect.isOuter = true := by
  cases effect with
  | note record => rfl
  | count m => exact remark
  | _ => cases remark

theorem ruling_outer {poison : PoisonQueue} {name : String} {message : Message}
    {inside outcome : Handler.Outcome} {later : Transcript F}
    (ruling : poison.Ruling name message inside later outcome) : ∀ x ∈ later, x.effect.isOuter = true := by
  have decided : ∀ e, (poison.classifier.decide e).Only fun effect : Effect F => effect.isOuter = true :=
    fun e => only_decide (fun _ _ => rfl) poison.classifier e
  cases ruling with
  | broken p => exact fun _ member => nomatch member
  | passed outputs => exact fun _ member => nomatch member
  | undecided decision => exact leads_only (decided _) decision
  | spared decision => exact leads_only (decided _) decision
  | diverted decision diversion =>
      intro x member
      rcases List.mem_append.mp member with early | late
      · exact leads_only (decided _) decision x early
      · exact leads_only (only_divert (fun _ => outer_of_remark) rfl _) diversion x late

-- What the outermost stages make of the outcome of the inner ones, and what they ask meanwhile.
inductive Service.Wraps (service : Service F) (route : Route F) (message : Message)
    (inside : Handler.Outcome) : Transcript F → Handler.Outcome → Prop where
  | plain (absent : service.poison? = none) {closing : Transcript F} (leaving : Remarks closing) :
      Wraps service route message inside closing (.ok (recovered inside))
  | guarded {poison : PoisonQueue} (found : service.poison? = some poison) {later closing : Transcript F}
      {ruled : Handler.Outcome} (ruling : poison.Ruling route.name message inside later ruled)
      (leaving : Remarks closing) :
      Wraps service route message inside (later ++ closing) (.ok (recovered ruled))

theorem ends_pipeline_inner {service : Service F} {route : Route F} {message : Message}
    {t : Transcript F} {outcome : Handler.Outcome}
    (ends : Ends (service.pipeline route message) t outcome) :
    ∃ inner inside after, t = inner ++ after ∧ Ends (service.inner route message) inner inside ∧
      service.Wraps route message inside after outcome := by
  rw [pipeline_eq] at ends
  have split : ∃ guarded closing ruled, t = guarded ++ closing ∧
      Ends (service.guarded route message) guarded ruled ∧ outcome = .ok (recovered ruled) ∧
      Remarks closing := by
    obtain ⟨guarded, ruled, record, same, inside, returned⟩ := ends_rescued ends
    exact ⟨guarded, _, ruled, same, inside, returned, remarks_of_rescue route.name record ruled⟩
  obtain ⟨guarded, closing, ruled, rfl, inside, rfl, leaving⟩ := split
  cases found : service.poison? with
  | none =>
      rw [guarded_none found] at inside
      exact ⟨guarded, ruled, closing, rfl, inside, .plain found leaving⟩
  | some poison =>
      rw [guarded_some found] at inside
      obtain ⟨tries, result, later, rfl, tried, ruling⟩ := PoisonQueue.ends_wrap inside
      exact ⟨tries, result, later ++ closing, List.append_assoc _ _ _, tried, .guarded found ruling leaving⟩

section Wraps

variable {service : Service F} {route : Route F} {message : Message} {inside outcome : Handler.Outcome}
  {after : Transcript F}

theorem wraps_outer (wraps : service.Wraps route message inside after outcome) :
    ∀ x ∈ after, x.effect.isOuter = true := by
  cases wraps with
  | plain absent leaving => exact fun x member => outer_of_remark (leaving x member)
  | guarded found ruling leaving =>
      intro x member
      exact (List.mem_append.mp member).elim (ruling_outer ruling x) fun late => outer_of_remark (leaving x late)

theorem remarks_unsent {t : Transcript F} (remarks : Remarks t) : sent t = [] := by
  rw [sent, (quiet_of_remarks remarks).1]
  rfl

theorem ruling_letter {poison : PoisonQueue} {name : String} {inside ruled : Handler.Outcome}
    {later : Transcript F} (ruling : poison.Ruling name message inside later ruled) :
    ∀ p ∈ sent later, ∃ e, inside = .ok (.error e) ∧ p = ⟨poison.broker, poison.queue, message⟩ := by
  cases ruling with
  | broken p => exact fun _ member => nomatch member
  | passed outputs => exact fun _ member => nomatch member
  | undecided decision => simp [sent, (PoisonQueue.decide_quiet decision).1]
  | spared decision => simp [sent, (PoisonQueue.decide_quiet decision).1]
  | @diverted e deciding diverting outcome decision diversion =>
      obtain ⟨reply, letter, -⟩ := PoisonQueue.ends_divert diversion
      intro p member
      rw [sent, publishes_append, (PoisonQueue.decide_quiet decision).1, letter] at member
      exact ⟨e, rfl, List.mem_singleton.mp member⟩

-- All that is sent around the inner stages is the dead letter of a message that failed in them.
theorem wraps_letter (wraps : service.Wraps route message inside after outcome) :
    ∀ p ∈ sent after, ∃ poison e, service.poison? = some poison ∧ inside = .ok (.error e) ∧
      p = ⟨poison.broker, poison.queue, message⟩ := by
  cases wraps with
  | plain absent leaving => simp [remarks_unsent leaving]
  | @guarded poison found later closing ruled ruling leaving =>
      rw [sent_append, remarks_unsent leaving, List.append_nil]
      intro p member
      obtain ⟨e, failed, same⟩ := ruling_letter ruling p member
      exact ⟨poison, e, found, failed, same⟩

theorem wraps_outputs (wraps : service.Wraps route message inside after outcome) {outputs : List Message}
    (returned : outcome = .ok (.ok outputs)) (present : outputs ≠ []) : inside = .ok (.ok outputs) := by
  have unchanged : ∀ result : Handler.Outcome, .ok (recovered result) = outcome →
      result = .ok (.ok outputs) := by
    intro result same
    rw [returned] at same
    cases result with
    | ok result => exact congrArg Except.ok (Except.ok.inj same)
    | error p => cases same
  cases wraps with
  | plain absent leaving => exact unchanged inside rfl
  | guarded found ruling leaving =>
      have ruled := unchanged _ rfl
      cases ruling with
      | diverted decision diversion =>
          obtain ⟨reply, -, same⟩ := PoisonQueue.ends_divert diversion
          rw [ruled] at same
          cases reply with
          | ok _ => cases same; exact absurd rfl present
          | error e => cases same
          | panic p => cases same
      | broken p => exact ruled
      | passed outputs => exact ruled
      | undecided decision => cases ruled
      | spared decision => cases ruled

end Wraps

-- Once its pipeline has returned, a route goes on as if the pipeline had been the result itself.
theorem ends_process_after {route : Route F} {handler : Handler F} {message : Message} {t : Transcript F}
    {outcome : Except Panic Unit} (ends : Ends (route.process handler message) t outcome) :
    (∃ p u, outcome = .error p ∧ t = ⟨.count (.received route.name), ()⟩ :: u ∧
        Ends (handler message) u (.error p)) ∨
      ∃ handled result after, t = ⟨.count (.received route.name), ()⟩ :: (handled ++ after) ∧
        Ends (handler message) handled (.ok result) ∧
        Ends (route.process (fun _ => .done result) message) (⟨.count (.received route.name), ()⟩ :: after)
          outcome := by
  obtain ⟨u, rfl, dispatched⟩ := ends_count_bind.mp ends
  rcases ends_bind.mp dispatched with ⟨p, rfl, broken⟩ | ⟨fate, u, concluding, rfl, delivered, ending⟩
  · rcases ends_bind.mp broken with ⟨q, same, inside⟩ | ⟨result, handled, after, rfl, returned, sending⟩
    · cases same
      exact .inl ⟨p, _, rfl, rfl, inside⟩
    · exact .inr ⟨handled, result, after, rfl, returned,
        ends_count_bind.mpr ⟨after, rfl, ends_bind.mpr (.inl ⟨p, rfl, sending⟩)⟩⟩
  · rcases ends_bind.mp delivered with ⟨q, same, -⟩ | ⟨result, handled, after, rfl, returned, sending⟩
    · cases same
    · exact .inr ⟨handled, result, after ++ concluding, by simp, returned, ends_count_bind.mpr
        ⟨_, rfl, ends_bind.mpr (.inr ⟨fate, after, concluding, rfl, sending, ending⟩)⟩⟩

-- Around the pipeline a route asks for nothing but outer effects either.
theorem ends_process_pipeline {route : Route F} {handler : Handler F} {message : Message}
    {t : Transcript F} {outcome : Except Panic Unit} (ends : Ends (route.process handler message) t outcome) :
    ∃ handled result after, t = ⟨.count (.received route.name), ()⟩ :: (handled ++ after) ∧
      Ends (handler message) handled result ∧ ∀ x ∈ after, x.effect.isOuter = true := by
  rcases ends_process_after ends with ⟨p, u, -, rfl, broken⟩ | ⟨handled, result, after, rfl, returned, rest⟩
  · exact ⟨u, _, [], by rw [List.append_nil], broken, fun _ member => nomatch member⟩
  · let returning : Handler F := fun _ => .done result
    have confined : returning.Only fun effect => effect.isOuter = true := fun _ => trivial
    have outer : (route.process returning message).Only fun effect => effect.isOuter = true :=
      process_only (fun _ => outer_of_remark) (fun _ _ _ => rfl) (fun _ => rfl) confined message
    exact ⟨handled, _, after, rfl, returned,
      fun x member => leads_only outer rest x (List.mem_cons_of_mem _ member)⟩

end EventPipeline

import EventPipeline.Proofs.Recording

/-!
Which messages reach a typed handler. The check of the declared schema and the decoder of the handler
both stand before the call; a message that fails one of them is rejected for good, with the payload it
came with.
-/

set_option autoImplicit false

namespace EventPipeline

open Program Transcript

variable {F : EventFamily}

namespace SchemaValidation

-- What the validator is asked about a message, if it is asked.
def questions (validation : SchemaValidation F) (message : Message) : List (Question F) :=
  match message.metadata.schema?.bind validation.registry.lookup, validation.validator with
  | some entry, some id =>
      match entry.decode message.payload with
      | .ok event => [(id, event)]
      | .error _ => []
  | _, _ => []

-- The declared schema, if there is one, is registered, fits the payload and is fine with the validator.
def Admits (validation : SchemaValidation F) (message : Message)
    (answers : List (Question F × Reply Unit)) : Prop :=
  ∀ schema, message.metadata.schema? = some schema →
    ∃ entry event, validation.registry.lookup schema = some entry ∧
      entry.decode message.payload = .ok event ∧
      ∀ id, validation.validator = some id → ((id, event), .ok ()) ∈ answers

-- The error for a message that the handler does not get to see, with the reason for it.
inductive Rejection (validation : SchemaValidation F) {input : F.Kind}
    (decoder : Codec (F.Value input)) (message : Message) (answers : List (Question F × Reply Unit)) :
    EventError → Prop where
  | unknown {schema : String} (declared : message.metadata.schema? = some schema)
      (missing : validation.registry.lookup schema = none) :
      Rejection validation decoder message answers
        (.unprocessable message.payload (some schema) ("schema '" ++ schema ++ "' is not registered") .unknown)
  | undecodable {schema : String} {entry : SchemaEntry F} {e : EventError}
      (declared : message.metadata.schema? = some schema)
      (found : validation.registry.lookup schema = some entry)
      (unread : entry.decode message.payload = .error e) :
      Rejection validation decoder message answers
        (.unprocessable message.payload (some schema) ("payload does not decode as '" ++ schema ++ "'")
          (.error e))
  | refused {schema : String} {entry : SchemaEntry F} {event : DecodedEvent F} {id : ValidatorId}
      {e : EventError} (declared : message.metadata.schema? = some schema)
      (found : validation.registry.lookup schema = some entry)
      (read : entry.decode message.payload = .ok event) (asked : validation.validator = some id)
      (answered : ((id, event), .error e) ∈ answers) :
      Rejection validation decoder message answers
        (.unprocessable message.payload (some schema) "payload rejected by validator" (.error e))
  | unreadable {e : EventError} (admitted : validation.Admits message answers)
      (unread : decoder.decode message.payload = .error e) :
      Rejection validation decoder message answers
        (.unprocessable message.payload (some (F.schema input)) ("cannot decode payload as " ++ F.schema input)
          (.error e))

-- A correlation id changes nothing that the check looks at.
theorem checks_correlated {validation : SchemaValidation F} {message received : Message}
    {fresh t : Transcript F} {verdict : Except Panic (Except EventError Unit)}
    (correlated : message.Correlated fresh received) (checks : validation.Checks received t verdict) :
    validation.Checks message t verdict := by
  cases correlated with
  | kept known => exact checks
  | filled bare id =>
      have schema := message.metadata.schema_set_correlation id
      cases checks with
      | undeclared absent record => exact .undeclared (schema ▸ absent) record
      | unknown declared missing => exact .unknown (schema ▸ declared) missing
      | undecodable declared found unread => exact .undecodable (schema ▸ declared) found unread
      | unquestioned declared found read alone => exact .unquestioned (schema ▸ declared) found read alone
      | @questioned name entry event validator declared found read asked reply =>
          have known : message.metadata.schema? = some name := schema ▸ declared
          exact .questioned known found read asked reply

section Checks

variable {validation : SchemaValidation F} {message : Message} {t : Transcript F}
  {verdict : Except Panic (Except EventError Unit)}

theorem checks_questions (checks : validation.Checks message t verdict) :
    (validations t).map (·.1) = validation.questions message := by
  unfold questions
  cases checks with
  | undeclared absent record => rw [absent]; rfl
  | unknown declared missing => rw [declared, Option.bind_some, missing]; rfl
  | undecodable declared found unread =>
      rw [declared, Option.bind_some, found]
      cases validation.validator with
      | none => rfl
      | some id => simp only [unread]; rfl
  | unquestioned declared found read alone => rw [declared, Option.bind_some, found, alone]; rfl
  | questioned declared found read asked reply =>
      rw [declared, Option.bind_some, found, asked]
      simp only [read]
      rfl

theorem checks_admit_iff (checks : validation.Checks message t verdict) :
    verdict = .ok (.ok ()) ↔ validation.Admits message (validations t) := by
  constructor
  · intro fine schema declared
    cases checks with
    | undeclared absent record => rw [absent] at declared; cases declared
    | unknown _ _ => cases fine
    | undecodable _ _ _ => cases fine
    | @unquestioned _ entry event known found read alone =>
        rw [known] at declared
        cases declared
        exact ⟨entry, event, found, read, fun id asked => by rw [alone] at asked; cases asked⟩
    | @questioned _ entry event id known found read asked reply =>
        rw [known] at declared
        cases declared
        refine ⟨entry, event, found, read, fun other same => ?_⟩
        rw [asked] at same
        cases same
        cases reply with
        | ok _ => exact List.mem_singleton.mpr rfl
        | error e => cases fine
        | panic p => cases fine
  · intro admitted
    cases checks with
    | undeclared _ _ => rfl
    | unquestioned _ _ _ _ => rfl
    | unknown declared missing =>
        obtain ⟨entry, event, found, -⟩ := admitted _ declared
        rw [missing] at found
        cases found
    | undecodable declared known unread =>
        obtain ⟨entry, event, found, read, -⟩ := admitted _ declared
        rw [known] at found
        cases found
        rw [unread] at read
        cases read
    | questioned declared known read asked reply =>
        obtain ⟨entry, event, found, read₁, answered⟩ := admitted _ declared
        cases List.mem_singleton.mp (answered _ asked)
        rfl

theorem checks_rejection {input : F.Kind} (decoder : Codec (F.Value input)) {e : EventError}
    (checks : validation.Checks message t (.ok (.error e))) :
    validation.Rejection decoder message (validations t) e := by
  generalize same : (Except.ok (.error e) : Except Panic (Except EventError Unit)) = verdict at checks
  cases checks with
  | undeclared _ _ => cases same
  | unquestioned _ _ _ _ => cases same
  | unknown declared missing => cases same; exact .unknown declared missing
  | undecodable declared found unread => cases same; exact .undecodable declared found unread
  | questioned declared found read asked reply =>
      cases reply with
      | ok _ => cases same
      | panic p => cases same
      | error e => cases same; exact .refused declared found read asked (List.mem_singleton.mpr rfl)

theorem checks_panicked {p : Panic} (checks : validation.Checks message t (.error p)) :
    ∃ question, (question, .panic p) ∈ validations t := by
  generalize same : (Except.error p : Except Panic (Except EventError Unit)) = verdict at checks
  cases checks with
  | questioned declared found read asked reply =>
      cases reply with
      | ok _ => cases same
      | error e => cases same
      | panic q => cases same; exact ⟨_, List.mem_singleton.mpr rfl⟩
  | _ => cases same

end Checks

end SchemaValidation

section Typed

variable {id : HandlerId} {input output : F.Kind} {decoder : Codec (F.Value input)}
  {encoder : Codec (F.Value output)}

theorem typed_undecodable {message : Message} {e : EventError}
    (unread : decoder.decode message.payload = .error e) :
    Handler.typed id input output decoder encoder message =
      .done (.error (.unprocessable message.payload (some (F.schema input))
        ("cannot decode payload as " ++ F.schema input) (.error e))) := by
  simp only [Handler.typed, unread]
  rfl

theorem ends_typed {message : Message} {value : F.Value input}
    (read : decoder.decode message.payload = .ok value) {t : Transcript F} {outcome : Handler.Outcome}
    (ends : Ends (Handler.typed id input output decoder encoder message) t outcome) :
    ∃ reply named, t = ⟨.callTyped id input output ⟨value, message.metadata, message.uuid⟩, reply⟩ :: named ∧
      ∀ x ∈ named, x.effect = .freshId := by
  simp only [Handler.typed, read] at ends
  obtain ⟨reply, named, rfl, answered⟩ := ends_perform.mp ends
  refine ⟨reply, named, rfl, @leads_only _ _ (· = .freshId) _ _ _ ?_ answered⟩
  refine only_bind (only_of_reply reply) fun result => ?_
  cases result with
  | ok outputs => exact @only_encode_all _ (· = .freshId) _ _ _ rfl outputs
  | error e => trivial

variable {service : Service F} {route : Route F}

theorem core_undecodable (typed : route.handler = .typed id input output decoder encoder)
    {message : Message} {e : EventError} (unread : decoder.decode message.payload = .error e) :
    service.core route message =
      .done (.error (.unprocessable message.payload (some (F.schema input))
        ("cannot decode payload as " ++ F.schema input) (.error e))) := by
  have failed : Handler.typed id input output decoder encoder message = _ := typed_undecodable unread
  unfold Service.core
  rw [typed]
  cases service.outbox with
  | none => exact failed
  | some store =>
      simp only [recordWith, failed]
      rfl

theorem ends_core_typed (typed : route.handler = .typed id input output decoder encoder)
    {message : Message} {value : F.Value input} (read : decoder.decode message.payload = .ok value)
    {t : Transcript F} {outcome : Handler.Outcome} (ends : Ends (service.core route message) t outcome) :
    calls t = [.callTyped id input output ⟨value, message.metadata, message.uuid⟩] ∧ validations t = [] := by
  obtain ⟨called, writing, result, rfl, returned, recording, -⟩ := ends_core ends
  rw [typed] at returned
  obtain ⟨reply, named, rfl, fresh⟩ := ends_typed read returned
  have quiet : ∀ x ∈ named ++ writing, x.effect.isInquiry = false := by
    rintro ⟨effect, answer⟩ member
    rcases List.mem_append.mp member with early | late
    · have same := fresh _ early
      cases same
      rfl
    · have recorded := recording _ late
      cases effect <;> first | rfl | cases recorded
  obtain ⟨uncalled, unasked⟩ := unasked_of_no_inquiry quiet
  exact ⟨congrArg (_ :: ·) uncalled, unasked⟩

-- Nothing is asked about a message that the handler cannot read, however often it could be tried.
theorem retries_hopeless {policy : RetryPolicy} {name : String} {e : EventError} {tried left : Nat}
    {attempts : List (Attempt F)} {t : Transcript F} {outcome : Handler.Outcome}
    (hopeless : e.isRetryable = false)
    (retries : Retries policy name (.done (.error e)) tried left attempts t outcome) :
    t = [] ∧ outcome = .ok (.error e) := by
  cases retries with
  | last ran final => exact ends_done.mp ran
  | again ran failed passing record later =>
      obtain ⟨-, same⟩ := ends_done.mp ran
      rw [failed] at same
      cases same
      rw [hopeless] at passing
      cases passing

theorem retries_typed {policy : RetryPolicy} {name : String}
    (typed : route.handler = .typed id input output decoder encoder) {message : Message}
    {value : F.Value input} (read : decoder.decode message.payload = .ok value) {tried left : Nat}
    {attempts : List (Attempt F)} {t : Transcript F} {outcome : Handler.Outcome}
    (retries : Retries policy name (service.core route message) tried left attempts t outcome) :
    calls t ≠ [] ∧ validations t = [] ∧
      ∀ call ∈ calls t, call = .callTyped id input output ⟨value, message.metadata, message.uuid⟩ := by
  have ran := retries_ran retries
  have called : calls t = attempts.flatMap fun a => calls a.transcript :=
    retries_seen (fun _ _ => rfl) retries
  have asked : validations t = attempts.flatMap fun a => validations a.transcript :=
    retries_seen (fun _ _ => rfl) retries
  have each := fun a member => ends_core_typed typed read (ran a member)
  refine ⟨?_, ?_, ?_⟩
  · obtain ⟨earlier, a, before, rfl, -, -⟩ := retries_last retries
    rw [called, List.flatMap_append, List.flatMap_singleton, (each a (by simp)).1]
    simp
  · rw [asked]
    exact List.flatMap_eq_nil_iff.mpr fun a member => (each a member).2
  · intro call member
    rw [called] at member
    obtain ⟨a, within, here⟩ := List.mem_flatMap.mp member
    rw [(each a within).1] at here
    exact List.mem_singleton.mp here

-- What becomes of a message in front of a typed handler: it is shown to it, or rejected unseen.
inductive Intake (validation : SchemaValidation F) (id : HandlerId) {input : F.Kind} (output : F.Kind)
    (decoder : Codec (F.Value input)) (message received : Message) (t : Transcript F) :
    Handler.Outcome → Prop where
  | shown {value : F.Value input} {outcome : Handler.Outcome}
      (admitted : validation.Admits message (validations t))
      (read : decoder.decode message.payload = .ok value) (called : calls t ≠ [])
      (each : ∀ call ∈ calls t, call = .callTyped id input output ⟨value, received.metadata, message.uuid⟩) :
      Intake validation id output decoder message received t outcome
  | unseen {e : EventError} (uncalled : calls t = []) (unwritten : writes t = [])
      (once : ∀ x ∈ t, x.effect.isRetry = false)
      (barred : ¬ (validation.Admits message (validations t) ∧
        ∃ value, decoder.decode message.payload = .ok value))
      (rejection : validation.Rejection decoder message (validations t) e) :
      Intake validation id output decoder message received t (.ok (.error e))

theorem intake_framed {validation : SchemaValidation F} {message received : Message}
    {before after t : Transcript F} {outcome : Handler.Outcome} (entering : Idle before)
    (leaving : Idle after)
    (intake : Intake validation id output decoder message received t outcome) :
    Intake validation id output decoder message received (before ++ (t ++ after)) outcome := by
  obtain ⟨sameCalls, sameWrites, sameValidations, framed⟩ := framed_quiet entering leaving t
  cases intake with
  | shown admitted read called each =>
      exact .shown (sameValidations ▸ admitted) read (sameCalls ▸ called) (sameCalls ▸ each)
  | unseen uncalled unwritten once barred rejection =>
      exact .unseen (sameCalls.trans uncalled) (sameWrites.trans unwritten) (framed once)
        (sameValidations ▸ barred) (sameValidations ▸ rejection)

theorem passage_intake (typed : route.handler = .typed id input output decoder encoder)
    {message : Message} {attempts : List (Attempt F)} {t : Transcript F} {outcome : Handler.Outcome}
    (passage : service.Passage route message attempts t outcome)
    (returning : ∀ question p, (question, .panic p) ∉ validations t) :
    ∃ fresh received rest, t = fresh ++ rest ∧ message.Correlated fresh received ∧
      (validations t).map (·.1) = service.validation.questions message ∧
      Intake service.validation id output decoder message received t outcome := by
  cases passage with
  | @rejected fresh before checking after received verdict correlated entering leaving checks bad =>
      obtain ⟨-, -, idle⟩ := correlated_payload correlated
      have framed := framed_quiet (idle_append idle (idle_of_notes entering)) (idle_of_notes leaving) checking
      have known := SchemaValidation.checks_correlated correlated checks
      refine ⟨fresh, received, _, rfl, correlated, ?_, ?_⟩
      · rw [← List.append_assoc, framed.2.2.1]
        exact SchemaValidation.checks_questions known
      · cases verdict with
        | error p =>
            obtain ⟨question, panicked⟩ := SchemaValidation.checks_panicked known
            rw [← List.append_assoc, framed.2.2.1] at returning
            exact absurd panicked (returning question p)
        | ok result =>
            cases result with
            | ok _ => exact absurd rfl bad
            | error e =>
                obtain ⟨uncalled, unwritten, once⟩ := checks_uncalled known
                rw [← List.append_assoc]
                apply intake_framed (idle_append idle (idle_of_notes entering)) (idle_of_notes leaving)
                refine .unseen uncalled unwritten once ?_ (SchemaValidation.checks_rejection decoder known)
                intro fine
                exact bad ((SchemaValidation.checks_admit_iff known).mpr fine.1)
  | @admitted fresh before checking tries after received _ outcome correlated entering leaving checks
      retries =>
      obtain ⟨payload, uuid, idle⟩ := correlated_payload correlated
      have known := SchemaValidation.checks_correlated correlated checks
      have fine := (SchemaValidation.checks_admit_iff known).mp rfl
      obtain ⟨uncalled, unwritten, once⟩ := checks_uncalled known
      have whole : fresh ++ (before ++ (checking ++ (tries ++ after))) =
          (fresh ++ before) ++ ((checking ++ tries) ++ after) := by simp
      have entering := idle_append idle (idle_of_notes entering)
      have leaving := idle_of_notes leaving
      refine ⟨fresh, received, _, rfl, correlated, ?_⟩
      rw [whole, (framed_quiet entering leaving (checking ++ tries)).2.2.1]
      cases read : decoder.decode message.payload with
      | error e =>
          rw [core_undecodable typed (payload ▸ read), payload] at retries
          obtain ⟨rfl, rfl⟩ := retries_hopeless rfl retries
          rw [List.append_nil]
          refine ⟨SchemaValidation.checks_questions known, intake_framed entering leaving ?_⟩
          refine .unseen uncalled unwritten once ?_ (.unreadable fine read)
          rintro ⟨-, value, decoded⟩
          rw [read] at decoded
          cases decoded
      | ok value =>
          obtain ⟨called, unasked, each⟩ := retries_typed typed (payload ▸ read) retries
          rw [validations_append, unasked, List.append_nil]
          refine ⟨SchemaValidation.checks_questions known, intake_framed entering leaving (.shown ?_ read ?_ ?_)⟩
          · rwa [validations_append, unasked, List.append_nil]
          · rwa [calls_append, uncalled, List.nil_append]
          · rw [calls_append, uncalled, List.nil_append, ← uuid]
            exact each

end Typed

def Surroundings.ValidatorsReturn (s : Surroundings F) : Prop :=
  ∀ past id event p, s past (.validate id event) ≠ .panic p

theorem validations_return {α : Type} {s : Surroundings F} (returning : s.ValidatorsReturn)
    (p : Program F α) {question : Question F} {panic : Panic} :
    (question, .panic panic) ∉ validations (play s [] p).1 := by
  intro member
  obtain ⟨x, within, found⟩ := List.mem_filterMap.mp member
  obtain ⟨before, effect, rfl⟩ := answer_of_mem_play s [] p within
  cases effect with
  | validate id event =>
      obtain ⟨-, same⟩ := Prod.mk.inj (Option.some.inj found)
      exact returning before id event panic same
  | _ => cases found

theorem typed_handler_sees_valid_messages {service : Service F} {route : Route F} {id : HandlerId}
    {input output : F.Kind} {decoder : Codec (F.Value input)} {encoder : Codec (F.Value output)}
    (typed : route.handler = .typed id input output decoder encoder) (message : Message)
    {s : Surroundings F} (returning : s.ValidatorsReturn) :
    ∃ fresh received inner inside after,
      let run := play s [] (route.process (service.pipeline route) message)
      let answers := validations run.1
      run.1 = ⟨.count (.received route.name), ()⟩ :: (inner ++ after) ∧
      Ends (service.inner route message) inner inside ∧
      fresh <+: inner ∧ message.Correlated fresh received ∧
      answers.map (·.1) = service.validation.questions message ∧
      (calls run.1 ≠ [] ↔ service.validation.Admits message answers ∧
        ∃ value, decoder.decode message.payload = .ok value) ∧
      (∀ call ∈ calls run.1, ∃ value, decoder.decode message.payload = .ok value ∧
        call = .callTyped id input output ⟨value, received.metadata, message.uuid⟩) ∧
      (calls run.1 = [] → writes run.1 = [] ∧ (∀ x ∈ run.1, x.effect.isRetry = false) ∧
        ∃ e, service.validation.Rejection decoder message answers e ∧ inside = .ok (.error e) ∧
          (service.poison? = none → ∃ handled, handled <+: inner ++ after ∧
            Ends (service.pipeline route message) handled (.ok (.error e)))) := by
  obtain ⟨handled, result, later, whole, piped, outside⟩ :=
    ends_process_pipeline (ends_play s [] (route.process (service.pipeline route) message))
  obtain ⟨inner, inside, closing, rfl, tried, wraps⟩ := ends_pipeline_inner piped
  have idle : Idle (closing ++ later) :=
    idle_append (fun x member => idle_of_outer (wraps_outer wraps x member))
      fun x member => idle_of_outer (outside x member)
  have opening : Idle [(⟨.count (.received route.name), ()⟩ : Exchange F)] :=
    fun x member => List.mem_singleton.mp member ▸ rfl
  have split : (play s [] (route.process (service.pipeline route) message)).1 =
      [⟨.count (.received route.name), ()⟩] ++ (inner ++ (closing ++ later)) := by
    rw [whole]
    simp
  obtain ⟨-, -, sameValidations, -⟩ := framed_quiet opening idle inner
  have returned : ∀ question p, (question, .panic p) ∉ validations inner := by
    intro question p
    rw [← sameValidations, ← split]
    exact validations_return returning _
  obtain ⟨attempts, passage⟩ := Service.ends_inner tried
  obtain ⟨fresh, received, rest, front, correlated, questions, intake⟩ := passage_intake typed passage returned
  have framed := intake_framed opening idle intake
  rw [← split] at framed sameValidations
  refine ⟨fresh, received, inner, inside, closing ++ later, split, tried, ⟨rest, front.symm⟩, correlated,
    ?_, ?_, ?_, ?_⟩
  · rw [sameValidations]
    exact questions
  · cases framed with
    | shown admitted read called each => exact ⟨fun _ => ⟨admitted, _, read⟩, fun _ => called⟩
    | unseen uncalled unwritten once barred rejection =>
        exact ⟨fun called => absurd uncalled called, fun fine => absurd fine barred⟩
  · intro call member
    cases framed with
    | shown admitted read called each => exact ⟨_, read, each call member⟩
    | unseen uncalled unwritten once barred rejection =>
        rw [uncalled] at member
        cases member
  · intro silent
    cases framed with
    | shown admitted read called each => exact absurd silent called
    | @unseen e uncalled unwritten once barred rejection =>
        refine ⟨unwritten, once, e, rejection, rfl, fun absent => ?_⟩
        cases wraps with
        | plain _ _ => exact ⟨inner ++ closing, by simp, piped⟩
        | guarded found _ _ => rw [absent] at found; cases found

-- A route for pings, with a validator and an outbox.
def pingRegistration : Registration Events.family :=
  { (Registration.ofQueue "in").withTyped 0 Events.Kind.ping Events.Kind.ping
      (Events.Kind.codec .ping) (Events.Kind.codec .ping) with
    name := some "pings" }

def pingService : Service Events.family :=
  { Service.create .default (.memory "main") (some 0) (some 0) .standard with
    registry := ⟨[Events.entry .ping]⟩ }

def pingRoute : Route Events.family :=
  pingService.route pingRegistration "pings"
    (.typed 0 Events.Kind.ping Events.Kind.ping (Events.Kind.codec .ping) (Events.Kind.codec .ping))

def declaring (schema : String) : Message := ⟨"m-1", [], Metadata.empty.set Metadata.schemaKey schema⟩

-- A key without the value that it announces.
def brokenPing : Message := { declaring "ping" with payload := [0x08] }

theorem obliging_validators_return : (Surroundings.obliging : Surroundings F).ValidatorsReturn :=
  fun _ _ _ _ same => nomatch same

theorem ping_handler_sees_valid_messages :
    (Surroundings.obliging : Surroundings Events.family).ValidatorsReturn ∧
      calls (play .obliging [] (pingRoute.process (pingService.pipeline pingRoute) (declaring "ping"))).1 ≠ [] ∧
      calls (play .obliging [] (pingRoute.process (pingService.pipeline pingRoute) (declaring "pong"))).1 = [] ∧
      calls (play .obliging [] (pingRoute.process (pingService.pipeline pingRoute) brokenPing)).1 = [] := by
  have told := fun message => @typed_handler_sees_valid_messages _ pingService pingRoute _ _ _ _ _ rfl message _
    obliging_validators_return
  refine ⟨obliging_validators_return, ?_, ?_, ?_⟩
  · obtain ⟨_, _, _, _, _, _, _, _, _, _, reached, _⟩ := told (declaring "ping")
    refine reached.mpr ⟨?_, _, rfl⟩
    intro schema declared
    cases declared
    refine ⟨Events.entry .ping, _, rfl, rfl, fun id asked => ?_⟩
    cases asked
    exact List.mem_singleton.mpr rfl
  · obtain ⟨_, _, _, _, _, _, _, _, _, _, reached, _⟩ := told (declaring "pong")
    refine Classical.byContradiction fun called => ?_
    obtain ⟨admitted, -⟩ := reached.mp called
    obtain ⟨entry, event, found, -⟩ := admitted "pong" rfl
    cases found
  · obtain ⟨_, _, _, _, _, _, _, _, _, _, reached, _⟩ := told brokenPing
    refine Classical.byContradiction fun called => ?_
    obtain ⟨admitted, -⟩ := reached.mp called
    obtain ⟨entry, event, found, read, -⟩ := admitted "ping" rfl
    cases found
    cases read

end EventPipeline

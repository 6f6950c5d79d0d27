import EventPipeline.Proofs.Publication

/-!
The pipeline of a built service from outside to inside: a recoverer that lets no panic through, the
poison queue if there is one, and inner stages that never touch a broker. Whatever the handler does,
the pipeline answers with outputs or an error, settles nothing and publishes at most one dead letter.
-/

set_option autoImplicit false

namespace EventPipeline

open Program Transcript

variable {F : EventFamily}

inductive Service.Built : Service F → Prop where
  | create (config : Config) (transport : Transport) (outbox : Option StoreId)
      (validator : Option ValidatorId) (classifier : Classifier) :
      Built (.create config transport outbox validator classifier)
  | register {service after : Service F} {registration : Registration F} (built : Built service)
      (standard : ∀ handler, registration.handler = some handler → handler.Standard)
      (registered : service.register registration = .ok after) : Built after

theorem validate_handler {registration : Registration F} {name : String} {handler : Handler F}
    (valid : registration.validate = .ok (name, handler)) : registration.handler = some handler := by
  unfold Registration.validate at valid
  repeat' split at valid
  all_goals cases valid
  assumption

theorem register_routes {service after : Service F} {registration : Registration F}
    (registered : service.register registration = .ok after) :
    ∃ name handler, registration.validate = .ok (name, handler) ∧
      after.routes = service.routes ++ [service.route registration name handler] := by
  unfold Service.register at registered
  cases valid : registration.validate with
  | error e => rw [valid] at registered; cases registered
  | ok found =>
      rw [valid] at registered
      change (if service.handlerNames.contains found.1 then _ else _) = _ at registered
      split at registered
      · cases registered
      · cases inserted : Service.insertSchema service.registry registration.schema with
        | error e => rw [inserted] at registered; cases registered
        | ok registry =>
            rw [inserted] at registered
            cases registered
            exact ⟨found.1, found.2, rfl, rfl⟩

theorem built_standard {service : Service F} (built : service.Built) {route : Route F}
    (member : route ∈ service.routes) : route.handler.Standard := by
  induction built with
  | create => cases member
  | register _ standard registered ih =>
      obtain ⟨name, handler, valid, routes⟩ := register_routes registered
      rw [routes] at member
      rcases List.mem_append.mp member with old | new
      · exact ih old
      · cases List.mem_singleton.mp new
        exact standard handler (validate_handler valid)

-- A service with one route: what comes on "in" goes out on "out".
def copyRegistration : Registration F :=
  { Registration.ofQueue "in" with
    name := some "copy"
    publishQueue := some "out"
    handler := some (.raw 0) }

def plainService (config : Config) : Service F :=
  .create config (.memory "main") none none .standard

def copyRoute (config : Config) : Route F :=
  (plainService config).route copyRegistration "copy" (.raw 0)

def copyService (config : Config) : Service F :=
  { plainService config with routes := [copyRoute config] }

theorem copy_valid : (copyRegistration : Registration F).validate = .ok ("copy", .raw 0) := by
  have named : isBlankText "copy" = false := by decide
  have read : isBlankText "in" = false := by decide
  have written : isBlankText "out" = false := by decide
  simp [Registration.validate, Registration.resolvedName, copyRegistration, Registration.ofQueue,
    Option.filter, named, read, written]

theorem copy_registered (config : Config) :
    (plainService config : Service F).register copyRegistration = .ok (copyService config) := by
  unfold Service.register
  rw [copy_valid]
  rfl

theorem copy_built (config : Config) : (copyService config : Service F).Built := by
  refine .register (.create config (.memory "main") none none .standard) ?_ (copy_registered config)
  intro handler found
  cases found
  exact .raw 0

-- The stages between the poison queue and the handler.
def Service.innerChain (service : Service F) : Chain F :=
  [Stage.correlation, Stage.logging, Stage.tracing,
    SchemaValidation.stage ⟨service.registry, service.validator⟩,
    Stage.retry service.config.retry] ++ (service.outbox.map Stage.outbox).toList

def Service.inner (service : Service F) (route : Route F) : Handler F :=
  service.innerChain.apply route.name route.handler

def Service.guarded (service : Service F) (route : Route F) : Handler F :=
  match service.poison? with
  | none => service.inner route
  | some poison => poison.wrap route.name (service.inner route)

theorem guarded_none {service : Service F} {route : Route F} (found : service.poison? = none) :
    service.guarded route = service.inner route := by
  simp only [Service.guarded, found]

theorem guarded_some {service : Service F} {route : Route F} {poison : PoisonQueue}
    (found : service.poison? = some poison) :
    service.guarded route = poison.wrap route.name (service.inner route) := by
  simp only [Service.guarded, found]

theorem pipeline_eq (service : Service F) (route : Route F) :
    service.pipeline route = recoverWith route.name (service.guarded route) := by
  have stages : service.chain = Stage.recoverer ::
      ((service.poison?.map PoisonQueue.stage).toList ++ service.innerChain) := by
    simp [Service.chain, Service.innerChain]
  unfold Service.pipeline Service.guarded Service.inner
  rw [stages]
  cases service.poison? <;> rfl

section Only

variable {allowed : Effect F → Prop}

theorem inner_keeps (routine : ∀ e : Effect F, e.isRoutine = true → allowed e) (service : Service F)
    {route : Route F} (confined : route.handler.Only allowed) : (service.inner route).Only allowed := by
  refine chain_keeps ?_ route.name confined
  intro stage member
  simp only [Service.innerChain, List.cons_append, List.nil_append, List.mem_cons, Option.mem_toList,
    Option.map_eq_some_iff] at member
  rcases member with rfl | rfl | rfl | rfl | rfl | ⟨store, -, rfl⟩
  · exact correlation_keeps routine
  · exact logging_keeps routine
  · exact tracing_keeps routine
  · exact validation_keeps routine _
  · exact retry_keeps routine _
  · exact outbox_keeps routine store

theorem pipeline_keeps (routine : ∀ e : Effect F, e.isRoutine = true → allowed e) (service : Service F)
    {route : Route F} (confined : route.handler.Only allowed)
    (letters : ∀ poison, service.poison? = some poison →
      ∀ message, allowed (.publish poison.broker poison.queue message)) :
    (service.pipeline route).Only allowed := by
  have inner := inner_keeps routine service confined
  rw [pipeline_eq]
  apply recoverer_keeps routine route.name
  cases found : service.poison? with
  | none =>
      rw [guarded_none found]
      exact inner
  | some poison =>
      rw [guarded_some found]
      exact poison_keeps routine poison (letters poison found) route.name _ inner

theorem inner_only (internal : ∀ e : Effect F, e.reachesBroker = false → allowed e) (service : Service F)
    {route : Route F} (standard : route.handler.Standard) : (service.inner route).Only allowed :=
  inner_keeps (fun e plain => internal e (unreached_of_routine plain)) service
    (standard_only (fun e call => internal e (unreached_of_call call)) (internal _ rfl) standard)

theorem pipeline_only (internal : ∀ e : Effect F, e.reachesBroker = false → allowed e) (service : Service F)
    {route : Route F} (standard : route.handler.Standard)
    (letters : ∀ poison, service.poison? = some poison →
      ∀ message, allowed (.publish poison.broker poison.queue message)) :
    (service.pipeline route).Only allowed :=
  pipeline_keeps (fun e plain => internal e (unreached_of_routine plain)) service
    (standard_only (fun e call => internal e (unreached_of_call call)) (internal _ rfl) standard) letters

end Only

def recovered : Except Panic (Except EventError (List Message)) → Except EventError (List Message)
  | .ok result => result
  | .error p => .error (.panicked p.message)

-- What the recoverer adds to a run that ended in a panic.
def rescue (name : String) (record : TraceRecord) :
    Except Panic (Except EventError (List Message)) → Transcript F
  | .ok _ => []
  | .error _ => [⟨.note record, ()⟩, ⟨.count (.panicRecovered name), ()⟩]

theorem remarks_of_rescue (name : String) (record : TraceRecord)
    (inside : Except Panic (Except EventError (List Message))) :
    Remarks (rescue name record inside : Transcript F) := by
  cases inside with
  | ok result => exact remarks_nil
  | error p => exact remarks_note _ fun x member => List.mem_singleton.mp member ▸ rfl

theorem ends_rescued {name : String} {next : Handler F} {message : Message} {t : Transcript F}
    {outcome : Except Panic (Except EventError (List Message))}
    (ends : Ends (recoverWith name next message) t outcome) :
    ∃ t₁ inside record, t = t₁ ++ rescue name record inside ∧ Ends (next message) t₁ inside ∧
      outcome = .ok (recovered inside) := by
  rcases ends_catch_panic.mp ends with ⟨result, rfl, returned⟩ | ⟨p, t₁, t₂, rfl, broken, caught⟩
  · exact ⟨t, .ok result, .spanClosed "", (List.append_nil t).symm, returned, rfl⟩
  · obtain ⟨u, rfl, rest⟩ := ends_note_bind.mp caught
    obtain ⟨v, rfl, last⟩ := ends_count_bind.mp rest
    obtain ⟨rfl, rfl⟩ := ends_done.mp last
    exact ⟨t₁, .error p, _, rfl, broken, rfl⟩

theorem ends_recover_with {name : String} {next : Handler F} {message : Message} {t : Transcript F}
    {outcome : Except Panic (Except EventError (List Message))}
    (ends : Ends (recoverWith name next message) t outcome) :
    ∃ t₁ t₂ inside, t = t₁ ++ t₂ ∧ Ends (next message) t₁ inside ∧ outcome = .ok (recovered inside) ∧
      publishes t₂ = [] ∧ settlements t₂ = [] := by
  obtain ⟨t₁, inside, record, same, within, returned⟩ := ends_rescued ends
  exact ⟨t₁, _, inside, same, within, returned, quiet_of_remarks (remarks_of_rescue name record inside)⟩

theorem pipeline_returns {service : Service F} {route : Route F} {message : Message} {t : Transcript F}
    {outcome : Except Panic (Except EventError (List Message))}
    (ends : Ends (service.pipeline route message) t outcome) : ∃ result, outcome = .ok result := by
  rw [pipeline_eq] at ends
  obtain ⟨_, _, inside, -, -, same, -, -⟩ := ends_recover_with ends
  exact ⟨_, same⟩

theorem pipeline_settles_nothing {service : Service F} {route : Route F}
    (standard : route.handler.Standard) {message : Message} {t : Transcript F}
    {outcome : Except Panic (Except EventError (List Message))}
    (ends : Ends (service.pipeline route message) t outcome) : settlements t = [] := by
  have confined : (service.pipeline route).Only fun e => ∀ broker settlement, e ≠ .settle broker settlement := by
    apply pipeline_only _ service standard
    · intro poison _ letter broker settlement same
      cases same
    · intro e quiet broker settlement same
      rw [same] at quiet
      cases quiet
  exact settlements_of_no_settle (leads_only (confined message) ends)

namespace PoisonQueue

-- From how the inner stages ended to how the guarded ones do, and what happened in between.
inductive Ruling (poison : PoisonQueue) (name : String) (message : Message) :
    Except Panic (Except EventError (List Message)) → Transcript F →
      Except Panic (Except EventError (List Message)) → Prop where
  | broken (p : Panic) : Ruling poison name message (.error p) [] (.error p)
  | passed (outputs : List Message) :
      Ruling poison name message (.ok (.ok outputs)) [] (.ok (.ok outputs))
  | undecided {e : EventError} {p : Panic} {t : Transcript F}
      (decision : Ends (poison.classifier.decide e) t (.error p)) :
      Ruling poison name message (.ok (.error e)) t (.error p)
  | spared {e : EventError} {t : Transcript F} (decision : Ends (poison.classifier.decide e) t (.ok false)) :
      Ruling poison name message (.ok (.error e)) t (.ok (.error e))
  | diverted {e : EventError} {t u : Transcript F}
      {outcome : Except Panic (Except EventError (List Message))}
      (decision : Ends (poison.classifier.decide e) t (.ok true))
      (diversion : Ends (poison.divert name message e) u outcome) :
      Ruling poison name message (.ok (.error e)) (t ++ u) outcome

theorem ends_wrap {poison : PoisonQueue} {name : String} {next : Handler F} {message : Message}
    {t : Transcript F} {outcome : Except Panic (Except EventError (List Message))}
    (ends : Ends (poison.wrap name next message) t outcome) :
    ∃ attempts inside later, t = attempts ++ later ∧ Ends (next message) attempts inside ∧
      poison.Ruling name message inside later outcome := by
  rcases ends_bind.mp ends with ⟨p, rfl, broken⟩ | ⟨result, t₁, t₂, rfl, returned, ending⟩
  · exact ⟨t, .error p, [], by simp, broken, .broken p⟩
  · refine ⟨t₁, .ok result, t₂, rfl, returned, ?_⟩
    cases result with
    | ok outputs =>
        obtain ⟨rfl, rfl⟩ := ends_done.mp ending
        exact .passed outputs
    | error e =>
        rcases ends_bind.mp ending with ⟨p, rfl, decision⟩ | ⟨hopeless, u₁, u₂, rfl, decision, last⟩
        · exact .undecided decision
        · cases hopeless with
          | true => exact .diverted decision last
          | false =>
              obtain ⟨rfl, rfl⟩ := ends_done.mp last
              rw [List.append_nil]
              exact .spared decision

theorem decide_quiet {classifier : Classifier} {e : EventError} {t : Transcript F}
    {decision : Except Panic Bool} (ends : Ends (classifier.decide e) t decision) :
    publishes t = [] ∧ settlements t = [] := by
  have confined : (classifier.decide e).Only fun effect : Effect F => effect.reachesBroker = false :=
    only_decide (fun _ _ => rfl) classifier e
  exact quiet_of_internal (leads_only confined ends)

theorem ends_divert {poison : PoisonQueue} {name : String} {message : Message} {e : EventError}
    {t : Transcript F} {outcome : Except Panic (Except EventError (List Message))}
    (ends : Ends (poison.divert name message e) t outcome) :
    ∃ reply, publishes t = [(⟨poison.broker, poison.queue, message⟩, reply)] ∧
      outcome = reply.outcome.map fun answer => answer.map fun _ => [] := by
  rcases ends_bind.mp ends with ⟨p, rfl, refused⟩ | ⟨answer, t₁, t₂, rfl, answered, ending⟩
  · obtain ⟨reply, rfl, same⟩ := ends_publish.mp refused
    exact ⟨reply, rfl, by rw [← same]; rfl⟩
  · obtain ⟨reply, rfl, same⟩ := ends_publish.mp answered
    refine ⟨reply, ?_⟩
    cases answer with
    | error refusal =>
        obtain ⟨u, rfl, last⟩ := ends_note_bind.mp ending
        obtain ⟨rfl, rfl⟩ := ends_done.mp last
        exact ⟨rfl, by rw [← same]; rfl⟩
    | ok _ =>
        obtain ⟨u, rfl, rest⟩ := ends_note_bind.mp ending
        obtain ⟨v, rfl, last⟩ := ends_count_bind.mp rest
        obtain ⟨rfl, rfl⟩ := ends_done.mp last
        exact ⟨rfl, by rw [← same]; rfl⟩

theorem ruling_accepts_nothing {poison : PoisonQueue} {name : String} {message : Message}
    {inside outcome : Except Panic (Except EventError (List Message))} {later : Transcript F}
    (ruling : poison.Ruling name message inside later outcome)
    (failed : ∀ outputs, outcome ≠ .ok (.ok outputs)) : accepted later = [] := by
  cases ruling with
  | broken p => rfl
  | passed outputs => rfl
  | undecided decision => rw [accepted, (decide_quiet decision).1]; rfl
  | spared decision => rw [accepted, (decide_quiet decision).1]; rfl
  | diverted decision diversion =>
      obtain ⟨reply, letter, same⟩ := ends_divert diversion
      rw [accepted_append, accepted, accepted, (decide_quiet decision).1, letter]
      cases reply with
      | ok _ => exact absurd same (failed [])
      | error refusal => rfl
      | panic p => rfl

end PoisonQueue

theorem inner_quiet {service : Service F} {route : Route F} (standard : route.handler.Standard)
    {message : Message} {t : Transcript F} {q : Program F (Except EventError (List Message))}
    (reached : Leads (service.inner route message) t q) : publishes t = [] ∧ settlements t = [] :=
  quiet_of_internal (leads_only (inner_only (fun _ quiet => quiet) service standard message) reached)

theorem failed_pipeline_accepts_nothing {service : Service F} {route : Route F}
    (standard : route.handler.Standard) {message : Message} {t : Transcript F} {e : EventError}
    (ends : Ends (service.pipeline route message) t (.ok (.error e))) : accepted t = [] := by
  rw [pipeline_eq] at ends
  obtain ⟨t₁, t₂, inside, rfl, guarded, same, unpublished, -⟩ := ends_recover_with ends
  have failed : ∀ outputs, inside ≠ .ok (.ok outputs) := by
    intro outputs same
    subst same
    cases same
  have within : accepted t₁ = [] := by
    cases found : service.poison? with
    | none =>
        rw [guarded_none found] at guarded
        rw [accepted, (inner_quiet standard guarded).1]
        rfl
    | some poison =>
        rw [guarded_some found] at guarded
        obtain ⟨attempts, result, later, rfl, ends, ruling⟩ := PoisonQueue.ends_wrap guarded
        rw [accepted_append, PoisonQueue.ruling_accepts_nothing ruling failed, accepted,
          (inner_quiet standard ends).1]
        rfl
  rw [accepted_append, within, accepted, unpublished]
  rfl

end EventPipeline

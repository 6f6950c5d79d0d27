import EventPipeline.Proofs.Intake
import EventPipeline.Proofs.Production
import EventPipeline.Proofs.RoundTrips
import EventPipeline.Proofs.Schedules

/-!
From a producer to a typed handler. What was produced under a schema passes the check of that schema, and
the handler is shown the value that was produced, under the identifier that the producer got back, with
the headers it was given: the schema is stamped on them and a missing correlation id filled in.
-/

set_option autoImplicit false

namespace EventPipeline

open Program Transcript

variable {F : EventFamily}

theorem Uuid.generated_visible {id : String} (generated : Uuid.Generated id) : id ≠ "" := by
  obtain ⟨n, same⟩ := generated
  intro empty
  have chars : (Uuid.ofNat n).toList = [] := by rw [← same, empty]; rfl
  unfold Uuid.ofNat at chars
  rw [String.toList_append] at chars
  obtain ⟨front, -⟩ := List.append_eq_nil_iff.mp chars
  have none : "7d3f1a92-5c08-4e6b-9b41-".length = 0 := congrArg List.length front
  exact absurd none (by decide)

-- Identifiers are made up and validators answer as they are. Of other answers nothing is said.
def Exchange.Genuine (collaborators : Collaborators F) : Exchange F → Prop
  | ⟨.freshId, text⟩ => Uuid.Generated text
  | ⟨.validate id event, reply⟩ => reply = collaborators.validate id event
  | _ => True

def Transcript.Genuine (collaborators : Collaborators F) (t : Transcript F) : Prop :=
  ∀ x ∈ t, x.Genuine collaborators

theorem resume_genuine (origin w : World F) (effect : Effect F) :
    Exchange.Genuine w.collaborators ⟨effect, ((origin.start effect).1.resume w).1⟩ := by
  cases effect with
  | freshId => exact ⟨w.ids, rfl⟩
  | validate id event => exact rfl
  | _ => trivial

def Surroundings.genuine (collaborators : Collaborators F) : Surroundings F
  | _, .freshId => Uuid.ofNat 0
  | _, .validate id event => collaborators.validate id event
  | past, effect => Surroundings.obliging past effect

theorem play_genuine {α : Type} (collaborators : Collaborators F) (past : Transcript F) (p : Program F α) :
    Transcript.Genuine collaborators (play (.genuine collaborators) past p).1 := by
  intro x member
  obtain ⟨before, effect, rfl⟩ := answer_of_mem_play _ past p member
  cases effect with
  | freshId => exact ⟨0, rfl⟩
  | validate id event => exact rfl
  | _ => trivial

namespace Crew

variable {service : Service F} {past : Journal F} {crew : Crew F}

theorem meet_genuine (orderly : crew.Orderly service past) (occasion : Occasion F) :
    (crew.meet occasion).2.world.collaborators = crew.world.collaborators ∧
      ∀ entry ∈ (crew.meet occasion).1, ∀ x, entry.happening = .answered x →
        x.Genuine crew.world.collaborators := by
  obtain ⟨calls, called⟩ := meet_called orderly occasion
  refine ⟨called.collaborators, ?_⟩
  intro entry member x answered
  cases occasion with
  | produce production => cases member
  | turn turn =>
      cases turn with
      | close broker => cases member
      | choose choice =>
          have chosen := choose_chosen crew choice
          change entry ∈ (crew.choose choice).1 at member
          generalize (crew.choose choice).1 = journal, (crew.choose choice).2 = next at chosen member
          cases chosen with
          | stuck i => cases member
          | outside called signal stores later uncounted => cases member
          | @moved i consumer after v happening known moves =>
              obtain ⟨what, rfl, rfl⟩ := Option.map_eq_some_iff.mp (Option.mem_toList.mp member)
              have same : what = .answered x := answered
              subst same
              obtain ⟨pending, next, phase, answer⟩ := Consumer.answered_waiting moves
              obtain ⟨origin, rfl⟩ := orderly_anchored orderly known _ _ _ phase
              have genuine := resume_genuine origin crew.world x.effect
              rwa [← answer] at genuine

theorem attend_genuine (orderly : crew.Orderly service past) (occasions : List (Occasion F)) :
    ∀ entry ∈ (crew.attend occasions).1, ∀ x, entry.happening = .answered x →
      x.Genuine crew.world.collaborators := by
  induction occasions generalizing past crew with
  | nil => exact nofun
  | cons occasion occasions ih =>
      obtain ⟨same, genuine⟩ := meet_genuine orderly occasion
      intro entry member
      rcases List.mem_append.mp member with early | late
      · exact genuine entry early
      · rw [← same]
        exact ih (meet_orderly orderly occasion) entry late

theorem handlings_genuine (orderly : crew.Orderly service past) (occasions : List (Occasion F)) (i : Nat) :
    ∀ handling ∈ handlingsOf ((crew.attend occasions).1.of i),
      handling.transcript.Genuine crew.world.collaborators := by
  intro handling member x within
  obtain ⟨entry, known, answered⟩ := journal_mem ((sections_answered _).2 handling member x within)
  exact attend_genuine orderly occasions entry known x answered

end Crew

namespace Metadata

-- The headers that a handler is shown for those that were given to the producer.
structure Carries (bag : Metadata) (schema : String) (shown : Metadata) : Prop where
  stamped : shown.schema? = some schema
  kept : ∀ id, id ≠ "" → bag.correlationId? = some id → shown.correlationId? = some id
  filled : (∀ id, id ≠ "" → bag.correlationId? ≠ some id) →
    ∃ id, id ≠ "" ∧ Uuid.Generated id ∧ shown.correlationId? = some id
  others : ∀ key, key ≠ schemaKey → key ≠ correlationKey → shown.get? key = bag.get? key

theorem correlation_stamped (bag : Metadata) (schema : String) :
    (bag.set schemaKey schema).correlationId? = bag.correlationId? := bag.get_set_other (by decide) schema

end Metadata

theorem correlated_carries {bag : Metadata} {schema uuid : String} {payload : Bytes} {fresh : Transcript F}
    {received : Message} (correlated : Message.Correlated ⟨uuid, payload, bag.set Metadata.schemaKey schema⟩ fresh received)
    {collaborators : Collaborators F} (genuine : fresh.Genuine collaborators) :
    bag.Carries schema received.metadata := by
  have same := bag.correlation_stamped schema
  cases correlated with
  | kept known =>
      refine ⟨Metadata.get_set_same _ _ _, fun id _ there => same.trans there, fun missing => ?_,
        fun key apart _ => bag.get_set_other apart schema⟩
      rw [← same] at missing
      rw [Metadata.uncorrelated_iff.mpr missing] at known
      cases known
  | filled bare id =>
      have generated : Uuid.Generated id := genuine _ List.mem_cons_self
      refine ⟨?_, fun other visible there => ?_, fun _ => ⟨id, Uuid.generated_visible generated, generated,
        Metadata.get_set_same _ _ _⟩, fun key apart apart₂ => ?_⟩
      · exact (Metadata.schema_set_correlation _ _).trans (Metadata.get_set_same _ _ _)
      · exact absurd (same.trans there) (Metadata.uncorrelated_iff.mp bare other visible)
      · exact (Metadata.get_set_other _ apart₂ id).trans (bag.get_set_other apart schema)

namespace SchemaValidation

-- A message whose payload is an event of the schema it declares, one that the validator has nothing against.
structure Fits (validation : SchemaValidation F) (collaborators : Collaborators F) (message : Message)
    (schema : String) (entry : SchemaEntry F) (event : DecodedEvent F) : Prop where
  declared : message.metadata.schema? = some schema
  found : validation.registry.lookup schema = some entry
  read : entry.decode message.payload = .ok event
  accepts : ∀ id, validation.validator = some id → collaborators.validate id event = .ok ()

variable {validation : SchemaValidation F} {collaborators : Collaborators F} {message : Message} {schema : String}
  {entry : SchemaEntry F} {event : DecodedEvent F}

theorem fits_passes (fits : validation.Fits collaborators message schema entry event) {t : Transcript F}
    {verdict : Except Panic (Except EventError Unit)} (checks : validation.Checks message t verdict)
    (genuine : t.Genuine collaborators) : verdict = .ok (.ok ()) := by
  cases checks with
  | undeclared absent record => rfl
  | unquestioned declared found read alone => rfl
  | unknown declared missing =>
      cases declared.symm.trans fits.declared
      cases missing.symm.trans fits.found
  | undecodable declared found unread =>
      cases declared.symm.trans fits.declared
      cases found.symm.trans fits.found
      cases unread.symm.trans fits.read
  | questioned declared found read asked reply =>
      cases declared.symm.trans fits.declared
      cases found.symm.trans fits.found
      cases read.symm.trans fits.read
      have answer := genuine _ List.mem_cons_self
      have accepted : reply = .ok () := Eq.trans answer (fits.accepts _ asked)
      rw [accepted]
      rfl

end SchemaValidation

section Fed

variable {service : Service F} {route : Route F} {id : HandlerId} {input output : F.Kind}
  {decoder : Codec (F.Value input)} {encoder : Codec (F.Value output)} {collaborators : Collaborators F}
  {message : Message} {schema : String} {entry : SchemaEntry F} {event : DecodedEvent F} {value : F.Value input}

-- A run on such a message: it passes the check, and then the handler is called, time and again with the same.
theorem process_fed (typed : route.handler = .typed id input output decoder encoder)
    (fits : service.validation.Fits collaborators message schema entry event)
    (read : decoder.decode message.payload = .ok value) {t : Transcript F} {outcome : Except Panic Unit}
    (ends : Ends (route.process (service.pipeline route) message) t outcome)
    (genuine : t.Genuine collaborators) :
    ∃ checked called received fresh, t = checked ++ called ∧ calls checked = [] ∧
      service.validation.Admits message (validations checked) ∧
      message.Correlated fresh received ∧ fresh.Genuine collaborators ∧ calls called ≠ [] ∧
      ∀ call ∈ calls called, call = .callTyped id input output ⟨value, received.metadata, message.uuid⟩ := by
  obtain ⟨opening, inner, closing, attempts, inside, rfl, first, last, passage⟩ := process_passage ends
  have within : ∀ x ∈ inner, x.Genuine collaborators := fun x member =>
    genuine x (List.mem_append_right _ (List.mem_append_left _ member))
  cases passage with
  | @rejected fresh before checking after received verdict correlated entering leaving checks bad =>
      have known := SchemaValidation.checks_correlated correlated checks
      exact absurd (SchemaValidation.fits_passes fits known fun x member => within x (by simp [member])) bad
  | @admitted fresh before checking tries after received _ _ correlated entering leaving checks retries =>
      obtain ⟨payload, uuid, idle⟩ := correlated_payload correlated
      have known := SchemaValidation.checks_correlated correlated checks
      have admits := (SchemaValidation.checks_admit_iff known).mp rfl
      obtain ⟨called, -, each⟩ := retries_typed typed (payload ▸ read) retries
      have nothing : Idle ([] : Transcript F) := fun _ member => nomatch member
      have front := framed_quiet (idle_append first (idle_append idle (idle_of_notes entering))) nothing checking
      have back := framed_quiet nothing (idle_append (idle_of_notes leaving) last) tries
      refine ⟨(opening ++ (fresh ++ before)) ++ (checking ++ []), [] ++ (tries ++ (after ++ closing)), received,
        fresh, by simp, ?_, ?_, correlated, fun x member => within x (by simp [member]), ?_, ?_⟩
      · exact front.1.trans (checks_uncalled checks).1
      · rw [front.2.2.1]
        exact admits
      · rwa [back.1]
      · rw [back.1, ← uuid]
        exact each

theorem fed_split {t rest checked called : Transcript F} (same : t ++ rest = checked ++ called)
    (uncalled : calls checked = []) (some : calls t ≠ []) : ∃ begun, t = checked ++ begun := by
  rcases List.append_eq_append_iff.mp same with ⟨missing, longer, -⟩ | ⟨begun, longer, -⟩
  · rw [longer, calls_append] at uncalled
    exact absurd (List.append_eq_nil_iff.mp uncalled).1 some
  · exact ⟨begun, longer⟩

theorem admits_of_more {validation : SchemaValidation F} {first rest : List (Question F × Reply Unit)}
    (admits : validation.Admits message first) : validation.Admits message (first ++ rest) := by
  intro schema declared
  obtain ⟨entry, event, found, read, answered⟩ := admits schema declared
  exact ⟨entry, event, found, read, fun id asked => List.mem_append_left _ (answered id asked)⟩

-- A run that is not at its end yet could be completed, so as far as it went it went like that.
theorem leads_fed (typed : route.handler = .typed id input output decoder encoder)
    (fits : service.validation.Fits collaborators message schema entry event)
    (read : decoder.decode message.payload = .ok value) {t : Transcript F} {rest : Program F Unit}
    (reached : Leads (route.process (service.pipeline route) message) t rest)
    (genuine : t.Genuine collaborators) :
    (calls t ≠ [] → service.validation.Admits message (validations t)) ∧
      ∃ received fresh, message.Correlated fresh received ∧ fresh.Genuine collaborators ∧
        ∀ call ∈ calls t, call = .callTyped id input output ⟨value, received.metadata, message.uuid⟩ := by
  have completed := leads_append reached (ends_play (.genuine collaborators) [] rest)
  have whole : (t ++ (play (.genuine collaborators) [] rest).1).Genuine collaborators := fun x member =>
    (List.mem_append.mp member).elim (genuine x) (play_genuine collaborators [] rest x)
  obtain ⟨checked, called, received, fresh, same, uncalled, admits, correlated, named, -, each⟩ :=
    process_fed typed fits read completed whole
  refine ⟨fun some => ?_, received, fresh, correlated, named, fun call member => each call ?_⟩
  · obtain ⟨begun, rfl⟩ := fed_split same uncalled some
    rw [validations_append]
    exact admits_of_more admits
  · have all := congrArg calls same
    rw [calls_append, calls_append, uncalled, List.nil_append] at all
    rw [← all]
    exact List.mem_append_left _ member

end Fed

theorem prefix_at {α : Type} {front whole : List α} {n : Nat} {a : α} (before : front <+: whole)
    (there : front[n]? = some a) : whole[n]? = some a := by
  obtain ⟨small, rfl⟩ := List.getElem?_eq_some_iff.mp there
  exact List.prefix_iff_getElem?.mp before n small

-- A consumer takes the log of its queue in order, so the log tells which message a delivery is about.
theorem Crew.handling_logged {service : Service F} {past : Journal F} {crew : Crew F}
    (orderly : crew.Orderly service past) {i : Nat} {route : Route F} (known : service.routes[i]? = some route)
    {n : Nat} {handling : Handling F} (there : (handlingsOf (past.of i))[n]? = some handling) :
    ((crew.world.broker route.subscriber).broker.published route.consumeQueue)[n]? = some handling.message ∧
      ∃ rest, Leads (route.process (service.pipeline route) handling.message) handling.transcript rest := by
  obtain ⟨consumer, found, rfl⟩ := orderly.consumer_at known
  refine ⟨prefix_at (orderly.follows i consumer found).logged ?_,
    tracks_handlings (orderly.tracks_at found) handling (List.mem_of_getElem? there)⟩
  rw [← handlings_messages, List.getElem?_map, there, Option.map_some]

theorem production_fits {service : Service F} {collaborators : Collaborators F} {production : Production F}
    (registered : service.registry.lookup (F.schema production.kind) =
      some (.of production.kind production.codec))
    (accepts : ∀ validator, service.validator = some validator →
      collaborators.validate validator ⟨production.kind, production.value⟩ = .ok ())
    {payload : Bytes} (read : production.codec.decode payload = .ok production.value) (id : String) :
    service.validation.Fits collaborators (production.message id payload) (F.schema production.kind)
      (.of production.kind production.codec) ⟨production.kind, production.value⟩ :=
  ⟨Metadata.get_set_same _ _ _, registered, congrArg (Except.map _) read, accepts⟩

theorem production_reaches_typed_handler {service : Service F} {w : World F} {crew : Crew F} (historic : w.Historic)
    (opened : openRoutes service service.routes w = (.ok crew.consumers, crew.world)) {i : Nat} {route : Route F}
    (known : service.routes[i]? = some route) (production : Production F) {handler : HandlerId} {output : F.Kind}
    {encoder : Codec (F.Value output)}
    (typed : route.handler = .typed handler production.kind output production.codec encoder)
    (source : production.broker = route.subscriber) (target : production.queue = route.consumeQueue)
    (registered : service.registry.lookup (F.schema production.kind) =
      some (.of production.kind production.codec))
    (inverse : (production.codec.encode production.value).bind production.codec.decode = .ok production.value)
    (accepts : ∀ validator, service.validator = some validator →
      crew.world.collaborators.validate validator ⟨production.kind, production.value⟩ = .ok ())
    (before after : List (Occasion F)) {id : String}
    (produced : ((crew.attend before).2.world.run production.program).1 = .ok (.ok id)) :
    let earlier := (crew.attend before).2.world
    let now := (earlier.run production.program).2
    let session := crew.attend (before ++ .produce production :: after)
    let place := ((earlier.broker route.subscriber).broker.published route.consumeQueue).length
    ∃ message : Message, message.uuid = id ∧
      (∀ broker topic, (now.broker broker).broker.published topic =
        (earlier.broker broker).broker.published topic ++
          if broker = route.subscriber ∧ topic = route.consumeQueue then [message] else []) ∧
      ∀ handling, (handlingsOf (session.1.of i))[place]? = some handling →
        handling.message = message ∧
        (∀ call ∈ calls handling.transcript, ∃ shown,
          production.metadata.Carries (F.schema production.kind) shown ∧
          call = .callTyped handler production.kind output ⟨production.value, shown, id⟩) ∧
        (calls handling.transcript ≠ [] →
          service.validation.Admits message (validations handling.transcript)) ∧
        ∀ outcome, Ends (route.process (service.pipeline route) message) handling.transcript outcome →
          calls handling.transcript ≠ [] := by
  intro earlier now session place
  obtain ⟨result, v, ran, comes⟩ := production.run_comes earlier
  have same : now = v := congrArg Prod.snd ran
  have returned : result = .ok id := Except.ok.inj ((congrArg Prod.fst ran).symm.trans produced)
  subst returned
  obtain ⟨payload, encoded, -, logs⟩ := Production.comes_published comes
  rw [source, target] at logs
  refine ⟨production.message id payload, rfl, same ▸ logs, ?_⟩
  intro handling there
  have start : crew.Orderly service [] := opened_orderly historic opened crew.signal
  have orderly := Crew.attend_orderly start (before ++ .produce production :: after)
  obtain ⟨logged, rest, reached⟩ := Crew.handling_logged orderly known there
  -- The logs only grow after the production, so the message stays where it was appended.
  have kept : (v.broker route.subscriber).broker.published route.consumeQueue <+:
      (session.2.world.broker route.subscriber).broker.published route.consumeQueue := by
    have between := Crew.meet_orderly (Crew.attend_orderly start before) (.produce production)
    have grown := Crew.attend_grows between after route.subscriber route.consumeQueue
    change _ <+: ((crew.attend (before ++ .produce production :: after)).2.world.broker _).broker.published _
    rw [Crew.attend_append]
    exact same ▸ grown
  have appended : ((v.broker route.subscriber).broker.published route.consumeQueue)[place]? =
      some (production.message id payload) := by
    rw [logs, if_pos ⟨rfl, rfl⟩]
    exact List.getElem?_concat_length
  have about : handling.message = production.message id payload :=
    Option.some.inj (logged.symm.trans (prefix_at kept appended))
  have read : production.codec.decode payload = .ok production.value := by
    rw [encoded] at inverse
    exact inverse
  have fits := production_fits registered accepts read id
  have genuine := Crew.handlings_genuine start (before ++ .produce production :: after) i handling
    (List.mem_of_getElem? there)
  rw [about] at reached
  obtain ⟨admitted, received, fresh, correlated, named, each⟩ := leads_fed typed fits read reached genuine
  refine ⟨about, fun call member => ⟨received.metadata, correlated_carries correlated named, each call member⟩,
    admitted, fun outcome ends => ?_⟩
  obtain ⟨checked, called, _, _, split, uncalled, -, -, -, some, -⟩ := process_fed typed fits read ends genuine
  rwa [split, calls_append, uncalled, List.nil_append]

def pingingService : Service Events.family := { pingService with routes := [pingRoute] }

def pingingCrew : Crew Events.family :=
  match openRoutes pingingService pingingService.routes pairWorld with
  | (.ok consumers, w) => ⟨.create false, consumers, w⟩
  | (.error _, w) => ⟨.create false, [], w⟩

def pingingTurns : List (Occasion Events.family) := List.replicate 60 (.turn (.choose (.step 0)))

theorem ping_reaches_its_handler :
    openRoutes pingingService pingingService.routes pairWorld = (.ok pingingCrew.consumers, pingingCrew.world) ∧
      ∃ (handling : Handling Events.family) (shown : Metadata),
        (handlingsOf ((pingingCrew.attend (.produce pingProduction :: pingingTurns)).1.of 0))[0]? =
          some handling ∧
        pingProduction.metadata.Carries "ping" shown ∧
        Effect.callTyped 0 Events.Kind.ping Events.Kind.ping ⟨(⟨7, "hello"⟩ : Events.Ping), shown, Uuid.ofNat 0⟩ ∈
          calls handling.transcript := by
  have opened : openRoutes pingingService pingingService.routes pairWorld =
      (.ok pingingCrew.consumers, pingingCrew.world) := by rfl
  have known : pingingService.routes[0]? = some pingRoute := rfl
  have short : (Bytes.ofString "hello").length ≤ largest64 := by decide +kernel
  have inverse : (pingProduction.codec.encode pingProduction.value).bind pingProduction.codec.decode =
      .ok pingProduction.value :=
    Events.decode_counted .ping rfl short
  obtain ⟨message, -, -, reaches⟩ := production_reaches_typed_handler (single_historic _ _) opened known
    pingProduction rfl rfl rfl rfl inverse (fun _ _ => rfl) [] pingingTurns (by rfl)
  have called : (handlingsOf ((pingingCrew.attend (.produce pingProduction :: pingingTurns)).1.of 0))[0]?.map
      (fun handling => (calls handling.transcript).length) = some 1 := by decide +kernel
  obtain ⟨handling, there, once⟩ := Option.map_eq_some_iff.mp called
  obtain ⟨-, each, -⟩ := reaches handling there
  obtain ⟨call, only⟩ := List.length_eq_one_iff.mp once
  obtain ⟨shown, carries, rfl⟩ := each call (only ▸ List.mem_singleton_self call)
  exact ⟨opened, handling, shown, there, carries, only ▸ List.mem_singleton_self _⟩

end EventPipeline

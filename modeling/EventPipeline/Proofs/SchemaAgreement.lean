import EventPipeline.Events.Family
import EventPipeline.Proofs.Passage
import EventPipeline.Proofs.Registrations
import EventPipeline.Proofs.Schedules

/-!
The two readers of a typed route: the registry, for the check of schemas, and the decoder of the handler.
The registry reads a name with the schema that was attached to the first route with that name, so it reads
as a handler does exactly when that schema was made of the kind and the codec of the handler. Nothing
compares a schema with the handler it comes with, nor two codecs of one kind.
-/

set_option autoImplicit false

namespace EventPipeline

open Program

variable {F : EventFamily}

namespace SchemaValidation

-- What is left of the check once the payload is decoded.
def judge (validation : SchemaValidation F) (message : Message) (schema : String) (event : DecodedEvent F) :
    Program F (Except EventError Unit) :=
  match validation.validator with
  | none => pure (.ok ())
  | some validator => do
      match ← Program.validate validator event with
      | .ok () => pure (.ok ())
      | .error e => pure (.error (reject message schema "payload rejected by validator" (.error e)))

-- A message of a kind, taken or refused as its decoder says.
def checkAs (validation : SchemaValidation F) {kind : F.Kind} (decoder : Codec (F.Value kind))
    (message : Message) : Program F (Except EventError Unit) :=
  match decoder.decode message.payload with
  | .error e =>
      pure (.error (reject message (F.schema kind)
        ("payload does not decode as '" ++ F.schema kind ++ "'") (.error e)))
  | .ok value => validation.judge message (F.schema kind) ⟨kind, value⟩

theorem check_of_entry {validation : SchemaValidation F} {kind : F.Kind} {decoder : Codec (F.Value kind)}
    (found : validation.registry.lookup (F.schema kind) = some (.of kind decoder)) (message : Message) :
    validation.check message (F.schema kind) = validation.checkAs decoder message := by
  unfold check checkAs judge
  rw [found]
  simp only [SchemaEntry.decode, SchemaEntry.of]
  cases decoder.decode message.payload with
  | error e => rfl
  | ok value => rfl

end SchemaValidation

-- The registry has a kind under its name, in the encoding of a decoder, and reads every payload as the
-- decoder does: with the same value, or not at all.
structure Service.ReadsAs (service : Service F) (kind : F.Kind) (decoder : Codec (F.Value kind)) : Prop where
  registered : ∃ entry, service.registry.lookup (F.schema kind) = some entry ∧ entry.kind = kind ∧
    entry.encoding = decoder.encoding
  decodes : ∀ payload, service.registry.decode (F.schema kind) payload =
    some ((decoder.decode payload).map (DecodedEvent.mk kind))
  checks : ∀ message, service.validation.check message (F.schema kind) =
    service.validation.checkAs decoder message

theorem reads_as_of_entry {service : Service F} {kind : F.Kind} {decoder : Codec (F.Value kind)}
    (found : service.registry.lookup (F.schema kind) = some (.of kind decoder)) :
    service.ReadsAs kind decoder := by
  refine ⟨⟨.of kind decoder, found, rfl, rfl⟩, fun payload => ?_, SchemaValidation.check_of_entry found⟩
  unfold SchemaRegistry.decode
  rw [found]
  rfl

theorem decoded_alike {kind : F.Kind} {first second : Except EventError (F.Value kind)}
    (same : first.map (DecodedEvent.mk kind) = second.map (DecodedEvent.mk kind)) : first = second := by
  cases first with
  | error e =>
      cases second with
      | error other =>
          cases same
          rfl
      | ok value => cases same
  | ok value =>
      cases second with
      | error e => cases same
      | ok other =>
          cases same
          rfl

theorem SchemaEntry.eta_at {entry : SchemaEntry F} {kind : F.Kind} (same : entry.kind = kind) :
    ∃ encoding read, entry = ⟨kind, encoding, read⟩ := by
  subst same
  exact ⟨entry.encoding, entry.decoder, rfl⟩

-- The registry shows its encoding and, payload by payload, its decoder, and there is nothing else in it.
theorem entry_of_reads_as {service : Service F} {kind : F.Kind} {decoder : Codec (F.Value kind)}
    (reads : service.ReadsAs kind decoder) :
    service.registry.lookup (F.schema kind) = some (.of kind decoder) := by
  obtain ⟨entry, found, same, encoded⟩ := reads.registered
  obtain ⟨encoding, read, rfl⟩ := SchemaEntry.eta_at same
  have alike : read = decoder.decode := by
    funext payload
    have decoded := reads.decodes payload
    unfold SchemaRegistry.decode at decoded
    rw [found] at decoded
    exact decoded_alike (Option.some.inj decoded)
  change encoding = decoder.encoding at encoded
  rw [found, encoded, alike]
  rfl

theorem reads_as_iff {service : Service F} (assembled : service.Assembled) (kind : F.Kind)
    (decoder : Codec (F.Value kind)) :
    service.ReadsAs kind decoder ↔
      (service.schemas.find? fun entry => entry.name == F.schema kind) = some (.of kind decoder) := by
  rw [← Service.lookup_first assembled]
  exact ⟨entry_of_reads_as, reads_as_of_entry⟩

-- The kind of a name never changes, so only the codec of the first schema can be another one.
theorem own_schema_reads_as {service : Service F} (assembled : service.Assembled) {kind : F.Kind}
    {decoder : Codec (F.Value kind)} (member : SchemaEntry.of kind decoder ∈ service.schemas) :
    ∃ used : Codec (F.Value kind), service.ReadsAs kind used := by
  obtain ⟨entry, found, same⟩ := Service.schemas_registered assembled member
  obtain ⟨encoding, read, rfl⟩ := SchemaEntry.eta_at same
  exact ⟨{ decoder with encoding, decode := read }, reads_as_of_entry found⟩

theorem typed_routes_read_as_registered (config : Config) (transport : Transport) (outbox : Option StoreId)
    (validator : Option ValidatorId) (classifier : Classifier) (w : World F)
    (registrations : List (Registration F)) :
    let empty : Service F := .create config transport outbox validator classifier
    let start := Scene.create empty w
    ∃ service, (start.registerAll registrations).lifetime = .configured service ∧
      ∀ route ∈ service.routes, ∀ id input output decoder encoder,
        route.handler = .typed id input output decoder encoder →
          let first := service.schemas.find? fun entry => entry.name == F.schema input
          (service.ReadsAs input decoder ↔ first = some (.of input decoder)) ∧
          (route.schema = some (.of input decoder) →
            ∃ used : Codec (F.Value input), first = some (.of input used) ∧ service.ReadsAs input used) := by
  intro empty start
  have beginning : start.lifetime = .configured empty := rfl
  obtain ⟨service, routes, configured, assembled, -, -⟩ :=
    registered_all (.create config transport outbox validator classifier) beginning registrations
  refine ⟨service, configured, ?_⟩
  intro route member id input output decoder encoder _ first
  refine ⟨reads_as_iff assembled input decoder, fun attached => ?_⟩
  obtain ⟨used, reads⟩ := own_schema_reads_as assembled (List.mem_filterMap.mpr ⟨route, member, attached⟩)
  exact ⟨used, (reads_as_iff assembled input used).mp reads, reads⟩

-- Counters in some codec.
def counterRegistration (name : String) (codec : Codec Events.Counter) : Registration Events.family :=
  { (Registration.ofQueue "in").withTyped 0 Events.Kind.counter Events.Kind.counter codec codec with
    name := some name }

-- Counters as JSON.
def counterText : Codec Events.Counter :=
  Json.codec
    (Json.readRecord "Counter" (some
      { fresh := ⟨0⟩
        fields := [Events.field "value" Events.readU64 (fun value _ => ⟨value⟩) true]
        closed := false }))
    fun event => Json.writeObject [Json.writeMember "value" (decimal event.value.toNat)]

def counterRegistrations : List (Registration Events.family) :=
  [counterRegistration "first" counterText, counterRegistration "second" (Events.Kind.codec .counter),
    counterRegistration "third" counterText]

def emptyScene : Scene Events.family :=
  .create (.create .default (.memory "main") none none .standard) pairWorld

-- The handlers that are given the codec of the first route agree with it, also after another codec.
theorem counters_read_as_registered :
    ∃ service, (emptyScene.registerAll counterRegistrations).lifetime = .configured service ∧
      service.routes.map (·.name) = ["first", "second", "third"] ∧
      service.ReadsAs Events.Kind.counter counterText ∧
      ¬ service.ReadsAs Events.Kind.counter (Events.Kind.codec .counter) := by
  obtain ⟨service, configured, reads⟩ := typed_routes_read_as_registered .default (.memory "main") none none
    .standard pairWorld counterRegistrations
  refine ⟨service, configured, ?_⟩
  cases configured
  have second := reads _ (List.mem_cons_of_mem _ List.mem_cons_self) 0 Events.Kind.counter Events.Kind.counter
    _ _ rfl
  have third := reads _ (List.mem_cons_of_mem _ (List.mem_cons_of_mem _ List.mem_cons_self)) 0
    Events.Kind.counter Events.Kind.counter _ _ rfl
  refine ⟨rfl, third.1.mpr rfl, fun alike => ?_⟩
  cases second.1.mp alike

-- A handler of impostors with the schema of listings, which has the same name.
def foreignRegistration : Registration Events.family :=
  { (Registration.ofQueue "in" : Registration Events.family) with
    name := some "h"
    publishQueue := some "out"
    handler := some (.typed 0 Events.Kind.impostor Events.Kind.impostor (Events.Kind.codec .impostor)
      (Events.Kind.codec .impostor))
    schema := some (Events.entry .listing) }

def shortListing : Bytes := Utf8.encode "\x7b\"id\":50\x7d".toList

-- The second handler of counters reads five, and the registry nothing. The handler of impostors reads an
-- identifier, and the registry misses the items of a listing.
theorem schema_and_handler_may_disagree :
    (∃ service, (emptyScene.registerAll counterRegistrations).lifetime = .configured service ∧
      ∃ route ∈ service.routes, route.handler = .typed 0 Events.Kind.counter Events.Kind.counter
          (Events.Kind.codec .counter) (Events.Kind.codec .counter) ∧
        (∃ entry, service.registry.lookup (Events.Kind.schema .counter) = some entry ∧
          entry.encoding ≠ (Events.Kind.codec .counter).encoding) ∧
        (Events.Kind.codec .counter).decode [0x08, 0x05] = .ok ⟨5⟩ ∧
        ∃ e, service.registry.decode (Events.Kind.schema .counter) [0x08, 0x05] = some (.error e)) ∧
      ∃ service, (emptyScene.registerAll [foreignRegistration]).lifetime = .configured service ∧
        ∃ route ∈ service.routes, route.handler = .typed 0 Events.Kind.impostor Events.Kind.impostor
            (Events.Kind.codec .impostor) (Events.Kind.codec .impostor) ∧
          (∃ entry, service.registry.lookup (Events.Kind.schema .impostor) = some entry ∧
            entry.kind = Events.Kind.listing) ∧
          (Events.Kind.codec .impostor).decode shortListing = .ok ⟨50⟩ ∧
          ∃ e, service.registry.decode (Events.Kind.schema .impostor) shortListing = some (.error e) := by
  constructor
  · exact ⟨_, rfl, _, List.mem_cons_of_mem _ List.mem_cons_self, rfl, ⟨_, rfl, nofun⟩, rfl, _, rfl⟩
  · exact ⟨_, rfl, _, List.mem_cons_self, rfl, ⟨_, rfl, rfl⟩, rfl, _, rfl⟩

end EventPipeline

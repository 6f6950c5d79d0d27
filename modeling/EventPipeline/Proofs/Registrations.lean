import EventPipeline.Proofs.Pipeline
import EventPipeline.Proofs.RegistryHistory
import EventPipeline.Service.Scene
import Mathlib.Data.List.Forall2

/-!
Registering handlers. A complete registration is accepted when its name is free and its schema agrees with
the registry: it adds one route and at most its own schema. Every other one changes nothing, so a history
of registrations comes to what its successful calls come to.
-/

set_option autoImplicit false

namespace EventPipeline

variable {F : EventFamily}

namespace Registration

variable {registration : Registration F} {name : String} {handler : Handler F}

-- The name that a registration goes by: its own, or one made from its schema.
inductive Named (registration : Registration F) : String → Prop where
  | given {name : String} (present : registration.name = some name) (visible : isBlankText name = false) :
      Named registration name
  | derived {entry : SchemaEntry F} (attached : registration.schema = some entry)
      (unnamed : ∀ name, registration.name = some name → isBlankText name = true) :
      Named registration (entry.name ++ "_handler")

structure Complete (registration : Registration F) (name : String) (handler : Handler F) : Prop where
  handled : registration.handler = some handler
  reads : isBlankText registration.consumeQueue = false
  writes : ∀ queue, registration.publishQueue = some queue → isBlankText queue = false
  named : registration.Named name

theorem resolved_name_iff : registration.resolvedName = some name ↔ registration.Named name := by
  unfold resolvedName
  constructor
  · intro resolved
    split at resolved
    · next own found =>
        cases resolved
        obtain ⟨present, visible⟩ := Option.filter_eq_some_iff.mp found
        exact .given present (by simpa using visible)
    · next none =>
        obtain ⟨entry, attached, rfl⟩ := Option.map_eq_some_iff.mp resolved
        refine .derived attached fun own present => ?_
        simpa [present] using none
  · intro named
    cases named with
    | given present visible => simp [present, Option.filter, visible]
    | @derived entry attached unnamed =>
        have none : registration.name.filter (fun name => !isBlankText name) = none := by
          cases present : registration.name with
          | none => rfl
          | some own => simp [Option.filter, unnamed own present]
        simp [none, attached]

theorem validate_ok_iff :
    registration.validate = .ok (name, handler) ↔ registration.Complete name handler := by
  unfold validate
  constructor
  · intro valid
    split at valid
    · cases valid
    · next own found =>
        split at valid
        · cases valid
        · next readable =>
            split at valid
            · cases valid
            · next writable =>
                split at valid
                · cases valid
                · next resolved =>
                    cases valid
                    refine ⟨found, by simpa using readable, ?_, resolved_name_iff.mp resolved⟩
                    intro queue target
                    simpa [target] using writable
  · intro complete
    have writable : (registration.publishQueue.map isBlankText).getD false = false := by
      cases target : registration.publishQueue with
      | none => rfl
      | some queue => exact complete.writes queue target
    simp [complete.handled, complete.reads, writable, resolved_name_iff.mpr complete.named]

theorem validate_refusal {e : EventError} (refused : registration.validate = .error e) :
    ∃ text, e = .registration text := by
  unfold validate at refused
  repeat' split at refused
  all_goals cases refused
  all_goals exact ⟨_, rfl⟩

end Registration

namespace SchemaRegistry

-- A schema that may be attached: its name is free or belongs to the same kind.
def Fits (registry : SchemaRegistry F) (schema : Option (SchemaEntry F)) : Prop :=
  ∀ entry known, schema = some entry → registry.lookup entry.name = some known → known.kind = entry.kind

-- What an attached schema adds to the registry.
inductive Gains (registry : SchemaRegistry F) : Option (SchemaEntry F) → List (SchemaEntry F) → Prop where
  | unattached : Gains registry none []
  | known {entry known : SchemaEntry F} (found : registry.lookup entry.name = some known)
      (same : known.kind = entry.kind) : Gains registry (some entry) []
  | unknown {entry : SchemaEntry F} (absent : registry.lookup entry.name = none) :
      Gains registry (some entry) [entry]

theorem insert_schema_cases (registry : SchemaRegistry F) (schema : Option (SchemaEntry F)) :
    (∃ new, Service.insertSchema registry schema = .ok ⟨registry.entries ++ new⟩ ∧
        registry.Gains schema new ∧ registry.Fits schema) ∨
      ∃ text, Service.insertSchema registry schema = .error (.registration text) ∧ ¬ registry.Fits schema := by
  cases schema with
  | none => exact .inl ⟨[], by simp [Service.insertSchema], .unattached, nofun⟩
  | some entry =>
      have inserts := insert_cases registry entry
      change (∃ new, registry.insert entry = _ ∧ _ ∧ _) ∨ ∃ text, registry.insert entry = _ ∧ _
      generalize registry.insert entry = result at inserts ⊢
      cases inserts with
      | new absent =>
          refine .inl ⟨[entry], rfl, .unknown absent, ?_⟩
          intro other known same there
          cases same
          cases absent.symm.trans there
      | again found same =>
          refine .inl ⟨[], by rw [List.append_nil], .known found same, ?_⟩
          intro other known attached there
          cases attached
          cases found.symm.trans there
          exact same
      | taken found different => exact .inr ⟨_, rfl, fun fits => different (fits entry _ rfl found)⟩

theorem lookup_append {registry : SchemaRegistry F} {schema : String} {entry : SchemaEntry F}
    (found : registry.lookup schema = some entry) (new : List (SchemaEntry F)) :
    lookup ⟨registry.entries ++ new⟩ schema = some entry := by
  unfold lookup at found ⊢
  rw [List.find?_append, found, Option.some_or]

end SchemaRegistry

namespace Service

variable {service after : Service F} {registration : Registration F}

structure Accepts (service : Service F) (registration : Registration F) (name : String)
    (handler : Handler F) : Prop where
  complete : registration.Complete name handler
  free : ∀ route ∈ service.routes, route.name ≠ name
  fits : service.registry.Fits registration.schema

-- A service with one more route, and with the schemas that came with it.
def extended (service : Service F) (registration : Registration F) (name : String) (handler : Handler F)
    (new : List (SchemaEntry F)) : Service F :=
  { service with
    registry := ⟨service.registry.entries ++ new⟩
    routes := service.routes ++ [service.route registration name handler] }

-- All that a registration can come to.
inductive Answers (service : Service F) (registration : Registration F) :
    Except EventError (Service F) → Prop where
  | refused (text : String) (unfit : ∀ name handler, ¬ service.Accepts registration name handler) :
      Answers service registration (.error (.registration text))
  | accepted {name : String} {handler : Handler F} {new : List (SchemaEntry F)}
      (accepts : service.Accepts registration name handler)
      (gains : service.registry.Gains registration.schema new) :
      Answers service registration (.ok (service.extended registration name handler new))

theorem register_answers (service : Service F) (registration : Registration F) :
    service.Answers registration (service.register registration) := by
  unfold register
  cases valid : registration.validate with
  | error e =>
      obtain ⟨text, rfl⟩ := Registration.validate_refusal valid
      refine .refused text fun name handler accepts => ?_
      rw [Registration.validate_ok_iff.mpr accepts.complete] at valid
      cases valid
  | ok found =>
      obtain ⟨name, handler⟩ := found
      have complete := Registration.validate_ok_iff.mp valid
      have only : ∀ other own, service.Accepts registration other own → other = name := by
        intro other own accepts
        rw [Registration.validate_ok_iff.mpr accepts.complete] at valid
        cases valid
        rfl
      change service.Answers registration
        (if service.handlerNames.contains name then _ else _)
      by_cases taken : name ∈ service.handlerNames
      · rw [if_pos (by simpa using taken)]
        refine .refused _ fun other own accepts => ?_
        obtain ⟨route, member, same⟩ := List.mem_map.mp taken
        exact accepts.free route member (same.trans (only other own accepts).symm)
      · rw [if_neg (by simpa using taken)]
        rcases SchemaRegistry.insert_schema_cases service.registry registration.schema with
          ⟨new, inserted, gains, fits⟩ | ⟨text, refused, unfit⟩
        · rw [inserted]
          refine .accepted ⟨complete, ?_, fits⟩ gains
          intro route member same
          exact taken (List.mem_map.mpr ⟨route, member, same⟩)
        · rw [refused]
          exact .refused text fun other own accepts => unfit accepts.fits

theorem registered_accepts (registered : service.register registration = .ok after) :
    ∃ name handler new, service.Accepts registration name handler ∧
      service.registry.Gains registration.schema new ∧
      after = service.extended registration name handler new := by
  have answers := register_answers service registration
  rw [registered] at answers
  cases answers with
  | accepted accepts gains => exact ⟨_, _, _, accepts, gains, rfl⟩

-- A service that any registrations whatever have led to.
inductive Assembled : Service F → Prop where
  | create (config : Config) (transport : Transport) (outbox : Option StoreId)
      (validator : Option ValidatorId) (classifier : Classifier) :
      Assembled (.create config transport outbox validator classifier)
  | register {service after : Service F} {registration : Registration F} (assembled : Assembled service)
      (registered : service.register registration = .ok after) : Assembled after

theorem names_distinct (assembled : service.Assembled) : (service.routes.map (·.name)).Nodup := by
  induction assembled with
  | create => exact List.nodup_nil
  | register _ registered ih =>
      obtain ⟨name, handler, new, accepts, -, rfl⟩ := registered_accepts registered
      simp only [extended, List.map_append]
      refine List.nodup_append.mpr ⟨ih, List.pairwise_singleton _ _, ?_⟩
      intro taken member other last
      obtain ⟨route, known, rfl⟩ := List.mem_map.mp member
      cases List.mem_singleton.mp last
      exact accepts.free route known

-- The schemas that the routes brought, in order.
def schemas (service : Service F) : List (SchemaEntry F) := service.routes.filterMap (·.schema)

theorem schemas_extended (service : Service F) (registration : Registration F) (name : String)
    (handler : Handler F) (new : List (SchemaEntry F)) :
    (service.extended registration name handler new).schemas =
      service.schemas ++ registration.schema.toList := by
  cases attached : registration.schema <;> simp [schemas, extended, route, attached]

-- The registry has been through the schemas of all routes.
theorem registry_of_schemas (assembled : service.Assembled) : service.registry = .ofHistory service.schemas := by
  induction assembled with
  | create => rfl
  | @register service after registration assembled registered ih =>
      obtain ⟨name, handler, new, -, gains, rfl⟩ := registered_accepts registered
      rw [schemas_extended, SchemaRegistry.of_history_append, ← ih]
      change (⟨service.registry.entries ++ new⟩ : SchemaRegistry F) = _
      generalize registration.schema = attached at gains
      cases gains with
      | unattached => rw [List.append_nil]; rfl
      | known found same =>
          rw [List.append_nil]
          exact (SchemaRegistry.following_same_iff.mpr ⟨_, found⟩).symm
      | @unknown entry absent =>
          exact (SchemaRegistry.following_of_accepted (SchemaRegistry.insert_new absent)).symm

-- It keeps the first schema of each name and no other.
theorem lookup_first (assembled : service.Assembled) (schema : String) :
    service.registry.lookup schema = service.schemas.find? fun entry => entry.name == schema := by
  rw [registry_of_schemas assembled]
  exact SchemaRegistry.lookup_history service.schemas schema

-- The kind that a name is registered for never changes, so a schema stays registered for its route.
theorem schemas_registered (assembled : service.Assembled) {entry : SchemaEntry F}
    (member : entry ∈ service.schemas) :
    ∃ known, service.registry.lookup entry.name = some known ∧ known.kind = entry.kind := by
  induction assembled with
  | create => cases member
  | @register service after registration assembled registered ih =>
      obtain ⟨name, handler, new, -, gains, rfl⟩ := registered_accepts registered
      rw [schemas_extended] at member
      rcases List.mem_append.mp member with old | last
      · obtain ⟨known, found, same⟩ := ih old
        exact ⟨known, SchemaRegistry.lookup_append found new, same⟩
      · rw [Option.mem_toList.mp last] at gains
        cases gains with
        | known found same => exact ⟨_, SchemaRegistry.lookup_append found _, same⟩
        | unknown absent =>
            refine ⟨entry, ?_, rfl⟩
            unfold SchemaRegistry.lookup at absent ⊢
            simp [extended, List.find?_append, absent]

end Service

namespace Scene

variable {scene : Scene F} {service : Service F} {registration : Registration F}

def registerAll (scene : Scene F) (registrations : List (Registration F)) : Scene F :=
  registrations.foldl (fun scene registration => (scene.register registration).2) scene

-- The calls of a history that succeed, each at its turn.
def successes (scene : Scene F) : List (Registration F) → List (Registration F)
  | [] => []
  | registration :: rest =>
      let call := scene.register registration
      match call.1 with
      | .ok _ => registration :: call.2.successes rest
      | .error _ => call.2.successes rest

theorem register_configured (configured : scene.lifetime = .configured service) :
    (∃ e, service.register registration = .error e ∧ scene.register registration = (.error e, scene)) ∨
      ∃ after, service.register registration = .ok after ∧ (scene.register registration).1 = .ok () ∧
        (scene.register registration).2.lifetime = .configured after := by
  unfold register
  rw [configured]
  cases registered : service.register registration with
  | error e => exact .inl ⟨e, rfl, by simp only [registered]⟩
  | ok after => exact .inr ⟨after, rfl, by simp only [registered], by simp only [registered]⟩

end Scene

-- The route that a registration brings.
def Service.Brings (service : Service F) (registration : Registration F) (route : Route F) : Prop :=
  ∃ name handler, registration.Complete name handler ∧ route = service.route registration name handler

-- Induction on the history. The transport never changes, so every route is the one that its registration
-- would have brought at the beginning.
theorem registered_all {scene : Scene F} {service : Service F} (assembled : service.Assembled)
    (configured : scene.lifetime = .configured service) (registrations : List (Registration F)) :
    ∃ (after : Service F) (new : List (Route F)),
      (scene.registerAll registrations).lifetime = .configured after ∧ after.Assembled ∧
      after.routes = service.routes ++ new ∧
      List.Forall₂ service.Brings (scene.successes registrations) new := by
  induction registrations generalizing scene service with
  | nil => exact ⟨service, [], configured, assembled, by simp, .nil⟩
  | cons registration rest ih =>
      change ∃ (after : Service F) (new : List (Route F)),
        ((scene.register registration).2.registerAll rest).lifetime = _ ∧ _ ∧ _ ∧ _
      rcases Scene.register_configured configured with ⟨e, -, refused⟩ | ⟨after, registered, ok, reached⟩
      · rw [Scene.successes, refused]
        exact ih assembled configured
      · rw [Scene.successes, ok]
        obtain ⟨name, handler, brought, accepts, -, rfl⟩ := Service.registered_accepts registered
        obtain ⟨final, new, lifetime, assembled₁, routes, rest⟩ := ih (.register assembled registered) reached
        refine ⟨final, service.route registration name handler :: new, lifetime, assembled₁, ?_,
          .cons ⟨name, handler, accepts.complete, rfl⟩ rest⟩
        rw [routes]
        simp [Service.extended]

end EventPipeline

import EventPipeline.Proofs.Alike
import EventPipeline.Proofs.Pipeline
import EventPipeline.Service.Route

/-!
Processing a message twice. Inside the correlation stage the two runs may see different identifiers, so
the stages there are shown to treat twins alike; outside of it they see the very same message.
-/

set_option autoImplicit false

namespace EventPipeline

open Program

variable {F : EventFamily}

abbrev Program.AlikeResults : Program F (Except EventError (List Message)) →
    Program F (Except EventError (List Message)) → Prop :=
  Program.Alike (ResultAlike AlikeMessages)

-- Steady is for the stages inside the correlation stage, where twins may arrive; Repeats for the ones
-- around it.
def Handler.Steady (handler : Handler F) : Prop :=
  ∀ m n, Message.Twin m n → AlikeResults (handler m) (handler n)

def Handler.Repeats (handler : Handler F) : Prop := ∀ m, AlikeResults (handler m) (handler m)

theorem logging_steady (name : String) {next : Handler F} (steady : next.Steady) :
    Handler.Steady (logAround name next) := by
  intro m n twin
  refine alike_bind (alike_note _ _) fun _ _ _ => alike_bind (steady m n twin) fun a b same => ?_
  cases same with
  | ok outputs => exact alike_bind (alike_note _ _) fun _ _ _ => .done (.ok outputs)
  | error e => exact alike_bind (alike_note _ _) fun _ _ _ => .done (.error e)

theorem tracing_steady (name : String) {next : Handler F} (steady : next.Steady) :
    Handler.Steady (traceAround name next) := by
  intro m n twin
  have body := alike_catch_panic (steady m n twin) (f := fun p =>
      (note (.spanClosed spanName)).bind fun _ => Program.panic p) (g := fun p =>
      (note (.spanClosed spanName)).bind fun _ => Program.panic p)
    fun p => alike_bind (alike_note _ _) fun _ _ _ => .panic p
  refine alike_bind (alike_note _ _) fun _ _ _ => alike_bind body fun a b same => ?_
  exact alike_bind (alike_note _ _) fun _ _ _ => alike_bind (alike_note _ _) fun _ _ _ => .done same

theorem alike_check (validation : SchemaValidation F) {m n : Message} (payload : m.payload = n.payload)
    (schema : String) : Alike AlikeUnit (validation.check m schema) (validation.check n schema) := by
  unfold SchemaValidation.check SchemaValidation.reject
  rw [payload]
  split
  · exact .done (.error _)
  · split
    · exact .done (.error _)
    · split
      · exact .done (.ok trivial)
      · refine alike_bind (alike_validate _ _) fun a b same => ?_
        cases same with
        | ok _ => exact .done (.ok trivial)
        | error e => exact .done (.error _)

theorem validation_steady (validation : SchemaValidation F) (name : String) {next : Handler F}
    (steady : next.Steady) : Handler.Steady (validation.wrap name next) := by
  intro m n twin
  unfold SchemaValidation.wrap
  rw [twin_bags_schema twin.metadata]
  split
  · exact alike_bind (alike_note _ _) fun _ _ _ => steady m n twin
  · refine alike_bind (alike_check validation twin.payload _) fun a b same => ?_
    cases same with
    | ok _ => exact steady m n twin
    | error e => exact .done (.error e)

theorem attempt_steady (policy : RetryPolicy) (name : String) {next : Handler F} (steady : next.Steady)
    {m n : Message} (twin : m.Twin n) (tried left : Nat) :
    AlikeResults (attempt policy name next m tried left) (attempt policy name next n tried left) := by
  induction left generalizing tried with
  | zero => exact steady m n twin
  | succ left ih =>
      refine alike_bind (steady m n twin) fun a b same => ?_
      cases same with
      | ok outputs => exact .done (.ok outputs)
      | error e =>
          dsimp only
          split
          · exact alike_bind (alike_note _ _) fun _ _ _ => alike_bind (alike_count _) fun _ _ _ =>
              alike_bind (alike_sleep _) fun _ _ _ => ih (tried + 1)
          · exact .done (.error e)

theorem retry_steady (policy : RetryPolicy) (name : String) {next : Handler F} (steady : next.Steady) :
    Handler.Steady (retryWith policy name next) :=
  fun _ _ twin => attempt_steady policy name steady twin 0 _

theorem alike_store_all (store : StoreId) (name : String) {outputs others : List Message}
    (alike : AlikeMessages outputs others) :
    Alike AlikeUnit (storeAll store name outputs : Program F _) (storeAll store name others) := by
  induction alike with
  | nil => exact .done (.ok trivial)
  | @cons output other rest remaining first later ih =>
      unfold storeAll
      rw [first.payload]
      refine alike_bind (alike_store store _ (alike_schema first.metadata) first.uuid) fun a b same => ?_
      cases same with
      | ok _ => exact alike_bind (alike_note _ _) fun _ _ _ => ih
      | error e => exact alike_bind (alike_note _ _) fun _ _ _ => .done (.error e)

theorem outbox_steady (store : StoreId) (name : String) {next : Handler F} (steady : next.Steady) :
    Handler.Steady (recordWith store name next) := by
  intro m n twin
  refine alike_bind (steady m n twin) fun a b same => ?_
  cases same with
  | error e => exact .done (.error e)
  | ok outputs =>
      refine alike_bind (alike_store_all store name outputs) fun c d stored => ?_
      cases stored with
      | ok _ => exact .done (.ok outputs)
      | error e => exact .done (.error e)

theorem alike_encode_all {kind : F.Kind} (codec : Codec (F.Value kind)) {inbound other : Metadata}
    (bags : inbound.Alike other) {outs others : List (Outgoing (F.Value kind))}
    (alike : List.Forall₂ Outgoing.Alike outs others) :
    AlikeResults (Handler.encodeAll codec inbound outs) (Handler.encodeAll codec other others) := by
  induction alike with
  | nil => exact .done (.ok .nil)
  | @cons out another rest remaining first later ih =>
      unfold Handler.encodeAll
      rw [← first.value]
      cases codec.encode out.value with
      | error e => exact .done (.error e)
      | ok payload =>
          refine alike_bind alike_fresh_id fun a b ids => alike_bind ih fun c d same => ?_
          cases same with
          | error e => exact .done (.error e)
          | ok messages =>
              have own : (out.metadata.getD inbound).Alike (another.metadata.getD other) := by
                have related := first.metadata
                generalize out.metadata = x at related ⊢
                generalize another.metadata = y at related ⊢
                cases related with
                | none => exact bags
                | some same => exact same
              have stamped := alike_set own Metadata.schemaKey (alike_text_refl (F.schema kind))
              exact .done (.ok (.cons ⟨ids, rfl, stamped⟩ messages))

theorem standard_steady {handler : Handler F} (standard : handler.Standard) : handler.Steady := by
  intro m n twin
  cases standard with
  | raw id => exact alike_call_raw id twin
  | typed id input output decoder encoder =>
      unfold Handler.typed
      rw [twin.payload]
      cases decoder.decode n.payload with
      | error e => exact .done (.error _)
      | ok payload =>
          have context : HandlerContext.Twin (⟨payload, m.metadata, m.uuid⟩ : HandlerContext (F.Value input))
              ⟨payload, n.metadata, n.uuid⟩ := ⟨rfl, twin.metadata, twin.uuid⟩
          refine alike_bind (alike_call_typed id input output context) fun a b same => ?_
          cases same with
          | error e => exact .done (.error e)
          | ok outputs => exact alike_encode_all encoder (twin_bags_alike twin.metadata) outputs

theorem correlation_repeats {next : Handler F} (steady : next.Steady) :
    Handler.Repeats (correlate next) := by
  intro m
  unfold correlate
  split
  · refine .perform ⟨Uuid.ofNat 0, Uuid.ofNat 0, .freshId ⟨0, rfl⟩ ⟨0, rfl⟩⟩ fun a b same => ?_
    cases same with
    | freshId first second => exact steady _ _ ⟨rfl, rfl, .correlated m.metadata first second⟩
  · exact steady m m (twin_refl m)

-- The identifier that the correlation stage makes up is the only thing in which two runs differ from
-- there on; the stages inside it are steady one by one.
theorem inner_repeats (service : Service F) {route : Route F} (standard : route.handler.Standard) :
    (service.inner route).Repeats := by
  have stored : Handler.Steady
      (Chain.apply ((service.outbox.map Stage.outbox).toList) route.name route.handler) := by
    cases service.outbox with
    | none => exact standard_steady standard
    | some store => exact outbox_steady store route.name (standard_steady standard)
  have tried := retry_steady service.config.retry route.name stored
  have checked := validation_steady ⟨service.registry, service.validator⟩ route.name tried
  have split : service.inner route =
      correlate (logAround route.name (traceAround route.name
        (SchemaValidation.wrap ⟨service.registry, service.validator⟩ route.name
          (retryWith service.config.retry route.name
            (Chain.apply ((service.outbox.map Stage.outbox).toList) route.name route.handler))))) := rfl
  rw [split]
  exact correlation_repeats (logging_steady route.name (tracing_steady route.name checked))

theorem alike_decide (classifier : Classifier) (e : EventError) :
    Alike (· = ·) (classifier.decide e : Program F Bool) (classifier.decide e) := by
  cases classifier with
  | standard => exact .done rfl
  | custom id => exact alike_classify id e

theorem poison_repeats (poison : PoisonQueue) (name : String) {next : Handler F} (repeats : next.Repeats) :
    Handler.Repeats (poison.wrap name next) := by
  intro m
  refine alike_bind (repeats m) fun a b same => ?_
  cases same with
  | ok outputs => exact .done (.ok outputs)
  | error e =>
      refine alike_bind (alike_decide poison.classifier e) fun hopeless verdict same => ?_
      subst same
      cases hopeless with
      | false => exact .done (.error e)
      | true =>
          refine alike_bind (alike_publish poison.broker poison.queue (alike_refl m)) fun c d answered => ?_
          cases answered with
          | error refusal => exact alike_bind (alike_note _ _) fun _ _ _ => .done (.error refusal)
          | ok _ =>
              exact alike_bind (alike_note _ _) fun _ _ _ => alike_bind (alike_count _) fun _ _ _ =>
                .done (.ok .nil)

theorem recoverer_repeats (name : String) {next : Handler F} (repeats : next.Repeats) :
    Handler.Repeats (recoverWith name next) := by
  intro m
  apply alike_catch_panic (repeats m)
  intro p
  exact alike_bind (alike_note _ _) fun _ _ _ => alike_bind (alike_count _) fun _ _ _ => .done (.error _)

theorem pipeline_repeats (service : Service F) {route : Route F} (standard : route.handler.Standard) :
    (service.pipeline route).Repeats := by
  have inner := inner_repeats service standard
  rw [pipeline_eq]
  apply recoverer_repeats
  cases found : service.poison? with
  | none =>
      rw [guarded_none found]
      exact inner
  | some poison =>
      rw [guarded_some found]
      exact poison_repeats poison route.name inner

theorem alike_publish_all (route : Route F) (queue : String) {outputs others : List Message}
    (alike : AlikeMessages outputs others) :
    Alike AlikeUnit (route.publishAll queue outputs) (route.publishAll queue others) := by
  induction alike with
  | nil => exact .done (.ok trivial)
  | cons first later ih =>
      refine alike_bind (alike_publish route.publisher queue first) fun a b same => ?_
      cases same with
      | error e => exact .done (.error e)
      | ok _ =>
          exact alike_bind (alike_count _) fun _ _ _ => alike_bind (alike_note _ _) fun _ _ _ => ih

theorem alike_dispatch (route : Route F) {handler : Handler F} (repeats : handler.Repeats) (m : Message) :
    Alike AlikeUnit (route.dispatch handler m) (route.dispatch handler m) := by
  refine alike_bind (repeats m) fun a b same => ?_
  cases same with
  | error e => exact .done (.error e)
  | ok outputs =>
      cases outputs with
      | nil => exact .done (.ok trivial)
      | @cons output other rest remaining first later =>
          have same : rest.length = remaining.length := later.length_eq
          cases target : route.publishQueue with
          | none =>
              dsimp only
              rw [List.length_cons, List.length_cons, same]
              exact .done (.error _)
          | some queue => exact alike_publish_all route queue (.cons first later)

theorem alike_settle_route (route : Route F) (m : Message) (settlement : Settlement) (failure : String) :
    Alike (fun _ _ => True) (route.settle m settlement failure) (route.settle m settlement failure) := by
  refine alike_bind (alike_settle route.subscriber settlement) fun a b same => ?_
  cases same with
  | ok _ => exact .done trivial
  | error e => exact alike_note _ _

theorem process_repeats (service : Service F) {route : Route F} (standard : route.handler.Standard)
    (m : Message) :
    Alike (fun _ _ => True) (route.process (service.pipeline route) m)
      (route.process (service.pipeline route) m) := by
  refine alike_bind (alike_count _) fun _ _ _ =>
    alike_bind (alike_dispatch route (pipeline_repeats service standard) m) fun a b same => ?_
  cases same with
  | ok _ => exact alike_bind (alike_count _) fun _ _ _ => alike_settle_route route m .ack _
  | error e =>
      exact alike_bind (alike_count _) fun _ _ _ => alike_bind (alike_note _ _) fun _ _ _ =>
        alike_settle_route route m _ _

end EventPipeline

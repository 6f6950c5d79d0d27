import EventPipeline.Proofs.Transcript
import EventPipeline.Service.Route

/-!
What a pipeline may ask of its surroundings. Handlers and the stages inside the poison queue never
touch a broker, and no stage settles a delivery. The statements hold for every kind of effect that
includes all internal ones, so that each use can name the publications it allows.
-/

set_option autoImplicit false

namespace EventPipeline

open Program

variable {F : EventFamily}

def Effect.reachesBroker : Effect F → Bool
  | .publish .. => true
  | .settle .. => true
  | _ => false

def Effect.isCall : Effect F → Bool
  | .callRaw .. => true
  | .callTyped .. => true
  | _ => false

-- What every stage may ask for: neither a broker nor a handler learns of it.
def Effect.isRoutine (effect : Effect F) : Bool := !effect.reachesBroker && !effect.isCall

-- Logs, spans and counters. The counter of retries is the one that tells of more than itself.
def Effect.isRemark : Effect F → Bool
  | .note _ => true
  | .count (.retried _) => false
  | .count _ => true
  | _ => false

theorem routine_of_remark {effect : Effect F} (remark : effect.isRemark = true) :
    effect.isRoutine = true := by
  cases effect with
  | note record => rfl
  | count m => rfl
  | _ => cases remark

theorem unreached_of_routine {effect : Effect F} (routine : effect.isRoutine = true) :
    effect.reachesBroker = false := by
  simpa using (Bool.and_eq_true_iff.mp routine).1

theorem unreached_of_call {effect : Effect F} (call : effect.isCall = true) :
    effect.reachesBroker = false := by
  cases effect with
  | callRaw handler message => rfl
  | callTyped handler input output context => rfl
  | _ => cases call

-- The functions behind these two are opaque, so they stand for every handler that can be registered.
inductive Handler.Standard : Handler F → Prop where
  | raw (id : HandlerId) : Standard (.raw id)
  | typed (id : HandlerId) (input output : F.Kind) (decoder : Codec (F.Value input))
      (encoder : Codec (F.Value output)) : Standard (.typed id input output decoder encoder)

def Handler.Only (allowed : Effect F → Prop) (handler : Handler F) : Prop :=
  ∀ message, (handler message).Only allowed

def Stage.Keeps (allowed : Effect F → Prop) (stage : Stage F) : Prop :=
  ∀ name next, Handler.Only allowed next → Handler.Only allowed (stage.wrap name next)

theorem chain_keeps {allowed : Effect F → Prop} {chain : Chain F}
    (kept : ∀ stage ∈ chain, stage.Keeps allowed) (name : String) {handler : Handler F}
    (confined : handler.Only allowed) : Handler.Only allowed (chain.apply name handler) := by
  induction chain with
  | nil => exact confined
  | cons stage rest ih =>
      have inner := ih fun other member => kept other (List.mem_cons_of_mem _ member)
      exact kept stage List.mem_cons_self name _ inner

section Only

variable {allowed : Effect F → Prop}

theorem only_note {record : TraceRecord} (told : allowed (.note record)) :
    (note record : Program F Unit).Only allowed :=
  ⟨told, fun _ => trivial⟩

theorem only_count {m : Measurement} (told : allowed (.count m)) :
    (count m : Program F Unit).Only allowed :=
  ⟨told, fun _ => trivial⟩

theorem only_decide (asked : ∀ id e, allowed (.classify id e)) (classifier : Classifier) (e : EventError) :
    (classifier.decide e : Program F Bool).Only allowed := by
  cases classifier with
  | standard => trivial
  | custom id => exact ⟨asked id e, fun answer => by cases answer <;> trivial⟩

theorem only_publish_all {route : Route F} {queue : String}
    (remarks : ∀ e : Effect F, e.isRemark = true → allowed e)
    (outlet : ∀ message, allowed (.publish route.publisher queue message)) (outputs : List Message) :
    (route.publishAll queue outputs).Only allowed := by
  induction outputs with
  | nil => trivial
  | cons output rest ih =>
      refine only_bind ⟨outlet output, fun reply => only_of_reply reply⟩ fun answer => ?_
      cases answer with
      | error e => trivial
      | ok _ =>
          exact only_bind (only_count (remarks _ rfl)) fun _ => only_bind (only_note (remarks _ rfl)) fun _ => ih

theorem only_settle {route : Route F} {message : Message} {settlement : Settlement} {failure : String}
    (remarks : ∀ e : Effect F, e.isRemark = true → allowed e)
    (verdict : allowed (.settle route.subscriber settlement)) :
    (route.settle message settlement failure).Only allowed := by
  refine only_bind ⟨verdict, fun reply => only_of_reply reply⟩ fun answer => ?_
  cases answer with
  | ok _ => trivial
  | error e => exact only_note (remarks _ rfl)

theorem only_divert {poison : PoisonQueue} {name : String} {message : Message}
    (remarks : ∀ e : Effect F, e.isRemark = true → allowed e)
    (letter : allowed (.publish poison.broker poison.queue message)) (e : EventError) :
    (poison.divert name message e).Only allowed := by
  refine only_bind ⟨letter, fun reply => only_of_reply reply⟩ fun answer => ?_
  cases answer with
  | error refusal => exact only_bind (only_note (remarks _ rfl)) fun _ => trivial
  | ok _ =>
      exact only_bind (only_note (remarks _ rfl)) fun _ => only_bind (only_count (remarks _ rfl)) fun _ => trivial

theorem only_store_all {store : StoreId} {name : String} (noted : ∀ record, allowed (.note record))
    (written : ∀ eventType messageId payload, allowed (.store store eventType messageId payload))
    (outputs : List Message) : (storeAll store name outputs).Only allowed := by
  induction outputs with
  | nil => trivial
  | cons output rest ih =>
      refine only_bind ⟨written _ _ _, fun reply => only_of_reply reply⟩ fun result => ?_
      cases result with
      | ok _ => exact only_bind (only_note (noted _)) fun _ => ih
      | error e => exact only_bind (only_note (noted _)) fun _ => trivial

theorem only_encode_all {kind : F.Kind} {codec : Codec (F.Value kind)} {inbound : Metadata}
    (named : allowed .freshId) (outs : List (Outgoing (F.Value kind))) :
    (Handler.encodeAll codec inbound outs).Only allowed := by
  induction outs with
  | nil => trivial
  | cons out rest ih =>
      unfold Handler.encodeAll
      split
      · trivial
      · refine only_bind ⟨named, fun _ => trivial⟩ fun uuid => only_bind ih fun result => ?_
        cases result <;> trivial

theorem dispatch_only {route : Route F} {handler : Handler F}
    (remarks : ∀ e : Effect F, e.isRemark = true → allowed e)
    (outlet : ∀ queue, route.publishQueue = some queue →
      ∀ message, allowed (.publish route.publisher queue message))
    (confined : handler.Only allowed) (message : Message) : (route.dispatch handler message).Only allowed := by
  refine only_bind (confined message) fun result => ?_
  cases result with
  | error e => trivial
  | ok outputs =>
      cases outputs with
      | nil => trivial
      | cons output rest =>
          cases target : route.publishQueue with
          | none => trivial
          | some queue => exact only_publish_all remarks (outlet queue target) _

theorem process_only {route : Route F} {handler : Handler F}
    (remarks : ∀ e : Effect F, e.isRemark = true → allowed e)
    (outlet : ∀ queue, route.publishQueue = some queue →
      ∀ message, allowed (.publish route.publisher queue message))
    (verdict : ∀ settlement, allowed (.settle route.subscriber settlement))
    (confined : handler.Only allowed) (message : Message) : (route.process handler message).Only allowed := by
  refine only_bind (only_count (remarks _ rfl)) fun _ =>
    only_bind (dispatch_only remarks outlet confined message) fun fate => ?_
  cases fate with
  | ok _ => exact only_bind (only_count (remarks _ rfl)) fun _ => only_settle remarks (verdict _)
  | error e =>
      exact only_bind (only_count (remarks _ rfl)) fun _ => only_bind (only_note (remarks _ rfl)) fun _ =>
        only_settle remarks (verdict _)

end Only

section Routine

variable {allowed : Effect F → Prop} (routine : ∀ e : Effect F, e.isRoutine = true → allowed e)

include routine

theorem recoverer_keeps : (Stage.recoverer : Stage F).Keeps allowed := by
  intro name next confined message
  apply only_catch_panic (confined message)
  intro p
  exact only_bind (only_note (routine _ rfl)) fun _ => only_bind (only_count (routine _ rfl)) fun _ => trivial

theorem correlation_keeps : (Stage.correlation : Stage F).Keeps allowed := by
  intro name next confined message
  simp only [Stage.correlation, correlate]
  split
  · exact ⟨routine _ rfl, fun id => confined _⟩
  · exact confined message

theorem logging_keeps : (Stage.logging : Stage F).Keeps allowed := by
  intro name next confined message
  refine only_bind (only_note (routine _ rfl)) fun _ => only_bind (confined message) fun result => ?_
  cases result with
  | ok outputs => exact only_bind (only_note (routine _ rfl)) fun _ => trivial
  | error e => exact only_bind (only_note (routine _ rfl)) fun _ => trivial

theorem tracing_keeps : (Stage.tracing : Stage F).Keeps allowed := by
  intro name next confined message
  have body : ((next message).catchPanic fun p =>
      (note (.spanClosed spanName)).bind fun _ => Program.panic p).Only allowed :=
    only_catch_panic (confined message) fun p => only_bind (only_note (routine _ rfl)) fun _ => trivial
  refine only_bind (only_note (routine _ rfl)) fun _ => only_bind body fun result => ?_
  exact only_bind (only_note (routine _ rfl)) fun _ => only_bind (only_note (routine _ rfl)) fun _ => trivial

theorem only_check (validation : SchemaValidation F) (message : Message) (schema : String) :
    (validation.check message schema).Only allowed := by
  unfold SchemaValidation.check
  split
  · trivial
  · split
    · trivial
    · split
      · trivial
      · refine only_bind ⟨routine _ rfl, fun reply => only_of_reply reply⟩ fun result => ?_
        cases result <;> trivial

theorem validation_keeps (validation : SchemaValidation F) : validation.stage.Keeps allowed := by
  intro name next confined message
  simp only [SchemaValidation.stage, SchemaValidation.wrap]
  split
  · exact only_bind (only_note (routine _ rfl)) fun _ => confined message
  · refine only_bind (only_check routine validation message _) fun result => ?_
    cases result with
    | ok _ => exact confined message
    | error e => trivial

theorem only_attempt (policy : RetryPolicy) (name : String) {next : Handler F} (confined : next.Only allowed)
    (message : Message) (tried left : Nat) :
    (attempt policy name next message tried left).Only allowed := by
  induction left generalizing tried with
  | zero => exact confined message
  | succ left ih =>
      refine only_bind (confined message) fun result => ?_
      cases result with
      | ok outputs => trivial
      | error e =>
          dsimp only
          split
          · exact only_bind (only_note (routine _ rfl)) fun _ => only_bind (only_count (routine _ rfl)) fun _ =>
              ⟨routine _ rfl, fun _ => ih (tried + 1)⟩
          · trivial

theorem retry_keeps (policy : RetryPolicy) : (Stage.retry policy : Stage F).Keeps allowed := by
  intro name next confined message
  exact only_attempt routine policy name confined message 0 _

theorem outbox_keeps (store : StoreId) : (Stage.outbox store : Stage F).Keeps allowed := by
  intro name next confined message
  refine only_bind (confined message) fun result => ?_
  cases result with
  | error e => trivial
  | ok outputs =>
      refine only_bind (only_store_all (fun _ => routine _ rfl) (fun _ _ _ => routine _ rfl) outputs)
        fun stored => ?_
      cases stored <;> trivial

theorem poison_keeps (poison : PoisonQueue)
    (letters : ∀ message, allowed (.publish poison.broker poison.queue message)) :
    (poison.stage : Stage F).Keeps allowed := by
  intro name next confined message
  refine only_bind (confined message) fun result => ?_
  cases result with
  | ok outputs => trivial
  | error e =>
      refine only_bind (only_decide (fun _ _ => routine _ rfl) poison.classifier e) fun hopeless => ?_
      cases hopeless with
      | false => trivial
      | true => exact only_divert (fun e told => routine e (routine_of_remark told)) (letters message) e

end Routine

-- Handlers call the function they are made of, and name what it returns.
theorem standard_only {allowed : Effect F → Prop} (calls : ∀ e : Effect F, e.isCall = true → allowed e)
    (named : allowed .freshId) {handler : Handler F} (standard : handler.Standard) :
    handler.Only allowed := by
  intro message
  cases standard with
  | raw id => exact ⟨calls _ rfl, fun reply => only_of_reply reply⟩
  | typed id input output decoder encoder =>
      unfold Handler.typed
      split
      · trivial
      · refine only_bind ⟨calls _ rfl, fun reply => only_of_reply reply⟩ fun result => ?_
        cases result with
        | error e => trivial
        | ok outputs => exact only_encode_all named outputs

end EventPipeline

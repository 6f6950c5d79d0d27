import EventPipeline.Proofs.Passage

/-!
Stages as layers around a handler. A layer is given a message and decides what to do with it: it may ask its
surroundings, call the handler inside it any number of times with any messages, and see how each call went, a
panic included. All it knows of that handler is what the calls come to. The stages of a service are layers.
-/

set_option autoImplicit false

namespace EventPipeline

open Program Transcript

variable {F : EventFamily} {α β γ : Type}

namespace Program

-- The same program, but its outcome is looked at and not suffered.
def caught : Program F α → Program F (Except Panic α)
  | .done value => .done (.ok value)
  | .panic p => .done (.error p)
  | .perform effect next => .perform effect fun answer => (next answer).caught

theorem bind_assoc (p : Program F α) (f : α → Program F β) (g : β → Program F γ) :
    (p.bind f).bind g = p.bind fun value => (f value).bind g := by
  induction p with
  | done value => rfl
  | panic q => rfl
  | perform effect next ih => exact congrArg (perform effect) (funext ih)

theorem bind_caught (p : Program F α) (f : α → Program F β) :
    p.bind f = p.caught.bind fun
      | .ok value => f value
      | .error q => .panic q := by
  induction p with
  | done value => rfl
  | panic q => rfl
  | perform effect next ih => exact congrArg (perform effect) (funext ih)

theorem catch_panic_caught (p : Program F α) (handler : Panic → Program F α) :
    p.catchPanic handler = p.caught.bind fun
      | .ok value => .done value
      | .error q => handler q := by
  induction p with
  | done value => rfl
  | panic q => rfl
  | perform effect next ih => exact congrArg (perform effect) (funext ih)

theorem caught_bind (p : Program F α) (f : Except Panic α → Program F β) :
    (p.caught.bind f).caught = p.caught.bind fun outcome => (f outcome).caught := by
  induction p with
  | done value => rfl
  | panic q => rfl
  | perform effect next ih => exact congrArg (perform effect) (funext ih)

end Program

inductive Treatment (F : EventFamily) where
  | done (result : Except EventError (List Message))
  | panic (p : Panic)
  | perform (effect : Effect F) (next : effect.Answer → Treatment F)
  | call (message : Message) (next : Handler.Outcome → Treatment F)

namespace Treatment

def around (inside : Handler F) : Treatment F → Program F (Except EventError (List Message))
  | .done result => .done result
  | .panic p => .panic p
  | .perform effect next => .perform effect fun answer => (next answer).around inside
  | .call message next => (inside message).caught.bind fun outcome => (next outcome).around inside

-- First a program, which calls no handler.
def first : Program F α → (α → Treatment F) → Treatment F
  | .done value, next => next value
  | .panic p, _ => .panic p
  | .perform effect rest, next => .perform effect fun answer => first (rest answer) next

-- A call whose panic goes on.
def await (message : Message) (next : Except EventError (List Message) → Treatment F) : Treatment F :=
  .call message fun
    | .ok result => next result
    | .error p => .panic p

theorem around_first (inside : Handler F) (p : Program F α) (next : α → Treatment F) :
    (first p next).around inside = p.bind fun value => (next value).around inside := by
  induction p with
  | done value => rfl
  | panic q => rfl
  | perform effect rest ih => exact congrArg (Program.perform effect) (funext ih)

theorem around_await (inside : Handler F) (message : Message)
    (next : Except EventError (List Message) → Treatment F) :
    (await message next).around inside = (inside message).bind fun result => (next result).around inside := by
  rw [bind_caught, await, around]
  congr 1
  funext outcome
  cases outcome <;> rfl

end Treatment

-- A program with calls of a handler in it that does nothing but call it.
def Treated (p : Handler F → Program F (Except EventError (List Message))) : Prop :=
  ∃ treatment : Treatment F, ∀ inside, p inside = treatment.around inside

section Treated

variable {q : α → Handler F → Program F (Except EventError (List Message))}

theorem treated_alone (p : Program F (Except EventError (List Message))) : Treated fun _ => p :=
  ⟨.first p .done, fun inside => by rw [Treatment.around_first]; exact (bind_done p).symm⟩

theorem treated_after (p : Program F α) (each : ∀ value, Treated (q value)) :
    Treated fun inside => p.bind fun value => q value inside := by
  refine ⟨.first p fun value => (each value).choose, fun inside => ?_⟩
  rw [Treatment.around_first]
  exact congrArg p.bind (funext fun value => (each value).choose_spec inside)

theorem treated_call (message : Message)
    {q : Except EventError (List Message) → Handler F → Program F (Except EventError (List Message))}
    (each : ∀ result, Treated (q result)) :
    Treated fun inside => (inside message).bind fun result => q result inside := by
  refine ⟨.await message fun result => (each result).choose, fun inside => ?_⟩
  rw [Treatment.around_await]
  exact congrArg (inside message).bind (funext fun result => (each result).choose_spec inside)

theorem treated_handing_on (message : Message) : Treated fun inside : Handler F => inside message :=
  ⟨.await message .done, fun inside => by rw [Treatment.around_await]; exact (bind_done _).symm⟩

theorem treated_rescue (message : Message) (rescue : Panic → Program F (Except EventError (List Message))) :
    Treated fun inside : Handler F => (inside message).catchPanic rescue := by
  refine ⟨.call message fun
    | .ok result => .done result
    | .error p => .first (rescue p) .done, fun inside => ?_⟩
  dsimp only
  rw [catch_panic_caught, Treatment.around]
  congr 1
  funext outcome
  cases outcome with
  | ok result => rfl
  | error p => exact ((rescue p).bind_done).symm.trans (Treatment.around_first inside (rescue p) .done).symm

end Treated

structure Layer (F : EventFamily) where
  name : String
  treat : String → Message → Treatment F

def Layer.stage (layer : Layer F) : Stage F :=
  ⟨layer.name, fun handlerName inside message => (layer.treat handlerName message).around inside⟩

def Stage.Layered (stage : Stage F) : Prop := ∃ layer : Layer F, layer.stage = stage

section Stages

theorem layered_of_treated {stage : Stage F}
    (treated : ∀ handlerName message, Treated fun inside => stage.wrap handlerName inside message) :
    stage.Layered := by
  refine ⟨⟨stage.name, fun handlerName message => (treated handlerName message).choose⟩, ?_⟩
  obtain ⟨name, wrap⟩ := stage
  refine congrArg (Stage.mk name) (funext fun handlerName => funext fun inside => funext fun message => ?_)
  exact ((treated handlerName message).choose_spec inside).symm

theorem recoverer_layered : (Stage.recoverer : Stage F).Layered :=
  layered_of_treated fun _ message => treated_rescue message _

theorem poison_layered (poison : PoisonQueue) : (poison.stage : Stage F).Layered :=
  layered_of_treated fun _ message => treated_call message fun _ => treated_alone _

theorem correlation_layered : (Stage.correlation : Stage F).Layered := by
  refine layered_of_treated fun handlerName message => ?_
  simp only [Stage.correlation, correlate]
  split
  · exact treated_after .freshId fun id => treated_handing_on _
  · exact treated_handing_on message

theorem validation_layered (validation : SchemaValidation F) : validation.stage.Layered := by
  refine layered_of_treated fun handlerName message => ?_
  simp only [SchemaValidation.stage, SchemaValidation.wrap]
  split
  · exact treated_after _ fun _ => treated_handing_on message
  · refine treated_after _ fun verdict => ?_
    cases verdict with
    | ok _ => exact treated_handing_on message
    | error e => exact treated_alone _

-- Induction on the attempts left: each of them is one more call.
theorem treated_attempts (policy : RetryPolicy) (handlerName : String) (message : Message) (tried left : Nat) :
    Treated fun inside : Handler F => attempt policy handlerName inside message tried left := by
  induction left generalizing tried with
  | zero => exact treated_handing_on message
  | succ left ih =>
      refine treated_call message fun result => ?_
      cases result with
      | ok outputs => exact treated_alone _
      | error e =>
          dsimp only
          split
          · exact treated_after _ fun _ => treated_after _ fun _ => treated_after _ fun _ => ih (tried + 1)
          · exact treated_alone _

theorem retry_layered (policy : RetryPolicy) : (Stage.retry policy : Stage F).Layered :=
  layered_of_treated fun handlerName message => treated_attempts policy handlerName message 0 _

theorem outbox_layered (store : StoreId) : (Stage.outbox store : Stage F).Layered :=
  layered_of_treated fun _ message => treated_call message fun _ => treated_alone _

theorem layers_of_chain {chain : Chain F} (layered : ∀ stage ∈ chain, stage.Layered) :
    ∃ layers : List (Layer F), layers.map Layer.stage = chain := by
  induction chain with
  | nil => exact ⟨[], rfl⟩
  | cons stage rest ih =>
      obtain ⟨layer, same⟩ := layered stage List.mem_cons_self
      obtain ⟨layers, others⟩ := ih fun other member => layered other (List.mem_cons_of_mem _ member)
      exact ⟨layer :: layers, by rw [List.map_cons, same, others]⟩

end Stages

namespace Treatment

def noting (records : List TraceRecord) (next : Treatment F) : Treatment F :=
  records.foldr (fun record rest => .perform (.note record) fun _ => rest) next

def conclude : Handler.Outcome → Treatment F
  | .ok result => .done result
  | .error p => .panic p

end Treatment

namespace Layer

-- A layer that hands on the message and what came of it, with a note before and some notes afterwards.
def watcher (name : String) (before : String → Message → TraceRecord)
    (after : String → Message → Handler.Outcome → List TraceRecord) : Layer F :=
  ⟨name, fun handlerName message => .perform (.note (before handlerName message)) fun _ =>
    .call message fun outcome => .noting (after handlerName message outcome) (.conclude outcome)⟩

def logging : Layer F :=
  let about (handlerName : String) (message : Message) : Labels :=
    [("handler", handlerName), ("message_uuid", message.uuid)]
  watcher "logging"
    (fun handlerName message =>
      .event .debug "Handling message"
        ⟨about handlerName message ++ [("payload", message.payloadText)], some message.metadata⟩)
    fun handlerName message => fun
      | .ok (.ok outputs) =>
          [.event .debug "Message handled"
            (about handlerName message ++ [("outputs", decimalText outputs.length)])]
      | .ok (.error e) =>
          [.event .debug "Message handling failed" (about handlerName message ++ [("error", e.message)])]
      | .error _ => []

def tracing : Layer F :=
  watcher "tracing"
    (fun handlerName message =>
      .spanOpened spanName
        ⟨[("handler", handlerName), ("message_uuid", message.uuid),
          ("schema", message.metadata.schema?.getD ""),
          ("correlation_id", message.metadata.correlationId?.getD "")], some message.metadata⟩)
    fun _ _ => fun
      | .ok (.ok _) => [.spanRecorded [("outcome", "ok")], .spanClosed spanName]
      | .ok (.error _) => [.spanRecorded [("outcome", "error")], .spanClosed spanName]
      | .error _ => [.spanClosed spanName]

theorem logging_stage : (logging : Layer F).stage = Stage.logging := by
  refine congrArg (Stage.mk "logging") ?_
  funext handlerName inside message
  refine congrArg (Program.perform _) (funext fun _ => ?_)
  refine Eq.trans ?_ (bind_caught (inside message) _).symm
  refine congrArg (inside message).caught.bind (funext fun outcome => ?_)
  rcases outcome with p | e | outputs <;> rfl

theorem tracing_stage : (tracing : Layer F).stage = Stage.tracing := by
  refine congrArg (Stage.mk "tracing") ?_
  funext handlerName inside message
  refine congrArg (Program.perform _) (funext fun _ => ?_)
  refine Eq.trans ?_ (congrArg (Program.bind · _) (catch_panic_caught (inside message) _)).symm
  rw [Program.bind_assoc]
  refine congrArg (inside message).caught.bind (funext fun outcome => ?_)
  rcases outcome with p | e | outputs <;> rfl

end Layer

theorem service_layers (service : Service F) :
    ∃ layers : List (Layer F), layers.map Layer.stage = service.chain := by
  refine layers_of_chain fun stage member => ?_
  simp only [Service.chain, List.mem_append, List.mem_cons, List.not_mem_nil, or_false, Option.mem_toList,
    Option.map_eq_some_iff] at member
  rcases member with ((rfl | ⟨poison, -, rfl⟩) | rfl | rfl | rfl | rfl | rfl) | ⟨store, -, rfl⟩
  · exact recoverer_layered
  · exact poison_layered poison
  · exact correlation_layered
  · exact ⟨_, Layer.logging_stage⟩
  · exact ⟨_, Layer.tracing_stage⟩
  · exact validation_layered _
  · exact retry_layered _
  · exact outbox_layered store

end EventPipeline

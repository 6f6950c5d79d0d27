import EventPipeline.Proofs.Settlement

/-!
Dead letters. A message goes to the poison queue at most once, namely when the inner stages return an
error that the classifier takes for hopeless, and then exactly as it was received. Whether the queue
accepts it decides what becomes of the delivery.
-/

set_option autoImplicit false

namespace EventPipeline

open Program Transcript

variable {F : EventFamily}

def Classifier.judge (verdicts : ClassifierId → EventError → Bool) : Classifier → EventError → Bool
  | .standard, e => e.isPoison
  | .custom id, e => verdicts id e

def Surroundings.Decides (s : Surroundings F) (verdicts : ClassifierId → EventError → Bool) : Prop :=
  ∀ past id e, s past (.classify id e) = (.ok (verdicts id e) : Except Panic Bool)

def Exchange.judgedBy (verdicts : ClassifierId → EventError → Bool) : Exchange F → Prop
  | ⟨.classify id e, answer⟩ => answer = (.ok (verdicts id e) : Except Panic Bool)
  | _ => True

theorem judged_play {α : Type} {s : Surroundings F} {verdicts : ClassifierId → EventError → Bool}
    (decides : s.Decides verdicts) (past : Transcript F) (p : Program F α) :
    ∀ x ∈ (play s past p).1, x.judgedBy verdicts := by
  intro x member
  obtain ⟨before, effect, rfl⟩ := answer_of_mem_play s past p member
  cases effect with
  | classify id e => exact decides before id e
  | _ => trivial

theorem poison_of_config {service : Service F} {queue : String}
    (configured : service.config.poisonQueue = some queue) (named : isBlankText queue = false) :
    service.poison? = some ⟨queue, service.transport.publisher, service.classifier⟩ := by
  simp [Service.poison?, configured, Option.filter, named]

theorem ends_decide {verdicts : ClassifierId → EventError → Bool} {classifier : Classifier}
    {e : EventError} {t : Transcript F} {decision : Except Panic Bool}
    (ends : Ends (classifier.decide e) t decision) (judged : ∀ x ∈ t, x.judgedBy verdicts) :
    decision = .ok (classifier.judge verdicts e) := by
  cases classifier with
  | standard => exact (ends_done.mp ends).2
  | custom id =>
      obtain ⟨answer, u, rfl, rest⟩ := ends_perform.mp ends
      have given : answer = (.ok (verdicts id e) : Except Panic Bool) := judged _ List.mem_cons_self
      subst given
      exact (ends_done.mp rest).2

-- What became of a message in the poison stage, told by the verdict on the error of the inner stages.
inductive PoisonQueue.Fate (poison : PoisonQueue) (judge : EventError → Bool) (message : Message) :
    Except Panic (Except EventError (List Message)) → List (Publication × Reply Unit) →
      Except Panic (Except EventError (List Message)) → Prop where
  | broken (p : Panic) : Fate poison judge message (.error p) [] (.error p)
  | passed (outputs : List Message) :
      Fate poison judge message (.ok (.ok outputs)) [] (.ok (.ok outputs))
  | spared {e : EventError} (bearable : judge e = false) :
      Fate poison judge message (.ok (.error e)) [] (.ok (.error e))
  | diverted {e : EventError} (hopeless : judge e = true) (reply : Reply Unit) :
      Fate poison judge message (.ok (.error e)) [(⟨poison.broker, poison.queue, message⟩, reply)]
        (reply.outcome.map fun answer => answer.map fun _ => [])

theorem ruling_fate {poison : PoisonQueue} {verdicts : ClassifierId → EventError → Bool} {name : String}
    {message : Message} {inside outcome : Except Panic (Except EventError (List Message))}
    {later : Transcript F} (ruling : poison.Ruling name message inside later outcome)
    (judged : ∀ x ∈ later, x.judgedBy verdicts) :
    poison.Fate (poison.classifier.judge verdicts) message inside (publishes later) outcome := by
  cases ruling with
  | broken p => exact .broken p
  | passed outputs => exact .passed outputs
  | undecided decision => cases ends_decide decision judged
  | @spared e t decision =>
      have verdict := Except.ok.inj (ends_decide decision judged)
      rw [(PoisonQueue.decide_quiet decision).1]
      exact .spared verdict.symm
  | @diverted e t u outcome decision diversion =>
      have verdict := Except.ok.inj
        (ends_decide decision fun x member => judged x (List.mem_append_left _ member))
      obtain ⟨reply, letter, rfl⟩ := PoisonQueue.ends_divert diversion
      rw [publishes_append, (PoisonQueue.decide_quiet decision).1, letter]
      exact .diverted verdict.symm reply

-- Around the poison stage there is only the recoverer, and inside it nobody publishes.
theorem pipeline_fate {service : Service F} {route : Route F} (standard : route.handler.Standard)
    {poison : PoisonQueue} (found : service.poison? = some poison)
    {verdicts : ClassifierId → EventError → Bool} {message : Message} {t : Transcript F}
    {result : Except EventError (List Message)} (ends : Ends (service.pipeline route message) t (.ok result))
    (judged : ∀ x ∈ t, x.judgedBy verdicts) :
    ∃ attempts inside outcome, attempts <+: t ∧ Ends (service.inner route message) attempts inside ∧
      poison.Fate (poison.classifier.judge verdicts) message inside (publishes t) outcome ∧
      result = recovered outcome := by
  rw [pipeline_eq, guarded_some found] at ends
  obtain ⟨t₁, closing, outcome, rfl, guarded, same, silent, -⟩ := ends_recover_with ends
  obtain ⟨attempts, inside, later, rfl, tried, ruling⟩ := PoisonQueue.ends_wrap guarded
  refine ⟨attempts, inside, outcome, ?_, tried, ?_, Except.ok.inj same⟩
  · exact (List.prefix_append _ _).trans (List.prefix_append _ _)
  · rw [publishes_append, publishes_append, (inner_quiet standard tried).1, silent, List.nil_append,
      List.append_nil]
    exact ruling_fate ruling fun x member => judged x (by simp [member])

theorem Route.delivers_error {route : Route F} {e : EventError} {t : Transcript F}
    {outcome : Except Panic (Except EventError Unit)} (delivers : route.Delivers (.error e) t outcome) :
    t = [] ∧ outcome = .ok (.error e) := by
  cases delivers with
  | failed e => exact ⟨rfl, rfl⟩

theorem Route.delivers_no_outputs {route : Route F} {t : Transcript F}
    {outcome : Except Panic (Except EventError Unit)} (delivers : route.Delivers (.ok []) t outcome) :
    publishes t = [] ∧ outcome = .ok (.ok ()) := by
  cases delivers with
  | empty => exact ⟨rfl, rfl⟩
  | homeless present absent => exact absurd rfl present
  | published target ends =>
      obtain ⟨rfl, rfl⟩ := ends_done.mp ends
      exact ⟨rfl, rfl⟩

section Account

variable {service : Service F} {route : Route F} {message : Message} {t handled delivering concluding :
  Transcript F} {outcome : Except Panic Unit} {delivered : Except Panic (Except EventError Unit)}

theorem account_of_error {e : EventError}
    (account : Account service route message t outcome handled (.error e) delivering concluding delivered) :
    publishes t = publishes handled ∧ publishes (delivering ++ concluding) = [] ∧
      settlements t = [(route.subscriber, .nack (decide (e.category = .transient)))] := by
  obtain ⟨rfl, fate⟩ := Route.delivers_error account.delivers
  have silent : publishes (([] : Transcript F) ++ concluding) = [] := account.silent
  refine ⟨?_, silent, account.settled _ fate⟩
  rw [account.whole]
  change publishes (handled ++ _) = _
  rw [publishes_append, silent, List.append_nil]

theorem account_of_no_outputs
    (account : Account service route message t outcome handled (.ok []) delivering concluding delivered) :
    publishes (delivering ++ concluding) = [] ∧ settlements t = [(route.subscriber, .ack)] := by
  obtain ⟨silent, fate⟩ := Route.delivers_no_outputs account.delivers
  exact ⟨by rw [publishes_append, silent, account.silent, List.append_nil], account.settled _ fate⟩

end Account

theorem process_dead_letters {service : Service F} (built : service.Built) {route : Route F}
    (member : route ∈ service.routes) {queue : String}
    (configured : service.config.poisonQueue = some queue) (named : isBlankText queue = false)
    (message : Message) {verdicts : ClassifierId → EventError → Bool} {s : Surroundings F}
    (decides : s.Decides verdicts) :
    ∃ attempts inside handled result after,
      let run := play s [] (route.process (service.pipeline route) message)
      let letter : Publication := ⟨service.transport.publisher, queue, message⟩
      let judge := service.classifier.judge verdicts
      run.1 = ⟨.count (.received route.name), ()⟩ :: (handled ++ after) ∧
      Ends (service.pipeline route message) handled (.ok result) ∧
      attempts <+: handled ∧ Ends (service.inner route message) attempts inside ∧
      (sent handled = [] ∨ sent handled = [letter]) ∧
      (sent handled = [letter] ↔ ∃ e, inside = .ok (.error e) ∧ judge e = true) ∧
      (∀ p ∈ sent after, p.broker = route.publisher ∧ route.publishQueue = some p.queue) ∧
      (accepted handled = [letter] →
        result = .ok [] ∧ sent after = [] ∧ settlements run.1 = [(route.subscriber, .ack)]) ∧
      (∀ e₂, refusals handled = [e₂] →
        result = .error e₂ ∧ accepted run.1 = [] ∧ sent after = [] ∧
          settlements run.1 = [(route.subscriber, .nack (decide (e₂.category = .transient)))]) ∧
      ∀ e, inside = .ok (.error e) → judge e = false →
        result = .error e ∧ sent run.1 = [] ∧
          settlements run.1 = [(route.subscriber, .nack (decide (e.category = .transient)))] := by
  have standard := built_standard built member
  obtain ⟨handled, result, delivering, concluding, delivered, account⟩ :=
    process_account standard (ends_play s [] (route.process (service.pipeline route) message))
  have judged : ∀ x ∈ handled, x.judgedBy verdicts := by
    intro x within
    apply judged_play decides [] (route.process (service.pipeline route) message)
    rw [account.whole]
    exact List.mem_cons_of_mem _ (List.mem_append_left _ within)
  obtain ⟨attempts, inside, outcome, early, tried, fate, same⟩ :=
    pipeline_fate standard (poison_of_config configured named) account.pipeline judged
  refine ⟨attempts, inside, handled, result, delivering ++ concluding, account.whole, account.pipeline,
    early, tried, ?_⟩
  have targets : ∀ p ∈ sent (delivering ++ concluding),
      p.broker = route.publisher ∧ route.publishQueue = some p.queue := by
    rw [sent, publishes_append, account.silent, List.append_nil]
    exact Route.delivers_to_queue account.delivers
  -- All that is left to say follows from the fate of the message in the poison stage.
  generalize letters : publishes handled = published at fate
  have sends : sent handled = published.map (·.1) := congrArg _ letters
  have accepts : accepted handled = published.filterMap acceptance? := congrArg _ letters
  have refuses : refusals handled = published.filterMap refusal? := congrArg _ letters
  rw [sends, accepts, refuses]
  cases fate with
  | broken p =>
      refine ⟨.inl rfl, by simp, targets, by simp, by simp, by simp⟩
  | passed outputs =>
      refine ⟨.inl rfl, by simp, targets, by simp, by simp, by simp⟩
  | @spared e bearable =>
      refine ⟨.inl rfl, ?_, targets, by simp, by simp, ?_⟩
      · simpa using bearable
      · intro other found _
        cases found
        subst same
        obtain ⟨publishing, -, settled⟩ := account_of_error account
        exact ⟨rfl, by rw [sent, publishing, letters]; rfl, settled⟩
  | @diverted e hopeless reply =>
      refine ⟨.inr rfl, ?_, targets, ?_, ?_, ?_⟩
      · simpa using hopeless
      · intro taken
        cases reply with
        | error refusal => cases taken
        | panic p => cases taken
        | ok _ =>
            subst same
            obtain ⟨silent, settled⟩ := account_of_no_outputs account
            exact ⟨rfl, by rw [sent, silent]; rfl, settled⟩
      · intro refusal refused
        cases reply with
        | ok _ => cases refused
        | panic p => cases refused
        | error _ =>
            cases refused
            subst same
            obtain ⟨publishing, silent, settled⟩ := account_of_error account
            exact ⟨rfl, by rw [accepted, publishing, letters]; rfl, by rw [sent, silent]; rfl, settled⟩
      · intro other found bearable
        cases found
        rw [hopeless] at bearable
        cases bearable

-- As obliging as can be, except that raw handlers fail.
def Surroundings.failing (e : EventError) : Surroundings F
  | _, .callRaw .. => .error e
  | past, effect => obliging past effect

theorem failing_decides (e : EventError) :
    (Surroundings.failing e : Surroundings F).Decides fun _ _ => false := by
  intro past id other
  rfl

def buryingConfig : Config := { Config.default with poisonQueue := some "dead" }

def oddPayload : EventError := .unprocessable [] none "odd" .unknown

theorem copy_process_dead_letters :
    (copyService buryingConfig : Service Events.family).Built ∧ isBlankText "dead" = false ∧
      (Surroundings.failing oddPayload : Surroundings Events.family).Decides (fun _ _ => false) ∧
      ∃ handled, sent handled = [⟨"main", "dead", ⟨"m-1", [], .empty⟩⟩] ∧
        ∃ result, Ends ((copyService buryingConfig : Service Events.family).pipeline
          (copyRoute buryingConfig) ⟨"m-1", [], .empty⟩) handled (.ok result) := by
  refine ⟨copy_built _, by decide, failing_decides _, ?_⟩
  obtain ⟨attempts, inside, handled, result, after, whole, ends, -, -, letters, -, targets, -⟩ :=
    process_dead_letters (copy_built buryingConfig) List.mem_cons_self rfl (by decide)
      ⟨"m-1", [], .empty⟩ (failing_decides oddPayload)
  refine ⟨handled, ?_, result, ends⟩
  have all : sent (play (.failing oddPayload) [] ((copyRoute buryingConfig).process
      ((copyService buryingConfig : Service Events.family).pipeline (copyRoute buryingConfig))
      ⟨"m-1", [], .empty⟩)).1 = [⟨"main", "dead", ⟨"m-1", [], .empty⟩⟩] := by
    rfl
  rcases letters with none | one
  · rw [whole] at all
    change sent (handled ++ after) = _ at all
    rw [sent_append, none, List.nil_append] at all
    obtain ⟨-, elsewhere⟩ := targets ⟨"main", "dead", ⟨"m-1", [], .empty⟩⟩ (by simp [all])
    exact absurd elsewhere (by decide)
  · exact one

end EventPipeline

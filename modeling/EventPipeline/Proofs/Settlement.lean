import EventPipeline.Events.Family
import EventPipeline.Proofs.Pipeline
import EventPipeline.Service.Route

/-!
One delivery is settled once. A route publishes the outputs of its pipeline in order until a publisher
refuses one; it acknowledges the delivery when all of them were accepted and rejects it otherwise, to
be redelivered just when the last error may pass.
-/

set_option autoImplicit false

namespace EventPipeline

open Program Transcript

variable {F : EventFamily}

def Settlement.of : Except EventError Unit → Settlement
  | .ok _ => .ack
  | .error e => .nack (e.category == .transient)

namespace Route

def missingQueue (route : Route F) (outputs : List Message) : EventError :=
  .config ("handler '" ++ route.name ++ "' produced " ++ decimalText outputs.length ++
    " message(s) but has no publish queue")

def taken (route : Route F) (queue : String) (output : Message) : Publication × Reply Unit :=
  (⟨route.publisher, queue, output⟩, .ok ())

-- Induction on the outputs: each is taken until one is refused, and that one is the last to be sent.
theorem ends_publish_all {route : Route F} {queue : String} {outputs : List Message} {t : Transcript F}
    {outcome : Except Panic (Except EventError Unit)}
    (ends : Ends (route.publishAll queue outputs) t outcome) :
    settlements t = [] ∧
      ((publishes t = outputs.map (route.taken queue) ∧ outcome = .ok (.ok ())) ∨
        ∃ passed output later reply, outputs = passed ++ output :: later ∧ reply ≠ .ok () ∧
          publishes t = passed.map (route.taken queue) ++ [(⟨route.publisher, queue, output⟩, reply)] ∧
          outcome = reply.outcome) := by
  induction outputs generalizing t with
  | nil =>
      obtain ⟨rfl, rfl⟩ := ends_done.mp ends
      exact ⟨rfl, .inl ⟨rfl, rfl⟩⟩
  | cons output rest ih =>
      rcases ends_bind.mp ends with ⟨p, rfl, broken⟩ | ⟨answer, t₁, t₂, rfl, answered, ending⟩
      · obtain ⟨reply, rfl, same⟩ := ends_publish.mp broken
        refine ⟨rfl, .inr ⟨[], output, rest, reply, rfl, ?_, rfl, same⟩⟩
        intro same
        subst same
        cases same
      · obtain ⟨reply, rfl, same⟩ := ends_publish.mp answered
        cases answer with
        | error e =>
            obtain ⟨rfl, rfl⟩ := ends_done.mp ending
            refine ⟨rfl, .inr ⟨[], output, rest, reply, rfl, ?_, rfl, same⟩⟩
            intro same
            subst same
            cases same
        | ok _ =>
            have accepted : reply = .ok () := by
              cases reply with
              | ok _ => rfl
              | error e => cases same
              | panic p => cases same
            subst accepted
            obtain ⟨u, rfl, logged⟩ := ends_count_bind.mp ending
            obtain ⟨v, rfl, remaining⟩ := ends_note_bind.mp logged
            obtain ⟨unsettled, fate⟩ := ih remaining
            refine ⟨unsettled, ?_⟩
            rcases fate with ⟨all, rfl⟩ | ⟨passed, refused, later, reply, rfl, bad, some, rfl⟩
            · exact .inl ⟨congrArg (route.taken queue output :: ·) all, rfl⟩
            · exact .inr ⟨output :: passed, refused, later, reply, rfl, bad,
                congrArg (route.taken queue output :: ·) some, rfl⟩

-- From what the pipeline returned to what became of the outputs.
inductive Delivers (route : Route F) : Except EventError (List Message) → Transcript F →
    Except Panic (Except EventError Unit) → Prop where
  | failed (e : EventError) : Delivers route (.error e) [] (.ok (.error e))
  | empty : Delivers route (.ok []) [] (.ok (.ok ()))
  | homeless {outputs : List Message} (present : outputs ≠ []) (absent : route.publishQueue = none) :
      Delivers route (.ok outputs) [] (.ok (.error (route.missingQueue outputs)))
  | published {outputs : List Message} {queue : String} {t : Transcript F}
      {outcome : Except Panic (Except EventError Unit)} (target : route.publishQueue = some queue)
      (ends : Ends (route.publishAll queue outputs) t outcome) : Delivers route (.ok outputs) t outcome

theorem ends_dispatch {route : Route F} {handler : Handler F} {message : Message} {t : Transcript F}
    {outcome : Except Panic (Except EventError Unit)}
    (ends : Ends (route.dispatch handler message) t outcome) :
    (∃ p, outcome = .error p ∧ Ends (handler message) t (.error p)) ∨
      ∃ handled result after, t = handled ++ after ∧ Ends (handler message) handled (.ok result) ∧
        route.Delivers result after outcome := by
  rcases ends_bind.mp ends with broken | ⟨result, handled, after, rfl, returned, ending⟩
  · exact .inl broken
  · refine .inr ⟨handled, result, after, rfl, returned, ?_⟩
    cases result with
    | error e =>
        obtain ⟨rfl, rfl⟩ := ends_done.mp ending
        exact .failed e
    | ok outputs =>
        cases outputs with
        | nil =>
            obtain ⟨rfl, rfl⟩ := ends_done.mp ending
            exact .empty
        | cons output rest =>
            cases target : route.publishQueue with
            | none =>
                simp only [target] at ending
                obtain ⟨rfl, rfl⟩ := ends_done.mp ending
                exact .homeless (List.cons_ne_nil _ _) target
            | some queue =>
                simp only [target] at ending
                exact .published target ending

theorem ends_settle_last {route : Route F} {message : Message} {verdict : Settlement} {failure : String}
    {t : Transcript F} {outcome : Except Panic Unit}
    (ends : Ends (route.settle message verdict failure) t outcome) :
    ∃ (reply : Reply Unit) (rest : Transcript F), t = ⟨.settle route.subscriber verdict, reply⟩ :: rest ∧
      Notes rest ∧ ∀ p, outcome = .error p → reply = .panic p := by
  rcases ends_bind.mp ends with ⟨p, rfl, broken⟩ | ⟨answer, t₁, t₂, rfl, answered, ending⟩
  · obtain ⟨reply, rfl, same⟩ := ends_settle.mp broken
    refine ⟨reply, [], rfl, notes_nil, fun q here => ?_⟩
    cases here
    cases reply with
    | ok _ => cases same
    | error e => cases same
    | panic r => cases same; rfl
  · obtain ⟨reply, rfl, -⟩ := ends_settle.mp answered
    cases answer with
    | ok _ =>
        obtain ⟨rfl, rfl⟩ := ends_done.mp ending
        exact ⟨reply, [], rfl, notes_nil, nofun⟩
    | error e =>
        obtain ⟨rfl, rfl⟩ := ends_note.mp ending
        exact ⟨reply, _, rfl, notes_note _ notes_nil, nofun⟩

-- What a route notes between the fate of a delivery and its settlement.
def remarked (route : Route F) (record : TraceRecord) : Except EventError Unit → Transcript F
  | .ok _ => [⟨.count (.processed route.name), ()⟩]
  | .error e => [⟨.count (.failed route.name e.category.name), ()⟩, ⟨.note record, ()⟩]

-- A delivery is dispatched, and then settled as its fate asks for.
theorem ends_process_verdict {route : Route F} {handler : Handler F} {message : Message}
    {t : Transcript F} {outcome : Except Panic Unit} (ends : Ends (route.process handler message) t outcome) :
    ∃ u rest, t = ⟨.count (.received route.name), ()⟩ :: (u ++ rest) ∧
      ((∃ p, outcome = .error p ∧ rest = [] ∧ Ends (route.dispatch handler message) u (.error p)) ∨
        ∃ (fate : Except EventError Unit) (record : TraceRecord) (reply : Reply Unit) (last : Transcript F),
          rest = route.remarked record fate ++ ⟨.settle route.subscriber (.of fate), reply⟩ :: last ∧
          Ends (route.dispatch handler message) u (.ok fate) ∧ Notes last ∧
          ∀ p, outcome = .error p → reply = .panic p) := by
  obtain ⟨u, rfl, dispatched⟩ := ends_count_bind.mp ends
  rcases ends_bind.mp dispatched with ⟨p, rfl, broken⟩ | ⟨fate, u, concluding, rfl, delivered, ending⟩
  · exact ⟨u, [], by simp, .inl ⟨p, rfl, rfl, broken⟩⟩
  · refine ⟨u, concluding, rfl, .inr ?_⟩
    cases fate with
    | ok _ =>
        obtain ⟨v, rfl, settling⟩ := ends_count_bind.mp ending
        obtain ⟨reply, last, rfl, notes, panics⟩ := ends_settle_last settling
        exact ⟨.ok (), .spanClosed "", reply, last, rfl, delivered, notes, panics⟩
    | error e =>
        obtain ⟨v, rfl, logged⟩ := ends_count_bind.mp ending
        obtain ⟨w, rfl, settling⟩ := ends_note_bind.mp logged
        obtain ⟨reply, last, rfl, notes, panics⟩ := ends_settle_last settling
        exact ⟨.error e, _, reply, last, rfl, delivered, notes, panics⟩

theorem quiet_of_remarked (route : Route F) (record : TraceRecord) (fate : Except EventError Unit) :
    publishes (route.remarked record fate) = [] ∧ settlements (route.remarked record fate) = [] := by
  cases fate <;> exact ⟨rfl, rfl⟩

-- The verdict is asked for last, after everything that it depends on.
theorem ends_process {route : Route F} {handler : Handler F} {message : Message} {t : Transcript F}
    {outcome : Except Panic Unit} (ends : Ends (route.process handler message) t outcome) :
    ∃ u, t = ⟨.count (.received route.name), ()⟩ :: u ∧
      ((∃ p, outcome = .error p ∧ Ends (handler message) u (.error p)) ∨
        ∃ handled result delivering concluding delivered,
          u = handled ++ delivering ++ concluding ∧ Ends (handler message) handled (.ok result) ∧
          route.Delivers result delivering delivered ∧
          ((∃ p, delivered = .error p ∧ outcome = .error p ∧ concluding = []) ∨
            ∃ fate, delivered = .ok fate ∧ publishes concluding = [] ∧
              settlements concluding = [(route.subscriber, .of fate)] ∧
              (outcome = .ok () ∨ ∃ x ∈ concluding, x.breaks))) := by
  obtain ⟨u, concluding, rfl, ⟨p, rfl, rfl, broken⟩ | ⟨fate, record, reply, last, rfl, dispatched, notes, panics⟩⟩ :=
    ends_process_verdict ends
  · refine ⟨u ++ [], rfl, ?_⟩
    rcases ends_dispatch broken with ⟨q, same, inside⟩ | ⟨handled, result, after, rfl, returned, delivers⟩
    · cases same
      exact .inl ⟨p, rfl, by rwa [List.append_nil]⟩
    · exact .inr ⟨handled, result, after, [], .error p, rfl, returned, delivers, .inl ⟨p, rfl, rfl, rfl⟩⟩
  · refine ⟨_, rfl, ?_⟩
    rcases ends_dispatch dispatched with ⟨q, same, -⟩ | ⟨handled, result, after, rfl, returned, delivers⟩
    · cases same
    · obtain ⟨silent, unsettled⟩ := quiet_of_remarks (remarks_of_notes notes)
      obtain ⟨silent₁, unsettled₁⟩ := quiet_of_remarked route record fate
      refine .inr ⟨handled, result, after, _, .ok fate, rfl, returned, delivers, .inr ⟨fate, rfl, ?_, ?_, ?_⟩⟩
      · rw [publishes_append, silent₁]
        exact silent
      · rw [settlements_append, unsettled₁]
        exact congrArg (_ :: ·) unsettled
      · cases outcome with
        | ok _ => exact .inl rfl
        | error p => exact .inr ⟨_, List.mem_append_right _ List.mem_cons_self, p, panics p rfl⟩

-- The error that a rejected delivery is rejected for.
inductive FinalError (route : Route F) : Except EventError (List Message) → Transcript F →
    EventError → Prop where
  | ofPipeline (e : EventError) (t : Transcript F) : FinalError route (.error e) t e
  | ofQueue {outputs : List Message} (t : Transcript F) (present : outputs ≠ [])
      (absent : route.publishQueue = none) :
      FinalError route (.ok outputs) t (route.missingQueue outputs)
  | ofPublisher {t : Transcript F} {e : EventError} (outputs : List Message)
      (refused : refusals t = [e]) : FinalError route (.ok outputs) t e

theorem accepted_taken (route : Route F) (queue : String) (outputs : List Message) :
    ((outputs.map (route.taken queue)).filterMap acceptance?).map (·.message) = outputs := by
  induction outputs with
  | nil => rfl
  | cons output rest ih => exact congrArg (output :: ·) ih

theorem refusals_taken (route : Route F) (queue : String) (outputs : List Message) :
    (outputs.map (route.taken queue)).filterMap refusal? = [] := by
  induction outputs with
  | nil => rfl
  | cons output rest ih => exact ih

theorem accepted_until_refused {route : Route F} {queue : String} {passed : List Message}
    {publication : Publication} {reply : Reply Unit} {t : Transcript F} (bad : reply ≠ .ok ())
    (some : publishes t = passed.map (route.taken queue) ++ [(publication, reply)]) :
    (accepted t).map (·.message) = passed := by
  have lost : acceptance? (publication, reply) = none := by
    cases reply with
    | ok _ => exact absurd rfl bad
    | error e => rfl
    | panic p => rfl
  rw [accepted, some, List.filterMap_append, List.map_append, accepted_taken]
  simp [lost]

theorem delivers_settles_nothing {route : Route F} {result : Except EventError (List Message)}
    {t : Transcript F} {outcome : Except Panic (Except EventError Unit)}
    (delivers : route.Delivers result t outcome) : settlements t = [] := by
  cases delivers with
  | failed e => rfl
  | empty => rfl
  | homeless present absent => rfl
  | published target ends => exact (ends_publish_all ends).1

theorem delivers_to_queue {route : Route F} {result : Except EventError (List Message)}
    {t : Transcript F} {outcome : Except Panic (Except EventError Unit)}
    (delivers : route.Delivers result t outcome) :
    ∀ p ∈ sent t, p.broker = route.publisher ∧ route.publishQueue = some p.queue := by
  cases delivers with
  | failed e => simp [sent, publishes]
  | empty => simp [sent, publishes]
  | homeless present absent => simp [sent, publishes]
  | published target ends =>
      intro p member
      rcases (ends_publish_all ends).2 with ⟨all, -⟩ | ⟨passed, refused, later, reply, -, -, some, -⟩
      · rw [sent, all] at member
        simp only [List.map_map, List.mem_map, Function.comp] at member
        obtain ⟨output, -, rfl⟩ := member
        exact ⟨rfl, target⟩
      · rw [sent, some] at member
        simp only [List.map_append, List.map_map, List.mem_append, List.mem_map, Function.comp,
          List.mem_singleton, List.map_cons, List.map_nil] at member
        rcases member with ⟨output, -, rfl⟩ | rfl
        · exact ⟨rfl, target⟩
        · exact ⟨rfl, target⟩

theorem delivers_prefix {route : Route F} {outputs : List Message} {t : Transcript F}
    {outcome : Except Panic (Except EventError Unit)}
    (delivers : route.Delivers (.ok outputs) t outcome) :
    (accepted t).map (·.message) <+: outputs := by
  cases delivers with
  | empty => exact List.nil_prefix
  | homeless present absent => exact List.nil_prefix
  | published target ends =>
      rcases (ends_publish_all ends).2 with ⟨all, -⟩ | ⟨passed, refused, later, reply, rfl, bad, some, -⟩
      · have whole : (accepted t).map (·.message) = outputs := by
          rw [accepted, all, accepted_taken]
        exact whole ▸ List.prefix_rfl
      · rw [accepted_until_refused bad some]
        exact List.prefix_append _ _

theorem delivers_ok_iff {route : Route F} {result : Except EventError (List Message)}
    {t : Transcript F} {fate : Except EventError Unit} (delivers : route.Delivers result t (.ok fate)) :
    fate = .ok () ↔ ∃ outputs, result = .ok outputs ∧ (accepted t).map (·.message) = outputs := by
  cases delivers with
  | failed e => simp
  | empty => simp [accepted, publishes]
  | @homeless outputs present absent => simpa [accepted, publishes] using present ∘ Eq.symm
  | @published outputs queue t outcome target ends =>
      rcases (ends_publish_all ends).2 with ⟨all, same⟩ | ⟨passed, refused, later, reply, rfl, bad, some, same⟩
      · cases same
        simp only [accepted, all, accepted_taken, true_iff]
        exact ⟨outputs, rfl, rfl⟩
      · rw [accepted_until_refused bad some]
        cases reply with
        | ok _ => exact absurd rfl bad
        | panic p => cases same
        | error e => cases same; simp

theorem delivers_final_error {route : Route F} {result : Except EventError (List Message)}
    {t : Transcript F} {e : EventError} (delivers : route.Delivers result t (.ok (.error e))) :
    route.FinalError result t e := by
  cases delivers with
  | failed e => exact .ofPipeline e _
  | homeless present absent => exact .ofQueue _ present absent
  | @published outputs queue t outcome target ends =>
      rcases (ends_publish_all ends).2 with ⟨all, same⟩ | ⟨passed, refused, later, reply, rfl, bad, some, same⟩
      · cases same
      · cases reply with
        | ok _ => exact absurd rfl bad
        | panic p => cases same
        | error e =>
            cases same
            apply FinalError.ofPublisher
            rw [refusals, some, List.filterMap_append, refusals_taken]
            rfl

end Route

def Surroundings.Returning (s : Surroundings F) : Prop :=
  ∀ past effect, ¬ (⟨effect, s past effect⟩ : Exchange F).breaks

-- Every call succeeds; raw handlers return what they get and typed ones nothing.
def Surroundings.obliging : Surroundings F
  | _, .freshId => "id"
  | _, .sleep _ => ()
  | _, .note _ => ()
  | _, .count _ => ()
  | _, .publish .. => .ok ()
  | _, .settle .. => .ok ()
  | _, .store .. => .ok ()
  | _, .validate .. => .ok ()
  | _, .classify .. => .ok false
  | _, .callRaw _ message => .ok [message]
  | _, .callTyped .. => .ok []

theorem obliging_returning : (Surroundings.obliging : Surroundings F).Returning := by
  intro past effect bad
  cases effect with
  | publish broker queue message => obtain ⟨p, same⟩ := bad; cases same
  | settle broker settlement => obtain ⟨p, same⟩ := bad; cases same
  | _ => exact bad

theorem returning_play {α : Type} {s : Surroundings F} (returning : s.Returning) (past : Transcript F)
    (p : Program F α) : ∀ x ∈ (play s past p).1, ¬ x.breaks := by
  intro x member
  obtain ⟨before, effect, rfl⟩ := answer_of_mem_play s past p member
  exact returning before effect

theorem delivered_without_breaking {route : Route F} {result : Except EventError (List Message)}
    {t : Transcript F} {p : Panic} (delivers : route.Delivers result t (.error p)) : ∃ x ∈ t, x.breaks := by
  cases delivers with
  | @published outputs queue _ _ target ends =>
      rcases (Route.ends_publish_all ends).2 with ⟨-, same⟩ | ⟨passed, refused, later, reply, -, -, some, same⟩
      · cases same
      · have present : (⟨route.publisher, queue, refused⟩, reply) ∈ publishes t := by
          rw [some]
          exact List.mem_append_right _ List.mem_cons_self
        obtain ⟨⟨effect, answer⟩, member, found⟩ := List.mem_filterMap.mp present
        refine ⟨_, member, ?_⟩
        cases effect with
        | publish broker queue message =>
            cases found
            cases reply with
            | ok _ => cases same
            | error e => cases same
            | panic q => exact ⟨q, rfl⟩
        | _ => cases found

-- The parts of a processed delivery: the pipeline, the outputs, the verdict.
structure Account (service : Service F) (route : Route F) (message : Message) (t : Transcript F)
    (outcome : Except Panic Unit) (handled : Transcript F) (result : Except EventError (List Message))
    (delivering concluding : Transcript F) (delivered : Except Panic (Except EventError Unit)) :
    Prop where
  whole : t = ⟨.count (.received route.name), ()⟩ :: (handled ++ (delivering ++ concluding))
  pipeline : Ends (service.pipeline route message) handled (.ok result)
  delivers : route.Delivers result delivering delivered
  silent : publishes concluding = []
  settled : ∀ fate, delivered = .ok fate → settlements t = [(route.subscriber, .of fate)]
  unsettled : ∀ p, delivered = .error p → settlements t = [] ∧ outcome = .error p
  returned : ∀ fate, delivered = .ok fate → outcome = .ok () ∨ ∃ x ∈ t, x.breaks

theorem process_account {service : Service F} {route : Route F} (standard : route.handler.Standard)
    {message : Message} {t : Transcript F} {outcome : Except Panic Unit}
    (ends : Ends (route.process (service.pipeline route) message) t outcome) :
    ∃ handled result delivering concluding delivered,
      Account service route message t outcome handled result delivering concluding delivered := by
  obtain ⟨u, rfl, fate⟩ := Route.ends_process ends
  rcases fate with ⟨p, -, broken⟩ |
    ⟨handled, result, delivering, concluding, delivered, rfl, returned, delivers, settled⟩
  · obtain ⟨result, same⟩ := pipeline_returns broken
    cases same
  · have quiet : settlements handled = [] := pipeline_settles_nothing standard returned
    have unsettled := Route.delivers_settles_nothing delivers
    refine ⟨handled, result, delivering, concluding, delivered, ?_⟩
    rcases settled with ⟨p, rfl, rfl, rfl⟩ | ⟨fate, rfl, unpublished, settled, ending⟩
    · refine ⟨by simp, returned, delivers, rfl, ?_, ?_, ?_⟩
      · intro fate same
        cases same
      · intro q same
        cases same
        change settlements (handled ++ delivering ++ []) = [] ∧ _
        exact ⟨by simp [quiet, unsettled], rfl⟩
      · intro fate same
        cases same
    · refine ⟨by simp, returned, delivers, unpublished, ?_, ?_, ?_⟩
      · intro other same
        cases same
        change settlements (handled ++ delivering ++ concluding) = _
        simp [quiet, unsettled, settled]
      · intro p same
        cases same
      · intro other same
        exact ending.imp id fun ⟨x, member, bad⟩ => ⟨x, by simp [member], bad⟩

theorem process_settles_exactly_once {service : Service F} (built : service.Built) {route : Route F}
    (member : route ∈ service.routes) (message : Message) {s : Surroundings F} (returning : s.Returning) :
    ∃ handled result after verdict,
      let run := play s [] (route.process (service.pipeline route) message)
      run.2 = .ok () ∧
      run.1 = ⟨.count (.received route.name), ()⟩ :: (handled ++ after) ∧
      Ends (service.pipeline route message) handled (.ok result) ∧
      settlements run.1 = [(route.subscriber, verdict)] ∧
      (verdict = .ack ↔ ∃ outputs, result = .ok outputs ∧ (accepted after).map (·.message) = outputs) ∧
      (verdict ≠ .ack → ∃ e, route.FinalError result after e ∧
        verdict = .nack (decide (e.category = .transient))) ∧
      (∀ p ∈ sent after, p.broker = route.publisher ∧ route.publishQueue = some p.queue) ∧
      (∀ outputs, result = .ok outputs → (accepted after).map (·.message) <+: outputs) ∧
      (∀ outputs, result = .ok outputs → outputs ≠ [] → route.publishQueue = none →
        sent after = [] ∧ verdict = .nack false) ∧
      ∀ e, result = .error e →
        accepted run.1 = [] ∧ sent after = [] ∧ verdict = .nack (decide (e.category = .transient)) := by
  have standard := built_standard built member
  have unbroken := returning_play returning [] (route.process (service.pipeline route) message)
  obtain ⟨handled, result, delivering, concluding, delivered, account⟩ :=
    process_account standard (ends_play s [] (route.process (service.pipeline route) message))
  have delivers := account.delivers
  cases delivered with
  | error p =>
      obtain ⟨x, member, bad⟩ := delivered_without_breaking delivers
      exact absurd bad (unbroken x (by simp [account.whole, member]))
  | ok fate =>
      have accepts : accepted (delivering ++ concluding) = accepted delivering := by
        simp [accepted, account.silent]
      have sends : sent (delivering ++ concluding) = sent delivering := by simp [sent, account.silent]
      have refuses : refusals (delivering ++ concluding) = refusals delivering := by
        simp [refusals, account.silent]
      refine ⟨handled, result, delivering ++ concluding, .of fate, ?_, account.whole, account.pipeline,
        account.settled fate rfl, ?_, ?_, ?_, ?_, ?_, ?_⟩
      · rcases account.returned fate rfl with same | ⟨x, member, bad⟩
        · exact same
        · exact absurd bad (unbroken x member)
      · rw [accepts, ← Route.delivers_ok_iff delivers]
        cases fate with
        | ok _ => simp [Settlement.of]
        | error e => simp [Settlement.of]
      · intro rejected
        cases fate with
        | ok _ => exact absurd rfl rejected
        | error e =>
            refine ⟨e, ?_, rfl⟩
            cases Route.delivers_final_error delivers with
            | ofPipeline e t => exact .ofPipeline e _
            | ofQueue t present absent => exact .ofQueue _ present absent
            | ofPublisher outputs refused => exact .ofPublisher outputs (refuses.trans refused)
      · rw [sends]
        exact Route.delivers_to_queue delivers
      · intro outputs same
        subst same
        rw [accepts]
        exact Route.delivers_prefix delivers
      · intro outputs same present absent
        subst same
        cases delivers with
        | empty => exact absurd rfl present
        | homeless _ _ => exact ⟨sends, rfl⟩
        | published target _ => rw [absent] at target; cases target
      · intro e same
        subst same
        have nothing := failed_pipeline_accepts_nothing standard account.pipeline
        cases delivers with
        | failed _ =>
            refine ⟨?_, sends, rfl⟩
            rw [account.whole]
            change accepted (handled ++ ([] ++ concluding)) = []
            rw [accepted_append, nothing, accepts]
            rfl

theorem copy_settles_exactly_once :
    (copyService .default : Service Events.family).Built ∧
      copyRoute .default ∈ (copyService .default : Service Events.family).routes ∧
      (Surroundings.obliging : Surroundings Events.family).Returning ∧
      ∃ verdict, settlements (play .obliging []
        ((copyRoute .default).process
          ((copyService .default : Service Events.family).pipeline (copyRoute .default))
          ⟨"m-1", [], .empty⟩)).1 = [("main", verdict)] := by
  have member : copyRoute .default ∈ (copyService .default : Service Events.family).routes :=
    List.mem_cons_self
  refine ⟨copy_built _, member, obliging_returning, ?_⟩
  obtain ⟨_, _, _, verdict, _, _, _, settled, _⟩ :=
    process_settles_exactly_once (copy_built .default) member ⟨"m-1", [], .empty⟩ obliging_returning
  exact ⟨verdict, settled⟩

end EventPipeline

import EventPipeline.Proofs.Tours
import EventPipeline.Events.Family
import EventPipeline.World.Basic

/-!
Programs that differ in what they note and in nothing else. Without its notes a program is another program; two
programs that become the same one ask the same, are answered the same and end alike, and leave worlds that only
their traces tell apart. The stages that log and trace are watchers of this kind, wherever they stand in a chain
and whatever the other stages do with the handler inside.
-/

set_option autoImplicit false

namespace EventPipeline

open Program Transcript

variable {F : EventFamily} {α β : Type}

-- The answer to a note is known beforehand. Everything else has to be asked.
def Effect.known? : (effect : Effect F) → Option effect.Answer
  | .note _ => some ()
  | _ => none

def Transcript.heard (t : Transcript F) : Transcript F := t.filter fun x => x.effect.known?.isNone

def Program.muted : Program F α → Program F α
  | .done value => .done value
  | .panic p => .panic p
  | .perform effect next =>
      match effect.known? with
      | some answer => (next answer).muted
      | none => .perform effect fun answer => (next answer).muted

theorem Effect.note_or_asked (effect : Effect F) :
    (∃ record, effect = .note record) ∨ effect.known? = none := by
  cases effect with
  | note record => exact .inl ⟨record, rfl⟩
  | _ => exact .inr rfl

namespace Program

theorem muted_asked {effect : Effect F} {next : effect.Answer → Program F α} (asked : effect.known? = none) :
    (perform effect next).muted = .perform effect fun answer => (next answer).muted := by
  rw [muted, asked]

theorem muted_bind (p : Program F α) (f : α → Program F β) :
    (p.bind f).muted = p.muted.bind fun value => (f value).muted := by
  induction p with
  | done value => rfl
  | panic q => rfl
  | perform effect next ih =>
      obtain ⟨record, rfl⟩ | asked := effect.note_or_asked
      · exact ih ()
      · rw [bind, muted_asked asked, muted_asked asked, bind]
        exact congrArg (perform effect) (funext ih)

theorem muted_bind_congr {p q : Program F α} (same : p.muted = q.muted) (f : α → Program F β) :
    (p.bind f).muted = (q.bind f).muted := by
  rw [muted_bind, muted_bind, same]

theorem muted_caught (p : Program F α) : p.caught.muted = p.muted.caught := by
  induction p with
  | done value => rfl
  | panic q => rfl
  | perform effect next ih =>
      obtain ⟨record, rfl⟩ | asked := effect.note_or_asked
      · exact ih ()
      · rw [caught, muted_asked asked, muted_asked asked, caught]
        exact congrArg (perform effect) (funext ih)

theorem caught_suffered (p : Program F α) : p.caught.bind ofOutcome = p := by
  induction p with
  | done value => rfl
  | panic q => rfl
  | perform effect next ih => exact congrArg (perform effect) (funext ih)

theorem caught_inj {p q : Program F α} (same : p.caught = q.caught) : p = q := by
  rw [← caught_suffered p, same, caught_suffered]

theorem heard_asked {effect : Effect F} (asked : effect.known? = none) (answer : effect.Answer)
    (t : Transcript F) :
    heard (⟨effect, answer⟩ :: t) = ⟨effect, answer⟩ :: heard t :=
  List.filter_cons_of_pos (by simp [asked])

-- The runs without notes are the runs with the notes taken out.
theorem ends_muted {p : Program F α} {t : Transcript F} {outcome : Except Panic α} :
    Ends p.muted t outcome ↔ ∃ u, Ends p u outcome ∧ heard u = t := by
  induction p generalizing t with
  | done value =>
      simp only [muted, ends_done]
      constructor
      · intro ⟨empty, same⟩
        exact ⟨[], ⟨rfl, same⟩, empty.symm⟩
      · rintro ⟨_, ⟨rfl, same⟩, rfl⟩
        exact ⟨rfl, same⟩
  | panic q =>
      simp only [muted, ends_panic]
      constructor
      · intro ⟨empty, same⟩
        exact ⟨[], ⟨rfl, same⟩, empty.symm⟩
      · rintro ⟨_, ⟨rfl, same⟩, rfl⟩
        exact ⟨rfl, same⟩
  | perform effect next ih =>
      obtain ⟨record, rfl⟩ | asked := effect.note_or_asked
      · refine (ih ()).trans ⟨?_, ?_⟩
        · intro ⟨u, ends, left⟩
          exact ⟨_, ends_perform.mpr ⟨(), u, rfl, ends⟩, left⟩
        · intro ⟨_, ends, left⟩
          obtain ⟨_, u, rfl, later⟩ := ends_perform.mp ends
          exact ⟨u, later, left⟩
      · rw [muted_asked asked, ends_perform]
        constructor
        · intro ⟨answer, _, whole, ends⟩
          obtain ⟨u, later, rfl⟩ := (ih answer).mp ends
          exact ⟨_, ends_perform.mpr ⟨answer, u, rfl, later⟩, (heard_asked asked answer u).trans whole.symm⟩
        · intro ⟨_, ends, left⟩
          obtain ⟨answer, u, rfl, later⟩ := ends_perform.mp ends
          exact ⟨answer, heard u, left.symm.trans (heard_asked asked answer u), (ih answer).mpr ⟨u, later, rfl⟩⟩

end Program

-- The same world with an empty trace.
def World.muted (w : World F) : World F := { w with trace := [] }

namespace World

theorem muted_eq {w v : World F} (alike : w.muted = v.muted) : v = { w with trace := v.trace } := by
  cases w
  cases v
  cases alike
  rfl

theorem set_broker_muted (w : World F) (trace : List TraceRecord) (id : BrokerId) (b : FaultyBroker) :
    (({ w with trace } : World F).setBroker id b).muted = (w.setBroker id b).muted := by
  unfold setBroker
  split <;> rfl

theorem publish_muted (w : World F) (trace : List TraceRecord) (id : BrokerId) (topic : String)
    (message : Message) :
    (({ w with trace } : World F).publish id topic message).1 = (w.publish id topic message).1 ∧
      (({ w with trace } : World F).publish id topic message).2.muted = (w.publish id topic message).2.muted := by
  have same : ({ w with trace } : World F).broker id = w.broker id := rfl
  unfold publish
  rw [same]
  obtain ⟨_ | _, b⟩ := (w.broker id).publish topic message
  · exact ⟨rfl, set_broker_muted w trace id b⟩
  · exact ⟨rfl, set_broker_muted w trace id b⟩

-- The answer to an effect and the world after it.
def answered (w : World F) (effect : Effect F) : effect.Answer × World F :=
  (w.start effect).1.resume { (w.start effect).2 with clock := (w.start effect).1.wake }

-- Nothing that answers an effect looks into the trace.
theorem answered_muted (w : World F) (trace : List TraceRecord) (effect : Effect F) :
    (({ w with trace } : World F).answered effect).1 = (w.answered effect).1 ∧
      (({ w with trace } : World F).answered effect).2.muted = (w.answered effect).2.muted := by
  cases effect with
  | publish id topic message =>
      have published := publish_muted w trace id topic message
      exact ⟨congrArg replyOf published.1, published.2⟩
  | settle id settlement => exact ⟨rfl, set_broker_muted w trace id _⟩
  | _ => exact ⟨rfl, rfl⟩

theorem run_muted {p : Program F α} {w v : World F} (alike : w.muted = v.muted) :
    (w.run p).1 = (v.run p.muted).1 ∧ (w.run p).2.muted = (v.run p.muted).2.muted := by
  induction p generalizing w v with
  | done value => exact ⟨rfl, alike⟩
  | panic q => exact ⟨rfl, alike⟩
  | perform effect next ih =>
      obtain ⟨record, rfl⟩ | asked := effect.note_or_asked
      · exact ih () alike
      · rw [muted_asked asked]
        have answers := answered_muted v w.trace effect
        rw [← muted_eq alike.symm] at answers
        have later := ih (w.answered effect).1 answers.2
        change (run (next (w.answered effect).1) (w.answered effect).2).1 =
            (run (next (v.answered effect).1).muted (v.answered effect).2).1 ∧
          (run (next (w.answered effect).1) (w.answered effect).2).2.muted =
            (run (next (v.answered effect).1).muted (v.answered effect).2).2.muted
        rw [answers.1] at later ⊢
        exact later

end World

-- Two programs that only their notes tell apart. All else that is asked and answered is the same, and so are the
-- end and the world that is left.
structure Program.Agrees (p q : Program F α) : Prop where
  runs : ∀ t outcome, (∃ u, Ends p u outcome ∧ heard u = t) ↔ ∃ u, Ends q u outcome ∧ heard u = t
  worlds : ∀ w : World F, (w.run p).1 = (w.run q).1 ∧ (w.run p).2.muted = (w.run q).2.muted

theorem agrees_of_muted {p q : Program F α} (same : p.muted = q.muted) : p.Agrees q := by
  refine ⟨fun t outcome => by rw [← ends_muted, ← ends_muted, same], fun w => ?_⟩
  obtain ⟨left, leftWorld⟩ := World.run_muted (p := p) (w := w) (v := w) rfl
  obtain ⟨right, rightWorld⟩ := World.run_muted (p := q) (w := w) (v := w) rfl
  exact ⟨by rw [left, right, same], by rw [leftWorld, rightWorld, same]⟩

def Visit.handled? : Visit → Option (Message × Handler.Outcome)
  | .handled message outcome => some (message, outcome)
  | _ => none

-- How the handler was called, in turn.
def Tour.calls (tour : Tour) : List (Message × Handler.Outcome) := tour.visits.filterMap Visit.handled?

-- Tours without notes, of which only the calls of the handler are left and the outcome.
def outline (p : Program F Tour) : Program F (List (Message × Handler.Outcome) × Handler.Outcome) :=
  p.muted.bind fun tour => .done (tour.calls, tour.outcome)

section Outline

variable {first second : Message → Program F Tour}

theorem outline_call (tours : Message → Program F Tour) (message : Message)
    (next : Handler.Outcome → Treatment F) :
    outline ((Treatment.call message next).tour tours) =
      (outline (tours message)).bind fun seen =>
        (outline ((next seen.2).tour tours)).bind fun rest => .done (seen.1 ++ rest.1, rest.2) := by
  simp only [outline, Treatment.tour, muted_bind, Program.bind_assoc, Program.bind, Program.muted, Tour.calls,
    List.filterMap_append]

-- Induction on the treatment.
theorem outline_treatment (same : ∀ message, outline (first message) = outline (second message))
    (treatment : Treatment F) : outline (treatment.tour first) = outline (treatment.tour second) := by
  induction treatment with
  | done result => rfl
  | panic p => rfl
  | perform effect next ih =>
      obtain ⟨record, rfl⟩ | asked := effect.note_or_asked
      · exact ih ()
      · rw [outline, outline, Treatment.tour, Treatment.tour, muted_asked asked, muted_asked asked]
        exact congrArg (Program.perform effect) (funext ih)
  | call message next ih => simp only [outline_call, same, ih]

theorem ends_outline {p : Program F Tour} {t : Transcript F}
    {seen : List (Message × Handler.Outcome) × Handler.Outcome} :
    Ends (outline p) t (.ok seen) ↔
      ∃ u tour, Ends p u (.ok tour) ∧ heard u = t ∧ (tour.calls, tour.outcome) = seen := by
  simp only [outline, ends_then_done, ends_muted]
  constructor
  · intro ⟨tour, same, u, ends, left⟩
    exact ⟨u, tour, ends, left, same.symm⟩
  · intro ⟨u, tour, ends, left, same⟩
    exact ⟨tour, same.symm, u, ends, left⟩

end Outline

namespace Layer

variable {handlerName : String} {handler : Handler F}

theorem outline_layer (layer : Layer F) (layers : List (Layer F)) (message : Message) :
    outline (tour handlerName handler (layer :: layers) message) =
      outline ((layer.treat handlerName message).tour (tour handlerName handler layers)) := by
  have unseen (inner : Tour) : List.filterMap Visit.handled?
      (.seen layer.name message :: inner.visits ++ [.given layer.name inner.outcome]) = inner.calls := by
    rw [List.cons_append, List.filterMap_cons_none rfl, List.filterMap_append]
    exact List.append_nil _
  simp only [outline, tour, muted_bind, Program.bind_assoc, Program.bind, Program.muted, Tour.calls, unseen]

theorem outline_noting (tours : Message → Program F Tour) (records : List TraceRecord)
    (outcome : Handler.Outcome) :
    outline ((Treatment.noting records (.conclude outcome)).tour tours) = .done ([], outcome) := by
  induction records with
  | nil => cases outcome <;> rfl
  | cons record rest ih => exact ih

theorem outline_watcher (name : String) (before : String → Message → TraceRecord)
    (after : String → Message → Handler.Outcome → List TraceRecord) (layers : List (Layer F))
    (message : Message) :
    outline (tour handlerName handler (watcher name before after :: layers) message) =
      outline (tour handlerName handler layers message) := by
  rw [outline_layer]
  have opened (treatment : Treatment F) :
      outline ((Treatment.perform (.note (before handlerName message)) fun _ => treatment).tour
        (tour handlerName handler layers)) = outline (treatment.tour (tour handlerName handler layers)) := rfl
  rw [watcher, opened, outline_call]
  simp only [outline_noting, Program.bind, List.append_nil]
  exact bind_done _

-- Stages that log or trace, put in between the others.
inductive Watched : List (Layer F) → List (Layer F) → Prop where
  | none : Watched [] []
  | kept (layer : Layer F) {bare watched : List (Layer F)} (rest : Watched bare watched) :
      Watched (layer :: bare) (layer :: watched)
  | logged {bare watched : List (Layer F)} (rest : Watched bare watched) : Watched bare (logging :: watched)
  | traced {bare watched : List (Layer F)} (rest : Watched bare watched) : Watched bare (tracing :: watched)

theorem outline_watched {bare watched : List (Layer F)} (watching : Watched bare watched) (message : Message) :
    outline (tour handlerName handler bare message) = outline (tour handlerName handler watched message) := by
  induction watching generalizing message with
  | none => rfl
  | kept layer rest ih =>
      rw [outline_layer, outline_layer]
      exact outline_treatment ih _
  | logged rest ih => exact (ih message).trans (outline_watcher _ _ _ _ message).symm
  | traced rest ih => exact (ih message).trans (outline_watcher _ _ _ _ message).symm

theorem muted_outline (layers : List (Layer F)) (message : Message) :
    (Chain.apply (layers.map stage) handlerName handler message).muted.caught =
      (outline (tour handlerName handler layers message)).bind fun seen => .done seen.2 := by
  rw [← muted_caught, ← tour_outcome, muted_bind, outline, Program.bind_assoc]
  rfl

theorem muted_watched {bare watched : List (Layer F)} (watching : Watched bare watched) (message : Message) :
    (Chain.apply (bare.map stage) handlerName handler message).muted =
      (Chain.apply (watched.map stage) handlerName handler message).muted :=
  caught_inj (by rw [muted_outline, muted_outline, outline_watched watching])

end Layer

theorem process_muted (route : Route F) {handler other : Handler F} {message : Message}
    (same : (handler message).muted = (other message).muted) :
    (route.process handler message).muted = (route.process other message).muted := by
  have dispatched : (route.dispatch handler message).muted = (route.dispatch other message).muted :=
    muted_bind_congr same _
  exact congrArg (Program.perform _) (funext fun _ => muted_bind_congr dispatched _)

-- Two chains that treat a message alike: the handler gets the same calls, and all that is asked, answered and
-- returned is the same but for notes, also when a route publishes the outputs and settles the delivery.
structure Layer.Agree (first second : List (Layer F)) (handlerName : String) (handler : Handler F)
    (message : Message) : Prop where
  calls : ∀ t calls outcome,
    (∃ u tour, Ends (Layer.tour handlerName handler first message) u (.ok tour) ∧ heard u = t ∧
      (tour.calls, tour.outcome) = (calls, outcome)) ↔
    ∃ u tour, Ends (Layer.tour handlerName handler second message) u (.ok tour) ∧ heard u = t ∧
      (tour.calls, tour.outcome) = (calls, outcome)
  handled : (Chain.apply (first.map Layer.stage) handlerName handler message).Agrees
    (Chain.apply (second.map Layer.stage) handlerName handler message)
  processed : ∀ route : Route F,
    (route.process (Chain.apply (first.map Layer.stage) handlerName handler) message).Agrees
      (route.process (Chain.apply (second.map Layer.stage) handlerName handler) message)

theorem Layer.agree_watched {bare watched : List (Layer F)} (watching : Watched bare watched)
    {handlerName : String} {handler : Handler F} (message : Message) :
    Agree bare watched handlerName handler message := by
  have same : (Chain.apply (bare.map stage) handlerName handler message).muted =
      (Chain.apply (watched.map stage) handlerName handler message).muted := muted_watched watching message
  refine ⟨fun t calls outcome => ?_, agrees_of_muted same, fun route => agrees_of_muted (process_muted route same)⟩
  rw [← ends_outline, ← ends_outline, outline_watched watching]

theorem stages_nest_and_watchers_go_unheard (handlerName : String) (handler : Handler F) :
    (∀ outer inner : Chain F,
      (outer ++ inner).apply handlerName handler = outer.apply handlerName (inner.apply handlerName handler)) ∧
    Chain.apply [] handlerName handler = handler ∧
    (∀ (layers : List (Layer F)) (message : Message) (t : Transcript F),
      (∀ outcome, Ends (Chain.apply (layers.map Layer.stage) handlerName handler message) t outcome ↔
        ∃ visits, Ends (Layer.tour handlerName handler layers message) t (.ok ⟨visits, outcome⟩)) ∧
      ∀ tour, Ends (Layer.tour handlerName handler layers message) t (.ok tour) →
        tour.Follows (Chain.names (layers.map Layer.stage)) message) ∧
    (∀ bare watched : List (Layer F), Layer.Watched bare watched → ∀ message,
      Layer.Agree bare watched handlerName handler message) ∧
    (Layer.logging : Layer F).stage = Stage.logging ∧ (Layer.tracing : Layer F).stage = Stage.tracing ∧
    ∀ service : Service F, ∃ layers : List (Layer F), layers.map Layer.stage = service.chain := by
  refine ⟨fun outer inner => List.foldr_append, rfl, fun layers message t => ?_,
    fun bare watched watching message => Layer.agree_watched watching message, Layer.logging_stage,
    Layer.tracing_stage, service_layers⟩
  exact ⟨fun outcome => Layer.ends_apply_tour, fun tour ends => tour_follows ends⟩

-- A layer that calls the handler inside twice and lets the second call count.
def Layer.twice : Layer Events.family :=
  ⟨"twice", fun _ message => .call message fun _ => .call message .conclude⟩

theorem two_traced_calls_nest_and_go_unheard :
    let message : Message := ⟨"m-1", [1], .empty⟩
    let echo : Handler Events.family := fun message => .done (.ok [message])
    let returned : Handler.Outcome := .ok (.ok [message])
    let call : List Visit := [.seen "tracing" message, .handled message returned, .given "tracing" returned]
    let tour : Tour := ⟨[.seen "twice" message] ++ call ++ call ++ [.given "twice" returned], returned⟩
    Layer.Watched [Layer.twice] [.logging, .twice, .tracing] ∧
      Layer.Agree [.twice] [.logging, .twice, .tracing] "copy" echo message ∧
      (∃ t, Ends (Layer.tour "copy" echo [.twice, .tracing] message) t (.ok tour)) ∧
      tour.Follows ["twice", "tracing"] message := by
  intro message echo returned call tour
  obtain ⟨-, -, nested, unheard, -⟩ := stages_nest_and_watchers_go_unheard "copy" echo
  have watched : Layer.Watched [Layer.twice] [.logging, .twice, .tracing] :=
    .logged (.kept .twice (.traced .none))
  -- Each of the two calls leaves three notes.
  have ends : ∃ t, Ends (Layer.tour "copy" echo [.twice, .tracing] message) t (.ok tour) :=
    ⟨_, ends_perform.mpr ⟨(), _, rfl, ends_perform.mpr ⟨(), _, rfl, ends_perform.mpr ⟨(), _, rfl,
      ends_perform.mpr ⟨(), _, rfl, ends_perform.mpr ⟨(), _, rfl, ends_perform.mpr ⟨(), _, rfl, .here _⟩⟩⟩⟩⟩⟩⟩
  obtain ⟨t, toured⟩ := ends
  exact ⟨watched, unheard _ _ watched message, ⟨t, toured⟩, (nested _ message t).2 tour toured⟩

end EventPipeline

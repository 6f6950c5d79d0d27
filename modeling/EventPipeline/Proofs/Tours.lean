import EventPipeline.Proofs.Layers

/-!
Which stage of a chain sees a message when. A tour is a run of the chain with a record of the visits beside it:
every stage sees a message only while all stages outside of it have one, and outcomes come back in the reverse
order. The record changes nothing of the run.
-/

set_option autoImplicit false

namespace EventPipeline

open Program Transcript

variable {F : EventFamily} {α β : Type}

namespace Program

theorem ends_bind_ok {p : Program F α} {f : α → Program F β} {t : Transcript F} {result : β} :
    Ends (p.bind f) t (.ok result) ↔
      ∃ value t₁ t₂, t = t₁ ++ t₂ ∧ Ends p t₁ (.ok value) ∧ Ends (f value) t₂ (.ok result) := by
  simp only [ends_bind, reduceCtorEq, false_and, exists_false, false_or]

theorem ends_then_done {p : Program F α} {f : α → β} {t : Transcript F} {result : β} :
    Ends (p.bind fun value => .done (f value)) t (.ok result) ↔
      ∃ value, result = f value ∧ Ends p t (.ok value) := by
  simp only [ends_bind_ok, ends_done]
  constructor
  · intro ⟨value, t₁, _, whole, ends, rfl, same⟩
    rw [List.append_nil] at whole
    cases same
    exact ⟨value, rfl, whole ▸ ends⟩
  · intro ⟨value, same, ends⟩
    exact ⟨value, t, [], (List.append_nil t).symm, ends, rfl, same ▸ rfl⟩

theorem ends_caught {p : Program F α} {t : Transcript F} {result : Except Panic (Except Panic α)} :
    Ends p.caught t result ↔ ∃ outcome, result = .ok outcome ∧ Ends p t outcome := by
  induction p generalizing t with
  | done value =>
      simp only [caught, ends_done]
      grind
  | panic q =>
      simp only [caught, ends_done, ends_panic]
      grind
  | perform effect next ih =>
      simp only [caught, ends_perform, ih]
      grind

end Program

-- What there is to see of one message on its way through a chain.
inductive Visit where
  | seen (stage : String) (message : Message)
  | given (stage : String) (outcome : Handler.Outcome)
  | handled (message : Message) (outcome : Handler.Outcome)

structure Tour where
  visits : List Visit
  outcome : Handler.Outcome

def Treatment.tour (inside : Message → Program F Tour) : Treatment F → Program F Tour
  | .done result => .done ⟨[], .ok result⟩
  | .panic p => .done ⟨[], .error p⟩
  | .perform effect next => .perform effect fun answer => (next answer).tour inside
  | .call message next => (inside message).bind fun inner =>
      ((next inner.outcome).tour inside).bind fun rest => .done ⟨inner.visits ++ rest.visits, rest.outcome⟩

namespace Layer

def tour (handlerName : String) (handler : Handler F) : List (Layer F) → Message → Program F Tour
  | [], message => (handler message).caught.bind fun outcome => .done ⟨[.handled message outcome], outcome⟩
  | layer :: rest, message =>
      ((layer.treat handlerName message).tour (tour handlerName handler rest)).bind fun inner =>
        .done ⟨.seen layer.name message :: inner.visits ++ [.given layer.name inner.outcome], inner.outcome⟩

variable {handlerName : String} {handler : Handler F}

-- Induction on the treatment. Only a call concerns what is inside, and there the tour is the call with the
-- visits beside it.
theorem treatment_tour_outcome {inside : Handler F} {tours : Message → Program F Tour}
    (faithful : ∀ message, ((tours message).bind fun tour => .done tour.outcome) = (inside message).caught)
    (treatment : Treatment F) :
    ((treatment.tour tours).bind fun tour => .done tour.outcome) = (treatment.around inside).caught := by
  induction treatment with
  | done result => rfl
  | panic p => rfl
  | perform effect next ih => exact congrArg (Program.perform effect) (funext ih)
  | call message next ih =>
      rw [Treatment.around, caught_bind, ← faithful, Treatment.tour]
      simp only [Program.bind_assoc, Program.bind]
      exact congrArg (tours message).bind (funext fun inner => ih inner.outcome)

theorem tour_outcome (layers : List (Layer F)) (message : Message) :
    ((tour handlerName handler layers message).bind fun tour => .done tour.outcome) =
      (Chain.apply (layers.map stage) handlerName handler message).caught := by
  induction layers generalizing message with
  | nil =>
      simp only [tour, Program.bind_assoc, Program.bind]
      exact bind_done _
  | cons layer rest ih =>
      rw [tour, Program.bind_assoc]
      exact treatment_tour_outcome ih _

theorem ends_apply_tour {layers : List (Layer F)} {message : Message} {t : Transcript F}
    {outcome : Handler.Outcome} :
    Ends (Chain.apply (layers.map stage) handlerName handler message) t outcome ↔
      ∃ visits, Ends (tour handlerName handler layers message) t (.ok ⟨visits, outcome⟩) := by
  have looked : Ends (Chain.apply (layers.map stage) handlerName handler message).caught t (.ok outcome) ↔
      Ends (Chain.apply (layers.map stage) handlerName handler message) t outcome :=
    ends_caught.trans ⟨fun ⟨_, same, ends⟩ => Except.ok.inj same ▸ ends, fun ends => ⟨_, rfl, ends⟩⟩
  rw [← looked, ← tour_outcome, ends_then_done]
  constructor
  · intro ⟨⟨visits, _⟩, same, ends⟩
    exact ⟨visits, same ▸ ends⟩
  · intro ⟨visits, ends⟩
    exact ⟨_, rfl, ends⟩

end Layer

-- Of the stages with these names, the first `depth` have the message now, and the visits go on from there. A
-- stage sees a message when all stages before it have it, the handler when all stages do, and an outcome is
-- given by the last stage that has it.
def Orderly (names : List String) : Nat → List Visit → Prop
  | depth, [] => depth = 0
  | depth, .seen name _ :: rest => names[depth]? = some name ∧ Orderly names (depth + 1) rest
  | depth, .handled .. :: rest => depth = names.length ∧ Orderly names depth rest
  | 0, .given .. :: _ => False
  | depth + 1, .given name _ :: rest => names[depth]? = some name ∧ Orderly names depth rest

namespace Layer

variable {handlerName : String} {handler : Handler F}

theorem treatment_orderly {names : List String} {depth : Nat} {tours : Message → Program F Tour}
    (orderly : ∀ message t tour rest, Ends (tours message) t (.ok tour) → Orderly names depth rest →
      Orderly names depth (tour.visits ++ rest))
    {treatment : Treatment F} {t : Transcript F} {tour : Tour} {rest : List Visit}
    (ends : Ends (treatment.tour tours) t (.ok tour)) (later : Orderly names depth rest) :
    Orderly names depth (tour.visits ++ rest) := by
  induction treatment generalizing t tour rest with
  | done result =>
      obtain ⟨-, same⟩ := ends_done.mp ends
      cases same
      exact later
  | panic p =>
      obtain ⟨-, same⟩ := ends_done.mp ends
      cases same
      exact later
  | perform effect next ih =>
      obtain ⟨answer, u, -, ends⟩ := ends_perform.mp ends
      exact ih answer ends later
  | call message next ih =>
      obtain ⟨inner, t₁, t₂, -, first, ends⟩ := ends_bind_ok.mp ends
      obtain ⟨more, rfl, second⟩ := ends_then_done.mp ends
      rw [List.append_assoc]
      exact orderly message t₁ inner _ first (ih inner.outcome second later)

-- Induction on the layers that are still inside.
theorem tour_orderly {names outer : List String} {inner : List (Layer F)}
    (whole : names = outer ++ inner.map (·.name)) {message : Message} {t : Transcript F} {toured : Tour}
    {rest : List Visit} (ends : Ends (tour handlerName handler inner message) t (.ok toured))
    (later : Orderly names outer.length rest) : Orderly names outer.length (toured.visits ++ rest) := by
  induction inner generalizing outer message t toured rest with
  | nil =>
      obtain ⟨outcome, rfl, -⟩ := ends_then_done.mp ends
      exact ⟨by simp [whole], later⟩
  | cons layer inside ih =>
      obtain ⟨within, rfl, treated⟩ := ends_then_done.mp ends
      have place : names[outer.length]? = some layer.name := by simp [whole]
      have deeper : names = (outer ++ [layer.name]) ++ inside.map (·.name) := by simp [whole]
      have below : (outer ++ [layer.name]).length = outer.length + 1 := List.length_append
      show _ ∧ Orderly names (outer.length + 1) (within.visits ++ [.given layer.name within.outcome] ++ rest)
      rw [List.append_assoc]
      refine ⟨place, treatment_orderly (fun message t tour rest ends later => ?_) treated ⟨place, later⟩⟩
      rw [← below] at later ⊢
      exact ih deeper ends later

end Layer

namespace Visit

-- Who sees the message before anything else happens.
def descent : List Visit → List String
  | .seen name _ :: rest => name :: descent rest
  | _ => []

def isGiven : Visit → Bool
  | .given .. => true
  | _ => false

def climb : List Visit → List String
  | .given name _ :: rest => name :: climb rest
  | _ => []

-- Who gives an outcome after which nothing else happens, from the end on.
def ascent (visits : List Visit) : List String := climb visits.reverse

theorem descent_prefix {names : List String} {depth : Nat} {visits : List Visit}
    (orderly : Orderly names depth visits) : descent visits <+: names.drop depth := by
  induction visits generalizing depth with
  | nil => exact List.nil_prefix
  | cons visit rest ih =>
      cases visit with
      | seen name message =>
          rw [List.drop_eq_getElem?_toList_append, orderly.1]
          exact (List.prefix_cons_inj name).mpr (ih orderly.2)
      | given name outcome => exact List.nil_prefix
      | handled message outcome => exact List.nil_prefix

theorem climb_snoc (visits : List Visit) (visit : Visit) :
    climb (visits ++ [visit]) = if visits.all isGiven then climb visits ++ climb [visit] else climb visits := by
  induction visits with
  | nil => rfl
  | cons next rest ih =>
      cases next with
      | given name outcome =>
          simp only [List.cons_append, climb, ih, List.all_cons, isGiven, Bool.true_and]
          split <;> rfl
      | seen name message => rfl
      | handled message outcome => rfl

-- Induction on the visits. When only outcomes are left, they come from all stages that still have the message.
theorem ascent_orderly {names : List String} {depth : Nat} {visits : List Visit}
    (orderly : Orderly names depth visits) :
    ascent visits <+: names ∧ (visits.all isGiven = true → ascent visits = names.take depth) := by
  induction visits generalizing depth with
  | nil => exact ⟨List.nil_prefix, fun _ => by rw [show depth = 0 from orderly]; rfl⟩
  | cons visit rest ih =>
      have split : ascent (visit :: rest) =
          if rest.all isGiven then ascent rest ++ climb [visit] else ascent rest := by
        rw [ascent, List.reverse_cons, climb_snoc, List.all_reverse]
        rfl
      have kept (other : climb [visit] = []) : ascent (visit :: rest) = ascent rest := by
        rw [split, other, List.append_nil, ite_self]
      cases visit with
      | seen name message => exact ⟨kept rfl ▸ (ih orderly.2).1, nofun⟩
      | handled message outcome => exact ⟨kept rfl ▸ (ih orderly.2).1, nofun⟩
      | given name outcome =>
          cases depth with
          | zero => exact orderly.elim
          | succ depth =>
              obtain ⟨within, last⟩ := ih orderly.2
              cases only : rest.all isGiven with
              | false =>
                  rw [split, only]
                  exact ⟨within, fun all => by simp [only] at all⟩
              | true =>
                  have whole : ascent (.given name outcome :: rest) = names.take (depth + 1) := by
                    rw [split, only, if_pos rfl, last only, List.take_add_one, orderly.1]
                    rfl
                  exact ⟨whole ▸ List.take_prefix _ _, fun _ => whole⟩

end Visit

-- A tour of stages with these names, the first of them given the message.
structure Tour.Follows (tour : Tour) (names : List String) (message : Message) : Prop where
  orderly : Orderly names 0 tour.visits
  framed : ∀ name ∈ names.head?, ∃ inside,
    tour.visits = .seen name message :: inside ++ [.given name tour.outcome]
  bare : names = [] → tour.visits = [.handled message tour.outcome]
  descent : Visit.descent tour.visits <+: names
  ascent : Visit.ascent tour.visits <+: names

theorem tour_follows {handlerName : String} {handler : Handler F} {layers : List (Layer F)} {message : Message}
    {t : Transcript F} {toured : Tour}
    (ends : Ends (Layer.tour handlerName handler layers message) t (.ok toured)) :
    toured.Follows (Chain.names (layers.map Layer.stage)) message := by
  have same : Chain.names (layers.map Layer.stage) = [] ++ layers.map (·.name) := List.map_map
  have orderly : Orderly (Chain.names (layers.map Layer.stage)) 0 (toured.visits ++ []) :=
    Layer.tour_orderly same ends rfl
  rw [List.append_nil] at orderly
  have descends := Visit.descent_prefix orderly
  have climbs := (Visit.ascent_orderly orderly).1
  cases layers with
  | nil =>
      obtain ⟨outcome, rfl, -⟩ := ends_then_done.mp ends
      exact ⟨orderly, nofun, fun _ => rfl, descends, climbs⟩
  | cons layer rest =>
      obtain ⟨within, rfl, -⟩ := ends_then_done.mp ends
      refine ⟨orderly, fun name outermost => ?_, nofun, descends, climbs⟩
      cases outermost
      exact ⟨within.visits, rfl⟩

end EventPipeline

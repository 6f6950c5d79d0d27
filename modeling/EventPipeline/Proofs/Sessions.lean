import EventPipeline.Proofs.Turns

/-!
Sessions of a crew: its own steps and what happens outside, the closing of brokers included. Whatever was
noted in the journal happened in a state that the turns before it led to.
-/

set_option autoImplicit false

namespace EventPipeline

open Program Transcript

variable {F : EventFamily}

inductive Turn where
  | choose (choice : Choice)
  | close (broker : BrokerId)
deriving DecidableEq

-- The calls of the brokers that a turn makes from outside.
def Turn.calls : Turn → BrokerId → List BrokerCall
  | .choose choice => choice.calls
  | .close broker => World.only broker .close

namespace Crew

def turn (crew : Crew F) : Turn → Journal F × Crew F
  | .choose choice => crew.choose choice
  | .close broker => ([], { crew with world := crew.world.changeBroker broker Broker.close })

def pursue (crew : Crew F) : List Turn → Journal F × Crew F
  | [] => ([], crew)
  | turn :: turns =>
      let next := crew.turn turn
      let rest := next.2.pursue turns
      (next.1 ++ rest.1, rest.2)

theorem pursue_append (crew : Crew F) (first second : List Turn) :
    crew.pursue (first ++ second) =
      ((crew.pursue first).1 ++ ((crew.pursue first).2.pursue second).1,
        ((crew.pursue first).2.pursue second).2) := by
  induction first generalizing crew with
  | nil => rfl
  | cons turn turns ih =>
      rw [List.cons_append, pursue, pursue, ih]
      simp

theorem called_close (w : World F) (broker : BrokerId) :
    w.Called (World.only broker .close) (w.changeBroker broker Broker.close) :=
  World.called_change w broker fun _ => rfl

theorem turn_orderly {service : Service F} {past : Journal F} {crew : Crew F}
    (orderly : crew.Orderly service past) (turn : Turn) :
    Orderly service (past ++ (crew.turn turn).1) (crew.turn turn).2 := by
  cases turn with
  | choose choice => exact chosen_orderly orderly (choose_chosen crew choice)
  | close broker =>
      rw [turn, List.append_nil]
      apply outside_orderly orderly (called_close crew.world broker)
      intro id stream
      constructor
      · exact fun member => nomatch (World.mem_only.mp member).2
      · exact fun member => nomatch (World.mem_only.mp member).2

theorem pursue_orderly {service : Service F} {past : Journal F} {crew : Crew F}
    (orderly : crew.Orderly service past) (turns : List Turn) :
    Orderly service (past ++ (crew.pursue turns).1) (crew.pursue turns).2 := by
  induction turns generalizing past crew with
  | nil => simpa [pursue] using orderly
  | cons turn turns ih =>
      rw [pursue, ← List.append_assoc]
      exact ih (turn_orderly orderly turn)

-- A turn comes to the brokers as calls, and only the closing of one closes it.
theorem turn_called {service : Service F} {past : Journal F} {crew : Crew F}
    (orderly : crew.Orderly service past) (turn : Turn) :
    ∃ calls, crew.world.Called calls (crew.turn turn).2.world ∧
      ∀ id, .close ∈ calls id ↔ turn = .close id := by
  cases turn with
  | close broker =>
      refine ⟨_, called_close crew.world broker, fun id => ?_⟩
      rw [World.mem_only, Turn.close.injEq]
      exact ⟨fun member => member.1.symm, fun same => ⟨same.symm, rfl⟩⟩
  | choose choice =>
      have never : ∀ {calls : BrokerId → List BrokerCall}, (∀ id, .close ∉ calls id) →
          ∀ id, .close ∈ calls id ↔ Turn.choose choice = .close id :=
        fun absent id => ⟨fun member => absurd member (absent id), nofun⟩
      have chosen := choose_chosen crew choice
      change ∃ calls, crew.world.Called calls (crew.choose choice).2.world ∧ _
      generalize (crew.choose choice).1 = journal, (crew.choose choice).2 = next at chosen
      cases chosen with
      | stuck i => exact ⟨_, World.called_of_brokers rfl rfl rfl, never fun _ => World.mem_nothing⟩
      | moved known moves =>
          obtain ⟨calls, called, cause⟩ := Consumer.moves_called moves (orderly_anchored orderly known)
          refine ⟨calls, called, never fun id member => ?_⟩
          rcases cause id _ member with ⟨-, ⟨same, -⟩ | ⟨same, -⟩⟩ | ⟨x, -, asked⟩
          · cases same
          · cases same
          · rcases Effect.asks_only asked with ⟨topic, message, same⟩ | ⟨settlement, same⟩ <;> cases same
      | outside called signal stores later =>
          refine ⟨_, called, never fun id member => ?_⟩
          obtain ⟨topic, message, -, same⟩ := called_outside member
          cases same

theorem choose_brief (crew : Crew F) (choice : Choice) :
    (crew.choose choice).1 = [] ∨ ∃ entry, (crew.choose choice).1 = [entry] := by
  have chosen := choose_chosen crew choice
  generalize (crew.choose choice).1 = journal, (crew.choose choice).2 = next at chosen
  cases chosen with
  | stuck i => exact .inl rfl
  | outside called signal => exact .inl rfl
  | @moved i consumer after v happening known moves =>
      cases happening with
      | none => exact .inl rfl
      | some what => exact .inr ⟨_, rfl⟩

theorem turn_brief (crew : Crew F) (turn : Turn) :
    (crew.turn turn).1 = [] ∨ ∃ entry, (crew.turn turn).1 = [entry] := by
  cases turn with
  | choose choice => exact choose_brief crew choice
  | close broker => exact .inl rfl

-- Induction on the turns: an entry was made in the state that the turns before it had led to.
theorem pursue_split {crew : Crew F} {turns : List Turn} {past later : Journal F} {entry : Entry F}
    (split : (crew.pursue turns).1 = past ++ entry :: later) :
    ∃ before turn after, turns = before ++ turn :: after ∧ (crew.pursue before).1 = past ∧
      ((crew.pursue before).2.turn turn).1 = [entry] := by
  induction turns generalizing crew past with
  | nil => cases past <;> cases split
  | cons turn turns ih =>
      rw [pursue] at split
      rcases turn_brief crew turn with silent | ⟨first, noted⟩
      · rw [silent, List.nil_append] at split
        obtain ⟨before, other, after, rfl, same, last⟩ := ih split
        exact ⟨turn :: before, other, after, rfl, by rw [pursue, silent, same, List.nil_append], last⟩
      · rw [noted] at split
        cases past with
        | nil =>
            obtain ⟨same, -⟩ := List.cons_eq_cons.mp split
            exact ⟨[], turn, turns, rfl, rfl, same ▸ noted⟩
        | cons head past =>
            obtain ⟨same, rest⟩ := List.cons_eq_cons.mp split
            obtain ⟨before, other, after, rfl, early, last⟩ := ih rest
            exact ⟨turn :: before, other, after, rfl, by rw [pursue, noted, early, same]; rfl, last⟩

end Crew

end EventPipeline

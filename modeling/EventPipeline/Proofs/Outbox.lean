import EventPipeline.Proofs.Schedules
import EventPipeline.Proofs.Stores

/-!
Outputs are on record before they are published. What a route publishes is a dead letter or an output of
the last attempt at its delivery, and that attempt ended well only after all of its outputs were written.
-/

set_option autoImplicit false

namespace EventPipeline

open Program Transcript

variable {F : EventFamily}

theorem cut_around {α : Type} {before after front back : List α} {x : α}
    (same : before ++ x :: after = front ++ back) :
    (∃ rest, front = before ++ x :: rest ∧ after = rest ++ back) ∨
      ∃ rest, before = front ++ rest ∧ back = rest ++ x :: after := by
  rcases List.append_eq_append_iff.mp same with ⟨rest, rfl, later⟩ | ⟨rest, rfl, rfl⟩
  · cases rest with
    | nil => exact .inr ⟨[], (List.append_nil _).symm.trans (by simp), later.symm⟩
    | cons y rest =>
        obtain ⟨rfl, rfl⟩ := List.cons_eq_cons.mp later
        exact .inl ⟨rest, rfl, rfl⟩
  · exact .inr ⟨rest, rfl, rfl⟩

theorem delivers_outputs {route : Route F} {result : Except EventError (List Message)} {t : Transcript F}
    {outcome : Except Panic (Except EventError Unit)} (delivers : route.Delivers result t outcome)
    {p : Publication} (member : p ∈ sent t) :
    ∃ outputs, result = .ok outputs ∧ p.message ∈ outputs := by
  cases delivers with
  | failed e => cases member
  | empty => cases member
  | homeless present absent => cases member
  | @published outputs queue _ _ target ends =>
      refine ⟨outputs, rfl, ?_⟩
      rcases (Route.ends_publish_all ends).2 with ⟨all, -⟩ | ⟨passed, output, later, reply, rfl, -, some, -⟩
      · rw [sent, all, List.map_map] at member
        obtain ⟨output, within, rfl⟩ := List.mem_map.mp member
        exact within
      · rw [sent, some, List.map_append, List.map_map] at member
        rcases List.mem_append.mp member with early | last
        · obtain ⟨output, within, rfl⟩ := List.mem_map.mp early
          exact List.mem_append_left _ within
        · rw [List.mem_singleton.mp last]
          exact List.mem_append_right _ List.mem_cons_self

theorem standard_unwritten {handler : Handler F} (standard : handler.Standard) {message : Message}
    {t : Transcript F} {outcome : Handler.Outcome} (ends : Ends (handler message) t outcome) :
    writes t = [] := by
  have confined : handler.Only fun e => e.isCall = true ∨ e = .freshId :=
    standard_only (fun _ call => .inl call) (.inr rfl) standard
  have asked := leads_only (confined message) ends
  apply List.filterMap_eq_nil_iff.mpr
  rintro ⟨effect, answer⟩ member
  cases effect with
  | store store eventType messageId payload =>
      rcases asked _ member with call | fresh
      · cases call
      · cases fresh
  | _ => rfl

def recordingWorld : World Events.family :=
  .create echoCollaborators [("main", .create .none)] [.create .none]

end EventPipeline

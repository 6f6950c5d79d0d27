import EventPipeline.Proofs.Reliability
import EventPipeline.Proofs.Registrations
import EventPipeline.Proofs.Schedules
import EventPipeline.Proofs.Subscriptions

/-!
From registrations to loops. A started service subscribes for the routes that were registered, in their
order, and each loop works for its own route and calls the handler of that route alone.
-/

set_option autoImplicit false

namespace EventPipeline

open Program Transcript

variable {F : EventFamily}

-- Starting is opening the routes, with nothing but remarks before and after that.
theorem start_opens (service : Service F) (w : World F) :
    ∃ (u last : World F) (outcome : Except EventError (List (Consumer F))), w.Called World.nothing u ∧
      openRoutes service service.routes u = (outcome, last) ∧
      last.Called World.nothing (startService service w).2 ∧
      (startService service w).1 = match outcome with
        | .ok consumers => .running service.transport consumers
        | .error e => .finished (.error e) := by
  unfold startService
  dsimp only
  generalize between : (if service.routes.isEmpty then
    w.record [.event .warn "No handlers registered, nothing to consume" { texts := [] }] else w) = u
  have remarked : w.Called World.nothing u := by
    rw [← between]
    split <;> exact World.called_of_brokers rfl rfl rfl
  cases opened : openRoutes service service.routes u with
  | mk outcome last =>
      refine ⟨u, last, outcome, remarked, opened, ?_, ?_⟩
      · cases outcome <;> exact World.called_of_brokers rfl rfl rfl
      · cases outcome <;> rfl

theorem historic_called {w v : World F} (historic : w.Historic) (called : w.Called World.nothing v) :
    v.Historic := by
  intro id
  rw [called.inside]
  exact historic id

end EventPipeline

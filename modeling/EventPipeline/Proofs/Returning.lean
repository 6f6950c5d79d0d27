import EventPipeline.Proofs.Sessions

/-!
Acknowledgers that return. If no broker panics on a settlement, no work on a delivery ends in a panic, so
no loop breaks down.
-/

set_option autoImplicit false

namespace EventPipeline

open Program Transcript

variable {F : EventFamily}

namespace World

def Returning (w : World F) : Prop :=
  ∀ id n, (w.broker id).faults.panickingSettlements.contains n = false

theorem returning_called {w v : World F} {calls : BrokerId → List BrokerCall} (returning : w.Returning)
    (called : w.Called calls v) : v.Returning := by
  intro id n
  rw [called.faults]
  exact returning id n

theorem publish_returns (w : World F) (id : BrokerId) (topic : String) (message : Message) (p : Panic) :
    replyOf (w.publish id topic message).1 ≠ .panic p := by
  cases (w.publish id topic message).1 <;> exact nofun

theorem settle_returns {w : World F} (returning : w.Returning) (id : BrokerId) (settlement : Settlement)
    (p : Panic) : ((w.broker id).settle settlement).1 ≠ .panic p := by
  unfold FaultyBroker.settle
  dsimp only
  rw [returning, if_neg Bool.false_ne_true]
  split <;> exact nofun

theorem resume_returns (origin : World F) {w : World F} (returning : w.Returning) (effect : Effect F) :
    ¬ (⟨effect, ((origin.start effect).1.resume w).1⟩ : Exchange F).breaks := by
  intro bad
  cases effect with
  | publish id topic message =>
      obtain ⟨p, same⟩ := bad
      exact publish_returns w id topic message p same
  | settle id settlement =>
      obtain ⟨p, same⟩ := bad
      exact settle_returns returning id settlement p same
  | _ => exact bad

end World

theorem process_breaks {service : Service F} {route : Route F} (standard : route.handler.Standard)
    {message : Message} {t : Transcript F} {p : Panic}
    (ends : Ends (route.process (service.pipeline route) message) t (.error p)) : ∃ x ∈ t, x.breaks := by
  obtain ⟨handled, result, delivering, concluding, delivered, account⟩ := process_account standard ends
  cases delivered with
  | ok fate =>
      rcases account.returned fate rfl with same | broken
      · cases same
      · exact broken
  | error q =>
      obtain ⟨x, member, bad⟩ := delivered_without_breaking account.delivers
      exact ⟨x, by simp [account.whole, member], bad⟩

namespace Crew

structure Returning (past : Journal F) (crew : Crew F) : Prop where
  world : crew.world.Returning
  unbroken : ∀ entry ∈ past, ∀ x, entry.happening = .answered x → ¬ x.breaks
  standing : ∀ consumer ∈ crew.consumers, ∀ p, consumer.phase ≠ .failed p

-- The panic would have come from an answer, and those that came so far were none.
theorem returning_works {service : Service F} (built : service.Built) {past : Journal F} {crew : Crew F}
    (orderly : crew.Orderly service past) (returning : crew.Returning past) {i : Nat} {consumer : Consumer F}
    (known : crew.consumers[i]? = some consumer) (p : Panic) : consumer.phase ≠ .working (.panic p) := by
  intro phase
  have route := List.mem_of_getElem? (orderly.route_at known)
  have tracks := orderly.tracks_at known
  rw [phase] at tracks
  obtain ⟨finished, current, split, -, underway⟩ := tracks
  cases underway with
  | working handling reached =>
      obtain ⟨x, within, bad⟩ := process_breaks (built_standard built route) reached
      have happened : .answered x ∈ past.of i := by
        rw [split]
        exact List.mem_append_right _ (answered_within within)
      obtain ⟨entry, noted, same⟩ := journal_mem happened
      exact returning.unbroken entry noted x same bad

theorem step_returning {service : Service F} (built : service.Built) {past : Journal F} {crew : Crew F}
    (orderly : crew.Orderly service past) (returning : crew.Returning past) {i : Nat}
    {consumer after : Consumer F} {v : World F} {happening : Option (Happening F)}
    (known : crew.consumers[i]? = some consumer)
    (moves : consumer.Moves crew.signal crew.world happening after v) :
    Returning (past ++ (happening.map (Entry.mk i)).toList)
      { crew with consumers := crew.consumers.set i after, world := v } := by
  have anchored := orderly_anchored orderly known
  obtain ⟨calls, called, -⟩ := Consumer.moves_called moves anchored
  refine ⟨World.returning_called returning.world called, ?_, ?_⟩
  · intro entry member x same
    rcases List.mem_append.mp member with old | new
    · exact returning.unbroken entry old x same
    · obtain ⟨what, rfl, rfl⟩ : ∃ what, happening = some what ∧ Entry.mk i what = entry := by
        simpa using new
      cases same
      cases moves with
      | @answered effect pending next phase =>
          obtain ⟨origin, rfl⟩ := anchored _ _ _ phase
          exact World.resume_returns origin returning.world effect
  · intro other member p failed
    rcases List.mem_or_eq_of_mem_set member with old | rfl
    · exact returning.standing other old p failed
    · cases moves with
      | noticed phase off news => exact returning.standing consumer (List.mem_of_getElem? known) p failed
      | failed phase => exact returning_works built orderly returning known _ phase
      | _ => cases failed

theorem turn_returning {service : Service F} (built : service.Built) {past : Journal F} {crew : Crew F}
    (orderly : crew.Orderly service past) (returning : crew.Returning past) (turn : Turn) :
    Returning (past ++ (crew.turn turn).1) (crew.turn turn).2 := by
  cases turn with
  | close broker =>
      rw [Crew.turn, List.append_nil]
      exact ⟨World.returning_called returning.world (called_close crew.world broker), returning.unbroken,
        returning.standing⟩
  | choose choice =>
      have chosen := choose_chosen crew choice
      change Returning (past ++ (crew.choose choice).1) (crew.choose choice).2
      generalize (crew.choose choice).1 = journal, (crew.choose choice).2 = next at chosen
      cases chosen with
      | stuck i => rwa [List.append_nil]
      | moved known moves => exact step_returning built orderly returning known moves
      | outside called signal stores later =>
          rw [List.append_nil]
          exact ⟨World.returning_called returning.world called, returning.unbroken, returning.standing⟩

theorem pursue_returning {service : Service F} (built : service.Built) {past : Journal F} {crew : Crew F}
    (orderly : crew.Orderly service past) (returning : crew.Returning past) (turns : List Turn) :
    Returning (past ++ (crew.pursue turns).1) (crew.pursue turns).2 := by
  induction turns generalizing past crew with
  | nil => simpa [pursue] using returning
  | cons turn turns ih =>
      rw [pursue, ← List.append_assoc]
      exact ih (turn_orderly orderly turn) (turn_returning built orderly returning turn)

end Crew

end EventPipeline

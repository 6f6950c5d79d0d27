import EventPipeline.Proofs.Outbox

/-!
An outbox over its whole history. Of all writes under one message id it keeps the first, whoever made it.
Every later one is accepted as well and changes nothing, so repeating what was written before is harmless.
-/

set_option autoImplicit false

namespace EventPipeline

variable {F : EventFamily}

namespace OutboxStore

-- The first write under each message id, in the order of the writes.
def firstWrites : List OutboxRecord → List OutboxRecord
  | [] => []
  | record :: later =>
      record :: (firstWrites later).filter fun other => other.messageId != record.messageId

theorem first_writes_ordered (history : List OutboxRecord) : (firstWrites history).Sublist history := by
  induction history with
  | nil => exact .slnil
  | cons record later ih => exact (List.filter_sublist.trans ih).cons_cons record

section Insert

variable {store : OutboxStore} {record : OutboxRecord}

theorem insert_known (known : store.contains record.messageId = true) : store.insert record = store :=
  if_pos known

theorem insert_unknown (unknown : store.contains record.messageId = false) :
    store.insert record = ⟨store.records ++ [record]⟩ := if_neg (by simp [unknown])

theorem contains_insert (store : OutboxStore) (record : OutboxRecord) (messageId : String) :
    (store.insert record).contains messageId = (store.contains messageId || record.messageId == messageId) := by
  cases known : store.contains record.messageId with
  | true =>
      rw [insert_known known]
      by_cases same : record.messageId = messageId
      · rw [← same, known, Bool.true_or]
      · simp [same]
  | false => simp [insert_unknown known, contains]

end Insert

-- Induction on the history: a write adds a record unless there is one of its id, from before the history or
-- from within it.
theorem records_insert_all (store : OutboxStore) (history : List OutboxRecord) :
    (history.foldl insert store).records =
      store.records ++ (firstWrites history).filter fun record => !store.contains record.messageId := by
  induction history generalizing store with
  | nil => exact (List.append_nil _).symm
  | cons record later ih =>
      rw [List.foldl_cons, ih, firstWrites]
      cases known : store.contains record.messageId with
      | true =>
          rw [insert_known known, List.filter_cons_of_neg (by simp [known]), List.filter_filter]
          congr 1
          apply List.filter_congr
          intro other _
          by_cases same : other.messageId = record.messageId
          · simp [same, known]
          · simp [same]
      | false =>
          rw [List.filter_cons_of_pos (by simp [known]), List.filter_filter]
          simp only [contains_insert, Bool.not_or]
          rw [insert_unknown known]
          change (store.records ++ [record]) ++ _ = _
          rw [List.append_assoc, List.singleton_append]
          congr 2
          apply List.filter_congr
          intro other _
          rw [bne, BEq.comm]

theorem contains_insert_all (store : OutboxStore) (history : List OutboxRecord) {record : OutboxRecord}
    (member : record ∈ history) : (history.foldl insert store).contains record.messageId = true := by
  have found := find_insert_all store history record.messageId
  have there : ((store.records ++ history).find? fun other => other.messageId == record.messageId).isSome := by
    rw [List.find?_isSome]
    exact ⟨record, List.mem_append_right _ member, beq_self_eq_true _⟩
  rw [← found, find?, List.find?_isSome] at there
  obtain ⟨first, within, same⟩ := there
  exact List.any_eq_true.mpr ⟨first, within, same⟩

theorem insert_all_known {store : OutboxStore} {again : List OutboxRecord}
    (known : ∀ record ∈ again, store.contains record.messageId = true) : again.foldl insert store = store := by
  induction again with
  | nil => rfl
  | cons record again ih =>
      rw [List.foldl_cons, insert_known (known record List.mem_cons_self)]
      exact ih fun other member => known other (List.mem_cons_of_mem _ member)

-- What a store holds after a history of writes with their answers.
structure Keeps (history : List (OutboxRecord × Reply Unit)) (store : OutboxStore) : Prop where
  accepted : ∀ write ∈ history, write.2 = .ok ()
  records : store.records = firstWrites (history.map (·.1))
  distinct : store.Distinct
  ordered : store.records.Sublist (history.map (·.1))
  first : ∀ messageId, store.find? messageId =
    (history.map (·.1)).find? fun record => record.messageId == messageId

end OutboxStore

namespace FaultyStore

open OutboxStore

-- A store inside the process has nothing to refuse.
theorem run_unrefused {s : FaultyStore} (unrefused : s.refused = .none) (history : List OutboxRecord) :
    (s.run history).1 = history.map (·, .ok ()) ∧
      (s.run history).2.store = history.foldl OutboxStore.insert s.store := by
  induction history generalizing s with
  | nil => exact ⟨rfl, rfl⟩
  | cons record later ih =>
      have inserted : s.insert record =
          (.ok (), { s with writes := s.writes + 1, store := s.store.insert record }) := by
        unfold FaultyStore.insert
        rw [unrefused]
        rfl
      let next : FaultyStore := { s with writes := s.writes + 1, store := s.store.insert record }
      have rest : (next.run later).1 = later.map (·, .ok ()) ∧
          (next.run later).2.store = later.foldl OutboxStore.insert next.store := ih unrefused
      rw [run, inserted]
      exact ⟨congrArg ((record, .ok ()) :: ·) rest.1, rest.2⟩

theorem run_fresh (history : List OutboxRecord) :
    ((create .none).run history).1 = history.map (·, .ok ()) ∧
      ((create .none).run history).2.store = history.foldl OutboxStore.insert .empty :=
  run_unrefused rfl history

theorem run_calls (history : List OutboxRecord) : ((create .none).run history).1.map (·.1) = history := by
  simp [(run_fresh history).1, Function.comp_def]

theorem run_keeps (history : List OutboxRecord) :
    Keeps ((create .none).run history).1 ((create .none).run history).2.store := by
  obtain ⟨answers, inside⟩ := run_fresh history
  have records : ((create .none).run history).2.store.records = firstWrites history := by
    rw [inside, records_insert_all]
    exact List.filter_eq_self.mpr fun _ _ => rfl
  refine ⟨?_, ?_, ?_, ?_, fun messageId => ?_⟩
  · intro write member
    rw [answers] at member
    obtain ⟨record, -, rfl⟩ := List.mem_map.mp member
    rfl
  · rw [run_calls, records]
  · rw [inside]
    have apart : OutboxStore.empty.Distinct := List.nodup_nil
    exact distinct_insert_all apart history
  · rw [run_calls, records]
    exact first_writes_ordered history
  · rw [run_calls, inside, find_insert_all]
    rfl

theorem run_extends (history later : List OutboxRecord) :
    ((create .none).run history).2.store.records <+:
      ((create .none).run (history ++ later)).2.store.records := by
  rw [(run_fresh history).2, (run_fresh (history ++ later)).2, List.foldl_append, records_insert_all _ later]
  exact List.prefix_append _ _

theorem run_repeats {history again : List OutboxRecord} (made : ∀ record ∈ again, record ∈ history) :
    ((create .none).run (history ++ again)).2.store = ((create .none).run history).2.store := by
  rw [(run_fresh history).2, (run_fresh (history ++ again)).2, List.foldl_append]
  exact insert_all_known fun record member => contains_insert_all .empty history (made record member)

-- Any sequence of writes, whoever makes them.
theorem run_keeps_first_writes (history : List OutboxRecord) :
    let result := (create .none).run history
    result.1.map (·.1) = history ∧ OutboxStore.Keeps result.1 result.2.store ∧
    (∀ later, result.2.store.records <+: ((create .none).run (history ++ later)).2.store.records) ∧
    ∀ again, (∀ record ∈ again, record ∈ history) →
      ((create .none).run (history ++ again)).2.store = result.2.store :=
  ⟨run_calls history, run_keeps history, run_extends history, fun _ made => run_repeats made⟩

end FaultyStore

-- The first part is about any sequence of writes. The second one shows that the writes of all the handlers of
-- a service, however their steps interleave, continue such a sequence.
theorem outbox_keeps_first_writes :
    (∀ history : List OutboxRecord,
      let result := (FaultyStore.create .none).run history
      result.1.map (·.1) = history ∧ OutboxStore.Keeps result.1 result.2.store ∧
      (∀ later, result.2.store.records <+:
        ((FaultyStore.create .none).run (history ++ later)).2.store.records) ∧
      ∀ again, (∀ record ∈ again, record ∈ history) →
        ((FaultyStore.create .none).run (history ++ again)).2.store = result.2.store) ∧
    ∀ {service : Service F} {w : World F} {crew : Crew F} {store : StoreId} {earlier : List OutboxRecord},
      w.Historic → openRoutes service service.routes w = (.ok crew.consumers, crew.world) →
      store < crew.world.stores.length →
      crew.world.store store = ((FaultyStore.create .none).run earlier).2 →
      ∀ turns : List Turn,
        let run := crew.pursue turns
        let history := earlier.map (·, .ok ()) ++ run.1.writesTo store
        (FaultyStore.create .none).run (history.map (·.1)) = (history, run.2.world.store store) ∧
        OutboxStore.Keeps history (run.2.world.store store).store ∧
        ∀ more : List Turn,
          let next := run.2.pursue more
          (run.2.world.store store).store.records <+: (next.2.world.store store).store.records ∧
          ((∀ write ∈ next.1.writesTo store, write.1 ∈ history.map (·.1)) →
            (next.2.world.store store).store = (run.2.world.store store).store) := by
  refine ⟨FaultyStore.run_keeps_first_writes, ?_⟩
  intro service w crew store earlier historic opened present begun turns run history
  have start : crew.Orderly service [] := opened_orderly historic opened crew.signal
  have writes := Crew.pursue_writes start turns
  have continued := writes.ran store present
  rw [begun] at continued
  have ran : (FaultyStore.create .none).run (history.map (·.1)) = (history, run.2.world.store store) := by
    rw [List.map_append, ← (FaultyStore.run_fresh earlier).1, FaultyStore.run_calls, FaultyStore.run_append,
      continued, (FaultyStore.run_fresh earlier).1]
  refine ⟨ran, ?_, fun more => ?_⟩
  · have keeps := FaultyStore.run_keeps (history.map (·.1))
    rw [ran] at keeps
    exact keeps
  · intro next
    have after := (Crew.pursue_writes (Crew.pursue_orderly start turns) more).ran store
      (writes.length.symm ▸ present)
    have whole : ((FaultyStore.create .none).run
        (history.map (·.1) ++ (next.1.writesTo store).map (·.1))).2 = next.2.world.store store := by
      rw [FaultyStore.run_append, ran]
      exact congrArg (·.2) after
    have before : ((FaultyStore.create .none).run (history.map (·.1))).2 = run.2.world.store store :=
      congrArg (·.2) ran
    rw [← whole, ← before]
    refine ⟨FaultyStore.run_extends _ _, fun made => FaultyStore.run_repeats ?_⟩
    intro record member
    obtain ⟨write, asked, rfl⟩ := List.mem_map.mp member
    exact made write asked

-- Both routes of the pair return what they read, so each output comes to the shared outbox twice.
def sharingService : Service Events.family := { pairService with outbox := some 0 }

def sharingCrew : Crew Events.family :=
  match openRoutes sharingService sharingService.routes recordingWorld with
  | (.ok consumers, w) => ⟨.create false, consumers, w⟩
  | (.error _, w) => ⟨.create false, [], w⟩

def sharingTurns : List Turn := byTurns.map .choose

theorem twice_written_outputs_are_kept_once :
    openRoutes sharingService sharingService.routes recordingWorld =
        (.ok sharingCrew.consumers, sharingCrew.world) ∧
      sharingCrew.world.store 0 = ((FaultyStore.create .none).run []).2 ∧
      ((sharingCrew.pursue sharingTurns).1.writesTo 0).map (·.1.messageId) = ["a", "a", "b", "b"] ∧
      ((sharingCrew.pursue sharingTurns).2.world.store 0).store.records.map (·.messageId) = ["a", "b"] ∧
      OutboxStore.Keeps ((sharingCrew.pursue sharingTurns).1.writesTo 0)
        ((sharingCrew.pursue sharingTurns).2.world.store 0).store := by
  have opened : openRoutes sharingService sharingService.routes recordingWorld =
      (.ok sharingCrew.consumers, sharingCrew.world) := by rfl
  have begun : sharingCrew.world.store 0 = ((FaultyStore.create .none).run []).2 := by rfl
  obtain ⟨-, keeps, -⟩ :=
    outbox_keeps_first_writes.2 (single_historic _ _) opened (by decide) begun sharingTurns
  have asked : ((sharingCrew.pursue sharingTurns).1.writesTo 0).map (·.1.messageId) = ["a", "a", "b", "b"] := by
    decide +kernel
  refine ⟨opened, begun, asked, ?_, keeps⟩
  decide +kernel

end EventPipeline

import EventPipeline.Proofs.Recording
import EventPipeline.Proofs.Sessions

/-!
What the stores hold. Only an answered write changes a store, whoever made it, and of all the records
that were accepted under one message id a store keeps the first.
-/

set_option autoImplicit false

namespace EventPipeline

variable {F : EventFamily}

namespace OutboxStore

def find? (store : OutboxStore) (messageId : String) : Option OutboxRecord :=
  store.records.find? fun record => record.messageId == messageId

theorem find_insert (store : OutboxStore) (record : OutboxRecord) (messageId : String) :
    (store.insert record).find? messageId =
      (store.records ++ [record]).find? fun record => record.messageId == messageId := by
  unfold insert
  split
  · next known =>
      rw [find?, List.find?_append]
      by_cases same : record.messageId = messageId
      · subst same
        obtain ⟨old, found⟩ := Option.isSome_iff_exists.mp (List.find?_isSome.mpr (List.any_eq_true.mp known))
        rw [found, Option.some_or]
      · simp [same]
  · rfl

-- Of the records that came under one id the first is kept.
theorem find_insert_all (store : OutboxStore) (records : List OutboxRecord) (messageId : String) :
    (records.foldl insert store).find? messageId =
      (store.records ++ records).find? fun record => record.messageId == messageId := by
  induction records generalizing store with
  | nil => rw [List.append_nil]; rfl
  | cons record records ih =>
      have first := find_insert store record messageId
      unfold find? at first
      rw [List.foldl_cons, ih, List.append_cons, List.find?_append, List.find?_append, first]

def Distinct (store : OutboxStore) : Prop := (store.records.map (·.messageId)).Nodup

theorem distinct_insert {store : OutboxStore} (distinct : store.Distinct) (record : OutboxRecord) :
    (store.insert record).Distinct := by
  unfold insert
  split
  · exact distinct
  · next unknown =>
      have apart : record.messageId ∉ store.records.map (·.messageId) := by
        intro member
        obtain ⟨old, within, same⟩ := List.mem_map.mp member
        exact unknown (List.any_eq_true.mpr ⟨old, within, by simpa using same⟩)
      unfold Distinct at distinct ⊢
      rw [List.map_append, List.map_singleton, List.nodup_append]
      refine ⟨distinct, List.pairwise_singleton _ _, ?_⟩
      intro old member new only same
      rw [List.mem_singleton.mp only] at same
      exact apart (same ▸ member)

theorem distinct_insert_all {store : OutboxStore} (distinct : store.Distinct) (records : List OutboxRecord) :
    (records.foldl insert store).Distinct := by
  induction records generalizing store with
  | nil => exact distinct
  | cons record records ih => exact ih (distinct_insert distinct record)

end OutboxStore

def Exchange.recorded? (store : StoreId) (x : Exchange F) : Option OutboxRecord :=
  match x.write? with
  | some (write, .ok _) => if write.store = store then some write.record else none
  | _ => none

def Happening.recorded? (store : StoreId) : Happening F → Option OutboxRecord
  | .answered x => x.recorded? store
  | _ => none

-- The records that a store accepted in a run, in the order of the answers, from all consumers.
def Journal.stored (store : StoreId) (journal : Journal F) : List OutboxRecord :=
  journal.filterMap fun entry => entry.happening.recorded? store

-- A write to the store, with its answer.
def Exchange.writeTo? (store : StoreId) (x : Exchange F) : Option (OutboxRecord × Reply Unit) :=
  match x.write? with
  | some (write, reply) => if write.store = store then some (write.record, reply) else none
  | none => none

def Happening.writeTo? (store : StoreId) : Happening F → Option (OutboxRecord × Reply Unit)
  | .answered x => x.writeTo? store
  | _ => none

-- The writes that a store was asked for in a run, in the order of the answers, from all consumers.
def Journal.writesTo (store : StoreId) (journal : Journal F) : List (OutboxRecord × Reply Unit) :=
  journal.filterMap fun entry => entry.happening.writeTo? store

@[simp] theorem Journal.writes_to_append (store : StoreId) (first second : Journal F) :
    Journal.writesTo store (first ++ second) = first.writesTo store ++ second.writesTo store :=
  List.filterMap_append

def OutboxRecord.accepted? : OutboxRecord × Reply Unit → Option OutboxRecord
  | (record, .ok _) => some record
  | _ => none

namespace FaultyStore

-- Writes one after another, each with its answer.
def run (s : FaultyStore) : List OutboxRecord → List (OutboxRecord × Reply Unit) × FaultyStore
  | [] => ([], s)
  | record :: records =>
      let next := s.insert record
      let rest := next.2.run records
      ((record, World.replyOf next.1) :: rest.1, rest.2)

theorem run_append (s : FaultyStore) (first second : List OutboxRecord) :
    s.run (first ++ second) =
      ((s.run first).1 ++ ((s.run first).2.run second).1, ((s.run first).2.run second).2) := by
  induction first generalizing s with
  | nil => rfl
  | cons record records ih => simp only [List.cons_append, run, ih]

theorem insert_answer (s : FaultyStore) (record : OutboxRecord) :
    (World.replyOf (s.insert record).1 = .ok () ∧ (s.insert record).2.store = s.store.insert record) ∨
      (World.replyOf (s.insert record).1 ≠ .ok () ∧ (s.insert record).2.store = s.store) := by
  unfold insert
  dsimp only
  split
  · exact .inr ⟨nofun, rfl⟩
  · exact .inl ⟨rfl, rfl⟩

-- A refused write does not reach the store inside.
theorem run_store (s : FaultyStore) (records : List OutboxRecord) :
    (s.run records).2.store =
      ((s.run records).1.filterMap OutboxRecord.accepted?).foldl OutboxStore.insert s.store := by
  induction records generalizing s with
  | nil => rfl
  | cons record records ih =>
      rw [run, ih]
      rcases insert_answer s record with ⟨accepted, inside⟩ | ⟨refused, inside⟩
      · rw [accepted, inside]
        rfl
      · have kept : OutboxRecord.accepted? (record, World.replyOf (s.insert record).1) = none := by
          cases answer : World.replyOf (s.insert record).1 with
          | ok _ => exact absurd answer refused
          | error e => rfl
          | panic p => rfl
        rw [inside, List.filterMap_cons_none kept]

end FaultyStore

-- The stores after an effect was answered.
def Effect.storing (w : World F) : Effect F → List FaultyStore
  | .store id eventType messageId payload =>
      w.stores.set id ((w.store id).insert ⟨eventType, messageId, payload⟩).2
  | _ => w.stores

theorem resume_stores (origin w : World F) (effect : Effect F) :
    ((origin.start effect).1.resume w).2.stores = effect.storing w := by
  cases effect with
  | publish id topic message => exact (kept_publish w id topic message).stores
  | settle id settlement => exact (kept_set_broker w id _).stores
  | _ => rfl

-- One world comes from another by the writes that were answered in between.
structure World.Writes (w : World F) (journal : Journal F) (v : World F) : Prop where
  length : v.stores.length = w.stores.length
  ran : ∀ id < w.stores.length,
    (w.store id).run ((journal.writesTo id).map (·.1)) = (journal.writesTo id, v.store id)

theorem writes_unchanged {w v : World F} (same : v.stores = w.stores) {journal : Journal F}
    (silent : ∀ id, journal.writesTo id = []) : w.Writes journal v := by
  refine ⟨congrArg List.length same, fun id small => ?_⟩
  rw [silent]
  simp only [World.store, same, List.map_nil, FaultyStore.run]

theorem writes_trans {w v after : World F} {first second : Journal F} (before : w.Writes first v)
    (later : v.Writes second after) : w.Writes (first ++ second) after := by
  refine ⟨later.length.trans before.length, fun id small => ?_⟩
  rw [Journal.writes_to_append, List.map_append, FaultyStore.run_append, before.ran id small,
    later.ran id (before.length ▸ small)]

theorem store_set (w : World F) {id other : StoreId} (s : FaultyStore) (small : other < w.stores.length) :
    (w.setStore id s).store other = if id = other then s else w.store other := by
  simp only [World.store, World.setStore, List.getD_eq_getElem?_getD, List.getElem?_set]
  split
  · next same => rw [if_pos (same ▸ small)]; rfl
  · rfl

theorem writes_to_one (store : StoreId) (i : Nat) (x : Exchange F) :
    Journal.writesTo store [⟨i, .answered x⟩] = (x.writeTo? store).toList := by
  cases asked : x.writeTo? store <;> simp [Journal.writesTo, Happening.writeTo?, asked]

theorem writes_answered (origin w : World F) (effect : Effect F) (i : Nat) :
    w.Writes [⟨i, .answered ⟨effect, ((origin.start effect).1.resume w).1⟩⟩]
      ((origin.start effect).1.resume w).2 := by
  cases effect with
  | store id eventType messageId payload =>
      refine ⟨by rw [resume_stores]; exact List.length_set, fun other small => ?_⟩
      rw [writes_to_one]
      change _ = (_, (w.setStore id ((w.store id).insert ⟨eventType, messageId, payload⟩).2).store other)
      rw [store_set w _ small]
      by_cases same : id = other
      · subst same
        simp only [Exchange.writeTo?, Exchange.write?, if_true, Option.toList_some, List.map_cons, List.map_nil,
          FaultyStore.run]
        rfl
      · simp only [Exchange.writeTo?, Exchange.write?, if_neg same, Option.toList_none, List.map_nil,
          FaultyStore.run]
  | _ => exact writes_unchanged (resume_stores origin w _) fun _ => rfl

theorem writes_moved {signal : Signal} {consumer after : Consumer F} {w v : World F}
    {happening : Option (Happening F)} (moves : consumer.Moves signal w happening after v)
    (anchored : consumer.Anchored) (i : Nat) :
    w.Writes (happening.map (Entry.mk i)).toList v := by
  have silent : ∀ {u : World F}, u.stores = w.stores → w.Writes ([] : Journal F) u :=
    fun same => writes_unchanged same fun _ => rfl
  cases moves with
  | started phase same kept => exact silent kept.stores
  | noticed phase off news => exact silent rfl
  | took phase got quiet => exact writes_unchanged (kept_set_broker w _ _).stores fun _ => rfl
  | @left phase between same kept reason =>
      exact silent ((kept_changed between _ _).stores.trans kept.stores)
  | finished phase => exact silent rfl
  | failed phase => exact silent (kept_changed w _ _).stores
  | @began effect next phase => exact writes_unchanged (by cases effect <;> rfl) fun _ => rfl
  | @answered effect pending next phase =>
      obtain ⟨origin, rfl⟩ := anchored _ _ _ phase
      exact writes_answered origin w effect i

namespace Crew

theorem turn_writes {service : Service F} {past : Journal F} {crew : Crew F}
    (orderly : crew.Orderly service past) (turn : Turn) :
    crew.world.Writes (crew.turn turn).1 (crew.turn turn).2.world := by
  cases turn with
  | close broker =>
      have kept := kept_changed crew.world broker Broker.close
      exact writes_unchanged kept.stores fun _ => rfl
  | choose choice =>
      have chosen := choose_chosen crew choice
      change crew.world.Writes (crew.choose choice).1 (crew.choose choice).2.world
      generalize (crew.choose choice).1 = journal, (crew.choose choice).2 = next at chosen
      cases chosen with
      | stuck i => exact writes_unchanged rfl fun _ => rfl
      | @moved i _ _ _ _ known moves => exact writes_moved moves (orderly_anchored orderly known) i
      | outside called signal stores later => exact writes_unchanged stores fun _ => rfl

-- Induction on the turns: whoever wrote in between, the stores are what the writes have made of them.
theorem pursue_writes {service : Service F} {past : Journal F} {crew : Crew F}
    (orderly : crew.Orderly service past) (turns : List Turn) :
    crew.world.Writes (crew.pursue turns).1 (crew.pursue turns).2.world := by
  induction turns generalizing past crew with
  | nil => exact writes_unchanged rfl fun _ => rfl
  | cons turn turns ih =>
      exact writes_trans (turn_writes orderly turn) (ih (turn_orderly orderly turn))

end Crew

end EventPipeline

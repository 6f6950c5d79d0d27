import EventPipeline.Proofs.Replay
import EventPipeline.World.Basic

/-!
What the world does to its brokers. Each operation comes down to calls of the brokers inside, so the
invariant of histories carries over to worlds in which many routes share a broker.
-/

set_option autoImplicit false

namespace EventPipeline

variable {F : EventFamily}

namespace World

-- A broker that was never set answers as a fresh one, so both the table with and the one without the
-- identifier must be looked at.
theorem broker_set_broker (w : World F) (id other : BrokerId) (b : FaultyBroker) :
    (w.setBroker id b).broker other = if other = id then b else w.broker other := by
  unfold setBroker
  split
  · next known =>
      have whole : (w.brokers.map fun entry => if entry.1 = id then (id, b) else entry).find?
          (fun entry => entry.1 == other) =
            (w.brokers.find? fun entry => entry.1 == other).map fun entry =>
              if entry.1 = id then (id, b) else entry := by
        rw [List.find?_map]
        congr 1
        apply congrFun (congrArg List.find? _)
        funext entry
        by_cases here : entry.1 = id <;> simp [here]
      unfold broker
      rw [whole]
      by_cases same : other = id
      · subst same
        obtain ⟨entry, found⟩ : ∃ entry, w.brokers.find? (fun entry => entry.1 == other) = some entry := by
          obtain ⟨entry, member, here⟩ := List.any_eq_true.mp known
          exact Option.isSome_iff_exists.mp (List.find?_isSome.mpr ⟨entry, member, here⟩)
        have here : entry.1 = other := by simpa using List.find?_some found
        simp [found, here]
      · cases found : w.brokers.find? fun entry => entry.1 == other with
        | none => simp [same]
        | some entry =>
            have here : entry.1 = other := by simpa using List.find?_some found
            simp [here, same]
  · next unknown =>
      unfold broker
      rw [List.find?_append]
      by_cases same : other = id
      · subst same
        have absent : w.brokers.find? (fun entry => entry.1 == other) = none := by
          apply List.find?_eq_none.mpr
          intro entry member here
          exact unknown (List.any_eq_true.mpr ⟨entry, member, here⟩)
        simp [absent]
      · have apart : (id == other) = false := beq_false_of_ne (Ne.symm same)
        simp [same, apart]

-- How one world comes from another as far as the brokers inside are concerned.
structure Called (w : World F) (calls : BrokerId → List BrokerCall) (after : World F) : Prop where
  inside : ∀ id, (after.broker id).broker = ((w.broker id).broker.run (calls id)).2
  faults : ∀ id, (after.broker id).faults = (w.broker id).faults
  stores : ∀ id, (after.store id).refused = (w.store id).refused
  collaborators : after.collaborators = w.collaborators

def only (id : BrokerId) (c : BrokerCall) : BrokerId → List BrokerCall :=
  fun other => if other = id then [c] else []

def nothing : BrokerId → List BrokerCall := fun _ => []

@[simp] theorem mem_only {id other : BrokerId} {c d : BrokerCall} :
    d ∈ only id c other ↔ other = id ∧ d = c := by
  by_cases same : other = id
  · simp [only, same]
  · simp [only, same]

@[simp] theorem only_same (id : BrokerId) (c : BrokerCall) : only id c id = [c] := if_pos rfl

@[simp] theorem mem_nothing {id : BrokerId} {c : BrokerCall} : c ∉ nothing id := List.not_mem_nil

theorem called_of_brokers {w after : World F} (brokers : after.brokers = w.brokers)
    (stores : after.stores = w.stores) (collaborators : after.collaborators = w.collaborators) :
    w.Called nothing after := by
  have same : ∀ id, after.broker id = w.broker id := by
    intro id
    simp only [broker, brokers]
  refine ⟨fun id => ?_, fun id => ?_, fun id => ?_, collaborators⟩
  · rw [same]
    rfl
  · rw [same]
  · simp only [store, stores]

theorem set_broker_rest (w : World F) (id : BrokerId) (b : FaultyBroker) :
    (w.setBroker id b).stores = w.stores ∧ (w.setBroker id b).collaborators = w.collaborators ∧
      (w.setBroker id b).clock = w.clock := by
  unfold setBroker
  split
  · exact ⟨rfl, rfl, rfl⟩
  · exact ⟨rfl, rfl, rfl⟩

-- One broker goes on by calls of the broker inside it; the others stay as they are.
theorem called_replaced (w : World F) (id : BrokerId) {b : FaultyBroker} {calls : List BrokerCall}
    (inside : b.broker = ((w.broker id).broker.run calls).2) (faults : b.faults = (w.broker id).faults) :
    w.Called (fun other => if other = id then calls else []) (w.setBroker id b) := by
  obtain ⟨stores, collaborators, -⟩ := set_broker_rest w id b
  refine ⟨fun other => ?_, fun other => ?_, fun other => ?_, collaborators⟩
  · rw [broker_set_broker]
    by_cases same : other = id
    · simp [same, inside]
    · simp [same, Broker.run]
  · rw [broker_set_broker]
    by_cases same : other = id
    · simp [same, faults]
    · simp [same]
  · simp only [store, stores]

theorem called_set_broker (w : World F) (id : BrokerId) {b : FaultyBroker} {c : BrokerCall}
    (inside : b.broker = ((w.broker id).broker.call c).2) (faults : b.faults = (w.broker id).faults) :
    w.Called (only id c) (w.setBroker id b) := called_replaced w id inside faults

theorem called_same_broker (w : World F) (id : BrokerId) {b : FaultyBroker}
    (inside : b.broker = (w.broker id).broker) (faults : b.faults = (w.broker id).faults) :
    w.Called nothing (w.setBroker id b) := by
  have idle : b.broker = ((w.broker id).broker.run []).2 := inside
  have called := called_replaced w id idle faults
  have same : (fun other => if other = id then [] else []) = nothing := by
    funext other
    exact ite_self []
  rwa [same] at called

theorem called_trans {w v after : World F} {first second : BrokerId → List BrokerCall}
    (before : w.Called first v) (later : v.Called second after) :
    w.Called (fun id => first id ++ second id) after := by
  refine ⟨fun id => ?_, fun id => ?_, fun id => ?_, ?_⟩
  · rw [later.inside, before.inside, Broker.run_append]
  · rw [later.faults, before.faults]
  · rw [later.stores, before.stores]
  · rw [later.collaborators, before.collaborators]

theorem called_change (w : World F) (id : BrokerId) {change : Broker → Broker} {c : BrokerCall}
    (asked : ∀ broker : Broker, change broker = (broker.call c).2) :
    w.Called (only id c) (w.changeBroker id change) :=
  called_set_broker w id (asked _) rfl

theorem called_receive (w : World F) (id : BrokerId) (stream : StreamId) :
    w.Called (only id (.receive stream)) (w.receive id stream).2 :=
  called_set_broker w id rfl rfl

theorem called_publish_inside (w : World F) (id : BrokerId) (topic : String) (message : Message) :
    w.Called (only id (.publish topic message)) (w.publishInside id topic message).2 := by
  cases published : (w.broker id).broker.publish topic message with
  | ok after =>
      have inside : (w.broker id).publishInside topic message = .ok { w.broker id with broker := after } := by
        simp [FaultyBroker.publishInside, published, Except.map]
      have called := called_set_broker w id (b := { w.broker id with broker := after })
        (c := .publish topic message) (by simp [Broker.call, published]) rfl
      simp only [publishInside, inside]
      exact ⟨called.inside, called.faults, called.stores, called.collaborators⟩
  | error e =>
      have inside : (w.broker id).publishInside topic message = .error e := by
        simp [FaultyBroker.publishInside, published, Except.map]
      have same : ((w.broker id).broker.call (.publish topic message)).2 = (w.broker id).broker := by
        simp [Broker.call, published]
      simp only [publishInside, inside]
      refine ⟨fun other => ?_, fun _ => rfl, fun _ => rfl, rfl⟩
      by_cases here : other = id
      · rw [here, only_same]
        exact same.symm
      · rw [only, if_neg here]
        rfl

theorem called_subscribe {w after : World F} {id : BrokerId} {topic : String} {stream : StreamId}
    (opened : w.subscribe id topic = .ok (stream, after)) :
    w.Called (only id (.subscribe topic)) after ∧
      ((w.broker id).broker.call (.subscribe topic)).1 = .subscribed (.ok stream) := by
  unfold subscribe FaultyBroker.subscribe at opened
  split at opened
  · cases opened
  · cases subscribed : (w.broker id).broker.subscribe topic with
    | error e => rw [subscribed] at opened; cases opened
    | ok result =>
        rw [subscribed] at opened
        cases opened
        exact ⟨called_set_broker w id (by simp [Broker.call, subscribed]) rfl,
          by simp [Broker.call, subscribed]⟩

theorem called_start (w : World F) (effect : Effect F) : w.Called nothing (w.start effect).2 := by
  cases effect with
  | _ => exact called_of_brokers rfl rfl rfl

end World

-- The calls of a broker that an effect may lead to once its answer is due.
def Effect.asks : Effect F → BrokerId → BrokerCall → Prop
  | .publish broker queue message, id, c => id = broker ∧ c = .publish queue message
  | .settle broker settlement, id, c => id = broker ∧ c = .settle settlement
  | _, _, _ => False

theorem Effect.asks_only {effect : Effect F} {id : BrokerId} {c : BrokerCall} (asked : effect.asks id c) :
    (∃ topic message, c = .publish topic message) ∨ ∃ settlement, c = .settle settlement := by
  cases effect with
  | publish broker queue message => exact .inl ⟨queue, message, asked.2⟩
  | settle broker settlement => exact .inr ⟨settlement, asked.2⟩
  | _ => cases asked

namespace World

-- An accepted publication has reached the broker inside, which was open.
theorem called_accepted {w v : World F} {id : BrokerId} {topic : String} {message : Message}
    (accepted : w.publish id topic message = (.ok (), v)) :
    w.Called (only id (.publish topic message)) v ∧ (w.broker id).broker.closed = false := by
  by_cases refused : (w.broker id).faults.refusedPublishes.contains (w.broker id).publishes = true
  · simp [publish, FaultyBroker.publish, refused] at accepted
  · cases published : (w.broker id).broker.publish topic message with
    | error e =>
        simp [publish, FaultyBroker.publish, refused, FaultyBroker.publishInside, published, Except.map]
          at accepted
    | ok after =>
        simp only [publish, FaultyBroker.publish, refused, FaultyBroker.publishInside, published,
          Except.map, if_false, Bool.false_eq_true] at accepted
        have called := called_set_broker w id
          (b := { w.broker id with broker := after, publishes := (w.broker id).publishes + 1 })
          (c := .publish topic message) (by simp [Broker.call, published]) rfl
        obtain ⟨-, rfl⟩ := Prod.mk.inj accepted
        refine ⟨⟨called.inside, called.faults, called.stores, called.collaborators⟩, ?_⟩
        unfold Broker.publish at published
        split at published
        · cases published
        · next opened => simpa using opened

theorem called_publish (w : World F) (id : BrokerId) (topic : String) (message : Message) :
    ∃ calls, w.Called calls (w.publish id topic message).2 ∧
      ∀ other c, c ∈ calls other → (Effect.publish id topic message : Effect F).asks other c := by
  by_cases refused : (w.broker id).faults.refusedPublishes.contains (w.broker id).publishes = true
  · refine ⟨nothing, ?_, fun _ _ member => nomatch member⟩
    simp only [publish, FaultyBroker.publish, refused, if_true]
    exact called_same_broker w id rfl rfl
  · cases published : (w.broker id).broker.publish topic message with
    | error e =>
        refine ⟨nothing, ?_, fun _ _ member => nomatch member⟩
        simp only [publish, FaultyBroker.publish, refused, FaultyBroker.publishInside, published,
          Except.map, if_false, Bool.false_eq_true]
        exact called_same_broker w id rfl rfl
    | ok after =>
        have accepted : (w.publish id topic message).1 = .ok () := by
          simp [publish, FaultyBroker.publish, refused, FaultyBroker.publishInside, published, Except.map]
        exact ⟨_, (called_accepted (Prod.ext accepted rfl)).1, fun _ _ member => mem_only.mp member⟩

theorem called_settle (w : World F) (id : BrokerId) (settlement : Settlement) :
    ∃ calls, w.Called calls (w.setBroker id ((w.broker id).settle settlement).2) ∧
      ∀ other c, c ∈ calls other → (Effect.settle id settlement : Effect F).asks other c := by
  unfold FaultyBroker.settle
  split
  · exact ⟨nothing, called_same_broker w id rfl rfl, fun _ _ member => nomatch member⟩
  · split
    · exact ⟨nothing, called_same_broker w id rfl rfl, fun _ _ member => nomatch member⟩
    · exact ⟨_, called_set_broker w id (c := .settle settlement) rfl rfl,
        fun _ _ member => mem_only.mp member⟩

theorem called_store (w : World F) (id : StoreId) (record : OutboxRecord) :
    w.Called nothing (w.setStore id ((w.store id).insert record).2) := by
  refine ⟨fun _ => rfl, fun _ => rfl, fun other => ?_, rfl⟩
  have refused : ((w.store id).insert record).2.refused = (w.store id).refused := by
    unfold FaultyStore.insert
    dsimp only
    split <;> rfl
  simp only [store, setStore, List.getD_eq_getElem?_getD, List.getElem?_set] at refused ⊢
  split
  · next same =>
      subst same
      split
      · exact refused
      · next outside => simp [List.getElem?_eq_none (Nat.not_lt.mp outside)]
  · rfl

-- Whatever an answer does to the brokers, its effect has asked for it.
theorem called_resume (origin w : World F) (effect : Effect F) :
    ∃ calls, w.Called calls ((origin.start effect).1.resume w).2 ∧
      ∀ id c, c ∈ calls id → effect.asks id c := by
  cases effect with
  | publish id topic message => exact called_publish w id topic message
  | settle id settlement => exact called_settle w id settlement
  | store id eventType messageId payload =>
      exact ⟨nothing, called_store w id _, fun _ _ member => nomatch member⟩
  | _ => exact ⟨nothing, called_of_brokers rfl rfl rfl, fun _ _ member => nomatch member⟩

end World

end EventPipeline

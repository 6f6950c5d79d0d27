import EventPipeline.Producer
import EventPipeline.Proofs.Sessions

/-!
Sessions in which producers take part. A production runs between two steps of the consumers and comes to the
world as at most one publication; everything that holds of a crew along its own steps still holds.
-/

set_option autoImplicit false

namespace EventPipeline

open Program Transcript

variable {F : EventFamily}

structure Production (F : EventFamily) where
  broker : BrokerId
  connected : Bool
  kind : F.Kind
  codec : Codec (F.Value kind)
  queue : String
  value : F.Value kind
  metadata : Metadata

def pingProduction : Production Events.family where
  broker := "main"
  connected := true
  kind := Events.Kind.ping
  codec := Events.Kind.codec .ping
  queue := "in"
  value := ⟨7, "hello"⟩
  metadata := .ofList [(Metadata.schemaKey, "pong"), ("tenant", "blue")]

namespace Production

def program (p : Production F) : Program F (Except EventError String) :=
  produce p.broker p.connected p.kind p.codec p.queue p.value p.metadata

def message (p : Production F) (id : String) (payload : Bytes) : Message :=
  ⟨id, payload, p.metadata.set Metadata.schemaKey (F.schema p.kind)⟩

def naming (w : World F) : World F := { w with ids := w.ids + 1 }

-- All that a production can come to, with what it leaves behind.
inductive Comes (p : Production F) (w : World F) : Except EventError String → World F → Prop where
  | unsent (e : EventError) : Comes p w (.error e) w
  | refused {payload : Bytes} {e : EventError} {v : World F}
      (rejected : (naming w).publish p.broker p.queue (p.message (Uuid.ofNat w.ids) payload) = (.error e, v)) :
      Comes p w (.error e) v
  | accepted {payload : Bytes} {v : World F} (encoded : p.codec.encode p.value = .ok payload)
      (taken : (naming w).publish p.broker p.queue (p.message (Uuid.ofNat w.ids) payload) = (.ok (), v))
      (record : TraceRecord) :
      Comes p w (.ok (Uuid.ofNat w.ids)) ((v.count (.published producerName p.queue)).record [record])

theorem run_publish {α : Type} (w : World F) (broker : BrokerId) (queue : String) (message : Message)
    (f : Except EventError Unit → Program F α) :
    w.run ((publish broker queue message).bind f) =
      (w.publish broker queue message).2.run
        ((ofReply (World.replyOf (w.publish broker queue message).1)).bind f) := rfl

section Run

variable {p : Production F} {w : World F}

theorem run_unowned (lost : p.connected = false) : w.run p.program = (.ok (.error .notInitialized), w) := by
  rw [program, produce, lost]
  rfl

theorem run_unnamed (owned : p.connected = true) (blank : isBlankText p.queue = true) :
    w.run p.program = (.ok (.error (.config "queue name is required to publish")), w) := by
  rw [program, produce, owned, blank]
  rfl

theorem run_unencoded (owned : p.connected = true) (named : isBlankText p.queue = false) {e : EventError}
    (bad : p.codec.encode p.value = .error e) : w.run p.program = (.ok (.error e), w) := by
  rw [program, produce, owned, named, bad]
  rfl

def produced (p : Production F) (id : String) : TraceRecord :=
  .event .debug "Produced event" [("queue", p.queue), ("message_uuid", id), ("schema", F.schema p.kind)]

-- With nothing against the offer itself, the broker has the last word.
theorem run_encoded (owned : p.connected = true) (named : isBlankText p.queue = false) {payload : Bytes}
    (encoded : p.codec.encode p.value = .ok payload) {reply : Except EventError Unit} {v : World F}
    (answered : (naming w).publish p.broker p.queue (p.message (Uuid.ofNat w.ids) payload) = (reply, v)) :
    w.run p.program = match reply with
      | .ok () => (.ok (.ok (Uuid.ofNat w.ids)),
          (v.count (.published producerName p.queue)).record [p.produced (Uuid.ofNat w.ids)])
      | .error e => (.ok (.error e), v) := by
  have asked := run_publish (naming w) p.broker p.queue (p.message (Uuid.ofNat w.ids) payload)
    (α := Except EventError String)
  rw [answered] at asked
  rw [program, produce, owned, named, encoded]
  cases reply with
  | ok _ => exact asked _
  | error e => exact asked _

theorem run_comes (p : Production F) (w : World F) :
    ∃ result v, w.run p.program = (.ok result, v) ∧ p.Comes w result v := by
  cases owned : p.connected with
  | false => exact ⟨_, w, run_unowned owned, .unsent _⟩
  | true =>
      cases named : isBlankText p.queue with
      | true => exact ⟨_, w, run_unnamed owned named, .unsent _⟩
      | false =>
          cases encoded : p.codec.encode p.value with
          | error e => exact ⟨_, w, run_unencoded owned named encoded, .unsent e⟩
          | ok payload =>
              cases answered : (naming w).publish p.broker p.queue (p.message (Uuid.ofNat w.ids) payload) with
              | mk reply v =>
                  have ran := run_encoded owned named encoded answered
                  cases reply with
                  | error e => exact ⟨_, v, ran, .refused answered⟩
                  | ok _ => exact ⟨_, _, ran, .accepted encoded answered _⟩

end Run

section Comes

variable {p : Production F} {w v : World F} {result : Except EventError String}

theorem comes_called (comes : p.Comes w result v) :
    ∃ calls, w.Called calls v ∧ ∀ id c, c ∈ calls id → ∃ topic message, c = .publish topic message := by
  have named : w.Called World.nothing (naming w) := World.called_of_brokers rfl rfl rfl
  cases comes with
  | unsent e => exact ⟨_, World.called_of_brokers rfl rfl rfl, fun _ _ member => nomatch member⟩
  | @refused payload e v rejected =>
      obtain ⟨calls, called, asked⟩ :=
        World.called_publish (naming w) p.broker p.queue (p.message (Uuid.ofNat w.ids) payload)
      rw [rejected] at called
      exact ⟨_, World.called_trans named called, fun id c member => ⟨_, _, (asked id c member).2⟩⟩
  | @accepted payload v encoded taken record =>
      have counted : v.Called World.nothing ((v.count (.published producerName p.queue)).record [record]) :=
        World.called_of_brokers rfl rfl rfl
      refine ⟨_, World.called_trans named (World.called_trans (World.called_accepted taken).1 counted), ?_⟩
      intro id c member
      obtain ⟨-, same⟩ : id = p.broker ∧ c = _ := by simpa using member
      exact ⟨_, _, same⟩

def counts (p : Production F) : Except EventError String → List Measurement
  | .ok _ => [.published producerName p.queue]
  | .error _ => []

theorem comes_measured (comes : p.Comes w result v) :
    v.measurements = w.measurements ++ p.counts result := by
  cases comes with
  | unsent e => exact (List.append_nil _).symm
  | @refused payload e v rejected =>
      have kept := kept_publish (naming w) p.broker p.queue (p.message (Uuid.ofNat w.ids) payload)
      rw [rejected] at kept
      exact kept.measurements.trans (List.append_nil _).symm
  | @accepted payload v encoded taken record =>
      have kept := kept_publish (naming w) p.broker p.queue (p.message (Uuid.ofNat w.ids) payload)
      rw [taken] at kept
      exact congrArg (· ++ [_]) kept.measurements

-- One message is appended to the log of its queue, and no other log changes.
theorem comes_published {id : String} (comes : p.Comes w (.ok id) v) :
    ∃ payload, p.codec.encode p.value = .ok payload ∧ id = Uuid.ofNat w.ids ∧
      ∀ broker topic, (v.broker broker).broker.published topic =
        (w.broker broker).broker.published topic ++
          if broker = p.broker ∧ topic = p.queue then [p.message id payload] else [] := by
  cases comes with
  | @accepted payload v encoded taken record =>
      obtain ⟨called, opened⟩ := World.called_accepted taken
      refine ⟨payload, encoded, rfl, fun broker topic => ?_⟩
      change (v.broker broker).broker.published topic = ((naming w).broker broker).broker.published topic ++ _
      rw [called.inside, Broker.run_logs]
      congr 1
      by_cases here : broker = p.broker
      · subst here
        have answered := Broker.does_call (.published opened p.queue (p.message (Uuid.ofNat w.ids) payload))
        rw [World.only_same, Broker.run, answered]
        by_cases same : topic = p.queue
        · simp [Broker.run, publishedOn, Answered.publishedOn?, same]
        · simp [Broker.run, publishedOn, Answered.publishedOn?, same, Ne.symm same]
      · simp [World.only, here, Broker.run, publishedOn]

end Comes

end Production

inductive Occasion (F : EventFamily) where
  | turn (turn : Turn)
  | produce (production : Production F)

namespace Crew

def meet (crew : Crew F) : Occasion F → Journal F × Crew F
  | .turn turn => crew.turn turn
  | .produce production => ([], { crew with world := (crew.world.run production.program).2 })

def attend (crew : Crew F) : List (Occasion F) → Journal F × Crew F
  | [] => ([], crew)
  | occasion :: occasions =>
      let next := crew.meet occasion
      let rest := next.2.attend occasions
      (next.1 ++ rest.1, rest.2)

theorem attend_append (crew : Crew F) (first second : List (Occasion F)) :
    crew.attend (first ++ second) =
      ((crew.attend first).1 ++ ((crew.attend first).2.attend second).1,
        ((crew.attend first).2.attend second).2) := by
  induction first generalizing crew with
  | nil => rfl
  | cons occasion occasions ih =>
      rw [List.cons_append, attend, attend, ih]
      simp

theorem meet_orderly {service : Service F} {past : Journal F} {crew : Crew F}
    (orderly : crew.Orderly service past) (occasion : Occasion F) :
    Orderly service (past ++ (crew.meet occasion).1) (crew.meet occasion).2 := by
  cases occasion with
  | turn turn => exact turn_orderly orderly turn
  | produce production =>
      obtain ⟨result, v, ran, comes⟩ := production.run_comes crew.world
      obtain ⟨calls, called, publishing⟩ := Production.comes_called comes
      rw [meet, ran, List.append_nil]
      apply outside_orderly orderly called
      intro id stream
      constructor
      · intro member
        obtain ⟨topic, message, same⟩ := publishing id _ member
        cases same
      · intro member
        obtain ⟨topic, message, same⟩ := publishing id _ member
        cases same

theorem attend_orderly {service : Service F} {past : Journal F} {crew : Crew F}
    (orderly : crew.Orderly service past) (occasions : List (Occasion F)) :
    Orderly service (past ++ (crew.attend occasions).1) (crew.attend occasions).2 := by
  induction occasions generalizing past crew with
  | nil => simpa [attend] using orderly
  | cons occasion occasions ih =>
      rw [attend, ← List.append_assoc]
      exact ih (meet_orderly orderly occasion)

theorem meet_called {service : Service F} {past : Journal F} {crew : Crew F}
    (orderly : crew.Orderly service past) (occasion : Occasion F) :
    ∃ calls, crew.world.Called calls (crew.meet occasion).2.world := by
  cases occasion with
  | turn turn =>
      obtain ⟨calls, called, -⟩ := turn_called orderly turn
      exact ⟨calls, called⟩
  | produce production =>
      obtain ⟨result, v, ran, comes⟩ := production.run_comes crew.world
      obtain ⟨calls, called, -⟩ := Production.comes_called comes
      rw [meet, ran]
      exact ⟨calls, called⟩

theorem attend_called {service : Service F} {past : Journal F} {crew : Crew F}
    (orderly : crew.Orderly service past) (occasions : List (Occasion F)) :
    ∃ calls, crew.world.Called calls (crew.attend occasions).2.world := by
  induction occasions generalizing past crew with
  | nil => exact ⟨_, World.called_of_brokers rfl rfl rfl⟩
  | cons occasion occasions ih =>
      obtain ⟨calls, called⟩ := meet_called orderly occasion
      obtain ⟨more, later⟩ := ih (meet_orderly orderly occasion)
      exact ⟨_, World.called_trans called later⟩

theorem attend_grows {service : Service F} {past : Journal F} {crew : Crew F}
    (orderly : crew.Orderly service past) (occasions : List (Occasion F)) (broker : BrokerId) (topic : String) :
    (crew.world.broker broker).broker.published topic <+:
      ((crew.attend occasions).2.world.broker broker).broker.published topic := by
  obtain ⟨calls, called⟩ := attend_called orderly occasions
  exact Consumer.published_grows called broker topic

end Crew

end EventPipeline

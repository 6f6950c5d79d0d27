import EventPipeline.Proofs.Sessions

/-!
Loops that watch the signal. Nothing is taken while the signal is off, and a loop that ended although it
never was had taken all that its queue got before the broker was closed.
-/

set_option autoImplicit false

namespace EventPipeline

variable {F : EventFamily}

namespace Signal

-- The loops are to stop, or nobody is left who could tell them.
def Off (signal : Signal) : Prop := signal.stop = true ∨ signal.connected = false

theorem quiet_not_off {signal : Signal} {seen : Nat} (quiet : signal.Quiet seen) : ¬ signal.Off := by
  rintro (on | gone)
  · rw [quiet.off] at on
    cases on
  · rw [quiet.held] at gone
    cases gone

end Signal

theorem Broker.dry_taken {broker : Broker} (sound : Broker.Sound broker) {id : StreamId}
    {stream : MessageStream} (found : broker.stream? id = some stream) (undropped : stream.dropped = false)
    (dry : (broker.receive id).1 = .ended) :
    broker.closed = true ∧ stream.received = broker.published stream.topic := by
  have member := Broker.stream_mem found
  have whole := sound.replayed stream member undropped
  have attached := sound.attached stream member
  unfold Broker.receive at dry
  rw [found] at dry
  cases waiting : stream.pending with
  | cons message rest =>
      simp only [waiting] at dry
      cases dry
  | nil =>
      simp only [waiting] at dry
      rw [waiting, List.append_nil] at whole
      refine ⟨?_, whole⟩
      cases held : stream.attached with
      | true => rw [held] at dry; cases dry
      | false => rw [held] at attached; simpa using attached.symm

-- A closed broker stays closed, and its logs stay as they are.
theorem World.closed_called {w v : World F} {calls : BrokerId → List BrokerCall} (called : w.Called calls v)
    {id : BrokerId} (closed : (w.broker id).broker.closed = true) :
    (v.broker id).broker.closed = true ∧
      ∀ topic, (v.broker id).broker.published topic = (w.broker id).broker.published topic := by
  rw [called.inside, Broker.run_closed, closed]
  exact ⟨rfl, fun topic => Broker.closed_logs_nothing closed _ topic⟩

namespace Crew

theorem turn_took {crew : Crew F} {turn : Turn} {i : Nat} {message : Message}
    (noted : ⟨i, .took message⟩ ∈ (crew.turn turn).1) : ¬ crew.signal.Off := by
  cases turn with
  | close broker => cases noted
  | choose choice =>
      have chosen := choose_chosen crew choice
      change _ ∈ (crew.choose choice).1 at noted
      generalize (crew.choose choice).1 = journal, (crew.choose choice).2 = next at noted chosen
      cases chosen with
      | stuck j => cases noted
      | outside called signal stores later => cases noted
      | @moved j consumer after v happening known moves =>
          cases moves with
          | took phase got quiet => exact Signal.quiet_not_off quiet
          | began phase => cases List.mem_singleton.mp noted
          | answered phase => cases List.mem_singleton.mp noted
          | _ => cases noted

theorem turn_takes_nothing {crew : Crew F} (off : crew.signal.Off) (turn : Turn) (i : Nat) :
    takenOf ((crew.turn turn).1.of i) = [] := by
  apply List.filterMap_eq_nil_iff.mpr
  intro what member
  cases what with
  | took message =>
      obtain ⟨⟨j, _⟩, noted, rfl⟩ := journal_mem member
      exact absurd off (turn_took noted)
  | began effect => rfl
  | answered x => rfl

-- Whoever has ended took all that its queue ever got.
def Drained (past : Journal F) (crew : Crew F) : Prop :=
  ∀ (i : Nat) (consumer : Consumer F), crew.consumers[i]? = some consumer → consumer.phase = .ended →
    (crew.world.broker consumer.route.subscriber).broker.closed = true ∧
      takenOf (past.of i) =
        (crew.world.broker consumer.route.subscriber).broker.published consumer.route.consumeQueue

theorem drained_called {past : Journal F} {crew : Crew F} (drained : crew.Drained past) {v : World F}
    {calls : BrokerId → List BrokerCall} (called : crew.world.Called calls v) (signal : Signal) :
    Drained past { crew with signal, world := v } := by
  intro i consumer known ended
  obtain ⟨closed, taken⟩ := drained i consumer known ended
  obtain ⟨still, same⟩ := World.closed_called called closed
  exact ⟨still, taken.trans (same _).symm⟩

theorem step_drained {service : Service F} {past : Journal F} {crew : Crew F}
    (orderly : crew.Orderly service past) (drained : crew.Drained past) (on : ¬ crew.signal.Off) {i : Nat}
    {consumer after : Consumer F} {v : World F} {happening : Option (Happening F)}
    (known : crew.consumers[i]? = some consumer)
    (moves : consumer.Moves crew.signal crew.world happening after v) :
    Drained (past ++ (happening.map (Entry.mk i)).toList)
      { crew with consumers := crew.consumers.set i after, world := v } := by
  obtain ⟨calls, called, -⟩ := Consumer.moves_called moves (orderly_anchored orderly known)
  obtain ⟨small, -⟩ := List.getElem?_eq_some_iff.mp known
  intro j other found ended
  rw [List.getElem?_set] at found
  by_cases here : i = j
  · subst here
    rw [if_pos rfl, if_pos small] at found
    cases found
    cases moves with
    | noticed phase off news => rw [phase] at ended; cases ended
    | @left phase between same kept reason =>
        rcases reason with stop | ⟨-, gone⟩ | ⟨-, dry⟩
        · exact absurd (.inl stop) on
        · exact absurd (.inr gone) on
        · obtain ⟨stream, held, topic, undropped, received⟩ :=
            (orderly.follows i consumer known).reads (by rw [phase]; rfl)
          obtain ⟨closed, whole⟩ := Broker.dry_taken (orderly.sound _) held undropped dry
          obtain ⟨still, logs⟩ := World.closed_called called closed
          refine ⟨still, Eq.trans ?_ (logs consumer.route.consumeQueue).symm⟩
          change takenOf ((past ++ []).of i) = _
          rw [List.append_nil, ← received, whole, topic]
    | _ => cases ended
  · rw [if_neg here] at found
    rw [Journal.of_append, Journal.of_other here, List.append_nil]
    exact drained_called drained called crew.signal j other found ended

theorem turn_drained {service : Service F} {past : Journal F} {crew : Crew F}
    (orderly : crew.Orderly service past) (drained : crew.Drained past) (on : ¬ crew.signal.Off)
    (turn : Turn) : Drained (past ++ (crew.turn turn).1) (crew.turn turn).2 := by
  cases turn with
  | close broker =>
      rw [Crew.turn, List.append_nil]
      exact drained_called drained (called_close crew.world broker) crew.signal
  | choose choice =>
      have chosen := choose_chosen crew choice
      change Drained (past ++ (crew.choose choice).1) (crew.choose choice).2
      generalize (crew.choose choice).1 = journal, (crew.choose choice).2 = next at chosen
      cases chosen with
      | stuck i => rwa [List.append_nil]
      | moved known moves => exact step_drained orderly drained on known moves
      | outside called signal stores later =>
          rw [List.append_nil]
          exact drained_called drained called signal

theorem pursue_drained {service : Service F} {past : Journal F} {crew : Crew F}
    (orderly : crew.Orderly service past) (drained : crew.Drained past) {turns : List Turn}
    (on : ∀ before turn after, turns = before ++ turn :: after → ¬ (crew.pursue before).2.signal.Off) :
    Drained (past ++ (crew.pursue turns).1) (crew.pursue turns).2 := by
  induction turns generalizing past crew with
  | nil => simpa [pursue] using drained
  | cons turn turns ih =>
      rw [pursue, ← List.append_assoc]
      refine ih (turn_orderly orderly turn) (turn_drained orderly drained (on [] _ _ rfl) turn) ?_
      exact fun before other after same =>
        on (turn :: before) other after (by rw [same, List.cons_append])

-- While the crew is at work, brokers are closed from outside only.
theorem turn_closes {service : Service F} {past : Journal F} {crew : Crew F}
    (orderly : crew.Orderly service past) (turn : Turn) (id : BrokerId) :
    ((crew.turn turn).2.world.broker id).broker.closed =
      ((crew.world.broker id).broker.closed || turn == .close id) := by
  obtain ⟨calls, called, closing⟩ := turn_called orderly turn
  rw [called.inside, Broker.run_closed]
  congr 1
  exact Bool.eq_iff_iff.mpr (by simpa using closing id)

theorem pursue_closes {service : Service F} {past : Journal F} {crew : Crew F}
    (orderly : crew.Orderly service past) (turns : List Turn) (id : BrokerId) :
    ((crew.pursue turns).2.world.broker id).broker.closed =
      ((crew.world.broker id).broker.closed || turns.contains (.close id)) := by
  induction turns generalizing past crew with
  | nil => exact (Bool.or_false _).symm
  | cons turn turns ih =>
      rw [pursue, ih (turn_orderly orderly turn), turn_closes orderly, List.contains_cons, Bool.or_assoc]
      congr 2
      exact BEq.comm

end Crew

end EventPipeline

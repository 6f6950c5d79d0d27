import EventPipeline.Proofs.BrokerHistory

/-!
What the subscribers of a broker get. Each stream replays the log of its topic from the beginning; a
closed broker lets its streams run dry, and nothing that concerns one topic shows on another.
-/

set_option autoImplicit false

namespace EventPipeline

namespace Broker

variable {broker after : Broker} {c : BrokerCall} {answer : BrokerAnswer}

-- What was closed once stays as it is: nothing is published any more.
theorem closed_does_nothing (closed : broker.closed = true) (does : Does broker c answer after)
    (topic : String) : after.published topic = broker.published topic := by
  cases does with
  | published opened target message => simp [closed] at opened
  | settled settlement => cases settlement <;> rfl
  | _ => rfl

theorem closed_logs_nothing (closed : broker.closed = true) (calls : List BrokerCall)
    (topic : String) : (broker.run calls).2.published topic = broker.published topic := by
  induction calls generalizing broker with
  | nil => rfl
  | cons c calls ih =>
      have does := call_does broker c
      have later : (broker.call c).2.closed = true := by simp [does_closed does, closed]
      rw [run, ih later, closed_does_nothing closed does]

-- Once the broker is closed, nobody but its reader and its owner changes a stream.
theorem closed_does_keep (closed : broker.closed = true) (does : Does broker c answer after)
    {id : StreamId} {stream : MessageStream} (found : broker.stream? id = some stream)
    (detached : stream.attached = false) (kept : c ≠ .drop id) (unread : c ≠ .receive id) :
    after.stream? id = some stream := by
  cases does with
  | published opened topic message => simp [closed] at opened
  | subscribed opened topic => simp [closed] at opened
  | @gave other _ _ _ known waiting =>
      have apart : id ≠ other := fun same => unread (by rw [same])
      rw [stream_update broker other id take take_id, if_neg apart, found]
  | dropped other =>
      have apart : id ≠ other := fun same => kept (by rw [same])
      exact (stream_update broker other id (fun stream => { stream with dropped := true })
        fun _ => rfl).trans (by rw [if_neg apart, found])
  | settled settlement => cases settlement <;> exact found
  | ended => rw [close_stream, found, Option.map_some, ← detached]
  | _ => exact found

-- Induction on the calls to come; each reception takes one pending message off the stream.
theorem closed_runs_dry (closed : broker.closed = true) {id : StreamId}
    {stream : MessageStream} (found : broker.stream? id = some stream) (detached : stream.attached = false)
    {calls : List BrokerCall} (kept : .drop id ∉ calls) :
    receptions id (broker.run calls).1 =
      (stream.pending.take (calls.count (.receive id))).map .message ++
        List.replicate (calls.count (.receive id) - stream.pending.length) .ended := by
  induction calls generalizing broker stream with
  | nil => simp [run, receptions]
  | cons c calls ih =>
      obtain ⟨first, others⟩ := not_or.mp (mt List.mem_cons.mpr kept)
      have later : (broker.call c).2.closed = true := by simp [does_closed (call_does broker c), closed]
      by_cases reading : c = .receive id
      · subst reading
        rw [List.count_cons_self]
        cases waiting : stream.pending with
        | nil =>
            have dry : broker.call (.receive id) = (.received .ended, broker) := by
              rw [does_call (.dry found waiting), detached]
              rfl
            have rest := ih closed found detached others
            rw [waiting] at rest
            simp only [run, dry, receptions, List.filterMap_cons, Answered.reception?, if_true]
            rw [← receptions, rest]
            simp [List.replicate_succ]
        | cons message remaining =>
            have read := does_call (.gave found waiting)
            have known : (broker.updateStream id take).stream? id = some (take stream) := by
              rw [stream_update broker id id take take_id, if_pos rfl, found]
              rfl
            have detached₁ : (take stream).attached = false := by rw [take_pending waiting, detached]
            rw [read] at later
            have rest := ih later known detached₁ others
            rw [take_pending waiting] at rest
            simp only [run, read, receptions, List.filterMap_cons, Answered.reception?, if_true]
            rw [← receptions, rest]
            simp
      · have does := call_does broker c
        have same := closed_does_keep closed does found detached (Ne.symm first) reading
        rw [run, receptions_cons_other reading, List.count_cons_of_ne reading]
        exact ih later same detached others

theorem does_counts (does : Does broker c answer after) :
    after.acked + after.nacked = broker.acked + broker.nacked + [c].countP BrokerCall.isSettlement ∧
      after.requeued = broker.requeued + [c].count (.settle (.nack true)) := by
  cases does with
  | settled settlement =>
      cases settlement with
      | ack =>
          have settled : broker.acked + 1 + broker.nacked = broker.acked + broker.nacked + 1 := by omega
          exact ⟨settled, rfl⟩
      | nack requeue => cases requeue <;> exact ⟨rfl, rfl⟩
  | _ => exact ⟨rfl, rfl⟩

theorem settlement_counts (broker : Broker) (calls : List BrokerCall) :
    (broker.run calls).2.acked + (broker.run calls).2.nacked =
        broker.acked + broker.nacked + calls.countP BrokerCall.isSettlement ∧
      (broker.run calls).2.requeued = broker.requeued + calls.count (.settle (.nack true)) := by
  induction calls generalizing broker with
  | nil => exact ⟨rfl, rfl⟩
  | cons c calls ih =>
      obtain ⟨settled, requeued⟩ := ih (broker.call c).2
      obtain ⟨first, again⟩ := does_counts (call_does broker c)
      have split : c :: calls = [c] ++ calls := rfl
      rw [run, settled, requeued, first, again, split, List.countP_append, List.count_append]
      omega

def streamsOn (broker : Broker) (topic : String) : List MessageStream :=
  broker.streams.filter fun stream => stream.topic == topic

theorem filter_map_elsewhere {keep : MessageStream → Bool} {change : MessageStream → MessageStream}
    {streams : List MessageStream} (elsewhere : ∀ stream ∈ streams,
      change stream = stream ∨ (keep stream = false ∧ keep (change stream) = false)) :
    (streams.map change).filter keep = streams.filter keep := by
  induction streams with
  | nil => rfl
  | cons stream rest ih =>
      have others := ih fun s member => elsewhere s (List.mem_cons_of_mem _ member)
      rw [List.map_cons, List.filter_cons, List.filter_cons, others]
      rcases elsewhere stream List.mem_cons_self with same | ⟨before, after⟩
      · rw [same]
      · rw [before, after]
        rfl

theorem update_elsewhere (sound : Sound broker) {id : StreamId} {other : String}
    (elsewhere : (broker.stream? id).map (·.topic) ≠ some other)
    (change : MessageStream → MessageStream) (topic : ∀ stream, (change stream).topic = stream.topic) :
    (broker.updateStream id change).streamsOn other = broker.streamsOn other := by
  apply filter_map_elsewhere
  intro stream member
  by_cases here : stream.id = id
  · have known := stream_of_mem sound member
    rw [here] at known
    have apart : stream.topic ≠ other := by
      intro same
      apply elsewhere
      rw [known, Option.map_some, same]
    rw [if_pos here, topic]
    exact .inr ⟨beq_false_of_ne apart, beq_false_of_ne apart⟩
  · rw [if_neg here]
    exact .inl rfl

theorem subscribed_opens {topic : String} {id : StreamId}
    (subscribed : (broker.call (.subscribe topic)).1 = .subscribed (.ok id)) :
    id = broker.streams.length ∧
      (broker.call (.subscribe topic)).2 = { broker with
        streams := broker.streams ++ [⟨id, topic, [], broker.published topic, true, false⟩] } := by
  have does := call_does broker (.subscribe topic)
  rw [subscribed] at does
  generalize (broker.call (.subscribe topic)).2 = after at does
  cases does with
  | subscribed opened topic => exact ⟨rfl, rfl⟩

theorem subscribed_unknown (sound : Sound broker) {topic : String} {id : StreamId}
    (subscribed : (broker.call (.subscribe topic)).1 = .subscribed (.ok id)) :
    broker.stream? id = none := by
  rw [(subscribed_opens subscribed).1]
  exact stream_missing sound

theorem subscribed_stream (sound : Sound broker) {topic : String} {id : StreamId}
    (subscribed : (broker.call (.subscribe topic)).1 = .subscribed (.ok id)) :
    (broker.call (.subscribe topic)).2.stream? id =
      some ⟨id, topic, [], broker.published topic, true, false⟩ := by
  rw [(subscribed_opens subscribed).2, stream_subscribed, subscribed_unknown sound subscribed]
  simp

-- The new stream starts with nothing received and the whole log pending; from there the invariant of
-- histories carries it through whatever comes later.
theorem subscription_replays (sound : Sound broker) {topic : String} {id : StreamId}
    (subscribed : (broker.call (.subscribe topic)).1 = .subscribed (.ok id)) {later : List BrokerCall}
    (kept : .drop id ∉ later) :
    let now := (broker.call (.subscribe topic)).2.run later
    ∃ stream, now.2.stream? id = some stream ∧ stream.topic = topic ∧ stream.attached = !now.2.closed ∧
      receivedBy id now.1 ++ stream.pending = now.2.published topic := by
  obtain ⟨stream, found, same, live, received⟩ := run_follows (subscribed_stream sound subscribed) kept
  have sound₁ := run_sound (call_sound sound (.subscribe topic)) later
  refine ⟨stream, found, same, sound₁.attached stream (stream_mem found), ?_⟩
  have replayed := sound₁.replayed stream (stream_mem found) live
  rwa [received, same] at replayed

theorem does_elsewhere (sound : Sound broker) (does : Does broker c answer after) (ongoing : c ≠ .close)
    {other : String} (elsewhere : c.topic? broker ≠ some other) :
    after.published other = broker.published other ∧ after.streamsOn other = broker.streamsOn other := by
  cases does with
  | published opened topic message =>
      have apart : topic ≠ other := fun same => elsewhere (by rw [← same]; rfl)
      refine ⟨by rw [published_snoc, if_neg apart, List.append_nil], ?_⟩
      apply filter_map_elsewhere
      intro stream member
      by_cases here : stream.topic = topic
      · rw [(deliver_keeps topic message stream).1, here]
        exact .inr ⟨beq_false_of_ne apart, beq_false_of_ne apart⟩
      · exact .inl (deliver_elsewhere here)
  | subscribed opened topic =>
      have apart : topic ≠ other := fun same => elsewhere (by rw [← same]; rfl)
      exact ⟨rfl, by simp [streamsOn, apart]⟩
  | gave found waiting =>
      exact ⟨rfl, update_elsewhere sound elsewhere take fun stream => (take_keeps stream).1⟩
  | dropped id => exact ⟨rfl, update_elsewhere sound elsewhere _ fun _ => rfl⟩
  | settled settlement => cases settlement <;> exact ⟨rfl, rfl⟩
  | ended => exact absurd rfl ongoing
  | _ => exact ⟨rfl, rfl⟩

end Broker

theorem broker_replays (calls : List BrokerCall) :
    let now := Broker.empty.run calls
    (∀ topic, now.2.published topic = publishedOn topic now.1) ∧
    (∀ before topic id after, now.1 = before ++ ⟨.subscribe topic, .subscribed (.ok id)⟩ :: after →
      (∀ entry ∈ after, entry.call ≠ .drop id) →
      ∃ stream, now.2.stream? id = some stream ∧ stream.topic = topic ∧
        receivedBy id after ++ stream.pending = now.2.published topic ∧
        (now.2.closed = true → ∀ later, .drop id ∉ later →
          receptions id (now.2.run later).1 =
            (stream.pending.take (later.count (.receive id))).map .message ++
              List.replicate (later.count (.receive id) - stream.pending.length) .ended)) ∧
    (now.2.closed = true ↔ .close ∈ calls) ∧
    (∀ earlier later, calls = earlier ++ .close :: later →
      ∀ topic, now.2.published topic = (Broker.empty.run earlier).2.published topic) ∧
    (now.2.closed = true → ∀ topic message,
      now.2.call (.publish topic message) =
        (.published (.error (.transport "memory" "broker is closed")), now.2) ∧
      now.2.call (.subscribe topic) =
        (.subscribed (.error (.transport "memory" "broker is closed")), now.2)) ∧
    (∀ c other, c ≠ .close → c.topic? now.2 ≠ some other →
      (now.2.call c).2.published other = now.2.published other ∧
        (now.2.call c).2.streamsOn other = now.2.streamsOn other) ∧
    (∀ id other, other ≠ id → (now.2.call (.drop id)).2.stream? other = now.2.stream? other) ∧
    now.2.acked + now.2.nacked = calls.countP BrokerCall.isSettlement ∧
    now.2.requeued = calls.count (.settle (.nack true)) := by
  have sound := Broker.run_sound Broker.sound_empty calls
  have counts := Broker.settlement_counts Broker.empty calls
  refine ⟨?_, ?_, ?_, ?_, ?_, ?_, ?_, ?_, ?_⟩
  · exact Broker.run_logs Broker.empty calls
  · intro before topic id after split kept
    obtain ⟨earlier, later, rfl, -, answer, rfl⟩ := Broker.run_split split
    have known := Broker.run_sound Broker.sound_empty earlier
    have called := Broker.calls_of_run ((Broker.empty.run earlier).2.call (.subscribe topic)).2 later
    have kept₁ : .drop id ∉ later := by
      intro dropped
      rw [← called] at dropped
      obtain ⟨entry, member, same⟩ := List.mem_map.mp dropped
      exact kept entry member same
    obtain ⟨stream, found, same, attached, replayed⟩ :=
      Broker.subscription_replays known answer kept₁
    rw [Broker.run_append]
    refine ⟨stream, found, same, replayed, ?_⟩
    intro closed further kept₂
    refine Broker.closed_runs_dry closed found ?_ kept₂
    change (((Broker.empty.run earlier).2.call (.subscribe topic)).2.run later).2.closed = true at closed
    rw [attached, closed]
    rfl
  · rw [Broker.run_closed]
    simp [Broker.empty]
  · rintro earlier later rfl topic
    rw [Broker.run_append]
    have closed : ((Broker.empty.run earlier).2.call .close).2.closed = true := rfl
    exact Broker.closed_logs_nothing closed later topic
  · intro closed topic message
    exact ⟨Broker.does_call (.unpublished closed topic message), Broker.does_call (.unsubscribed closed topic)⟩
  · intro c other ongoing elsewhere
    exact Broker.does_elsewhere sound (Broker.call_does _ c) ongoing elsewhere
  · intro id other apart
    exact (Broker.stream_update _ id other (fun stream => { stream with dropped := true })
      fun _ => rfl).trans (if_neg apart)
  · exact counts.1.trans (Nat.zero_add _)
  · exact counts.2.trans (Nat.zero_add _)

-- Published before, while and after a stream was open, and one message too late.
example (m : Message) :
    receivedBy 0 (Broker.empty.run [.publish "t" m, .subscribe "t", .receive 0, .publish "u" m,
      .publish "t" m, .close, .publish "t" m, .receive 0, .receive 0]).1 = [m, m] := rfl

end EventPipeline

import EventPipeline.Broker

/-!
Histories of a broker: any calls in any order, one after another. What a single call can do is said once,
and the invariant of histories follows: whatever a live stream gave and still holds is the log of its
topic.
-/

set_option autoImplicit false

namespace EventPipeline

inductive BrokerCall where
  | publish (topic : String) (message : Message)
  | subscribe (topic : String)
  | receive (id : StreamId)
  | drop (id : StreamId)
  | settle (settlement : Settlement)
  | close
deriving DecidableEq

inductive BrokerAnswer where
  | silent
  | published (result : Except EventError Unit)
  | subscribed (result : Except EventError StreamId)
  | received (reception : Reception)

structure Answered where
  call : BrokerCall
  answer : BrokerAnswer

namespace BrokerCall

def isSettlement : BrokerCall → Bool
  | .settle _ => true
  | _ => false

-- The one topic that a call is about. A settlement is about none, closing about all of them.
def topic? (broker : Broker) : BrokerCall → Option String
  | .publish topic _ => some topic
  | .subscribe topic => some topic
  | .receive id => (broker.stream? id).map (·.topic)
  | .drop id => (broker.stream? id).map (·.topic)
  | .settle _ => none
  | .close => none

end BrokerCall

namespace Answered

def publishedOn? (topic : String) : Answered → Option Message
  | ⟨.publish target message, .published (.ok _)⟩ => if target = topic then some message else none
  | _ => none

def reception? (id : StreamId) : Answered → Option Reception
  | ⟨.receive stream, .received reception⟩ => if stream = id then some reception else none
  | _ => none

end Answered

def Reception.message? : Reception → Option Message
  | .message received => some received
  | .pending => none
  | .ended => none

def publishedOn (topic : String) (history : List Answered) : List Message :=
  history.filterMap (Answered.publishedOn? topic)

def receptions (id : StreamId) (history : List Answered) : List Reception :=
  history.filterMap (Answered.reception? id)

def receivedBy (id : StreamId) (history : List Answered) : List Message :=
  (receptions id history).filterMap Reception.message?

theorem received_by_cons (id : StreamId) (entry : Answered) (history : List Answered) :
    receivedBy id (entry :: history) = receivedBy id [entry] ++ receivedBy id history := by
  have apart : entry :: history = [entry] ++ history := rfl
  rw [apart, receivedBy, receptions, List.filterMap_append, List.filterMap_append]
  rfl

theorem published_on_cons (topic : String) (entry : Answered) (history : List Answered) :
    publishedOn topic (entry :: history) = publishedOn topic [entry] ++ publishedOn topic history := by
  have apart : entry :: history = [entry] ++ history := rfl
  rw [apart, publishedOn, List.filterMap_append]
  rfl

namespace Broker

def call (broker : Broker) : BrokerCall → BrokerAnswer × Broker
  | .publish topic message =>
      match broker.publish topic message with
      | .ok after => (.published (.ok ()), after)
      | .error e => (.published (.error e), broker)
  | .subscribe topic =>
      match broker.subscribe topic with
      | .ok (id, after) => (.subscribed (.ok id), after)
      | .error e => (.subscribed (.error e), broker)
  | .receive id => (.received (broker.receive id).1, (broker.receive id).2)
  | .drop id => (.silent, broker.dropStream id)
  | .settle settlement => (.silent, broker.settle settlement)
  | .close => (.silent, broker.close)

def run (broker : Broker) : List BrokerCall → List Answered × Broker
  | [] => ([], broker)
  | call :: calls =>
      let after := broker.call call
      let rest := after.2.run calls
      (⟨call, after.1⟩ :: rest.1, rest.2)

theorem run_append (broker : Broker) (first second : List BrokerCall) :
    broker.run (first ++ second) =
      ((broker.run first).1 ++ ((broker.run first).2.run second).1, ((broker.run first).2.run second).2) := by
  induction first generalizing broker with
  | nil => rfl
  | cons call calls ih => simp only [List.cons_append, run, ih]

theorem run_split {broker : Broker} {calls : List BrokerCall} {before after : List Answered}
    {entry : Answered} (split : (broker.run calls).1 = before ++ entry :: after) :
    ∃ earlier later, calls = earlier ++ entry.call :: later ∧ (broker.run earlier).1 = before ∧
      ((broker.run earlier).2.call entry.call).1 = entry.answer ∧
      (((broker.run earlier).2.call entry.call).2.run later).1 = after := by
  induction calls generalizing broker before with
  | nil => cases before <;> cases split
  | cons call calls ih =>
      cases before with
      | nil =>
          obtain ⟨rfl, rest⟩ := List.cons_eq_cons.mp split
          exact ⟨[], calls, rfl, rfl, rfl, rest⟩
      | cons first before =>
          obtain ⟨rfl, rest⟩ := List.cons_eq_cons.mp split
          obtain ⟨earlier, later, rfl, same, answer, remaining⟩ := ih rest
          exact ⟨call :: earlier, later, rfl, by simp only [run, same], answer, remaining⟩

theorem calls_of_run (broker : Broker) (calls : List BrokerCall) :
    (broker.run calls).1.map (·.call) = calls := by
  induction calls generalizing broker with
  | nil => rfl
  | cons call calls ih => exact congrArg (call :: ·) (ih _)

-- All that a call can do, with the condition for it.
inductive Does (broker : Broker) : BrokerCall → BrokerAnswer → Broker → Prop where
  | published (opened : broker.closed = false) (topic : String) (message : Message) :
      Does broker (.publish topic message) (.published (.ok ()))
        { broker with
          log := broker.log ++ [(topic, message)]
          streams := broker.streams.map (deliver topic message) }
  | unpublished (closed : broker.closed = true) (topic : String) (message : Message) :
      Does broker (.publish topic message) (.published (.error refusal)) broker
  | subscribed (opened : broker.closed = false) (topic : String) :
      Does broker (.subscribe topic) (.subscribed (.ok broker.streams.length))
        { broker with
          streams := broker.streams ++
            [⟨broker.streams.length, topic, [], broker.published topic, true, false⟩] }
  | unsubscribed (closed : broker.closed = true) (topic : String) :
      Does broker (.subscribe topic) (.subscribed (.error refusal)) broker
  | gave {id : StreamId} {stream : MessageStream} {message : Message} {rest : List Message}
      (found : broker.stream? id = some stream) (waiting : stream.pending = message :: rest) :
      Does broker (.receive id) (.received (.message message)) (broker.updateStream id take)
  | dry {id : StreamId} {stream : MessageStream} (found : broker.stream? id = some stream)
      (empty : stream.pending = []) :
      Does broker (.receive id) (.received (if stream.attached then .pending else .ended)) broker
  | unknown {id : StreamId} (missing : broker.stream? id = none) :
      Does broker (.receive id) (.received .ended) broker
  | dropped (id : StreamId) : Does broker (.drop id) .silent (broker.dropStream id)
  | settled (settlement : Settlement) : Does broker (.settle settlement) .silent (broker.settle settlement)
  | ended : Does broker .close .silent broker.close

theorem call_does (broker : Broker) (c : BrokerCall) : Does broker c (broker.call c).1 (broker.call c).2 := by
  cases c with
  | publish topic message =>
      by_cases closed : broker.closed = true
      · simpa [call, publish, closed] using Does.unpublished closed topic message
      · have opened : broker.closed = false := by simpa using closed
        simpa [call, publish, opened] using Does.published opened topic message
  | subscribe topic =>
      by_cases closed : broker.closed = true
      · simpa [call, subscribe, closed] using Does.unsubscribed closed topic
      · have opened : broker.closed = false := by simpa using closed
        simpa [call, subscribe, opened] using Does.subscribed opened topic
  | receive id =>
      cases found : broker.stream? id with
      | none => simpa [call, receive, found] using Does.unknown found
      | some stream =>
          cases waiting : stream.pending with
          | nil => simpa [call, receive, found, waiting] using Does.dry found waiting
          | cons message rest => simpa [call, receive, found, waiting] using Does.gave found waiting
  | drop id => exact .dropped id
  | settle settlement => exact .settled settlement
  | close => exact .ended

theorem receive_does (broker : Broker) (id : StreamId) :
    Does broker (.receive id) (.received (broker.receive id).1) (broker.receive id).2 :=
  call_does broker (.receive id)

theorem does_call {broker after : Broker} {c : BrokerCall} {answer : BrokerAnswer}
    (does : Does broker c answer after) : broker.call c = (answer, after) := by
  cases does with
  | published opened topic message => simp [call, publish, opened]
  | unpublished closed topic message => simp [call, publish, closed]
  | subscribed opened topic => simp [call, subscribe, opened]
  | unsubscribed closed topic => simp [call, subscribe, closed]
  | gave found waiting => simp [call, receive, found, waiting]
  | dry found empty => simp [call, receive, found, empty]
  | unknown missing => simp [call, receive, missing]
  | dropped id => rfl
  | settled settlement => rfl
  | ended => rfl

theorem deliver_id (topic : String) (message : Message) (stream : MessageStream) :
    (deliver topic message stream).id = stream.id := by
  unfold deliver
  split <;> rfl

theorem deliver_elsewhere {topic : String} {message : Message} {stream : MessageStream}
    (elsewhere : stream.topic ≠ topic) : deliver topic message stream = stream := by
  simp [deliver, isListening, elsewhere]

theorem deliver_listening {topic : String} {message : Message} {stream : MessageStream}
    (here : stream.topic = topic) (attached : stream.attached = true) (kept : stream.dropped = false) :
    deliver topic message stream = { stream with pending := stream.pending ++ [message] } := by
  simp [deliver, isListening, here, attached, kept]

theorem deliver_keeps (topic : String) (message : Message) (stream : MessageStream) :
    (deliver topic message stream).topic = stream.topic ∧
      (deliver topic message stream).attached = stream.attached ∧
      (deliver topic message stream).dropped = stream.dropped ∧
      (deliver topic message stream).received = stream.received := by
  unfold deliver
  split <;> exact ⟨rfl, rfl, rfl, rfl⟩

theorem published_snoc (broker : Broker) (topic other : String) (message : Message)
    (streams : List MessageStream) :
    published { broker with log := broker.log ++ [(topic, message)], streams } other =
      published broker other ++ if topic = other then [message] else [] := by
  by_cases same : topic = other
  · simp [published, same]
  · simp [published, same]

theorem take_id (stream : MessageStream) : (take stream).id = stream.id := by
  unfold take
  split <;> rfl

theorem take_pending {stream : MessageStream} {message : Message} {rest : List Message}
    (waiting : stream.pending = message :: rest) :
    take stream = { stream with received := stream.received ++ [message], pending := rest } := by
  simp [take, waiting]

theorem take_keeps (stream : MessageStream) :
    (take stream).topic = stream.topic ∧ (take stream).attached = stream.attached ∧
      (take stream).dropped = stream.dropped ∧
      (take stream).received ++ (take stream).pending = stream.received ++ stream.pending := by
  cases content : stream.pending with
  | nil => simp [take, content]
  | cons message rest => simp [take, content]

theorem stream_map (broker : Broker) (change : MessageStream → MessageStream)
    (keeps : ∀ stream, (change stream).id = stream.id) (id : StreamId) :
    (broker.streams.map change).find? (fun stream => stream.id == id) =
      (broker.stream? id).map change := by
  rw [List.find?_map]
  have same : (fun stream : MessageStream => stream.id == id) ∘ change =
      fun stream => stream.id == id := by
    funext stream
    simp [keeps]
  rw [same]
  rfl

theorem stream_id {broker : Broker} {id : StreamId} {stream : MessageStream}
    (found : broker.stream? id = some stream) : stream.id = id := by
  simpa using List.find?_some found

theorem stream_mem {broker : Broker} {id : StreamId} {stream : MessageStream}
    (found : broker.stream? id = some stream) : stream ∈ broker.streams :=
  List.mem_of_find?_eq_some found

theorem stream_update (broker : Broker) (id other : StreamId) (change : MessageStream → MessageStream)
    (keeps : ∀ stream, (change stream).id = stream.id) :
    (broker.updateStream id change).stream? other =
      if other = id then (broker.stream? other).map change else broker.stream? other := by
  have whole := stream_map broker (fun stream => if stream.id = id then change stream else stream)
    (fun stream => by split <;> simp [keeps]) other
  refine whole.trans ?_
  cases found : broker.stream? other with
  | none => simp
  | some stream =>
      rw [Option.map_some, stream_id found]
      by_cases same : other = id
      · simp [same]
      · simp [same]

-- The invariant: whatever a live stream gave and still holds is the log of its topic.
structure Sound (broker : Broker) : Prop where
  numbered : broker.streams.map (·.id) = List.range broker.streams.length
  attached : ∀ stream ∈ broker.streams, stream.attached = !broker.closed
  replayed : ∀ stream ∈ broker.streams, stream.dropped = false →
    stream.received ++ stream.pending = broker.published stream.topic

theorem sound_empty : Sound empty := ⟨rfl, by simp [empty], by simp [empty]⟩

theorem numbered_map {broker : Broker} (sound : Sound broker) (change : MessageStream → MessageStream)
    (keeps : ∀ stream, (change stream).id = stream.id) :
    (broker.streams.map change).map (·.id) = List.range (broker.streams.map change).length := by
  have same : (fun stream : MessageStream => stream.id) ∘ change = fun stream => stream.id := funext keeps
  rw [List.map_map, same, sound.numbered, List.length_map]

theorem stream_at {broker : Broker} (sound : Sound broker) {i : Nat} (small : i < broker.streams.length) :
    broker.streams[i].id = i := by
  have read : (broker.streams.map (·.id))[i]? = some i := by
    rw [sound.numbered, List.getElem?_range small]
  rw [List.getElem?_map, List.getElem?_eq_getElem small] at read
  exact Option.some.inj read

theorem sound_update {broker : Broker} (sound : Sound broker) (id : StreamId)
    (change : MessageStream → MessageStream) (numbered : ∀ stream, (change stream).id = stream.id)
    (attached : ∀ stream, (change stream).attached = stream.attached)
    (topic : ∀ stream, (change stream).topic = stream.topic)
    (replayed : ∀ stream, (change stream).dropped = false → stream.dropped = false ∧
      (change stream).received ++ (change stream).pending = stream.received ++ stream.pending) :
    Sound (broker.updateStream id change) := by
  refine ⟨?_, ?_, ?_⟩
  · apply numbered_map sound
    intro stream
    split
    · exact numbered stream
    · rfl
  · intro stream member
    obtain ⟨old, known, rfl⟩ := List.mem_map.mp member
    have same := sound.attached old known
    split
    · rw [attached]; exact same
    · exact same
  · intro stream member kept
    obtain ⟨old, known, rfl⟩ := List.mem_map.mp member
    split
    · rename_i here
      rw [if_pos here] at kept
      obtain ⟨before, content⟩ := replayed old kept
      rw [content, topic]
      exact sound.replayed old known before
    · rename_i elsewhere
      rw [if_neg elsewhere] at kept
      exact sound.replayed old known kept

theorem sound_publish {broker : Broker} (sound : Sound broker) (opened : broker.closed = false)
    (topic : String) (message : Message) :
    Sound { broker with
      log := broker.log ++ [(topic, message)]
      streams := broker.streams.map (deliver topic message) } := by
  refine ⟨numbered_map sound _ (deliver_id topic message), ?_, ?_⟩
  · intro stream member
    obtain ⟨old, known, rfl⟩ := List.mem_map.mp member
    rw [(deliver_keeps topic message old).2.1]
    exact sound.attached old known
  · intro stream member kept
    obtain ⟨old, known, rfl⟩ := List.mem_map.mp member
    rw [(deliver_keeps topic message old).2.2.1] at kept
    have replayed := sound.replayed old known kept
    by_cases here : old.topic = topic
    · -- an open broker has all its streams attached, so this one gets the message
      have live : old.attached = true := by rw [sound.attached old known, opened]; rfl
      rw [deliver_listening here live kept, published_snoc, if_pos here.symm, ← replayed,
        List.append_assoc]
    · rw [deliver_elsewhere here, published_snoc, if_neg (Ne.symm here), List.append_nil]
      exact replayed

theorem sound_subscribe {broker : Broker} (sound : Sound broker) (opened : broker.closed = false)
    (topic : String) :
    Sound { broker with
      streams := broker.streams ++
        [⟨broker.streams.length, topic, [], broker.published topic, true, false⟩] } := by
  refine ⟨?_, ?_, ?_⟩
  · rw [List.map_append, sound.numbered, List.length_append, List.length_singleton, List.range_succ]
    rfl
  · intro stream member
    rcases List.mem_append.mp member with old | new
    · exact sound.attached stream old
    · cases List.mem_singleton.mp new
      simp [opened]
  · intro stream member kept
    rcases List.mem_append.mp member with old | new
    · exact sound.replayed stream old kept
    · cases List.mem_singleton.mp new
      rfl

theorem sound_close {broker : Broker} (sound : Sound broker) : Sound broker.close := by
  refine ⟨numbered_map sound _ fun _ => rfl, ?_, ?_⟩
  · intro stream member
    obtain ⟨old, known, rfl⟩ := List.mem_map.mp member
    rfl
  · intro stream member kept
    obtain ⟨old, known, rfl⟩ := List.mem_map.mp member
    exact sound.replayed old known kept

theorem does_sound {broker after : Broker} {c : BrokerCall} {answer : BrokerAnswer}
    (does : Does broker c answer after) (sound : Sound broker) : Sound after := by
  cases does with
  | published opened topic message => exact sound_publish sound opened topic message
  | unpublished closed topic message => exact sound
  | subscribed opened topic => exact sound_subscribe sound opened topic
  | unsubscribed closed topic => exact sound
  | gave found waiting =>
      apply sound_update sound _ take take_id
      · exact fun stream => (take_keeps stream).2.1
      · exact fun stream => (take_keeps stream).1
      · intro stream kept
        obtain ⟨-, -, dropped, content⟩ := take_keeps stream
        exact ⟨dropped ▸ kept, content⟩
  | dry found empty => exact sound
  | unknown missing => exact sound
  | dropped id =>
      apply sound_update sound id (fun stream => { stream with dropped := true }) (fun _ => rfl)
        (fun _ => rfl) (fun _ => rfl)
      intro stream kept
      cases kept
  | settled settlement =>
      cases settlement <;> exact ⟨sound.numbered, sound.attached, sound.replayed⟩
  | ended => exact sound_close sound

theorem call_sound {broker : Broker} (sound : Sound broker) (c : BrokerCall) :
    Sound (broker.call c).2 := does_sound (call_does broker c) sound

theorem run_sound {broker : Broker} (sound : Sound broker) (calls : List BrokerCall) :
    Sound (broker.run calls).2 := by
  induction calls generalizing broker with
  | nil => exact sound
  | cons c calls ih => exact ih (call_sound sound c)

-- Streams are numbered by their places, so no earlier one has the same number.
theorem stream_of_mem {broker : Broker} (sound : Sound broker) {stream : MessageStream}
    (member : stream ∈ broker.streams) : broker.stream? stream.id = some stream := by
  obtain ⟨i, small, rfl⟩ := List.getElem_of_mem member
  apply List.find?_eq_some_iff_getElem.mpr
  refine ⟨by simp, i, small, rfl, ?_⟩
  intro j earlier
  have lower := stream_at sound (Nat.lt_trans earlier small)
  have upper := stream_at sound small
  simp only [lower, upper, Bool.not_eq_true', beq_eq_false_iff_ne]
  exact Nat.ne_of_lt earlier

theorem stream_missing {broker : Broker} (sound : Sound broker) :
    broker.stream? broker.streams.length = none := by
  apply List.find?_eq_none.mpr
  intro stream member
  obtain ⟨i, small, rfl⟩ := List.getElem_of_mem member
  rw [stream_at sound small]
  simpa using Nat.ne_of_lt small

theorem stream_subscribed (broker : Broker) (streams : List MessageStream) (id : StreamId) :
    stream? { broker with streams := broker.streams ++ streams } id =
      (broker.stream? id).or (streams.find? fun stream => stream.id == id) :=
  List.find?_append

theorem close_stream (broker : Broker) (id : StreamId) :
    broker.close.stream? id =
      (broker.stream? id).map fun stream => { stream with attached := false } :=
  stream_map broker (fun stream => { stream with attached := false }) (fun _ => rfl) id

theorem does_logs {broker after : Broker} {c : BrokerCall} {answer : BrokerAnswer}
    (does : Does broker c answer after) (topic : String) :
    after.published topic = broker.published topic ++ publishedOn topic [⟨c, answer⟩] := by
  cases does with
  | published opened target message =>
      rw [published_snoc]
      by_cases same : target = topic
      · simp [publishedOn, Answered.publishedOn?, same]
      · simp [publishedOn, Answered.publishedOn?, same]
  | settled settlement => cases settlement <;> exact (List.append_nil _).symm
  | _ => exact (List.append_nil _).symm

theorem run_logs (broker : Broker) (calls : List BrokerCall) (topic : String) :
    (broker.run calls).2.published topic =
      broker.published topic ++ publishedOn topic (broker.run calls).1 := by
  induction calls generalizing broker with
  | nil => exact (List.append_nil _).symm
  | cons c calls ih =>
      rw [run, published_on_cons, ← List.append_assoc, ← does_logs (call_does broker c)]
      exact ih _

theorem does_closed {broker after : Broker} {c : BrokerCall} {answer : BrokerAnswer}
    (does : Does broker c answer after) : after.closed = (broker.closed || c == .close) := by
  cases does with
  | settled settlement => cases settlement <;> exact (Bool.or_false _).symm
  | ended => exact (Bool.or_true _).symm
  | _ => exact (Bool.or_false _).symm

theorem run_closed (broker : Broker) (calls : List BrokerCall) :
    (broker.run calls).2.closed = (broker.closed || calls.contains .close) := by
  induction calls generalizing broker with
  | nil => exact (Bool.or_false _).symm
  | cons c calls ih =>
      rw [run, ih, does_closed (call_does broker c), List.contains_cons, Bool.or_assoc]
      congr 2
      exact BEq.comm

-- A stream that is not dropped stays where it is under any call, and what it has received only grows by
-- what the call answered.
theorem does_follows {broker after : Broker} {c : BrokerCall} {answer : BrokerAnswer}
    (does : Does broker c answer after) {id : StreamId} {stream : MessageStream}
    (found : broker.stream? id = some stream) (kept : c ≠ .drop id) :
    ∃ later, after.stream? id = some later ∧ later.topic = stream.topic ∧
      later.dropped = stream.dropped ∧ later.received = stream.received ++ receivedBy id [⟨c, answer⟩] := by
  cases does with
  | published opened topic message =>
      obtain ⟨same, -, dropped, received⟩ := deliver_keeps topic message stream
      refine ⟨deliver topic message stream, ?_, same, dropped, received.trans (List.append_nil _).symm⟩
      exact (stream_map broker _ (deliver_id topic message) id).trans (by rw [found]; rfl)
  | unpublished closed topic message => exact ⟨stream, found, rfl, rfl, (List.append_nil _).symm⟩
  | subscribed opened topic =>
      refine ⟨stream, ?_, rfl, rfl, (List.append_nil _).symm⟩
      rw [stream_subscribed, found]
      rfl
  | unsubscribed closed topic => exact ⟨stream, found, rfl, rfl, (List.append_nil _).symm⟩
  | @gave other reader message rest known waiting =>
      by_cases same : other = id
      · subst same
        rw [known] at found
        cases found
        refine ⟨take stream, ?_, ?_⟩
        · rw [stream_update broker other other take take_id, if_pos rfl, known]
          rfl
        · rw [take_pending waiting]
          simp [receivedBy, receptions, Answered.reception?, Reception.message?]
      · refine ⟨stream, ?_, rfl, rfl, by simp [receivedBy, receptions, Answered.reception?, same]⟩
        rw [stream_update broker other id take take_id, if_neg (Ne.symm same), found]
  | @dry other reader known empty =>
      refine ⟨stream, found, rfl, rfl, ?_⟩
      by_cases same : other = id
      · cases reader.attached <;>
          simp [receivedBy, receptions, Answered.reception?, Reception.message?, same]
      · simp [receivedBy, receptions, Answered.reception?, same]
  | @unknown other missing =>
      have apart : other ≠ id := by
        intro same
        subst same
        rw [missing] at found
        cases found
      exact ⟨stream, found, rfl, rfl, by simp [receivedBy, receptions, Answered.reception?, apart]⟩
  | dropped other =>
      have apart : id ≠ other := fun same => kept (by rw [same])
      refine ⟨stream, ?_, rfl, rfl, (List.append_nil _).symm⟩
      exact (stream_update broker other id (fun stream => { stream with dropped := true })
        fun _ => rfl).trans (by rw [if_neg apart, found])
  | settled settlement =>
      cases settlement <;> exact ⟨stream, found, rfl, rfl, (List.append_nil _).symm⟩
  | ended =>
      refine ⟨{ stream with attached := false }, ?_, rfl, rfl, (List.append_nil _).symm⟩
      rw [close_stream, found, Option.map_some]

theorem run_follows {broker : Broker} {id : StreamId} {stream : MessageStream}
    (found : broker.stream? id = some stream) {calls : List BrokerCall} (kept : .drop id ∉ calls) :
    ∃ after, (broker.run calls).2.stream? id = some after ∧ after.topic = stream.topic ∧
      after.dropped = stream.dropped ∧
      after.received = stream.received ++ receivedBy id (broker.run calls).1 := by
  induction calls generalizing broker stream with
  | nil => exact ⟨stream, found, rfl, rfl, (List.append_nil _).symm⟩
  | cons c calls ih =>
      obtain ⟨first, others⟩ := not_or.mp (mt List.mem_cons.mpr kept)
      obtain ⟨next, known, topic, dropped, received⟩ :=
        does_follows (call_does broker c) found (Ne.symm first)
      obtain ⟨last, reached, topic₁, dropped₁, received₁⟩ := ih known others
      refine ⟨last, reached, topic₁.trans topic, dropped₁.trans dropped, ?_⟩
      rw [run, received₁, received, List.append_assoc, ← received_by_cons]

-- Only a reception on the stream itself shows in what it gave.
theorem receptions_cons_other {id : StreamId} {c : BrokerCall} (unread : c ≠ .receive id)
    (answer : BrokerAnswer) (history : List Answered) :
    receptions id (⟨c, answer⟩ :: history) = receptions id history := by
  have silent : Answered.reception? id ⟨c, answer⟩ = none := by
    cases c with
    | receive other =>
        have apart : other ≠ id := fun same => unread (by rw [same])
        cases answer <;> simp [Answered.reception?, apart]
    | _ => rfl
  exact List.filterMap_cons_none silent

theorem received_by_unread (broker : Broker) {id : StreamId} {calls : List BrokerCall}
    (unread : .receive id ∉ calls) : receivedBy id (broker.run calls).1 = [] := by
  induction calls generalizing broker with
  | nil => rfl
  | cons c calls ih =>
      obtain ⟨first, others⟩ := not_or.mp (mt List.mem_cons.mpr unread)
      rw [run, receivedBy, receptions_cons_other (Ne.symm first)]
      exact ih _ others

end Broker

end EventPipeline

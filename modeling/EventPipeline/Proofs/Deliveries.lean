import EventPipeline.Proofs.Interleaving

/-!
What the journal says about one consumer: the deliveries it took are the front of the log of its topic,
and it handles them in turn, each to its end before the next.
-/

set_option autoImplicit false

namespace EventPipeline

open Program Transcript

variable {F : EventFamily}

def Journal.of (journal : Journal F) (i : Nat) : List (Happening F) :=
  journal.filterMap fun entry => if entry.consumer = i then some entry.happening else none

@[simp] theorem Journal.of_append (first second : Journal F) (i : Nat) :
    Journal.of (first ++ second) i = first.of i ++ second.of i := List.filterMap_append

namespace Happening

def message? : Happening F → Option Message
  | .took message => some message
  | _ => none

def exchange? : Happening F → Option (Exchange F)
  | .answered exchange => some exchange
  | _ => none

end Happening

def takenOf (happenings : List (Happening F)) : List Message := happenings.filterMap Happening.message?

def answersOf (happenings : List (Happening F)) : Transcript F :=
  happenings.filterMap Happening.exchange?

@[simp] theorem taken_of_append (first second : List (Happening F)) :
    takenOf (first ++ second) = takenOf first ++ takenOf second := List.filterMap_append

@[simp] theorem answers_of_append (first second : List (Happening F)) :
    answersOf (first ++ second) = answersOf first ++ answersOf second := List.filterMap_append

-- One delivery and what was asked and answered while it was worked on.
structure Handling (F : EventFamily) where
  message : Message
  transcript : Transcript F

def Exchange.happenings (exchange : Exchange F) : List (Happening F) :=
  [.began exchange.effect, .answered exchange]

def Handling.happenings (handling : Handling F) : List (Happening F) :=
  .took handling.message :: handling.transcript.flatMap Exchange.happenings

theorem taken_of_exchanges (t : Transcript F) : takenOf (t.flatMap Exchange.happenings) = [] := by
  induction t with
  | nil => rfl
  | cons x t ih => exact ih

theorem answers_of_exchanges (t : Transcript F) : answersOf (t.flatMap Exchange.happenings) = t := by
  induction t with
  | nil => rfl
  | cons x t ih => exact congrArg (x :: ·) ih

theorem taken_of_handling (handling : Handling F) : takenOf handling.happenings = [handling.message] :=
  congrArg (handling.message :: ·) (taken_of_exchanges handling.transcript)

theorem answers_of_handling (handling : Handling F) :
    answersOf handling.happenings = handling.transcript := answers_of_exchanges handling.transcript

theorem taken_of_handlings (handlings : List (Handling F)) :
    takenOf (handlings.flatMap Handling.happenings) = handlings.map (·.message) := by
  induction handlings with
  | nil => rfl
  | cons handling rest ih =>
      rw [List.flatMap_cons, taken_of_append, taken_of_handling, ih]
      rfl

theorem answers_of_handlings (handlings : List (Handling F)) :
    answersOf (handlings.flatMap Handling.happenings) = handlings.flatMap (·.transcript) := by
  induction handlings with
  | nil => rfl
  | cons handling rest ih =>
      rw [List.flatMap_cons, answers_of_append, answers_of_handling, ih]
      rfl

theorem journal_mem {journal : Journal F} {i : Nat} {what : Happening F} (member : what ∈ journal.of i) :
    ∃ entry ∈ journal, entry.happening = what := by
  obtain ⟨entry, known, found⟩ := List.mem_filterMap.mp member
  refine ⟨entry, known, ?_⟩
  split at found
  · exact Option.some.inj found
  · cases found

theorem answered_within {handling : Handling F} {x : Exchange F} (within : x ∈ handling.transcript) :
    .answered x ∈ handling.happenings :=
  List.mem_cons_of_mem _ (List.mem_flatMap.mpr ⟨x, within, by simp [Exchange.happenings]⟩)

theorem handling_answered {finished : List (Handling F)} {handling : Handling F}
    (member : handling ∈ finished) {x : Exchange F} (within : x ∈ handling.transcript) :
    .answered x ∈ finished.flatMap Handling.happenings :=
  List.mem_flatMap.mpr ⟨handling, member, answered_within within⟩

-- The answers that belong to a delivery taken before, and the deliveries taken from here on.
def sections : List (Happening F) → Transcript F × List (Handling F)
  | [] => ([], [])
  | .took message :: rest => ([], ⟨message, (sections rest).1⟩ :: (sections rest).2)
  | .began _ :: rest => sections rest
  | .answered x :: rest => (x :: (sections rest).1, (sections rest).2)

-- The deliveries that a consumer took, in turn, the one in hand with what was answered so far.
def handlingsOf (happenings : List (Happening F)) : List (Handling F) := (sections happenings).2

theorem handlings_messages (happenings : List (Happening F)) :
    (handlingsOf happenings).map (·.message) = takenOf happenings := by
  induction happenings with
  | nil => rfl
  | cons what rest ih =>
      cases what with
      | took message => exact congrArg (message :: ·) ih
      | began effect => exact ih
      | answered x => exact ih

theorem sections_answered (happenings : List (Happening F)) :
    (∀ x ∈ (sections happenings).1, .answered x ∈ happenings) ∧
      ∀ handling ∈ handlingsOf happenings, ∀ x ∈ handling.transcript, .answered x ∈ happenings := by
  induction happenings with
  | nil => exact ⟨nofun, nofun⟩
  | cons what rest ih =>
      obtain ⟨open_, closed⟩ := ih
      have later : ∀ handling ∈ handlingsOf rest, ∀ x ∈ handling.transcript, .answered x ∈ what :: rest :=
        fun handling member x within => List.mem_cons_of_mem _ (closed handling member x within)
      cases what with
      | took message =>
          refine ⟨nofun, fun handling member => ?_⟩
          rcases List.mem_cons.mp member with rfl | old
          · exact fun x within => List.mem_cons_of_mem _ (open_ x within)
          · exact later handling old
      | began effect => exact ⟨fun x within => List.mem_cons_of_mem _ (open_ x within), later⟩
      | answered y =>
          refine ⟨fun x within => ?_, later⟩
          rcases List.mem_cons.mp within with rfl | old
          · exact List.mem_cons_self
          · exact List.mem_cons_of_mem _ (open_ x old)

theorem sections_exchanges (t : Transcript F) (rest : List (Happening F)) :
    sections (t.flatMap Exchange.happenings ++ rest) = (t ++ (sections rest).1, (sections rest).2) := by
  induction t with
  | nil => rfl
  | cons x t ih =>
      change ((x :: (sections (t.flatMap Exchange.happenings ++ rest)).1,
        (sections (t.flatMap Exchange.happenings ++ rest)).2) : Transcript F × List (Handling F)) = _
      rw [ih]
      rfl

theorem handlings_of_handling (handling : Handling F) (rest : List (Happening F)) :
    handlingsOf (handling.happenings ++ rest) =
      ⟨handling.message, handling.transcript ++ (sections rest).1⟩ :: handlingsOf rest := by
  change Handling.mk handling.message (sections (handling.transcript.flatMap Exchange.happenings ++ rest)).1 ::
    (sections (handling.transcript.flatMap Exchange.happenings ++ rest)).2 = _
  rw [sections_exchanges]
  rfl

theorem handlings_of_finished (finished : List (Handling F)) {current : List (Happening F)}
    (closed : (sections current).1 = []) :
    handlingsOf (finished.flatMap Handling.happenings ++ current) = finished ++ handlingsOf current ∧
      (sections (finished.flatMap Handling.happenings ++ current)).1 = [] := by
  induction finished with
  | nil => exact ⟨rfl, closed⟩
  | cons handling rest ih =>
      rw [List.flatMap_cons, List.append_assoc]
      refine ⟨?_, rfl⟩
      rw [handlings_of_handling, ih.1, ih.2, List.append_nil]
      rfl

-- What became known of the delivery in hand, for each phase of the loop.
inductive Underway (work : Message → Program F Unit) : Phase F → List (Happening F) → Prop where
  | starting : Underway work .starting []
  | listening : Underway work .listening []
  | ended : Underway work .ended []
  | working (handling : Handling F) {rest : Program F Unit}
      (reached : Leads (work handling.message) handling.transcript rest) :
      Underway work (.working rest) handling.happenings
  | waiting {handling : Handling F} {effect : Effect F} {next : effect.Answer → Program F Unit}
      (origin : World F)
      (reached : Leads (work handling.message) handling.transcript (.perform effect next)) :
      Underway work (.waiting effect (origin.start effect).1 next)
        (handling.happenings ++ [.began effect])
  | failed {handling : Handling F} {p : Panic}
      (reached : Leads (work handling.message) handling.transcript (.panic p)) :
      Underway work (.failed p) handling.happenings

def Phase.resting : Phase F → Bool
  | .starting => true
  | .listening => true
  | .ended => true
  | _ => false

theorem resting_idle {work : Message → Program F Unit} {phase : Phase F} {current : List (Happening F)}
    (underway : Underway work phase current) (resting : phase.resting = true) : current = [] := by
  cases underway with
  | working handling reached => cases resting
  | waiting origin reached => cases resting
  | failed reached => cases resting
  | _ => rfl

def Handled (work : Message → Program F Unit) (handling : Handling F) : Prop :=
  Ends (work handling.message) handling.transcript (.ok ())

def Tracks (work : Message → Program F Unit) (phase : Phase F) (happenings : List (Happening F)) : Prop :=
  ∃ (finished : List (Handling F)) (current : List (Happening F)),
    happenings = finished.flatMap Handling.happenings ++ current ∧
    (∀ handling ∈ finished, Handled work handling) ∧ Underway work phase current

theorem tracks_handlings {work : Message → Program F Unit} {phase : Phase F} {happenings : List (Happening F)}
    (tracks : Tracks work phase happenings) :
    ∀ handling ∈ handlingsOf happenings, ∃ rest, Leads (work handling.message) handling.transcript rest := by
  obtain ⟨finished, current, rfl, handled, underway⟩ := tracks
  have own : ∀ (handling : Handling F) (begun : List (Happening F)), sections begun = ([], []) →
      handlingsOf (handling.happenings ++ begun) = [handling] := by
    intro handling begun silent
    rw [handlings_of_handling, handlingsOf, silent, List.append_nil]
  have inHand : (sections current).1 = [] ∧
      ∀ handling ∈ handlingsOf current, ∃ rest, Leads (work handling.message) handling.transcript rest := by
    cases underway with
    | starting => exact ⟨rfl, nofun⟩
    | listening => exact ⟨rfl, nofun⟩
    | ended => exact ⟨rfl, nofun⟩
    | working handling reached =>
        refine ⟨rfl, fun other member => ?_⟩
        rw [← List.append_nil handling.happenings, own handling [] rfl] at member
        cases List.mem_singleton.mp member
        exact ⟨_, reached⟩
    | @waiting handling effect next origin reached =>
        refine ⟨rfl, fun other member => ?_⟩
        rw [own handling [.began effect] rfl] at member
        cases List.mem_singleton.mp member
        exact ⟨_, reached⟩
    | @failed handling p reached =>
        refine ⟨rfl, fun other member => ?_⟩
        rw [← List.append_nil handling.happenings, own handling [] rfl] at member
        cases List.mem_singleton.mp member
        exact ⟨_, reached⟩
  intro handling member
  rw [(handlings_of_finished finished inHand.1).1] at member
  rcases List.mem_append.mp member with early | last
  · exact ⟨_, handled handling early⟩
  · exact inHand.2 handling last

theorem happenings_snoc (handling : Handling F) (x : Exchange F) :
    handling.happenings ++ [.began x.effect] ++ [.answered x] =
      (Handling.mk handling.message (handling.transcript ++ [x])).happenings := by
  simp [Handling.happenings, Exchange.happenings]

-- One step of the loop keeps the deliveries in turn; a new one begins only where none is in hand.
theorem moves_tracks {signal : Signal} {consumer after : Consumer F} {w v : World F}
    {happening : Option (Happening F)} (moves : Consumer.Moves signal consumer w happening after v)
    {happenings : List (Happening F)}
    (tracks : Tracks (consumer.route.process consumer.handler) consumer.phase happenings) :
    Tracks (consumer.route.process consumer.handler) after.phase (happenings ++ happening.toList) := by
  obtain ⟨finished, current, rfl, handled, underway⟩ := tracks
  cases moves with
  | started phase same =>
      rw [phase] at underway
      cases underway
      exact ⟨finished, [], by simp, handled, .listening⟩
  | noticed phase =>
      exact ⟨finished, current, by simp, handled, underway⟩
  | @took phase message got =>
      rw [phase] at underway
      cases underway
      exact ⟨finished, (Handling.mk message []).happenings, by simp [Handling.happenings], handled,
        .working ⟨message, []⟩ (.here _)⟩
  | left phase same =>
      rw [phase] at underway
      cases underway
      exact ⟨finished, [], by simp, handled, .ended⟩
  | finished phase =>
      rw [phase] at underway
      cases underway with
      | @working handling rest reached =>
          refine ⟨finished ++ [handling], [], by simp, ?_, .listening⟩
          intro other member
          rcases List.mem_append.mp member with old | new
          · exact handled other old
          · cases List.mem_singleton.mp new
            exact reached
  | failed phase =>
      rw [phase] at underway
      cases underway with
      | @working handling rest reached => exact ⟨finished, _, by simp, handled, .failed reached⟩
  | began phase =>
      rw [phase] at underway
      cases underway with
      | @working handling rest reached => exact ⟨finished, _, by simp, handled, .waiting w reached⟩
  | @answered effect pending next phase =>
      rw [phase] at underway
      cases underway with
      | @waiting handling _ _ origin reached =>
          let answered : Exchange F := ⟨effect, ((origin.start effect).1.resume w).1⟩
          let longer : Handling F := ⟨handling.message, handling.transcript ++ [answered]⟩
          refine ⟨finished, longer.happenings, ?_, handled,
            .working longer (leads_snoc reached _)⟩
          change _ ++ (handling.happenings ++ [.began answered.effect]) ++ [.answered answered] = _
          rw [← happenings_snoc, List.append_assoc]

theorem tracks_waiting {work : Message → Program F Unit} {effect : Effect F}
    {pending : Pending F effect.Answer} {next : effect.Answer → Program F Unit}
    {happenings : List (Happening F)} (tracks : Tracks work (.waiting effect pending next) happenings) :
    ∃ origin : World F, pending = (origin.start effect).1 := by
  obtain ⟨_, _, -, -, underway⟩ := tracks
  cases underway with
  | waiting origin reached => exact ⟨origin, rfl⟩

def Phase.live : Phase F → Bool
  | .ended => false
  | .failed _ => false
  | _ => true

namespace Consumer

def Reads (consumer : Consumer F) (w : World F) (taken : List Message) : Prop :=
  ∃ stream, (w.broker consumer.route.subscriber).broker.stream? consumer.stream = some stream ∧
    stream.topic = consumer.route.consumeQueue ∧ stream.dropped = false ∧ stream.received = taken

structure Follows (consumer : Consumer F) (w : World F) (taken : List Message) : Prop where
  logged : taken <+:
    (w.broker consumer.route.subscriber).broker.published consumer.route.consumeQueue
  reads : consumer.phase.live = true → consumer.Reads w taken

theorem moves_keeps {signal : Signal} {consumer after : Consumer F} {w v : World F}
    {happening : Option (Happening F)} (moves : Moves signal consumer w happening after v) :
    after.route = consumer.route ∧ after.handler = consumer.handler ∧ after.stream = consumer.stream := by
  cases moves <;> exact ⟨rfl, rfl, rfl⟩

def Anchored (consumer : Consumer F) : Prop :=
  ∀ (effect : Effect F) (pending : Pending F effect.Answer) (next : effect.Answer → Program F Unit),
    consumer.phase = .waiting effect pending next → ∃ origin : World F, pending = (origin.start effect).1

theorem called_leave (consumer : Consumer F) (phase : Phase F) (w : World F) :
    w.Called (World.only consumer.route.subscriber (.drop consumer.stream)) (consumer.leave phase w).2 :=
  World.called_change w consumer.route.subscriber fun _ => rfl

-- The calls that a step makes: on the stream of the consumer, or those of an effect.
theorem moves_called {signal : Signal} {consumer after : Consumer F} {w v : World F}
    {happening : Option (Happening F)} (moves : Moves signal consumer w happening after v)
    (anchored : consumer.Anchored) :
    ∃ calls, w.Called calls v ∧ ∀ id c, c ∈ calls id →
      (id = consumer.route.subscriber ∧
        ((c = .receive consumer.stream ∧ ∃ message, happening = some (.took message)) ∨
          (c = .drop consumer.stream ∧ after.phase.live = false))) ∨
        ∃ x : Exchange F, happening = some (.answered x) ∧ x.effect.asks id c := by
  cases moves with
  | started phase same => exact ⟨_, same, fun _ _ member => nomatch member⟩
  | noticed phase => exact ⟨_, World.called_of_brokers rfl rfl rfl, fun _ _ member => nomatch member⟩
  | @took phase message got =>
      refine ⟨_, World.called_receive w _ _, ?_⟩
      intro id c member
      obtain ⟨here, same⟩ := World.mem_only.mp member
      exact .inl ⟨here, .inl ⟨same, message, rfl⟩⟩
  | @left phase between same =>
      refine ⟨_, World.called_trans same (called_leave consumer .ended between), ?_⟩
      intro id c member
      obtain ⟨here, gone⟩ : id = consumer.route.subscriber ∧ c = .drop consumer.stream := by
        simpa using member
      exact .inl ⟨here, .inr ⟨gone, rfl⟩⟩
  | finished phase => exact ⟨_, World.called_of_brokers rfl rfl rfl, fun _ _ member => nomatch member⟩
  | @failed p phase =>
      refine ⟨_, called_leave consumer (.failed p) w, ?_⟩
      intro id c member
      obtain ⟨here, gone⟩ := World.mem_only.mp member
      exact .inl ⟨here, .inr ⟨gone, rfl⟩⟩
  | began phase => exact ⟨_, World.called_start w _, fun _ _ member => nomatch member⟩
  | @answered effect pending next phase =>
      obtain ⟨origin, rfl⟩ := anchored _ _ _ phase
      obtain ⟨calls, called, asked⟩ := World.called_resume origin w effect
      exact ⟨calls, called, fun id c member => .inr ⟨_, rfl, asked id c member⟩⟩

theorem asks_nothing_of_stream {effect : Effect F} {broker : BrokerId} {stream : StreamId} :
    ¬ effect.asks broker (.receive stream) ∧ ¬ effect.asks broker (.drop stream) := by
  constructor <;> intro asked <;>
    rcases Effect.asks_only asked with ⟨topic, message, same⟩ | ⟨settlement, same⟩ <;> cases same

theorem published_grows {w v : World F} {calls : BrokerId → List BrokerCall} (called : w.Called calls v)
    (id : BrokerId) (topic : String) :
    (w.broker id).broker.published topic <+: (v.broker id).broker.published topic := by
  rw [called.inside, Broker.run_logs]
  exact List.prefix_append _ _

-- A stream that nobody reads or drops meanwhile is still where it was.
theorem follows_called {consumer after : Consumer F} {w v : World F} {taken : List Message}
    {calls : BrokerId → List BrokerCall} (follows : consumer.Follows w taken)
    (route : after.route = consumer.route) (stream : after.stream = consumer.stream)
    (live : after.phase.live = true → consumer.phase.live = true) (called : w.Called calls v)
    (kept : after.phase.live = true → .drop consumer.stream ∉ calls consumer.route.subscriber)
    (unread : .receive consumer.stream ∉ calls consumer.route.subscriber) : after.Follows v taken := by
  refine ⟨?_, ?_⟩
  · rw [route]
    exact follows.logged.trans (published_grows called _ _)
  · intro lives
    obtain ⟨found, known, topic, undropped, received⟩ := follows.reads (live lives)
    obtain ⟨later, reached, topic₁, undropped₁, received₁⟩ := Broker.run_follows known (kept lives)
    rw [Broker.received_by_unread _ unread, List.append_nil] at received₁
    refine ⟨later, ?_, ?_, undropped₁.trans undropped, received₁.trans received⟩
    · rw [route, stream, called.inside]
      exact reached
    · rw [route]
      exact topic₁.trans topic

theorem took_follows {consumer after : Consumer F} {w : World F} {taken : List Message} {message : Message}
    (sound : Broker.Sound (w.broker consumer.route.subscriber).broker)
    (follows : consumer.Follows w taken) (live : consumer.phase.live = true)
    (got : ((w.broker consumer.route.subscriber).broker.receive consumer.stream).1 = .message message)
    (route : after.route = consumer.route) (stream : after.stream = consumer.stream) :
    after.Follows (w.receive consumer.route.subscriber consumer.stream).2 (taken ++ [message]) := by
  have called := World.called_receive w consumer.route.subscriber consumer.stream
  have inside := called.inside consumer.route.subscriber
  rw [World.only_same] at inside
  obtain ⟨found, known, topic, undropped, received⟩ := follows.reads live
  obtain ⟨later, reached, topic₁, undropped₁, received₁⟩ :=
    Broker.does_follows (Broker.call_does _ (.receive consumer.stream)) known (nomatch ·)
  have read : receivedBy consumer.stream [⟨.receive consumer.stream,
      ((w.broker consumer.route.subscriber).broker.call (.receive consumer.stream)).1⟩] = [message] := by
    simp [receivedBy, receptions, Answered.reception?, Broker.call, got, Reception.message?]
  rw [read, received] at received₁
  have sound₁ := Broker.call_sound sound (.receive consumer.stream)
  have replayed := sound₁.replayed later (Broker.stream_mem reached) (undropped₁.trans undropped)
  rw [received₁, topic₁, topic] at replayed
  refine ⟨?_, fun _ => ⟨later, ?_, ?_, undropped₁.trans undropped, received₁⟩⟩
  · rw [route, inside]
    exact ⟨later.pending, replayed⟩
  · rw [route, stream, inside]
    exact reached
  · rw [route]
    exact topic₁.trans topic

-- Taking a message is the one step that moves a stream of its own; all others go by follows_called.
theorem moves_follows {signal : Signal} {consumer after : Consumer F} {w v : World F}
    {happening : Option (Happening F)} (moves : Moves signal consumer w happening after v)
    (anchored : consumer.Anchored) (sound : Broker.Sound (w.broker consumer.route.subscriber).broker)
    {taken : List Message} (follows : consumer.Follows w taken) :
    after.Follows v (taken ++ takenOf happening.toList) := by
  obtain ⟨route, -, stream⟩ := moves_keeps moves
  obtain ⟨calls, called, cause⟩ := moves_called moves anchored
  by_cases taking : ∃ message, happening = some (.took message)
  · obtain ⟨message, rfl⟩ := taking
    cases moves with
    | took phase got => exact took_follows sound follows (by rw [phase]; rfl) got rfl rfl
  · have nothing : takenOf happening.toList = [] := by
      cases happening with
      | none => rfl
      | some what =>
          cases what with
          | took message => exact absurd ⟨message, rfl⟩ taking
          | began effect => rfl
          | answered exchange => rfl
    rw [nothing, List.append_nil]
    apply follows_called follows route stream ?_ called
    · intro lives member
      rcases cause _ _ member with ⟨-, ⟨same, -⟩ | ⟨-, gone⟩⟩ | ⟨x, -, asked⟩
      · cases same
      · rw [lives] at gone
        cases gone
      · exact asks_nothing_of_stream.2 asked
    · intro member
      rcases cause _ _ member with ⟨-, ⟨-, message, took⟩ | ⟨same, -⟩⟩ | ⟨x, -, asked⟩
      · exact taking ⟨message, took⟩
      · cases same
      · exact asks_nothing_of_stream.1 asked
    · intro lives
      cases moves with
      | started phase same => rw [phase]; rfl
      | noticed phase => exact lives
      | took phase got => exact absurd ⟨_, rfl⟩ taking
      | left phase same => cases lives
      | finished phase => rw [phase]; rfl
      | failed phase => cases lives
      | began phase => rw [phase]; rfl
      | answered phase => rw [phase]; rfl

-- Two consumers differ in broker or stream, so the step of one leaves the stream of the other alone.
theorem moves_spares {signal : Signal} {consumer after other : Consumer F} {w v : World F}
    {happening : Option (Happening F)} (moves : Moves signal consumer w happening after v)
    (anchored : consumer.Anchored)
    (apart : (other.route.subscriber, other.stream) ≠ (consumer.route.subscriber, consumer.stream))
    {taken : List Message} (follows : other.Follows w taken) : other.Follows v taken := by
  obtain ⟨calls, called, cause⟩ := moves_called moves anchored
  apply follows_called follows rfl rfl id called
  · intro lives member
    rcases cause _ _ member with ⟨here, ⟨same, -⟩ | ⟨same, -⟩⟩ | ⟨x, -, asked⟩
    · cases same
    · exact apart (by rw [here, BrokerCall.drop.inj same])
    · exact asks_nothing_of_stream.2 asked
  · intro member
    rcases cause _ _ member with ⟨here, ⟨same, -⟩ | ⟨same, -⟩⟩ | ⟨x, -, asked⟩
    · exact apart (by rw [here, BrokerCall.receive.inj same])
    · cases same
    · exact asks_nothing_of_stream.1 asked

end Consumer

end EventPipeline

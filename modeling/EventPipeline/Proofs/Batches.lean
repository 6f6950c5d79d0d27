import EventPipeline.Proofs.Intake
import EventPipeline.Proofs.Outbox

/-!
What a typed handler emits. The values that its function returned become messages all together or not at all:
each carries its own value, its own headers under the schema of the output, and an id of its own. A value that
cannot be encoded spoils its whole batch, of which nothing is then written or published.
-/

set_option autoImplicit false

namespace EventPipeline

open Program Transcript

variable {F : EventFamily}

def Exchange.fresh? : Exchange F → Option String
  | ⟨.freshId, id⟩ => some id
  | _ => none

-- The ids that were made up along a transcript.
def Transcript.fresh (t : Transcript F) : List String := t.filterMap Exchange.fresh?

@[simp] theorem Transcript.fresh_append (t u : Transcript F) : fresh (t ++ u) = fresh t ++ fresh u :=
  List.filterMap_append

-- The ids that are made up differ from the known ones and from all that were made up before.
def Surroundings.NeverRepeats (s : Surroundings F) (known : List String) : Prop :=
  ∀ past, (s past .freshId : String) ∉ known ++ fresh past

theorem fresh_ids_distinct {α : Type} {s : Surroundings F} {known : List String} (never : s.NeverRepeats known)
    (past : Transcript F) (p : Program F α) :
    (fresh (play s past p).1).Nodup ∧ ∀ id ∈ fresh (play s past p).1, id ∉ known ++ fresh past := by
  induction p generalizing past with
  | done value => exact ⟨List.nodup_nil, nofun⟩
  | panic q => exact ⟨List.nodup_nil, nofun⟩
  | perform effect next ih =>
      obtain ⟨distinct, apart⟩ := ih (s past effect) (past ++ [⟨effect, s past effect⟩])
      have later : ∀ id ∈ fresh (play s (past ++ [⟨effect, s past effect⟩]) (next (s past effect))).1,
          id ∉ known ++ fresh past := by
        intro id member old
        refine apart id member ?_
        rw [fresh_append, ← List.append_assoc]
        exact List.mem_append_left _ old
      cases effect with
      | freshId =>
          refine ⟨List.nodup_cons.mpr ⟨fun again => ?_, distinct⟩, fun id member => ?_⟩
          · refine apart _ again ?_
            rw [fresh_append, ← List.append_assoc]
            exact List.mem_append_right _ (List.mem_singleton_self _)
          · rcases List.mem_cons.mp member with rfl | rest
            · exact never past
            · exact later id rest
      | _ => exact ⟨distinct, later⟩

namespace Handler

variable {kind : F.Kind} {encoder : Codec (F.Value kind)} {inbound : Metadata}

-- The message that a value becomes.
structure Emits (encoder : Codec (F.Value kind)) (inbound : Metadata) (out : Outgoing (F.Value kind))
    (message : Message) : Prop where
  payload : encoder.encode out.value = .ok message.payload
  schema : message.metadata.get? Metadata.schemaKey = some (F.schema kind)
  others : ∀ key, key ≠ Metadata.schemaKey →
    message.metadata.get? key = (out.metadata.getD inbound).get? key

theorem emits_stamped {out : Outgoing (F.Value kind)} {payload : Bytes} (uuid : String)
    (encoded : encoder.encode out.value = .ok payload) :
    Emits encoder inbound out ⟨uuid, payload, stamp inbound out⟩ :=
  ⟨encoded, Metadata.get_set_same _ _ _, fun _ other => Metadata.get_set_other _ other _⟩

-- How the encoding of a batch comes out, and the ids that are made up for it.
inductive Encodes (encoder : Codec (F.Value kind)) (inbound : Metadata) :
    List (Outgoing (F.Value kind)) → Transcript F → Except EventError (List Message) → Prop where
  | whole {outs : List (Outgoing (F.Value kind))} {messages : List Message}
      (emits : List.Forall₂ (Emits encoder inbound) outs messages) :
      Encodes encoder inbound outs (messages.map fun m => ⟨.freshId, m.uuid⟩) (.ok messages)
  | spoiled (passed : List (Outgoing (F.Value kind))) (out : Outgoing (F.Value kind))
      (later : List (Outgoing (F.Value kind))) {t : Transcript F} {e : EventError}
      (fine : ∀ o ∈ passed, ∃ payload, encoder.encode o.value = .ok payload)
      (bad : encoder.encode out.value = .error e) (named : ∀ x ∈ t, x.effect = .freshId) :
      Encodes encoder inbound (passed ++ out :: later) t (.error e)

-- Induction on the batch: a value is encoded and named before the rest of them.
theorem ends_encode_all {outs : List (Outgoing (F.Value kind))} {t : Transcript F} {outcome : Handler.Outcome}
    (ends : Ends (encodeAll encoder inbound outs) t outcome) :
    ∃ result, outcome = .ok result ∧ Encodes encoder inbound outs t result := by
  induction outs generalizing t outcome with
  | nil =>
      obtain ⟨rfl, rfl⟩ := ends_done.mp ends
      exact ⟨_, rfl, .whole .nil⟩
  | cons out rest ih =>
      rw [encodeAll] at ends
      cases encoded : encoder.encode out.value with
      | error e =>
          rw [encoded] at ends
          obtain ⟨rfl, rfl⟩ := ends_done.mp ends
          exact ⟨_, rfl, .spoiled [] out rest nofun encoded nofun⟩
      | ok payload =>
          rw [encoded] at ends
          obtain ⟨uuid, u, rfl, encoding⟩ := ends_perform.mp ends
          have encoding : Ends ((encodeAll encoder inbound rest).bind _) u outcome := encoding
          rcases ends_bind.mp encoding with ⟨p, rfl, broken⟩ | ⟨result, names, after, rfl, returned, last⟩
          · obtain ⟨result, same, -⟩ := ih broken
            cases same
          · obtain ⟨_, same, encodes⟩ := ih returned
            cases same
            cases encodes with
            | @whole _ messages emits =>
                obtain ⟨rfl, rfl⟩ := ends_done.mp last
                rw [List.append_nil]
                exact ⟨_, rfl, .whole (.cons (emits_stamped uuid encoded) emits)⟩
            | spoiled passed bad later fine refused named =>
                obtain ⟨rfl, rfl⟩ := ends_done.mp last
                refine ⟨_, rfl, .spoiled (out :: passed) bad later ?_ refused ?_⟩
                · intro o member
                  rcases List.mem_cons.mp member with rfl | older
                  · exact ⟨payload, encoded⟩
                  · exact fine o older
                · intro x member
                  rw [List.append_nil] at member
                  rcases List.mem_cons.mp member with rfl | older
                  · rfl
                  · exact named x older

theorem encodes_named {outs : List (Outgoing (F.Value kind))} {t : Transcript F}
    {result : Except EventError (List Message)} (encodes : Encodes encoder inbound outs t result) :
    ∀ x ∈ t, x.effect = .freshId := by
  cases encodes with
  | whole emits =>
      intro x member
      obtain ⟨m, -, rfl⟩ := List.mem_map.mp member
      rfl
  | spoiled passed out later fine bad named => exact named

theorem emits_encoded {outs : List (Outgoing (F.Value kind))} {messages : List Message}
    (emits : List.Forall₂ (Emits encoder inbound) outs messages) :
    ∀ out ∈ outs, ∃ payload, encoder.encode out.value = .ok payload := by
  induction emits with
  | nil => exact nofun
  | @cons out m outs messages first rest ih =>
      intro o member
      rcases List.mem_cons.mp member with rfl | later
      · exact ⟨m.payload, first.payload⟩
      · exact ih o later

theorem encodes_iff {outs : List (Outgoing (F.Value kind))} {t : Transcript F}
    {result : Except EventError (List Message)} (encodes : Encodes encoder inbound outs t result) :
    (∃ messages, result = .ok messages) ↔ ∀ out ∈ outs, ∃ payload, encoder.encode out.value = .ok payload := by
  cases encodes with
  | @whole _ messages emits => exact ⟨fun _ => emits_encoded emits, fun _ => ⟨messages, rfl⟩⟩
  | spoiled passed out later fine bad named =>
      refine ⟨fun ⟨messages, same⟩ => (nomatch same), fun all => ?_⟩
      obtain ⟨payload, encoded⟩ := all out (List.mem_append_right _ List.mem_cons_self)
      cases bad.symm.trans encoded

theorem encodes_ok {outs : List (Outgoing (F.Value kind))} {t : Transcript F} {messages : List Message}
    (encodes : Encodes encoder inbound outs t (.ok messages)) :
    List.Forall₂ (Emits encoder inbound) outs messages ∧ fresh t = messages.map (·.uuid) := by
  cases encodes with
  | whole emits =>
      refine ⟨emits, ?_⟩
      clear emits
      induction messages with
      | nil => rfl
      | cons m messages ih => exact congrArg (m.uuid :: ·) ih

-- The first value that cannot be encoded is the one that the batch fails for.
theorem encodes_error {passed later : List (Outgoing (F.Value kind))} {out : Outgoing (F.Value kind)}
    {t : Transcript F} {result : Except EventError (List Message)} {e : EventError}
    (encodes : Encodes encoder inbound (passed ++ out :: later) t result)
    (fine : ∀ o ∈ passed, ∃ payload, encoder.encode o.value = .ok payload)
    (bad : encoder.encode out.value = .error e) : result = .error e := by
  generalize whole : passed ++ out :: later = outs at encodes
  cases encodes with
  | whole emits =>
      obtain ⟨payload, encoded⟩ :=
        emits_encoded emits out (whole ▸ List.mem_append_right _ List.mem_cons_self)
      cases bad.symm.trans encoded
  | spoiled earlier other rest others refused named =>
      rcases cut_around whole with ⟨more, rfl, -⟩ | ⟨more, rfl, split⟩
      · obtain ⟨payload, encoded⟩ := others out (List.mem_append_right _ List.mem_cons_self)
        cases bad.symm.trans encoded
      · cases more with
        | nil =>
            cases (List.cons_eq_cons.mp split).1
            cases bad.symm.trans refused
            rfl
        | cons o more =>
            cases (List.cons_eq_cons.mp split).1
            obtain ⟨payload, encoded⟩ := fine other (List.mem_append_right _ List.mem_cons_self)
            cases refused.symm.trans encoded

-- What the handler makes of the reply of its function.
inductive Answers (encoder : Codec (F.Value kind)) (inbound : Metadata) :
    Reply (List (Outgoing (F.Value kind))) → Transcript F → Handler.Outcome → Prop where
  | panicked (p : Panic) : Answers encoder inbound (.panic p) [] (.error p)
  | failed (e : EventError) : Answers encoder inbound (.error e) [] (.ok (.error e))
  | returned {outs : List (Outgoing (F.Value kind))} {t : Transcript F}
      {result : Except EventError (List Message)} (encodes : Encodes encoder inbound outs t result) :
      Answers encoder inbound (.ok outs) t (.ok result)

section Answers

variable {t : Transcript F} {outcome : Handler.Outcome}

theorem answers_named {reply : Reply (List (Outgoing (F.Value kind)))}
    (answers : Answers encoder inbound reply t outcome) : ∀ x ∈ t, x.effect = .freshId := by
  cases answers with
  | returned encodes => exact encodes_named encodes
  | _ => exact nofun

theorem answers_panic {p : Panic} (answers : Answers encoder inbound (.panic p) t outcome) :
    outcome = .error p := by
  cases answers
  rfl

theorem answers_error {e : EventError} (answers : Answers encoder inbound (.error e) t outcome) :
    outcome = .ok (.error e) := by
  cases answers
  rfl

theorem answers_ok {outs : List (Outgoing (F.Value kind))}
    (answers : Answers encoder inbound (.ok outs) t outcome) :
    ∃ result, outcome = .ok result ∧ Encodes encoder inbound outs t result := by
  cases answers with
  | returned encodes => exact ⟨_, rfl, encodes⟩

end Answers

section Typed

variable {id : HandlerId} {input output : F.Kind} {decoder : Codec (F.Value input)}
  {encoder : Codec (F.Value output)} {message : Message}

theorem ends_typed_answers {value : F.Value input} (read : decoder.decode message.payload = .ok value)
    {t : Transcript F} {outcome : Handler.Outcome}
    (ends : Ends (typed id input output decoder encoder message) t outcome) :
    ∃ reply named, t = ⟨.callTyped id input output ⟨value, message.metadata, message.uuid⟩, reply⟩ :: named ∧
      Answers encoder message.metadata reply named outcome := by
  simp only [typed, read] at ends
  obtain ⟨reply, named, rfl, answered⟩ := ends_perform.mp ends
  refine ⟨reply, named, rfl, ?_⟩
  cases reply with
  | panic p =>
      obtain ⟨rfl, rfl⟩ := ends_panic.mp answered
      exact .panicked p
  | error e =>
      obtain ⟨rfl, rfl⟩ := ends_done.mp answered
      exact .failed e
  | ok outs =>
      obtain ⟨result, rfl, encodes⟩ := ends_encode_all answered
      exact .returned encodes

-- A function that was called has its reply taken as it is, whatever it was called with.
theorem called_answers {t : Transcript F} {outcome : Handler.Outcome}
    (ends : Ends (typed id input output decoder encoder message) t outcome)
    {context : HandlerContext (F.Value input)} {reply : Reply (List (Outgoing (F.Value output)))}
    (called : (⟨.callTyped id input output context, reply⟩ : Exchange F) ∈ t) :
    ∃ named, Answers encoder message.metadata reply named outcome := by
  cases read : decoder.decode message.payload with
  | error e =>
      rw [typed_undecodable read] at ends
      obtain ⟨rfl, rfl⟩ := ends_done.mp ends
      cases called
  | ok value =>
      obtain ⟨other, named, rfl, answers⟩ := ends_typed_answers read ends
      rcases List.mem_cons.mp called with same | later
      · cases same
        exact ⟨named, answers⟩
      · cases answers_named answers _ later

end Typed

end Handler

section Route

variable {service : Service F} {route : Route F} {message : Message} {t : Transcript F}
  {id : HandlerId} {input output : F.Kind} {decoder : Codec (F.Value input)}
  {encoder : Codec (F.Value output)}

-- Nothing of a spoiled batch is written.
theorem spoiled_attempt (typed : route.handler = .typed id input output decoder encoder) {a : Attempt F}
    (ran : Ends (service.core route message) a.transcript a.outcome)
    {context : HandlerContext (F.Value input)} {passed later : List (Outgoing (F.Value output))}
    {out : Outgoing (F.Value output)} {e : EventError}
    (called : (⟨.callTyped id input output context, .ok (passed ++ out :: later)⟩ : Exchange F) ∈ a.transcript)
    (fine : ∀ o ∈ passed, ∃ payload, encoder.encode o.value = .ok payload)
    (bad : encoder.encode out.value = .error e) : writes a.transcript = [] ∧ a.outcome = .ok (.error e) := by
  have standard : route.handler.Standard := typed ▸ .typed id input output decoder encoder
  obtain ⟨before, writing, result, whole, handled, plain, failing⟩ := ends_core ran
  have early : writes before = [] := standard_unwritten standard handled
  rw [whole] at called
  rcases List.mem_append.mp called with inside | recorded
  · rw [typed] at handled
    obtain ⟨named, answers⟩ := Handler.called_answers handled inside
    cases answers with
    | returned encodes =>
        obtain ⟨unwritten, same⟩ := failing e (congrArg Except.ok (Handler.encodes_error encodes fine bad))
        rw [whole, writes_append, early, unwritten]
        exact ⟨rfl, same⟩
  · cases plain _ recorded

-- A route that has the result already asks for outer effects, and publishes only outputs of the result.
theorem ends_returning {result : Except EventError (List Message)} {outcome : Except Panic Unit}
    (ends : Ends (route.process (fun _ => .done result) message) t outcome) :
    (∀ x ∈ t, x.effect.isOuter = true) ∧ ∀ p ∈ sent t, ∃ outputs, result = .ok outputs ∧ p.message ∈ outputs := by
  let returning : Handler F := fun _ => .done result
  have confined : returning.Only fun effect => effect.isOuter = true := fun _ => trivial
  have outer : (route.process returning message).Only fun effect => effect.isOuter = true :=
    process_only (fun _ => outer_of_remark) (fun _ _ _ => rfl) (fun _ => rfl) confined message
  refine ⟨leads_only outer ends, fun p member => ?_⟩
  obtain ⟨u, rfl, ⟨q, -, broken⟩ |
    ⟨handled, other, delivering, concluding, delivered, rfl, same, delivers, ending⟩⟩ := Route.ends_process ends
  · cases (ends_done.mp broken).2
  · obtain ⟨rfl, returned⟩ := ends_done.mp same
    cases returned
    have silent : sent concluding = [] := by
      rcases ending with ⟨q, -, -, rfl⟩ | ⟨fate, -, quiet, -⟩
      · rfl
      · rw [sent, quiet]
        rfl
    have whole : sent (⟨.count (.received route.name), ()⟩ :: ([] ++ delivering ++ concluding)) =
        sent delivering := (sent_append delivering concluding).trans (by rw [silent, List.append_nil])
    rw [whole] at member
    exact delivers_outputs delivers member

-- The sections of a delivery: the pipeline runs its inner stages and may send a dead letter, and then what
-- it came to is sent, of which only the outputs of the inner stages are messages.
theorem process_sections (standard : route.handler.Standard) {outcome : Except Panic Unit}
    (ends : Ends (route.process (service.pipeline route) message) t outcome) :
    ∃ inner closing after attempts inside result,
      t = ⟨.count (.received route.name), ()⟩ :: (inner ++ closing ++ after) ∧
      Ends (service.pipeline route message) (inner ++ closing) (.ok result) ∧
      service.Passage route message attempts inner inside ∧
      (∀ x ∈ closing ++ after, x.effect.isOuter = true) ∧
      (∀ p ∈ sent (inner ++ closing), ∃ poison e, service.poison? = some poison ∧ inside = .ok (.error e) ∧
        p = ⟨poison.broker, poison.queue, message⟩) ∧
      ∀ p ∈ sent after, ∃ outputs, inside = .ok (.ok outputs) ∧ p.message ∈ outputs := by
  rcases ends_process_after ends with ⟨p, u, -, rfl, broken⟩ | ⟨handled, result, after, rfl, returned, rest⟩
  · obtain ⟨result, same⟩ := pipeline_returns broken
    cases same
  obtain ⟨inner, inside, closing, rfl, tried, wraps⟩ := ends_pipeline_inner returned
  obtain ⟨attempts, passage⟩ := Service.ends_inner tried
  obtain ⟨outer, outputs⟩ := ends_returning rest
  have quiet : sent inner = [] := by
    rw [sent, (inner_quiet standard tried).1]
    rfl
  refine ⟨inner, closing, after, attempts, inside, result, rfl, returned, passage, ?_, ?_, ?_⟩
  · intro x member
    exact (List.mem_append.mp member).elim (wraps_outer wraps x) fun late => outer x (List.mem_cons_of_mem _ late)
  · intro p member
    rw [sent_append, quiet, List.nil_append] at member
    exact wraps_letter wraps p member
  · intro p member
    obtain ⟨messages, rfl, chosen⟩ := outputs p member
    exact ⟨messages, wraps_outputs wraps rfl (List.ne_nil_of_mem chosen), chosen⟩

theorem process_batches (typed : route.handler = .typed id input output decoder encoder)
    {outcome : Except Panic Unit} (ends : Ends (route.process (service.pipeline route) message) t outcome) :
    ∃ (named : Transcript F) (received : Message) (attempts : List (Attempt F)),
      message.Correlated named received ∧
      writes t = attempts.flatMap (fun a => writes a.transcript) ∧
      (∀ a ∈ attempts, Ends (service.core route received) a.transcript a.outcome) ∧
      ∀ p ∈ sent t, (∃ poison, service.poison? = some poison ∧ p = ⟨poison.broker, poison.queue, message⟩) ∨
        ∃ earlier a outputs, attempts = earlier ++ [a] ∧ a.outcome = .ok (.ok outputs) ∧ p.message ∈ outputs := by
  have standard : route.handler.Standard := typed ▸ .typed id input output decoder encoder
  obtain ⟨inner, closing, after, attempts, inside, result, rfl, -, passage, outer, letters, outputs⟩ :=
    process_sections standard ends
  obtain ⟨named, received, correlated, -, wrote, ran, last⟩ := passage_tries passage
  have opening : Idle [(⟨.count (.received route.name), ()⟩ : Exchange F)] :=
    fun x member => List.mem_singleton.mp member ▸ rfl
  have idle : Idle (closing ++ after) := fun x member => idle_of_outer (outer x member)
  have whole : (⟨.count (.received route.name), ()⟩ : Exchange F) :: (inner ++ closing ++ after) =
      [⟨.count (.received route.name), ()⟩] ++ (inner ++ (closing ++ after)) := by simp
  refine ⟨named, received, attempts, correlated, ?_, ran, fun p member => ?_⟩
  · rw [whole, (framed_quiet opening idle inner).2.1, wrote]
  · have split : sent (⟨.count (.received route.name), ()⟩ :: (inner ++ closing ++ after)) =
        sent (inner ++ closing) ++ sent after := sent_append (inner ++ closing) after
    rw [split] at member
    rcases List.mem_append.mp member with early | late
    · obtain ⟨poison, e, found, -, letter⟩ := letters p early
      exact .inl ⟨poison, found, letter⟩
    · obtain ⟨messages, returned, chosen⟩ := outputs p late
      obtain ⟨earlier, a, split, same⟩ := last messages returned
      exact .inr ⟨earlier, a, messages, split, same, chosen⟩

end Route

theorem play_typed {id : HandlerId} {input output : F.Kind} {decoder : Codec (F.Value input)}
    {encoder : Codec (F.Value output)} {message : Message} {value : F.Value input}
    (read : decoder.decode message.payload = .ok value) (s : Surroundings F) (past : Transcript F) :
    let call : Effect F := .callTyped id input output ⟨value, message.metadata, message.uuid⟩
    let run := play s past (Handler.typed id input output decoder encoder message)
    ∃ named, run.1 = ⟨call, s past call⟩ :: named ∧
      Handler.Answers encoder message.metadata (s past call) named run.2 := by
  intro call run
  obtain ⟨reply, named, whole, answers⟩ := Handler.ends_typed_answers read (ends_play s past _)
  have asked : ∃ rest, run.1 = ⟨call, s past call⟩ :: rest := by
    simp only [run, Handler.typed, read]
    exact ⟨_, rfl⟩
  obtain ⟨rest, first⟩ := asked
  obtain ⟨same, -⟩ := List.cons_eq_cons.mp (first.symm.trans whole)
  have given : s past call = reply := eq_of_heq (Exchange.mk.inj same).2
  exact ⟨named, given ▸ whole, given ▸ answers⟩

theorem typed_batches_are_all_or_nothing {id : HandlerId} {input output : F.Kind}
    {decoder : Codec (F.Value input)} {encoder : Codec (F.Value output)} {message : Message}
    {value : F.Value input} (read : decoder.decode message.payload = .ok value) (s : Surroundings F)
    (past : Transcript F) :
    let call : Effect F := .callTyped id input output ⟨value, message.metadata, message.uuid⟩
    let reply : Reply (List (Outgoing (F.Value output))) := s past call
    let run := play s past (Handler.typed id input output decoder encoder message)
    (∃ named, run.1 = ⟨call, reply⟩ :: named ∧ ∀ x ∈ named, x.effect = .freshId) ∧
    (∀ p, reply = .panic p → run.2 = .error p) ∧
    (∀ e, reply = .error e → run.2 = .ok (.error e)) ∧
    (∀ outs, reply = .ok outs →
      ((∃ messages, run.2 = .ok (.ok messages)) ↔
        ∀ out ∈ outs, ∃ payload, encoder.encode out.value = .ok payload) ∧
      (∀ messages, run.2 = .ok (.ok messages) →
        messages.length = outs.length ∧
        List.Forall₂ (Handler.Emits encoder message.metadata) outs messages ∧
        fresh run.1 = messages.map (·.uuid) ∧
        (s.NeverRepeats [message.uuid] → (message.uuid :: messages.map (·.uuid)).Nodup)) ∧
      ∀ passed out later e, outs = passed ++ out :: later →
        (∀ o ∈ passed, ∃ payload, encoder.encode o.value = .ok payload) →
        encoder.encode out.value = .error e → run.2 = .ok (.error e)) ∧
    ∀ (service : Service F) (route : Route F), route.handler = .typed id input output decoder encoder →
      ∀ (delivered : Message) (t : Transcript F) (outcome : Except Panic Unit),
        Ends (route.process (service.pipeline route) delivered) t outcome →
        ∃ (named : Transcript F) (received : Message) (attempts : List (Attempt F)),
          delivered.Correlated named received ∧
          writes t = attempts.flatMap (fun a => writes a.transcript) ∧
          (∀ a ∈ attempts, Ends (service.core route received) a.transcript a.outcome ∧
            ∀ context passed out later e,
              (⟨.callTyped id input output context, .ok (passed ++ out :: later)⟩ : Exchange F) ∈ a.transcript →
              (∀ o ∈ passed, ∃ payload, encoder.encode o.value = .ok payload) →
              encoder.encode out.value = .error e →
              writes a.transcript = [] ∧ a.outcome = .ok (.error e)) ∧
          ∀ p ∈ sent t,
            (∃ poison, service.poison? = some poison ∧ p = ⟨poison.broker, poison.queue, delivered⟩) ∨
            ∃ earlier a outputs, attempts = earlier ++ [a] ∧ a.outcome = .ok (.ok outputs) ∧
              p.message ∈ outputs := by
  intro call reply run
  obtain ⟨named, whole, answers⟩ : ∃ named, run.1 = ⟨call, reply⟩ :: named ∧
      Handler.Answers encoder message.metadata reply named run.2 := play_typed read s past
  refine ⟨⟨named, whole, Handler.answers_named answers⟩, fun p given => Handler.answers_panic (given ▸ answers),
    fun e given => Handler.answers_error (given ▸ answers), fun outs given => ?_, ?_⟩
  · obtain ⟨result, same, encodes⟩ := Handler.answers_ok (given ▸ answers)
    simp only [same, Except.ok.injEq]
    refine ⟨Handler.encodes_iff encodes, ?_, ?_⟩
    · intro messages all
      subst all
      obtain ⟨emits, names⟩ := Handler.encodes_ok encodes
      have ids : fresh run.1 = messages.map (·.uuid) := (congrArg fresh whole).trans names
      refine ⟨emits.length_eq.symm, emits, ids, fun never => ?_⟩
      obtain ⟨distinct, apart⟩ :=
        fresh_ids_distinct never past (Handler.typed id input output decoder encoder message)
      rw [← ids]
      refine List.nodup_cons.mpr ⟨fun reused => ?_, distinct⟩
      exact apart _ reused (List.mem_append_left _ (List.mem_singleton_self _))
    · intro passed out later e split fine bad
      subst split
      exact Handler.encodes_error encodes fine bad
  · intro service route typed delivered t outcome ends
    obtain ⟨named, received, attempts, correlated, wrote, ran, sends⟩ := process_batches typed ends
    exact ⟨named, received, attempts, correlated, wrote, fun a member => ⟨ran a member,
      fun context passed out later e called fine bad => spoiled_attempt typed (ran a member) called fine bad⟩, sends⟩

-- Longer than all the known ones together.
def unheard (known : List String) : String := String.ofList ('x' :: (known.map String.toList).flatten)

theorem unheard_not_known (known : List String) : unheard known ∉ known := by
  intro member
  have within := (List.sublist_flatten_of_mem (List.mem_map_of_mem (f := String.toList) member)).length_le
  rw [unheard, String.toList_ofList, List.length_cons] at within
  exact Nat.not_succ_le_self _ within

-- A typed function whose outputs may be null returns these.
def Surroundings.maybes (outs : List (Outgoing Events.Maybe)) : Surroundings Events.family
  | past, .freshId => unheard ("m-1" :: fresh past)
  | _, .callTyped _ _ .maybe _ => .ok outs
  | past, effect => Surroundings.obliging past effect

def confirmedOrder (id : UInt32) : Outgoing Events.Maybe := ⟨some ⟨id, true⟩, none⟩

def nothing : Outgoing Events.Maybe := ⟨none, some .empty⟩

theorem null_spoils_its_batch :
    let emit outs := play (.maybes outs) [] (Handler.typed 0 Events.Kind.ping Events.Kind.maybe
      (Events.Kind.codec .ping) (Events.Kind.codec .maybe) (declaring "ping") : Program Events.family _)
    (∃ messages, (emit [confirmedOrder 7, confirmedOrder 7]).2 = .ok (.ok messages) ∧ messages.length = 2 ∧
      ("m-1" :: messages.map (·.uuid)).Nodup) ∧
    (emit [confirmedOrder 7, nothing]).2 =
      .ok (.error (.serialization "refusing to encode an empty (null) message")) := by
  have read : (Events.Kind.codec .ping).decode (declaring "ping").payload = .ok ⟨0, ""⟩ := rfl
  have encoded : ∃ payload, (Events.Kind.codec .maybe).encode (confirmedOrder 7).value = .ok payload :=
    ⟨Events.Maybe.write (some ⟨7, true⟩), rfl⟩
  have every : ∀ n, ∀ out ∈ List.replicate n (confirmedOrder 7),
      ∃ payload, (Events.Kind.codec .maybe).encode out.value = .ok payload := by
    intro n out member
    rw [(List.mem_replicate.mp member).2]
    exact encoded
  have told := fun outs => @typed_batches_are_all_or_nothing Events.family 0 Events.Kind.ping Events.Kind.maybe
    (Events.Kind.codec .ping) (Events.Kind.codec .maybe) (declaring "ping") ⟨0, ""⟩ read (.maybes outs) []
  refine ⟨?_, ?_⟩
  · obtain ⟨-, -, -, batch, -⟩ := told [confirmedOrder 7, confirmedOrder 7]
    obtain ⟨whole, messages, -⟩ := batch _ rfl
    obtain ⟨emitted, same⟩ := whole.mpr (every 2)
    obtain ⟨length, -, -, distinct⟩ := messages emitted same
    exact ⟨emitted, same, length, distinct fun past => unheard_not_known _⟩
  · obtain ⟨-, -, -, batch, -⟩ := told [confirmedOrder 7, nothing]
    obtain ⟨-, -, spoiled⟩ := batch _ rfl
    exact spoiled [confirmedOrder 7] nothing [] _ rfl (every 1) rfl

end EventPipeline

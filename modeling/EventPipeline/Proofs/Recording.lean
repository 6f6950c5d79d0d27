import EventPipeline.Proofs.Inquiries

/-!
What an attempt writes to the outbox. The handler answers first; its outputs are then written in order
until one is refused, and only if none is are they returned.
-/

set_option autoImplicit false

namespace EventPipeline

open Program Transcript

variable {F : EventFamily}

def OutboxRecord.of (output : Message) : OutboxRecord :=
  ⟨output.metadata.schema?.getD "", output.uuid, output.payload⟩

-- What is asked while outputs are recorded.
def Effect.isRecording : Effect F → Bool
  | .store .. => true
  | effect => effect.isRemark

def written (store : StoreId) (output : Message) : Write × Reply Unit := (⟨store, .of output⟩, .ok ())

-- From how the handler ended to how the attempt did, and what was written in between.
inductive Recording (store : StoreId) :
    Handler.Outcome → List (Write × Reply Unit) → Handler.Outcome → Prop where
  | panicked (p : Panic) : Recording store (.error p) [] (.error p)
  | failed (e : EventError) : Recording store (.ok (.error e)) [] (.ok (.error e))
  | stored (outputs : List Message) :
      Recording store (.ok (.ok outputs)) (outputs.map (written store)) (.ok (.ok outputs))
  | stopped (passed : List Message) (output : Message) (later : List Message) {reply : Reply Unit}
      (bad : reply ≠ .ok ()) :
      Recording store (.ok (.ok (passed ++ output :: later)))
        (passed.map (written store) ++ [(⟨store, .of output⟩, reply)])
        (reply.outcome.map fun answer => answer.map fun _ => [])

theorem ends_store {store : StoreId} {eventType messageId : String} {payload : Bytes} {t : Transcript F}
    {outcome : Except Panic (Except EventError Unit)}
    (ends : Ends (Program.store store eventType messageId payload) t outcome) :
    ∃ reply : Reply Unit, t = [⟨.store store eventType messageId payload, reply⟩] ∧
      outcome = reply.outcome :=
  (ends_ask (.store store eventType messageId payload) Reply.outcome of_reply_eq).mp ends

-- Induction on the outputs: each is written until one write fails, and that one is the last.
theorem ends_store_all {store : StoreId} {name : String} {outputs : List Message} {t : Transcript F}
    {outcome : Except Panic (Except EventError Unit)} (ends : Ends (storeAll store name outputs) t outcome) :
    (writes t = outputs.map (written store) ∧ outcome = .ok (.ok ())) ∨
      ∃ passed output later reply, outputs = passed ++ output :: later ∧ reply ≠ .ok () ∧
        writes t = passed.map (written store) ++ [(⟨store, .of output⟩, reply)] ∧
        outcome = reply.outcome := by
  induction outputs generalizing t with
  | nil =>
      obtain ⟨rfl, rfl⟩ := ends_done.mp ends
      exact .inl ⟨rfl, rfl⟩
  | cons output rest ih =>
      rcases ends_bind.mp ends with ⟨p, rfl, broken⟩ | ⟨answer, t₁, t₂, rfl, answered, ending⟩
      · obtain ⟨reply, rfl, same⟩ := ends_store broken
        refine .inr ⟨[], output, rest, reply, rfl, ?_, rfl, same⟩
        intro accepted
        subst accepted
        cases same
      · obtain ⟨reply, rfl, same⟩ := ends_store answered
        cases answer with
        | error e =>
            obtain ⟨u, rfl, last⟩ := ends_note_bind.mp ending
            obtain ⟨rfl, rfl⟩ := ends_done.mp last
            refine .inr ⟨[], output, rest, reply, rfl, ?_, rfl, same⟩
            intro accepted
            subst accepted
            cases same
        | ok _ =>
            have accepted : reply = .ok () := by
              cases reply with
              | ok _ => rfl
              | error e => cases same
              | panic p => cases same
            subst accepted
            obtain ⟨u, rfl, remaining⟩ := ends_note_bind.mp ending
            rcases ih remaining with ⟨all, rfl⟩ | ⟨passed, refused, later, reply, rfl, bad, some, rfl⟩
            · exact .inl ⟨congrArg (written store output :: ·) all, rfl⟩
            · exact .inr ⟨output :: passed, refused, later, reply, rfl, bad,
                congrArg (written store output :: ·) some, rfl⟩

theorem ends_record_with {store : StoreId} {name : String} {next : Handler F} {message : Message}
    {t : Transcript F} {outcome : Handler.Outcome}
    (ends : Ends (recordWith store name next message) t outcome) :
    ∃ called writing result, t = called ++ writing ∧ Ends (next message) called result ∧
      Recording store result (writes writing) outcome ∧
      ∀ x ∈ writing, x.effect.isRecording = true := by
  have plain : ∀ outputs, (storeAll store name outputs : Program F _).Only fun e => e.isRecording = true :=
    only_store_all (fun _ => rfl) fun _ _ _ => rfl
  rcases ends_bind.mp ends with ⟨p, rfl, broken⟩ | ⟨result, called, u, rfl, returned, ending⟩
  · exact ⟨t, [], .error p, (List.append_nil t).symm, broken, .panicked p, fun _ member => nomatch member⟩
  · cases result with
    | error e =>
        obtain ⟨rfl, rfl⟩ := ends_done.mp ending
        exact ⟨called, [], _, rfl, returned, .failed e, fun _ member => nomatch member⟩
    | ok outputs =>
        rcases ends_bind.mp ending with ⟨p, rfl, broken⟩ | ⟨answer, writing, last, rfl, stored, closing⟩
        · refine ⟨called, u, _, rfl, returned, ?_, leads_only (plain outputs) broken⟩
          rcases ends_store_all broken with ⟨-, same⟩ | ⟨passed, output, later, reply, rfl, bad, some, same⟩
          · cases same
          · have stopped := @Recording.stopped store passed output later reply bad
            rw [← same] at stopped
            rw [some]
            exact stopped
        · have writes_only := leads_only (plain outputs) stored
          rcases ends_store_all stored with ⟨all, same⟩ | ⟨passed, output, later, reply, rfl, bad, some, same⟩
          · cases same
            obtain ⟨rfl, rfl⟩ := ends_done.mp closing
            rw [List.append_nil]
            exact ⟨called, writing, _, rfl, returned, all ▸ .stored outputs, writes_only⟩
          · have stopped := @Recording.stopped store passed output later reply bad
            rw [← same, ← some] at stopped
            cases answer with
            | ok _ =>
                cases reply with
                | ok _ => exact absurd rfl bad
                | error e => cases same
                | panic p => cases same
            | error e =>
                obtain ⟨rfl, rfl⟩ := ends_done.mp closing
                rw [List.append_nil]
                exact ⟨called, writing, _, rfl, returned, stopped, writes_only⟩

-- The handler comes first, and its failure is the end of the attempt.
theorem ends_core {service : Service F} {route : Route F} {message : Message} {t : Transcript F}
    {outcome : Handler.Outcome} (ends : Ends (service.core route message) t outcome) :
    ∃ called writing result, t = called ++ writing ∧ Ends (route.handler message) called result ∧
      (∀ x ∈ writing, x.effect.isRecording = true) ∧
      ∀ e, result = .ok (.error e) → writes writing = [] ∧ outcome = .ok (.error e) := by
  unfold Service.core at ends
  cases outbox : service.outbox with
  | none =>
      rw [outbox] at ends
      exact ⟨t, [], outcome, (List.append_nil t).symm, ends, nofun, fun e failed => ⟨rfl, failed⟩⟩
  | some store =>
      rw [outbox] at ends
      obtain ⟨called, writing, result, whole, handled, recording, plain⟩ := ends_record_with ends
      refine ⟨called, writing, result, whole, handled, plain, fun e failed => ?_⟩
      subst failed
      generalize writes writing = w at recording
      cases recording with
      | failed e => exact ⟨rfl, rfl⟩

end EventPipeline

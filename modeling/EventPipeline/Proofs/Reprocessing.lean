import EventPipeline.Proofs.Intake
import EventPipeline.Proofs.Stores
import EventPipeline.Text.Hex

/-!
Passing a message again. Every pass through an outbox around a typed handler names the outputs anew, so
that the store, which tells outputs apart by their ids, takes them for others and records them again.
-/

set_option autoImplicit false

namespace EventPipeline

open Program

variable {F : EventFamily}

namespace Uuid

def hexValue (chars : List Char) : Nat :=
  chars.foldl (fun sum c => 16 * sum + (Hex.value? c).getD 0) 0

theorem value_of_digit {n : Nat} (small : n < 16) : (Hex.value? n.digitChar).getD 0 = n := by
  revert n
  decide

-- Induction on the number, as its digits are written: all but the last are those of a sixteenth.
theorem hex_value_digits (n : Nat) : hexValue (hexDigits n) = n := by
  induction n using Nat.strongRecOn with
  | ind n ih =>
      rw [hexDigits, Nat.toDigits_eq_if (by decide)]
      split
      · next small => simpa [hexValue] using value_of_digit small
      · next large =>
          have front := ih (n / 16) (Nat.div_lt_self (by omega) (by decide))
          unfold hexValue hexDigits at front
          rw [hexValue, List.foldl_append, front, List.foldl_cons, List.foldl_nil,
            value_of_digit (Nat.mod_lt _ (by decide))]
          omega

theorem hex_value_padded (width : Nat) (chars : List Char) :
    hexValue (Decimal.padLeft width chars) = hexValue chars := by
  have zeros : ∀ k, hexValue (List.replicate k '0') = 0 := by
    intro k
    induction k with
    | zero => rfl
    | succ k ih =>
        rw [List.replicate_succ', hexValue, List.foldl_append]
        unfold hexValue at ih
        rw [ih]
        rfl
  rw [Decimal.padLeft, hexValue, List.foldl_append]
  have none := zeros (width - chars.length)
  unfold hexValue at none
  rw [none]
  rfl

theorem of_nat_injective {n m : Nat} (same : ofNat n = ofNat m) : n = m := by
  have chars := congrArg String.toList same
  unfold ofNat at chars
  simp only [String.toList_append, String.toList_ofList, List.append_cancel_left_eq] at chars
  have values := congrArg hexValue chars
  rwa [hex_value_padded, hex_value_padded, hex_value_digits, hex_value_digits] at values

end Uuid

namespace World

theorem run_bind {α β : Type} (p : Program F α) (f : α → Program F β) (w : World F) :
    run (p.bind f) w =
      match run p w with
      | (.ok value, v) => run (f value) v
      | (.error q, v) => (.error q, v) := by
  induction p generalizing w with
  | done value => rfl
  | panic q => rfl
  | perform effect next ih => exact ih _ _

theorem run_perform {α : Type} (effect : Effect F) (next : effect.Answer → Program F α) (w : World F) :
    run (.perform effect next) w =
      run (next ((w.start effect).1.resume { (w.start effect).2 with clock := (w.start effect).1.wake }).1)
        ((w.start effect).1.resume { (w.start effect).2 with clock := (w.start effect).1.wake }).2 := rfl

-- How a world comes from another when so many ids are made up and these records go to a store.
structure Wrote (store : StoreId) (w : World F) (used : Nat) (records : List OutboxRecord) (v : World F) :
    Prop where
  collaborators : v.collaborators = w.collaborators
  length : v.stores.length = w.stores.length
  refused : (v.store store).refused = (w.store store).refused
  inside : (v.store store).store = records.foldl OutboxStore.insert (w.store store).store
  ids : v.ids = w.ids + used

theorem wrote_nothing {store : StoreId} {w v : World F} {used : Nat}
    (collaborators : v.collaborators = w.collaborators) (stores : v.stores = w.stores)
    (ids : v.ids = w.ids + used) : w.Wrote store used [] v := by
  refine ⟨collaborators, congrArg List.length stores, ?_, ?_, ids⟩
  · simp only [World.store, stores]
  · simp only [World.store, stores, List.foldl_nil]

theorem wrote_trans {store : StoreId} {w v after : World F} {used more : Nat}
    {first second : List OutboxRecord} (before : w.Wrote store used first v)
    (later : v.Wrote store more second after) : w.Wrote store (used + more) (first ++ second) after := by
  refine ⟨later.collaborators.trans before.collaborators, later.length.trans before.length,
    later.refused.trans before.refused, ?_, ?_⟩
  · rw [later.inside, before.inside, List.foldl_append]
  · rw [later.ids, before.ids, Nat.add_assoc]

theorem insert_unfaulted {s : FaultyStore} (unfaulted : s.refused = .none) (record : OutboxRecord) :
    s.insert record = (.ok (), { s with writes := s.writes + 1, store := s.store.insert record }) := by
  unfold FaultyStore.insert
  rw [unfaulted]
  rfl

theorem wrote_store {store : StoreId} {w : World F} (known : store < w.stores.length)
    (unfaulted : (w.store store).refused = .none) (record : OutboxRecord) :
    w.Wrote store 0 [record] (w.setStore store ((w.store store).insert record).2) := by
  have changed : (w.setStore store ((w.store store).insert record).2).store store =
      ((w.store store).insert record).2 := by rw [store_set w _ known, if_pos rfl]
  refine ⟨rfl, List.length_set, ?_, ?_, rfl⟩
  · rw [changed, insert_unfaulted unfaulted]
  · rw [changed, insert_unfaulted unfaulted]
    rfl

theorem run_store {store : StoreId} {w : World F} (unfaulted : (w.store store).refused = .none)
    (eventType messageId : String) (payload : Bytes) :
    run (Program.store store eventType messageId payload) w =
      (.ok (.ok ()), w.setStore store ((w.store store).insert ⟨eventType, messageId, payload⟩).2) := by
  have accepted : ((w.store store).insert ⟨eventType, messageId, payload⟩).1 = .ok () := by
    rw [insert_unfaulted unfaulted]
  change run (ofReply (replyOf ((w.store store).insert ⟨eventType, messageId, payload⟩).1))
    (w.setStore store ((w.store store).insert ⟨eventType, messageId, payload⟩).2) = _
  rw [accepted]
  rfl

theorem run_store_all {store : StoreId} {w : World F} (known : store < w.stores.length)
    (unfaulted : (w.store store).refused = .none) (name : String) (outputs : List Message) :
    ∃ v, run (storeAll store name outputs) w = (.ok (.ok ()), v) ∧
      w.Wrote store 0 (outputs.map OutboxRecord.of) v := by
  induction outputs generalizing w with
  | nil => exact ⟨w, rfl, wrote_nothing rfl rfl rfl⟩
  | cons output rest ih =>
      have wrote := wrote_store known unfaulted (.of output)
      let noted := (w.setStore store ((w.store store).insert (.of output)).2).record
        [.event .debug "Stored outgoing message" [("handler", name), ("message_uuid", output.uuid),
          ("event_type", output.metadata.schema?.getD "")]]
      have logged : w.Wrote store 0 [.of output] noted :=
        ⟨wrote.collaborators, wrote.length, wrote.refused, wrote.inside, wrote.ids⟩
      obtain ⟨v, ran, later⟩ := ih (w := noted) (logged.length ▸ known) (logged.refused.trans unfaulted)
      refine ⟨v, ?_, wrote_trans logged later⟩
      rw [storeAll]
      refine (run_bind _ _ w).trans ?_
      rw [run_store unfaulted]
      exact ran

end World

-- The payloads of the outputs, if all of them can be encoded.
def Codec.payloads {α : Type} (codec : Codec α) : List (Outgoing α) → Except EventError (List Bytes)
  | [] => .ok []
  | out :: rest =>
      match codec.encode out.value with
      | .error e => .error e
      | .ok payload => (codec.payloads rest).map (payload :: ·)

-- What is recorded of outputs with these payloads when their ids are made up from a number on.
def emissions (kind : F.Kind) (start : Nat) (payloads : List Bytes) : List OutboxRecord :=
  (payloads.zipIdx start).map fun entry => ⟨F.schema kind, Uuid.ofNat entry.2, entry.1⟩

theorem emissions_append (kind : F.Kind) (start : Nat) (first second : List Bytes) :
    emissions kind start (first ++ second) =
      emissions kind start first ++ emissions kind (start + first.length) second := by
  rw [emissions, List.zipIdx_append, List.map_append]
  rfl

theorem emissions_ids (kind : F.Kind) (start : Nat) (payloads : List Bytes) :
    (emissions kind start payloads).map (·.messageId) =
      (List.range' start payloads.length).map Uuid.ofNat := by
  rw [emissions, List.map_map, ← List.zipIdx_map_snd start payloads, List.map_map]
  rfl

theorem emissions_length (kind : F.Kind) (start : Nat) (payloads : List Bytes) :
    (emissions kind start payloads).length = payloads.length := by
  rw [emissions, List.length_map, List.length_zipIdx]

namespace OutboxStore

-- No record is under an id that is still to be made up.
def Unnamed (store : OutboxStore) (ids : Nat) : Prop :=
  ∀ record ∈ store.records, ∀ k ≥ ids, record.messageId ≠ Uuid.ofNat k

theorem insert_all_fresh {store : OutboxStore} {records : List OutboxRecord}
    (distinct : (records.map (·.messageId)).Nodup)
    (apart : ∀ old ∈ store.records, ∀ new ∈ records, old.messageId ≠ new.messageId) :
    records.foldl insert store = ⟨store.records ++ records⟩ := by
  induction records generalizing store with
  | nil => rw [List.append_nil]; rfl
  | cons record records ih =>
      rw [List.map_cons, List.nodup_cons] at distinct
      have unknown : ¬ store.contains record.messageId := by
        intro known
        obtain ⟨old, within, same⟩ := List.any_eq_true.mp known
        exact apart old within record List.mem_cons_self (beq_iff_eq.mp same)
      have inserted : store.insert record = ⟨store.records ++ [record]⟩ := if_neg unknown
      rw [List.append_cons, List.foldl_cons, inserted]
      refine ih distinct.2 fun old member new later => ?_
      rcases List.mem_append.mp member with within | only
      · exact apart old within new (List.mem_cons_of_mem _ later)
      · rw [List.mem_singleton.mp only]
        exact fun same => distinct.1 (same ▸ List.mem_map_of_mem later)

theorem insert_all_emissions {store : OutboxStore} {start : Nat} (unnamed : store.Unnamed start)
    (kind : F.Kind) (payloads : List Bytes) :
    (emissions kind start payloads).foldl insert store =
      ⟨store.records ++ emissions kind start payloads⟩ := by
  refine insert_all_fresh ?_ fun old member new made => ?_
  · rw [emissions_ids, List.Nodup, List.pairwise_map]
    have apart : (List.range' start payloads.length).Nodup := List.nodup_range'
    exact apart.imp fun different same => different (Uuid.of_nat_injective same)
  · have named : new.messageId ∈ (emissions kind start payloads).map (·.messageId) := List.mem_map_of_mem made
    rw [emissions_ids] at named
    obtain ⟨k, within, same⟩ := List.mem_map.mp named
    rw [← same]
    exact unnamed old member k (List.mem_range'_1.mp within).1

end OutboxStore

theorem record_of_stamped {kind : F.Kind} (uuid : String) (payload : Bytes) (inbound : Metadata)
    (out : Outgoing (F.Value kind)) :
    OutboxRecord.of ⟨uuid, payload, Handler.stamp inbound out⟩ = ⟨F.schema kind, uuid, payload⟩ := by
  have stamped : (Handler.stamp inbound out).schema? = some (F.schema kind) := Metadata.get_set_same _ _ _
  rw [OutboxRecord.of]
  simp only [stamped, Option.getD_some]

namespace World

-- Induction on the outputs. An id is made up for an output before the next one is encoded, so some may be
-- made up in vain.
theorem run_encode_all {kind : F.Kind} (codec : Codec (F.Value kind)) (inbound : Metadata) (store : StoreId)
    (outs : List (Outgoing (F.Value kind))) (w : World F) :
    (∃ payloads messages v, codec.payloads outs = .ok payloads ∧
        run (Handler.encodeAll codec inbound outs) w = (.ok (.ok messages), v) ∧
        messages.map OutboxRecord.of = emissions kind w.ids payloads ∧
        w.Wrote store payloads.length [] v) ∨
      ∃ e used v, codec.payloads outs = .error e ∧
        run (Handler.encodeAll codec inbound outs) w = (.ok (.error e), v) ∧ w.Wrote store used [] v := by
  induction outs generalizing w with
  | nil => exact .inl ⟨[], [], w, rfl, rfl, rfl, wrote_nothing rfl rfl rfl⟩
  | cons out rest ih =>
      rw [Codec.payloads, Handler.encodeAll]
      cases encoded : codec.encode out.value with
      | error e => exact .inr ⟨e, 0, w, rfl, rfl, wrote_nothing rfl rfl rfl⟩
      | ok payload =>
          have named : w.Wrote store 1 [] { w with ids := w.ids + 1 } := wrote_nothing rfl rfl rfl
          have asked : ∀ f : String → Program F (Except EventError (List Message)),
              run (freshId.bind f) w = run (f (Uuid.ofNat w.ids)) { w with ids := w.ids + 1 } := fun _ => rfl
          dsimp only
          rcases ih { w with ids := w.ids + 1 } with
            ⟨payloads, messages, v, all, ran, recorded, later⟩ | ⟨e, used, v, bad, ran, later⟩
          · refine .inl ⟨payload :: payloads,
              ⟨Uuid.ofNat w.ids, payload, Handler.stamp inbound out⟩ :: messages, v, by rw [all]; rfl,
              ?_, ?_, ?_⟩
            · refine (asked _).trans ((run_bind _ _ _).trans ?_)
              rw [ran]
              rfl
            · rw [List.map_cons, record_of_stamped, recorded]
              rfl
            · have wrote := wrote_trans named later
              rwa [Nat.add_comm] at wrote
          · refine .inr ⟨e, 1 + used, v, by rw [bad]; rfl, ?_, wrote_trans named later⟩
            refine (asked _).trans ((run_bind _ _ _).trans ?_)
            rw [ran]
            rfl

theorem run_of_reply {α : Type} (reply : Reply α) (w : World F) :
    run (ofReply reply) w = (reply.outcome, w) := by
  cases reply <;> rfl

end World

-- A typed handler whose function answers by the context alone.
def Collaborators.Functional (collaborators : Collaborators F) (id : HandlerId) (input output : F.Kind)
    (answer : HandlerContext (F.Value input) → Reply (List (Outgoing (F.Value output)))) : Prop :=
  ∀ n context ids, (collaborators.typed id n input output context).reply ids = (answer context, ids)

-- The payloads of what a message makes such a handler return.
def yields {input output : F.Kind} (decoder : Codec (F.Value input)) (encoder : Codec (F.Value output))
    (answer : HandlerContext (F.Value input) → Reply (List (Outgoing (F.Value output))))
    (message : Message) : List Bytes :=
  match decoder.decode message.payload with
  | .error _ => []
  | .ok value =>
      match answer ⟨value, message.metadata, message.uuid⟩ with
      | .ok outs => (encoder.payloads outs).toOption.getD []
      | _ => []

namespace World

section Passes

variable {id : HandlerId} {input output : F.Kind}
  {answer : HandlerContext (F.Value input) → Reply (List (Outgoing (F.Value output)))}

theorem respond_wrote {α : Type} {reply : Reply α} (w : World F) (store : StoreId) (handler : HandlerId)
    (invocation : Invocation F) (response : Response α) (replied : response.reply w.ids = (reply, w.ids)) :
    ∃ v, (w.respond handler invocation response).1.resume
        { (w.respond handler invocation response).2 with
          clock := (w.respond handler invocation response).1.wake } = (reply, v) ∧
      w.Wrote store 0 [] v := by
  refine ⟨{ w.recordCall handler invocation with clock := w.after response.pause }, ?_,
    wrote_nothing rfl rfl rfl⟩
  have ids : (w.recordCall handler invocation).ids = w.ids := rfl
  simp only [World.respond, ids, replied]

theorem run_call_typed {w : World F} (functional : w.collaborators.Functional id input output answer)
    (store : StoreId) (context : HandlerContext (F.Value input)) :
    ∃ v, run (Program.callTyped id input output context) w = ((answer context).outcome, v) ∧
      w.Wrote store 0 [] v := by
  obtain ⟨v, resumed, wrote⟩ := respond_wrote w store id (.typed input context)
    (w.collaborators.typed id (w.callsOf id) input output context) (functional _ _ _)
  refine ⟨v, ?_, wrote⟩
  have answered := congrArg (fun result : Reply (List (Outgoing (F.Value output))) × World F =>
    run (ofReply result.1) result.2) resumed
  exact ((run_perform _ _ w).trans answered).trans (run_of_reply _ v)

def pass (handler : Handler F) (message : Message) (w : World F) : World F := (run (handler message) w).2

def passes (handler : Handler F) (message : Message) : Nat → World F → World F
  | 0, w => w
  | n + 1, w => pass handler message (passes handler message n w)

variable {decoder : Codec (F.Value input)} {encoder : Codec (F.Value output)} {store : StoreId} {w : World F}

-- The cases follow the run: the decoder, the function, the encoder.
theorem run_typed (functional : w.collaborators.Functional id input output answer) (store : StoreId)
    (message : Message) :
    ∃ result used v, run (Handler.typed id input output decoder encoder message) w = (result, v) ∧
      w.Wrote store used [] v ∧
      ((∃ messages, result = .ok (.ok messages) ∧
          messages.map OutboxRecord.of = emissions output w.ids (yields decoder encoder answer message) ∧
          used = (yields decoder encoder answer message).length) ∨
        (∀ messages, result ≠ .ok (.ok messages)) ∧ yields decoder encoder answer message = []) := by
  unfold yields Handler.typed
  cases read : decoder.decode message.payload with
  | error e => exact ⟨_, 0, w, rfl, wrote_nothing rfl rfl rfl, .inr ⟨nofun, rfl⟩⟩
  | ok value =>
      obtain ⟨v, called, asked⟩ := run_call_typed functional store ⟨value, message.metadata, message.uuid⟩
      simp only
      have split := fun (f : _ → Program F (Except EventError (List Message))) => run_bind
        (Program.callTyped id input output ⟨value, message.metadata, message.uuid⟩) f w
      rw [called] at split
      cases replied : answer ⟨value, message.metadata, message.uuid⟩ with
      | error e =>
          rw [replied] at split
          exact ⟨_, 0, v, split _, asked, .inr ⟨nofun, rfl⟩⟩
      | panic p =>
          rw [replied] at split
          exact ⟨_, 0, v, split _, asked, .inr ⟨nofun, rfl⟩⟩
      | ok outs =>
          rw [replied] at split
          rcases run_encode_all encoder message.metadata store outs v with
            ⟨payloads, messages, u, all, ran, recorded, named⟩ | ⟨e, used, u, bad, ran, named⟩
          · have whole := wrote_trans asked named
            rw [Nat.zero_add] at whole
            have ids : v.ids = w.ids := asked.ids
            have yielded : (encoder.payloads outs).toOption.getD [] = payloads := by rw [all]; rfl
            rw [ids] at recorded
            have records := recorded.trans (congrArg (emissions output w.ids) yielded.symm)
            exact ⟨_, _, u, (split _).trans ran, whole,
              .inl ⟨messages, rfl, records, congrArg List.length yielded.symm⟩⟩
          · have yielded : (encoder.payloads outs).toOption.getD [] = [] := by rw [bad]; rfl
            exact ⟨_, 0 + used, u, (split _).trans ran, wrote_trans asked named, .inr ⟨nofun, yielded⟩⟩

theorem run_recorded {next : Handler F} {message : Message} {name : String} {outputs : List Message}
    {between after : World F} (ran : run (next message) w = (.ok (.ok outputs), between))
    (stored : run (storeAll store name outputs) between = (.ok (.ok ()), after)) :
    run (recordWith store name next message) w = (.ok (.ok outputs), after) := by
  refine (run_bind (next message) _ w).trans ?_
  rw [ran]
  refine (run_bind (storeAll store name outputs) _ between).trans ?_
  rw [stored]
  rfl

theorem run_unrecorded {next : Handler F} {message : Message} (store : StoreId) (name : String)
    {w : World F}
    {result : Except Panic (Except EventError (List Message))} {after : World F}
    (ran : run (next message) w = (result, after)) (failed : ∀ outputs, result ≠ .ok (.ok outputs)) :
    run (recordWith store name next message) w = (result, after) := by
  refine (run_bind (next message) _ w).trans ?_
  rw [ran]
  cases result with
  | error p => rfl
  | ok answer =>
      cases answer with
      | error e => rfl
      | ok outputs => exact absurd rfl (failed outputs)

theorem pass_wrote (functional : w.collaborators.Functional id input output answer)
    (known : store < w.stores.length) (unfaulted : (w.store store).refused = .none) (name : String)
    (message : Message) :
    ∃ used, (yields decoder encoder answer message ≠ [] →
        used = (yields decoder encoder answer message).length) ∧
      w.Wrote store used (emissions output w.ids (yields decoder encoder answer message))
        (pass (recordWith store name (.typed id input output decoder encoder)) message w) := by
  obtain ⟨result, used, between, ran, wrote, fate⟩ :=
    @run_typed _ id input output answer decoder encoder w functional store message
  unfold pass
  rcases fate with ⟨messages, rfl, recorded, count⟩ | ⟨failed, nothing⟩
  · obtain ⟨after, stored, later⟩ :=
      run_store_all (wrote.length ▸ known) (wrote.refused.trans unfaulted) name messages
    have whole := wrote_trans wrote later
    rw [recorded, Nat.add_zero] at whole
    rw [run_recorded ran stored]
    exact ⟨used, fun _ => count, whole⟩
  · rw [run_unrecorded store name ran failed, nothing]
    exact ⟨used, fun something => absurd rfl something, wrote⟩

-- Induction on the number of passes: each takes up the ids where the one before it left off.
theorem passes_wrote (functional : w.collaborators.Functional id input output answer)
    (known : store < w.stores.length) (unfaulted : (w.store store).refused = .none) (name : String)
    (message : Message) (n : Nat) :
    ∃ used, (yields decoder encoder answer message ≠ [] →
        used = n * (yields decoder encoder answer message).length) ∧
      w.Wrote store used
        (emissions output w.ids (List.replicate n (yields decoder encoder answer message)).flatten)
        (passes (recordWith store name (.typed id input output decoder encoder)) message n w) := by
  induction n with
  | zero => exact ⟨0, fun _ => (Nat.zero_mul _).symm, wrote_nothing rfl rfl rfl⟩
  | succ n ih =>
      obtain ⟨used, count, before⟩ := ih
      obtain ⟨more, again, later⟩ := @pass_wrote _ id input output answer decoder encoder store _
        (before.collaborators ▸ functional) (before.length ▸ known) (before.refused.trans unfaulted) name
        message
      refine ⟨used + more, ?_, ?_⟩
      · intro something
        rw [count something, again something, Nat.succ_mul]
      · have whole := wrote_trans before later
        rw [List.replicate_succ', List.flatten_append, List.flatten_singleton, emissions_append]
        by_cases nothing : yields decoder encoder answer message = []
        · rw [nothing] at whole ⊢
          exact whole
        · rw [before.ids, count nothing] at whole
          rw [count nothing, List.length_flatten, List.map_replicate, List.sum_replicate_nat]
          exact whole

theorem passes_records (functional : w.collaborators.Functional id input output answer)
    (known : store < w.stores.length) (unfaulted : (w.store store).refused = .none)
    (unused : (w.store store).store.Unnamed w.ids) (name : String) (message : Message) (n : Nat) :
    ((passes (recordWith store name (.typed id input output decoder encoder)) message n w).store
        store).store.records =
      (w.store store).store.records ++
        emissions output w.ids (List.replicate n (yields decoder encoder answer message)).flatten := by
  obtain ⟨used, count, wrote⟩ :=
    @passes_wrote _ id input output answer decoder encoder store w functional known unfaulted name message n
  rw [wrote.inside, OutboxStore.insert_all_emissions unused]

end Passes

end World

section Records

variable {id : HandlerId} {input output : F.Kind}
  {answer : HandlerContext (F.Value input) → Reply (List (Outgoing (F.Value output)))}
  {decoder : Codec (F.Value input)} {encoder : Codec (F.Value output)} {store : StoreId} {w : World F}

theorem every_pass_records_anew (functional : w.collaborators.Functional id input output answer)
    (known : store < w.stores.length) (unfaulted : (w.store store).refused = .none)
    (unnamed : (w.store store).store.Unnamed w.ids) (name : String) (message : Message) :
    let records := fun n => ((World.passes (recordWith store name (.typed id input output decoder encoder))
      message n w).store store).store.records
    (∀ n, records n = (w.store store).store.records ++ emissions output w.ids
        (List.replicate n (yields decoder encoder answer message)).flatten) ∧
      ∀ n ≥ 1, records n = records 1 ↔ n = 1 ∨ yields decoder encoder answer message = [] := by
  intro records
  have all : ∀ n, records n = (w.store store).store.records ++ emissions output w.ids
      (List.replicate n (yields decoder encoder answer message)).flatten :=
    fun n => World.passes_records functional known unfaulted unnamed name message n
  refine ⟨all, fun n _ => ⟨fun same => ?_, ?_⟩⟩
  · rw [all, all, List.append_cancel_left_eq] at same
    have count := congrArg List.length same
    simp only [emissions_length, List.length_flatten, List.map_replicate, List.sum_replicate_nat,
      Nat.one_mul] at count
    by_cases nothing : yields decoder encoder answer message = []
    · exact .inr nothing
    · exact .inl (Nat.eq_of_mul_eq_mul_right (List.length_pos_iff.mpr nothing) (by omega))
  · rintro (rfl | nothing)
    · rfl
    · rw [all, all, nothing, List.flatten_replicate_nil, List.flatten_replicate_nil]

end Records

-- Orders that are confirmed as they are placed.
def confirm : (input output : Events.Kind) → HandlerContext input.Value → Reply (List (Outgoing output.Value))
  | .orderPlaced, .orderConfirmed, context => .ok [⟨⟨context.payload.id, true⟩, none⟩]
  | _, _, _ => .ok []

def confirming : Collaborators Events.family where
  raw _ _ message := ⟨.zero, fun ids => (.ok [message], ids)⟩
  typed _ _ input output context := ⟨.zero, fun ids => (confirm input output context, ids)⟩
  validate _ _ := .ok ()
  classify _ _ := .ok false

def confirmingWorld : World Events.family := .create confirming [] [.create .none]

def confirmingStage : Handler Events.family :=
  recordWith 0 "orders" (.typed 0 Events.Kind.orderPlaced Events.Kind.orderConfirmed
    (Events.Kind.codec .orderPlaced) (Events.Kind.codec .orderConfirmed))

def placedOrder : Message := ⟨"m-1", Utf8.encode "\x7b\"id\":7\x7d".toList, .empty⟩

def confirmedPayload : Bytes := Utf8.encode "\x7b\"id\":7,\"confirmed\":true\x7d".toList

def confirmation (uuid : String) : OutboxRecord := ⟨"order_confirmed", uuid, confirmedPayload⟩

theorem confirmations_pile_up :
    confirmingWorld.collaborators.Functional 0 Events.Kind.orderPlaced Events.Kind.orderConfirmed
        (confirm .orderPlaced .orderConfirmed) ∧
      0 < confirmingWorld.stores.length ∧ (confirmingWorld.store 0).refused = .none ∧
      (confirmingWorld.store 0).store.Unnamed 0 ∧
      ∀ n, ((World.passes confirmingStage placedOrder n confirmingWorld).store 0).store.records =
        emissions (F := Events.family) Events.Kind.orderConfirmed 0
          (List.replicate n confirmedPayload) := by
  have functional : confirmingWorld.collaborators.Functional 0 Events.Kind.orderPlaced
      Events.Kind.orderConfirmed (confirm .orderPlaced .orderConfirmed) := fun _ _ _ => rfl
  have unnamed : (confirmingWorld.store 0).store.Unnamed 0 := nofun
  have yielded : @yields Events.family Events.Kind.orderPlaced Events.Kind.orderConfirmed
      (Events.Kind.codec .orderPlaced) (Events.Kind.codec .orderConfirmed)
      (confirm .orderPlaced .orderConfirmed) placedOrder = [confirmedPayload] := by rfl
  refine ⟨functional, by decide, rfl, unnamed, fun n => ?_⟩
  obtain ⟨all, -⟩ := @every_pass_records_anew _ _ _ _ _ (Events.Kind.codec .orderPlaced)
    (Events.Kind.codec .orderConfirmed) 0 confirmingWorld functional (by decide) rfl unnamed "orders"
    placedOrder
  refine (all n).trans ?_
  rw [yielded, List.flatten_replicate_singleton]
  rfl

theorem second_confirmation_is_recorded :
    confirming.Functional 0 Events.Kind.orderPlaced Events.Kind.orderConfirmed
        (confirm .orderPlaced .orderConfirmed) ∧
      (confirmingWorld.store 0).refused = .none ∧
      ((World.passes confirmingStage placedOrder 1 confirmingWorld).store 0).store.records =
        [confirmation (Uuid.ofNat 0)] ∧
      ((World.passes confirmingStage placedOrder 2 confirmingWorld).store 0).store.records =
        [confirmation (Uuid.ofNat 0), confirmation (Uuid.ofNat 1)] :=
  ⟨fun _ _ _ => rfl, rfl, by rfl, by rfl⟩

end EventPipeline

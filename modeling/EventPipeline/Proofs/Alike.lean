import EventPipeline.Proofs.Transcript
import EventPipeline.Text.Uuid
import Mathlib.Data.List.Forall2

/-!
Alike up to generated identifiers. Two messages are alike when they differ at most where both carry an
identifier that was made up on the way. Programs are alike when they ask alike questions and, given
alike answers, go on alike; then so are their transcripts.
-/

set_option autoImplicit false

namespace EventPipeline

variable {F : EventFamily} {α β γ δ : Type}

def Uuid.Generated (text : String) : Prop := ∃ n, text = Uuid.ofNat n

def AlikeText (a b : String) : Prop := a = b ∨ Uuid.Generated a ∧ Uuid.Generated b

def AlikeEntry (a b : String × String) : Prop := a.1 = b.1 ∧ AlikeText a.2 b.2

def Metadata.Alike (a b : Metadata) : Prop := List.Forall₂ AlikeEntry a.entries b.entries

structure Message.Alike (m n : Message) : Prop where
  uuid : AlikeText m.uuid n.uuid
  payload : m.payload = n.payload
  metadata : m.metadata.Alike n.metadata

-- One bag seen by two runs, each of which may have correlated it with an identifier of its own.
inductive Metadata.Twin : Metadata → Metadata → Prop where
  | same (bag : Metadata) : Twin bag bag
  | correlated (bag : Metadata) {a b : String} (first : Uuid.Generated a) (second : Uuid.Generated b) :
      Twin (bag.set correlationKey a) (bag.set correlationKey b)

structure Message.Twin (m n : Message) : Prop where
  uuid : m.uuid = n.uuid
  payload : m.payload = n.payload
  metadata : m.metadata.Twin n.metadata

theorem alike_text_refl (text : String) : AlikeText text text := .inl rfl

theorem alike_entries_refl (entries : List (String × String)) : List.Forall₂ AlikeEntry entries entries := by
  induction entries with
  | nil => exact .nil
  | cons entry rest ih => exact .cons ⟨rfl, alike_text_refl _⟩ ih

theorem alike_put {entries others : List (String × String)} (alike : List.Forall₂ AlikeEntry entries others)
    (key : String) {a b : String} (values : AlikeText a b) :
    List.Forall₂ AlikeEntry (Entries.put key a entries) (Entries.put key b others) := by
  induction alike with
  | nil => exact .cons ⟨rfl, values⟩ .nil
  | @cons entry other rest remaining first later ih =>
      unfold Entries.put
      rw [← first.1]
      split
      · exact .cons ⟨rfl, values⟩ (.cons first later)
      · split
        · exact .cons ⟨rfl, values⟩ later
        · exact .cons first ih

theorem alike_set {bag other : Metadata} (alike : bag.Alike other) (key : String) {a b : String}
    (values : AlikeText a b) : (bag.set key a).Alike (other.set key b) := alike_put alike key values

theorem alike_find {entries others : List (String × String)} (alike : List.Forall₂ AlikeEntry entries others)
    (key : String) :
    Option.Rel AlikeText ((entries.find? fun entry => entry.1 == key).map (·.2))
      ((others.find? fun entry => entry.1 == key).map (·.2)) := by
  induction alike with
  | nil => exact .none
  | @cons entry other rest remaining first later ih =>
      rw [List.find?_cons, List.find?_cons, ← first.1]
      cases entry.1 == key with
      | true => exact .some first.2
      | false => exact ih

theorem alike_schema {bag other : Metadata} (alike : bag.Alike other) :
    AlikeText (bag.schema?.getD "") (other.schema?.getD "") := by
  have related : Option.Rel AlikeText bag.schema? other.schema? := alike_find alike Metadata.schemaKey
  generalize bag.schema? = first at related ⊢
  generalize other.schema? = second at related ⊢
  cases related with
  | none => exact alike_text_refl ""
  | some same => exact same

theorem twin_bags_alike {bag other : Metadata} (twin : bag.Twin other) : bag.Alike other := by
  cases twin with
  | same => exact alike_entries_refl _
  | correlated bag first second => exact alike_set (alike_entries_refl bag.entries) _ (.inr ⟨first, second⟩)

theorem twin_bags_schema {bag other : Metadata} (twin : bag.Twin other) : bag.schema? = other.schema? := by
  cases twin with
  | same => rfl
  | correlated bag first second =>
      rw [Metadata.schema_set_correlation, Metadata.schema_set_correlation]

theorem twin_refl (m : Message) : m.Twin m := ⟨rfl, rfl, .same _⟩

theorem alike_refl (m : Message) : m.Alike m := ⟨alike_text_refl _, rfl, alike_entries_refl _⟩

abbrev AlikeMessages : List Message → List Message → Prop := List.Forall₂ Message.Alike

structure HandlerContext.Twin {α : Type} (c d : HandlerContext α) : Prop where
  payload : c.payload = d.payload
  metadata : c.metadata.Twin d.metadata
  messageId : c.messageId = d.messageId

structure Outgoing.Alike {α : Type} (a b : Outgoing α) : Prop where
  value : a.value = b.value
  metadata : Option.Rel Metadata.Alike a.metadata b.metadata

inductive ResultAlike (R : α → β → Prop) : Except EventError α → Except EventError β → Prop where
  | ok {a : α} {b : β} (related : R a b) : ResultAlike R (.ok a) (.ok b)
  | error (e : EventError) : ResultAlike R (.error e) (.error e)

inductive Reply.Alike (R : α → β → Prop) : Reply α → Reply β → Prop where
  | ok {a : α} {b : β} (related : R a b) : Alike R (.ok a) (.ok b)
  | error (e : EventError) : Alike R (.error e) (.error e)
  | panic (p : Panic) : Alike R (.panic p) (.panic p)

theorem alike_text_symm {a b : String} (alike : AlikeText a b) : AlikeText b a :=
  alike.imp Eq.symm And.symm

theorem alike_text_trans {a b c : String} (first : AlikeText a b) (second : AlikeText b c) :
    AlikeText a c := by
  rcases first with rfl | ⟨made, same⟩
  · exact second
  · rcases second with rfl | ⟨-, last⟩
    · exact .inr ⟨made, same⟩
    · exact .inr ⟨made, last⟩

section Related

variable {R : α → α → Prop} (symm : ∀ a b, R a b → R b a) (trans : ∀ a b c, R a b → R b c → R a c)

include trans in
theorem related_trans {k l m : List α} (first : List.Forall₂ R k l) (second : List.Forall₂ R l m) :
    List.Forall₂ R k m := by
  induction first generalizing m with
  | nil => exact second
  | cons here later ih =>
      cases second with
      | cons here₂ later₂ => exact .cons (trans _ _ _ here here₂) (ih later₂)

include symm in
theorem option_symm {x y : Option α} (related : Option.Rel R x y) : Option.Rel R y x := by
  cases related with
  | none => exact .none
  | some same => exact .some (symm _ _ same)

include trans in
theorem option_trans {x y z : Option α} (first : Option.Rel R x y) (second : Option.Rel R y z) :
    Option.Rel R x z := by
  cases first with
  | none => exact second
  | some same =>
      cases second with
      | some same₂ => exact .some (trans _ _ _ same same₂)

include symm in
theorem reply_symm {x y : Reply α} (related : Reply.Alike R x y) : Reply.Alike R y x := by
  cases related with
  | ok same => exact .ok (symm _ _ same)
  | error e => exact .error e
  | panic p => exact .panic p

include trans in
theorem reply_trans {x y z : Reply α} (first : Reply.Alike R x y) (second : Reply.Alike R y z) :
    Reply.Alike R x z := by
  cases first with
  | ok same =>
      cases second with
      | ok same₂ => exact .ok (trans _ _ _ same same₂)
  | error e => exact second
  | panic p => exact second

include symm trans in
theorem reply_chain {w x y z : Reply α} (first : Reply.Alike R w x) (between : Reply.Alike R x y)
    (last : Reply.Alike R z y) : Reply.Alike R w z :=
  reply_trans trans (reply_trans trans first between) (reply_symm symm last)

end Related

theorem alike_bag_symm {a b : Metadata} (alike : a.Alike b) : b.Alike a :=
  alike.flip.imp fun _ _ same => ⟨same.1.symm, alike_text_symm same.2⟩

theorem alike_bag_trans {a b c : Metadata} (first : a.Alike b) (second : b.Alike c) : a.Alike c :=
  related_trans (fun _ _ _ x y => ⟨x.1.trans y.1, alike_text_trans x.2 y.2⟩) first second

theorem alike_messages_symm {m n : List Message} (alike : AlikeMessages m n) : AlikeMessages n m :=
  alike.flip.imp fun _ _ same =>
    ⟨alike_text_symm same.uuid, same.payload.symm, alike_bag_symm same.metadata⟩

theorem alike_messages_trans {k m n : List Message} (first : AlikeMessages k m)
    (second : AlikeMessages m n) : AlikeMessages k n :=
  related_trans (fun _ _ _ x y => ⟨alike_text_trans x.uuid y.uuid, x.payload.trans y.payload,
    alike_bag_trans x.metadata y.metadata⟩) first second

theorem alike_outgoing_symm {a b : List (Outgoing α)} (alike : List.Forall₂ Outgoing.Alike a b) :
    List.Forall₂ Outgoing.Alike b a :=
  alike.flip.imp fun _ _ same => ⟨same.value.symm, option_symm @alike_bag_symm same.metadata⟩

theorem alike_outgoing_trans {a b c : List (Outgoing α)} (first : List.Forall₂ Outgoing.Alike a b)
    (second : List.Forall₂ Outgoing.Alike b c) : List.Forall₂ Outgoing.Alike a c :=
  related_trans (fun _ _ _ x y => ⟨x.value.trans y.value, option_trans @alike_bag_trans
    x.metadata y.metadata⟩) first second

-- What is logged may differ at will.
inductive Exchange.Alike : Exchange F → Exchange F → Prop where
  | freshId {a b : String} (first : Uuid.Generated a) (second : Uuid.Generated b) :
      Alike ⟨.freshId, a⟩ ⟨.freshId, b⟩
  | sleep (duration : Duration) : Alike ⟨.sleep duration, ()⟩ ⟨.sleep duration, ()⟩
  | note (record other : TraceRecord) : Alike ⟨.note record, ()⟩ ⟨.note other, ()⟩
  | count (measurement : Measurement) : Alike ⟨.count measurement, ()⟩ ⟨.count measurement, ()⟩
  | publish (broker : BrokerId) (queue : String) {m n : Message} (alike : m.Alike n) (reply : Reply Unit) :
      Alike ⟨.publish broker queue m, reply⟩ ⟨.publish broker queue n, reply⟩
  | settle (broker : BrokerId) (settlement : Settlement) (reply : Reply Unit) :
      Alike ⟨.settle broker settlement, reply⟩ ⟨.settle broker settlement, reply⟩
  | store (id : StoreId) {type type₂ messageId messageId₂ : String} (payload : Bytes)
      (types : AlikeText type type₂) (ids : AlikeText messageId messageId₂) (reply : Reply Unit) :
      Alike ⟨.store id type messageId payload, reply⟩ ⟨.store id type₂ messageId₂ payload, reply⟩
  | validate (validator : ValidatorId) (event : DecodedEvent F) (reply : Reply Unit) :
      Alike ⟨.validate validator event, reply⟩ ⟨.validate validator event, reply⟩
  | classify (classifier : ClassifierId) (e : EventError) (verdict : Except Panic Bool) :
      Alike ⟨.classify classifier e, verdict⟩ ⟨.classify classifier e, verdict⟩
  | callRaw (handler : HandlerId) {m n : Message} (twin : m.Twin n) {reply reply₂ : Reply (List Message)}
      (replies : Reply.Alike AlikeMessages reply reply₂) :
      Alike ⟨.callRaw handler m, reply⟩ ⟨.callRaw handler n, reply₂⟩
  | callTyped (handler : HandlerId) (input output : F.Kind) {c d : HandlerContext (F.Value input)}
      (twin : c.Twin d) {reply reply₂ : Reply (List (Outgoing (F.Value output)))}
      (replies : Reply.Alike (List.Forall₂ Outgoing.Alike) reply reply₂) :
      Alike ⟨.callTyped handler input output c, reply⟩ ⟨.callTyped handler input output d, reply₂⟩

def Effect.Alike (effect other : Effect F) : Prop :=
  ∃ answer answer₂, Exchange.Alike ⟨effect, answer⟩ ⟨other, answer₂⟩

namespace Program

inductive Alike (R : α → β → Prop) : Program F α → Program F β → Prop where
  | done {a : α} {b : β} (related : R a b) : Alike R (.done a) (.done b)
  | panic (p : Panic) : Alike R (.panic p) (.panic p)
  | perform {effect other : Effect F} {next : effect.Answer → Program F α}
      {next₂ : other.Answer → Program F β} (asked : effect.Alike other)
      (later : ∀ answer answer₂, Exchange.Alike ⟨effect, answer⟩ ⟨other, answer₂⟩ →
        Alike R (next answer) (next₂ answer₂)) :
      Alike R (.perform effect next) (.perform other next₂)

theorem alike_bind {R : α → β → Prop} {S : γ → δ → Prop} {p : Program F α} {q : Program F β}
    (alike : Alike R p q) {f : α → Program F γ} {g : β → Program F δ}
    (later : ∀ a b, R a b → Alike S (f a) (g b)) : Alike S (p.bind f) (q.bind g) := by
  induction alike with
  | done related => exact later _ _ related
  | panic p => exact .panic p
  | perform asked _ ih => exact .perform asked ih

theorem alike_catch_panic {R : α → β → Prop} {p : Program F α} {q : Program F β} (alike : Alike R p q)
    {f : Panic → Program F α} {g : Panic → Program F β} (caught : ∀ p, Alike R (f p) (g p)) :
    Alike R (p.catchPanic f) (q.catchPanic g) := by
  induction alike with
  | done related => exact .done related
  | panic p => exact caught p
  | perform asked _ ih => exact .perform asked ih

theorem alike_of_reply {R : α → β → Prop} {reply : Reply α} {reply₂ : Reply β}
    (alike : Reply.Alike R reply reply₂) :
    Alike (ResultAlike R) (ofReply reply : Program F _) (ofReply reply₂) := by
  cases alike with
  | ok related => exact .done (.ok related)
  | error e => exact .done (.error e)
  | panic p => exact .panic p

theorem alike_reply_refl (reply : Reply Unit) : Reply.Alike (fun _ _ : Unit => True) reply reply := by
  cases reply with
  | ok _ => exact .ok trivial
  | error e => exact .error e
  | panic p => exact .panic p

theorem alike_note (record other : TraceRecord) :
    Alike (fun _ _ => True) (note record : Program F Unit) (note other) :=
  .perform ⟨(), (), .note record other⟩ fun _ _ _ => .done trivial

theorem alike_count (measurement : Measurement) :
    Alike (fun _ _ => True) (count measurement : Program F Unit) (count measurement) :=
  .perform ⟨(), (), .count measurement⟩ fun _ _ _ => .done trivial

theorem alike_sleep (duration : Duration) :
    Alike (fun _ _ => True) (sleep duration : Program F Unit) (sleep duration) :=
  .perform ⟨(), (), .sleep duration⟩ fun _ _ _ => .done trivial

theorem alike_fresh_id :
    Alike AlikeText (freshId : Program F String) freshId := by
  refine .perform ⟨Uuid.ofNat 0, Uuid.ofNat 0, .freshId ⟨0, rfl⟩ ⟨0, rfl⟩⟩ fun a b same => ?_
  cases same with
  | freshId first second => exact .done (.inr ⟨first, second⟩)

abbrev AlikeUnit : Except EventError Unit → Except EventError Unit → Prop :=
  ResultAlike fun _ _ => True

theorem alike_publish (broker : BrokerId) (queue : String) {m n : Message} (alike : m.Alike n) :
    Alike AlikeUnit (publish broker queue m : Program F _) (publish broker queue n) := by
  refine .perform ⟨.ok (), .ok (), .publish broker queue alike _⟩ fun a b same => ?_
  cases same
  exact alike_of_reply (alike_reply_refl _)

theorem alike_settle (broker : BrokerId) (settlement : Settlement) :
    Alike AlikeUnit (settle broker settlement : Program F _) (settle broker settlement) := by
  refine .perform ⟨.ok (), .ok (), .settle broker settlement _⟩ fun a b same => ?_
  cases same
  exact alike_of_reply (alike_reply_refl _)

theorem alike_store (id : StoreId) {type type₂ messageId messageId₂ : String} (payload : Bytes)
    (types : AlikeText type type₂) (ids : AlikeText messageId messageId₂) :
    Alike AlikeUnit (store id type messageId payload : Program F _) (store id type₂ messageId₂ payload) := by
  refine .perform ⟨.ok (), .ok (), .store id payload types ids _⟩ fun a b same => ?_
  cases same
  exact alike_of_reply (alike_reply_refl _)

theorem alike_validate (validator : ValidatorId) (event : DecodedEvent F) :
    Alike AlikeUnit (validate validator event) (validate validator event) := by
  refine .perform ⟨.ok (), .ok (), .validate validator event _⟩ fun a b same => ?_
  cases same
  exact alike_of_reply (alike_reply_refl _)

theorem alike_classify (classifier : ClassifierId) (e : EventError) :
    Alike (· = ·) (classify classifier e : Program F Bool) (classify classifier e) := by
  refine .perform ⟨.ok true, .ok true, .classify classifier e _⟩ fun (a : Except Panic Bool) b same => ?_
  cases same
  cases a with
  | ok hopeless => exact .done rfl
  | error p => exact .panic p

theorem alike_call_raw (handler : HandlerId) {m n : Message} (twin : m.Twin n) :
    Alike (ResultAlike AlikeMessages) (callRaw handler m : Program F _) (callRaw handler n) := by
  refine .perform ⟨.ok [], .ok [], .callRaw handler twin (.ok .nil)⟩ fun a b same => ?_
  cases same with
  | callRaw _ _ replies => exact alike_of_reply replies

theorem alike_call_typed (handler : HandlerId) (input output : F.Kind) {c d : HandlerContext (F.Value input)}
    (twin : c.Twin d) :
    Alike (ResultAlike (List.Forall₂ Outgoing.Alike)) (callTyped handler input output c)
      (callTyped handler input output d) := by
  refine .perform ⟨.ok [], .ok [], .callTyped handler input output twin (.ok .nil)⟩ fun a b same => ?_
  cases same with
  | callTyped _ _ _ _ replies => exact alike_of_reply replies

end Program

end EventPipeline

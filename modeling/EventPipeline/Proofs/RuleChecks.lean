import EventPipeline.Proofs.RoundTrips
import EventPipeline.Proofs.Settlement
import EventPipeline.Rules
import EventPipeline.World.Basic

/-!
Rules in the check of a schema. Of the rules that are bound to a schema the last one counts, and it counts for
every payload of the schema: one of another kind than its own does not slip through. Rules that are bound to
other schemas have no say.
-/

set_option autoImplicit false

namespace EventPipeline

open Program

variable {F : EventFamily}

theorem DecodedEvent.as_some_iff {event : DecodedEvent F} {kind : F.Kind} {value : F.Value kind} :
    event.as? kind = some value ↔ event = ⟨kind, value⟩ := by
  obtain ⟨own, content⟩ := event
  unfold as?
  split
  · next same =>
      cases same
      simp
  · next different =>
      refine ⟨nofun, fun same => ?_⟩
      cases same
      exact absurd rfl different

-- The value is of the kind of the rule, and the rule has nothing against it.
def Rule.Accepts (rule : Rule F) (event : DecodedEvent F) : Prop :=
  ∃ value, event = ⟨rule.kind, value⟩ ∧ rule.objection? value = none

namespace RulesValidator

def ofRules (rules : List (Rule F)) : RulesValidator F := rules.foldl add .empty

-- The rules that are bound to a schema, the oldest first.
def bound (rules : List (Rule F)) (schema : String) : List (Rule F) :=
  rules.filter fun rule => F.schema rule.kind == schema

def Approves (rules : List (Rule F)) (event : DecodedEvent F) : Prop :=
  bound rules event.schema = [] ∨ ∃ rule, (bound rules event.schema).getLast? = some rule ∧ rule.Accepts event

theorem rules_kept (rules : List (Rule F)) : (ofRules rules).rules = rules := by
  suffices added : ∀ validator : RulesValidator F, (rules.foldl add validator).rules = validator.rules ++ rules from
    added .empty
  induction rules with
  | nil => exact fun validator => (List.append_nil _).symm
  | cons rule rest ih =>
      intro validator
      rw [List.foldl_cons, ih, add, List.append_assoc, List.singleton_append]

theorem last_rule (rules : List (Rule F)) (schema : String) :
    (ofRules rules).rule? schema = (bound rules schema).getLast? := by
  rw [rule?, rules_kept, bound, ← List.head?_reverse, ← List.filter_reverse, List.head?_filter]

section Verdict

variable {rules : List (Rule F)} {event : DecodedEvent F}

theorem validate_ok_iff : (ofRules rules).validate event = .ok () ↔ Approves rules event := by
  unfold validate Approves
  rw [last_rule]
  cases last : (bound rules event.schema).getLast? with
  | none => simp [List.getLast?_eq_none_iff.mp last]
  | some rule =>
      have present : bound rules event.schema ≠ [] := fun none => by simp [none] at last
      cases read : event.as? rule.kind with
      | none =>
          have foreign : ¬ rule.Accepts event := by
            rintro ⟨value, same, -⟩
            cases read.symm.trans (DecodedEvent.as_some_iff.mpr same)
          simp [present, foreign, read]
      | some value =>
          have same := DecodedEvent.as_some_iff.mp read
          have accepts : rule.Accepts event ↔ rule.objection? value = none := by
            refine ⟨?_, fun fine => ⟨value, same, fine⟩⟩
            rintro ⟨other, again, fine⟩
            cases same.symm.trans again
            exact fine
          cases verdict : rule.objection? value <;> simp [present, accepts, read, verdict]

theorem validate_refusal {e : EventError} (refused : (ofRules rules).validate event = .error e) :
    ∃ text, e = .validation text := by
  unfold validate at refused
  repeat' split at refused
  all_goals cases refused
  all_goals exact ⟨_, rfl⟩

-- Only the rules that are bound to the schema of the event are looked at.
theorem validate_bound {others : List (Rule F)} (same : bound others event.schema = bound rules event.schema) :
    (ofRules others).validate event = (ofRules rules).validate event := by
  unfold validate
  rw [last_rule, last_rule, same]

end Verdict

end RulesValidator

-- This validator is one with these rules.
def Surroundings.Rules (s : Surroundings F) (id : ValidatorId) (rules : List (Rule F)) : Prop :=
  ∀ past event, s past (.validate id event) = World.replyOf ((RulesValidator.ofRules rules).validate event)

namespace SchemaValidation

def Questions (t : Transcript F) : Prop := ∀ x ∈ t, ∃ id event, x.effect = .validate id event

-- After its questions the stage is no more than the handler behind it.
def LetsThrough (validation : SchemaValidation F) (s : Surroundings F) (past : Transcript F) (name : String)
    (message : Message) : Prop :=
  ∃ asked, Questions asked ∧ ∀ next : Handler F, play s past (validation.wrap name next message) =
    (asked ++ (play s (past ++ asked) (next message)).1, (play s (past ++ asked) (next message)).2)

-- After its questions the stage is done, whatever the handler behind it.
def Rejects (validation : SchemaValidation F) (s : Surroundings F) (past : Transcript F) (name : String)
    (message : Message) (e : EventError) : Prop :=
  ∃ asked, Questions asked ∧ ∀ next : Handler F, play s past (validation.wrap name next message) =
    (asked, .ok (.error e))

section Stage

variable {validation : SchemaValidation F} {s : Surroundings F} {past : Transcript F} {name schema : String}
  {message : Message} {entry : SchemaEntry F}

theorem not_both {e : EventError} (lets : validation.LetsThrough s past name message) :
    ¬ validation.Rejects s past name message e := by
  intro rejects
  obtain ⟨asked, -, through⟩ := lets
  obtain ⟨others, -, back⟩ := rejects
  have same := (through fun _ => .panic .unknown).symm.trans (back fun _ => .panic .unknown)
  cases (Prod.mk.inj same).2

theorem rejects_unique {e other : EventError} (rejects : validation.Rejects s past name message e)
    (again : validation.Rejects s past name message other) : e = other := by
  obtain ⟨asked, -, back⟩ := rejects
  obtain ⟨others, -, back₂⟩ := again
  have same := (back fun _ => .panic .unknown).symm.trans (back₂ fun _ => .panic .unknown)
  cases (Prod.mk.inj same).2
  rfl

theorem rejects_unread (declared : message.metadata.schema? = some schema)
    (found : validation.registry.lookup schema = some entry) {e : EventError}
    (unread : entry.decoder message.payload = .error e) :
    validation.Rejects s past name message (.unprocessable message.payload (some schema)
      ("payload does not decode as '" ++ schema ++ "'") (.error e)) := by
  refine ⟨[], nofun, fun next => ?_⟩
  have undecoded : entry.decode message.payload = .error e := by rw [SchemaEntry.decode, unread]; rfl
  simp only [wrap, declared, check, found, undecoded]
  rfl

theorem wrap_asks (declared : message.metadata.schema? = some schema)
    (found : validation.registry.lookup schema = some entry) {value : F.Value entry.kind}
    (read : entry.decoder message.payload = .ok value) {id : ValidatorId} (guarded : validation.validator = some id)
    (next : Handler F) :
    validation.wrap name next message = (Program.validate id ⟨entry.kind, value⟩).bind fun
      | .ok () => next message
      | .error e => .done (.error (.unprocessable message.payload (some schema) "payload rejected by validator"
          (.error e))) := by
  have decoded : entry.decode message.payload = .ok ⟨entry.kind, value⟩ := by rw [SchemaEntry.decode, read]; rfl
  simp only [wrap, declared, check, found, decoded, guarded]
  refine congrArg (Program.perform (.validate id ⟨entry.kind, value⟩)) (funext fun reply => ?_)
  cases reply <;> rfl

theorem play_validate {id : ValidatorId} {event : DecodedEvent F} {verdict : Except EventError Unit}
    (answer : s past (.validate id event) = World.replyOf verdict) :
    play s past (Program.validate id event) = ([⟨.validate id event, World.replyOf verdict⟩], .ok verdict) := by
  simp only [Program.validate, play]
  rw [answer]
  cases verdict <;> rfl

theorem asks_once (id : ValidatorId) (event : DecodedEvent F) (reply : Reply Unit) :
    Questions [⟨.validate id event, reply⟩] :=
  fun _ member => ⟨id, event, congrArg Exchange.effect (List.mem_singleton.mp member)⟩

theorem lets_through (declared : message.metadata.schema? = some schema)
    (found : validation.registry.lookup schema = some entry) {value : F.Value entry.kind}
    (read : entry.decoder message.payload = .ok value) {id : ValidatorId} (guarded : validation.validator = some id)
    (answer : s past (.validate id ⟨entry.kind, value⟩) = World.replyOf (.ok ())) :
    validation.LetsThrough s past name message := by
  refine ⟨_, asks_once id ⟨entry.kind, value⟩ (World.replyOf (.ok ())), fun next => ?_⟩
  rw [wrap_asks declared found read guarded, play_bind (play_validate answer)]

theorem rejects_refused (declared : message.metadata.schema? = some schema)
    (found : validation.registry.lookup schema = some entry) {value : F.Value entry.kind}
    (read : entry.decoder message.payload = .ok value) {id : ValidatorId} (guarded : validation.validator = some id)
    {e : EventError} (answer : s past (.validate id ⟨entry.kind, value⟩) = World.replyOf (.error e)) :
    validation.Rejects s past name message (.unprocessable message.payload (some schema)
      "payload rejected by validator" (.error e)) := by
  refine ⟨_, asks_once id ⟨entry.kind, value⟩ (World.replyOf (.error e)), fun next => ?_⟩
  rw [wrap_asks declared found read guarded, play_bind (play_validate answer)]
  rfl

theorem found_schema {registry : SchemaRegistry F} (found : registry.lookup schema = some entry) :
    F.schema entry.kind = schema := by
  have named := List.find?_some found
  simpa [SchemaEntry.name] using named

-- Where a rejection comes from: the codec of the registered kind, or a rule.
inductive Blames (entry : SchemaEntry F) (payload : Bytes) : EventError → Prop where
  | codec {e : EventError} (unread : entry.decoder payload = .error e) : Blames entry payload e
  | rule {value : F.Value entry.kind} (read : entry.decoder payload = .ok value) (text : String) :
      Blames entry payload (.validation text)

theorem blames_shipped {payload : Bytes} {cause : EventError} (blames : Blames entry payload cause)
    {codec : Codec (F.Value entry.kind)} (shipped : codec.Shipped) (same : entry.decoder = codec.decode) :
    (∃ text, cause = .validation text) ∨ ∃ text, cause = .serialization text := by
  cases blames with
  | codec unread => exact .inr (decode_refusal shipped (same ▸ unread))
  | rule read text => exact .inl ⟨text, rfl⟩

-- The payload can be read as the registered kind, and the last rule that is bound to the schema, if there is
-- one, is for this kind and accepts the value.
def Passes (entry : SchemaEntry F) (rules : List (Rule F)) (schema : String) (payload : Bytes) : Prop :=
  ∃ value, entry.decoder payload = .ok value ∧ (RulesValidator.bound rules schema = [] ∨
    ∃ rule, (RulesValidator.bound rules schema).getLast? = some rule ∧ rule.Accepts ⟨entry.kind, value⟩)

theorem passes_iff {registry : SchemaRegistry F} (found : registry.lookup schema = some entry)
    {rules : List (Rule F)} {payload : Bytes} :
    Passes entry rules schema payload ↔ ∃ value, entry.decoder payload = .ok value ∧
      (RulesValidator.ofRules rules).validate ⟨entry.kind, value⟩ = .ok () := by
  simp only [RulesValidator.validate_ok_iff, RulesValidator.Approves, DecodedEvent.schema, found_schema found]
  rfl

theorem foreign_rule_bars {rules : List (Rule F)} {rule : Rule F} {payload : Bytes}
    (last : (RulesValidator.bound rules schema).getLast? = some rule) (different : rule.kind ≠ entry.kind) :
    ¬ Passes entry rules schema payload := by
  rintro ⟨value, -, none | ⟨other, again, own, same, -⟩⟩
  · rw [none] at last
    cases last
  · cases last.symm.trans again
    exact different (congrArg DecodedEvent.kind same).symm

-- A payload that can be read is the validator's business, any other is rejected at once.
theorem stage_fate {registry : SchemaRegistry F} (found : registry.lookup schema = some entry)
    {rules : List (Rule F)} {id : ValidatorId} (ruled : s.Rules id rules) (past : Transcript F) (name : String)
    (declared : message.metadata.schema? = some schema) :
    (Passes entry rules schema message.payload ∧ LetsThrough ⟨registry, some id⟩ s past name message) ∨
      ¬ Passes entry rules schema message.payload ∧ ∃ reason cause, Blames entry message.payload cause ∧
        Rejects ⟨registry, some id⟩ s past name message
          (.unprocessable message.payload (some schema) reason (.error cause)) := by
  rw [passes_iff found]
  cases read : entry.decoder message.payload with
  | error e =>
      refine .inr ⟨?_, _, e, .codec read, rejects_unread declared found read⟩
      rintro ⟨value, same, -⟩
      cases same
  | ok value =>
      have answer := ruled past ⟨entry.kind, value⟩
      cases verdict : (RulesValidator.ofRules rules).validate ⟨entry.kind, value⟩ with
      | ok fine =>
          rw [verdict] at answer
          exact .inl ⟨⟨value, rfl, verdict⟩, lets_through declared found read rfl answer⟩
      | error e =>
          rw [verdict] at answer
          obtain ⟨text, rfl⟩ := RulesValidator.validate_refusal verdict
          refine .inr ⟨?_, _, _, .rule read text, rejects_refused declared found read rfl answer⟩
          rintro ⟨other, same, fine⟩
          cases same
          cases verdict.symm.trans fine

end Stage

end SchemaValidation

open SchemaValidation RulesValidator in
theorem last_rule_of_a_schema_decides {registry : SchemaRegistry F} {schema : String} {entry : SchemaEntry F}
    (found : registry.lookup schema = some entry) (rules : List (Rule F)) (id : ValidatorId)
    {s : Surroundings F} (ruled : s.Rules id rules) (past : Transcript F) (name : String) (message : Message)
    (declared : message.metadata.schema? = some schema) :
    let stage : SchemaValidation F := ⟨registry, some id⟩
    (stage.LetsThrough s past name message ↔ Passes entry rules schema message.payload) ∧
    (¬ stage.LetsThrough s past name message ↔ ∃ e, stage.Rejects s past name message e) ∧
    (∀ e, stage.Rejects s past name message e → ∃ reason cause,
      e = .unprocessable message.payload (some schema) reason (.error cause) ∧
      Blames entry message.payload cause ∧
      ∀ codec : Codec (F.Value entry.kind), codec.Shipped → entry.decoder = codec.decode →
        (∃ text, cause = .validation text) ∨ ∃ text, cause = .serialization text) ∧
    (∀ rule, (bound rules schema).getLast? = some rule → rule.kind ≠ entry.kind →
      ¬ stage.LetsThrough s past name message) ∧
    ∀ others, bound others schema = bound rules schema → ∀ event : DecodedEvent F, event.schema = schema →
      (ofRules others).validate event = (ofRules rules).validate event := by
  intro stage
  have undivided : ∀ others, bound others schema = bound rules schema → ∀ event : DecodedEvent F,
      event.schema = schema → (ofRules others).validate event = (ofRules rules).validate event :=
    fun others same event own => validate_bound (own ▸ same)
  rcases stage_fate found ruled past name declared with
    ⟨passes, lets⟩ | ⟨fails, reason, cause, blames, rejects⟩
  · refine ⟨iff_of_true lets passes, iff_of_false (not_not_intro lets) ?_, ?_, ?_, undivided⟩
    · rintro ⟨e, rejects⟩
      exact not_both lets rejects
    · intro e rejects
      exact absurd rejects (not_both lets)
    · intro rule last different
      exact absurd passes (foreign_rule_bars last different)
  · have barred : ¬ stage.LetsThrough s past name message := fun lets => not_both lets rejects
    refine ⟨iff_of_false barred fails, iff_of_true barred ⟨_, rejects⟩, ?_, fun _ _ _ => barred, undivided⟩
    intro e again
    exact ⟨reason, cause, rejects_unique again rejects, blames,
      fun codec shipped same => blames_shipped blames shipped same⟩

-- As obliging as can be, but with a validator that goes by rules.
def Surroundings.ruled (rules : List (Rule F)) : Surroundings F
  | _, .validate _ event => World.replyOf ((RulesValidator.ofRules rules).validate event)
  | past, effect => obliging past effect

def lenient (kind : F.Kind) : Rule F := ⟨kind, fun _ => none⟩

-- Two kinds claim the name, so the order of their rules matters.
theorem a_later_rule_for_impostors_bars_listings :
    let stage : SchemaValidation Events.family := ⟨⟨[Events.entry .listing]⟩, some 0⟩
    let rules : List (Rule Events.family) := [lenient Events.Kind.listing, lenient Events.Kind.impostor]
    let listing : Message := ⟨"m-1", Utf8.encode "\x7b\"id\":5,\"items\":[]\x7d".toList,
      Metadata.empty.set Metadata.schemaKey "order.placed"⟩
    stage.registry.lookup "order.placed" = some (Events.entry .listing) ∧
      (Surroundings.ruled rules).Rules 0 rules ∧ (Surroundings.ruled rules.reverse).Rules 0 rules.reverse ∧
      listing.metadata.schema? = some "order.placed" ∧
      ¬ stage.LetsThrough (.ruled rules) [] "orders" listing ∧
      stage.LetsThrough (.ruled rules.reverse) [] "orders" listing := by
  intro stage rules listing
  have found : stage.registry.lookup "order.placed" = some (Events.entry .listing) := rfl
  have ruled : ∀ given : List (Rule Events.family), (Surroundings.ruled given).Rules 0 given := fun _ _ _ => rfl
  obtain ⟨-, -, -, bars, -⟩ :=
    last_rule_of_a_schema_decides found rules 0 (ruled rules) [] "orders" listing rfl
  obtain ⟨lets, -⟩ :=
    last_rule_of_a_schema_decides found rules.reverse 0 (ruled rules.reverse) [] "orders" listing rfl
  refine ⟨found, ruled rules, ruled rules.reverse, rfl, bars (lenient Events.Kind.impostor) rfl (by decide), ?_⟩
  have passes : SchemaValidation.Passes (Events.entry .listing) rules.reverse "order.placed" listing.payload :=
    ⟨⟨5, []⟩, rfl, .inr ⟨lenient Events.Kind.listing, rfl, ⟨5, []⟩, rfl, rfl⟩⟩
  exact lets.mpr passes

end EventPipeline

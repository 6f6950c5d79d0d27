import EventPipeline.Events.Family
import EventPipeline.Proofs.JsonEvents
import EventPipeline.Proofs.ProtobufEvents

/-!
Codecs whose two directions undo one another: what is written is read back as the same value, and one
pass of reading and writing brings every payload into its final form.
-/

set_option autoImplicit false

namespace EventPipeline

-- One pass through a codec: read and written again.
def Codec.normalise {α : Type} (codec : Codec α) (payload : Bytes) : Except EventError Bytes :=
  (codec.decode payload).bind codec.encode

theorem normalise_written {α : Type} {codec : Codec α} {value : α} {bytes : Bytes}
    (read : codec.decode bytes = .ok value) (written : codec.encode value = .ok bytes) :
    codec.normalise bytes = .ok bytes := by
  rw [Codec.normalise, read]
  exact written

-- The two codecs that there are for every type that can be read and written.
inductive Codec.Shipped {α : Type} : Codec α → Prop where
  | json (read : Json.Reader α) (write : α → Bytes) : Shipped (Json.codec read write)
  | proto (format : Protobuf.MessageFormat α) : Shipped (Protobuf.codec format)

section Shipped

variable {α : Type} {codec : Codec α} {e : EventError}

theorem refused_before {ε ζ : Type} {result : Except ε α} {f : ε → ζ} {e : ζ}
    (refused : result.mapError f = .error e) : ∃ problem, e = f problem := by
  cases result with
  | ok value => cases refused
  | error problem =>
      cases refused
      exact ⟨problem, rfl⟩

theorem decode_refusal (shipped : codec.Shipped) {payload : Bytes} (refused : codec.decode payload = .error e) :
    ∃ text, e = .serialization text := by
  cases shipped with
  | json read write =>
      obtain ⟨problem, rfl⟩ := refused_before refused
      exact ⟨problem.message, rfl⟩
  | proto format =>
      obtain ⟨problem, rfl⟩ := refused_before refused
      exact ⟨problem.message, rfl⟩

theorem encode_refusal (shipped : codec.Shipped) {value : α} (refused : codec.encode value = .error e) :
    ∃ text, e = .serialization text := by
  cases shipped with
  | json read write =>
      change (if write value = Json.nullBytes then _ else _) = _ at refused
      split at refused
      · cases refused
        exact ⟨_, rfl⟩
      · cases refused
  | proto format => cases refused

end Shipped

namespace Json

variable {α : Type} {read : Reader α} {write : α → Bytes} {value : α}

theorem encode_null (null : write value = nullBytes) :
    (codec read write).encode value =
      .error (.serialization "refusing to encode an empty (null) message") :=
  if_pos null

theorem encode_written (present : write value ≠ nullBytes) :
    (codec read write).encode value = .ok (write value) :=
  if_neg present

theorem decode_written (reads : Reads read (write value) value) :
    (codec read write).decode (write value) = .ok value := by
  simp only [codec, reads_document reads]
  rfl

theorem decode_refused {reason : Error} (refuses : Refuses read (write value) reason) :
    ∃ position, (codec read write).decode (write value) =
      .error (.serialization (Problem.message ⟨reason, position⟩)) := by
  obtain ⟨position, document⟩ := refused_document refuses
  exact ⟨position, by simp only [codec, document]; rfl⟩

end Json

namespace Events

namespace Kind

def written : (kind : Kind) → kind.Value → Bytes
  | .orderPlaced, event => event.write
  | .orderConfirmed, event => event.write
  | .signup, event => event.write
  | .listing, event => event.write
  | .impostor, event => event.write
  | .maybe, event => Maybe.write event
  | .ticket, event => event.write
  | .counter, event => Counter.format.encode event
  | .ping, event => Ping.format.encode event
  | .envelope, event => Envelope.format.encode event

def isNull : (kind : Kind) → kind.Value → Bool
  | .maybe, event => event.isNone
  | _, _ => false

def ancestors : (kind : Kind) → kind.Value → Nat
  | .ticket, event => event.depth
  | _, _ => 0

-- How a kind travels as JSON: its reader, and what that reader makes of the values written.
structure Journeys (kind : Kind) (read : Json.Reader kind.Value) : Prop where
  codec : kind.codec = Json.codec read kind.written
  null : ∀ value, kind.written value = Json.nullBytes ↔ kind.isNull value = true
  reads : ∀ value, kind.isNull value = false → kind.ancestors value ≤ 125 →
    Json.Reads read (kind.written value) value
  refuses : ∀ value, 125 < kind.ancestors value →
    Json.Refuses read (kind.written value) .recursionLimit

theorem object_not_null (members : List Bytes) : Json.writeObject members ≠ Json.nullBytes := by
  rw [Json.writeObject, Json.writeJoined, Json.nullBytes]
  exact fun same => absurd (List.cons.inj same).1 (by decide)

theorem flat_journeys {kind : Kind} {read : Json.Reader kind.Value}
    (codec : kind.codec = Json.codec read kind.written)
    (object : ∀ value, ∃ members, kind.written value = Json.writeObject members)
    (present : ∀ value, kind.isNull value = false) (flat : ∀ value, kind.ancestors value = 0)
    (reads : ∀ value, Json.Reads read (kind.written value) value) : kind.Journeys read where
  codec := codec
  null value := by
    obtain ⟨members, written⟩ := object value
    rw [written, present value]
    exact iff_of_false (object_not_null members) Bool.false_ne_true
  reads value _ _ := reads value
  refuses value many := by
    rw [flat value] at many
    exact absurd many (Nat.not_lt_zero 125)

theorem journeys (kind : Kind) (json : kind.codec.encoding = .json) :
    ∃ read, kind.Journeys read := by
  have deep : Json.maxLevels ≠ 0 := by decide
  cases kind with
  | orderPlaced =>
      exact ⟨_, flat_journeys rfl (fun _ => ⟨_, rfl⟩) (fun _ => rfl) (fun _ => rfl) (OrderPlaced.reads deep)⟩
  | orderConfirmed =>
      exact ⟨_, flat_journeys rfl (fun _ => ⟨_, rfl⟩) (fun _ => rfl) (fun _ => rfl)
        (OrderConfirmed.reads deep)⟩
  | signup =>
      exact ⟨_, flat_journeys rfl (fun _ => ⟨_, rfl⟩) (fun _ => rfl) (fun _ => rfl) (Signup.reads deep)⟩
  | listing =>
      exact ⟨_, flat_journeys rfl (fun _ => ⟨_, rfl⟩) (fun _ => rfl) (fun _ => rfl)
        (Listing.reads deep (by decide))⟩
  | impostor =>
      exact ⟨_, flat_journeys rfl (fun _ => ⟨_, rfl⟩) (fun _ => rfl) (fun _ => rfl) (Impostor.reads deep)⟩
  | maybe =>
      refine ⟨_, rfl, fun value => ?_, fun value present _ => ?_, fun _ many => ?_⟩
      · cases value with
        | none => exact iff_of_true rfl rfl
        | some event => exact iff_of_false (object_not_null _) Bool.false_ne_true
      · cases value with
        | none => cases present
        | some event => exact Maybe.reads deep event
      · exact absurd many (Nat.not_lt_zero 125)
  | ticket =>
      refine ⟨_, rfl, fun value => ?_, fun value _ few => ?_, fun value many => ?_⟩
      · refine iff_of_false ?_ Bool.false_ne_true
        rw [written, Ticket.write, Ticket.write_members]
        exact object_not_null _
      · exact Ticket.reads_chain value.entry value.ancestors (Nat.add_le_add_right few 2)
      · exact Ticket.refuses_chain value.entry value.ancestors (Nat.add_lt_add_right many 2)
  | counter => cases json
  | ping => cases json
  | envelope => cases json

theorem ancestors_flat {kind : Kind} (flat : kind ≠ .ticket) (value : kind.Value) :
    kind.ancestors value = 0 := by
  cases kind with
  | ticket => exact absurd rfl flat
  | _ => rfl

end Kind

theorem json_codecs_round_trip (kind : Kind) (json : kind.codec.encoding = .json) :
    (∀ value, kind.written value = Json.nullBytes ↔ kind.isNull value = true) ∧
    (∀ value, kind.isNull value = true →
      kind.codec.encode value =
        .error (.serialization "refusing to encode an empty (null) message")) ∧
    (∀ value, kind.isNull value = false →
      kind.codec.encode value = .ok (kind.written value) ∧
      (kind.ancestors value ≤ 125 → kind.codec.decode (kind.written value) = .ok value) ∧
      (125 < kind.ancestors value → ∃ position, kind.codec.decode (kind.written value) =
        .error (.serialization (Json.Problem.message ⟨.recursionLimit, position⟩)))) ∧
    (kind ≠ .ticket → ∀ payload value bytes,
      kind.codec.decode payload = .ok value → kind.codec.encode value = .ok bytes →
        kind.codec.decode bytes = .ok value ∧ kind.codec.normalise bytes = .ok bytes) := by
  obtain ⟨read, codec, null, reads, refuses⟩ := kind.journeys json
  rw [codec]
  have encodes (value : kind.Value) (present : kind.isNull value = false) :
      (Json.codec read kind.written).encode value = .ok (kind.written value) := by
    refine Json.encode_written fun empty => ?_
    rw [(null value).mp empty] at present
    cases present
  refine ⟨null, fun value absent => Json.encode_null ((null value).mpr absent), fun value present =>
    ⟨encodes value present, fun few => Json.decode_written (reads value present few), fun many =>
      Json.decode_refused (refuses value many)⟩, fun flat payload value bytes _ written => ?_⟩
  cases present : kind.isNull value with
  | true =>
      rw [Json.encode_null ((null value).mpr present)] at written
      cases written
  | false =>
      have few : kind.ancestors value ≤ 125 := by
        rw [Kind.ancestors_flat flat value]
        exact Nat.zero_le 125
      obtain rfl : kind.written value = bytes := Except.ok.inj ((encodes value present).symm.trans written)
      have again := Json.decode_written (reads value present few)
      exact ⟨again, normalise_written again written⟩

theorem listing_round_trips :
    Kind.listing.codec.encoding = .json ∧
    Kind.listing.codec.decode (Kind.listing.written ⟨18446744073709551615, ["\"\\", "\x01é"]⟩) =
      .ok ⟨18446744073709551615, ["\"\\", "\x01é"]⟩ :=
  ⟨rfl, ((json_codecs_round_trip .listing rfl).2.2.1 _ rfl).2.1 (by decide)⟩

namespace Kind

-- Every length that is written of the value fits 64 bits.
def Counted : (kind : Kind) → kind.Value → Prop
  | .ping, event => (Bytes.ofString event.note).length ≤ largest64
  | .envelope, event => event.Counted
  | _, _ => True

end Kind

section Protobuf

variable {α : Type} {format : Protobuf.MessageFormat α}

theorem decoded_proto {payload : Bytes} {value : α}
    (read : (Protobuf.codec format).decode payload = .ok value) : format.decode payload = .ok value := by
  cases message : format.decode payload with
  | error e =>
      simp only [Protobuf.codec, message] at read
      cases read
  | ok decoded =>
      simp only [Protobuf.codec, message] at read
      exact congrArg Except.ok (Except.ok.inj read)

theorem decode_proto {text : Bytes} {value : α}
    (merges : Protobuf.Merges (format.mergeField Protobuf.maxDepth) format.fresh text value) :
    (Protobuf.codec format).decode text = .ok value := by
  simp only [Protobuf.codec, Protobuf.decode_merges merges]
  rfl

end Protobuf

theorem decode_counted (kind : Kind) (proto : kind.codec.encoding = .proto) {value : kind.Value}
    (counted : kind.Counted value) : kind.codec.decode (kind.written value) = .ok value := by
  cases kind with
  | counter => exact decode_proto (Counter.rebuilt value)
  | ping => exact decode_proto (Ping.rebuilt counted)
  | envelope => exact decode_proto (Envelope.rebuilt counted)
  | _ => cases proto

theorem written_counted (kind : Kind) {value : kind.Value}
    (short : (kind.written value).length ≤ largest64) : kind.Counted value := by
  cases kind with
  | ping => exact note_counted short
  | envelope => exact envelope_counted short
  | _ => trivial

theorem decoded_counted (kind : Kind) (proto : kind.codec.encoding = .proto) {payload : Bytes}
    {value : kind.Value} (held : payload.length ≤ largestRun)
    (read : kind.codec.decode payload = .ok value) : kind.Counted value := by
  cases kind with
  | counter => trivial
  | ping => exact decoded_note_counted held (decoded_proto read)
  | envelope => exact decoded_envelope_counted held (decoded_proto read)
  | _ => cases proto

theorem protobuf_codecs_round_trip (kind : Kind) (proto : kind.codec.encoding = .proto) :
    (∀ value, kind.codec.encode value = .ok (kind.written value)) ∧
    kind.written kind.fresh = [] ∧
    (∀ value, (kind.written value).length ≤ largest64 → kind.Counted value) ∧
    (∀ value, kind.Counted value →
      kind.codec.decode (kind.written value) = .ok value ∧
      kind.codec.normalise (kind.written value) = .ok (kind.written value)) ∧
    (∀ payload value, payload.length ≤ largestRun → kind.codec.decode payload = .ok value →
      kind.codec.decode (kind.written value) = .ok value ∧
      kind.codec.normalise payload = .ok (kind.written value) ∧
      kind.codec.normalise (kind.written value) = .ok (kind.written value)) := by
  have encodes (value : kind.Value) : kind.codec.encode value = .ok (kind.written value) := by
    cases kind with
    | counter => rfl
    | ping => rfl
    | envelope => rfl
    | _ => cases proto
  have empty : kind.written kind.fresh = [] := by
    cases kind with
    | counter => rfl
    | ping => rfl
    | envelope => rfl
    | _ => cases proto
  refine ⟨encodes, empty, fun value => written_counted kind, fun value counted => ?_,
    fun payload value held read => ?_⟩
  · have again := decode_counted kind proto counted
    exact ⟨again, normalise_written again (encodes value)⟩
  · have again := decode_counted kind proto (decoded_counted kind proto held read)
    refine ⟨again, ?_, normalise_written again (encodes value)⟩
    rw [Codec.normalise, read]
    exact encodes value

theorem envelope_round_trips :
    Kind.envelope.codec.encoding = .proto ∧
    Kind.envelope.Counted ⟨"é", #[300], some ⟨0, ""⟩, [0, 255], -1, true⟩ ∧
    Kind.envelope.codec.decode (Kind.envelope.written ⟨"é", #[300], some ⟨0, ""⟩, [0, 255], -1, true⟩) =
      .ok ⟨"é", #[300], some ⟨0, ""⟩, [0, 255], -1, true⟩ := by
  have counted : Kind.envelope.Counted ⟨"é", #[300], some ⟨0, ""⟩, [0, 255], -1, true⟩ := by
    refine ⟨by decide, ?_, fun inner present => ?_, by decide⟩
    · simp [Protobuf.writeVarint]
      decide
    · obtain rfl := Option.some.inj present
      decide
  exact ⟨rfl, counted, ((protobuf_codecs_round_trip .envelope rfl).2.2.2.1 _ counted).1⟩

end Events

end EventPipeline

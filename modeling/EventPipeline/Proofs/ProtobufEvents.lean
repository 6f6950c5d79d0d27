import EventPipeline.Events.Signal
import EventPipeline.Proofs.ProtobufMessages

/-!
The events that travel as protobuf messages. Each is rebuilt from what it writes, as long as the
lengths it writes can be counted, and an accepted message is never much heavier than its bytes.
-/

set_option autoImplicit false

namespace EventPipeline.Events

open Protobuf

section Rebuilding

variable {depth : Nat}

theorem Counter.tagged : Counter.format.Tagged := ⟨by decide, by decide⟩

theorem Ping.tagged : Ping.format.Tagged := ⟨by decide, by decide⟩

theorem Envelope.tagged : Envelope.format.Tagged := ⟨by decide, by decide⟩

theorem Counter.rebuilt (event : Counter) :
    Merges (Counter.format.mergeField depth) Counter.format.fresh (Counter.format.encode event) event := by
  obtain ⟨value⟩ := event
  have small : value.toNat ≤ largest64 := Nat.le_of_lt_succ value.toNat_lt
  refine encode_merges tagged (.field (scalar_copies small ?_ fun absent => ?_) (.done _))
  · exact congrArg Counter.mk UInt64.ofNat_toNat
  · exact congrArg Counter.mk (UInt64.toNat_inj.mp absent)

theorem u32_counted (n : UInt32) : n.toNat ≤ largest64 :=
  Nat.le_of_lt (Nat.lt_of_lt_of_le n.toNat_lt (by decide))

theorem Ping.rebuilt {event : Ping} (short : (Bytes.ofString event.note).length ≤ largest64) :
    Merges (Ping.format.mergeField depth) Ping.format.fresh (Ping.format.encode event) event := by
  obtain ⟨id, note⟩ := event
  refine encode_merges tagged ?_
  refine .field (scalar_copies (u32_counted id)
    (show _ = (⟨id, ""⟩ : Ping) from congrArg (Ping.mk · "") UInt32.ofNat_toNat) fun absent => ?_) ?_
  · exact congrArg (Ping.mk · "") (UInt32.toNat_inj.mp absent)
  refine .field (text_copies short (show _ = (⟨id, note⟩ : Ping) from rfl) fun absent => ?_) (.done _)
  exact congrArg (Ping.mk id) absent

theorem unzigzag_zigzag (n : Int) : unzigzag (zigzag n) = n := by
  cases n with
  | ofNat n => rw [zigzag, unzigzag, if_pos (Nat.mul_mod_right 2 n), Nat.mul_div_cancel_left n (by decide)]
  | negSucc n =>
      rw [zigzag, unzigzag, if_neg (by omega), show (2 * n + 1) / 2 = n by omega]

theorem zigzag_small (n : Int32) : zigzag n.toInt < largest32 + 1 := by
  have bounds : -2147483648 ≤ n.toInt ∧ n.toInt ≤ 2147483647 := ⟨n.minValue_le_toInt, n.toInt_le⟩
  generalize n.toInt = m at bounds
  cases m with
  | ofNat n =>
      rw [Int.ofNat_eq_natCast] at bounds
      rw [zigzag, largest32]
      omega
  | negSucc n =>
      rw [zigzag, largest32]
      omega

theorem codes_pushed (before codes : List UInt32) (event : Envelope) :
    (codes.map (·.toNat)).foldl (fun event n => { event with codes := event.codes.push (UInt32.ofNat n) })
      { event with codes := before.toArray } = { event with codes := (before ++ codes).toArray } := by
  induction codes generalizing before with
  | nil => rw [List.append_nil]; rfl
  | cons code codes ih =>
      have later := ih (before ++ [code])
      rw [List.append_assoc, List.singleton_append] at later
      rw [List.map_cons, List.foldl_cons, ← later, UInt32.ofNat_toNat, List.push_toArray]

structure Envelope.Counted (event : Envelope) : Prop where
  source : (Bytes.ofString event.source).length ≤ largest64
  codes : ((event.codes.toList.map (·.toNat)).flatMap writeVarint).length ≤ largest64
  inner : ∀ inner, event.inner = some inner → (Ping.format.encode inner).length ≤ largest64
  blob : event.blob.length ≤ largest64

theorem note_counted {event : Ping} (short : (Ping.format.encode event).length ≤ largest64) :
    (Bytes.ofString event.note).length ≤ largest64 :=
  Nat.le_trans (Nat.le_trans text_within (field_within (List.mem_of_getElem? (i := 1) rfl))) short

theorem envelope_counted {event : Envelope} (short : (Envelope.format.encode event).length ≤ largest64) :
    event.Counted where
  source := Nat.le_trans (Nat.le_trans text_within (field_within (List.mem_of_getElem? (i := 0) rfl))) short
  codes :=
    Nat.le_trans (Nat.le_trans (packed_within fun event : Envelope => event.codes.toList.map (·.toNat))
      (field_within (List.mem_of_getElem? (i := 1) rfl))) short
  inner _ present :=
    Nat.le_trans (Nat.le_trans (message_within present) (field_within (List.mem_of_getElem? (i := 2) rfl)))
      short
  blob := Nat.le_trans (Nat.le_trans bytes_within (field_within (List.mem_of_getElem? (i := 3) rfl))) short

-- The fields are filled in one after another.
theorem Envelope.rebuilt {event : Envelope} (counted : event.Counted) :
    Merges (Envelope.format.mergeField (depth + 1)) Envelope.format.fresh (Envelope.format.encode event)
      event := by
  obtain ⟨source, codes, inner, blob, delta, urgent⟩ := event
  refine encode_merges tagged ?_
  refine .field (text_copies counted.source
    (show _ = (⟨source, #[], none, [], 0, false⟩ : Envelope) from rfl) fun absent => ?_) ?_
  · exact congrArg (Envelope.mk · #[] none [] 0 false) absent
  refine .field (packed_copies ?_ counted.codes
    (show _ = (⟨source, codes, none, [], 0, false⟩ : Envelope) from
      codes_pushed [] codes.toList ⟨source, #[], none, [], 0, false⟩)) ?_
  · simp only [List.forall_mem_map]
    exact fun code _ => u32_counted code
  have put : ∀ present, inner = some present →
      (⟨source, codes, some present, [], 0, false⟩ : Envelope) = ⟨source, codes, inner, [], 0, false⟩ :=
    fun present same => congrArg (Envelope.mk source codes · [] 0 false) same.symm
  refine .field (message_copies (fun present same => ?_) put fun absent => ?_) ?_
  · have short := counted.inner present same
    exact ⟨Ping.rebuilt (note_counted short), short⟩
  · exact congrArg (Envelope.mk source codes · [] 0 false) absent
  refine .field (bytes_copies counted.blob
    (show _ = (⟨source, codes, inner, blob, 0, false⟩ : Envelope) from rfl) fun absent => ?_) ?_
  · exact congrArg (Envelope.mk source codes inner · 0 false) absent
  have signed : Int32.ofInt (unzigzag (zigzag delta.toInt % (largest32 + 1))) = delta := by
    rw [Nat.mod_eq_of_lt (zigzag_small delta), unzigzag_zigzag, Int32.ofInt_toInt]
  refine .field (scalar_copies (Nat.le_trans (Nat.le_of_lt_succ (zigzag_small delta)) (by decide))
    (show _ = (⟨source, codes, inner, blob, delta, false⟩ : Envelope) from
      congrArg (Envelope.mk source codes inner blob · false) signed) fun absent => ?_) ?_
  · refine congrArg (Envelope.mk source codes inner blob · false) ?_
    rw [← signed, show zigzag delta.toInt = 0 from absent]
    rfl
  refine .field (scalar_copies ?_ (show _ = (⟨source, codes, inner, blob, delta, urgent⟩ : Envelope) from ?_)
    fun absent => ?_) (.done _)
  · cases urgent <;> exact Nat.le_of_ble_eq_true rfl
  · cases urgent <;> rfl
  · cases urgent with
    | false => rfl
    | true => cases absent

end Rebuilding

section Accepting

def Ping.weight (event : Ping) : Nat := (Bytes.ofString event.note).length

def Envelope.weight (event : Envelope) : Nat :=
  (Bytes.ofString event.source).length + ((event.codes.toList.map (·.toNat)).flatMap writeVarint).length +
    (event.inner.map Ping.weight).getD 0 + event.blob.length

theorem Ping.spares : ∀ field ∈ Ping.format.fields, field.Spares Ping.weight := by
  simp only [Ping.format, List.forall_mem_cons, List.not_mem_nil, false_imp_iff, implies_true, and_true]
  refine ⟨scalar_spares fun n event => Nat.le_refl _, text_spares fun note event => ?_⟩
  exact Nat.le_add_left _ _

theorem Envelope.spares : ∀ field ∈ Envelope.format.fields, field.Spares Envelope.weight := by
  simp only [Envelope.format, List.forall_mem_cons, List.not_mem_nil, false_imp_iff, implies_true, and_true]
  refine ⟨text_spares fun source event => ?_, packed_spares fun n event => ?_,
    message_spares Ping.spares fun inner event => ?_, bytes_spares fun blob event => ?_,
    scalar_spares fun n event => Nat.le_refl _, scalar_spares fun n event => Nat.le_refl _⟩
  · simp only [weight]
    omega
  · have short : (writeVarint (UInt32.ofNat n).toNat).length ≤ (writeVarint n).length :=
      write_varint_mono (by rw [UInt32.toNat_ofNat']; exact Nat.mod_le _ _)
    simp only [weight, Array.toList_push, List.map_append, List.map_cons, List.map_nil, List.flatMap_append,
      List.flatMap_cons, List.flatMap_nil, List.append_nil, List.length_append]
    omega
  · have fresh : Ping.weight Ping.format.fresh = 0 := rfl
    cases present : event.inner with
    | none =>
        simp only [weight, present, Option.map_some, Option.map_none, Option.getD_some, Option.getD_none, fresh]
        omega
    | some start =>
        simp only [weight, present, Option.map_some, Option.getD_some]
        omega
  · simp only [weight]
    omega

-- The longest run of bytes that memory holds.
def largestRun : Nat := 9223372036854775807

theorem decoded_note_counted {bytes : Bytes} {event : Ping} (held : bytes.length ≤ largestRun)
    (read : Ping.format.decode bytes = .ok event) : (Bytes.ofString event.note).length ≤ largest64 := by
  have light : event.weight ≤ 0 + bytes.length := decode_spares Ping.spares read
  rw [Ping.weight] at light
  rw [largestRun] at held
  rw [largest64]
  omega

theorem ping_length {event : Ping} (short : (Bytes.ofString event.note).length ≤ largest64) :
    (Ping.format.encode event).length ≤ 22 + event.weight := by
  have idKey : (writeKey 1 .varint).length ≤ 1 := write_varint_length Nat.one_pos (by decide)
  have noteKey : (writeKey 2 .lengthDelimited).length ≤ 1 := write_varint_length Nat.one_pos (by decide)
  have id := write_varint_length (show 0 < 10 by decide) (Nat.lt_of_le_of_lt (u32_counted event.id) (by decide))
  have length := write_varint_length (show 0 < 10 by decide) (Nat.lt_of_le_of_lt short (by decide))
  simp only [MessageFormat.encode, Ping.format, List.flatMap_cons, List.flatMap_nil, List.append_nil,
    MessageField.scalar, MessageField.text, List.length_append, Ping.weight]
  split <;> split <;> simp only [List.length_append, List.length_nil, writeDelimited] <;> omega

theorem decoded_envelope_counted {bytes : Bytes} {event : Envelope} (held : bytes.length ≤ largestRun)
    (read : Envelope.format.decode bytes = .ok event) : event.Counted := by
  have light : event.weight ≤ 0 + bytes.length := decode_spares Envelope.spares read
  rw [Envelope.weight] at light
  rw [largestRun] at held
  constructor
  · rw [largest64]; omega
  · rw [largest64]; omega
  · intro inner present
    rw [present, Option.map_some, Option.getD_some] at light
    have note : inner.weight ≤ largest64 := by rw [largest64]; omega
    have total := ping_length note
    rw [largest64]
    omega
  · rw [largest64]; omega

end Accepting

end EventPipeline.Events

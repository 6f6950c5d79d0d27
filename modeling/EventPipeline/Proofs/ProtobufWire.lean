import EventPipeline.Protobuf.Message
import EventPipeline.Proofs.Characters

/-!
The protobuf wire format in both directions: integers and keys are read back as they were written,
no reader gives back more than it took, and an accepted integer is written again in no more bytes.
-/

set_option autoImplicit false

namespace EventPipeline.Protobuf

namespace Input

theorem of_bytes_eq (input : Input) : ofBytes input.bytes = input := by
  obtain ⟨bytes, size, sized⟩ := input
  subst sized
  rfl

theorem next_of_bytes (byte : UInt8) (rest : Bytes) :
    (ofBytes (byte :: rest)).next? = some (byte, ofBytes rest) := rfl

theorem size_of_bytes (bytes : Bytes) : (ofBytes bytes).size = bytes.length := rfl

theorem take_of_bytes (front rest : Bytes) : (ofBytes (front ++ rest)).take front.length = front :=
  List.take_left

theorem drop_of_bytes (front rest : Bytes) :
    (ofBytes (front ++ rest)).drop front.length = ofBytes rest := by
  rw [← of_bytes_eq ((ofBytes (front ++ rest)).drop front.length)]
  congr 1
  exact List.drop_left

theorem take_length (input : Input) (n : Nat) : (input.take n).length ≤ n := by
  rw [take, List.length_take]
  exact Nat.min_le_left _ _

theorem next_size {input rest : Input} {byte : UInt8} (next : input.next? = some (byte, rest)) :
    rest.size + 1 = input.size := by
  obtain ⟨bytes, size, sized⟩ := input
  cases bytes with
  | nil => cases next
  | cons first tail =>
      cases next
      subst sized
      rfl

end Input

section Varints

-- How many numbers so many places of seven bits tell apart.
def room : Nat → Nat
  | 0 => 1
  | places + 1 => 128 * room places

theorem write_varint_nonempty (n : Nat) : writeVarint n ≠ [] := by
  rw [writeVarint]
  split <;> exact List.cons_ne_nil _ _

theorem write_varint_length {places n : Nat} (some : 0 < places) (small : n < room places) :
    (writeVarint n).length ≤ places := by
  induction places generalizing n with
  | zero => cases some
  | succ places ih =>
      rw [writeVarint]
      by_cases last : n < 128
      · rw [if_pos last]
        exact some
      · rw [room] at small
        rw [if_neg last, List.length_cons]
        refine Nat.succ_le_succ (ih ?_ (by omega))
        cases places with
        | zero => rw [room] at small; omega
        | succ places => exact Nat.succ_pos places

theorem write_varint_mono {m n : Nat} (below : m ≤ n) : (writeVarint m).length ≤ (writeVarint n).length := by
  induction n using Nat.strongRecOn generalizing m with
  | ind n ih =>
      rw [writeVarint, writeVarint.eq_1 n]
      by_cases small : m < 128
      · rw [if_pos small]
        split <;> exact Nat.succ_le_succ (Nat.zero_le _)
      · rw [if_neg small, if_neg (by omega), List.length_cons, List.length_cons]
        exact Nat.succ_le_succ (ih (n / 128) (by omega) (Nat.div_le_div_right below))

-- Induction on the places left. The last of them takes one bit only, hence the 2.
theorem read_varint_from_written {places n : Nat} (fits : n < 2 * room places) (value weight : Nat)
    (rest : Bytes) :
    readVarintFrom value weight (places + 1) (.ofBytes (writeVarint n ++ rest)) =
      .ok (value + n * weight, .ofBytes rest) := by
  induction places generalizing n value weight with
  | zero =>
      have single : n < 2 := fits
      have byte : (UInt8.ofNat n).toNat = n := byte_of_nat (by omega)
      rw [writeVarint, if_pos (by omega), List.singleton_append, readVarintFrom, Input.next_of_bytes]
      simp only [byte, Nat.mod_eq_of_lt (show n < 128 by omega), if_neg (show ¬ 128 ≤ n by omega),
        Nat.not_le.mpr single, and_false, if_false]
  | succ places ih =>
      rw [room] at fits
      rw [writeVarint]
      by_cases last : n < 128
      · have byte : (UInt8.ofNat n).toNat = n := byte_of_nat (by omega)
        rw [if_pos last, List.singleton_append, readVarintFrom, Input.next_of_bytes]
        simp only [byte, Nat.mod_eq_of_lt last, if_neg (show ¬ 128 ≤ n by omega),
          if_neg (show ¬ (places + 1 = 0 ∧ 2 ≤ n) by omega)]
      · have byte : (UInt8.ofNat (n % 128 + 128)).toNat = n % 128 + 128 := byte_of_nat (by omega)
        have parts : n % 128 * weight + n / 128 * (weight * 128) = n * weight := by
          have whole := Nat.mod_add_div n 128
          calc n % 128 * weight + n / 128 * (weight * 128)
              = (n % 128 + 128 * (n / 128)) * weight := by
                rw [Nat.add_mul, Nat.mul_comm weight 128, ← Nat.mul_assoc, Nat.mul_comm (n / 128) 128]
            _ = n * weight := by rw [whole]
        rw [if_neg last, List.cons_append, readVarintFrom, Input.next_of_bytes]
        simp only [byte, Nat.add_mod_right, Nat.mod_mod, if_pos (show 128 ≤ n % 128 + 128 by omega)]
        rw [ih (by omega), Nat.add_assoc, parts]

theorem read_varint_written {n : Nat} (fits : n ≤ largest64) (rest : Bytes) :
    readVarint (.ofBytes (writeVarint n ++ rest)) = .ok (n, .ofBytes rest) := by
  have places : n < 2 * room 9 := Nat.lt_of_le_of_lt fits (by decide)
  rw [readVarint, read_varint_from_written places, Nat.zero_add, Nat.mul_one]

theorem read_key_written {tag : Nat} {wire : WireType} (positive : tag ≠ 0)
    (fits : tag * 8 + wire.number ≤ largest32) (rest : Bytes) :
    readKey (.ofBytes (writeKey tag wire ++ rest)) = .ok ((tag, wire), .ofBytes rest) := by
  have number : wire.number < 8 := by cases wire <;> decide
  have wireAgain : WireType.ofNumber? ((tag * 8 + wire.number) % 8) = some wire := by
    rw [show (tag * 8 + wire.number) % 8 = wire.number by omega]
    cases wire <;> rfl
  have tagAgain : (tag * 8 + wire.number) / 8 = tag := by omega
  rw [readKey, writeKey, read_varint_written (Nat.le_trans fits (by decide))]
  simp only [bind, Except.bind, if_neg (Nat.not_lt.mpr fits), wireAgain, tagAgain, if_neg positive]

end Varints

section Sizes

-- Induction on the places left. The bytes taken bound the number by the places they have.
theorem read_varint_from_takes {places value weight n : Nat} {input rest : Input}
    (read : readVarintFrom value weight places input = .ok (n, rest)) :
    ∃ taken part, 0 < taken ∧ rest.size + taken = input.size ∧ n = value + part * weight ∧
      part < room taken := by
  induction places generalizing value weight input with
  | zero => cases read
  | succ places ih =>
      rw [readVarintFrom] at read
      cases next : input.next? with
      | none =>
          rw [next] at read
          cases read
      | some head =>
          obtain ⟨byte, tail⟩ := head
          have size := Input.next_size next
          have digit : byte.toNat % 128 < 128 := Nat.mod_lt _ (by decide)
          rw [next] at read
          dsimp only at read
          by_cases more : 128 ≤ byte.toNat
          · rw [if_pos more] at read
            obtain ⟨taken, part, some, sizes, value, small⟩ := ih read
            refine ⟨taken + 1, byte.toNat % 128 + 128 * part, Nat.succ_pos taken, by omega, ?_, ?_⟩
            · rw [value, Nat.add_assoc, Nat.add_mul, Nat.mul_comm weight 128, ← Nat.mul_assoc,
                Nat.mul_comm 128 part]
            · rw [room]
              omega
          · rw [if_neg more] at read
            split at read
            · cases read
            · cases read
              exact ⟨1, byte.toNat % 128, Nat.one_pos, size, rfl, digit⟩

theorem read_varint_takes {n : Nat} {input rest : Input} (read : readVarint input = .ok (n, rest)) :
    rest.size < input.size ∧ (writeVarint n).length + rest.size ≤ input.size := by
  obtain ⟨taken, part, some, sizes, value, small⟩ := read_varint_from_takes read
  rw [Nat.zero_add, Nat.mul_one] at value
  have short := write_varint_length some (value ▸ small)
  omega

theorem read_key_takes {key : Nat × WireType} {input rest : Input} (read : readKey input = .ok (key, rest)) :
    rest.size < input.size := by
  cases number : readVarint input with
  | error e =>
      rw [readKey, number] at read
      cases read
  | ok result =>
      obtain ⟨size, -⟩ := read_varint_takes number
      simp only [readKey, number, bind, Except.bind] at read
      repeat' split at read
      all_goals first | cases read; exact size | cases read

theorem skip_bytes_size {n : Nat} {input rest : Input} (skip : skipBytes n input = .ok rest) :
    rest.size ≤ input.size := by
  rw [skipBytes] at skip
  split at skip
  · cases skip
  · cases skip
    exact Nat.sub_le _ _

theorem skip_plain_size {wire : WireType} {input rest : Input} (skip : skipPlain wire input = .ok rest) :
    rest.size ≤ input.size := by
  cases wire with
  | varint =>
      cases number : readVarint input with
      | error e =>
          rw [skipPlain, number] at skip
          cases skip
      | ok result =>
          rw [skipPlain, number] at skip
          cases skip
          exact Nat.le_of_lt (read_varint_takes number).1
  | lengthDelimited =>
      cases number : readVarint input with
      | error e =>
          rw [skipPlain, number] at skip
          cases skip
      | ok result =>
          rw [skipPlain, number] at skip
          exact Nat.le_trans (skip_bytes_size skip) (Nat.le_of_lt (read_varint_takes number).1)
  | sixtyFourBit => exact skip_bytes_size skip
  | thirtyTwoBit => exact skip_bytes_size skip
  | startGroup => cases skip
  | endGroup => cases skip

theorem skip_groups_size {fuel depth : Nat} {groups : List Nat} {input rest : Input}
    (skip : skipGroups fuel depth groups input = .ok rest) : rest.size ≤ input.size := by
  induction fuel generalizing depth groups input with
  | zero => cases skip
  | succ fuel ih =>
      cases groups with
      | nil =>
          cases skip
          exact Nat.le_refl _
      | cons tag groups =>
          cases key : readKey input with
          | error e =>
              rw [skipGroups, key] at skip
              cases skip
          | ok result =>
              obtain ⟨⟨inner, wire⟩, left⟩ := result
              have shorter := Nat.le_of_lt (read_key_takes key)
              rw [skipGroups, key] at skip
              simp only [bind, Except.bind] at skip
              split at skip
              · split at skip
                · exact Nat.le_trans (ih skip) shorter
                · cases skip
              · split at skip
                · cases skip
                · exact Nat.le_trans (ih skip) shorter
              · split at skip
                · cases skip
                · split at skip
                  · cases skip
                  · next passed => exact Nat.le_trans (Nat.le_trans (ih skip) (skip_plain_size passed)) shorter

theorem skip_field_size {depth tag : Nat} {wire : WireType} {input rest : Input}
    (skip : skipField depth tag wire input = .ok rest) : rest.size ≤ input.size := by
  unfold skipField at skip
  split at skip
  · cases skip
  · split at skip
    · exact skip_groups_size skip
    · exact skip_plain_size skip

end Sizes

end EventPipeline.Protobuf

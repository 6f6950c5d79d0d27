import EventPipeline.Text.Utf8

/-!
Characters and their bytes. The reader of UTF-8 gives back whatever was written, one character after
another, and it accepts nothing else.
-/

set_option autoImplicit false

namespace EventPipeline

theorem byte_of_nat {n : Nat} (small : n < 256) : (UInt8.ofNat n).toNat = n := by
  rw [UInt8.toNat_ofNat']
  exact Nat.mod_eq_of_lt small

theorem byte_eq {n : Nat} {byte : UInt8} (same : n = byte.toNat) : UInt8.ofNat n = byte := by
  rw [same, UInt8.ofNat_toNat]

namespace Utf8

-- A byte that continues a character.
theorem decode_continued {pending : Pending} {byte : UInt8} (inside : pending.low ≤ byte.toNat)
    (below : byte.toNat ≤ pending.high) (rest : Bytes) :
    decodeFrom (some pending) (byte :: rest) =
      if pending.owed ≤ 1 then
        (decodeFrom none rest).map (Char.ofNat (pending.value * 64 + (byte.toNat - 0x80)) :: ·)
      else
        decodeFrom
          (some ⟨pending.owed - 1, 0x80, 0xBF, pending.value * 64 + (byte.toNat - 0x80)⟩) rest := by
  rw [decodeFrom, step, next]
  simp only [if_pos (And.intro inside below)]
  by_cases last : pending.owed ≤ 1
  · simp only [if_pos last]
  · simp only [if_neg last]

theorem decode_tail {owed value last : Nat} (small : last < 64) (rest : Bytes) :
    decodeFrom (some ⟨owed, 0x80, 0xBF, value⟩) (UInt8.ofNat (0x80 + last) :: rest) =
      if owed ≤ 1 then (decodeFrom none rest).map (Char.ofNat (value * 64 + last) :: ·)
      else decodeFrom (some ⟨owed - 1, 0x80, 0xBF, value * 64 + last⟩) rest := by
  have byte : (UInt8.ofNat (0x80 + last)).toNat = 0x80 + last := byte_of_nat (by omega)
  rw [decode_continued (by rw [byte]; exact Nat.le_add_right _ _) (by rw [byte]; dsimp only; omega), byte,
    Nat.add_sub_cancel_left]

-- The cases of the writer, by the number of bytes; the narrowed range of a second byte holds because the
-- character is neither a surrogate nor written longer than it needs.
theorem decode_from_char (c : Char) (rest : Bytes) :
    decodeFrom none (encodeChar c ++ rest) = (decodeFrom none rest).map (c :: ·) := by
  have valid : c.toNat < 0xD800 ∨ (0xDFFF < c.toNat ∧ c.toNat < 0x110000) := c.valid
  have same : Char.ofNat c.toNat = c := Char.ofNat_toNat c
  unfold encodeChar
  generalize c.toNat = n at valid same
  subst same
  dsimp only
  by_cases one : n < 0x80
  · rw [if_pos one, List.singleton_append, decodeFrom, step, first, byte_of_nat (by omega)]
    simp only [if_pos one]
  by_cases two : n < 0x800
  · have lead : (UInt8.ofNat (0xC0 + n / 64)).toNat = 0xC0 + n / 64 := byte_of_nat (by omega)
    rw [if_neg one, if_pos two, List.cons_append, List.cons_append, List.nil_append, decodeFrom, step,
      first, lead]
    simp only [if_neg (show ¬ 0xC0 + n / 64 < 0x80 by omega), if_neg (show ¬ 0xC0 + n / 64 < 0xC2 by omega),
      if_pos (show 0xC0 + n / 64 < 0xE0 by omega)]
    rw [decode_tail (by omega), if_pos (Nat.le_refl 1)]
    rw [show (0xC0 + n / 64 - 0xC0) * 64 + n % 64 = n by omega]
  by_cases three : n < 0x10000
  · have lead : (UInt8.ofNat (0xE0 + n / 4096)).toNat = 0xE0 + n / 4096 := byte_of_nat (by omega)
    have second : (UInt8.ofNat (0x80 + n / 64 % 64)).toNat = 0x80 + n / 64 % 64 := byte_of_nat (by omega)
    rw [if_neg one, if_neg two, if_pos three]
    simp only [List.cons_append, List.nil_append]
    rw [decodeFrom, step, first, lead]
    simp only [if_neg (show ¬ 0xE0 + n / 4096 < 0x80 by omega),
      if_neg (show ¬ 0xE0 + n / 4096 < 0xC2 by omega), if_neg (show ¬ 0xE0 + n / 4096 < 0xE0 by omega),
      if_pos (show 0xE0 + n / 4096 < 0xF0 by omega)]
    rw [decode_continued (by rw [second]; dsimp only; split <;> omega)
      (by rw [second]; dsimp only; split <;> omega), second]
    simp only [Nat.reduceLeDiff, if_false, Nat.reduceSub]
    rw [decode_tail (by omega), if_pos (Nat.le_refl 1)]
    rw [show ((0xE0 + n / 4096 - 0xE0) * 64 + (0x80 + n / 64 % 64 - 0x80)) * 64 + n % 64 = n by omega]
  · have lead : (UInt8.ofNat (0xF0 + n / 262144)).toNat = 0xF0 + n / 262144 := byte_of_nat (by omega)
    have second : (UInt8.ofNat (0x80 + n / 4096 % 64)).toNat = 0x80 + n / 4096 % 64 :=
      byte_of_nat (by omega)
    rw [if_neg one, if_neg two, if_neg three]
    simp only [List.cons_append, List.nil_append]
    rw [decodeFrom, step, first, lead]
    simp only [if_neg (show ¬ 0xF0 + n / 262144 < 0x80 by omega),
      if_neg (show ¬ 0xF0 + n / 262144 < 0xC2 by omega), if_neg (show ¬ 0xF0 + n / 262144 < 0xE0 by omega),
      if_neg (show ¬ 0xF0 + n / 262144 < 0xF0 by omega), if_pos (show 0xF0 + n / 262144 < 0xF5 by omega)]
    rw [decode_continued (by rw [second]; dsimp only; split <;> omega)
      (by rw [second]; dsimp only; split <;> omega), second]
    simp only [Nat.reduceLeDiff, if_false, Nat.reduceSub]
    rw [decode_tail (by omega), if_neg (show ¬ 3 - 1 ≤ 1 by decide), decode_tail (by omega),
      if_pos (Nat.le_refl _)]
    rw [show (((0xF0 + n / 262144 - 0xF0) * 64 + (0x80 + n / 4096 % 64 - 0x80)) * 64 + n / 64 % 64) * 64 +
      n % 64 = n by omega]

theorem decode_encode (chars : List Char) : decode? (encode chars) = some chars := by
  unfold decode?
  induction chars with
  | nil => rfl
  | cons c chars ih =>
      rw [encode] at ih ⊢
      rw [List.flatMap_cons, decode_from_char, ih, Option.map_some]

theorem of_nat_valid {n : Nat} (valid : n.isValidChar) : (Char.ofNat n).toNat = n := by
  have whole : Char.ofNat n = Char.ofNatAux n valid := dif_pos valid
  rw [whole]
  rfl

theorem encode_cons (c : Char) (chars : List Char) : encode (c :: chars) = encodeChar c ++ encode chars :=
  List.flatMap_cons

def Tail (byte : UInt8) : Prop := 0x80 ≤ byte.toNat ∧ byte.toNat ≤ 0xBF

-- A character starts with its own number or with a byte above those that continue one.
structure Shape (c : Char) (lead : UInt8) (tail : Bytes) : Prop where
  written : encodeChar c = lead :: tail
  lead : lead.toNat = c.toNat ∧ c.toNat < 0x80 ∨ 0xBF < lead.toNat ∧ 0x80 ≤ c.toNat
  tail : ∀ byte ∈ tail, Tail byte

theorem encode_char_shape (c : Char) : ∃ lead tail, Shape c lead tail := by
  have valid : c.toNat < 0xD800 ∨ (0xDFFF < c.toNat ∧ c.toNat < 0x110000) := c.valid
  have leads {n : Nat} (small : n < 256) (above : 0xBF < n) : 0xBF < (UInt8.ofNat n).toNat := by
    rwa [byte_of_nat small]
  have tails (n : Nat) : Tail (UInt8.ofNat (0x80 + n % 64)) := by
    rw [Tail, byte_of_nat (by omega)]
    omega
  by_cases one : c.toNat < 0x80
  · exact ⟨_, [], by simp [encodeChar, one], .inl ⟨byte_of_nat (by omega), one⟩, nofun⟩
  by_cases two : c.toNat < 0x800
  · refine ⟨UInt8.ofNat (0xC0 + c.toNat / 64), [UInt8.ofNat (0x80 + c.toNat % 64)], ?_,
      .inr ⟨leads (by omega) (by omega), by omega⟩, List.forall_mem_singleton.mpr (tails _)⟩
    simp only [encodeChar, if_neg one, if_pos two]
  by_cases three : c.toNat < 0x10000
  · refine ⟨UInt8.ofNat (0xE0 + c.toNat / 4096),
      [UInt8.ofNat (0x80 + c.toNat / 64 % 64), UInt8.ofNat (0x80 + c.toNat % 64)], ?_,
      .inr ⟨leads (by omega) (by omega), by omega⟩,
      List.forall_mem_cons.mpr ⟨tails _, List.forall_mem_singleton.mpr (tails _)⟩⟩
    simp only [encodeChar, if_neg one, if_neg two, if_pos three]
  · refine ⟨UInt8.ofNat (0xF0 + c.toNat / 262144), [UInt8.ofNat (0x80 + c.toNat / 4096 % 64),
      UInt8.ofNat (0x80 + c.toNat / 64 % 64), UInt8.ofNat (0x80 + c.toNat % 64)], ?_,
      .inr ⟨leads (by omega) (by omega), by omega⟩, List.forall_mem_cons.mpr ⟨tails _,
      List.forall_mem_cons.mpr ⟨tails _, List.forall_mem_singleton.mpr (tails _)⟩⟩⟩
    simp only [encodeChar, if_neg one, if_neg two, if_neg three]

theorem encode_one {a : UInt8} (ascii : a.toNat < 0x80) : encodeChar (Char.ofNat a.toNat) = [a] := by
  rw [encodeChar, of_nat_valid (.inl (by omega))]
  simp [ascii]

theorem encode_two {a b : UInt8} (above : 0xC2 ≤ a.toNat) (below : a.toNat < 0xE0) (tail : Tail b) :
    encodeChar (Char.ofNat ((a.toNat - 0xC0) * 64 + (b.toNat - 0x80))) = [a, b] := by
  obtain ⟨low, high⟩ := tail
  generalize number : (a.toNat - 0xC0) * 64 + (b.toNat - 0x80) = n
  have first : 0xC0 + n / 64 = a.toNat := by omega
  have second : 0x80 + n % 64 = b.toNat := by omega
  rw [encodeChar, of_nat_valid (.inl (by omega)), if_neg (by omega), if_pos (by omega), byte_eq first,
    byte_eq second]

-- The narrowed ranges keep the number above those with shorter forms and out of the surrogates.
theorem encode_three {a b c : UInt8} (above : 0xE0 ≤ a.toNat) (below : a.toNat < 0xF0)
    (low : (if a.toNat = 0xE0 then 0xA0 else 0x80) ≤ b.toNat)
    (high : b.toNat ≤ if a.toNat = 0xED then 0x9F else 0xBF) (tail : Tail c) :
    encodeChar (Char.ofNat (((a.toNat - 0xE0) * 64 + (b.toNat - 0x80)) * 64 + (c.toNat - 0x80))) =
      [a, b, c] := by
  obtain ⟨low₂, high₂⟩ := tail
  have inner : Tail b := by constructor <;> (split at low <;> split at high <;> omega)
  obtain ⟨low₁, high₁⟩ := inner
  generalize number : ((a.toNat - 0xE0) * 64 + (b.toNat - 0x80)) * 64 + (c.toNat - 0x80) = n
  have valid : n < 0xD800 ∨ (0xDFFF < n ∧ n < 0x110000) := by split at high <;> omega
  have long : 0x800 ≤ n := by split at low <;> omega
  have first : 0xE0 + n / 4096 = a.toNat := by omega
  have second : 0x80 + n / 64 % 64 = b.toNat := by omega
  have third : 0x80 + n % 64 = c.toNat := by omega
  rw [encodeChar, of_nat_valid valid, if_neg (by omega), if_neg (by omega), if_pos (by omega),
    byte_eq first, byte_eq second, byte_eq third]

theorem encode_four {a b c d : UInt8} (above : 0xF0 ≤ a.toNat) (below : a.toNat < 0xF5)
    (low : (if a.toNat = 0xF0 then 0x90 else 0x80) ≤ b.toNat)
    (high : b.toNat ≤ if a.toNat = 0xF4 then 0x8F else 0xBF) (tail : Tail c) (last : Tail d) :
    encodeChar (Char.ofNat ((((a.toNat - 0xF0) * 64 + (b.toNat - 0x80)) * 64 + (c.toNat - 0x80)) * 64 +
      (d.toNat - 0x80))) = [a, b, c, d] := by
  obtain ⟨low₂, high₂⟩ := tail
  obtain ⟨low₃, high₃⟩ := last
  have inner : Tail b := by constructor <;> (split at low <;> split at high <;> omega)
  obtain ⟨low₁, high₁⟩ := inner
  generalize number : (((a.toNat - 0xF0) * 64 + (b.toNat - 0x80)) * 64 + (c.toNat - 0x80)) * 64 +
    (d.toNat - 0x80) = n
  have long : 0x10000 ≤ n := by split at low <;> omega
  have within : n < 0x110000 := by split at high <;> omega
  have first : 0xF0 + n / 262144 = a.toNat := by omega
  have second : 0x80 + n / 4096 % 64 = b.toNat := by omega
  have third : 0x80 + n / 64 % 64 = c.toNat := by omega
  have fourth : 0x80 + n % 64 = d.toNat := by omega
  rw [encodeChar, of_nat_valid (.inr ⟨by omega, within⟩), if_neg (by omega), if_neg (by omega),
    if_neg (by omega), byte_eq first, byte_eq second, byte_eq third, byte_eq fourth]

theorem decode_pending {owed low high value : Nat} {bytes : Bytes} {chars : List Char}
    (read : decodeFrom (some ⟨owed, low, high, value⟩) bytes = some chars) :
    ∃ byte rest, bytes = byte :: rest ∧ low ≤ byte.toNat ∧ byte.toNat ≤ high ∧
      (if owed ≤ 1 then (decodeFrom none rest).map (Char.ofNat (value * 64 + (byte.toNat - 0x80)) :: ·)
      else decodeFrom (some ⟨owed - 1, 0x80, 0xBF, value * 64 + (byte.toNat - 0x80)⟩) rest) =
        some chars := by
  cases bytes with
  | nil => cases read
  | cons byte rest =>
      by_cases inside : low ≤ byte.toNat ∧ byte.toNat ≤ high
      · rw [decode_continued inside.1 inside.2] at read
        exact ⟨byte, rest, rfl, inside.1, inside.2, read⟩
      · simp [decodeFrom, step, next, inside] at read

theorem decode_last {low high value : Nat} {bytes : Bytes} {chars : List Char}
    (read : decodeFrom (some ⟨1, low, high, value⟩) bytes = some chars) :
    ∃ byte rest, bytes = byte :: rest ∧ (low ≤ byte.toNat ∧ byte.toNat ≤ high) ∧
      ∃ others, decodeFrom none rest = some others ∧
        chars = Char.ofNat (value * 64 + (byte.toNat - 0x80)) :: others := by
  obtain ⟨byte, rest, rfl, above, below, later⟩ := decode_pending read
  obtain ⟨others, decoded, rfl⟩ := Option.map_eq_some_iff.mp later
  exact ⟨byte, rest, rfl, ⟨above, below⟩, others, decoded, rfl⟩

-- The cases of the reader, by what its first byte owes.
theorem decode_character {a : UInt8} {rest : Bytes} {chars : List Char}
    (read : decodeFrom none (a :: rest) = some chars) :
    ∃ c later others, a :: rest = encodeChar c ++ later ∧ decodeFrom none later = some others ∧
      chars = c :: others := by
  rw [decodeFrom, step, first] at read
  by_cases one : a.toNat < 0x80
  · simp only [if_pos one] at read
    obtain ⟨others, decoded, rfl⟩ := Option.map_eq_some_iff.mp read
    exact ⟨_, rest, others, by rw [encode_one one]; rfl, decoded, rfl⟩
  by_cases stray : a.toNat < 0xC2
  · simp [one, stray] at read
  by_cases two : a.toNat < 0xE0
  · simp only [if_neg one, if_neg stray, if_pos two] at read
    obtain ⟨b, later, rfl, tail, others, decoded, rfl⟩ := decode_last read
    exact ⟨_, later, others, by rw [encode_two (by omega) two tail]; rfl, decoded, rfl⟩
  by_cases three : a.toNat < 0xF0
  · simp only [if_neg one, if_neg stray, if_neg two, if_pos three] at read
    obtain ⟨b, more, rfl, low, high, read⟩ := decode_pending read
    obtain ⟨c, later, rfl, tail, others, decoded, rfl⟩ := decode_last read
    exact ⟨_, later, others, by rw [encode_three (by omega) three low high tail]; rfl, decoded, rfl⟩
  by_cases four : a.toNat < 0xF5
  · simp only [if_neg one, if_neg stray, if_neg two, if_neg three, if_pos four] at read
    obtain ⟨b, more, rfl, low, high, read⟩ := decode_pending read
    obtain ⟨c, more, rfl, low₂, high₂, read⟩ := decode_pending read
    obtain ⟨d, later, rfl, last, others, decoded, rfl⟩ := decode_last read
    have whole := encode_four (by omega) four low high ⟨low₂, high₂⟩ last
    exact ⟨_, later, others, by rw [whole]; rfl, decoded, rfl⟩
  · simp [one, stray, two, three, four] at read

-- Induction on the number of bytes, one character at a time.
theorem encode_of_decode {bytes : Bytes} {chars : List Char} (read : decodeFrom none bytes = some chars) :
    bytes = encode chars := by
  induction size : bytes.length using Nat.strongRecOn generalizing bytes chars with
  | ind _ ih =>
      cases bytes with
      | nil =>
          cases read
          rfl
      | cons a rest =>
          obtain ⟨c, later, others, split, decoded, rfl⟩ := decode_character read
          obtain ⟨lead, tail, shape⟩ := encode_char_shape c
          have shorter : later.length < (a :: rest).length := by
            rw [split, shape.written, List.length_append, List.length_cons]
            omega
          rw [split, encode_cons, ih _ (size ▸ shorter) decoded rfl]

theorem decode_iff {bytes : Bytes} {chars : List Char} : decode? bytes = some chars ↔ bytes = encode chars :=
  ⟨encode_of_decode, fun same => same ▸ decode_encode chars⟩

theorem encode_nil_iff {chars : List Char} : encode chars = [] ↔ chars = [] := by
  cases chars with
  | nil => exact iff_of_true rfl rfl
  | cons c chars =>
      obtain ⟨lead, tail, shape⟩ := encode_char_shape c
      simp [encode_cons, shape.written]

theorem first_byte {byte : UInt8} {bytes : Bytes} {chars : List Char} (written : byte :: bytes = encode chars) :
    ∃ c tail others, Shape c byte tail ∧ bytes = tail ++ encode others ∧ chars = c :: others := by
  cases chars with
  | nil => cases written
  | cons c others =>
      obtain ⟨lead, tail, shape⟩ := encode_char_shape c
      rw [encode_cons, shape.written] at written
      obtain ⟨rfl, same⟩ := List.cons.inj written
      exact ⟨c, tail, others, shape, same, rfl⟩

-- No character begins where another one still waits for bytes.
theorem whole_character {c : Char} {bytes missing : Bytes} {chars : List Char}
    (tails : ∀ byte ∈ missing, Tail byte) (written : encodeChar c ++ bytes = missing ++ encode chars) :
    missing = [] ∧ ∃ others, bytes = encode others ∧ chars = c :: others := by
  cases missing with
  | nil =>
      have decoded : decodeFrom none (encodeChar c ++ bytes) = some chars := decode_iff.mpr written
      rw [decode_from_char] at decoded
      obtain ⟨others, rest, rfl⟩ := Option.map_eq_some_iff.mp decoded
      exact ⟨rfl, others, encode_of_decode rest, rfl⟩
  | cons wanted missing =>
      obtain ⟨lead, tail, shape⟩ := encode_char_shape c
      rw [shape.written] at written
      obtain ⟨rfl, -⟩ := List.cons.inj written
      have low := tails lead List.mem_cons_self
      have high := shape.lead
      rw [Tail] at low
      omega

end Utf8

namespace Bytes

theorem string_of_string (text : String) : (ofString text).toString? = some text := by
  rw [toString?, ofString, Utf8.decode_encode, Option.map_some, String.ofList_toList]

theorem to_string_iff {bytes : Bytes} {text : String} :
    bytes.toString? = some text ↔ bytes = ofString text := by
  constructor
  · intro read
    obtain ⟨chars, decoded, rfl⟩ := Option.map_eq_some_iff.mp read
    rw [ofString, String.toList_ofList]
    exact Utf8.decode_iff.mp decoded
  · rintro rfl
    exact string_of_string text

end Bytes

end EventPipeline

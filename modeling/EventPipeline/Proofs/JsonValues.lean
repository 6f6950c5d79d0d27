import EventPipeline.Json.Record
import EventPipeline.Json.Writer
import EventPipeline.Proofs.JsonStrings

/-!
Written JSON values and what their readers make of them: strings, integers, booleans and lists, each
with whatever may stand behind a value.
-/

set_option autoImplicit false

namespace EventPipeline.Json

-- What may stand behind a value: nothing, a comma or a closing bracket.
def Closed : Bytes → Prop
  | [] => True
  | byte :: _ => byte = 0x2C ∨ byte = 0x5D ∨ byte = 0x7D

def Reads {α : Type} (read : Reader α) (text : Bytes) (value : α) : Prop :=
  ∀ rest, Closed rest → read (text ++ rest) = .ok (value, rest)

theorem at_token {β : Type} {missing : Error} {byte : UInt8} (solid : isBlankByte byte = false)
    (rest : Bytes) (next : UInt8 → Bytes → Except Failure β) :
    atToken missing (byte :: rest) next = next byte rest := by
  rw [atToken, skipBlanks, List.dropWhile_cons_of_neg (by simp only [solid]; exact Bool.false_ne_true)]

section Strings

theorem read_text_body (text : String) (rest : Bytes) :
    readTextBody (text.toList.flatMap writeChar ++ 0x22 :: rest) = .ok (text, rest) :=
  read_body_iff.mpr ⟨_, content_written text.toList, rfl⟩

theorem write_text_append (text : String) (rest : Bytes) :
    writeText text ++ rest = 0x22 :: (text.toList.flatMap writeChar ++ 0x22 :: rest) := by
  rw [writeText, List.cons_append, List.append_assoc, List.singleton_append]

theorem reads_text (text : String) : Reads readText (writeText text) text := by
  intro rest _
  rw [write_text_append, readText, readTextAs, at_token (by decide), if_pos rfl, read_text_body]

end Strings

section Integers

def widen (value : Nat) (byte : UInt8) : Nat := value * 10 + digitValue byte

theorem digit_byte {n : Nat} (small : n < 10) :
    isDigit (UInt8.ofNat n.digitChar.toNat) = true ∧ digitValue (UInt8.ofNat n.digitChar.toNat) = n := by
  revert n
  decide

structure Digits (n : Nat) (lead : UInt8) (tail : Bytes) : Prop where
  written : decimal n = lead :: tail
  digit : isDigit lead = true
  digits : ∀ byte ∈ tail, isDigit byte = true
  value : tail.foldl widen (digitValue lead) = n
  zero : lead = 0x30 → n = 0

-- Induction on the number: all digits but the last are those of a tenth of it.
theorem decimal_digits (n : Nat) : ∃ lead tail, Digits n lead tail := by
  induction n using Nat.strongRecOn with
  | ind n ih =>
      by_cases small : n < 10
      · obtain ⟨digit, value⟩ := digit_byte small
        refine ⟨UInt8.ofNat n.digitChar.toNat, [], ?_, digit, fun _ member => (List.not_mem_nil member).elim,
          value, fun lead => ?_⟩
        · rw [decimal, Nat.toDigits_of_lt_base small, List.map_singleton]
        · rw [← value, lead]
          rfl
      · obtain ⟨lead, tail, tenth⟩ := ih (n / 10) (by omega)
        obtain ⟨digit, value⟩ := digit_byte (Nat.mod_lt n (show 0 < 10 by decide))
        refine ⟨lead, tail ++ [UInt8.ofNat (n % 10).digitChar.toNat], ?_, tenth.digit, ?_, ?_, ?_⟩
        · have written := tenth.written
          rw [decimal] at written ⊢
          rw [Nat.toDigits_of_base_le (by decide) (by omega), List.map_append, written, List.map_singleton,
            List.cons_append]
        · simpa only [List.forall_mem_append, List.forall_mem_singleton] using ⟨tenth.digits, digit⟩
        · rw [List.foldl_append, tenth.value, List.foldl_cons, List.foldl_nil, widen, value]
          omega
        · intro zero
          have := tenth.zero zero
          omega

theorem le_widened (digits : Bytes) (value : Nat) : value ≤ digits.foldl widen value := by
  induction digits generalizing value with
  | nil => exact Nat.le_refl _
  | cons byte digits ih =>
      exact Nat.le_trans (by rw [widen]; omega) (ih (widen value byte))

theorem take_significand {digits : Bytes} (all : ∀ byte ∈ digits, isDigit byte = true) {rest : Bytes}
    (stops : startsWithDigit rest = false) (value taken : Nat)
    (fits : digits.foldl widen value ≤ largest64) :
    takeSignificand value taken (digits ++ rest) =
      (digits.foldl widen value, taken + digits.length, rest) := by
  induction digits generalizing value taken with
  | nil =>
      cases rest with
      | nil => rfl
      | cons byte rest =>
          rw [startsWithDigit] at stops
          rw [List.nil_append, takeSignificand, if_neg (by simp only [stops]; exact Bool.false_ne_true)]
          rfl
  | cons byte digits ih =>
      have more : widen value byte ≤ largest64 := Nat.le_trans (le_widened digits _) fits
      rw [widen] at more
      rw [List.cons_append, takeSignificand, if_pos (all byte List.mem_cons_self)]
      simp only [if_pos more]
      rw [← widen, ih (fun b member => all b (List.mem_cons_of_mem _ member)) _ _ fits, List.foldl_cons,
        List.length_cons, Nat.add_assoc, Nat.add_comm 1]

theorem closed_not_digit {rest : Bytes} (closed : Closed rest) : startsWithDigit rest = false := by
  cases rest with
  | nil => rfl
  | cons byte rest => rcases closed with rfl | rfl | rfl <;> rfl

theorem read_whole (positive : Bool) (n : Nat) {rest : Bytes} (closed : Closed rest) :
    readWhole positive n rest = readWhole.whole positive n rest := by
  cases rest with
  | nil => rfl
  | cons byte rest => rcases closed with rfl | rfl | rfl <;> rfl

theorem read_number_decimal (positive : Bool) {n : Nat} (fits : n ≤ largest64) {rest : Bytes}
    (closed : Closed rest) :
    readNumber positive (decimal n ++ rest) = readWhole.whole positive n rest := by
  obtain ⟨lead, tail, digits⟩ := decimal_digits n
  by_cases zero : lead = 0x30
  · have none : n = 0 := digits.zero zero
    subst none
    rw [show decimal 0 = [0x30] by decide, List.singleton_append, readNumber, if_pos rfl,
      closed_not_digit closed, if_neg Bool.false_ne_true, read_whole positive 0 closed]
  · have taken := take_significand digits.digits (closed_not_digit closed) _ 1
      (by rw [digits.value]; exact fits)
    rw [digits.written, List.cons_append, readNumber, if_neg zero, if_pos digits.digit, taken]
    simp only [closed_not_digit closed, Bool.false_eq_true, if_false, digits.value,
      read_whole positive n closed]

theorem digit_solid {byte : UInt8} (digit : isDigit byte = true) :
    isBlankByte byte = false ∧ byte ≠ 0x2D := by
  simp only [isDigit, Bool.and_eq_true, decide_eq_true_eq, UInt8.le_iff_toNat_le] at digit
  simp only [isBlankByte, Bool.or_eq_false_iff, beq_eq_false_iff_ne, ne_eq, ← UInt8.toNat_inj]
  have low : (0x30 : UInt8).toNat = 0x30 := rfl
  simp only [low] at digit
  refine ⟨⟨⟨⟨?_, ?_⟩, ?_⟩, ?_⟩, ?_⟩ <;> intro same <;> rw [same] at digit <;> exact absurd digit.1 (by decide)

theorem reads_natural {expected : String} {low high : Int} {n : Nat} (below : (n : Int) ≤ high)
    (narrow : high ≤ (largest64 : Int)) : Reads (readInteger expected low high) (decimal n) n := by
  intro rest closed
  obtain ⟨lead, tail, digits⟩ := decimal_digits n
  obtain ⟨solid, unsigned⟩ := digit_solid digits.digit
  have number := read_number_decimal true (show n ≤ largest64 by omega) closed
  rw [digits.written, List.cons_append] at number ⊢
  rw [readInteger, at_token solid, if_neg unsigned, if_pos digits.digit, number]
  simp only [readWhole.whole, if_true, bind, Except.bind, if_pos below]

theorem reads_integer {expected : String} {low high n : Int} (above : low ≤ n) (below : n ≤ high)
    (wide : -9223372036854775808 ≤ low) (narrow : high ≤ (largest64 : Int)) :
    Reads (readInteger expected low high) (decimalInt n) n := by
  cases n with
  | ofNat n => exact reads_natural below narrow
  | negSucc n =>
      intro rest closed
      have number := read_number_decimal false (show n + 1 ≤ largest64 by rw [largest64]; omega) closed
      have fits : 0 < n + 1 ∧ n + 1 ≤ 9223372036854775808 := by omega
      have value : -((n + 1 : Nat) : Int) = Int.negSucc n := rfl
      rw [decimalInt, List.cons_append, readInteger, at_token (by decide), if_pos rfl, number]
      simp only [readWhole.whole, Bool.false_eq_true, if_false, if_pos fits, bind, Except.bind, value,
        if_pos above]

end Integers

theorem Reads.map {α β : Type} {read : Reader α} {text : Bytes} {value : α}
    (reads : Reads read text value) {f : α → β} {result : β} (same : f value = result) :
    Reads (fun bytes => (read bytes).map fun pair => (f pair.1, pair.2)) text result := by
  intro rest closed
  simp only [reads rest closed, Except.map, same]

theorem reads_boolean (value : Bool) : Reads readBoolean (writeBoolean value) value := by
  intro rest _
  cases value <;> rfl

section Lists

theorem joined_cons (first : Bytes) (others : List Bytes) :
    [0x2C].intercalate (first :: others) = first ++ others.flatMap fun value => 0x2C :: value := by
  induction others generalizing first with
  | nil => simp only [List.intercalate_singleton, List.flatMap_nil, List.append_nil]
  | cons second others ih =>
      rw [List.intercalate_cons_cons, ih, List.flatMap_cons]
      simp only [List.append_assoc, List.cons_append, List.nil_append]

-- A text that an open list does not take for its end.
def Opens (text : Bytes) : Prop := ∃ byte rest, text = byte :: rest ∧ isBlankByte byte = false ∧ byte ≠ 0x5D

variable {α : Type} {item : Reader α} {write : α → Bytes}

theorem read_items_end (fuel : Bytes) (isFirst : Bool) (byte : UInt8) (rest : Bytes) :
    readItems item (byte :: fuel) isFirst (0x5D :: rest) = .ok ([], rest) := by
  have next : nextItem isFirst (0x5D :: rest) = .ok (false, 0x5D :: rest) := rfl
  have ends : endList (0x5D :: rest) = .ok rest := rfl
  simp only [readItems, next, ends, bind, Except.bind, Bool.false_eq_true, if_false]

theorem items_closed (values : List α) (rest : Bytes) :
    Closed ((values.flatMap fun value => 0x2C :: write value) ++ 0x5D :: rest) := by
  cases values with
  | nil => exact .inr (.inl rfl)
  | cons value values => exact .inl rfl

theorem read_items_more (opens : ∀ value, Opens (write value))
    (reads : ∀ value, Reads item (write value) value) (values : List α) (rest : Bytes) {fuel : Bytes}
    (enough : values.length < fuel.length) :
    readItems item fuel false ((values.flatMap fun value => 0x2C :: write value) ++ 0x5D :: rest) =
      .ok (values, rest) := by
  induction values generalizing fuel with
  | nil =>
      cases fuel with
      | nil => cases enough
      | cons byte fuel => exact read_items_end fuel false byte rest
  | cons value values ih =>
      cases fuel with
      | nil => cases enough
      | cons _ fuel =>
          obtain ⟨byte, tail, written, solid, other⟩ := opens value
          have next (after : Bytes) :
              nextItem false (0x2C :: (write value ++ after)) = .ok (true, write value ++ after) := by
            rw [nextItem, at_token (by decide), if_neg (by decide), if_neg Bool.false_ne_true,
              if_pos rfl, written, List.cons_append, at_token solid, if_neg other]
          rw [List.flatMap_cons, List.cons_append, List.cons_append, List.append_assoc]
          simp only [readItems, next, bind, Except.bind, if_true, reads value _ (items_closed values rest),
            ih (Nat.lt_of_succ_lt_succ enough)]

theorem items_long (values : List α) :
    values.length ≤ (values.flatMap fun value => 0x2C :: write value).length := by
  induction values with
  | nil => exact Nat.zero_le _
  | cons value values ih =>
      rw [List.flatMap_cons, List.length_append, List.length_cons, List.length_cons]
      omega

theorem reads_list {levels : Nat} (deep : levels ≠ 0) (opens : ∀ value, Opens (write value))
    (reads : ∀ value, Reads item (write value) value) (values : List α) :
    Reads (readList levels item) (writeList (values.map write)) values := by
  intro rest _
  rw [writeList, writeJoined, List.cons_append, readList, at_token (by decide), if_pos rfl, if_neg deep]
  cases values with
  | nil => exact read_items_end rest true 0x5D rest
  | cons value values =>
      obtain ⟨byte, tail, written, solid, other⟩ := opens value
      have next (after : Bytes) : nextItem true (write value ++ after) = .ok (true, write value ++ after) := by
        rw [nextItem, written, List.cons_append, at_token solid, if_neg other, if_pos rfl]
      have long : values.length ≤ (values.flatMap fun value => 0x2C :: write value).length :=
        items_long values
      rw [List.map_cons, joined_cons, List.flatMap_map]
      simp only [List.append_assoc, List.singleton_append]
      cases size : write value ++ ((values.flatMap fun value => 0x2C :: write value) ++ 0x5D :: rest) with
      | nil => simp only [written, List.cons_append, reduceCtorEq] at size
      | cons first fuel =>
          have enough : values.length < fuel.length := by
            have total := congrArg List.length size
            simp only [written, List.cons_append, List.length_cons, List.length_append] at total
            omega
          rw [readItems, ← size, next]
          simp only [bind, Except.bind, if_true, reads value _ (items_closed values rest),
            read_items_more opens reads values rest enough]

end Lists

theorem text_opens (text : String) : Opens (writeText text) :=
  ⟨0x22, _, rfl, rfl, by decide⟩

theorem reads_texts {levels : Nat} (deep : levels ≠ 0) (texts : List String) :
    Reads (readList levels readText) (writeList (texts.map writeText)) texts :=
  reads_list deep text_opens reads_text texts

end EventPipeline.Json

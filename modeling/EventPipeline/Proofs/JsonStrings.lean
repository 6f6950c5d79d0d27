import EventPipeline.Json.Text
import EventPipeline.Proofs.Characters

/-!
JSON strings in every spelling. A character stands for itself, or behind a backslash as a letter or as
its UTF-16 units in hexadecimal digits; the reader of strings accepts these texts and no others.
-/

set_option autoImplicit false

namespace EventPipeline.Json

def HexDigit (n : Nat) (byte : UInt8) : Prop :=
  n < 16 ∧ (byte = UInt8.ofNat n.digitChar.toNat ∨ byte = UInt8.ofNat n.digitChar.toUpper.toNat)

instance (n : Nat) (byte : UInt8) : Decidable (HexDigit n byte) := inferInstanceAs (Decidable (_ ∧ _))

-- Four digits, and the number they stand for.
inductive HexText : Nat → Bytes → Prop where
  | digits {a b c d : Nat} {w x y z : UInt8} (first : HexDigit a w) (second : HexDigit b x)
      (third : HexDigit c y) (fourth : HexDigit d z) :
      HexText (((a * 16 + b) * 16 + c) * 16 + d) [w, x, y, z]

def shortEscapes : List (UInt8 × Char) :=
  [(0x22, '"'), (0x5C, '\\'), (0x2F, '/'), (0x62, '\x08'), (0x66, '\x0C'), (0x6E, '\n'), (0x72, '\r'),
    (0x74, '\t')]

-- The UTF-16 units of a character, as they stand behind `\u`.
inductive UnitsText (c : Char) : Bytes → Prop where
  | one {digits : Bytes} (hex : HexText c.toNat digits) : UnitsText c digits
  | two {leading trailing : Bytes} (beyond : 0x10000 ≤ c.toNat)
      (first : HexText (0xD800 + (c.toNat - 0x10000) / 0x400) leading)
      (second : HexText (0xDC00 + (c.toNat - 0x10000) % 0x400) trailing) :
      UnitsText c (leading ++ 0x5C :: 0x75 :: trailing)

inductive EscapeText (c : Char) : Bytes → Prop where
  | short {letter : UInt8} (known : shortEscapes.lookup letter = some c) : EscapeText c [letter]
  | long {units : Bytes} (text : UnitsText c units) : EscapeText c (0x75 :: units)

inductive CharText (c : Char) : Bytes → Prop where
  | plain (printable : 0x20 ≤ c.toNat) (quote : c ≠ '"') (backslash : c ≠ '\\') :
      CharText c (Utf8.encodeChar c)
  | escaped {text : Bytes} (escape : EscapeText c text) : CharText c (0x5C :: text)

-- What stands between the quotes of a string.
inductive ContentText : List Char → Bytes → Prop where
  | done : ContentText [] []
  | next {c : Char} {chars : List Char} {first others : Bytes} (char : CharText c first)
      (content : ContentText chars others) : ContentText (c :: chars) (first ++ others)

theorem bind_ok_iff {α β : Type} {x : Except Failure α} {f : α → Except Failure β} {b : β} :
    (x >>= f) = .ok b ↔ ∃ a, x = .ok a ∧ f a = .ok b := by
  cases x <;> simp [bind, Except.bind]

section Escapes

theorem digit_codes {n : Nat} (small : n < 16) :
    n.digitChar.toNat = (if n < 10 then 0x30 + n else 0x57 + n) ∧
      n.digitChar.toUpper.toNat = if n < 10 then 0x30 + n else 0x37 + n := by
  revert n
  decide

theorem hex_value_iff {byte : UInt8} {n : Nat} : hexValue? byte = some n ↔ HexDigit n byte := by
  constructor
  · simp only [hexValue?]
    intro read
    split at read
    · cases read
      have small : byte.toNat - 0x30 < 16 := by omega
      refine ⟨small, .inl (byte_eq ?_).symm⟩
      rw [(digit_codes small).1, if_pos (by omega)]
      omega
    split at read
    · cases read
      have small : byte.toNat - 0x37 < 16 := by omega
      refine ⟨small, .inr (byte_eq ?_).symm⟩
      rw [(digit_codes small).2, if_neg (by omega)]
      omega
    split at read
    · cases read
      have small : byte.toNat - 0x57 < 16 := by omega
      refine ⟨small, .inl (byte_eq ?_).symm⟩
      rw [(digit_codes small).1, if_neg (by omega)]
      omega
    · cases read
  · rintro ⟨small, rfl | rfl⟩ <;> revert n <;> decide

theorem read_hex_iff {bytes rest : Bytes} {n : Nat} :
    readHex bytes = .ok (n, rest) ↔ ∃ digits, HexText n digits ∧ bytes = digits ++ rest := by
  constructor
  · intro read
    unfold readHex at read
    split at read
    · next w x y z later =>
        split at read
        · next a b c d first second third fourth =>
            cases read
            exact ⟨_, .digits (hex_value_iff.mp first) (hex_value_iff.mp second) (hex_value_iff.mp third)
              (hex_value_iff.mp fourth), rfl⟩
        · cases read
    · cases read
  · rintro ⟨_, ⟨first, second, third, fourth⟩, rfl⟩
    simp [readHex, hex_value_iff.mpr first, hex_value_iff.mpr second, hex_value_iff.mpr third,
      hex_value_iff.mpr fourth]

theorem hex_below {n : Nat} {digits : Bytes} (hex : HexText n digits) : n < 0x10000 := by
  obtain ⟨⟨first, -⟩, ⟨second, -⟩, ⟨third, -⟩, ⟨fourth, -⟩⟩ := hex
  omega

theorem read_trailing_iff {bytes rest : Bytes} {n : Nat} :
    readTrailing bytes = .ok (n, rest) ↔
      isTrailing n = true ∧ ∃ digits, HexText n digits ∧ bytes = 0x5C :: 0x75 :: (digits ++ rest) := by
  constructor
  · intro read
    match bytes, read with
    | backslash :: letter :: later, read =>
        by_cases escape : backslash = 0x5C ∧ letter = 0x75
        · obtain ⟨rfl, rfl⟩ := escape
          obtain ⟨⟨unit, left⟩, hex, read⟩ := bind_ok_iff.mp read
          by_cases trailing : isTrailing unit = true
          · simp only [trailing, if_true, Except.ok.injEq, Prod.mk.injEq] at read
            obtain ⟨rfl, rfl⟩ := read
            obtain ⟨digits, text, rfl⟩ := read_hex_iff.mp hex
            exact ⟨trailing, digits, text, rfl⟩
          · simp [trailing] at read
        · simp only [readTrailing] at read
          split at read <;> simp_all
    | [backslash], read =>
        simp only [readTrailing] at read
        split at read <;> cases read
  · rintro ⟨trailing, digits, hex, rfl⟩
    simp [readTrailing, read_hex_iff.mpr ⟨digits, hex, rfl⟩, trailing, bind, Except.bind]

theorem pair_units {l t : Nat} (first : isLeading l = true) (second : isTrailing t = true)
    {leading trailing : Bytes} (text : HexText l leading) (text₂ : HexText t trailing) :
    UnitsText (Char.ofNat (0x10000 + (l - 0xD800) * 0x400 + (t - 0xDC00)))
      (leading ++ 0x5C :: 0x75 :: trailing) := by
  simp only [isLeading, isTrailing, Bool.and_eq_true, decide_eq_true_eq] at first second
  have value : (Char.ofNat (0x10000 + (l - 0xD800) * 0x400 + (t - 0xDC00))).toNat =
      0x10000 + (l - 0xD800) * 0x400 + (t - 0xDC00) := Utf8.of_nat_valid (.inr (by omega))
  generalize Char.ofNat (0x10000 + (l - 0xD800) * 0x400 + (t - 0xDC00)) = c at value
  have high : 0xD800 + (c.toNat - 0x10000) / 0x400 = l := by omega
  have low : 0xDC00 + (c.toNat - 0x10000) % 0x400 = t := by omega
  exact .two (by omega) (high ▸ text) (low ▸ text₂)

theorem pair_of_units {c : Char} (beyond : 0x10000 ≤ c.toNat) :
    let leading := 0xD800 + (c.toNat - 0x10000) / 0x400
    let trailing := 0xDC00 + (c.toNat - 0x10000) % 0x400
    isLeading leading = true ∧ isTrailing leading = false ∧ isTrailing trailing = true ∧
      0x10000 + (leading - 0xD800) * 0x400 + (trailing - 0xDC00) = c.toNat := by
  have valid : c.toNat < 0xD800 ∨ (0xDFFF < c.toNat ∧ c.toNat < 0x110000) := c.valid
  simp only [isLeading, isTrailing, Bool.and_eq_true, Bool.and_eq_false_iff, decide_eq_true_eq,
    decide_eq_false_iff_not]
  omega

theorem not_surrogate (c : Char) : isLeading c.toNat = false ∧ isTrailing c.toNat = false := by
  have valid : c.toNat < 0xD800 ∨ (0xDFFF < c.toNat ∧ c.toNat < 0x110000) := c.valid
  simp only [isTrailing, isLeading, Bool.and_eq_false_iff, decide_eq_false_iff_not]
  omega

theorem read_units {bytes rest piece : Bytes} (read : readNumericEscape bytes = .ok (piece, rest)) :
    ∃ c units, UnitsText c units ∧ bytes = units ++ rest ∧ piece = Utf8.encodeChar c := by
  obtain ⟨⟨unit, left⟩, hex, later⟩ := bind_ok_iff.mp read
  obtain ⟨digits, text, rfl⟩ := read_hex_iff.mp hex
  by_cases trailing : isTrailing unit = true
  · simp [trailing] at later
  by_cases leading : isLeading unit = true
  · simp only [if_neg trailing, if_pos leading] at later
    obtain ⟨⟨second, left⟩, found, last⟩ := bind_ok_iff.mp later
    obtain ⟨follows, others, text₂, rfl⟩ := read_trailing_iff.mp found
    simp only [Except.ok.injEq, Prod.mk.injEq] at last
    obtain ⟨same, rfl⟩ := last
    exact ⟨_, _, pair_units leading follows text text₂, by simp, same.symm⟩
  · simp only [if_neg trailing, if_neg leading] at later
    cases later
    have valid : unit < 0xD800 ∨ (0xDFFF < unit ∧ unit < 0x110000) := by
      have below := hex_below text
      simp only [isLeading, isTrailing, Bool.and_eq_true, decide_eq_true_eq] at leading trailing
      omega
    exact ⟨Char.ofNat unit, digits, .one (by rwa [Utf8.of_nat_valid valid]), rfl, rfl⟩

theorem units_read {c : Char} {units : Bytes} (text : UnitsText c units) (rest : Bytes) :
    readNumericEscape (units ++ rest) = .ok (Utf8.encodeChar c, rest) := by
  cases text with
  | one hex =>
      obtain ⟨leading, trailing⟩ := not_surrogate c
      simp [readNumericEscape, read_hex_iff.mpr ⟨_, hex, rfl⟩, bind, Except.bind, leading, trailing,
        Char.ofNat_toNat]
  | two beyond first second =>
      obtain ⟨leading, apart, trailing, whole⟩ := pair_of_units beyond
      have found := read_trailing_iff.mpr ⟨trailing, _, second, Eq.refl (_ :: _ :: (_ ++ rest))⟩
      simp only [List.append_assoc, List.cons_append, readNumericEscape,
        read_hex_iff.mpr ⟨_, first, rfl⟩, bind, Except.bind, leading, apart, found, whole, Char.ofNat_toNat,
        Bool.false_eq_true, if_true, if_false]

theorem unescape_eq (letter : UInt8) :
    unescape? letter = (shortEscapes.lookup letter).map fun c => UInt8.ofNat c.toNat := by
  simp only [shortEscapes, List.lookup_cons, List.lookup_nil, unescape?]
  repeat' split
  all_goals simp_all

theorem short_ascii {letter : UInt8} {c : Char} (known : shortEscapes.lookup letter = some c) :
    Utf8.encodeChar c = [UInt8.ofNat c.toNat] := by
  have all : ∀ pair ∈ shortEscapes, pair.2.toNat < 0x80 := by decide
  obtain ⟨before, later, split, -⟩ := List.lookup_eq_some_iff.mp known
  have ascii : c.toNat < 0x80 := all (letter, c) (by simp [split])
  simp [Utf8.encodeChar, ascii]

theorem read_escape_iff {bytes rest piece : Bytes} :
    readEscape bytes = .ok (piece, rest) ↔
      ∃ c escape, EscapeText c escape ∧ bytes = escape ++ rest ∧ piece = Utf8.encodeChar c := by
  constructor
  · intro read
    cases bytes with
    | nil => cases read
    | cons letter later =>
        rw [readEscape, unescape_eq] at read
        cases known : shortEscapes.lookup letter with
        | some c =>
            rw [known] at read
            cases read
            exact ⟨c, [letter], .short known, rfl, (short_ascii known).symm⟩
        | none =>
            rw [known] at read
            by_cases long : letter = 0x75
            · simp only [Option.map_none, if_pos long] at read
              obtain ⟨c, units, text, rfl, same⟩ := read_units read
              exact ⟨c, _, .long text, by rw [long]; rfl, same⟩
            · simp [long] at read
  · rintro ⟨c, escape, text, rfl, rfl⟩
    cases text with
    | short known => simp [readEscape, unescape_eq, known, short_ascii known]
    | long text =>
        have none : unescape? 0x75 = none := by decide
        simp [readEscape, none, units_read text]

end Escapes

section Contents

def Plain (byte : UInt8) : Prop := 0x20 ≤ byte.toNat ∧ byte ≠ 0x22 ∧ byte ≠ 0x5C

theorem plain_tail {byte : UInt8} (tail : Utf8.Tail byte) : Plain byte := by
  obtain ⟨low, high⟩ := tail
  refine ⟨by omega, ?_, ?_⟩ <;> rintro rfl <;> exact absurd low (by decide)

-- A character that is not escaped is one whose first byte the reader takes as it is.
theorem plain_lead_iff {c : Char} {lead : UInt8} {tail : Bytes} (shape : Utf8.Shape c lead tail) :
    Plain lead ↔ 0x20 ≤ c.toNat ∧ c ≠ '"' ∧ c ≠ '\\' := by
  have quote : c = '"' ↔ c.toNat = 0x22 := ⟨by rintro rfl; rfl, fun same => Char.toNat_inj.mp same⟩
  have backslash : c = '\\' ↔ c.toNat = 0x5C := ⟨by rintro rfl; rfl, fun same => Char.toNat_inj.mp same⟩
  have number (n : UInt8) : lead = n ↔ lead.toNat = n.toNat := UInt8.toNat_inj.symm
  have lead := shape.lead
  simp only [Plain, ne_eq, quote, backslash, number, UInt8.reduceToNat]
  omega

theorem plain_char {c : Char} (printable : 0x20 ≤ c.toNat) (quote : c ≠ '"') (backslash : c ≠ '\\') :
    ∀ byte ∈ Utf8.encodeChar c, Plain byte := by
  obtain ⟨lead, tail, shape⟩ := Utf8.encode_char_shape c
  rw [shape.written, List.forall_mem_cons]
  exact ⟨(plain_lead_iff shape).mpr ⟨printable, quote, backslash⟩,
    fun byte member => plain_tail (shape.tail byte member)⟩

theorem read_raw_plain {piece : Bytes} (plain : ∀ byte ∈ piece, Plain byte) (rest : Bytes)
    {fuel : Bytes} (enough : piece.length ≤ fuel.length) :
    readRaw fuel (piece ++ rest) =
      (readRaw (fuel.drop piece.length) rest).map fun result => (piece ++ result.1, result.2) := by
  induction piece generalizing fuel with
  | nil =>
      cases read : readRaw fuel rest <;>
        simp only [List.nil_append, List.length_nil, List.drop_zero, read, Except.map]
  | cons byte piece ih =>
      obtain ⟨high, quote, backslash⟩ := plain byte List.mem_cons_self
      cases fuel with
      | nil => cases enough
      | cons _ fuel =>
          have printable : ¬ byte < 0x20 := by
            rw [UInt8.lt_iff_toNat_lt]
            exact Nat.not_lt.mpr high
          rw [List.cons_append, readRaw, if_neg quote, if_neg backslash, if_neg printable,
            ih (fun b member => plain b (List.mem_cons_of_mem _ member)) (Nat.le_of_succ_le_succ enough),
            List.length_cons, List.drop_succ_cons]
          cases readRaw (fuel.drop piece.length) rest <;> rfl

theorem read_raw_content {chars : List Char} {text : Bytes} (content : ContentText chars text) (rest : Bytes)
    {fuel : Bytes} (enough : text.length < fuel.length) :
    readRaw fuel (text ++ 0x22 :: rest) = .ok (Utf8.encode chars, rest) := by
  induction content generalizing fuel with
  | done =>
      cases fuel with
      | nil => cases enough
      | cons _ fuel => rfl
  | @next c chars first others char content ih =>
      rw [List.append_assoc, Utf8.encode_cons]
      rw [List.length_append] at enough
      cases char with
      | plain printable quote backslash =>
          rw [read_raw_plain (plain_char printable quote backslash) _ (by omega),
            ih (by rw [List.length_drop]; omega)]
          rfl
      | @escaped text escape =>
          cases fuel with
          | nil => cases enough
          | cons _ fuel =>
              rw [List.length_cons, List.length_cons] at enough
              have taken :=
                read_escape_iff.mpr ⟨c, text, escape, Eq.refl (_ ++ (others ++ 0x22 :: rest)), rfl⟩
              rw [List.cons_append, readRaw, if_neg (by decide), if_pos rfl, taken]
              simp only [bind, Except.bind, ih (show others.length < fuel.length by omega)]

-- What one round of the reader can take.
theorem read_raw_cases {byte : UInt8} {fuel bytes raw rest : Bytes}
    (read : readRaw (byte :: fuel) bytes = .ok (raw, rest)) :
    (raw = [] ∧ bytes = 0x22 :: rest) ∨
    (∃ c escape left more, EscapeText c escape ∧ readRaw fuel left = .ok (more, rest) ∧
      raw = Utf8.encodeChar c ++ more ∧ bytes = 0x5C :: (escape ++ left)) ∨
    (∃ plain left more, Plain plain ∧ readRaw fuel left = .ok (more, rest) ∧
      raw = plain :: more ∧ bytes = plain :: left) := by
  cases bytes with
  | nil => cases read
  | cons first bytes =>
      rw [readRaw] at read
      by_cases quote : first = 0x22
      · rw [if_pos quote] at read
        cases read
        exact .inl ⟨rfl, by rw [quote]⟩
      rw [if_neg quote] at read
      by_cases backslash : first = 0x5C
      · rw [if_pos backslash] at read
        obtain ⟨⟨piece, left⟩, escape, later⟩ := bind_ok_iff.mp read
        obtain ⟨⟨more, stop⟩, others, last⟩ := bind_ok_iff.mp later
        cases last
        obtain ⟨c, text, known, rfl, rfl⟩ := read_escape_iff.mp escape
        exact .inr (.inl ⟨c, text, left, more, known, others, rfl, by rw [backslash]⟩)
      rw [if_neg backslash] at read
      by_cases control : first < 0x20
      · simp [control] at read
      · rw [if_neg control] at read
        obtain ⟨⟨more, stop⟩, others, last⟩ := bind_ok_iff.mp read
        cases last
        have plain : Plain first := ⟨Nat.le_of_not_lt control, quote, backslash⟩
        exact .inr (.inr ⟨first, bytes, more, plain, others, rfl, rfl⟩)

-- Induction on the rounds. The bytes in `missing` are those that a character begun before still waits for:
-- it gets them as they stand, since no escape brings a byte that continues a character.
theorem content_of_read_raw {fuel bytes raw rest missing : Bytes} {chars : List Char}
    (read : readRaw fuel bytes = .ok (raw, rest)) (tails : ∀ byte ∈ missing, Utf8.Tail byte)
    (written : raw = missing ++ Utf8.encode chars) :
    ∃ text, ContentText chars text ∧ bytes = missing ++ (text ++ 0x22 :: rest) := by
  induction fuel generalizing bytes raw missing chars with
  | nil => cases read
  | cons _ fuel ih =>
      obtain ⟨rfl, rfl⟩ | ⟨c, escape, left, more, known, others, rfl, rfl⟩ |
        ⟨byte, left, more, plain, others, rfl, rfl⟩ := read_raw_cases read
      · obtain ⟨rfl, none⟩ := List.append_eq_nil_iff.mp written.symm
        rw [Utf8.encode_nil_iff] at none
        subst none
        exact ⟨[], .done, rfl⟩
      · obtain ⟨rfl, chars, same, rfl⟩ := Utf8.whole_character tails written
        obtain ⟨content, spelled, rfl⟩ := ih others tails same
        exact ⟨_, .next (.escaped known) spelled, by simp⟩
      · cases missing with
        | nil =>
            obtain ⟨c, tail, chars, shape, same, rfl⟩ := Utf8.first_byte written
            obtain ⟨printable, quote, backslash⟩ := (plain_lead_iff shape).mp plain
            obtain ⟨content, spelled, rfl⟩ := ih others shape.tail same
            exact ⟨_, .next (.plain printable quote backslash) spelled, by simp [shape.written]⟩
        | cons wanted missing =>
            obtain ⟨rfl, same⟩ := List.cons.inj written
            obtain ⟨content, spelled, rfl⟩ := ih others (List.forall_mem_cons.mp tails).2 same
            exact ⟨content, spelled, rfl⟩

theorem read_body_iff {bytes rest : Bytes} {text : String} :
    readTextBody bytes = .ok (text, rest) ↔
      ∃ content, ContentText text.toList content ∧ bytes = content ++ 0x22 :: rest := by
  constructor
  · intro read
    obtain ⟨⟨raw, left⟩, taken, later⟩ := bind_ok_iff.mp read
    cases decoded : raw.toString? with
    | none => simp [decoded] at later
    | some found =>
        simp only [decoded] at later
        cases later
        have written : raw = [] ++ Utf8.encode text.toList := Bytes.to_string_iff.mp decoded
        exact content_of_read_raw taken (List.forall_mem_nil _) written
  · rintro ⟨content, spelled, rfl⟩
    have enough : content.length < (content ++ 0x22 :: rest).length := by
      rw [List.length_append, List.length_cons]
      omega
    have decoded : Bytes.toString? (Utf8.encode text.toList) = some text := Bytes.string_of_string text
    simp only [readTextBody, read_raw_content spelled rest enough, bind, Except.bind, decoded]

end Contents

section Written

theorem hex_digit_written {n : Nat} (small : n < 16) : HexDigit n (hexDigit n) := by
  revert n
  decide

theorem escape_written {n : Nat} {letter : UInt8} (short : shortEscape? n = some letter) :
    shortEscapes.lookup letter = some (Char.ofNat n) := by
  unfold shortEscape? at short
  repeat' split at short
  all_goals first | (subst n; cases short; rfl) | cases short

-- The writer chooses one of the spellings.
theorem char_written (c : Char) : CharText c (writeChar c) := by
  cases short : shortEscape? c.toNat with
  | some letter =>
      rw [writeChar, short]
      exact .escaped (.short (by rw [escape_written short, Char.ofNat_toNat]))
  | none =>
      by_cases control : c.toNat < 0x20
      · have value : ((0 * 16 + 0) * 16 + c.toNat / 16) * 16 + c.toNat % 16 = c.toNat := by omega
        have zero : HexDigit 0 0x30 := by decide
        have hex := HexText.digits zero zero (hex_digit_written (show c.toNat / 16 < 16 by omega))
          (hex_digit_written (show c.toNat % 16 < 16 by omega))
        rw [value] at hex
        simp only [writeChar, short, if_pos control]
        exact .escaped (.long (.one hex))
      · simp only [writeChar, short, if_neg control]
        exact .plain (Nat.le_of_not_lt control) (by rintro rfl; cases short) (by rintro rfl; cases short)

theorem content_written (chars : List Char) : ContentText chars (chars.flatMap writeChar) := by
  induction chars with
  | nil => exact .done
  | cons c chars ih =>
      rw [List.flatMap_cons]
      exact .next (char_written c) ih

end Written

end EventPipeline.Json

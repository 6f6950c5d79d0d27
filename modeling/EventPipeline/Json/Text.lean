import EventPipeline.Json.Position

/-!
JSON strings: the writer escapes quotes, backslashes and control characters only; the reader takes
every escape of the standard and insists on paired surrogates and well-formed UTF-8.
-/

set_option autoImplicit false

namespace EventPipeline.Json

def hexDigit (n : Nat) : UInt8 := UInt8.ofNat (if n < 10 then 0x30 + n else 0x57 + n)

def shortEscape? (n : Nat) : Option UInt8 :=
  if n = 0x22 then some 0x22
  else if n = 0x5C then some 0x5C
  else if n = 0x08 then some 0x62
  else if n = 0x09 then some 0x74
  else if n = 0x0A then some 0x6E
  else if n = 0x0C then some 0x66
  else if n = 0x0D then some 0x72
  else none

def writeChar (c : Char) : Bytes :=
  match shortEscape? c.toNat with
  | some letter => [0x5C, letter]
  | none =>
      if c.toNat < 0x20 then
        [0x5C, 0x75, 0x30, 0x30, hexDigit (c.toNat / 16), hexDigit (c.toNat % 16)]
      else Utf8.encodeChar c

def writeText (text : String) : Bytes := 0x22 :: (text.toList.flatMap writeChar ++ [0x22])

def hexValue? (byte : UInt8) : Option Nat :=
  let b := byte.toNat
  if 0x30 ≤ b ∧ b ≤ 0x39 then some (b - 0x30)
  else if 0x41 ≤ b ∧ b ≤ 0x46 then some (b - 0x37)
  else if 0x61 ≤ b ∧ b ≤ 0x66 then some (b - 0x57)
  else none

def readHex : Bytes → Except Failure (Nat × Bytes)
  | a :: b :: c :: d :: rest =>
      match hexValue? a, hexValue? b, hexValue? c, hexValue? d with
      | some a, some b, some c, some d => .ok (((a * 16 + b) * 16 + c) * 16 + d, rest)
      | _, _, _, _ => .error ⟨.invalidEscape, rest⟩
  | _ => .error ⟨.eofString, []⟩

def isLeading (unit : Nat) : Bool := 0xD800 ≤ unit && unit ≤ 0xDBFF

def isTrailing (unit : Nat) : Bool := 0xDC00 ≤ unit && unit ≤ 0xDFFF

def readTrailing : Bytes → Except Failure (Nat × Bytes)
  | [] => .error ⟨.eofString, []⟩
  | backslash :: rest =>
      if backslash = 0x5C then
        match rest with
        | [] => .error ⟨.eofString, []⟩
        | letter :: rest =>
            if letter = 0x75 then do
              let (unit, rest) ← readHex rest
              if isTrailing unit then .ok (unit, rest) else .error ⟨.loneSurrogate, rest⟩
            else .error ⟨.unexpectedEndOfHexEscape, rest⟩
      else .error ⟨.unexpectedEndOfHexEscape, rest⟩

def readNumericEscape (bytes : Bytes) : Except Failure (Bytes × Bytes) := do
  let (unit, rest) ← readHex bytes
  if isTrailing unit then .error ⟨.loneSurrogate, rest⟩
  else if isLeading unit then
    let (second, rest) ← readTrailing rest
    .ok (Utf8.encodeChar (Char.ofNat (0x10000 + (unit - 0xD800) * 0x400 + (second - 0xDC00))), rest)
  else .ok (Utf8.encodeChar (Char.ofNat unit), rest)

def unescape? (letter : UInt8) : Option UInt8 :=
  if letter = 0x22 then some 0x22
  else if letter = 0x5C then some 0x5C
  else if letter = 0x2F then some 0x2F
  else if letter = 0x62 then some 0x08
  else if letter = 0x66 then some 0x0C
  else if letter = 0x6E then some 0x0A
  else if letter = 0x72 then some 0x0D
  else if letter = 0x74 then some 0x09
  else none

def readEscape : Bytes → Except Failure (Bytes × Bytes)
  | [] => .error ⟨.eofString, []⟩
  | letter :: rest =>
      match unescape? letter with
      | some byte => .ok ([byte], rest)
      | none => if letter = 0x75 then readNumericEscape rest else .error ⟨.invalidEscape, rest⟩

-- The bytes of a string up to its closing quote. Every round takes at least one byte, so the input
-- itself may be the fuel.
def readRaw : Bytes → Bytes → Except Failure (Bytes × Bytes)
  | [], _ => .error ⟨.eofString, []⟩
  | _, [] => .error ⟨.eofString, []⟩
  | _ :: fuel, byte :: rest =>
      if byte = 0x22 then .ok ([], rest)
      else if byte = 0x5C then do
        let (piece, rest) ← readEscape rest
        let (raw, rest) ← readRaw fuel rest
        .ok (piece ++ raw, rest)
      else if byte < 0x20 then .error ⟨.controlCharacter, rest⟩
      else do
        let (raw, rest) ← readRaw fuel rest
        .ok (byte :: raw, rest)

def readTextBody (bytes : Bytes) : Except Failure (String × Bytes) := do
  let (raw, rest) ← readRaw bytes bytes
  match raw.toString? with
  | some text => .ok (text, rest)
  | none => .error ⟨.invalidUnicode, rest⟩

def skipEscape : Bytes → Except Failure Bytes
  | [] => .error ⟨.eofString, []⟩
  | letter :: rest =>
      if (unescape? letter).isSome then .ok rest
      else if letter = 0x75 then (readHex rest).map (·.2)
      else .error ⟨.invalidEscape, rest⟩

-- Goes on behind a string whose opening quote was read, without decoding it. The fuel is as for
-- `readRaw`; a control character is noticed before it is taken.
def skipRaw : Bytes → Bytes → Except Failure Bytes
  | [], _ => .error ⟨.eofString, []⟩
  | _, [] => .error ⟨.eofString, []⟩
  | _ :: fuel, byte :: rest =>
      if byte = 0x22 then .ok rest
      else if byte = 0x5C then do skipRaw fuel (← skipEscape rest)
      else if byte < 0x20 then .error ⟨.controlCharacter, byte :: rest⟩
      else skipRaw fuel rest

def skipTextBody (bytes : Bytes) : Except Failure Bytes := skipRaw bytes bytes

end EventPipeline.Json

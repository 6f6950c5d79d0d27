/-!
UTF-8 over lists of bytes. `encode` writes characters, `decode?` accepts exactly the well-formed
sequences, and `decodeLossy` puts one U+FFFD for every maximal prefix of a sequence that breaks off.
Both readers run the same machine, one byte at a time.
-/

set_option autoImplicit false

namespace EventPipeline

abbrev Bytes := List UInt8

namespace Utf8

def encodeChar (c : Char) : Bytes :=
  let n := c.toNat
  if n < 0x80 then [UInt8.ofNat n]
  else if n < 0x800 then [UInt8.ofNat (0xC0 + n / 64), UInt8.ofNat (0x80 + n % 64)]
  else if n < 0x10000 then
    [UInt8.ofNat (0xE0 + n / 4096), UInt8.ofNat (0x80 + n / 64 % 64), UInt8.ofNat (0x80 + n % 64)]
  else
    [UInt8.ofNat (0xF0 + n / 262144), UInt8.ofNat (0x80 + n / 4096 % 64),
      UInt8.ofNat (0x80 + n / 64 % 64), UInt8.ofNat (0x80 + n % 64)]

def encode (chars : List Char) : Bytes := chars.flatMap encodeChar

structure Pending where
  owed : Nat
  low : Nat
  high : Nat
  value : Nat
deriving DecidableEq, Repr

inductive Step where
  | char (c : Char)
  | more (pending : Pending)
  | refused
deriving DecidableEq, Repr

-- The first byte of a character. The narrowed second ranges keep out overlong forms, surrogates and
-- values above U+10FFFF.
def first (byte : UInt8) : Step :=
  let b := byte.toNat
  if b < 0x80 then .char (Char.ofNat b)
  else if b < 0xC2 then .refused
  else if b < 0xE0 then .more ⟨1, 0x80, 0xBF, b - 0xC0⟩
  else if b < 0xF0 then
    .more ⟨2, if b = 0xE0 then 0xA0 else 0x80, if b = 0xED then 0x9F else 0xBF, b - 0xE0⟩
  else if b < 0xF5 then
    .more ⟨3, if b = 0xF0 then 0x90 else 0x80, if b = 0xF4 then 0x8F else 0xBF, b - 0xF0⟩
  else .refused

def next (pending : Pending) (byte : UInt8) : Step :=
  let b := byte.toNat
  if pending.low ≤ b ∧ b ≤ pending.high then
    let value := pending.value * 64 + (b - 0x80)
    if pending.owed ≤ 1 then .char (Char.ofNat value)
    else .more ⟨pending.owed - 1, 0x80, 0xBF, value⟩
  else .refused

def step : Option Pending → UInt8 → Step
  | none, byte => first byte
  | some pending, byte => next pending byte

def decodeFrom : Option Pending → Bytes → Option (List Char)
  | none, [] => some []
  | some _, [] => none
  | pending, byte :: rest =>
      match step pending byte with
      | .char c => (decodeFrom none rest).map (c :: ·)
      | .more pending => decodeFrom (some pending) rest
      | .refused => none

def decode? (bytes : Bytes) : Option (List Char) := decodeFrom none bytes

def replacement : Char := '\uFFFD'

-- One byte of the lossy reader: what it lets out and what is then pending. A byte that breaks a
-- sequence off is read again as a first byte.
def lossyStep : Option Pending → UInt8 → List Char × Option Pending
  | none, byte =>
      match first byte with
      | .char c => ([c], none)
      | .more pending => ([], some pending)
      | .refused => ([replacement], none)
  | some pending, byte =>
      match next pending byte with
      | .char c => ([c], none)
      | .more pending => ([], some pending)
      | .refused =>
          match first byte with
          | .char c => ([replacement, c], none)
          | .more pending => ([replacement], some pending)
          | .refused => ([replacement, replacement], none)

def lossyFrom : Option Pending → Bytes → List Char
  | none, [] => []
  | some _, [] => [replacement]
  | pending, byte :: rest =>
      let result := lossyStep pending byte
      result.1 ++ lossyFrom result.2 rest

def decodeLossy (bytes : Bytes) : List Char := lossyFrom none bytes

end Utf8

namespace Bytes

def ofString (text : String) : Bytes := Utf8.encode text.toList

def toString? (bytes : Bytes) : Option String := (Utf8.decode? bytes).map String.ofList

def toStringLossy (bytes : Bytes) : String := String.ofList (Utf8.decodeLossy bytes)

end Bytes

end EventPipeline

import EventPipeline.Text.Utf8

/-!
Bytes as pairs of hexadecimal digits.
-/

set_option autoImplicit false

namespace EventPipeline

namespace Hex

def digit (n : Nat) : Char := Char.ofNat (if n < 10 then 48 + n else 87 + n)

def value? (c : Char) : Option Nat :=
  if '0' ≤ c ∧ c ≤ '9' then some (c.toNat - 48)
  else if 'a' ≤ c ∧ c ≤ 'f' then some (c.toNat - 87)
  else if 'A' ≤ c ∧ c ≤ 'F' then some (c.toNat - 55)
  else none

def encode (bytes : Bytes) : List Char :=
  bytes.flatMap fun byte => [digit (byte.toNat / 16), digit (byte.toNat % 16)]

def decode? : List Char → Option Bytes
  | [] => some []
  | [_] => none
  | high :: low :: rest =>
      match value? high, value? low, decode? rest with
      | some high, some low, some bytes => some (UInt8.ofNat (high * 16 + low) :: bytes)
      | _, _, _ => none

end Hex

namespace Bytes

def toHex (bytes : Bytes) : String := String.ofList (Hex.encode bytes)

def ofHex? (text : String) : Option Bytes := Hex.decode? text.toList

end Bytes

end EventPipeline

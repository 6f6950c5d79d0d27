/-!
Decimal digits as bytes, and the reading of unsigned decimal integers with a range limit.
-/

set_option autoImplicit false

namespace EventPipeline

def isDigit (byte : UInt8) : Bool := 0x30 ≤ byte && byte ≤ 0x39

def digitValue (byte : UInt8) : Nat := byte.toNat - 0x30

def decimal (n : Nat) : List UInt8 := (Nat.toDigits 10 n).map fun c => UInt8.ofNat c.toNat

def decimalText (n : Nat) : String := String.ofList (Nat.toDigits 10 n)

def decimalInt : Int → List UInt8
  | .ofNat n => decimal n
  | .negSucc n => 0x2D :: decimal (n + 1)

def decimalIntText : Int → String
  | .ofNat n => decimalText n
  | .negSucc n => "-" ++ decimalText (n + 1)

inductive IntegerError where
  | invalidDigit
  | tooLarge
deriving DecidableEq, Repr

def IntegerError.message : IntegerError → String
  | .invalidDigit => "invalid digit found in string"
  | .tooLarge => "number too large to fit in target type"

-- Reads the remaining digits of a number whose first digits have the value `value`. The first
-- problem from the left is the one reported.
def readDigits (limit : Nat) : Nat → List Char → Except IntegerError Nat
  | value, [] => .ok value
  | value, c :: rest =>
      if c.isDigit then
        let value := value * 10 + (c.toNat - '0'.toNat)
        if value ≤ limit then readDigits limit value rest else .error .tooLarge
      else .error .invalidDigit

def readUnsigned (limit : Nat) (text : String) : Except IntegerError Nat :=
  let digits :=
    match text.toList with
    | '+' :: rest => rest
    | chars => chars
  if digits.isEmpty then .error .invalidDigit else readDigits limit 0 digits

end EventPipeline

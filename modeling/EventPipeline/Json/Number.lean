import EventPipeline.Json.Position
import EventPipeline.Number.Bounds
import EventPipeline.Number.Shortest

/-!
JSON numbers. Integers that fit 64 bits stay exact; everything else becomes a floating-point number,
which no event type accepts, so only its text matters.
-/

set_option autoImplicit false

namespace EventPipeline.Json

inductive Number where
  | unsigned (value : Nat)
  | negative (value : Int)
  | floating (text : String)
deriving DecidableEq, Repr

def Number.found : Number → Found
  | .unsigned value => .integer value
  | .negative value => .integer value
  | .floating text => .floating text

-- Takes digits as long as the value fits 64 bits; also says how many it took.
def takeSignificand : Nat → Nat → Bytes → Nat × Nat × Bytes
  | value, taken, [] => (value, taken, [])
  | value, taken, byte :: rest =>
      if isDigit byte then
        let wider := value * 10 + digitValue byte
        if wider ≤ largest64 then takeSignificand wider (taken + 1) rest
        else (value, taken, byte :: rest)
      else (value, taken, byte :: rest)

def startsWithDigit : Bytes → Bool
  | [] => false
  | byte :: _ => isDigit byte

def isExponentMark (byte : UInt8) : Bool := byte == 0x65 || byte == 0x45

def clampExponent (n : Int) : Int := max (-2147483648) (min 2147483647 n)

-- Scales by powers of ten that are themselves floating-point numbers, unless the result is too
-- large for one.
def scale : Nat → Float → Int → Option Float
  | 0, f, _ => some f
  | fuel + 1, f, exponent =>
      if exponent.natAbs ≤ 308 then
        if 0 ≤ exponent then
          let scaled := f * Float.ofScientific 1 false exponent.natAbs
          if scaled.isInf then none else some scaled
        else some (f / Float.ofScientific 1 false exponent.natAbs)
      else if f == 0 then some f
      else if 0 ≤ exponent then none
      else scale fuel (f / 1e308) (exponent + 308)

def floating (positive : Bool) (significand : Nat) (exponent : Int) (rest : Bytes) :
    Except Failure (Number × Bytes) :=
  match scale 8 (UInt64.ofNat significand).toFloat exponent with
  | some f => .ok (.floating (floatText (if positive then f else -f)), rest)
  | none => .error ⟨.numberOutOfRange, rest⟩

def takeExponent : Nat → Bytes → Option Nat × Bytes
  | value, [] => (some value, [])
  | value, byte :: rest =>
      if isDigit byte then
        let wider := value * 10 + digitValue byte
        if wider ≤ 2147483647 then takeExponent wider rest else (none, rest)
      else (some value, byte :: rest)

def readExponent (positive : Bool) (significand : Nat) (start : Int) (bytes : Bytes) :
    Except Failure (Number × Bytes) :=
  let (grows, bytes) :=
    match bytes with
    | 0x2B :: rest => (true, rest)
    | 0x2D :: rest => (false, rest)
    | _ => (true, bytes)
  match bytes with
  | [] => .error ⟨.eofValue, []⟩
  | byte :: rest =>
      if isDigit byte then
        match takeExponent (digitValue byte) rest with
        | (some value, rest) =>
            let exponent := clampExponent (if grows then start + value else start - value)
            floating positive significand exponent rest
        | (none, rest) =>
            if significand ≠ 0 ∧ grows = true then .error ⟨.numberOutOfRange, rest⟩
            else .ok (.floating (if positive then "0.0" else "-0.0"), rest.dropWhile isDigit)
      else .error ⟨.invalidNumber, rest⟩

def finish (positive : Bool) (significand : Nat) (exponent : Int) (bytes : Bytes) :
    Except Failure (Number × Bytes) :=
  match bytes with
  | [] => floating positive significand exponent []
  | byte :: rest =>
      if isExponentMark byte then readExponent positive significand exponent rest
      else floating positive significand exponent (byte :: rest)

-- What follows the point. Digits beyond the precision of the significand are passed over.
def readFraction (positive : Bool) (significand : Nat) (before : Int) (bytes : Bytes) :
    Except Failure (Number × Bytes) :=
  let (value, taken, rest) := takeSignificand significand 0 bytes
  if startsWithDigit rest then
    finish positive value (before - taken) (rest.dropWhile isDigit)
  else if taken = 0 then .error ⟨if rest.isEmpty then .eofValue else .invalidNumber, rest.drop 1⟩
  else finish positive value (before - taken) rest

-- An integer part that did not fit: further digits only count.
def readLong (positive : Bool) (significand : Nat) (bytes : Bytes) :
    Except Failure (Number × Bytes) :=
  let exponent : Int := (bytes.takeWhile isDigit).length
  match bytes.dropWhile isDigit with
  | 0x2E :: rest => readFraction positive significand exponent rest
  | rest => finish positive significand exponent rest

def readWhole (positive : Bool) (significand : Nat) (bytes : Bytes) :
    Except Failure (Number × Bytes) :=
  match bytes with
  | 0x2E :: rest => readFraction positive significand 0 rest
  | _ =>
      match bytes with
      | byte :: rest =>
          if isExponentMark byte then readExponent positive significand 0 rest
          else whole
      | [] => whole
where
  whole : Except Failure (Number × Bytes) :=
    if positive then .ok (.unsigned significand, bytes)
    else if 0 < significand ∧ significand ≤ 9223372036854775808 then .ok (.negative (-significand), bytes)
    else floating false significand 0 bytes

def readNumber (positive : Bool) : Bytes → Except Failure (Number × Bytes)
  | [] => .error ⟨.eofValue, []⟩
  | byte :: rest =>
      if byte = 0x30 then
        if startsWithDigit rest then .error ⟨.invalidNumber, rest.drop 1⟩ else readWhole positive 0 rest
      else if isDigit byte then
        let (value, _, rest) := takeSignificand (digitValue byte) 1 rest
        if startsWithDigit rest then readLong positive value rest else readWhole positive value rest
      else .error ⟨.invalidNumber, rest⟩

def skipExponent (bytes : Bytes) : Except Failure Bytes :=
  let bytes :=
    match bytes with
    | 0x2B :: rest => rest
    | 0x2D :: rest => rest
    | _ => bytes
  if startsWithDigit bytes then .ok (bytes.dropWhile isDigit) else .error ⟨.invalidNumber, bytes.drop 1⟩

def skipTail : Bytes → Except Failure Bytes
  | [] => .ok []
  | byte :: rest => if isExponentMark byte then skipExponent rest else .ok (byte :: rest)

def skipNumber : Bytes → Except Failure Bytes
  | [] => .error ⟨.invalidNumber, []⟩
  | byte :: rest =>
      if byte = 0x30 ∧ startsWithDigit rest = true then .error ⟨.invalidNumber, rest.drop 1⟩
      else if isDigit byte then
        match rest.dropWhile isDigit with
        | 0x2E :: rest =>
            if startsWithDigit rest then skipTail (rest.dropWhile isDigit)
            else .error ⟨.invalidNumber, rest.drop 1⟩
        | rest => skipTail rest
      else .error ⟨.invalidNumber, rest⟩

end EventPipeline.Json

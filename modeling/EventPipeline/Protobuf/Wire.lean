import EventPipeline.Number.Bounds
import EventPipeline.Number.Decimal
import EventPipeline.Protobuf.Input

/-!
The protobuf wire format: base-128 integers, keys, and the passing over of unknown fields. Readers
go on to the end of the whole input, also inside a field with a length of its own; who reads such a
field checks afterwards that it ended where it should.
-/

set_option autoImplicit false

namespace EventPipeline.Protobuf

inductive WireType where
  | varint
  | sixtyFourBit
  | lengthDelimited
  | startGroup
  | endGroup
  | thirtyTwoBit
deriving DecidableEq, Repr

def WireType.name : WireType → String
  | .varint => "Varint"
  | .sixtyFourBit => "SixtyFourBit"
  | .lengthDelimited => "LengthDelimited"
  | .startGroup => "StartGroup"
  | .endGroup => "EndGroup"
  | .thirtyTwoBit => "ThirtyTwoBit"

def WireType.number : WireType → Nat
  | .varint => 0
  | .sixtyFourBit => 1
  | .lengthDelimited => 2
  | .startGroup => 3
  | .endGroup => 4
  | .thirtyTwoBit => 5

def WireType.ofNumber? : Nat → Option WireType
  | 0 => some .varint
  | 1 => some .sixtyFourBit
  | 2 => some .lengthDelimited
  | 3 => some .startGroup
  | 4 => some .endGroup
  | 5 => some .thirtyTwoBit
  | _ => none

inductive Reason where
  | invalidVarint
  | invalidKey (key : Nat)
  | invalidWireType (number : Nat)
  | invalidTag
  | unexpectedWireType (actual expected : WireType)
  | underflow
  | lengthExceeded
  | invalidText
  | unexpectedEndGroup
  | recursionLimit
deriving DecidableEq, Repr

def Reason.message : Reason → String
  | .invalidVarint => "invalid varint"
  | .invalidKey key => "invalid key value: " ++ decimalText key
  | .invalidWireType number => "invalid wire type value: " ++ decimalText number
  | .invalidTag => "invalid tag value: 0"
  | .unexpectedWireType actual expected =>
      "invalid wire type: " ++ actual.name ++ " (expected " ++ expected.name ++ ")"
  | .underflow => "buffer underflow"
  | .lengthExceeded => "delimited length exceeded"
  | .invalidText => "invalid string value: data is not UTF-8 encoded"
  | .unexpectedEndGroup => "unexpected end group tag"
  | .recursionLimit => "recursion limit reached"

structure Error where
  path : List (String × String)
  reason : Reason
deriving DecidableEq, Repr

def Error.message (e : Error) : String :=
  "failed to decode Protobuf message: " ++
    String.join (e.path.map fun step => step.1 ++ "." ++ step.2 ++ ": ") ++ e.reason.message

def fail {α : Type} (reason : Reason) : Except Error α := .error ⟨[], reason⟩

def Error.inField (message field : String) (e : Error) : Error :=
  ⟨e.path ++ [(message, field)], e.reason⟩

def writeVarint (n : Nat) : Bytes :=
  if n < 128 then [UInt8.ofNat n] else UInt8.ofNat (n % 128 + 128) :: writeVarint (n / 128)
termination_by n
decreasing_by omega

-- Reads on after the value `value`, where the next byte counts `weight` times and at most `places`
-- bytes may follow. The last of them may only hold the 64th bit.
def readVarintFrom (value weight : Nat) : Nat → Input → Except Error (Nat × Input)
  | 0, _ => fail .invalidVarint
  | places + 1, input =>
      match input.next? with
      | none => fail .invalidVarint
      | some (byte, rest) =>
          let wider := value + byte.toNat % 128 * weight
          if 128 ≤ byte.toNat then readVarintFrom wider (weight * 128) places rest
          else if places = 0 ∧ 2 ≤ byte.toNat then fail .invalidVarint
          else .ok (wider, rest)

def readVarint (input : Input) : Except Error (Nat × Input) := readVarintFrom 0 1 10 input

def writeKey (tag : Nat) (wire : WireType) : Bytes := writeVarint (tag * 8 + wire.number)

def readKey (input : Input) : Except Error ((Nat × WireType) × Input) := do
  let (key, rest) ← readVarint input
  if largest32 < key then fail (.invalidKey key)
  else
    match WireType.ofNumber? (key % 8) with
    | none => fail (.invalidWireType (key % 8))
    | some wire => if key / 8 = 0 then fail .invalidTag else .ok ((key / 8, wire), rest)

def skipBytes (n : Nat) (input : Input) : Except Error Input :=
  if input.size < n then fail .underflow else .ok (input.drop n)

def skipPlain (wire : WireType) (input : Input) : Except Error Input :=
  match wire with
  | .varint => (readVarint input).map (·.2)
  | .thirtyTwoBit => skipBytes 4 input
  | .sixtyFourBit => skipBytes 8 input
  | .lengthDelimited => do
      let (length, rest) ← readVarint input
      skipBytes length rest
  | .startGroup | .endGroup => fail .unexpectedEndGroup

-- The inside of the groups with the tags `groups`, the innermost first. `depth` further levels may
-- be opened. Every round reads a key, so `fuel` may be the size of the input and one.
def skipGroups : Nat → Nat → List Nat → Input → Except Error Input
  | 0, _, _, _ => fail .invalidVarint
  | _ + 1, _, [], input => .ok input
  | fuel + 1, depth, tag :: groups, input => do
      let ((innerTag, wire), rest) ← readKey input
      match wire with
      | .endGroup =>
          if innerTag = tag then skipGroups fuel (depth + 1) groups rest
          else fail .unexpectedEndGroup
      | .startGroup =>
          if depth = 0 then fail .recursionLimit
          else skipGroups fuel (depth - 1) (innerTag :: tag :: groups) rest
      | wire =>
          if depth = 0 then fail .recursionLimit
          else skipGroups fuel depth (tag :: groups) (← skipPlain wire rest)

def skipField (depth tag : Nat) (wire : WireType) (input : Input) : Except Error Input :=
  if depth = 0 then fail .recursionLimit
  else
    match wire with
    | .startGroup => skipGroups (input.size + 1) (depth - 1) [tag] input
    | wire => skipPlain wire input

def maxDepth : Nat := 100

end EventPipeline.Protobuf

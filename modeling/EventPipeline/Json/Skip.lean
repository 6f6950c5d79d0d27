import EventPipeline.Json.Text
import EventPipeline.Json.Number

/-!
Passing over a JSON value that nobody asked for. It must be well-formed, but it may nest to any
depth, and neither number ranges nor the contents of strings are checked.
-/

set_option autoImplicit false

namespace EventPipeline.Json

def isBlankByte (byte : UInt8) : Bool := byte == 0x20 || byte == 0x09 || byte == 0x0A || byte == 0x0D

def skipBlanks (bytes : Bytes) : Bytes := bytes.dropWhile isBlankByte

def atToken {β : Type} (missing : Error) (bytes : Bytes)
    (next : UInt8 → Bytes → Except Failure β) : Except Failure β :=
  match skipBlanks bytes with
  | [] => .error ⟨missing, []⟩
  | byte :: rest => next byte rest

def readWord : Bytes → Bytes → Except Failure Bytes
  | [], rest => .ok rest
  | _ :: _, [] => .error ⟨.eofValue, []⟩
  | expected :: word, byte :: rest =>
      if byte = expected then readWord word rest else .error ⟨.expectedIdent, rest⟩

def nullTail : Bytes := [0x75, 0x6C, 0x6C]

def nullBytes : Bytes := 0x6E :: nullTail

def trueTail : Bytes := [0x72, 0x75, 0x65]

def falseTail : Bytes := [0x61, 0x6C, 0x73, 0x65]

inductive Frame where
  | list
  | object
deriving DecidableEq, Repr

def Frame.closing : Frame → UInt8
  | .list => 0x5D
  | .object => 0x7D

def Frame.eof : Frame → Error
  | .list => .eofList
  | .object => .eofObject

def Frame.commaOrEnd : Frame → Error
  | .list => .expectedListCommaOrEnd
  | .object => .expectedObjectCommaOrEnd

def Frame.pastEnd (frame : Frame) (bytes : Bytes) : Bytes :=
  match skipBlanks bytes with
  | [] => []
  | byte :: rest => if byte = frame.closing then rest else byte :: rest

def skipKey : Frame → Bytes → Except Failure Bytes
  | .list, bytes => .ok bytes
  | .object, bytes =>
      atToken .eofObject bytes fun byte rest =>
        if byte = 0x22 then do
          let rest ← skipTextBody rest
          atToken .eofObject rest fun byte rest =>
            if byte = 0x3A then .ok rest else .error ⟨.expectedColon, rest⟩
        else .error ⟨.keyMustBeString, rest⟩

def skipScalar (byte : UInt8) (rest : Bytes) : Except Failure Bytes :=
  if byte = 0x6E then readWord nullTail rest
  else if byte = 0x74 then readWord trueTail rest
  else if byte = 0x66 then readWord falseTail rest
  else if byte = 0x2D then skipNumber rest
  else if isDigit byte then skipNumber (byte :: rest)
  else if byte = 0x22 then skipTextBody rest
  else .error ⟨.expectedValue, rest⟩

inductive SkipState where
  | value
  | ended
  | opened
deriving DecidableEq, Repr

def SkipState.eof : SkipState → List Frame → Error
  | .value, _ | _, [] => .eofValue
  | .ended, frame :: _ | .opened, frame :: _ => frame.eof

def skipStart (frames : List Frame) (bytes : Bytes) :
    Except Failure (SkipState × List Frame × Bytes) :=
  atToken .eofValue bytes fun byte rest =>
    if byte = 0x5B then .ok (.opened, .list :: frames, rest)
    else if byte = 0x7B then .ok (.opened, .object :: frames, rest)
    else do .ok (.ended, frames, ← skipScalar byte rest)

-- One round, which takes at least one byte as long as something is to be passed over.
def skipStep : SkipState → List Frame → Bytes → Except Failure (SkipState × List Frame × Bytes)
  | .value, frames, bytes => skipStart frames bytes
  | state, [], bytes => .ok (state, [], bytes)
  | state, frame :: frames, bytes =>
      atToken frame.eof bytes fun byte rest =>
        if byte = frame.closing then .ok (.ended, frames, rest)
        else if state = .opened then do
          skipStart (frame :: frames) (← skipKey frame (byte :: rest))
        else if byte = 0x2C then do .ok (.value, frame :: frames, ← skipKey frame rest)
        else .error ⟨frame.commaOrEnd, rest⟩

def skipFrames : Bytes → SkipState → List Frame → Bytes → Except Failure Bytes
  | _, .ended, [], bytes => .ok bytes
  | [], state, frames, _ => .error ⟨state.eof frames, []⟩
  | _ :: fuel, state, frames, bytes => do
      let (state, frames, bytes) ← skipStep state frames bytes
      skipFrames fuel state frames bytes

def skipValue (bytes : Bytes) : Except Failure Bytes := skipFrames bytes .value [] bytes

end EventPipeline.Json

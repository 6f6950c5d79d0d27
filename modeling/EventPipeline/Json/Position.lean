import EventPipeline.Json.Error
import EventPipeline.Text.Utf8

/-!
Places in a JSON text. A reader that stops knows what it has not read yet, and what came before
that gives the line and the column.
-/

set_option autoImplicit false

namespace EventPipeline.Json

structure Position where
  line : Nat
  column : Nat
deriving DecidableEq, Repr

namespace Position

def start : Position := ⟨1, 0⟩

def past (position : Position) (byte : UInt8) : Position :=
  if byte = 0x0A then ⟨position.line + 1, 0⟩ else ⟨position.line, position.column + 1⟩

def after (bytes : Bytes) : Position := bytes.foldl past start

def text (position : Position) : String :=
  "line " ++ decimalText position.line ++ " column " ++ decimalText position.column

end Position

structure Failure where
  reason : Error
  rest : Bytes
deriving DecidableEq, Repr

structure Problem where
  reason : Error
  position : Position
deriving DecidableEq, Repr

def Problem.message (problem : Problem) : String :=
  problem.reason.message ++ " at " ++ problem.position.text

def Failure.within (failure : Failure) (whole : Bytes) : Problem :=
  ⟨failure.reason, .after (whole.take (whole.length - failure.rest.length))⟩

end EventPipeline.Json

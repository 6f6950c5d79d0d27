import EventPipeline.EventError
import EventPipeline.Json.Reader
import EventPipeline.Protobuf.Message

/-!
Wire codecs: the two directions between payload bytes and typed values.
-/

set_option autoImplicit false

namespace EventPipeline

inductive Encoding where
  | json
  | proto
deriving DecidableEq, Repr

def Encoding.name : Encoding → String
  | .json => "json"
  | .proto => "proto"

structure Codec (α : Type) where
  encoding : Encoding
  decode : Bytes → Except EventError α
  encode : α → Except EventError Bytes

namespace Json

-- An event must carry a value, so null is never written.
def codec {α : Type} (read : Reader α) (write : α → Bytes) : Codec α where
  encoding := .json
  decode bytes := (readDocument read bytes).mapError fun problem => .serialization problem.message
  encode value :=
    if write value = nullBytes then
      .error (.serialization "refusing to encode an empty (null) message")
    else .ok (write value)

end Json

namespace Protobuf

def codec {α : Type} (format : MessageFormat α) : Codec α where
  encoding := .proto
  decode bytes := (format.decode bytes).mapError fun e => .serialization e.message
  encode value := .ok (format.encode value)

def shortBuffer (required capacity : Nat) : EventError :=
  .serialization ("failed to encode Protobuf message; insufficient buffer capacity (required: " ++
    decimalText required ++ ", remaining: " ++ decimalText capacity ++ ")")

end Protobuf

end EventPipeline

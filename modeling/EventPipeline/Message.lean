import EventPipeline.Metadata
import EventPipeline.Text.Utf8
import EventPipeline.Text.Quoted

/-!
A message on its way through the pipeline, and the two ways of settling its delivery.
-/

set_option autoImplicit false

namespace EventPipeline

structure Message where
  uuid : String
  payload : Bytes
  metadata : Metadata
deriving DecidableEq

namespace Message

def payloadText (m : Message) : String := m.payload.toStringLossy

end Message

inductive Settlement where
  | ack
  | nack (requeue : Bool)
deriving DecidableEq, Repr

def Metadata.describe (bag : Metadata) : String :=
  "Metadata(\x7b" ++
    String.intercalate ", " (bag.entries.map fun entry => quoted entry.1 ++ ": " ++ quoted entry.2) ++
    "\x7d)"

def Message.describe (m : Message) : String :=
  "Message \x7b uuid: " ++ quoted m.uuid ++ ", payload: " ++
    bracketed (m.payload.map fun byte => String.ofList (Nat.toDigits 10 byte.toNat)) ++
    ", metadata: " ++ m.metadata.describe ++ " \x7d"

end EventPipeline

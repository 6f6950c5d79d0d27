import EventPipeline.Protobuf.Message

/-!
The events that travel as protobuf messages.
-/

set_option autoImplicit false

namespace EventPipeline.Events

open Protobuf

structure Counter where
  value : UInt64
deriving DecidableEq, Repr

structure Ping where
  id : UInt32
  note : String
deriving DecidableEq, Repr

structure Envelope where
  source : String
  codes : Array UInt32
  inner : Option Ping
  blob : Bytes
  delta : Int32
  urgent : Bool
deriving DecidableEq, Repr

def Counter.format : MessageFormat Counter where
  name := "Counter"
  fresh := ⟨0⟩
  fields := [.scalar 1 "value" (fun event => event.value.toNat) (fun n _ => ⟨UInt64.ofNat n⟩)]

def Ping.format : MessageFormat Ping where
  name := "Ping"
  fresh := ⟨0, ""⟩
  fields :=
    [.scalar 1 "id" (fun event => event.id.toNat) (fun n event => { event with id := UInt32.ofNat n }),
      .text 2 "note" (fun event => event.note) (fun note event => { event with note })]

def Envelope.format : MessageFormat Envelope where
  name := "Envelope"
  fresh := ⟨"", #[], none, [], 0, false⟩
  fields :=
    [.text 1 "source" (fun event => event.source) (fun source event => { event with source }),
      .packed 2 "codes" (fun event => event.codes.toList.map (·.toNat))
        (fun n event => { event with codes := event.codes.push (UInt32.ofNat n) }),
      .message 3 "inner" Ping.format (fun event => event.inner)
        (fun inner event => { event with inner := some inner }),
      .bytes 4 "blob" (fun event => event.blob) (fun blob event => { event with blob }),
      .scalar 5 "delta" (fun event => zigzag event.delta.toInt)
        (fun n event => { event with delta := Int32.ofInt (unzigzag (n % (largest32 + 1))) }),
      .scalar 16 "urgent" (fun event => event.urgent.toNat)
        (fun n event => { event with urgent := n != 0 })]

end EventPipeline.Events

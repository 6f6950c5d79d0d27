import EventPipeline.Json.Record
import EventPipeline.Json.Writer

/-!
The events of the order and sign-up flows, which travel as JSON.
-/

set_option autoImplicit false

namespace EventPipeline.Events

open Json

structure OrderPlaced where
  id : UInt32
  note : String
deriving DecidableEq, Repr

structure OrderConfirmed where
  id : UInt32
  confirmed : Bool
deriving DecidableEq, Repr

structure Signup where
  id : UInt64
  email : String
deriving DecidableEq, Repr

structure Listing where
  id : UInt64
  items : List String
deriving DecidableEq, Repr

-- Claims the wire name of `Listing`.
structure Impostor where
  id : UInt64
deriving DecidableEq, Repr

abbrev Maybe := Option OrderConfirmed

def readU32 : Reader UInt32 := fun bytes =>
  (readInteger "u32" 0 4294967295 bytes).map fun result => (UInt32.ofNat result.1.toNat, result.2)

def readU64 : Reader UInt64 := fun bytes =>
  (readInteger "u64" 0 18446744073709551615 bytes).map fun result =>
    (UInt64.ofNat result.1.toNat, result.2)

def readI64 : Reader Int64 := fun bytes =>
  (readInteger "i64" (-9223372036854775808) 9223372036854775807 bytes).map fun result =>
    (Int64.ofInt result.1, result.2)

def field {α β : Type} (name : String) (read : Reader β) (put : β → α → α) (required : Bool) :
    RecordField α where
  name := name
  read bytes := (read bytes).map fun result => (put result.1, result.2)
  required := required
  requiredInArray := required

namespace OrderPlaced

def format : RecordFormat OrderPlaced where
  fresh := ⟨0, ""⟩
  fields :=
    [field "id" readU32 (fun id event => { event with id }) true,
      field "note" readText (fun note event => { event with note }) false]
  closed := false

def read (levels : Nat) : Reader OrderPlaced :=
  readRecord "OrderPlaced" (if levels = 0 then none else some format)

def write (event : OrderPlaced) : Bytes :=
  writeObject
    [writeMember "id" (decimal event.id.toNat), writeMember "note" (writeText event.note)]

end OrderPlaced

namespace OrderConfirmed

def format : RecordFormat OrderConfirmed where
  fresh := ⟨0, false⟩
  fields :=
    [field "id" readU32 (fun id event => { event with id }) true,
      field "confirmed" readBoolean (fun confirmed event => { event with confirmed }) true]
  closed := false

def read (levels : Nat) : Reader OrderConfirmed :=
  readRecord "OrderConfirmed" (if levels = 0 then none else some format)

def write (event : OrderConfirmed) : Bytes :=
  writeObject
    [writeMember "id" (decimal event.id.toNat), writeMember "confirmed" (writeBoolean event.confirmed)]

end OrderConfirmed

namespace Signup

def format : RecordFormat Signup where
  fresh := ⟨0, ""⟩
  fields :=
    [field "id" readU64 (fun id event => { event with id }) true,
      field "email" readText (fun email event => { event with email }) true]
  closed := false

def read (levels : Nat) : Reader Signup :=
  readRecord "Signup" (if levels = 0 then none else some format)

def write (event : Signup) : Bytes :=
  writeObject
    [writeMember "id" (decimal event.id.toNat), writeMember "email" (writeText event.email)]

end Signup

namespace Listing

def format (levels : Nat) : RecordFormat Listing where
  fresh := ⟨0, []⟩
  fields :=
    [field "id" readU64 (fun id event => { event with id }) true,
      field "items" (readList levels readText) (fun items event => { event with items }) true]
  closed := false

def read (levels : Nat) : Reader Listing :=
  readRecord "Listing" (if levels = 0 then none else some (format (levels - 1)))

def write (event : Listing) : Bytes :=
  writeObject
    [writeMember "id" (decimal event.id.toNat),
      writeMember "items" (writeList (event.items.map writeText))]

end Listing

namespace Impostor

def format : RecordFormat Impostor where
  fresh := ⟨0⟩
  fields := [field "id" readU64 (fun id _ => ⟨id⟩) true]
  closed := false

def read (levels : Nat) : Reader Impostor :=
  readRecord "Impostor" (if levels = 0 then none else some format)

def write (event : Impostor) : Bytes := writeObject [writeMember "id" (decimal event.id.toNat)]

end Impostor

namespace Maybe

def read (levels : Nat) : Reader Maybe := readOption (OrderConfirmed.read levels)

def write : Maybe → Bytes
  | none => nullBytes
  | some event => event.write

end Maybe

end EventPipeline.Events

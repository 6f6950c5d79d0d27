import EventPipeline.Codec

/-!
The types that may travel as payloads. A family lists them as kinds; each kind has a type of values,
a wire name, a name for messages to people, and a fresh value.
-/

set_option autoImplicit false

namespace EventPipeline

structure EventFamily where
  Kind : Type
  decEq : DecidableEq Kind
  Value : Kind → Type
  -- The wire name stamped into messages. Two kinds may claim the same one.
  schema : Kind → String
  typeName : Kind → String
  fresh : (kind : Kind) → Value kind

instance (F : EventFamily) : DecidableEq F.Kind := F.decEq

structure DecodedEvent (F : EventFamily) where
  kind : F.Kind
  value : F.Value kind

namespace DecodedEvent

variable {F : EventFamily}

def schema (event : DecodedEvent F) : String := F.schema event.kind

def as? (event : DecodedEvent F) (kind : F.Kind) : Option (F.Value kind) :=
  if same : event.kind = kind then some (same ▸ event.value) else none

end DecodedEvent

end EventPipeline

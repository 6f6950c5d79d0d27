import EventPipeline.EventFamily
import EventPipeline.Text.Quoted

/-!
The schema registry: wire names and the kinds that payloads with that name decode into. The first
kind registered under a name keeps it.
-/

set_option autoImplicit false

namespace EventPipeline

structure SchemaEntry (F : EventFamily) where
  kind : F.Kind
  encoding : Encoding
  decoder : Bytes → Except EventError (F.Value kind)

namespace SchemaEntry

variable {F : EventFamily}

def of (kind : F.Kind) (codec : Codec (F.Value kind)) : SchemaEntry F :=
  ⟨kind, codec.encoding, codec.decode⟩

def name (entry : SchemaEntry F) : String := F.schema entry.kind

def typeName (entry : SchemaEntry F) : String := F.typeName entry.kind

def decode (entry : SchemaEntry F) (payload : Bytes) : Except EventError (DecodedEvent F) :=
  (entry.decoder payload).map fun value => ⟨entry.kind, value⟩

def newInstance (entry : SchemaEntry F) : DecodedEvent F := ⟨entry.kind, F.fresh entry.kind⟩

def describe (entry : SchemaEntry F) : String :=
  "SchemaEntry \x7b name: " ++ quoted entry.name ++ ", type_name: " ++ quoted entry.typeName ++
    ", encoding: " ++ (match entry.encoding with | .json => "Json" | .proto => "Proto") ++ " \x7d"

end SchemaEntry

def DecodedEvent.describe {F : EventFamily} (event : DecodedEvent F) : String :=
  "DecodedEvent \x7b schema: " ++ quoted event.schema ++ ", .. \x7d"

structure SchemaRegistry (F : EventFamily) where
  entries : List (SchemaEntry F)

namespace SchemaRegistry

variable {F : EventFamily}

def empty : SchemaRegistry F := ⟨[]⟩

def lookup (registry : SchemaRegistry F) (schema : String) : Option (SchemaEntry F) :=
  registry.entries.find? fun entry => entry.name == schema

def contains (registry : SchemaRegistry F) (schema : String) : Bool :=
  (registry.lookup schema).isSome

-- Registering a kind again changes nothing, even with another codec; another kind is refused.
def insert (registry : SchemaRegistry F) (entry : SchemaEntry F) :
    Except EventError (SchemaRegistry F) :=
  match registry.lookup entry.name with
  | none => .ok ⟨registry.entries ++ [entry]⟩
  | some existing =>
      if existing.kind = entry.kind then .ok registry
      else
        .error (.registration ("schema '" ++ entry.name ++ "' is already registered for " ++
          existing.typeName ++ " (attempted " ++ entry.typeName ++ ")"))

def decode (registry : SchemaRegistry F) (schema : String) (payload : Bytes) :
    Option (Except EventError (DecodedEvent F)) :=
  (registry.lookup schema).map fun entry => entry.decode payload

def size (registry : SchemaRegistry F) : Nat := registry.entries.length

def isEmpty (registry : SchemaRegistry F) : Bool := registry.entries.isEmpty

def names (registry : SchemaRegistry F) : List String :=
  (registry.entries.map (·.name)).mergeSort fun a b => decide (a ≤ b)

end SchemaRegistry

end EventPipeline

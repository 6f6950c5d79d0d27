import EventPipeline.Json.Skip

/-!
JSON values as they are written: compact, without white space, in the order given.
-/

set_option autoImplicit false

namespace EventPipeline.Json

def writeMember (name : String) (value : Bytes) : Bytes := writeText name ++ 0x3A :: value

def writeJoined (opening closing : UInt8) (values : List Bytes) : Bytes :=
  opening :: ([0x2C].intercalate values ++ [closing])

def writeObject (members : List Bytes) : Bytes := writeJoined 0x7B 0x7D members

def writeList (values : List Bytes) : Bytes := writeJoined 0x5B 0x5D values

def writeBoolean (value : Bool) : Bytes := if value then 0x74 :: trueTail else 0x66 :: falseTail

end EventPipeline.Json

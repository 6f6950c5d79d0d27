import EventPipeline.Text.Utf8

/-!
What is left of an encoded message. Its size is kept beside the bytes, because most fields are read
against it.
-/

set_option autoImplicit false

namespace EventPipeline.Protobuf

structure Input where
  bytes : Bytes
  size : Nat
  sized : size = bytes.length

namespace Input

def ofBytes (bytes : Bytes) : Input := ⟨bytes, bytes.length, rfl⟩

def next? : Input → Option (UInt8 × Input)
  | ⟨[], _, _⟩ => none
  | ⟨byte :: rest, size, sized⟩ => some (byte, ⟨rest, size - 1, by simp [sized]⟩)

def take (input : Input) (n : Nat) : Bytes := input.bytes.take n

def drop (input : Input) (n : Nat) : Input :=
  ⟨input.bytes.drop n, input.size - n, by simp [input.sized]⟩

end Input

end EventPipeline.Protobuf

import EventPipeline.Protobuf.Wire

/-!
Messages as lists of fields. A field merges what it reads into the message and writes nothing while
it holds its default, so an all-default message is empty.
-/

set_option autoImplicit false

namespace EventPipeline.Protobuf

structure MessageField (α : Type) where
  tag : Nat
  name : String
  merge : Nat → WireType → α → Input → Except Error (α × Input)
  write : α → Bytes

structure MessageFormat (α : Type) where
  name : String
  fresh : α
  fields : List (MessageField α)

def expectWire (actual expected : WireType) : Except Error Unit :=
  if actual = expected then .ok () else fail (.unexpectedWireType actual expected)

def repeatUntil {α : Type} (step : α → Input → Except Error (α × Input)) (limit : Nat) :
    Nat → α → Input → Except Error (α × Input)
  | 0, value, input => .ok (value, input)
  | fuel + 1, value, input =>
      if input.size ≤ limit then .ok (value, input)
      else do
        let (value, input) ← step value input
        repeatUntil step limit fuel value input

def mergeDelimited {α : Type} (step : α → Input → Except Error (α × Input)) (value : α)
    (input : Input) : Except Error (α × Input) := do
  let (length, rest) ← readVarint input
  if rest.size < length then fail .underflow
  else
    let limit := rest.size - length
    let (value, left) ← repeatUntil step limit rest.size value rest
    if left.size = limit then .ok (value, left) else fail .lengthExceeded

def readDelimited (wire : WireType) (input : Input) : Except Error (Bytes × Input) := do
  expectWire wire .lengthDelimited
  let (length, rest) ← readVarint input
  if rest.size < length then fail .underflow else .ok (rest.take length, rest.drop length)

def readScalar (wire : WireType) (input : Input) : Except Error (Nat × Input) := do
  expectWire wire .varint
  readVarint input

namespace MessageFormat

variable {α : Type}

def mergeField (format : MessageFormat α) (depth : Nat) (value : α) (input : Input) :
    Except Error (α × Input) := do
  let ((tag, wire), rest) ← readKey input
  match format.fields.find? fun field => field.tag == tag with
  | some field => (field.merge depth wire value rest).mapError (Error.inField format.name field.name)
  | none => do .ok (value, ← skipField depth tag wire rest)

def decode (format : MessageFormat α) (bytes : Bytes) : Except Error α := do
  let input := Input.ofBytes bytes
  let (value, _) ← repeatUntil (format.mergeField maxDepth) 0 input.size format.fresh input
  .ok value

def encode (format : MessageFormat α) (value : α) : Bytes :=
  format.fields.flatMap fun field => field.write value

end MessageFormat

def writeDelimited (tag : Nat) (content : Bytes) : Bytes :=
  writeKey tag .lengthDelimited ++ writeVarint content.length ++ content

namespace MessageField

variable {α : Type}

def scalar (tag : Nat) (name : String) (get : α → Nat) (set : Nat → α → α) : MessageField α where
  tag := tag
  name := name
  merge _ wire value input := do
    let (n, rest) ← readScalar wire input
    .ok (set n value, rest)
  write value :=
    if get value = 0 then [] else writeKey tag .varint ++ writeVarint (get value)

def bytes (tag : Nat) (name : String) (get : α → Bytes) (set : Bytes → α → α) : MessageField α where
  tag := tag
  name := name
  merge _ wire value input := do
    let (content, rest) ← readDelimited wire input
    .ok (set content value, rest)
  write value := if get value = [] then [] else writeDelimited tag (get value)

def text (tag : Nat) (name : String) (get : α → String) (set : String → α → α) : MessageField α where
  tag := tag
  name := name
  merge _ wire value input := do
    let (content, rest) ← readDelimited wire input
    match content.toString? with
    | some text => .ok (set text value, rest)
    | none => fail .invalidText
  write value := if get value = "" then [] else writeDelimited tag (Bytes.ofString (get value))

-- Numbers that are written in one run and read from runs as well as one by one.
def packed (tag : Nat) (name : String) (get : α → List Nat) (push : Nat → α → α) : MessageField α where
  tag := tag
  name := name
  merge _ wire value input :=
    if wire = .lengthDelimited then
      mergeDelimited (fun value input => do
        let (n, rest) ← readVarint input
        .ok (push n value, rest)) value input
    else do
      let (n, rest) ← readScalar wire input
      .ok (push n value, rest)
  write value :=
    if (get value).isEmpty then [] else writeDelimited tag ((get value).flatMap writeVarint)

-- A message inside the message. Each time the field occurs, it adds to what is there already.
def message {β : Type} (tag : Nat) (name : String) (format : MessageFormat β) (get : α → Option β)
    (set : β → α → α) : MessageField α where
  tag := tag
  name := name
  merge depth wire value input := do
    expectWire wire .lengthDelimited
    if depth = 0 then fail .recursionLimit
    else
      let start := (get value).getD format.fresh
      let (inner, rest) ← mergeDelimited (format.mergeField (depth - 1)) start input
      .ok (set inner value, rest)
  write value :=
    match get value with
    | none => []
    | some inner => writeDelimited tag (format.encode inner)

end MessageField

def zigzag (n : Int) : Nat :=
  match n with
  | .ofNat n => 2 * n
  | .negSucc n => 2 * n + 1

def unzigzag (n : Nat) : Int := if n % 2 = 0 then Int.ofNat (n / 2) else Int.negSucc (n / 2)

end EventPipeline.Protobuf

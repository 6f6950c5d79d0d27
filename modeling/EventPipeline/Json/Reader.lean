import EventPipeline.Json.Skip

/-!
Readers of typed JSON values. A reader goes from left to right and stops at the first problem; a
value of the wrong kind is reported once its own syntax was found good, a list or an object as soon
as its bracket is seen.
-/

set_option autoImplicit false

namespace EventPipeline.Json

abbrev Reader (α : Type) := Bytes → Except Failure (α × Bytes)

def maxLevels : Nat := 127

def mismatch (expected : String) (byte : UInt8) (rest : Bytes) : Failure :=
  let named (tail : Bytes) (found : Found) : Failure :=
    match readWord tail rest with
    | .ok rest => ⟨.invalidType found expected, rest⟩
    | .error failure => failure
  let number (positive : Bool) (bytes : Bytes) : Failure :=
    match readNumber positive bytes with
    | .ok (n, rest) => ⟨.invalidType n.found expected, rest⟩
    | .error failure => failure
  if byte = 0x6E then named nullTail .null
  else if byte = 0x74 then named trueTail (.boolean true)
  else if byte = 0x66 then named falseTail (.boolean false)
  else if byte = 0x2D then number false rest
  else if isDigit byte then number true (byte :: rest)
  else if byte = 0x22 then
    match readTextBody rest with
    | .ok (text, rest) => ⟨.invalidType (.text text) expected, rest⟩
    | .error failure => failure
  else if byte = 0x5B then ⟨.invalidType .sequence expected, byte :: rest⟩
  else if byte = 0x7B then ⟨.invalidType .map expected, byte :: rest⟩
  else ⟨.expectedValue, rest⟩

def readInteger (expected : String) (low high : Int) : Reader Int := fun bytes =>
  atToken .eofValue bytes fun byte rest => do
    let accept : Number × Bytes → Except Failure (Int × Bytes)
      | (.unsigned n, rest) =>
          if n ≤ high then .ok (n, rest) else .error ⟨.invalidValue (.integer n) expected, rest⟩
      | (.negative n, rest) =>
          if low ≤ n then .ok (n, rest) else .error ⟨.invalidValue (.integer n) expected, rest⟩
      | (.floating text, rest) => .error ⟨.invalidType (.floating text) expected, rest⟩
    if byte = 0x2D then accept (← readNumber false rest)
    else if isDigit byte then accept (← readNumber true (byte :: rest))
    else .error (mismatch expected byte rest)

def readBoolean : Reader Bool := fun bytes =>
  atToken .eofValue bytes fun byte rest =>
    if byte = 0x74 then (readWord trueTail rest).map fun rest => (true, rest)
    else if byte = 0x66 then (readWord falseTail rest).map fun rest => (false, rest)
    else .error (mismatch "a boolean" byte rest)

def readTextAs (expected : String) : Reader String := fun bytes =>
  atToken .eofValue bytes fun byte rest =>
    if byte = 0x22 then readTextBody rest else .error (mismatch expected byte rest)

def readText : Reader String := readTextAs "a string"

def readNull : Reader Unit := fun bytes =>
  atToken .eofValue bytes fun byte rest =>
    if byte = 0x6E then (readWord nullTail rest).map fun rest => ((), rest)
    else .error (mismatch "unit" byte rest)

def readOption {α : Type} (inner : Reader α) : Reader (Option α) := fun bytes =>
  atToken .eofValue bytes fun byte rest =>
    if byte = 0x6E then (readWord nullTail rest).map fun rest => (none, rest)
    else do
      let (value, rest) ← inner (byte :: rest)
      .ok (some value, rest)

def readColon (bytes : Bytes) : Except Failure Bytes :=
  atToken .eofObject bytes fun byte rest =>
    if byte = 0x3A then .ok rest else .error ⟨.expectedColon, rest⟩

def nextItem (isFirst : Bool) (bytes : Bytes) : Except Failure (Bool × Bytes) :=
  atToken .eofList bytes fun byte rest =>
    if byte = 0x5D then .ok (false, byte :: rest)
    else if isFirst then .ok (true, byte :: rest)
    else if byte = 0x2C then
      atToken .eofValue rest fun byte rest =>
        if byte = 0x5D then .error ⟨.trailingComma, rest⟩ else .ok (true, byte :: rest)
    else .error ⟨.expectedListCommaOrEnd, rest⟩

def endList (bytes : Bytes) : Except Failure Bytes :=
  atToken .eofList bytes fun byte rest =>
    if byte = 0x5D then .ok rest
    else if byte = 0x2C then
      atToken .trailingCharacters rest fun byte rest =>
        .error ⟨if byte = 0x5D then .trailingComma else .trailingCharacters, rest⟩
    else .error ⟨.trailingCharacters, rest⟩

def nextMember (isFirst : Bool) (bytes : Bytes) : Except Failure (Bool × Bytes) :=
  atToken .eofObject bytes fun byte rest =>
    if byte = 0x7D then .ok (false, rest)
    else if isFirst then
      if byte = 0x22 then .ok (true, rest) else .error ⟨.keyMustBeString, rest⟩
    else if byte = 0x2C then
      atToken .eofValue rest fun byte rest =>
        if byte = 0x22 then .ok (true, rest)
        else if byte = 0x7D then .error ⟨.trailingComma, rest⟩
        else .error ⟨.keyMustBeString, rest⟩
    else .error ⟨.expectedObjectCommaOrEnd, rest⟩

-- The items of a list whose bracket was read. An item takes at least one byte, so the input itself
-- may be the fuel.
def readItems {α : Type} (item : Reader α) : Bytes → Bool → Reader (List α)
  | [], _, _ => .error ⟨.eofList, []⟩
  | _ :: fuel, isFirst, bytes => do
      let (more, bytes) ← nextItem isFirst bytes
      if more then
        let (value, bytes) ← item bytes
        let (values, bytes) ← readItems item fuel false bytes
        .ok (value :: values, bytes)
      else .ok ([], ← endList bytes)

def readList {α : Type} (levels : Nat) (item : Reader α) : Reader (List α) := fun bytes =>
  atToken .eofValue bytes fun byte rest =>
    if byte = 0x5B then
      if levels = 0 then .error ⟨.recursionLimit, rest⟩ else readItems item rest true rest
    else .error (mismatch "a sequence" byte rest)

def readEntries {α : Type} (value : Reader α) : Bytes → Bool → Reader (List (String × α))
  | [], _, _ => .error ⟨.eofObject, []⟩
  | _ :: fuel, isFirst, bytes => do
      let (more, bytes) ← nextMember isFirst bytes
      if more then
        let (key, bytes) ← readTextBody bytes
        let (content, bytes) ← value (← readColon bytes)
        let (entries, bytes) ← readEntries value fuel false bytes
        .ok ((key, content) :: entries, bytes)
      else .ok ([], bytes)

def readMap {α : Type} (levels : Nat) (value : Reader α) : Reader (List (String × α)) := fun bytes =>
  atToken .eofValue bytes fun byte rest =>
    if byte = 0x7B then
      if levels = 0 then .error ⟨.recursionLimit, rest⟩ else readEntries value rest true rest
    else .error (mismatch "a map" byte rest)

def readChoice (levels : Nat) (choices : List String) : Reader String := fun bytes =>
  let choose (bytes : Bytes) : Except Failure (String × Bytes) := do
    let (name, rest) ← readTextBody bytes
    if choices.contains name then .ok (name, rest)
    else .error ⟨.unknownVariant name choices, rest⟩
  atToken .eofValue bytes fun byte rest =>
    if byte = 0x22 then choose rest
    else if byte = 0x7B then
      if levels = 0 then .error ⟨.recursionLimit, rest⟩
      else
        atToken .eofValue rest fun byte rest =>
          if byte = 0x22 then do
            let (name, rest) ← choose rest
            let (_, rest) ← readNull (← readColon rest)
            atToken .eofObject rest fun byte rest =>
              if byte = 0x7D then .ok (name, rest) else .error ⟨.expectedValue, byte :: rest⟩
          else .error ⟨.keyMustBeString, rest⟩
    else .error ⟨.expectedValue, rest⟩

def readDocument {α : Type} (reader : Reader α) (bytes : Bytes) : Except Problem α :=
  let outcome : Except Failure α := do
    let (value, rest) ← reader bytes
    match skipBlanks rest with
    | [] => .ok value
    | _ :: rest => .error ⟨.trailingCharacters, rest⟩
  outcome.mapError fun failure => failure.within bytes

end EventPipeline.Json

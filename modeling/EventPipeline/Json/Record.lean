import EventPipeline.Json.Reader

/-!
Records as JSON objects, or as arrays of their fields in order. A record starts from its fresh
value; every field that is read replaces a part of it, and a field that may be left out keeps the
fresh part.
-/

set_option autoImplicit false

namespace EventPipeline.Json

structure RecordField (α : Type) where
  name : String
  read : Reader (α → α)
  required : Bool
  requiredInArray : Bool

structure RecordFormat (α : Type) where
  fresh : α
  fields : List (RecordField α)
  closed : Bool

def RecordFormat.names {α : Type} (format : RecordFormat α) : List String := format.fields.map (·.name)

def missing? {α : Type} (format : RecordFormat α) (seen : List String) : Option String :=
  (format.fields.find? fun field => field.required && !seen.contains field.name).map (·.name)

-- The members of a record whose bracket was read, with the input itself as fuel. A problem with the
-- record as a whole is noticed behind its end, if that is reached.
def readMembers {α : Type} (format : RecordFormat α) : Bytes → Bool → List String → α → Reader α
  | [], _, _, _, _ => .error ⟨.eofObject, []⟩
  | _ :: fuel, isFirst, seen, record, bytes => do
      let (more, bytes) ← nextMember isFirst bytes
      if more then
        let (name, bytes) ← readTextBody bytes
        match format.fields.find? fun field => field.name == name with
        | some field =>
            if seen.contains name then .error ⟨.duplicateField name, Frame.object.pastEnd bytes⟩
            else
              let (put, bytes) ← field.read (← readColon bytes)
              readMembers format fuel false (name :: seen) (put record) bytes
        | none =>
            if format.closed then
              .error ⟨.unknownField name format.names, Frame.object.pastEnd bytes⟩
            else
              let bytes ← skipValue (← readColon bytes)
              readMembers format fuel false seen record bytes
      else
        match missing? format seen with
        | some name => .error ⟨.missingField name, bytes⟩
        | none => .ok (record, bytes)

def readElements {α : Type} (expected : String) : List (RecordField α) → Nat → Bool → α → Reader α
  | [], _, _, record, bytes => do .ok (record, ← endList bytes)
  | field :: fields, index, isFirst, record, bytes => do
      let (more, bytes) ← nextItem isFirst bytes
      if more then
        let (put, bytes) ← field.read bytes
        readElements expected fields (index + 1) false (put record) bytes
      else if field.requiredInArray then
        .error ⟨.invalidLength index expected, Frame.list.pastEnd bytes⟩
      else readElements expected fields (index + 1) isFirst record bytes

-- Without a format, no further level of nesting is allowed.
def readRecord {α : Type} (name : String) (format? : Option (RecordFormat α)) : Reader α := fun bytes =>
  let expected := "struct " ++ name
  atToken .eofValue bytes fun byte rest =>
    if byte = 0x7B then
      match format? with
      | none => .error ⟨.recursionLimit, rest⟩
      | some format => readMembers format rest true [] format.fresh rest
    else if byte = 0x5B then
      match format? with
      | none => .error ⟨.recursionLimit, rest⟩
      | some format =>
          let elements :=
            if format.fields.length = 1 then " with 1 element"
            else " with " ++ decimalText format.fields.length ++ " elements"
          readElements (expected ++ elements) format.fields 0 true format.fresh rest
    else .error (mismatch expected byte rest)

end EventPipeline.Json

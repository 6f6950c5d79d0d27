import EventPipeline.Program

/-!
Handlers. A raw handler function works on messages. A typed one works on values: the payload is
decoded for it, and what it returns is encoded into messages stamped with the schema of the output.
-/

set_option autoImplicit false

namespace EventPipeline

variable {F : EventFamily}

namespace Handler

def raw (handler : HandlerId) : Handler F := Program.callRaw handler

def stamp {kind : F.Kind} (inbound : Metadata) (out : Outgoing (F.Value kind)) : Metadata :=
  (out.metadata.getD inbound).set Metadata.schemaKey (F.schema kind)

def encodeAll {kind : F.Kind} (codec : Codec (F.Value kind)) (inbound : Metadata) :
    List (Outgoing (F.Value kind)) → Program F (Except EventError (List Message))
  | [] => pure (.ok [])
  | out :: rest =>
      match codec.encode out.value with
      | .error e => pure (.error e)
      | .ok payload => do
          let uuid ← Program.freshId
          match ← encodeAll codec inbound rest with
          | .error e => pure (.error e)
          | .ok messages => pure (.ok (⟨uuid, payload, stamp inbound out⟩ :: messages))

def typed (handler : HandlerId) (input output : F.Kind) (decoder : Codec (F.Value input))
    (encoder : Codec (F.Value output)) : Handler F := fun message =>
  match decoder.decode message.payload with
  | .error e =>
      pure (.error (.unprocessable message.payload (some (F.schema input))
        ("cannot decode payload as " ++ F.schema input) (.error e)))
  | .ok payload => do
      match ← Program.callTyped handler input output ⟨payload, message.metadata, message.uuid⟩ with
      | .error e => pure (.error e)
      | .ok outputs => encodeAll encoder message.metadata outputs

end Handler

end EventPipeline

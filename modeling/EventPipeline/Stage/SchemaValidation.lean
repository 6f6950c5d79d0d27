import EventPipeline.Registry
import EventPipeline.Stage.Chain

/-!
The stage that rejects messages whose payload does not match their declared schema. A message that
declares none is let through.
-/

set_option autoImplicit false

namespace EventPipeline

variable {F : EventFamily}

structure SchemaValidation (F : EventFamily) where
  registry : SchemaRegistry F
  validator : Option ValidatorId

namespace SchemaValidation

def reject (message : Message) (schema reason : String) (cause : Cause) : EventError :=
  .unprocessable message.payload (some schema) reason cause

def check (validation : SchemaValidation F) (message : Message) (schema : String) :
    Program F (Except EventError Unit) :=
  match validation.registry.lookup schema with
  | none =>
      pure (.error (reject message schema ("schema '" ++ schema ++ "' is not registered") .unknown))
  | some entry =>
      match entry.decode message.payload with
      | .error e =>
          pure (.error (reject message schema ("payload does not decode as '" ++ schema ++ "'")
            (.error e)))
      | .ok event =>
          match validation.validator with
          | none => pure (.ok ())
          | some validator => do
              match ← Program.validate validator event with
              | .ok () => pure (.ok ())
              | .error e =>
                  pure (.error (reject message schema "payload rejected by validator" (.error e)))

def wrap (validation : SchemaValidation F) (handlerName : String) (next : Handler F) : Handler F :=
  fun message =>
    match message.metadata.schema? with
    | none => do
        Program.log .warn "Message has no schema metadata, skipping validation"
          [("handler", handlerName), ("message_uuid", message.uuid)]
        next message
    | some schema => do
        match ← validation.check message schema with
        | .error e => pure (.error e)
        | .ok () => next message

def stage (validation : SchemaValidation F) : Stage F := ⟨"schema_validation", validation.wrap⟩

end SchemaValidation

end EventPipeline

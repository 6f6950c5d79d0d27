import EventPipeline.Text.Utf8

/-!
What can go wrong between a broker and a handler, and which failures may pass when a message is
tried again.
-/

set_option autoImplicit false

namespace EventPipeline

mutual
inductive EventError where
  | config (message : String)
  | unknownTransport (value : String)
  | transportUnavailable (name : String)
  | registration (message : String)
  | transport (name message : String)
  | serialization (message : String)
  -- A message that no retry can save, with its payload and the schema it claimed.
  | unprocessable (payload : Bytes) (schema : Option String) (reason : String) (cause : Cause)
  | validation (message : String)
  | outbox (message : String)
  | handler (message : String) (cause : Cause)
  | panicked (message : String)
  | notInitialized
deriving DecidableEq, Repr

inductive Cause where
  | unknown
  | text (message : String)
  | error (inner : EventError)
deriving DecidableEq, Repr
end

inductive ErrorCategory where
  | transient
  | permanent
deriving DecidableEq, Repr

def ErrorCategory.name : ErrorCategory → String
  | .transient => "transient"
  | .permanent => "permanent"

namespace EventError

instance : Inhabited EventError := ⟨.notInitialized⟩

def message : EventError → String
  | .config text => "configuration error: " ++ text
  | .unknownTransport value =>
      "unknown transport '" ++ value ++ "' (expected kafka, rabbitmq, aws or memory)"
  | .transportUnavailable name => "transport '" ++ name ++ "' is not enabled in this build"
  | .registration text => "registration error: " ++ text
  | .transport name text => name ++ " transport error: " ++ text
  | .serialization text => "serialization error: " ++ text
  | .unprocessable _ none reason _ => "unprocessable event: " ++ reason
  | .unprocessable _ (some schema) reason _ => "unprocessable event (" ++ schema ++ "): " ++ reason
  | .validation text => "validation failed: " ++ text
  | .outbox text => "outbox error: " ++ text
  | .handler text _ => "handler error: " ++ text
  | .panicked text => "handler panicked: " ++ text
  | .notInitialized => "publisher is not initialized"

def kind : EventError → String
  | .config _ => "Config"
  | .unknownTransport _ => "UnknownTransport"
  | .transportUnavailable _ => "TransportUnavailable"
  | .registration _ => "Registration"
  | .transport .. => "Transport"
  | .serialization _ => "Serialization"
  | .unprocessable .. => "Unprocessable"
  | .validation _ => "Validation"
  | .outbox _ => "Outbox"
  | .handler .. => "Handler"
  | .panicked _ => "Panicked"
  | .notInitialized => "NotInitialized"

def category : EventError → ErrorCategory
  | .unprocessable .. | .validation _ | .serialization _ | .config _ | .unknownTransport _
  | .transportUnavailable _ | .registration _ => .permanent
  | .transport .. | .outbox _ | .handler .. | .panicked _ | .notInitialized => .transient

def isRetryable (e : EventError) : Bool := e.category == .transient

def isUnprocessable : EventError → Bool
  | .unprocessable .. => true
  | _ => false

-- Failures that belong on the poison queue unless the service decides otherwise.
def isPoison : EventError → Bool
  | .unprocessable .. | .validation _ => true
  | _ => false

end EventError

mutual
def EventError.sources : EventError → List String
  | .unprocessable _ _ _ cause => cause.texts
  | .handler _ cause => cause.texts
  | _ => []

def Cause.texts : Cause → List String
  | .unknown => []
  | .text text => [text]
  | .error inner => inner.message :: inner.sources
end

end EventPipeline

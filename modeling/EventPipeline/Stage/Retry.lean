import EventPipeline.Config
import EventPipeline.Number.Decimal
import EventPipeline.Stage.Chain

/-!
The stage that tries a message again after failures that may pass, waiting longer each time. Every
attempt starts from the message as it was received.
-/

set_option autoImplicit false

namespace EventPipeline

variable {F : EventFamily}

-- Attempts number `tried` and up, of which `left` more may follow this one.
def attempt (policy : RetryPolicy) (handlerName : String) (next : Handler F) (message : Message)
    (tried : Nat) : Nat → Program F (Except EventError (List Message))
  | 0 => next message
  | left + 1 => do
      match ← next message with
      | .ok outputs => pure (.ok outputs)
      | .error e =>
          if e.isRetryable then
            let delay := policy.delay tried
            Program.log .warn "Handler failed, retrying"
              [("handler", handlerName), ("message_uuid", message.uuid),
                ("retry", decimalText (tried + 1)),
                ("max_retries", decimalText policy.maxRetries.toNat),
                ("delay_ms", decimalText (delay.wholeMillis % (largest64 + 1))), ("error", e.message)]
            Program.count (.retried handlerName)
            Program.sleep delay
            attempt policy handlerName next message (tried + 1) left
          else pure (.error e)

def retryWith (policy : RetryPolicy) (handlerName : String) (next : Handler F) : Handler F :=
  fun message => attempt policy handlerName next message 0 policy.maxRetries.toNat

def Stage.retry (policy : RetryPolicy) : Stage F := ⟨"retry", retryWith policy⟩

end EventPipeline

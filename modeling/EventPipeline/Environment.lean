import EventPipeline.Config
import EventPipeline.Number.Decimal

/-!
Configuration from environment variables. A variable can be missing, blank or set, and different
settings take a blank one differently: names keep it, options are then absent, numbers fall back.
-/

set_option autoImplicit false

namespace EventPipeline

inductive ConfigError where
  | missing (key : String)
  | unreadable (key details : String)
deriving DecidableEq, Repr

namespace ConfigError

def message : ConfigError → String
  | .missing key => "Environment variable '" ++ key ++ "' is required but not set"
  | .unreadable key details => "Failed to parse environment variable '" ++ key ++ "': " ++ details

def toEventError (e : ConfigError) : EventError := .config e.message

end ConfigError

abbrev Environment := String → Option String

namespace Environment

-- A value that is no well-formed text counts as missing.
def ofList (entries : List (String × Bytes)) : Environment := fun key =>
  (entries.find? fun entry => entry.1 == key).bind fun entry => entry.2.toString?

def required (env : Environment) (key : String) : Except ConfigError String :=
  match env key with
  | some value => .ok value
  | none => .error (.missing key)

def getOr (env : Environment) (key fallback : String) : String := (env key).getD fallback

def nonBlank? (env : Environment) (key : String) : Option String :=
  (env key).filter fun value => !isBlankText value

def number (env : Environment) (key : String) (limit fallback : Nat) : Except ConfigError Nat :=
  match env.nonBlank? key with
  | none => .ok fallback
  | some value =>
      (readUnsigned limit (trim value)).mapError fun e => .unreadable key e.message

def config (env : Environment) : Except EventError Config := do
  let selector ← (env.required "EVENTS_TRANSPORT").mapError ConfigError.toEventError
  let transport ← TransportKind.parse selector
  let numeric (key : String) (limit fallback : Nat) : Except EventError Nat :=
    (env.number key limit fallback).mapError ConfigError.toEventError
  let maxRetries ← numeric "EVENTS_RETRY_MAX_RETRIES" largest32 3
  let initial ← numeric "EVENTS_RETRY_INITIAL_INTERVAL_MS" largest64 100
  let limit ← numeric "EVENTS_RETRY_MAX_INTERVAL_MS" largest64 10000
  .ok {
    transport
    kafka :=
      { brokers := env.getOr "KAFKA_BROKERS" KafkaConfig.default.brokers
        consumerGroup := env.getOr "KAFKA_CONSUMER_GROUP" KafkaConfig.default.consumerGroup }
    rabbitMq :=
      { uri := env.getOr "RABBITMQ_URI" RabbitMqConfig.default.uri
        queueSuffix := env.nonBlank? "RABBITMQ_QUEUE_SUFFIX" }
    aws :=
      { region := env.getOr "AWS_REGION" AwsConfig.default.region
        accountId := env.nonBlank? "AWS_ACCOUNT_ID"
        endpointUrl := env.nonBlank? "AWS_ENDPOINT_URL" }
    queues := ⟨env.getOr "EVENTS_CONSUME_QUEUE" "", env.getOr "EVENTS_PUBLISH_QUEUE" ""⟩
    secondQueues :=
      ⟨env.getOr "EVENTS_SECOND_CONSUME_QUEUE" "", env.getOr "EVENTS_SECOND_PUBLISH_QUEUE" ""⟩
    poisonQueue := env.nonBlank? "EVENTS_POISON_QUEUE"
    retry :=
      .exponential (UInt32.ofNat maxRetries) (.ofMillis initial) (.ofMillis limit) }

end Environment

end EventPipeline

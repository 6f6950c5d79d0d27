import EventPipeline.Text.Utf8
import EventPipeline.Text.Blank
import EventPipeline.Text.Quoted
import EventPipeline.Number.Shortest
import EventPipeline.Duration
import EventPipeline.Message
import EventPipeline.Metadata.Document
import EventPipeline.EventError
import EventPipeline.Json.Text
import EventPipeline.Json.Number
import EventPipeline.Json.Record
import EventPipeline.Codec
import EventPipeline.Events.Family
import EventPipeline.Events.Limits
import EventPipeline.Environment
import EventPipeline.Measurement
import EventPipeline.Trace
import EventPipeline.TypedHandler
import EventPipeline.Stage.Recovery
import EventPipeline.Stage.PoisonQueue
import EventPipeline.Stage.Correlation
import EventPipeline.Stage.Observation
import EventPipeline.Stage.SchemaValidation
import EventPipeline.Stage.Retry
import EventPipeline.Stage.Outbox
import EventPipeline.Stage.Tag
import EventPipeline.Broker
import EventPipeline.OutboxStore
import EventPipeline.Producer
import EventPipeline.Service.Route
import EventPipeline.Service.Scene
import EventPipeline.Broker.Timeline
import EventPipeline.World.News
import EventPipeline.Delivery
import EventPipeline.Scenario.Script
import EventPipeline.Scenario.Rig
import EventPipeline.Scenario.Bench
import EventPipeline.Text.Hex
import EventPipeline.Proofs.Confinement
import EventPipeline.Proofs.Publication
import EventPipeline.Proofs.Pipeline
import EventPipeline.Proofs.Settlement
import EventPipeline.Proofs.DeadLetter
import EventPipeline.Proofs.Replay
import EventPipeline.Proofs.WorldBrokers
import EventPipeline.Proofs.Interleaving
import EventPipeline.Proofs.Deliveries
import EventPipeline.Proofs.Turns
import EventPipeline.Proofs.Alike
import EventPipeline.Proofs.Repeatable
import EventPipeline.Proofs.Reliability
import EventPipeline.Proofs.Schedules
import EventPipeline.Proofs.Intake
import EventPipeline.Proofs.Outbox
import EventPipeline.Proofs.Reprocessing
import EventPipeline.Proofs.Progress
import EventPipeline.Proofs.Shutdown
import EventPipeline.Proofs.Startup
import EventPipeline.Proofs.SchemaAgreement
import EventPipeline.Proofs.Safekeeping
import EventPipeline.Proofs.Containment
import EventPipeline.Proofs.RoundTrips
import EventPipeline.Proofs.Metrics
import EventPipeline.Proofs.Feeding
import EventPipeline.Proofs.Counters
import EventPipeline.Proofs.Delays
import EventPipeline.Proofs.Retrying
import EventPipeline.Proofs.Batches
import EventPipeline.Proofs.Launch
import EventPipeline.Proofs.Correlation
import EventPipeline.Proofs.RuleChecks
import EventPipeline.Proofs.Ownership
import EventPipeline.Proofs.FirstWrites
import EventPipeline.Proofs.Muting
import EventPipeline.Proofs.Polling
import EventPipeline.Proofs.Settings
import EventPipeline.Proofs.BagTexts

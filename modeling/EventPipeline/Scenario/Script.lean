import EventPipeline.Events.Limits
import EventPipeline.TypedHandler
import EventPipeline.World.Basic

/-!
Handlers that follow a script: call number n takes action number n, and calls beyond the end repeat
the last action. An action pauses, and then succeeds with stated outputs, fails or panics.
-/

set_option autoImplicit false

namespace EventPipeline.Scenario

open Events

inductive Identity where
  | inherited
  | fresh
  | given (uuid : String)
deriving DecidableEq, Repr

structure MetadataEdit where
  removed : List String
  changed : List (String × String)
deriving DecidableEq, Repr

def MetadataEdit.apply (edit : MetadataEdit) (bag : Metadata) : Metadata :=
  edit.changed.foldl (fun bag pair => bag.set pair.1 pair.2)
    (edit.removed.foldl (fun bag key => bag.remove key) bag)

inductive RawOutput where
  | echo (identity : Identity) (suffix : Bytes) (edit : MetadataEdit)
  | message (uuid : Option String) (payload : Bytes) (metadata : Metadata)
deriving DecidableEq

structure MetadataSource where
  inbound : Bool
  edit : MetadataEdit
deriving DecidableEq, Repr

structure TypedOutput where
  increment : Int
  confirmed : Bool
  absent : Bool
  note : Option String
  wrapped : Bool
  metadata : Option MetadataSource
deriving DecidableEq, Repr

inductive Behaviour where
  | fail (e : EventError)
  | panic (p : Panic)
  -- A raw handler without stated outputs returns the message itself.
  | succeed (raw : Option (List RawOutput)) (typed : List TypedOutput)

structure Action where
  pause : Duration
  behaviour : Behaviour

structure Script where
  actions : List Action

def Script.action (script : Script) (call : Nat) : Action :=
  match script.actions[call]?, script.actions.getLast? with
  | some action, _ => action
  | none, some action => action
  | none, none => ⟨.zero, .succeed none [⟨0, true, false, none, false, none⟩]⟩

def takeId (identity : Identity) (inherited : String) (ids : Nat) : String × Nat :=
  match identity with
  | .inherited => (inherited, ids)
  | .fresh => (Uuid.ofNat ids, ids + 1)
  | .given uuid => (uuid, ids)

def RawOutput.build (output : RawOutput) (received : Message) (ids : Nat) : Message × Nat :=
  match output with
  | .echo identity suffix edit =>
      let (uuid, ids) := takeId identity received.uuid ids
      (⟨uuid, received.payload ++ suffix, edit.apply received.metadata⟩, ids)
  | .message none payload metadata => (⟨Uuid.ofNat ids, payload, metadata⟩, ids + 1)
  | .message (some uuid) payload metadata => (⟨uuid, payload, metadata⟩, ids)

def buildRaw (received : Message) : List RawOutput → Nat → List Message × Nat
  | [], ids => ([], ids)
  | output :: outputs, ids =>
      let (message, ids) := output.build received ids
      let (messages, ids) := buildRaw received outputs ids
      (message :: messages, ids)

def Script.rawResponse (script : Script) (call : Nat) (received : Message) :
    Response (List Message) :=
  let action := script.action call
  ⟨action.pause, fun ids =>
    match action.behaviour with
    | .fail e => (.error e, ids)
    | .panic p => (.panic p, ids)
    | .succeed none _ => (.ok [received], ids)
    | .succeed (some outputs) _ =>
        let (messages, ids) := buildRaw received outputs ids
        (.ok messages, ids)⟩

def addU32 (n : UInt32) (increment : Int) : UInt32 := UInt32.ofInt (n.toNat + increment)

def addU64 (n : UInt64) (increment : Int) : UInt64 := UInt64.ofInt (n.toNat + increment)

def transform : (input output : Kind) → TypedOutput → input.Value → Option output.Value
  | .orderPlaced, .orderConfirmed, spec, order =>
      some { id := addU32 order.id spec.increment, confirmed := spec.confirmed }
  | .orderPlaced, .maybe, spec, order =>
      some (if spec.absent then none
        else some { id := addU32 order.id spec.increment, confirmed := spec.confirmed })
  | .orderConfirmed, .orderPlaced, spec, order =>
      some { id := addU32 order.id spec.increment
             note := spec.note.getD (if order.confirmed then "yes" else "no") }
  | .signup, .orderConfirmed, spec, signup =>
      some { id := (addU64 signup.id spec.increment).toUInt32, confirmed := signup.email.isEmpty }
  | .listing, .listing, spec, listing =>
      some { id := addU64 listing.id spec.increment, items := listing.items ++ spec.note.toList }
  | .impostor, .impostor, spec, impostor => some { id := addU64 impostor.id spec.increment }
  | .ticket, .ticket, spec, ticket =>
      let entry := { ticket.entry with id := Int64.ofInt (ticket.entry.id.toInt + spec.increment) }
      let moved : Ticket := { ticket with entry }
      some (if spec.wrapped then Ticket.fresh.withParent (some moved) else moved)
  | .counter, .counter, spec, counter => some { value := addU64 counter.value spec.increment }
  | .ping, .counter, spec, ping => some { value := addU64 ping.id.toUInt64 spec.increment }
  | .envelope, .envelope, spec, envelope =>
      some { envelope with delta := Int32.ofInt (envelope.delta.toInt + spec.increment) }
  | _, _, _, _ => none

def MetadataSource.build (source : MetadataSource) (inbound : Metadata) : Metadata :=
  source.edit.apply (if source.inbound then inbound else .empty)

def Script.typedResponse (script : Script) (call : Nat) (input output : Kind)
    (context : HandlerContext input.Value) : Response (List (Outgoing output.Value)) :=
  let action := script.action call
  ⟨action.pause, fun ids =>
    match action.behaviour with
    | .fail e => (.error e, ids)
    | .panic p => (.panic p, ids)
    | .succeed _ outputs =>
        (.ok (outputs.filterMap fun spec =>
          (transform input output spec context.payload).map fun value =>
            ⟨value, spec.metadata.map fun source => source.build context.metadata⟩), ids)⟩

inductive Verdicts where
  | standard
  | always
  | never
  | retryable
  | among (accepts : EventError → Bool)

def Verdicts.accept : Verdicts → EventError → Bool
  | .standard, e => e.isPoison
  | .always, _ => true
  | .never, _ => false
  | .retryable, e => e.isRetryable
  | .among accepts, e => accepts e

def collaborators (scripts : List Script) (validators : List (RulesValidator family))
    (verdicts : List Verdicts) : Collaborators family where
  raw handler call message := (scripts.getD handler ⟨[]⟩).rawResponse call message
  typed handler call input output context :=
    (scripts.getD handler ⟨[]⟩).typedResponse call input output context
  validate validator event :=
    match (validators.getD validator .empty).validate event with
    | .ok () => .ok ()
    | .error e => .error e
  classify classifier e := .ok ((verdicts.getD classifier .standard).accept e)

end EventPipeline.Scenario

import EventPipeline.Registry
import EventPipeline.Events.Ticket
import EventPipeline.Events.Signal

/-!
The ten kinds of events as a family, with the codec each of them travels in.
-/

set_option autoImplicit false

namespace EventPipeline.Events

inductive Kind where
  | orderPlaced
  | orderConfirmed
  | signup
  | listing
  | impostor
  | maybe
  | ticket
  | counter
  | ping
  | envelope
deriving DecidableEq, Repr

namespace Kind

def all : List Kind :=
  [.orderPlaced, .orderConfirmed, .signup, .listing, .impostor, .maybe, .ticket, .counter, .ping,
    .envelope]

abbrev Value : Kind → Type
  | .orderPlaced => OrderPlaced
  | .orderConfirmed => OrderConfirmed
  | .signup => Signup
  | .listing => Listing
  | .impostor => Impostor
  | .maybe => Maybe
  | .ticket => Ticket
  | .counter => Counter
  | .ping => Ping
  | .envelope => Envelope

def schema : Kind → String
  | .orderPlaced => "order_placed"
  | .orderConfirmed => "order_confirmed"
  | .signup => "signup"
  | .listing => "order.placed"
  | .impostor => "order.placed"
  | .maybe => "maybe"
  | .ticket => "ticket"
  | .counter => "counter"
  | .ping => "ping"
  | .envelope => "envelope"

def name : Kind → String
  | .orderPlaced => "OrderPlaced"
  | .orderConfirmed => "OrderConfirmed"
  | .signup => "Signup"
  | .listing => "Listing"
  | .impostor => "Impostor"
  | .maybe => "Maybe"
  | .ticket => "Ticket"
  | .counter => "Counter"
  | .ping => "Ping"
  | .envelope => "Envelope"

def label : Kind → String
  | .listing => "listing"
  | .impostor => "impostor"
  | kind => kind.schema

def ofLabel? (text : String) : Option Kind := all.find? fun kind => kind.label == text

def fresh : (kind : Kind) → Value kind
  | .orderPlaced => OrderPlaced.format.fresh
  | .orderConfirmed => OrderConfirmed.format.fresh
  | .signup => Signup.format.fresh
  | .listing => (Listing.format 0).fresh
  | .impostor => Impostor.format.fresh
  | .maybe => none
  | .ticket => Ticket.fresh
  | .counter => Counter.format.fresh
  | .ping => Ping.format.fresh
  | .envelope => Envelope.format.fresh

def codec : (kind : Kind) → Codec (Value kind)
  | .orderPlaced => Json.codec (OrderPlaced.read Json.maxLevels) OrderPlaced.write
  | .orderConfirmed => Json.codec (OrderConfirmed.read Json.maxLevels) OrderConfirmed.write
  | .signup => Json.codec (Signup.read Json.maxLevels) Signup.write
  | .listing => Json.codec (Listing.read Json.maxLevels) Listing.write
  | .impostor => Json.codec (Impostor.read Json.maxLevels) Impostor.write
  | .maybe => Json.codec (Maybe.read Json.maxLevels) Maybe.write
  | .ticket => Json.codec (Ticket.read Json.maxLevels) Ticket.write
  | .counter => Protobuf.codec Counter.format
  | .ping => Protobuf.codec Ping.format
  | .envelope => Protobuf.codec Envelope.format

end Kind

def qualified (name : String) : String := "oracle_driver::types::" ++ name

def family : EventFamily where
  Kind := Kind
  decEq := inferInstance
  Value := Kind.Value
  schema := Kind.schema
  typeName kind := qualified kind.name
  fresh := Kind.fresh

def entry (kind : Kind) : SchemaEntry family := SchemaEntry.of kind kind.codec

end EventPipeline.Events

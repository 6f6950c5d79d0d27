import EventPipeline.Events.Order

/-!
Tickets: a chain of entries, each the parent of the one before it. Written as JSON, every ancestor
sits one level deeper.
-/

set_option autoImplicit false

namespace EventPipeline.Events

open Json

inductive Priority where
  | low
  | normal
  | high
deriving DecidableEq, Repr

namespace Priority

def name : Priority → String
  | .low => "low"
  | .normal => "normal"
  | .high => "high"

def names : List String := ["low", "normal", "high"]

def ofName (name : String) : Priority :=
  if name = "low" then .low else if name = "high" then .high else .normal

end Priority

structure TicketEntry where
  id : Int64
  priority : Priority
  tags : List String
deriving DecidableEq, Repr

structure Ticket where
  entry : TicketEntry
  ancestors : List TicketEntry
deriving DecidableEq, Repr

namespace Ticket

def fresh : Ticket := ⟨⟨0, .normal, []⟩, []⟩

def depth (ticket : Ticket) : Nat := ticket.ancestors.length

def root (ticket : Ticket) : TicketEntry := ticket.ancestors.getLastD ticket.entry

def withParent (ticket : Ticket) : Option Ticket → Ticket
  | none => { ticket with ancestors := [] }
  | some parent => { ticket with ancestors := parent.entry :: parent.ancestors }

def readPriority (levels : Nat) : Reader Priority := fun bytes =>
  (readChoice levels Priority.names bytes).map fun result => (Priority.ofName result.1, result.2)

def format (levels : Nat) (parent : Reader Ticket) : RecordFormat Ticket where
  fresh := fresh
  fields :=
    [field "ticketId" readI64
        (fun id ticket => { ticket with entry := { ticket.entry with id } }) true,
      field "priority" (readPriority levels)
        (fun priority ticket => { ticket with entry := { ticket.entry with priority } }) false,
      field "tags" (readList levels readText)
        (fun tags ticket => { ticket with entry := { ticket.entry with tags } }) false,
      { field "parent" (readOption parent) (fun parent ticket => ticket.withParent parent) false with
        requiredInArray := true }]
  closed := true

def read : Nat → Reader Ticket
  | 0 => readRecord "Ticket" none
  | levels + 1 => readRecord "Ticket" (some (format levels (read levels)))

def entryMembers (entry : TicketEntry) : List Bytes :=
  [writeMember "ticketId" (decimalInt entry.id.toInt),
    writeMember "priority" (writeText entry.priority.name),
    writeMember "tags" (writeList (entry.tags.map writeText))]

def writeChain (entry : TicketEntry) : List TicketEntry → Bytes
  | [] => writeObject (entryMembers entry)
  | parent :: ancestors =>
      writeObject (entryMembers entry ++ [writeMember "parent" (writeChain parent ancestors)])

def write (ticket : Ticket) : Bytes := writeChain ticket.entry ticket.ancestors

end Ticket

end EventPipeline.Events

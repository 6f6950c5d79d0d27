import EventPipeline.Events.Family
import EventPipeline.Rules
import EventPipeline.Text.Email

/-!
What the values of some kinds must satisfy beyond being well-formed.
-/

set_option autoImplicit false

namespace EventPipeline.Events

def complaint (field : String) (complaints : List (Bool × String)) : Option String :=
  let raised := (complaints.filter (·.1)).map (·.2)
  if raised.isEmpty then none else some (field ++ ": " ++ String.intercalate ", " raised)

def hasDoubleBang : List Char → Bool
  | '!' :: '!' :: _ => true
  | _ :: rest => hasDoubleBang rest
  | [] => false

def objection? : (kind : Kind) → Kind.Value kind → Option String
  | .orderPlaced, event =>
      complaint "note"
        [(16 < event.note.toList.length, "note is too long"),
          (hasDoubleBang event.note.toList, "note shouts")]
  | .signup, event => complaint "email" [(!Email.isValid event.email, "bad email")]
  | .listing, event => complaint "items" [(event.items.isEmpty, "no items")]
  | .impostor, event => complaint "id" [(decide (event.id < 10), "id is too small")]
  | _, _ => none

def rule (kind : Kind) : Rule family := ⟨kind, objection? kind⟩

end EventPipeline.Events

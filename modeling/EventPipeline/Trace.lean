import EventPipeline.Metadata

/-!
What a service tells its operators: leveled events with named texts, and spans that are opened, given
an outcome and closed.
-/

set_option autoImplicit false

namespace EventPipeline

inductive Level where
  | debug
  | info
  | warn
  | error
deriving DecidableEq, Repr

def Level.name : Level → String
  | .debug => "DEBUG"
  | .info => "INFO"
  | .warn => "WARN"
  | .error => "ERROR"

abbrev Labels := List (String × String)

-- What stands beside a message or a name: texts, and sometimes the headers of a message. The headers are
-- kept as a bag, since nothing settles the order in which they are written out.
structure Details where
  texts : Labels
  metadata : Option Metadata := none
deriving DecidableEq

instance : Coe Labels Details := ⟨fun texts => { texts }⟩

-- Where details are printed, the texts alone are.
instance : Coe Details Labels := ⟨Details.texts⟩

inductive TraceRecord where
  | event (level : Level) (message : String) (fields : Details)
  | spanOpened (name : String) (fields : Details)
  | spanRecorded (fields : Labels)
  | spanClosed (name : String)
deriving DecidableEq

end EventPipeline

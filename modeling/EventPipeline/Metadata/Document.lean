import EventPipeline.EventError
import EventPipeline.Json.Reader
import EventPipeline.Json.Writer
import EventPipeline.Metadata

/-!
Metadata as a JSON object of strings.
-/

set_option autoImplicit false

namespace EventPipeline.Metadata

open Json

def toJson (bag : Metadata) : Bytes :=
  writeObject (bag.entries.map fun entry => writeMember entry.1 (writeText entry.2))

-- Where a key comes twice, the later value counts.
def fromJson (bytes : Bytes) : Except EventError Metadata :=
  match readDocument (readMap maxLevels readText) bytes with
  | .ok pairs => .ok (ofList pairs)
  | .error problem => .error (.serialization problem.message)

end EventPipeline.Metadata

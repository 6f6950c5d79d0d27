import EventPipeline.Number.Shortest
import EventPipeline.Text.Quoted

/-!
Identifiers of version 4 in lower case, with hyphens.
-/

set_option autoImplicit false

namespace EventPipeline.Uuid

def isLowerHex (c : Char) : Bool := c.isDigit || ('a' ≤ c && c ≤ 'f')

def isValid (text : String) : Bool :=
  let chars := text.toList
  chars.length == 36 &&
    chars.zipIdx.all fun entry =>
      let (c, place) := entry
      if [8, 13, 18, 23].contains place then c == '-'
      else if place = 14 then c == '4'
      else if place = 19 then ['8', '9', 'a', 'b'].contains c
      else isLowerHex c

def ofNat (n : Nat) : String :=
  "7d3f1a92-5c08-4e6b-9b41-" ++ String.ofList (Decimal.padLeft 12 (hexDigits n))

end EventPipeline.Uuid

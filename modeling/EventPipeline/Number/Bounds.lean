/-!
The largest unsigned numbers of the usual widths.
-/

set_option autoImplicit false

namespace EventPipeline

def largest32 : Nat := 4294967295

def largest64 : Nat := 18446744073709551615

end EventPipeline

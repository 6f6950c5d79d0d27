import EventPipeline.Number.Bounds
import EventPipeline.Number.Shortest

/-!
Spans of time in nanoseconds. The largest one has 2^64 - 1 whole seconds and 999999999 nanoseconds,
and multiplication stops there.
-/

set_option autoImplicit false

namespace EventPipeline

structure Duration where
  nanos : Nat
  bounded : nanos < (largest64 + 1) * 1000000000
deriving DecidableEq, Repr

namespace Duration

def maxNanos : Nat := largest64 * 1000000000 + 999999999

def ofNanos (n : Nat) : Duration := ⟨min n maxNanos, by unfold maxNanos largest64; omega⟩

def zero : Duration := ⟨0, by decide⟩

instance : Inhabited Duration := ⟨zero⟩

def ofMillis (n : Nat) : Duration := ofNanos (n * 1000000)

def ofSecs (secs nanos : Nat) : Duration := ofNanos (secs * 1000000000 + nanos)

def secs (d : Duration) : Nat := d.nanos / 1000000000

def subsecNanos (d : Duration) : Nat := d.nanos % 1000000000

def wholeMillis (d : Duration) : Nat := d.nanos / 1000000

-- Whole milliseconds, a started one counted in full.
def ceilMillis (d : Duration) : Nat := (d.nanos + 999999) / 1000000

-- Thirty years of 365 days.
def longestWait : Nat := 30 * 365 * 86400 * 1000

-- For how many milliseconds a timer set to the span waits. No timer waits longer than
-- `longestWait`.
def waitMillis (d : Duration) : Nat := min d.ceilMillis longestWait

def times (d : Duration) (n : Nat) : Duration := ofNanos (d.nanos * n)

def atMost (d limit : Duration) : Duration := if d.nanos ≤ limit.nanos then d else limit

def text (d : Duration) : String :=
  decimalText d.secs ++ "." ++ String.ofList (Decimal.padLeft 9 (Nat.toDigits 10 d.subsecNanos))

end Duration

end EventPipeline

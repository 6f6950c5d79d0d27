import EventPipeline.Broker
import EventPipeline.Duration

/-!
A broker as time goes by: what is planned to happen to it later, and observers who look every few
milliseconds until they have seen enough or run out of time.
-/

set_option autoImplicit false

namespace EventPipeline

inductive Occurrence where
  | publish (topic : String) (message : Message)
  | settle (settlement : Settlement)
  | close
deriving DecidableEq

structure Plan where
  time : Nat
  occurrence : Occurrence
deriving DecidableEq

structure Timeline where
  clock : Nat
  broker : Broker
  plans : List Plan
deriving DecidableEq

namespace Timeline

def create : Timeline := ⟨0, .empty, []⟩

-- A message that the broker refuses is lost.
def occur (broker : Broker) : Occurrence → Broker
  | .publish topic message => ((broker.publish topic message).toOption).getD broker
  | .settle settlement => broker.settle settlement
  | .close => broker.close

-- Lets time pass. What was planned until then happens, the earliest first.
def wait (line : Timeline) (millis : Nat) : Timeline :=
  let clock := line.clock + millis
  let (due, later) := line.plans.partition fun plan => plan.time ≤ clock
  let ordered := due.mergeSort fun a b => a.time ≤ b.time
  { clock
    broker := ordered.foldl (fun broker plan => occur broker plan.occurrence) line.broker
    plans := later }

-- What is planned for the present moment happens as soon as somebody waits, if only for no time.
def plan (line : Timeline) (delay : Nat) (occurrence : Occurrence) : Timeline :=
  { line with plans := line.plans ++ [⟨line.clock + delay, occurrence⟩] }

-- The present moment in nanoseconds.
def now (line : Timeline) : Nat := line.clock * 1000000

def pause : Nat := 5

-- The deadline is noticed when somebody looks, which may be a little later.
def pollUntil (enough : Broker → Bool) (deadline : Nat) (line : Timeline) : Timeline :=
  if enough line.broker || deadline ≤ line.now then line
  else pollUntil enough deadline (line.wait pause)
termination_by deadline - line.now
decreasing_by
  have later : (line.wait pause).now = line.now + 5000000 := by simp only [now, wait, pause]; omega
  simp_all only [Bool.or_eq_true, decide_eq_true_eq, not_or, Nat.not_le]
  omega

def waitFor (line : Timeline) (enough : Broker → Bool) (timeout : Duration) : Timeline :=
  pollUntil enough (line.now + timeout.nanos) line

def awaitPublished (line : Timeline) (topic : String) (count : Nat) (timeout : Duration) :
    List Message × Timeline :=
  let after := line.waitFor (fun broker => count ≤ (broker.published topic).length) timeout
  (after.broker.published topic, after)

def awaitSettled (line : Timeline) (count : Nat) (timeout : Duration) : Nat × Timeline :=
  let after := line.waitFor (fun broker => count ≤ broker.settled) timeout
  (after.broker.settled, after)

-- The same with a timeout in milliseconds.
def waitForPublished (line : Timeline) (topic : String) (count timeout : Nat) :
    List Message × Timeline :=
  line.awaitPublished topic count (.ofMillis timeout)

def waitForSettled (line : Timeline) (count timeout : Nat) : Nat × Timeline :=
  line.awaitSettled count (.ofMillis timeout)

end Timeline

end EventPipeline

import EventPipeline.Duration

/-!
What a service counts. Each measurement adds one to a series of its own, named by a metric and its
labels; a processed message also adds a record to the histogram of durations.
-/

set_option autoImplicit false

namespace EventPipeline

inductive Measurement where
  | received (handler : String)
  | processed (handler : String)
  | failed (handler category : String)
  | retried (handler : String)
  | poisoned (handler : String)
  | published (handler queue : String)
  | panicRecovered (handler : String)
deriving DecidableEq, Repr

structure Series where
  metric : String
  labels : List (String × String)
deriving DecidableEq, Repr

namespace Series

def text (series : Series) : String :=
  let labels := series.labels.map fun label => label.1 ++ "=" ++ label.2
  series.metric ++ "\x7b" ++ String.intercalate "," (labels.mergeSort fun a b => decide (a ≤ b)) ++ "\x7d"

end Series

namespace Measurement

def series : Measurement → List Series
  | .received handler => [⟨"eventing_messages_received_total", [("handler", handler)]⟩]
  | .processed handler =>
      [⟨"eventing_messages_processed_total", [("handler", handler), ("status", "success")]⟩,
        ⟨"eventing_handler_duration_seconds", [("handler", handler)]⟩]
  | .failed handler category =>
      [⟨"eventing_messages_processed_total",
        [("handler", handler), ("status", "failed"), ("category", category)]⟩]
  | .retried handler => [⟨"eventing_messages_retried_total", [("handler", handler)]⟩]
  | .poisoned handler => [⟨"eventing_messages_poisoned_total", [("handler", handler)]⟩]
  | .published handler queue =>
      [⟨"eventing_messages_published_total", [("handler", handler), ("queue", queue)]⟩]
  | .panicRecovered handler => [⟨"eventing_panics_recovered_total", [("handler", handler)]⟩]

def totals (measurements : List Measurement) : List (String × Nat) :=
  let touched := measurements.flatMap fun m => m.series.map Series.text
  touched.eraseDups.map fun series => (series, touched.count series)

end Measurement

end EventPipeline

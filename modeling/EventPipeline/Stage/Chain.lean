import EventPipeline.Program
import EventPipeline.Text.Quoted

/-!
A stage wraps a handler for the name it is registered under; a chain is a list of stages, the
outermost first.
-/

set_option autoImplicit false

namespace EventPipeline

structure Stage (F : EventFamily) where
  name : String
  wrap : String → Handler F → Handler F

abbrev Chain (F : EventFamily) := List (Stage F)

namespace Chain

variable {F : EventFamily}

def names (chain : Chain F) : List String := chain.map (·.name)

def apply (chain : Chain F) (handlerName : String) (handler : Handler F) : Handler F :=
  chain.foldr (fun stage next => stage.wrap handlerName next) handler

def describe (chain : Chain F) : String := quotedList chain.names

end Chain

end EventPipeline

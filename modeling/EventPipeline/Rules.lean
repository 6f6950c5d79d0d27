import EventPipeline.EventFamily

/-!
Validation rules per schema. A schema has at most one rule; a later one replaces an earlier one, and
a rule for another kind than the decoded value rejects it.
-/

set_option autoImplicit false

namespace EventPipeline

structure Rule (F : EventFamily) where
  kind : F.Kind
  objection? : F.Value kind → Option String

structure RulesValidator (F : EventFamily) where
  rules : List (Rule F)

namespace RulesValidator

variable {F : EventFamily}

def empty : RulesValidator F := ⟨[]⟩

def add (validator : RulesValidator F) (rule : Rule F) : RulesValidator F :=
  ⟨validator.rules ++ [rule]⟩

def rule? (validator : RulesValidator F) (schema : String) : Option (Rule F) :=
  validator.rules.reverse.find? fun rule => F.schema rule.kind == schema

def validate (validator : RulesValidator F) (event : DecodedEvent F) : Except EventError Unit :=
  match validator.rule? event.schema with
  | none => .ok ()
  | some rule =>
      match event.as? rule.kind with
      | none => .error (.validation ("payload is not a " ++ F.typeName rule.kind))
      | some value =>
          match rule.objection? value with
          | none => .ok ()
          | some objection => .error (.validation objection)

end RulesValidator

end EventPipeline

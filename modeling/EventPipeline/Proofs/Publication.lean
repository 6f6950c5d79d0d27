import EventPipeline.Proofs.Confinement

/-!
What a transcript says about brokers: the messages handed to a publisher with the replies, those that
were accepted, the refusals, and the settlements.
-/

set_option autoImplicit false

namespace EventPipeline

open Program

variable {F : EventFamily}

structure Publication where
  broker : BrokerId
  queue : String
  message : Message
deriving DecidableEq

namespace Exchange

def publish? : Exchange F → Option (Publication × Reply Unit)
  | ⟨.publish broker queue message, reply⟩ => some (⟨broker, queue, message⟩, reply)
  | _ => none

def settlement? : Exchange F → Option (BrokerId × Settlement)
  | ⟨.settle broker settlement, _⟩ => some (broker, settlement)
  | _ => none

-- A publisher or an acknowledger that does not return.
def breaks : Exchange F → Prop
  | ⟨.publish .., reply⟩ => ∃ p, reply = Reply.panic p
  | ⟨.settle .., reply⟩ => ∃ p, reply = Reply.panic p
  | _ => False

end Exchange

def acceptance? : Publication × Reply Unit → Option Publication
  | (publication, .ok _) => some publication
  | _ => none

def refusal? : Publication × Reply Unit → Option EventError
  | (_, .error e) => some e
  | _ => none

namespace Transcript

def publishes (t : Transcript F) : List (Publication × Reply Unit) := t.filterMap Exchange.publish?

def sent (t : Transcript F) : List Publication := (publishes t).map (·.1)

def accepted (t : Transcript F) : List Publication := (publishes t).filterMap acceptance?

def refusals (t : Transcript F) : List EventError := (publishes t).filterMap refusal?

def settlements (t : Transcript F) : List (BrokerId × Settlement) := t.filterMap Exchange.settlement?

@[simp] theorem publishes_append (t u : Transcript F) :
    publishes (t ++ u) = publishes t ++ publishes u := List.filterMap_append

@[simp] theorem sent_append (t u : Transcript F) : sent (t ++ u) = sent t ++ sent u := by
  simp [sent]

@[simp] theorem accepted_append (t u : Transcript F) :
    accepted (t ++ u) = accepted t ++ accepted u := by
  simp [accepted]

@[simp] theorem settlements_append (t u : Transcript F) :
    settlements (t ++ u) = settlements t ++ settlements u := List.filterMap_append

theorem sent_of_accepted {t : Transcript F} {p : Publication} (taken : p ∈ accepted t) : p ∈ sent t := by
  obtain ⟨⟨publication, reply⟩, member, found⟩ := List.mem_filterMap.mp taken
  cases reply with
  | ok _ => cases found; exact List.mem_map_of_mem member
  | error e => cases found
  | panic q => cases found

def Remarks (t : Transcript F) : Prop := ∀ x ∈ t, x.effect.isRemark = true

theorem remarks_nil : Remarks ([] : Transcript F) := fun _ member => nomatch member

theorem remarks_note (record : TraceRecord) {t : Transcript F} (rest : Remarks t) :
    Remarks (⟨.note record, ()⟩ :: t) := by
  intro x member
  rcases List.mem_cons.mp member with rfl | later
  · rfl
  · exact rest x later

-- Logs and spans alone: nothing is counted either.
def Notes (t : Transcript F) : Prop := ∀ x ∈ t, ∃ record, x.effect = .note record

theorem notes_nil : Notes ([] : Transcript F) := fun _ member => nomatch member

theorem notes_note (record : TraceRecord) {t : Transcript F} (rest : Notes t) :
    Notes (⟨.note record, ()⟩ :: t) := by
  intro x member
  rcases List.mem_cons.mp member with rfl | later
  · exact ⟨record, rfl⟩
  · exact rest x later

theorem notes_append {t u : Transcript F} (first : Notes t) (second : Notes u) : Notes (t ++ u) := by
  intro x member
  exact (List.mem_append.mp member).elim (first x) (second x)

theorem remarks_of_notes {t : Transcript F} (notes : Notes t) : Remarks t := by
  intro x member
  obtain ⟨record, same⟩ := notes x member
  rw [same]
  rfl

theorem publishes_of_no_publish {t : Transcript F}
    (silent : ∀ x ∈ t, ∀ broker queue message, x.effect ≠ .publish broker queue message) :
    publishes t = [] := by
  apply List.filterMap_eq_nil_iff.mpr
  rintro ⟨effect, answer⟩ member
  cases effect with
  | publish broker queue message => exact absurd rfl (silent _ member broker queue message)
  | _ => rfl

theorem settlements_of_no_settle {t : Transcript F}
    (silent : ∀ x ∈ t, ∀ broker settlement, x.effect ≠ .settle broker settlement) :
    settlements t = [] := by
  apply List.filterMap_eq_nil_iff.mpr
  rintro ⟨effect, answer⟩ member
  cases effect with
  | settle broker settlement => exact absurd rfl (silent _ member broker settlement)
  | _ => rfl

theorem quiet_of_internal {t : Transcript F} (internal : ∀ x ∈ t, x.effect.reachesBroker = false) :
    publishes t = [] ∧ settlements t = [] := by
  constructor
  · apply publishes_of_no_publish
    intro x member broker queue message same
    have quiet := internal x member
    rw [same] at quiet
    cases quiet
  · apply settlements_of_no_settle
    intro x member broker settlement same
    have quiet := internal x member
    rw [same] at quiet
    cases quiet

theorem quiet_of_remarks {t : Transcript F} (remarks : Remarks t) : publishes t = [] ∧ settlements t = [] :=
  quiet_of_internal fun x member => unreached_of_routine (routine_of_remark (remarks x member))

end Transcript

end EventPipeline

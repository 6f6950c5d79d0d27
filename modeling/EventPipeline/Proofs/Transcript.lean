import EventPipeline.Program

/-!
Runs of a program. A transcript lists the effects that were performed with the answers they got; a
program leads along a transcript to what is left of it. Sequencing programs concatenates transcripts,
and whoever gives the answers, a program always comes to an end.
-/

set_option autoImplicit false

namespace EventPipeline

variable {F : EventFamily} {α β : Type}

structure Exchange (F : EventFamily) where
  effect : Effect F
  answer : effect.Answer

abbrev Transcript (F : EventFamily) := List (Exchange F)

def Reply.outcome : Reply α → Except Panic (Except EventError α)
  | .ok value => .ok (.ok value)
  | .error e => .ok (.error e)
  | .panic p => .error p

namespace Program

inductive Leads : Program F α → Transcript F → Program F α → Prop where
  | here (p : Program F α) : Leads p [] p
  | answered {effect : Effect F} {next : effect.Answer → Program F α} {answer : effect.Answer}
      {t : Transcript F} {q : Program F α} (later : Leads (next answer) t q) :
      Leads (.perform effect next) (⟨effect, answer⟩ :: t) q

def ofOutcome : Except Panic α → Program F α
  | .ok value => .done value
  | .error p => .panic p

def Ends (p : Program F α) (t : Transcript F) (outcome : Except Panic α) : Prop :=
  Leads p t (ofOutcome outcome)

theorem leads_append {p q r : Program F α} {t u : Transcript F} (first : Leads p t q)
    (second : Leads q u r) : Leads p (t ++ u) r := by
  induction first with
  | here _ => exact second
  | answered _ ih => exact .answered (ih second)

theorem leads_snoc {p : Program F α} {t : Transcript F} {effect : Effect F}
    {next : effect.Answer → Program F α} (reached : Leads p t (.perform effect next))
    (answer : effect.Answer) : Leads p (t ++ [⟨effect, answer⟩]) (next answer) :=
  leads_append reached (.answered (.here _))

theorem ends_done {value : α} {t : Transcript F} {outcome : Except Panic α} :
    Ends (.done value) t outcome ↔ t = [] ∧ outcome = .ok value := by
  constructor
  · intro ends
    cases outcome with
    | ok other => cases ends; exact ⟨rfl, rfl⟩
    | error p => cases ends
  · intro ends
    obtain ⟨rfl, rfl⟩ := ends
    exact .here _

theorem ends_panic {p : Panic} {t : Transcript F} {outcome : Except Panic α} :
    Ends (.panic p) t outcome ↔ t = [] ∧ outcome = .error p := by
  constructor
  · intro ends
    cases outcome with
    | ok value => cases ends
    | error other => cases ends; exact ⟨rfl, rfl⟩
  · intro ends
    obtain ⟨rfl, rfl⟩ := ends
    exact .here _

theorem ends_perform {effect : Effect F} {next : effect.Answer → Program F α} {t : Transcript F}
    {outcome : Except Panic α} :
    Ends (.perform effect next) t outcome ↔
      ∃ answer u, t = ⟨effect, answer⟩ :: u ∧ Ends (next answer) u outcome := by
  constructor
  · intro ends
    cases outcome with
    | ok value => cases ends with | answered later => exact ⟨_, _, rfl, later⟩
    | error p => cases ends with | answered later => exact ⟨_, _, rfl, later⟩
  · intro ends
    obtain ⟨answer, u, rfl, later⟩ := ends
    exact .answered later

-- What a bind asked splits where the first program returned; a panic of the first leaves nothing for
-- the second to ask.
theorem ends_bind {p : Program F α} {f : α → Program F β} {t : Transcript F}
    {outcome : Except Panic β} :
    Ends (p.bind f) t outcome ↔
      (∃ q, outcome = .error q ∧ Ends p t (.error q)) ∨
        ∃ value t₁ t₂, t = t₁ ++ t₂ ∧ Ends p t₁ (.ok value) ∧ Ends (f value) t₂ outcome := by
  induction p generalizing t with
  | done value =>
      simp only [bind, ends_done, reduceCtorEq, and_false, exists_false, false_or]
      constructor
      · intro ends
        exact ⟨value, [], t, rfl, ⟨rfl, rfl⟩, ends⟩
      · intro ends
        obtain ⟨other, t₁, t₂, rfl, ⟨rfl, same⟩, ends⟩ := ends
        cases same
        exact ends
  | panic q =>
      simp only [bind, ends_panic, reduceCtorEq, and_false, false_and, exists_false, or_false]
      constructor
      · intro ends
        obtain ⟨rfl, rfl⟩ := ends
        exact ⟨q, rfl, rfl, rfl⟩
      · intro ends
        obtain ⟨_, rfl, rfl, same⟩ := ends
        cases same
        exact ⟨rfl, rfl⟩
  | perform effect next ih =>
      simp only [bind, ends_perform, ih]
      constructor
      · intro ends
        obtain ⟨answer, u, rfl, ⟨q, rfl, broken⟩ | ⟨value, u₁, u₂, rfl, first, second⟩⟩ := ends
        · exact .inl ⟨q, rfl, answer, u, rfl, broken⟩
        · exact .inr ⟨value, _ :: u₁, u₂, rfl, ⟨answer, u₁, rfl, first⟩, second⟩
      · intro ends
        obtain ⟨q, rfl, answer, u, rfl, broken⟩ | ⟨value, t₁, t₂, rfl, ⟨answer, u, rfl, first⟩, second⟩ := ends
        · exact ⟨answer, u, rfl, .inl ⟨q, rfl, broken⟩⟩
        · exact ⟨answer, u ++ t₂, rfl, .inr ⟨value, u, t₂, rfl, first, second⟩⟩

-- The mirror image of a bind: here it is the panic that goes on.
theorem ends_catch_panic {p : Program F α} {handler : Panic → Program F α} {t : Transcript F}
    {outcome : Except Panic α} :
    Ends (p.catchPanic handler) t outcome ↔
      (∃ value, outcome = .ok value ∧ Ends p t (.ok value)) ∨
        ∃ q t₁ t₂, t = t₁ ++ t₂ ∧ Ends p t₁ (.error q) ∧ Ends (handler q) t₂ outcome := by
  induction p generalizing t with
  | done value =>
      simp only [catchPanic, ends_done, reduceCtorEq, and_false, false_and, exists_false, or_false]
      constructor
      · intro ends
        obtain ⟨rfl, rfl⟩ := ends
        exact ⟨value, rfl, rfl, rfl⟩
      · intro ends
        obtain ⟨_, rfl, rfl, same⟩ := ends
        cases same
        exact ⟨rfl, rfl⟩
  | panic q =>
      simp only [catchPanic, ends_panic, reduceCtorEq, and_false, exists_false, false_or]
      constructor
      · intro ends
        exact ⟨q, [], t, rfl, ⟨rfl, rfl⟩, ends⟩
      · intro ends
        obtain ⟨other, t₁, t₂, rfl, ⟨rfl, same⟩, ends⟩ := ends
        cases same
        exact ends
  | perform effect next ih =>
      simp only [catchPanic, ends_perform, ih]
      constructor
      · intro ends
        obtain ⟨answer, u, rfl, ⟨value, rfl, returned⟩ | ⟨q, u₁, u₂, rfl, broken, caught⟩⟩ := ends
        · exact .inl ⟨value, rfl, answer, u, rfl, returned⟩
        · exact .inr ⟨q, _ :: u₁, u₂, rfl, ⟨answer, u₁, rfl, broken⟩, caught⟩
      · intro ends
        obtain ⟨value, rfl, answer, u, rfl, returned⟩ | ⟨q, t₁, t₂, rfl, ⟨answer, u, rfl, broken⟩, caught⟩ := ends
        · exact ⟨answer, u, rfl, .inl ⟨value, rfl, returned⟩⟩
        · exact ⟨answer, u ++ t₂, rfl, .inr ⟨q, u, t₂, rfl, broken, caught⟩⟩

theorem bind_done (p : Program F α) : p.bind .done = p := by
  induction p with
  | done value => rfl
  | panic q => rfl
  | perform effect next ih => exact congrArg (perform effect) (funext ih)

theorem of_reply_eq (reply : Reply α) : (ofReply reply : Program F _) = ofOutcome reply.outcome := by
  cases reply <;> rfl

theorem ends_of_outcome {result outcome : Except Panic α} {t : Transcript F} :
    Ends (ofOutcome result) t outcome ↔ t = [] ∧ outcome = result := by
  cases result with
  | ok value => exact ends_done
  | error p => exact ends_panic

theorem ends_ask (effect : Effect F) {next : effect.Answer → Program F α}
    (result : effect.Answer → Except Panic α) (leaf : ∀ answer, next answer = ofOutcome (result answer))
    {t : Transcript F} {outcome : Except Panic α} :
    Ends (.perform effect next) t outcome ↔
      ∃ answer, t = [⟨effect, answer⟩] ∧ outcome = result answer := by
  simp only [ends_perform, leaf, ends_of_outcome]
  constructor
  · intro ends
    obtain ⟨answer, _, rfl, rfl, rfl⟩ := ends
    exact ⟨answer, rfl, rfl⟩
  · intro ends
    obtain ⟨answer, rfl, rfl⟩ := ends
    exact ⟨answer, [], rfl, rfl, rfl⟩

theorem ends_note_bind {record : TraceRecord} {f : Unit → Program F β} {t : Transcript F}
    {outcome : Except Panic β} :
    Ends ((note record).bind f) t outcome ↔ ∃ u, t = ⟨.note record, ()⟩ :: u ∧ Ends (f ()) u outcome :=
  ends_perform.trans ⟨fun ⟨_, u, same, rest⟩ => ⟨u, same, rest⟩, fun ⟨u, same, rest⟩ => ⟨(), u, same, rest⟩⟩

theorem ends_count_bind {m : Measurement} {f : Unit → Program F β} {t : Transcript F}
    {outcome : Except Panic β} :
    Ends ((count m).bind f) t outcome ↔ ∃ u, t = ⟨.count m, ()⟩ :: u ∧ Ends (f ()) u outcome :=
  ends_perform.trans ⟨fun ⟨_, u, same, rest⟩ => ⟨u, same, rest⟩, fun ⟨u, same, rest⟩ => ⟨(), u, same, rest⟩⟩

theorem ends_note {record : TraceRecord} {t : Transcript F} {outcome : Except Panic Unit} :
    Ends (note record) t outcome ↔ t = [⟨.note record, ()⟩] ∧ outcome = .ok () :=
  (ends_ask (.note record) (fun _ => .ok ()) fun _ => rfl).trans
    ⟨fun ⟨_, same, ok⟩ => ⟨same, ok⟩, fun ⟨same, ok⟩ => ⟨(), same, ok⟩⟩

theorem ends_publish {broker : BrokerId} {queue : String} {message : Message} {t : Transcript F}
    {outcome : Except Panic (Except EventError Unit)} :
    Ends (publish broker queue message) t outcome ↔
      ∃ reply : Reply Unit, t = [⟨.publish broker queue message, reply⟩] ∧ outcome = reply.outcome :=
  ends_ask (.publish broker queue message) Reply.outcome of_reply_eq

theorem ends_settle {broker : BrokerId} {settlement : Settlement} {t : Transcript F}
    {outcome : Except Panic (Except EventError Unit)} :
    Ends (settle broker settlement) t outcome ↔
      ∃ reply : Reply Unit, t = [⟨.settle broker settlement, reply⟩] ∧ outcome = reply.outcome :=
  ends_ask (.settle broker settlement) Reply.outcome of_reply_eq

-- The answers determine a run: it ends as soon as it can.
theorem ends_unique {p : Program F α} {t u x y : Transcript F} {outcome other : Except Panic α}
    (first : Ends p t outcome) (second : Ends p u other) (same : t ++ x = u ++ y) :
    t = u ∧ outcome = other := by
  induction p generalizing t u with
  | done value =>
      obtain ⟨rfl, rfl⟩ := ends_done.mp first
      obtain ⟨rfl, rfl⟩ := ends_done.mp second
      exact ⟨rfl, rfl⟩
  | panic q =>
      obtain ⟨rfl, rfl⟩ := ends_panic.mp first
      obtain ⟨rfl, rfl⟩ := ends_panic.mp second
      exact ⟨rfl, rfl⟩
  | perform effect next ih =>
      obtain ⟨answer, t, rfl, later⟩ := ends_perform.mp first
      obtain ⟨answer₂, u, rfl, later₂⟩ := ends_perform.mp second
      obtain ⟨head, tail⟩ := List.cons_eq_cons.mp same
      cases head
      obtain ⟨rfl, ending⟩ := ih answer later later₂ tail
      exact ⟨rfl, ending⟩

-- Every effect that the program may come to is of the kind.
def Only (allowed : Effect F → Prop) : Program F α → Prop
  | .done _ => True
  | .panic _ => True
  | .perform effect next => allowed effect ∧ ∀ answer, (next answer).Only allowed

section Only

variable {allowed : Effect F → Prop}

theorem only_bind {p : Program F α} {f : α → Program F β} (first : p.Only allowed)
    (second : ∀ value, (f value).Only allowed) : (p.bind f).Only allowed := by
  induction p with
  | done value => exact second value
  | panic q => trivial
  | perform effect next ih => exact ⟨first.1, fun answer => ih answer (first.2 answer)⟩

theorem only_catch_panic {p : Program F α} {handler : Panic → Program F α} (body : p.Only allowed)
    (caught : ∀ q, (handler q).Only allowed) : (p.catchPanic handler).Only allowed := by
  induction p with
  | done value => trivial
  | panic q => exact caught q
  | perform effect next ih => exact ⟨body.1, fun answer => ih answer (body.2 answer)⟩

theorem only_of_reply (reply : Reply α) : (ofReply reply : Program F _).Only allowed := by
  cases reply <;> trivial

theorem leads_only {p q : Program F α} {t : Transcript F} (confined : p.Only allowed)
    (reached : Leads p t q) : ∀ x ∈ t, allowed x.effect := by
  induction reached with
  | here _ => simp
  | answered _ ih =>
      intro x member
      rcases List.mem_cons.mp member with same | later
      · exact same ▸ confined.1
      · exact ih (confined.2 _) x later

theorem only_after {p q : Program F α} {t : Transcript F} (confined : p.Only allowed)
    (reached : Leads p t q) : q.Only allowed := by
  induction reached with
  | here _ => exact confined
  | answered _ ih => exact ih (confined.2 _)

end Only

end Program

-- How the surroundings of a program answer, given all that was asked and answered before.
abbrev Surroundings (F : EventFamily) := Transcript F → (effect : Effect F) → effect.Answer

namespace Program

def play (s : Surroundings F) : Transcript F → Program F α → Transcript F × Except Panic α
  | _, .done value => ([], .ok value)
  | _, .panic p => ([], .error p)
  | past, .perform effect next =>
      let x : Exchange F := ⟨effect, s past effect⟩
      let rest := play s (past ++ [x]) (next x.answer)
      (x :: rest.1, rest.2)

theorem ends_play (s : Surroundings F) (past : Transcript F) (p : Program F α) :
    Ends p (play s past p).1 (play s past p).2 := by
  induction p generalizing past with
  | done value => exact .here _
  | panic q => exact .here _
  | perform effect next ih => exact .answered (ih _ _)

theorem answer_of_mem_play (s : Surroundings F) (past : Transcript F) (p : Program F α)
    {x : Exchange F} (member : x ∈ (play s past p).1) : ∃ before effect, x = ⟨effect, s before effect⟩ := by
  induction p generalizing past with
  | done value => simp [play] at member
  | panic q => simp [play] at member
  | perform effect next ih =>
      rcases List.mem_cons.mp member with same | later
      · exact ⟨past, effect, same⟩
      · exact ih _ _ later

section Bind

variable {s : Surroundings F} {past t : Transcript F} {p : Program F α}

-- The second program is played in view of what the first one asked.
theorem play_bind {value : α} (ran : play s past p = (t, .ok value)) (f : α → Program F β) :
    play s past (p.bind f) = (t ++ (play s (past ++ t) (f value)).1, (play s (past ++ t) (f value)).2) := by
  induction p generalizing past t with
  | done other =>
      cases ran
      simp [bind]
  | panic q => cases ran
  | perform effect next ih =>
      obtain ⟨rfl, returned⟩ := Prod.mk.inj ran
      rw [bind, play, ih _ (Prod.ext rfl returned)]
      simp

theorem play_bind_broken {q : Panic} (ran : play s past p = (t, .error q)) (f : α → Program F β) :
    play s past (p.bind f) = (t, .error q) := by
  induction p generalizing past t with
  | done other => cases ran
  | panic r =>
      cases ran
      rfl
  | perform effect next ih =>
      obtain ⟨rfl, broken⟩ := Prod.mk.inj ran
      rw [bind, play, ih _ (Prod.ext rfl broken)]

end Bind

end Program

end EventPipeline

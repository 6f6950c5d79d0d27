import EventPipeline.Events.Family
import EventPipeline.Proofs.Delays
import EventPipeline.Proofs.Inquiries

/-!
The retry stage. A handler that is tried over and over comes to a sequence of outcomes; the stage goes through
it up to the first outcome that is not worth another attempt, or the last attempt that the policy allows, and
waits in between. It counts the retries in 32 bits, which is enough.
-/

set_option autoImplicit false

namespace EventPipeline

open Program Transcript

variable {F : EventFamily}

def Exchange.sleep? : Exchange F → Option Duration
  | ⟨.sleep duration, _⟩ => some duration
  | _ => none

def Transcript.sleeps (t : Transcript F) : List Duration := t.filterMap Exchange.sleep?

-- The failure that makes the stage try again.
def Attempt.failure? (a : Attempt F) : Option EventError :=
  match a.outcome with
  | .ok (.error e) => if e.isRetryable then some e else none
  | _ => none

theorem Attempt.failure_iff {a : Attempt F} {e : EventError} :
    a.failure? = some e ↔ a.outcome = .ok (.error e) ∧ e.isRetryable = true := by
  unfold failure?
  rcases a.outcome with q | other | outputs
  · simp
  · simp only [Option.ite_none_right_eq_some, Option.some.injEq, Except.ok.injEq, Except.error.injEq]
    constructor
    · rintro ⟨passing, rfl⟩
      exact ⟨rfl, passing⟩
    · rintro ⟨rfl, passing⟩
      exact ⟨passing, rfl⟩
  · simp

def retryRemark (policy : RetryPolicy) (name : String) (message : Message) (tried : Nat) (e : EventError) :
    TraceRecord :=
  .event .warn "Handler failed, retrying"
    [("handler", name), ("message_uuid", message.uuid), ("retry", decimalText (tried + 1)),
      ("max_retries", decimalText policy.maxRetries.toNat),
      ("delay_ms", decimalText ((policy.delay tried).wholeMillis % (largest64 + 1))), ("error", e.message)]

-- What the stage does with the result of an attempt, as long as more are left.
def retryOrReturn (policy : RetryPolicy) (name : String) (next : Handler F) (message : Message)
    (tried left : Nat) : Except EventError (List Message) → Program F (Except EventError (List Message))
  | .ok outputs => .done (.ok outputs)
  | .error e =>
      if e.isRetryable then
        (note (retryRemark policy name message tried e)).bind fun _ => (count (.retried name)).bind fun _ =>
          (sleep (policy.delay tried)).bind fun _ => attempt policy name next message (tried + 1) left
      else .done (.error e)

theorem attempt_succ (policy : RetryPolicy) (name : String) (next : Handler F) (message : Message)
    (tried left : Nat) :
    attempt policy name next message tried (left + 1) =
      (next message).bind (retryOrReturn policy name next message tried left) := by
  refine congrArg (next message).bind (funext fun result => ?_)
  cases result <;> rfl

-- The stage with a counter of 32 bits. It breaks down where the counter would run over.
def countedRetry (policy : RetryPolicy) (name : String) (next : Handler F) (message : Message)
    (counter : UInt32) : Program F (Except EventError (List Message)) :=
  (next message).bind fun
    | .ok outputs => .done (.ok outputs)
    | .error e =>
        if _final : e.isRetryable = false ∨ policy.maxRetries ≤ counter then .done (.error e)
        else
          match _counted : Word.plus32 counter 1 with
          | none => .panic (.text "attempt to add with overflow")
          | some retry =>
              (note (retryRemark policy name message counter.toNat e)).bind fun _ =>
                (count (.retried name)).bind fun _ => (sleep (policy.delay counter.toNat)).bind fun _ =>
                  countedRetry policy name next message retry
termination_by policy.maxRetries.toNat - counter.toNat
decreasing_by
  have more : counter.toNat < policy.maxRetries.toNat :=
    UInt32.lt_iff_toNat_lt.mp (UInt32.not_le.mp fun least => _final (.inr least))
  have next : retry.toNat = counter.toNat + 1 := Word.plus32_exact _counted
  omega

theorem counted_retry_exact {policy : RetryPolicy} {name : String} {next : Handler F} {message : Message}
    {counter : UInt32} {left : Nat} (rest : policy.maxRetries.toNat - counter.toNat = left) :
    countedRetry policy name next message counter = attempt policy name next message counter.toNat left := by
  induction left generalizing counter with
  | zero =>
      have final : policy.maxRetries ≤ counter := UInt32.le_iff_toNat_le.mpr (Nat.le_of_sub_eq_zero rest)
      rw [countedRetry]
      refine Eq.trans (congrArg _ (funext fun result => ?_)) (bind_done _)
      cases result with
      | ok outputs => rfl
      | error e => exact dif_pos (.inr final)
  | succ left ih =>
      have more : counter.toNat < policy.maxRetries.toNat := by omega
      have few := policy.maxRetries.toNat_lt
      rw [countedRetry, attempt_succ]
      refine congrArg _ (funext fun result => ?_)
      cases result with
      | ok outputs => rfl
      | error e =>
          by_cases passing : e.isRetryable = true
          · have goes : ¬ (e.isRetryable = false ∨ policy.maxRetries ≤ counter) := by
              rintro (hopeless | least)
              · exact Bool.false_ne_true (hopeless.symm.trans passing)
              · exact Nat.not_le_of_lt more (UInt32.le_iff_toNat_le.mp least)
            have fits : counter.toNat + 1 ≤ largest32 := by unfold largest32; omega
            have counted : Word.plus32 counter 1 = some (.ofNat (counter.toNat + 1)) := Word.fit32_fits fits
            rw [retryOrReturn, if_pos passing]
            refine (dif_neg goes).trans ?_
            split
            · next beyond => cases counted.symm.trans beyond
            · next retry same =>
                have next : retry.toNat = counter.toNat + 1 := Word.plus32_exact same
                rw [ih (by omega), next]
          · rw [retryOrReturn, if_neg passing]
            exact dif_pos (.inl (Bool.eq_false_iff.mpr passing))

-- Nothing is answered during a pause.
theorem play_pause {α : Type} (s : Surroundings F) (past : Transcript F) (policy : RetryPolicy) (name : String)
    (tried : Nat) (record : TraceRecord) (p : Program F α) :
    play s past ((note record).bind fun _ => (count (.retried name)).bind fun _ =>
      (sleep (policy.delay tried)).bind fun _ => p) =
      (retryPause policy name tried record ++ (play s (past ++ retryPause policy name tried record) p).1,
        (play s (past ++ retryPause policy name tried record) p).2) := by
  have split : past ++ retryPause policy name tried record = past ++ [⟨.note record, ()⟩] ++
      [⟨.count (.retried name), ()⟩] ++ [⟨.sleep (policy.delay tried), ()⟩] := by simp [retryPause]
  rw [split]
  rfl

-- A message at the retry stage, with all that decides what becomes of it: the handler inside, the
-- surroundings that answer, and what they were asked before.
structure Retrying (F : EventFamily) where
  policy : RetryPolicy
  name : String
  next : Handler F
  message : Message
  surroundings : Surroundings F
  past : Transcript F

namespace Retrying

variable (r : Retrying F)

def attemptAfter (earlier : Transcript F) : Attempt F :=
  ⟨(play r.surroundings earlier (r.next r.message)).1, (play r.surroundings earlier (r.next r.message)).2⟩

def pauseAfter (k : Nat) (a : Attempt F) : Transcript F :=
  match a.failure? with
  | none => []
  | some e => retryPause r.policy r.name k (retryRemark r.policy r.name r.message k e)

-- All that was asked before attempt number `k`, if the stage comes that far.
def before : Nat → Transcript F
  | 0 => r.past
  | k + 1 =>
      let a := r.attemptAfter (before k)
      before k ++ (a.transcript ++ r.pauseAfter k a)

def attempt (k : Nat) : Attempt F := r.attemptAfter (r.before k)

def pause (k : Nat) : Transcript F := r.pauseAfter k (r.attempt k)

-- The attempts up to number `n`, with the pauses between them.
def tape (n : Nat) : Transcript F :=
  (List.range n).flatMap (fun k => (r.attempt k).transcript ++ r.pause k) ++ (r.attempt n).transcript

variable {k : Nat}

theorem before_succ (k : Nat) : r.before (k + 1) = r.before k ++ ((r.attempt k).transcript ++ r.pause k) := rfl

theorem attempt_ran (k : Nat) : play r.surroundings (r.before k) (r.next r.message) =
    ((r.attempt k).transcript, (r.attempt k).outcome) := rfl

theorem stops (final : (r.attempt k).failure? = none) (left : Nat) :
    play r.surroundings (r.before k) (EventPipeline.attempt r.policy r.name r.next r.message k left) =
      ((r.attempt k).transcript, (r.attempt k).outcome) := by
  cases left with
  | zero => rfl
  | succ left =>
      have ran := r.attempt_ran k
      rw [attempt_succ]
      rcases outcome : (r.attempt k).outcome with q | e | outputs
      · rw [outcome] at ran
        exact play_bind_broken ran _
      · have hopeless : ¬ e.isRetryable = true := fun passing =>
          nomatch final.symm.trans (Attempt.failure_iff.mpr ⟨outcome, passing⟩)
        rw [outcome] at ran
        rw [play_bind ran, retryOrReturn, if_neg hopeless, play, List.append_nil]
      · rw [outcome] at ran
        rw [play_bind ran, retryOrReturn, play, List.append_nil]

theorem goes_on {e : EventError} (failed : (r.attempt k).failure? = some e) (left : Nat) :
    play r.surroundings (r.before k) (EventPipeline.attempt r.policy r.name r.next r.message k (left + 1)) =
      let rest := play r.surroundings (r.before (k + 1))
        (EventPipeline.attempt r.policy r.name r.next r.message (k + 1) left)
      ((r.attempt k).transcript ++ r.pause k ++ rest.1, rest.2) := by
  obtain ⟨returned, passing⟩ := Attempt.failure_iff.mp failed
  have paused : r.pause k = retryPause r.policy r.name k (retryRemark r.policy r.name r.message k e) := by
    rw [pause, pauseAfter, failed]
  have ran := r.attempt_ran k
  rw [returned] at ran
  rw [attempt_succ, play_bind ran, retryOrReturn, if_pos passing, play_pause, before_succ, paused]
  simp only [List.append_assoc]

-- Induction on the attempts left: the stage goes from one attempt to the next as long as it may.
theorem plays (k left : Nat) :
    ∃ n ≤ left, (∀ i < n, (r.attempt (k + i)).failure?.isSome) ∧
      (n = left ∨ (r.attempt (k + n)).failure? = none) ∧
      play r.surroundings (r.before k) (EventPipeline.attempt r.policy r.name r.next r.message k left) =
        ((List.range n).flatMap (fun i => (r.attempt (k + i)).transcript ++ r.pause (k + i)) ++
          (r.attempt (k + n)).transcript, (r.attempt (k + n)).outcome) := by
  induction left generalizing k with
  | zero => exact ⟨0, Nat.le_refl 0, nofun, .inl rfl, rfl⟩
  | succ left ih =>
      cases failed : (r.attempt k).failure? with
      | none => exact ⟨0, Nat.zero_le _, nofun, .inr failed, r.stops failed _⟩
      | some e =>
          obtain ⟨n, within, passing, last, run⟩ := ih (k + 1)
          have shift : ∀ i, k + 1 + i = k + (i + 1) := fun i => by omega
          simp only [shift] at passing last run
          refine ⟨n + 1, Nat.succ_le_succ within, ?_, last.imp_left (congrArg Nat.succ), ?_⟩
          · intro i below
            cases i with
            | zero => exact Option.isSome_iff_exists.mpr ⟨e, failed⟩
            | succ i => exact passing i (Nat.lt_of_succ_lt_succ below)
          · rw [r.goes_on failed, run, List.range_succ_eq_map, List.flatMap_cons, List.flatMap_map]
            simp only [List.append_assoc]
            rfl

-- What looks at no pause sees the attempts alone.
theorem tape_seen {β : Type} {look : Exchange F → Option β} (blind : ∀ k, (r.pause k).filterMap look = [])
    (n : Nat) : (r.tape n).filterMap look =
      (List.range (n + 1)).flatMap fun k => (r.attempt k).transcript.filterMap look := by
  rw [tape, List.range_succ, List.flatMap_append, List.flatMap_singleton, List.filterMap_append,
    List.filterMap_flatMap]
  simp only [List.filterMap_append, blind, List.append_nil]

theorem pause_calls (k : Nat) : calls (r.pause k) = [] := by
  unfold pause pauseAfter
  cases (r.attempt k).failure? <;> rfl

theorem pause_sleeps (failed : (r.attempt k).failure?.isSome) : sleeps (r.pause k) = [r.policy.delay k] := by
  obtain ⟨e, some⟩ := Option.isSome_iff_exists.mp failed
  rw [pause, pauseAfter, some]
  rfl

theorem pauses_sleep {n : Nat} (failed : ∀ k < n, (r.attempt k).failure?.isSome) :
    (List.range n).flatMap (fun k => sleeps (r.pause k)) = (List.range n).map r.policy.delay := by
  have each : ∀ k ∈ List.range n, sleeps (r.pause k) = [r.policy.delay k] :=
    fun k member => r.pause_sleeps (failed k (List.mem_range.mp member))
  rw [List.flatMap_def, List.map_congr_left each, ← List.flatMap_def, ← List.map_eq_flatMap]

section Raw

variable {id : HandlerId}

theorem raw_attempt (raw : r.next = Handler.raw id) (k : Nat) :
    r.attempt k = ⟨[⟨.callRaw id r.message, r.surroundings (r.before k) (.callRaw id r.message)⟩],
      (r.surroundings (r.before k) (.callRaw id r.message)).outcome⟩ := by
  unfold attempt attemptAfter
  rw [raw]
  generalize r.before k = earlier
  change Attempt.mk (_ :: (play _ _ (ofReply (r.surroundings earlier (.callRaw id r.message)))).1)
    (play _ _ (ofReply (r.surroundings earlier (.callRaw id r.message)))).2 = _
  cases r.surroundings earlier (.callRaw id r.message) <;> rfl

theorem raw_calls (raw : r.next = Handler.raw id) (n : Nat) :
    calls (r.tape n) = List.replicate (n + 1) (.callRaw id r.message) := by
  have each : (fun k => calls (r.attempt k).transcript) = fun _ => [.callRaw id r.message] :=
    funext fun k => congrArg (fun a => calls a.transcript) (r.raw_attempt raw k)
  calc calls (r.tape n)
    _ = (List.range (n + 1)).flatMap fun k => calls (r.attempt k).transcript := r.tape_seen r.pause_calls n
    _ = (List.range (n + 1)).map fun _ => .callRaw id r.message := by rw [each, List.map_eq_flatMap]
    _ = List.replicate (n + 1) (.callRaw id r.message) := by rw [List.map_const', List.length_range]

theorem raw_sleeps (raw : r.next = Handler.raw id) {n : Nat}
    (failed : ∀ k < n, (r.attempt k).failure?.isSome) :
    sleeps (r.tape n) = (List.range n).map r.policy.delay := by
  have awake : ∀ k, (r.attempt k).transcript.filterMap Exchange.sleep? = [] := by
    intro k
    rw [r.raw_attempt raw k]
    rfl
  rw [← r.pauses_sleep failed, sleeps, tape, List.filterMap_append, List.filterMap_flatMap, awake,
    List.append_nil]
  simp only [List.filterMap_append, awake, List.nil_append]
  rfl

-- A handler that goes through a list of replies comes to these outcomes.
theorem raw_outcomes (raw : r.next = Handler.raw id) {replies : Nat → Reply (List Message)}
    (script : ∀ earlier, r.surroundings (r.past ++ earlier) (.callRaw id r.message) =
      replies (calls earlier).length) (k : Nat) :
    (r.attempt k).outcome = (replies k).outcome := by
  have reached : ∃ earlier, r.before k = r.past ++ earlier ∧ (calls earlier).length = k := by
    induction k with
    | zero => exact ⟨[], (List.append_nil _).symm, rfl⟩
    | succ k ih =>
        obtain ⟨earlier, split, tried⟩ := ih
        refine ⟨earlier ++ ((r.attempt k).transcript ++ r.pause k), ?_, ?_⟩
        · rw [before_succ, split, List.append_assoc]
        · rw [calls_append, calls_append, pause_calls, r.raw_attempt raw k, List.length_append, tried]
          rfl
  obtain ⟨earlier, split, tried⟩ := reached
  rw [r.raw_attempt raw k]
  dsimp only
  rw [split, script, tried]

end Raw

end Retrying

-- The attempts are those of the handler inside, each from the message that came in; which of them is the last
-- one, what happens between them and what the stage returns.
theorem retry_goes_through_its_attempts (policy : RetryPolicy) (name : String) (next : Handler F)
    (message : Message) (s : Surroundings F) (past : Transcript F) :
    let r : Retrying F := ⟨policy, name, next, message, s, past⟩
    retryWith policy name next message = countedRetry policy name next message 0 ∧
    ∃ n ≤ policy.maxRetries.toNat,
      (∀ k < n, ∃ e, (r.attempt k).outcome = .ok (.error e) ∧ e.isRetryable = true) ∧
      (n = policy.maxRetries.toNat ∨ ∀ e, (r.attempt n).outcome = .ok (.error e) → e.isRetryable = false) ∧
      play s past (retryWith policy name next message) = (r.tape n, (r.attempt n).outcome) ∧
      (List.range n).flatMap (fun k => sleeps (r.pause k)) = (List.range n).map policy.delay ∧
      ∀ id, next = Handler.raw id →
        calls (r.tape n) = List.replicate (n + 1) (.callRaw id message) ∧
        sleeps (r.tape n) = (List.range n).map policy.delay ∧
        ∀ replies : Nat → Reply (List Message),
          (∀ earlier, s (past ++ earlier) (.callRaw id message) = replies (calls earlier).length) →
          ∀ k, (r.attempt k).outcome = (replies k).outcome := by
  intro r
  have none_yet : policy.maxRetries.toNat - (0 : UInt32).toNat = policy.maxRetries.toNat := Nat.sub_zero _
  refine ⟨(counted_retry_exact none_yet).symm, ?_⟩
  obtain ⟨n, within, failed, last, run⟩ := r.plays 0 policy.maxRetries.toNat
  simp only [Nat.zero_add] at failed last run
  refine ⟨n, within, fun k below => ?_, last.imp_right fun final e same => ?_, run, r.pauses_sleep failed,
    fun id raw => ⟨r.raw_calls raw n, r.raw_sleeps raw failed, fun replies script => r.raw_outcomes raw script⟩⟩
  · obtain ⟨e, some⟩ := Option.isSome_iff_exists.mp (failed k below)
    exact ⟨e, Attempt.failure_iff.mp some⟩
  · by_contra passing
    have some := Attempt.failure_iff.mpr ⟨same, Bool.eq_true_of_not_eq_false passing⟩
    exact nomatch final.symm.trans some

def Surroundings.scripted (replies : Nat → Reply (List Message)) : Surroundings F
  | past, .callRaw .. => replies (calls past).length
  | past, effect => Surroundings.obliging past effect

-- Two failures that may pass, then a success.
def flakyReplies : Nat → Reply (List Message)
  | 0 => .error (.outbox "busy")
  | 1 => .error .notInitialized
  | _ => .ok []

theorem flaky_handler_is_called_three_times :
    let message : Message := ⟨"a", [], .empty⟩
    let policy : RetryPolicy := ⟨4294967295, .exponential (.ofMillis 100) (.ofMillis 500)⟩
    let run := play (.scripted flakyReplies) [] (retryWith policy "flaky" (Handler.raw 0) message :
      Program Events.family _)
    run.2 = .ok (.ok []) ∧ calls run.1 = List.replicate 3 (.callRaw 0 message) ∧
      sleeps run.1 = [.ofMillis 100, .ofMillis 200] := by
  intro message policy run
  obtain ⟨-, n, within, failed, last, ran, -, raw⟩ := retry_goes_through_its_attempts policy "flaky"
    (Handler.raw 0 : Handler Events.family) message (.scripted flakyReplies) []
  obtain ⟨called, waited, outcomes⟩ := raw 0 rfl
  have each := outcomes flakyReplies fun earlier => rfl
  have three : n = 2 := by
    by_contra other
    rcases Nat.lt_or_gt_of_ne other with few | many
    · have final := last.resolve_left fun most => by
        have much : policy.maxRetries.toNat = 4294967295 := rfl
        omega
      have low : n = 0 ∨ n = 1 := by omega
      rcases low with rfl | rfl
      · exact absurd (final _ (each 0)) (by decide)
      · exact absurd (final _ (each 1)) (by decide)
    · obtain ⟨e, same, -⟩ := failed 2 many
      cases (each 2).symm.trans same
  subst three
  have whole : run = (_, _) := ran
  rw [whole]
  refine ⟨?_, called, waited⟩
  dsimp only
  rw [each 2]
  rfl

end EventPipeline

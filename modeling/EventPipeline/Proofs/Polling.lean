import EventPipeline.Broker.Timeline

/-!
Observers that look at a broker every few milliseconds. Time may pass in any portions, so looking changes
nothing of what happens. A wait ends at the first look that sees enough or comes too late; it is the distance
to the deadline that makes it end at all.
-/

set_option autoImplicit false

namespace EventPipeline

namespace Timeline

def inOrder (plans : List Plan) : List Plan := plans.mergeSort fun a b => a.time ≤ b.time

def due (plans : List Plan) (moment : Nat) : List Plan := plans.filter fun plan => plan.time ≤ moment

def ahead (plans : List Plan) (moment : Nat) : List Plan := plans.filter fun plan => moment < plan.time

def happen (broker : Broker) (plans : List Plan) : Broker :=
  plans.foldl (fun broker plan => occur broker plan.occurrence) broker

theorem wait_eq (line : Timeline) (millis : Nat) :
    line.wait millis =
      ⟨line.clock + millis, happen line.broker (inOrder (due line.plans (line.clock + millis))),
        ahead line.plans (line.clock + millis)⟩ := by
  have late : (not ∘ fun plan : Plan => decide (plan.time ≤ line.clock + millis)) =
      fun plan => decide (line.clock + millis < plan.time) := by
    funext plan
    rw [Function.comp_apply, ← decide_not]
    exact decide_eq_decide.mpr Nat.not_le
  simp only [wait, List.partition_eq_filter_filter, late]
  rfl

-- Sorting puts a plan behind the earlier ones of those after it, and before all others.
theorem in_order_cons (plan : Plan) (plans : List Plan) :
    inOrder (plan :: plans) =
      (inOrder plans).filter (fun other => other.time < plan.time) ++
        plan :: (inOrder plans).filter fun other => plan.time ≤ other.time := by
  have trans : ∀ a b c : Plan, decide (a.time ≤ b.time) = true → decide (b.time ≤ c.time) = true →
      decide (a.time ≤ c.time) = true := by
    simp only [decide_eq_true_eq]
    intro a b c
    exact Nat.le_trans
  have total : ∀ a b : Plan, (decide (a.time ≤ b.time) || decide (b.time ≤ a.time)) = true := by
    simp only [Bool.or_eq_true, decide_eq_true_eq]
    intro a b
    exact Nat.le_total _ _
  obtain ⟨front, back, whole, rest, before⟩ := List.mergeSort_cons trans total plan plans
  have sorted := List.pairwise_mergeSort trans total (plan :: plans)
  rw [whole] at sorted
  have after := (List.pairwise_cons.mp (List.pairwise_append.mp sorted).2.1).1
  simp only [Bool.not_eq_true', decide_eq_false_iff_not, Nat.not_le] at before
  simp only [decide_eq_true_eq] at after
  unfold inOrder
  rw [whole, rest, List.filter_append, List.filter_append]
  have first : front.filter (fun other => decide (other.time < plan.time)) = front :=
    List.filter_eq_self.mpr fun other member => decide_eq_true (before other member)
  have none : back.filter (fun other => decide (other.time < plan.time)) = [] :=
    List.filter_eq_nil_iff.mpr fun other member => by simpa using after other member
  have none₂ : front.filter (fun other => decide (plan.time ≤ other.time)) = [] :=
    List.filter_eq_nil_iff.mpr fun other member => by simpa using before other member
  have last : back.filter (fun other => decide (plan.time ≤ other.time)) = back :=
    List.filter_eq_self.mpr fun other member => decide_eq_true (after other member)
  rw [first, none, none₂, last, List.append_nil, List.nil_append]

theorem mem_in_order {plan : Plan} {plans : List Plan} : plan ∈ inOrder plans ↔ plan ∈ plans :=
  List.mem_mergeSort

-- Induction on the plans: what is due by a moment comes, in order, before what is not.
theorem in_order_cut (plans : List Plan) (moment : Nat) :
    inOrder plans = inOrder (due plans moment) ++ inOrder (ahead plans moment) := by
  induction plans with
  | nil => simp [inOrder, due, ahead]
  | cons plan plans ih =>
      have early : ∀ other ∈ inOrder (due plans moment), other.time ≤ moment := fun other member => by
        simpa [due] using (List.mem_filter.mp (mem_in_order.mp member)).2
      have late : ∀ other ∈ inOrder (ahead plans moment), moment < other.time := fun other member => by
        simpa [ahead] using (List.mem_filter.mp (mem_in_order.mp member)).2
      rw [in_order_cons, ih, List.filter_append, List.filter_append]
      by_cases now : plan.time ≤ moment
      · have here : due (plan :: plans) moment = plan :: due plans moment := List.filter_cons_of_pos (by simpa)
        have there : ahead (plan :: plans) moment = ahead plans moment :=
          List.filter_cons_of_neg (by simpa using now)
        have none : (inOrder (ahead plans moment)).filter (fun other => decide (other.time < plan.time)) = [] :=
          List.filter_eq_nil_iff.mpr fun other member => by
            simpa using Nat.le_of_lt (Nat.lt_of_le_of_lt now (late other member))
        have all : (inOrder (ahead plans moment)).filter (fun other => decide (plan.time ≤ other.time)) =
            inOrder (ahead plans moment) :=
          List.filter_eq_self.mpr fun other member =>
            decide_eq_true (Nat.le_of_lt (Nat.lt_of_le_of_lt now (late other member)))
        rw [here, there, in_order_cons, none, all, List.append_nil, List.append_assoc, List.cons_append]
      · have here : due (plan :: plans) moment = due plans moment :=
          List.filter_cons_of_neg (by simpa using now)
        have there : ahead (plan :: plans) moment = plan :: ahead plans moment :=
          List.filter_cons_of_pos (by simpa using now)
        have all : (inOrder (due plans moment)).filter (fun other => decide (other.time < plan.time)) =
            inOrder (due plans moment) :=
          List.filter_eq_self.mpr fun other member =>
            decide_eq_true (Nat.lt_of_le_of_lt (early other member) (Nat.not_le.mp now))
        have none : (inOrder (due plans moment)).filter (fun other => decide (plan.time ≤ other.time)) = [] :=
          List.filter_eq_nil_iff.mpr fun other member => by
            simpa using Nat.lt_of_le_of_lt (early other member) (Nat.not_le.mp now)
        rw [here, there, in_order_cons, none, all, List.nil_append, List.append_assoc]

theorem wait_add (line : Timeline) (a b : Nat) : (line.wait a).wait b = line.wait (a + b) := by
  have sooner : due (ahead line.plans (line.clock + a)) (line.clock + (a + b)) =
      ahead (due line.plans (line.clock + (a + b))) (line.clock + a) := by
    unfold due ahead
    rw [List.filter_filter, List.filter_filter]
    exact List.filter_congr fun plan _ => Bool.and_comm _ _
  have cut := in_order_cut (due line.plans (line.clock + (a + b))) (line.clock + a)
  have before : due (due line.plans (line.clock + (a + b))) (line.clock + a) =
      due line.plans (line.clock + a) := by
    unfold due
    rw [List.filter_filter]
    apply List.filter_congr
    intro plan _
    simp only [Bool.and_eq_left_iff_imp, decide_eq_true_eq]
    omega
  have behind : ahead (ahead line.plans (line.clock + a)) (line.clock + (a + b)) =
      ahead line.plans (line.clock + (a + b)) := by
    unfold ahead
    rw [List.filter_filter]
    apply List.filter_congr
    intro plan _
    simp only [Bool.and_eq_left_iff_imp, decide_eq_true_eq]
    omega
  rw [before] at cut
  rw [wait_eq, wait_eq, wait_eq, Nat.add_assoc, behind, sooner, cut, happen, happen, happen, List.foldl_append]

-- The moment that is now is the one before anything that is due happens.
def after (line : Timeline) (millis : Nat) : Timeline := if millis = 0 then line else line.wait millis

theorem after_clock (line : Timeline) (millis : Nat) : (line.after millis).clock = line.clock + millis := by
  unfold after
  split
  · next none => rw [none, Nat.add_zero]
  · rfl

theorem after_add (line : Timeline) (a b : Nat) : (line.after a).after b = line.after (a + b) := by
  by_cases none : a = 0
  · rw [none, Nat.zero_add]
    rfl
  · by_cases more : b = 0
    · rw [more, Nat.add_zero]
      rfl
    · unfold after
      rw [if_neg none, if_neg more, if_neg (by omega), wait_add]

-- The first look, one every `pause`, that sees enough or is not before the deadline.
structure FirstLook (line : Timeline) (enough : Broker → Bool) (deadline k : Nat) : Prop where
  ends : enough (line.after (k * pause)).broker = true ∨ deadline ≤ (line.after (k * pause)).now
  earlier : ∀ j < k, enough (line.after (j * pause)).broker = false ∧
    (line.after (j * pause)).now < deadline

theorem poll_until_first (enough : Broker → Bool) (deadline : Nat) (line : Timeline) :
    ∃ k, line.FirstLook enough deadline k ∧ pollUntil enough deadline line = line.after (k * pause) := by
  fun_induction pollUntil enough deadline line with
  | case1 line ended =>
      rw [Bool.or_eq_true, decide_eq_true_eq] at ended
      exact ⟨0, ⟨ended, nofun⟩, rfl⟩
  | case2 line before ih =>
      rw [Bool.or_eq_true, decide_eq_true_eq, not_or, Bool.not_eq_true, Nat.not_le] at before
      obtain ⟨k, first, same⟩ := ih
      have step : ∀ j, (line.wait pause).after (j * pause) = line.after ((j + 1) * pause) := by
        intro j
        have once : line.wait pause = line.after pause := rfl
        rw [once, after_add, Nat.succ_mul, Nat.add_comm]
      refine ⟨k + 1, ⟨step k ▸ first.ends, fun j smaller => ?_⟩, same.trans (step k)⟩
      cases j with
      | zero => exact before
      | succ j => exact step j ▸ first.earlier j (Nat.lt_of_succ_lt_succ smaller)

theorem after_now (line : Timeline) (millis : Nat) : (line.after millis).now = line.now + millis * 1000000 := by
  rw [now, after_clock, Nat.add_mul]
  rfl

theorem next_look_now (line : Timeline) (k : Nat) :
    (line.after (5 * (k + 1))).now = (line.after (5 * k)).now + 5 * 1000000 := by
  rw [after_now, after_now]
  omega

-- What an observer who awaits a quantity finds, and when.
structure Awaited (line : Timeline) (quantity : Broker → Nat) (count : Nat) (timeout : Duration)
    (ended : Timeline) : Prop where
  look : ∃ k, ended = line.after (5 * k) ∧ ended.clock = line.clock + 5 * k ∧
    (count ≤ quantity ended.broker ∨ line.now + timeout.nanos ≤ ended.now) ∧
    ∀ j < k, quantity (line.after (5 * j)).broker < count ∧ (line.after (5 * j)).now < line.now + timeout.nanos
  prompt : ended.now < line.now + timeout.nanos + 5 * 1000000
  atOnce : count = 0 ∨ count ≤ quantity line.broker ∨ timeout = .zero → ended = line
  short : quantity ended.broker < count → line.now + timeout.nanos ≤ ended.now ∧
    ∀ j, line.clock + 5 * j ≤ ended.clock → quantity (line.after (5 * j)).broker < count

theorem wait_for_awaited (line : Timeline) (quantity : Broker → Nat) (count : Nat) (timeout : Duration) :
    line.Awaited quantity count timeout (line.waitFor (fun broker => count ≤ quantity broker) timeout) := by
  obtain ⟨k, ⟨ends, earlier⟩, same⟩ :=
    poll_until_first (fun broker => count ≤ quantity broker) (line.now + timeout.nanos) line
  have step : ∀ j, j * pause = 5 * j := fun j => Nat.mul_comm j 5
  simp only [step, decide_eq_true_eq, decide_eq_false_iff_not, Nat.not_le] at ends earlier same
  rw [waitFor, same]
  refine ⟨⟨k, rfl, after_clock _ _, ends, earlier⟩, ?_, fun reason => ?_, fun short => ?_⟩
  · cases k with
    | zero =>
        rw [after_now]
        omega
    | succ k =>
        rw [next_look_now]
        exact Nat.add_lt_add_right (earlier k (Nat.lt_succ_self k)).2 _
  · cases k with
    | zero => rfl
    | succ k =>
        obtain ⟨few, before⟩ := earlier 0 (Nat.succ_pos k)
        have here : line.after (5 * 0) = line := rfl
        rw [here] at few before
        rcases reason with none | reached | rfl
        · exact absurd few (by simp [none])
        · exact absurd few (Nat.not_lt.mpr reached)
        · have none : Duration.zero.nanos = 0 := rfl
          rw [none, Nat.add_zero] at before
          exact absurd before (Nat.lt_irrefl _)
  · refine ⟨ends.resolve_left (Nat.not_le.mpr short), fun j reached => ?_⟩
    rw [after_clock] at reached
    rcases Nat.lt_or_ge j k with sooner | later
    · exact (earlier j sooner).1
    · have last : j = k := by omega
      exact last ▸ short

theorem waits_end_at_the_first_look (line : Timeline) (count : Nat) (timeout : Duration) :
    (∀ topic,
      let result := line.awaitPublished topic count timeout
      result.1 = result.2.broker.published topic ∧
        line.Awaited (fun broker => (broker.published topic).length) count timeout result.2) ∧
    let result := line.awaitSettled count timeout
    result.1 = result.2.broker.acked + result.2.broker.nacked ∧
      line.Awaited (fun broker => broker.acked + broker.nacked) count timeout result.2 :=
  ⟨fun topic => ⟨rfl, wait_for_awaited line (fun broker => (broker.published topic).length) count timeout⟩, rfl,
    wait_for_awaited line Broker.settled count timeout⟩

end Timeline

end EventPipeline

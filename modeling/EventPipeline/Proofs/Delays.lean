import EventPipeline.Config
import Mathlib.Algebra.Order.Ring.Nat

/-!
Delays between retries. A machine keeps a span of time as whole seconds in 64 bits and nanoseconds in 32
bits, and works a delay out with operations of these widths. None of them runs over unnoticed: the result
is the exact product, cut off at the longest span and at the limit of the policy.
-/

set_option autoImplicit false

namespace EventPipeline

namespace Word

-- The word with the value `n`, if there is one.
def fit32 (n : Nat) : Option UInt32 := if n ≤ largest32 then some (.ofNat n) else none

def fit64 (n : Nat) : Option UInt64 := if n ≤ largest64 then some (.ofNat n) else none

def times32 (a b : UInt32) : Option UInt32 := fit32 (a.toNat * b.toNat)

def plus32 (a b : UInt32) : Option UInt32 := fit32 (a.toNat + b.toNat)

def times64 (a b : UInt64) : Option UInt64 := fit64 (a.toNat * b.toNat)

def plus64 (a b : UInt64) : Option UInt64 := fit64 (a.toNat + b.toNat)

-- Square and multiply, with `result` times `base ^ exponent` still to come.
def powerFrom (result base : UInt32) (exponent : Nat) : Option UInt32 :=
  if exponent ≤ 1 then times32 result base
  else
    (if exponent % 2 = 1 then times32 result base else some result).bind fun result =>
      (times32 base base).bind fun square => powerFrom result square (exponent / 2)
termination_by exponent
decreasing_by omega

def power (base : UInt32) (exponent : UInt32) : Option UInt32 :=
  if exponent = 0 then some 1 else powerFrom 1 base exponent.toNat

theorem fit32_fits {n : Nat} (fits : n ≤ largest32) : fit32 n = some (.ofNat n) := if_pos fits

theorem fit32_over {n : Nat} (beyond : largest32 < n) : fit32 n = none := if_neg (Nat.not_le_of_lt beyond)

theorem fit64_fits {n : Nat} (fits : n ≤ largest64) : fit64 n = some (.ofNat n) := if_pos fits

theorem fit64_over {n : Nat} (beyond : largest64 < n) : fit64 n = none := if_neg (Nat.not_le_of_lt beyond)

theorem value32 {n : Nat} (fits : n ≤ largest32) : (UInt32.ofNat n).toNat = n := by
  rw [UInt32.toNat_ofNat']
  exact Nat.mod_eq_of_lt (Nat.lt_succ_of_le fits)

theorem plus32_exact {a b c : UInt32} (sum : plus32 a b = some c) : c.toNat = a.toNat + b.toNat := by
  have fits : a.toNat + b.toNat ≤ largest32 := by
    by_contra beyond
    rw [plus32, fit32_over (Nat.lt_of_not_le beyond)] at sum
    cases sum
  rw [plus32, fit32_fits fits] at sum
  cases sum
  exact value32 fits

theorem value64 {n : Nat} (fits : n ≤ largest64) : (UInt64.ofNat n).toNat = n := by
  rw [UInt64.toNat_ofNat']
  exact Nat.mod_eq_of_lt (Nat.lt_succ_of_le fits)

-- A factor that does not fit makes the product too large, however the rest of it comes out.
theorem fit32_bind_times {n : Nat} (f : UInt32 → Option UInt32) (total : Nat)
    (larger : n ≤ total) (goes : n ≤ largest32 → f (.ofNat n) = fit32 total) :
    (fit32 n).bind f = fit32 total := by
  by_cases fits : n ≤ largest32
  · rw [fit32_fits fits]
    exact goes fits
  · rw [fit32_over (Nat.lt_of_not_le fits), fit32_over (Nat.lt_of_lt_of_le (Nat.lt_of_not_le fits) larger)]
    rfl

theorem power_from_exact (exponent : Nat) {result base : UInt32} (some_left : 1 ≤ exponent)
    (positive : 1 ≤ result.toNat) (grows : 1 ≤ base.toNat) :
    powerFrom result base exponent = fit32 (result.toNat * base.toNat ^ exponent) := by
  induction exponent using Nat.strongRecOn generalizing result base with
  | ind exponent ih =>
      rw [powerFrom]
      by_cases last : exponent ≤ 1
      · rw [if_pos last, Nat.le_antisymm last some_left, pow_one]
        rfl
      · have half : 1 ≤ exponent / 2 := by omega
        have squared : ∀ {result : UInt32}, 1 ≤ result.toNat →
            ((times32 base base).bind fun square => powerFrom result square (exponent / 2)) =
              fit32 (result.toNat * (base.toNat * base.toNat) ^ (exponent / 2)) := by
          intro result positive
          have square : 1 ≤ base.toNat * base.toNat := Nat.mul_le_mul grows grows
          refine fit32_bind_times _ _ ?_ fun fits => ?_
          · exact Nat.le_trans (Nat.le_pow half) (Nat.le_mul_of_pos_left _ positive)
          · rw [ih _ (by omega) half positive (by rwa [value32 fits]), value32 fits]
        rw [if_neg last]
        by_cases odd : exponent % 2 = 1
        · have whole : result.toNat * base.toNat * (base.toNat * base.toNat) ^ (exponent / 2) =
              result.toNat * base.toNat ^ exponent := by
            rw [← pow_two, ← pow_mul, Nat.mul_assoc, ← pow_succ', show 2 * (exponent / 2) + 1 = exponent by omega]
          rw [if_pos odd, ← whole]
          have product : 1 ≤ result.toNat * base.toNat := Nat.mul_le_mul positive grows
          refine fit32_bind_times _ _ ?_ fun fits => ?_
          · exact Nat.le_mul_of_pos_right _ (Nat.pow_pos (Nat.mul_le_mul grows grows))
          · rw [squared (by rwa [value32 fits]), value32 fits]
        · have whole : (base.toNat * base.toNat) ^ (exponent / 2) = base.toNat ^ exponent := by
            rw [← pow_two, ← pow_mul, show 2 * (exponent / 2) = exponent by omega]
          rw [if_neg odd, Option.bind_some, squared positive, whole]

theorem power_exact {base : UInt32} (grows : 1 ≤ base.toNat) (exponent : UInt32) :
    power base exponent = fit32 (base.toNat ^ exponent.toNat) := by
  by_cases none_left : exponent = 0
  · rw [power, if_pos none_left, none_left]
    rfl
  · have some_left : 1 ≤ exponent.toNat :=
      Nat.pos_of_ne_zero fun zero => none_left (UInt32.toNat_inj.mp zero)
    rw [power, if_neg none_left, power_from_exact _ some_left (show 1 ≤ (1 : UInt32).toNat by decide) grows]
    exact congrArg fit32 (Nat.one_mul _)

end Word

-- Whole seconds and the nanoseconds of the one that has begun.
structure Span where
  secs : UInt64
  nanos : UInt32
  normal : nanos.toNat < 1000000000
deriving DecidableEq, Repr

namespace Span

open Word

def total (span : Span) : Nat := span.secs.toNat * 1000000000 + span.nanos.toNat

def longest : Span := ⟨18446744073709551615, 999999999, by decide⟩

-- The span of a number of nanoseconds, in words of the machine.
def ofTotal (n : Nat) : Span where
  secs := .ofNat (n / 1000000000)
  nanos := .ofNat (n % 1000000000)
  normal := by
    rw [value32 (by unfold largest32; omega)]
    exact Nat.mod_lt n (by decide)

def of (d : Duration) : Span := ofTotal d.nanos

theorem rest_value (n : UInt64) : (n % 1000000000).toUInt32.toNat = n.toNat % 1000000000 := by
  rw [UInt64.toNat_toUInt32, UInt64.toNat_mod]
  exact Nat.mod_eq_of_lt (Nat.lt_trans (Nat.mod_lt _ (by decide)) (by decide))

-- The product with a factor of 32 bits, up to the longest span. The nanoseconds are multiplied in 64 bits
-- and the seconds among them carried over. There is no result when this first product runs over.
def times (span : Span) (factor : UInt32) : Option Span :=
  (times64 span.nanos.toUInt64 factor.toUInt64).map fun scaled =>
    let secs := (times64 span.secs factor.toUInt64).bind (plus64 · (scaled / 1000000000))
    (secs.map fun secs => ⟨secs, (scaled % 1000000000).toUInt32,
      (rest_value scaled).symm ▸ Nat.mod_lt _ (by decide)⟩).getD longest

def notLonger (a b : Span) : Bool := a.secs < b.secs || (a.secs == b.secs && a.nanos ≤ b.nanos)

def atMost (span limit : Span) : Span := if span.notLonger limit then span else limit

def delay (base limit : Span) (retry : UInt32) : Option Span :=
  (base.times ((power 2 retry).getD 4294967295)).map (·.atMost limit)

theorem total_of_total {n : Nat} (bounded : n ≤ Duration.maxNanos) : (ofTotal n).total = n := by
  have secs : n / 1000000000 ≤ largest64 := by unfold Duration.maxNanos largest64 at *; omega
  have nanos : n % 1000000000 ≤ largest32 := by unfold largest32; omega
  simp only [total, ofTotal, value64 secs, value32 nanos]
  omega

theorem fits_longest (d : Duration) : d.nanos ≤ Duration.maxNanos := by
  have bounded := d.bounded
  unfold Duration.maxNanos
  omega

theorem total_of (d : Duration) : (of d).total = d.nanos := total_of_total (fits_longest d)

theorem secs_exact (secs carry : UInt64) (factor : UInt32) :
    ((times64 secs factor.toUInt64).bind (plus64 · carry)) =
      fit64 (secs.toNat * factor.toNat + carry.toNat) := by
  rw [times64, UInt32.toNat_toUInt64]
  by_cases fits : secs.toNat * factor.toNat ≤ largest64
  · rw [fit64_fits fits, Option.bind_some, plus64, value64 fits]
  · have beyond : largest64 < secs.toNat * factor.toNat := Nat.lt_of_not_le fits
    rw [fit64_over beyond, fit64_over (Nat.lt_of_lt_of_le beyond (Nat.le_add_right _ _))]
    rfl

theorem times_exact (span : Span) (factor : UInt32) :
    span.times factor = some (ofTotal (min (span.total * factor.toNat) Duration.maxNanos)) := by
  obtain ⟨secs, nanos, normal⟩ := span
  have small : nanos.toNat * factor.toNat ≤ largest64 := by
    have bound : nanos.toNat * factor.toNat ≤ 1000000000 * 4294967296 :=
      Nat.mul_le_mul (Nat.le_of_lt normal) (Nat.le_of_lt factor.toNat_lt)
    exact Nat.le_trans bound (by decide)
  have scaled : times64 nanos.toUInt64 factor.toUInt64 = some (.ofNat (nanos.toNat * factor.toNat)) := by
    rw [times64, UInt32.toNat_toUInt64, UInt32.toNat_toUInt64]
    exact fit64_fits small
  have whole : (secs.toNat * 1000000000 + nanos.toNat) * factor.toNat =
      secs.toNat * factor.toNat * 1000000000 + nanos.toNat * factor.toNat := by
    rw [Nat.add_mul, Nat.mul_right_comm]
  rw [times, scaled, Option.map_some]
  have second : (1000000000 : UInt64).toNat = 1000000000 := by decide
  simp only [secs_exact, UInt64.toNat_div, value64 small, second, total, whole]
  generalize secs.toNat * factor.toNat = p
  generalize nanos.toNat * factor.toNat = q at small
  by_cases fits : p + q / 1000000000 ≤ largest64
  · have within : p * 1000000000 + q ≤ Duration.maxNanos := by unfold Duration.maxNanos; omega
    have seconds : (p * 1000000000 + q) / 1000000000 = p + q / 1000000000 := by omega
    have rest : (UInt64.ofNat q % 1000000000).toUInt32 = .ofNat ((p * 1000000000 + q) % 1000000000) := by
      rw [← UInt32.toNat_inj, rest_value, value64 small, value32 (by unfold largest32; omega)]
      omega
    rw [Nat.min_eq_left within, fit64_fits fits, Option.map_some, Option.getD_some]
    simp only [ofTotal, seconds, rest]
  · have beyond : Duration.maxNanos ≤ p * 1000000000 + q := by unfold Duration.maxNanos; omega
    have most : ofTotal Duration.maxNanos = longest := by decide
    rw [Nat.min_eq_right beyond, most, fit64_over (Nat.lt_of_not_le fits)]
    rfl

theorem not_longer_iff (a b : Span) : a.notLonger b = true ↔ a.total ≤ b.total := by
  have first := a.normal
  have second := b.normal
  unfold total
  rw [notLonger, Bool.or_eq_true, Bool.and_eq_true, decide_eq_true_iff, decide_eq_true_iff, beq_iff_eq,
    UInt64.lt_iff_toNat_lt, UInt32.le_iff_toNat_le, ← UInt64.toNat_inj]
  omega

theorem of_times (d : Duration) (factor : UInt32) :
    (of d).times factor = some (of (d.times factor.toNat)) := by
  rw [times_exact, total_of]
  rfl

theorem of_at_most (d limit : Duration) : (of d).atMost (of limit) = of (d.atMost limit) := by
  have same : (of d).notLonger (of limit) = true ↔ d.nanos ≤ limit.nanos := by
    rw [not_longer_iff, total_of, total_of]
  unfold atMost Duration.atMost
  by_cases short : d.nanos ≤ limit.nanos
  · rw [if_pos (same.mpr short), if_pos short]
  · rw [if_neg fun shorter => short (same.mp shorter), if_neg short]

end Span

namespace Backoff

theorem factor_exact (retry : Nat) : factor retry = min (2 ^ retry) (2 ^ 32 - 1) := by
  unfold factor
  by_cases small : retry < 32
  · have below : 2 ^ retry ≤ 2 ^ 31 := Nat.pow_le_pow_right (by decide) (Nat.le_of_lt_succ small)
    rw [if_pos small, Nat.min_eq_left (Nat.le_trans below (by decide))]
    rfl
  · have above : 2 ^ 32 ≤ 2 ^ retry := Nat.pow_le_pow_right (by decide) (Nat.le_of_not_lt small)
    rw [if_neg small, Nat.min_eq_right (Nat.le_trans (Nat.sub_le _ 1) above)]
    rfl

theorem factor_word (retry : UInt32) :
    ((Word.power 2 retry).getD 4294967295).toNat = factor retry.toNat := by
  rw [Word.power_exact (by decide), factor_exact]
  change ((Word.fit32 (2 ^ retry.toNat)).getD 4294967295).toNat = min (2 ^ retry.toNat) largest32
  by_cases fits : 2 ^ retry.toNat ≤ largest32
  · rw [Word.fit32_fits fits, Option.getD_some, Word.value32 fits, Nat.min_eq_left fits]
  · rw [Word.fit32_over (Nat.lt_of_not_le fits), Nat.min_eq_right (Nat.le_of_not_le fits)]
    rfl

variable {base limit : Duration}

theorem delay_exact (base limit : Duration) (n : Nat) :
    ((exponential base limit).delay n).nanos =
      min (base.nanos * min (2 ^ n) (2 ^ 32 - 1)) (min Duration.maxNanos limit.nanos) := by
  have capped : ((exponential base limit).delay n).nanos =
      min (min (base.nanos * factor n) Duration.maxNanos) limit.nanos := by
    rw [Nat.min_def]
    exact apply_ite Duration.nanos _ _ _
  rw [capped, factor_exact, Nat.min_assoc]

theorem delay_words (base limit : Duration) (n : UInt32) :
    Span.delay (.of base) (.of limit) n = some (.of ((exponential base limit).delay n.toNat)) := by
  rw [Span.delay, Span.of_times, factor_word, Option.map_some, Span.of_at_most]
  rfl

theorem delay_limited (base limit : Duration) (n : Nat) :
    ((exponential base limit).delay n).nanos ≤ limit.nanos := by
  rw [delay_exact]
  exact Nat.le_trans (Nat.min_le_right _ _) (Nat.min_le_right _ _)

theorem delay_grows {longer further : Duration} {n m : Nat} (bases : base.nanos ≤ longer.nanos)
    (limits : limit.nanos ≤ further.nanos) (retries : n ≤ m) :
    ((exponential base limit).delay n).nanos ≤ ((exponential longer further).delay m).nanos := by
  have powers : 2 ^ n ≤ 2 ^ m := Nat.pow_le_pow_right (by decide) retries
  have factors : min (2 ^ n) (2 ^ 32 - 1) ≤ min (2 ^ m) (2 ^ 32 - 1) := by omega
  have products := Nat.mul_le_mul bases factors
  rw [delay_exact, delay_exact]
  omega

-- Where the power has a word of its own, and where the largest word already reaches the limit.
theorem delay_documented {n : Nat} (reached : n ≤ 31 ∨ limit.nanos ≤ base.nanos * (2 ^ 32 - 1)) :
    ((exponential base limit).delay n).nanos = min (base.nanos * 2 ^ n) limit.nanos := by
  have within : limit.nanos ≤ Duration.maxNanos := Span.fits_longest limit
  rw [delay_exact, Nat.min_eq_right within]
  by_cases small : n ≤ 31
  · have below : 2 ^ n ≤ 2 ^ 31 := Nat.pow_le_pow_right (by decide) small
    rw [Nat.min_eq_left (Nat.le_trans below (by decide))]
  · have enough := reached.resolve_left small
    have above : 2 ^ 32 ≤ 2 ^ n := Nat.pow_le_pow_right (by decide) (Nat.lt_of_not_le small)
    have more : base.nanos * (2 ^ 32 - 1) ≤ base.nanos * 2 ^ n :=
      Nat.mul_le_mul_left _ (Nat.le_trans (Nat.sub_le _ 1) above)
    rw [Nat.min_eq_right (Nat.le_trans (Nat.sub_le _ 1) above), Nat.min_eq_right enough,
      Nat.min_eq_right (Nat.le_trans enough more)]

theorem delay_doubles {n : Nat} (small : n < 31)
    (room : 2 * ((exponential base limit).delay n).nanos ≤ limit.nanos) :
    ((exponential base limit).delay (n + 1)).nanos = 2 * ((exponential base limit).delay n).nanos := by
  rw [delay_documented (.inl (Nat.le_of_lt small))] at room ⊢
  rw [delay_documented (.inl small), Nat.pow_succ, ← Nat.mul_assoc]
  omega

theorem exponential_delays_are_exact (base limit : Duration) (n : UInt32) :
    (∃ span : Span, Span.delay (.of base) (.of limit) n = some span ∧
      span = .of ((exponential base limit).delay n.toNat) ∧ span.nanos.toNat < 1000000000 ∧
      span.total = min (base.nanos * min (2 ^ n.toNat) (2 ^ 32 - 1)) (min Duration.maxNanos limit.nanos)) ∧
    ((exponential base limit).delay n.toNat).nanos =
      min (base.nanos * min (2 ^ n.toNat) (2 ^ 32 - 1)) (min Duration.maxNanos limit.nanos) ∧
    (n.toNat ≤ 31 ∨ limit.nanos ≤ base.nanos * (2 ^ 32 - 1) →
      ((exponential base limit).delay n.toNat).nanos = min (base.nanos * 2 ^ n.toNat) limit.nanos) ∧
    (∀ (longer further : Duration) (m : UInt32), base.nanos ≤ longer.nanos → limit.nanos ≤ further.nanos →
      n ≤ m →
      ((exponential base limit).delay n.toNat).nanos ≤ ((exponential longer further).delay m.toNat).nanos) ∧
    ((exponential base limit).delay n.toNat).nanos ≤ limit.nanos ∧
    (n.toNat < 31 → 2 * ((exponential base limit).delay n.toNat).nanos ≤ limit.nanos →
      ((exponential base limit).delay (n + 1).toNat).nanos =
        2 * ((exponential base limit).delay n.toNat).nanos) := by
  refine ⟨⟨_, delay_words base limit n, rfl, Span.normal _, ?_⟩, delay_exact base limit n.toNat,
    delay_documented, fun longer further m bases limits retries => delay_grows bases limits retries,
    delay_limited base limit n.toNat, fun small room => ?_⟩
  · rw [Span.total_of, delay_exact]
  · have next : (n + 1).toNat = n.toNat + 1 := by
      rw [UInt32.toNat_add]
      exact Nat.mod_eq_of_lt (Nat.lt_of_lt_of_le (Nat.succ_lt_succ small) (by decide))
    rw [next]
    exact delay_doubles small room

theorem short_delays_double :
    ((exponential (.ofMillis 100) (.ofMillis 500)).delay 1).nanos = min (100000000 * 2 ^ 1) 500000000 ∧
    ((exponential (.ofMillis 100) (.ofMillis 500)).delay 1).nanos ≤
      ((exponential (.ofMillis 150) (.ofSecs 10 0)).delay 40).nanos ∧
    ((exponential (.ofMillis 100) (.ofMillis 500)).delay 2).nanos =
      2 * ((exponential (.ofMillis 100) (.ofMillis 500)).delay 1).nanos := by
  obtain ⟨-, -, documented, grows, -, doubles⟩ :=
    exponential_delays_are_exact (.ofMillis 100) (.ofMillis 500) 1
  exact ⟨documented (.inl (by decide)), grows _ _ 40 (by decide) (by decide) (by decide),
    doubles (by decide) (by decide)⟩

-- A limit beyond the saturated power is not reached, however often the delay would have to double.
example : ((exponential (.ofSecs 1 0) (.ofNanos Duration.maxNanos)).delay 32).secs = 4294967295 := by decide

end Backoff

end EventPipeline

import CloudAudit.Retry

set_option autoImplicit false

/- Delays as they are computed in words. A duration is a word of seconds and a word of
nanoseconds beside it. Powers and products that do not fit their words stop at the
greatest value, so a delay comes out as in exact arithmetic: it is never longer than the
longest one, and that one fits. -/
namespace CloudAudit

-- Powers are core's, also where an algebra library is imported.
attribute [local instance (high)] instPowNat

namespace Duration

/-- Where products stop at a bound, it does not matter whether they stopped before. -/
theorem min_times (x a most : Nat) : min (min x most * a) most = min (x * a) most := by
  rcases Nat.le_total x most with within | beyond
  · rw [Nat.min_eq_left within]
  · rw [Nat.min_eq_right beyond]
    cases a with
    | zero => rfl
    | succ a =>
      have reached : most ≤ most * (a + 1) := Nat.le_mul_of_pos_right most a.succ_pos
      have passed : most * (a + 1) ≤ x * (a + 1) := Nat.mul_le_mul_right _ beyond
      omega

/-! Words of 32 bits. -/

/-- Product that stops at the greatest word. -/
def wordTimes (a b : UInt32) : UInt32 :=
  if a.toNat * b.toNat < 2 ^ (32 : Nat) then a * b else 4294967295

/-- Power that stops at the greatest word. -/
def wordPower (a : UInt32) : Nat → UInt32
  | 0 => 1
  | n + 1 => wordTimes (wordPower a n) a

/-- The word before, but none before zero. -/
def wordBefore (a : UInt32) : UInt32 := if a = 0 then 0 else a - 1

theorem toNat_wordTimes (a b : UInt32) :
    (wordTimes a b).toNat = min (a.toNat * b.toNat) (2 ^ (32 : Nat) - 1) := by
  unfold wordTimes
  split
  · next fits =>
    rw [UInt32.toNat_mul, Nat.mod_eq_of_lt fits]
    omega
  · have greatest : (4294967295 : UInt32).toNat = 2 ^ (32 : Nat) - 1 := rfl
    omega

theorem toNat_wordPower (a : UInt32) (n : Nat) :
    (wordPower a n).toNat = min (a.toNat ^ n) (2 ^ (32 : Nat) - 1) := by
  induction n with
  | zero => rfl
  | succ n ih => rw [wordPower, toNat_wordTimes, ih, min_times, Nat.pow_succ a.toNat]

theorem toNat_wordBefore (a : UInt32) : (wordBefore a).toNat = a.toNat - 1 := by
  unfold wordBefore
  split
  · next zero =>
    subst zero
    rfl
  · next other =>
    have positive : a.toNat ≠ 0 := fun same => other (UInt32.toNat_inj.mp same)
    have one : (1 : UInt32).toNat = 1 := rfl
    have below : (1 : UInt32) ≤ a := by
      rw [UInt32.le_iff_toNat_le]
      omega
    rw [UInt32.toNat_sub_of_le _ _ below, one]

/-! Words of 64 bits. -/

/-- The word of a number, if it fits. -/
def long? (n : Nat) : Option UInt64 := if n < 2 ^ (64 : Nat) then some (.ofNat n) else none

theorem toNat_of_long? {n : Nat} {word : UInt64} (fits : long? n = some word) :
    word.toNat = n := by
  unfold long? at fits
  split at fits
  · next small =>
    obtain rfl := Option.some.inj fits
    exact UInt64.toNat_ofNat_of_lt' small
  · cases fits

theorem le_of_long? {n : Nat} (beyond : long? n = none) : 2 ^ (64 : Nat) ≤ n := by
  unfold long? at beyond
  split at beyond
  · cases beyond
  · omega

/-! Durations in words. -/

/-- Whole seconds in a word of 64 bits and the nanoseconds beside them in one of 32. -/
structure Parts where
  seconds : UInt64
  nanos : UInt32
  nanos_lt : nanos.toNat < 1000000000

namespace Parts

/-- All nanoseconds. -/
def total (d : Parts) : Nat := d.seconds.toNat * 1000000000 + d.nanos.toNat

/-- The longest duration that fits. -/
def most : Parts := ⟨18446744073709551615, 999999999, by decide⟩

/-- The shorter of two durations: the one with fewer seconds, then with fewer nanoseconds. -/
def shorter (d e : Parts) : Parts :=
  if e.seconds < d.seconds ∨ e.seconds = d.seconds ∧ e.nanos < d.nanos then e else d

/-- What a factor makes of the nanoseconds beside the seconds. -/
def nanosTimes (d : Parts) (factor : UInt32) : UInt64 := d.nanos.toUInt64 * factor.toUInt64

/-- Whole seconds of it. -/
def carry (d : Parts) (factor : UInt32) : UInt64 := d.nanosTimes factor / 1000000000

/-- What it has beside its whole seconds. -/
def rest (d : Parts) (factor : UInt32) : UInt32 := (d.nanosTimes factor % 1000000000).toUInt32

section

variable (d : Parts) (factor : UInt32)

/-- A word of 64 bits holds as much of less than a second as a factor can ask for. -/
theorem toNat_nanosTimes : (d.nanosTimes factor).toNat = d.nanos.toNat * factor.toNat := by
  have fits : d.nanos.toNat * factor.toNat < 1000000000 * 2 ^ (32 : Nat) :=
    Nat.mul_lt_mul'' d.nanos_lt factor.toNat_lt
  rw [nanosTimes, UInt64.toNat_mul, UInt32.toNat_toUInt64, UInt32.toNat_toUInt64]
  exact Nat.mod_eq_of_lt (by omega)

theorem toNat_carry : (d.carry factor).toNat = d.nanos.toNat * factor.toNat / 1000000000 := by
  have second : (1000000000 : UInt64).toNat = 1000000000 := rfl
  rw [carry, UInt64.toNat_div, toNat_nanosTimes, second]

theorem toNat_rest : (d.rest factor).toNat = d.nanos.toNat * factor.toNat % 1000000000 := by
  have second : (1000000000 : UInt64).toNat = 1000000000 := rfl
  rw [rest, UInt64.toNat_toUInt32, UInt64.toNat_mod, toNat_nanosTimes, second]
  omega

theorem rest_lt : (d.rest factor).toNat < 1000000000 := by
  rw [toNat_rest]
  exact Nat.mod_lt _ (by decide)

/-- Product, if its seconds fit their word. -/
def times? : Option Parts := do
  let seconds ← long? (d.seconds.toNat * factor.toNat)
  let seconds ← long? (seconds.toNat + (d.carry factor).toNat)
  some ⟨seconds, d.rest factor, d.rest_lt factor⟩

/-- Product that stops at the longest duration. -/
def times : Parts := (d.times? factor).getD most

theorem total_most : most.total = greatest := rfl

theorem total_le : d.total ≤ greatest := by
  have seconds := d.seconds.toNat_lt
  have nanos := d.nanos_lt
  have bound : greatest = 18446744073709551615999999999 := rfl
  rw [bound, total]
  omega

theorem total_times : (d.times factor).total = scale d.total factor.toNat := by
  have bound : greatest = 18446744073709551615999999999 := rfl
  have whole : d.total * factor.toNat =
      d.seconds.toNat * factor.toNat * 1000000000 + d.nanos.toNat * factor.toNat := by
    rw [total, Nat.add_mul, Nat.mul_right_comm]
  rw [scale, whole, times, times?]
  cases product : long? (d.seconds.toNat * factor.toNat) with
  | none =>
    have beyond := le_of_long? product
    change most.total = _
    rw [total_most, bound]
    omega
  | some seconds =>
    rw [Option.bind_eq_bind, Option.bind_some, ← toNat_of_long? product]
    cases sum : long? (seconds.toNat + (d.carry factor).toNat) with
    | none =>
      have beyond := le_of_long? sum
      rw [toNat_carry] at beyond
      change most.total = _
      rw [total_most, bound]
      omega
    | some all =>
      have last := all.toNat_lt
      have equal := toNat_of_long? sum
      rw [toNat_carry] at equal
      change all.toNat * 1000000000 + (d.rest factor).toNat = _
      rw [toNat_rest, bound]
      omega

theorem total_shorter (e : Parts) : (d.shorter e).total = min d.total e.total := by
  have first := d.nanos_lt
  have second := e.nanos_lt
  unfold shorter
  split
  · next fewer =>
    rw [UInt64.lt_iff_toNat_lt, ← UInt64.toNat_inj, UInt32.lt_iff_toNat_lt] at fewer
    unfold total
    omega
  · next fewer =>
    rw [UInt64.lt_iff_toNat_lt, ← UInt64.toNat_inj, UInt32.lt_iff_toNat_lt] at fewer
    unfold total
    omega

end

end Parts

end Duration

namespace RetryConfig

open Duration (Parts)

/-- The factor of a delay in a word. -/
def wordFactor (retry : UInt32) : UInt32 := Duration.wordPower 2 (Duration.wordBefore retry).toNat

/-- A delay in words. -/
def wordDelay (base longest : Parts) (retry : UInt32) : Parts :=
  (base.times (wordFactor retry)).shorter longest

theorem factor_eq (n : Nat) : factor n = min (2 ^ n) (2 ^ (32 : Nat) - 1) := by
  unfold factor maxFactor
  split
  · next below =>
    have bound : 2 ^ n ≤ 2 ^ (31 : Nat) := Nat.pow_le_pow_right (by decide) (by omega)
    omega
  · next above =>
    have bound : 2 ^ (32 : Nat) ≤ 2 ^ n := Nat.pow_le_pow_right (by decide) (by omega)
    omega

theorem toNat_wordFactor (retry : UInt32) :
    (wordFactor retry).toNat = factor (retry.toNat - 1) := by
  have two : (2 : UInt32).toNat = 2 := rfl
  rw [wordFactor, Duration.toNat_wordPower, Duration.toNat_wordBefore, factor_eq, two]

theorem factor_mono {m n : Nat} (before : m ≤ n) : factor m ≤ factor n := by
  have grows : 2 ^ m ≤ 2 ^ n := Nat.pow_le_pow_right (by decide) before
  rw [factor_eq, factor_eq]
  omega

theorem factor_succ {n : Nat} (below : n < 31) : factor (n + 1) = 2 * factor n := by
  rw [factor, factor, if_pos (by omega), if_pos (by omega), Nat.pow_succ, Nat.mul_comm]

section

variable {c : RetryConfig} (fits : c.maxDelay ≤ Duration.greatest)
include fits

/-- The greatest delay is a duration, so the product may as well be exact. -/
theorem delay_eq (retry : Nat) :
    c.delay retry = min c.maxDelay (c.baseDelay * factor (retry - 1)) := by
  unfold delay Duration.scale
  omega

theorem delay_mono {retry later : Nat} (before : retry ≤ later) :
    c.delay retry ≤ c.delay later := by
  have grows : c.baseDelay * factor (retry - 1) ≤ c.baseDelay * factor (later - 1) :=
    Nat.mul_le_mul_left _ (factor_mono (Nat.sub_le_sub_right before 1))
  rw [delay_eq fits, delay_eq fits]
  omega

theorem delay_succ {retry : Nat} (first : 1 ≤ retry) (last : retry ≤ 31)
    (short : 2 * c.delay retry ≤ c.maxDelay) : c.delay (retry + 1) = 2 * c.delay retry := by
  have doubles : c.baseDelay * factor (retry + 1 - 1) = 2 * (c.baseDelay * factor (retry - 1)) := by
    rw [show retry + 1 - 1 = retry - 1 + 1 by omega, factor_succ (by omega), Nat.mul_left_comm]
  rw [delay_eq fits] at short
  rw [delay_eq fits, delay_eq fits, doubles]
  omega

end

/-- No step of a delay in words loses what does not fit: it is exact, or it stops at the
greatest value of its words. -/
structure Unwrapped (base longest : Parts) (retry : UInt32) : Prop where
  before : (Duration.wordBefore retry).toNat = retry.toNat - 1
  factor : (wordFactor retry).toNat = min (2 ^ (retry.toNat - 1)) (2 ^ (32 : Nat) - 1)
  nanos : (base.nanosTimes (wordFactor retry)).toNat =
    base.nanos.toNat * (wordFactor retry).toNat
  product : (base.times (wordFactor retry)).total =
    min (base.total * (wordFactor retry).toNat) Parts.most.total
  delay : (wordDelay base longest retry).total =
    min (base.times (wordFactor retry)).total longest.total

theorem unwrapped (base longest : Parts) (retry : UInt32) : Unwrapped base longest retry where
  before := Duration.toNat_wordBefore retry
  factor := by rw [toNat_wordFactor, factor_eq]
  nanos := base.toNat_nanosTimes _
  product := base.total_times _
  delay := Parts.total_shorter _ longest

theorem total_wordDelay (base longest : Parts) (attempts : Nat) (retry : UInt32) :
    (wordDelay base longest retry).total =
      delay ⟨attempts, base.total, longest.total⟩ retry.toNat := by
  rw [wordDelay, Parts.total_shorter, Parts.total_times, toNat_wordFactor]
  rfl

/-- A delay is the base delay, doubled with each retry after the first as far as the factor
goes, or the greatest delay where that is less. It comes out so in words. -/
theorem delays_exact (base longest : Parts) (attempts : Nat) (retry : UInt32) :
    let c : RetryConfig := ⟨attempts, base.total, longest.total⟩
    let r := retry.toNat
    c.delay r = min longest.total (base.total * min (2 ^ (max r 1 - 1)) (2 ^ (32 : Nat) - 1)) ∧
    (wordDelay base longest retry).total = c.delay r ∧ Unwrapped base longest retry ∧
    c.delay r ≤ longest.total ∧
    (∀ later : UInt32, retry ≤ later → c.delay r ≤ c.delay later.toNat) ∧
    (1 ≤ r → r ≤ 31 → 2 * c.delay r ≤ longest.total → c.delay (r + 1) = 2 * c.delay r) := by
  intro c r
  have fits : c.maxDelay ≤ Duration.greatest := longest.total_le
  refine ⟨?_, total_wordDelay base longest attempts retry, unwrapped base longest retry,
    Nat.min_le_right _ _, fun later before => ?_, delay_succ fits⟩
  · rw [delay_eq fits, factor_eq, show max r 1 - 1 = r - 1 by omega]
  · exact delay_mono fits (UInt32.le_iff_toNat_le.mp before)

def instant : Parts := ⟨0, 1, by decide⟩

/-- From a nanosecond on, with no other bound than the longest duration. -/
def unbounded : RetryConfig := ⟨0, instant.total, Parts.most.total⟩

/-- The last retry that doubles its delay is followed by one with the greatest factor. -/
theorem last_doubling :
    unbounded.delay 31 = 2 ^ (30 : Nat) ∧ 2 * unbounded.delay 31 ≤ Parts.most.total ∧
    unbounded.delay 32 = 2 * unbounded.delay 31 ∧
    (32 : UInt32) ≤ 33 ∧ unbounded.delay 32 ≤ unbounded.delay 33 ∧
    unbounded.delay 33 = 2 ^ (32 : Nat) - 1 := by
  have short : 2 * unbounded.delay 31 ≤ Parts.most.total := by decide
  obtain ⟨_, _, _, _, _, doubles⟩ := delays_exact instant Parts.most 0 31
  obtain ⟨_, _, _, _, grows, _⟩ := delays_exact instant Parts.most 0 32
  exact ⟨by decide, short, doubles (by decide) (by decide) short, by decide,
    grows 33 (by decide), by decide⟩

end RetryConfig

end CloudAudit

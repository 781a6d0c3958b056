import GhostKey.Foundation.Program
import Mathlib.Algebra.Ring.Int.Defs
import Mathlib.Data.Int.Basic

/-!
# Checked Arithmetic on Times

Rust's `i64` addition and chrono's `TimeDelta` and `DateTime<Utc>`, with the ways in
which each of them panics. An `i64` sum wraps where the build has no overflow checks;
`TimeDelta::seconds` panics beyond `i64::MAX` milliseconds, `DateTime + TimeDelta` beyond
the last day of the year 262142.
-/

namespace GhostKey.Foundation

/-- Why a computation with times panics. -/
inductive Panic where
  | overflow
  | deltaOutOfBounds
  | dateOutOfRange
  deriving DecidableEq

/-- `a + b` on `i64`; `checks` is the build's `overflow-checks`. -/
def addI64 (checks : Bool) (a b : Int64) : Except Panic Int64 :=
  if checks && (a + b).toInt ≠ a.toInt + b.toInt then .error .overflow else .ok (a + b)

/-- `TimeDelta::MAX` in whole seconds. -/
def maxDeltaSecs : Int := 9223372036854775

/-- `TimeDelta::seconds`, in nanoseconds. -/
def deltaSeconds (n : Int64) : Except Panic Int :=
  if -maxDeltaSecs ≤ n.toInt ∧ n.toInt ≤ maxDeltaSecs then .ok (n.toInt * 1000000000)
  else .error .deltaOutOfBounds

/-- `DateTime::<Utc>::MIN_UTC`, the first instant of the year -262143. -/
def minNanos : Int := -8334601228800000000000

/-- `DateTime::<Utc>::MAX_UTC`, the last nanosecond of the year 262142. -/
def maxNanos : Int := 8210266876799999999999

/-- A `DateTime<Utc>`: nanoseconds since the epoch, between the two ends. -/
@[ext]
structure DateTime where
  nanos : Int
  lower : minNanos ≤ nanos
  upper : nanos ≤ maxNanos
  deriving DecidableEq

namespace DateTime

/-- `DateTime + TimeDelta`. -/
def add (t : DateTime) (delta : Int) : Except Panic DateTime :=
  if h : minNanos ≤ t.nanos + delta ∧ t.nanos + delta ≤ maxNanos then
    .ok ⟨t.nanos + delta, h.1, h.2⟩
  else .error .dateOutOfRange

/-- `t + Duration::seconds(n)`. -/
def addSeconds (t : DateTime) (n : Int64) : Except Panic DateTime := do
  let delta ← deltaSeconds n
  t.add delta

/-- Between the two ends no duration is too long for a `TimeDelta`. -/
theorem addSeconds_eq_ok_iff {t t' : DateTime} {n : Int64} :
    t.addSeconds n = .ok t' ↔ t'.nanos = t.nanos + n.toInt * 1000000000 := by
  obtain ⟨m, lower, upper⟩ := t
  obtain ⟨m', lower', upper'⟩ := t'
  simp only [minNanos, maxNanos] at lower upper lower' upper'
  unfold addSeconds deltaSeconds add
  by_cases small : -maxDeltaSecs ≤ n.toInt ∧ n.toInt ≤ maxDeltaSecs
  · rw [if_pos small]
    simp only [bind, Except.bind]
    split
    · rw [Except.ok.injEq, DateTime.ext_iff]
      exact eq_comm
    · next out =>
      simp only [minNanos, maxNanos] at out
      simp only [reduceCtorEq, false_iff]
      omega
  · rw [if_neg small]
    simp only [maxDeltaSecs] at small
    simp only [bind, Except.bind, reduceCtorEq, false_iff]
    omega

/-- A sum that is a date is found. -/
theorem exists_addSeconds {t : DateTime} {n : Int64}
    (lower : minNanos ≤ t.nanos + n.toInt * 1000000000)
    (upper : t.nanos + n.toInt * 1000000000 ≤ maxNanos) : ∃ t', t.addSeconds n = .ok t' :=
  ⟨⟨_, lower, upper⟩, addSeconds_eq_ok_iff.2 rfl⟩

end DateTime

/-- Without an overflow the sum is the sum, whatever the build checks. -/
theorem addI64_eq_ok (checks : Bool) {a b : Int64} (small : a.toInt + b.toInt < 2 ^ 63)
    (large : -2 ^ 63 ≤ a.toInt + b.toInt) :
    addI64 checks a b = .ok (a + b) ∧ (a + b).toInt = a.toInt + b.toInt := by
  have sum : (a + b).toInt = a.toInt + b.toInt := by
    rw [Int64.toInt_add]
    exact Int.bmod_eq_of_le (by omega) (by omega)
  refine ⟨?_, sum⟩
  unfold addI64
  simp [sum]

/-- Where two non-negative numbers overflow, the build panics, or the sum has become so
negative that no date can be told from it. -/
theorem addI64_overflow {checks : Bool} {a b sum : Int64} (ha : 0 ≤ a.toInt) (hb : 0 ≤ b.toInt)
    (large : 2 ^ 63 ≤ a.toInt + b.toInt) (added : addI64 checks a b = .ok sum) :
    sum.toInt = a.toInt + b.toInt - 2 ^ 64 := by
  have wrapped : (a + b).toInt = a.toInt + b.toInt - 2 ^ 64 := by
    have lt := a.toInt_lt
    have lt' := b.toInt_lt
    rw [Int64.toInt_add, Int.bmod_def]
    split <;> omega
  unfold addI64 at added
  split at added
  · cases added
  · cases added
    exact wrapped

end GhostKey.Foundation

import Mathlib.Algebra.Ring.Nat
import Mathlib.Data.List.Basic
import Mathlib.Data.Nat.Notation

/-!
# Blocks of Numbers

A block holds the numbers that agree with its base on all but their lowest bits, as the
prefixes of network addresses do.

Main results:
- `covers_iff`: an aligned block is the range that starts at its base.
- `masked_eq_iff`: a test under a mask of the high bits is a block.
- `covers_prefixed`: a block of numbers that are written digit by digit, given by some leading
  digits and a block for the next one.
-/

namespace GhostKey.Foundation

/-- All numbers that agree with `base` but for their lowest `free` bits. -/
structure Block where
  base : ℕ
  free : ℕ
  deriving DecidableEq

namespace Block

def covers (b : Block) (x : ℕ) : Prop := x / 2 ^ b.free = b.base / 2 ^ b.free

instance (b : Block) (x : ℕ) : Decidable (b.covers x) := inferInstanceAs (Decidable (_ = _))

/-- The base has no bits of its own among the free ones. -/
def Aligned (b : Block) : Prop := b.base % 2 ^ b.free = 0

instance (b : Block) : Decidable b.Aligned := inferInstanceAs (Decidable (_ = _))

theorem covers_iff {b : Block} (aligned : b.Aligned) (x : ℕ) :
    b.covers x ↔ b.base ≤ x ∧ x < b.base + 2 ^ b.free := by
  have positive : 0 < 2 ^ b.free := Nat.two_pow_pos _
  have whole : 2 ^ b.free * (b.base / 2 ^ b.free) = b.base :=
    Nat.mul_div_cancel' (Nat.dvd_of_mod_eq_zero aligned)
  have split := Nat.div_add_mod x (2 ^ b.free)
  have small := Nat.mod_lt x positive
  constructor
  · intro same
    rw [show x / 2 ^ b.free = b.base / 2 ^ b.free from same, whole] at split
    omega
  · rintro ⟨low, high⟩
    apply Nat.div_eq_of_lt_le
    · rw [Nat.mul_comm, whole]
      exact low
    · rw [Nat.mul_comm, Nat.mul_add, whole, Nat.mul_one]
      exact high

/-- A mask that keeps all bits from the `k`-th on keeps what dividing by `2 ^ k` does. -/
theorem and_mask {x w k : ℕ} (bound : x < 2 ^ w) (k_le : k ≤ w) :
    x &&& (2 ^ w - 2 ^ k) = 2 ^ k * (x / 2 ^ k) := by
  have mask : 2 ^ w - 2 ^ k = (2 ^ (w - k) - 1) <<< k := by
    rw [Nat.shiftLeft_eq, Nat.sub_mul, ← Nat.pow_add, Nat.sub_add_cancel k_le, Nat.one_mul]
  have kept : 2 ^ k * (x / 2 ^ k) = (x >>> k) <<< k := by
    rw [Nat.shiftLeft_eq, Nat.shiftRight_eq_div_pow, Nat.mul_comm]
  rw [mask, kept]
  apply Nat.eq_of_testBit_eq
  intro i
  rw [Nat.testBit_and, Nat.testBit_shiftLeft, Nat.testBit_shiftLeft, Nat.testBit_shiftRight,
    Nat.testBit_two_pow_sub_one]
  by_cases below : k ≤ i
  · by_cases inside : i < w
    · have within : i - k < w - k := by omega
      simp [below, within, Nat.add_sub_cancel' below]
    · -- above the width there is nothing to keep
      have wide : 2 ^ w ≤ 2 ^ i := Nat.pow_le_pow_right (by decide) (by omega)
      have zero : x.testBit i = false := Nat.testBit_lt_two_pow (Nat.lt_of_lt_of_le bound wide)
      simp [zero, Nat.add_sub_cancel' below]
  · simp [below]

/-- A test under such a mask is a block. -/
theorem masked_eq_iff {b : Block} {x w : ℕ} (aligned : b.Aligned) (bound : x < 2 ^ w)
    (free_le : b.free ≤ w) : x &&& (2 ^ w - 2 ^ b.free) = b.base ↔ b.covers x := by
  have whole : 2 ^ b.free * (b.base / 2 ^ b.free) = b.base :=
    Nat.mul_div_cancel' (Nat.dvd_of_mod_eq_zero aligned)
  have positive : 0 < 2 ^ b.free := Nat.two_pow_pos _
  rw [and_mask bound free_le]
  constructor
  · intro eq
    rw [← whole] at eq
    exact Nat.eq_of_mul_eq_mul_left positive eq
  · intro same
    rw [show x / 2 ^ b.free = b.base / 2 ^ b.free from same, whole]

/-- Low digits that are all free do not matter. -/
theorem covers_append (b : Block) {hi lo m : ℕ} (small : lo < 2 ^ m) :
    (⟨b.base * 2 ^ m, b.free + m⟩ : Block).covers (hi * 2 ^ m + lo) ↔ b.covers hi := by
  have positive : 0 < 2 ^ m := Nat.two_pow_pos m
  have cut : ∀ x, x / 2 ^ (b.free + m) = x / 2 ^ m / 2 ^ b.free := fun x => by
    rw [Nat.add_comm, Nat.pow_add, Nat.div_div_eq_div_mul]
  have value : (hi * 2 ^ m + lo) / 2 ^ m = hi := by
    rw [Nat.add_comm, Nat.add_mul_div_right _ _ positive, Nat.div_eq_of_lt small, Nat.zero_add]
  unfold covers
  dsimp only
  rw [cut, cut, value, Nat.mul_div_cancel _ positive]

/-- A high digit that is not free is given. -/
theorem covers_cons {b : Block} {x y lo k : ℕ} (base_lt : b.base < 2 ^ k) (lo_lt : lo < 2 ^ k)
    (free_le : b.free ≤ k) :
    (⟨x * 2 ^ k + b.base, b.free⟩ : Block).covers (y * 2 ^ k + lo) ↔ y = x ∧ b.covers lo := by
  have positive : 0 < 2 ^ b.free := Nat.two_pow_pos _
  obtain ⟨j, rfl⟩ := Nat.exists_eq_add_of_le free_le
  -- both numbers are cut inside the low digit
  have cut : ∀ z low, (z * 2 ^ (b.free + j) + low) / 2 ^ b.free =
      low / 2 ^ b.free + z * 2 ^ j := fun z low => by
    rw [Nat.pow_add, ← Nat.mul_assoc, Nat.mul_right_comm, Nat.add_comm,
      Nat.add_mul_div_right _ _ positive]
  have low_lt : ∀ low < 2 ^ (b.free + j), low / 2 ^ b.free < 2 ^ j := fun low lt => by
    apply Nat.div_lt_of_lt_mul
    rwa [← Nat.pow_add]
  have lo_small := low_lt lo lo_lt
  have base_small := low_lt b.base base_lt
  unfold covers
  dsimp only
  rw [cut, cut]
  constructor
  · intro same
    have digit := congrArg (· / 2 ^ j) same
    rw [Nat.add_mul_div_right _ _ (Nat.two_pow_pos j), Nat.div_eq_of_lt lo_small,
      Nat.add_mul_div_right _ _ (Nat.two_pow_pos j), Nat.div_eq_of_lt base_small, Nat.zero_add,
      Nat.zero_add] at digit
    subst digit
    exact ⟨rfl, Nat.add_right_cancel same⟩
  · rintro ⟨rfl, same⟩
    rw [same]

/-! ## Digits -/

/-- The number with these digits of `k` bits, the highest first. -/
def number (k : ℕ) : List ℕ → ℕ
  | [] => 0
  | d :: ds => d * 2 ^ (k * ds.length) + number k ds

theorem number_lt {k : ℕ} {ds : List ℕ} (digits : ∀ d ∈ ds, d < 2 ^ k) :
    number k ds < 2 ^ (k * ds.length) := by
  induction ds with
  | nil => exact Nat.two_pow_pos _
  | cons d ds ih =>
    have rest := ih fun e mem => digits e (.tail d mem)
    have first : d + 1 ≤ 2 ^ k := digits d (.head ds)
    calc number k (d :: ds) < d * 2 ^ (k * ds.length) + 2 ^ (k * ds.length) :=
          Nat.add_lt_add_left rest _
      _ = (d + 1) * 2 ^ (k * ds.length) := (Nat.succ_mul _ _).symm
      _ ≤ 2 ^ k * 2 ^ (k * ds.length) := Nat.mul_le_mul_right _ first
      _ = 2 ^ (k * (d :: ds).length) := by
        rw [← Nat.pow_add, List.length_cons, Nat.mul_succ, Nat.add_comm]

theorem number_zeros (k n : ℕ) : number k (List.replicate n 0) = 0 := by
  induction n with
  | zero => rfl
  | succ n ih => rw [List.replicate_succ, number, Nat.zero_mul, ih]

/-- The numbers that begin with the digits of `full` and go on with one from `part`; `rest` more
digits follow. -/
def prefixed (k : ℕ) (full : List ℕ) (part : Block) (rest : ℕ) : Block :=
  ⟨number k (full ++ part.base :: List.replicate rest 0), part.free + k * rest⟩

theorem covers_prefixed (ds full : List ℕ) (part : Block) {k x : ℕ} {lo : List ℕ}
    (len : ds.length = full.length) (given : ∀ d ∈ full, d < 2 ^ k) (part_lt : part.base < 2 ^ k)
    (free_le : part.free ≤ k) (digits : ∀ d ∈ ds ++ x :: lo, d < 2 ^ k) :
    (prefixed k full part lo.length).covers (number k (ds ++ x :: lo)) ↔
      ds = full ∧ part.covers x := by
  -- induction on the full digits: the first must agree, the rest is a shorter block
  induction full generalizing ds with
  | nil =>
    obtain rfl := List.length_eq_zero_iff.1 len
    have small := number_lt (k := k) fun d mem => digits d (.tail x mem)
    have block : prefixed k [] part lo.length =
        ⟨part.base * 2 ^ (k * lo.length), part.free + k * lo.length⟩ := by
      simp [prefixed, number, number_zeros]
    rw [block]
    exact (part.covers_append small).trans (by simp)
  | cons y full ih =>
    cases ds with
    | nil => cases len
    | cons d ds =>
      have same : ds.length = full.length := Nat.succ.inj len
      have inner := ih _ same (fun e mem => given e (.tail y mem)) fun e mem => digits e (.tail d mem)
      have long : (full ++ part.base :: List.replicate lo.length 0).length =
          (ds ++ x :: lo).length := by simp [same]
      have block : prefixed k (y :: full) part lo.length =
          ⟨y * 2 ^ (k * (ds ++ x :: lo).length) + (prefixed k full part lo.length).base,
            (prefixed k full part lo.length).free⟩ := by
        rw [← long]
        rfl
      -- what the tail's block spans stays below the first digit
      have base_lt : (prefixed k full part lo.length).base < 2 ^ (k * (ds ++ x :: lo).length) := by
        rw [← long]
        apply number_lt
        intro e mem
        rcases List.mem_append.1 mem with front | back
        · exact given e (.tail y front)
        · rcases List.mem_cons.1 back with rfl | zero
          · exact part_lt
          · rw [List.eq_of_mem_replicate zero]
            exact Nat.two_pow_pos k
      have free_le' : (prefixed k full part lo.length).free ≤ k * (ds ++ x :: lo).length := by
        simp only [prefixed, List.length_append, List.length_cons, Nat.mul_add, Nat.mul_one]
        omega
      rw [block]
      refine (covers_cons base_lt (number_lt fun e mem => digits e (.tail d mem)) free_le').trans ?_
      rw [inner, List.cons.injEq, and_assoc]

end Block

end GhostKey.Foundation

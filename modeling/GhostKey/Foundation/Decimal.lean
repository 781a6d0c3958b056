import Mathlib.Data.List.Basic
import Mathlib.Algebra.Order.Group.Nat

/-!
# Decimals Compared as Texts

Texts in the order of their first differing letter, and decimals of a fixed width in
it: fields of one width compare as numbers, and of two decimals of different widths the
wider one is cut to the width of the other first.

Main results:
- `digits_append_lt_iff`: a field decides, or what follows it does.
- `short_lt_long_iff`, `long_lt_short_iff`: fields of different widths, before a letter
  that sorts below the digits.
-/

namespace GhostKey.Foundation.Decimal

variable {r s : List Char}

/-! ## §1 First letters -/

/-- A common letter decides nothing. -/
theorem cons_lt_cons_same {c : Char} : c :: r < c :: s ↔ r < s := by simp

theorem cons_lt_cons_of_lt {c d : Char} (lt : c < d) : c :: r < d :: s :=
  List.cons_lt_cons_iff.2 (.inl lt)

theorem not_cons_lt_cons_of_lt {c d : Char} (lt : d < c) : ¬ c :: r < d :: s := by
  intro below
  rcases List.cons_lt_cons_iff.1 below with above | ⟨rfl, -⟩
  · exact absurd above (Char.lt_asymm lt)
  · exact absurd lt (Char.lt_irrefl c)

/-! ## §2 Decimals of a fixed width -/

/-- The last `w` decimal digits of `n`. -/
def digits : Nat → Nat → List Char
  | 0, _ => []
  | w + 1, n => digits w (n / 10) ++ [Nat.digitChar (n % 10)]

theorem digitChar_lt_iff : ∀ n < 10, ∀ m < 10, (Nat.digitChar n < Nat.digitChar m ↔ n < m) := by
  decide

theorem digitChar_inj : ∀ n < 10, ∀ m < 10, (Nat.digitChar n = Nat.digitChar m ↔ n = m) := by
  decide

theorem digitChar_above : ∀ n < 10, '/' < Nat.digitChar n := by decide

/-- A field of one width decides as a number does, or what follows it decides. -/
theorem digits_append_lt_iff {w n m : Nat} (hn : n < 10 ^ w) (hm : m < 10 ^ w) :
    digits w n ++ r < digits w m ++ s ↔ n < m ∨ n = m ∧ r < s := by
  induction w generalizing n m r s with
  | zero =>
    rw [pow_zero, Nat.lt_one_iff] at hn hm
    simp [digits, hn, hm]
  | succ w ih =>
    rw [pow_succ] at hn hm
    have front : n / 10 < 10 ^ w ∧ m / 10 < 10 ^ w := by omega
    have less := digitChar_lt_iff (n % 10) (by omega) (m % 10) (by omega)
    have same := digitChar_inj (n % 10) (by omega) (m % 10) (by omega)
    simp only [digits, List.append_assoc, List.singleton_append]
    rw [ih front.1 front.2, List.cons_lt_cons_iff, less, same]
    by_cases rest : r < s
    · simp only [rest, and_true]
      omega
    · simp only [rest, and_false, or_false]
      omega

/-- A field falls apart into two. -/
theorem digits_add (a b n : Nat) :
    digits (a + b) n = digits a (n / 10 ^ b) ++ digits b (n % 10 ^ b) := by
  induction b generalizing n with
  | zero => simp [digits]
  | succ b ih =>
    have high : n / 10 / 10 ^ b = n / 10 ^ (b + 1) := by
      rw [Nat.div_div_eq_div_mul, pow_succ, Nat.mul_comm]
    have middle : n % 10 ^ (b + 1) / 10 = n / 10 % 10 ^ b := by
      rw [pow_succ, Nat.mul_comm, Nat.mod_mul_right_div_self]
    have low : n % 10 ^ (b + 1) % 10 = n % 10 :=
      Nat.mod_mod_of_dvd n ⟨10 ^ b, by rw [pow_succ, Nat.mul_comm]⟩
    rw [← Nat.add_assoc, digits, digits, ih, high, middle, low, List.append_assoc]

theorem digits_head {w : Nat} (pos : 0 < w) (n : Nat) :
    ∃ c rest, digits w n = c :: rest ∧ '/' < c := by
  obtain ⟨w, rfl⟩ := Nat.exists_eq_succ_of_ne_zero (Nat.pos_iff_ne_zero.1 pos)
  refine ⟨Nat.digitChar (n / 10 ^ w % 10), digits w (n % 10 ^ w), ?_,
    digitChar_above _ (Nat.mod_lt _ (by decide))⟩
  rw [Nat.succ_eq_one_add, digits_add]
  simp [digits]

/-! ## §3 Decimals of different widths -/

variable {w b n m : Nat} {c : Char}

theorem front_lt (hm : m < 10 ^ (w + b)) : m / 10 ^ b < 10 ^ w := by
  rw [Nat.div_lt_iff_lt_mul (Nat.pow_pos (by decide)), ← pow_add]
  exact hm

/-- A shorter decimal sorts before a longer one if it is at most the front of it. -/
theorem short_lt_long_iff (pos : 0 < b) (below : c < '/') (hn : n < 10 ^ w)
    (hm : m < 10 ^ (w + b)) :
    digits w n ++ c :: r < digits (w + b) m ++ s ↔ n ≤ m / 10 ^ b := by
  have front := front_lt hm
  obtain ⟨d, rest, head, above⟩ := digits_head pos (m % 10 ^ b)
  have turn : c :: r < d :: (rest ++ s) := cons_lt_cons_of_lt (Char.lt_trans below above)
  rw [digits_add, List.append_assoc, digits_append_lt_iff hn front, head, List.cons_append]
  simp only [turn, and_true]
  exact Nat.le_iff_lt_or_eq.symm

/-- A longer decimal sorts before a shorter one if its front is less. -/
theorem long_lt_short_iff (pos : 0 < b) (below : c < '/') (hn : n < 10 ^ w)
    (hm : m < 10 ^ (w + b)) :
    digits (w + b) m ++ s < digits w n ++ c :: r ↔ m / 10 ^ b < n := by
  have front := front_lt hm
  obtain ⟨d, rest, head, above⟩ := digits_head pos (m % 10 ^ b)
  have turn : ¬ d :: (rest ++ s) < c :: r := not_cons_lt_cons_of_lt (Char.lt_trans below above)
  rw [digits_add, List.append_assoc, digits_append_lt_iff front hn, head, List.cons_append]
  simp only [turn, and_false, or_false]

end GhostKey.Foundation.Decimal

import Mathlib.Algebra.Ring.Nat
import Mathlib.Data.List.Basic
import Mathlib.Data.Nat.Notation

/-!
# Numerals

Numbers written in a base up to sixteen, without leading zeros, and the value of a text of digits.

Main results:
- `value_toDigits`: a numeral has the value it was written for.
- `isDigit_of_mem`, `head_toDigits`: it is made of digits, and a positive one begins with no zero.
- `takeWhile_digits`, `dropWhile_digits`: it ends where the digits end.
-/

namespace GhostKey.Foundation.Numeral

/-- The value of a letter as a digit of any base up to 36, or 36. -/
def digitValue (c : Char) : ℕ :=
  let n := c.toNat
  if 48 ≤ n ∧ n ≤ 57 then n - 48
  else if 97 ≤ n ∧ n ≤ 122 then n - 87
  else if 65 ≤ n ∧ n ≤ 90 then n - 55
  else 36

def isDigit (base : ℕ) (c : Char) : Bool := digitValue c < base

/-- The value of some digits. -/
def value (base : ℕ) (ds : List Char) : ℕ := ds.foldl (fun n c => n * base + digitValue c) 0

theorem digitValue_digitChar : ∀ d < 16, digitValue (Nat.digitChar d) = d := by decide

theorem digitChar_ne_zero : ∀ d < 16, 0 < d → Nat.digitChar d ≠ '0' := by decide

theorem value_concat (base : ℕ) (ds : List Char) (c : Char) :
    value base (ds ++ [c]) = value base ds * base + digitValue c :=
  List.foldl_concat ..

section
variable {base n : ℕ} (one_lt : 1 < base) (le : base ≤ 16)

include one_lt le

theorem value_toDigits (n : ℕ) : value base (Nat.toDigits base n) = n := by
  induction n using Nat.strongRecOn with
  | ind n ih =>
    by_cases small : n < base
    · rw [Nat.toDigits_of_lt_base small]
      simp [value, digitValue_digitChar n (by omega)]
    · have front := ih (n / base) (Nat.div_lt_self (by omega) one_lt)
      have last_lt : n % base < base := Nat.mod_lt n (by omega)
      have last := digitValue_digitChar (n % base) (by omega)
      rw [Nat.toDigits_of_base_le one_lt (by omega), value_concat, front, last, Nat.mul_comm,
        Nat.div_add_mod]

theorem isDigit_of_mem {c : Char} (mem : c ∈ Nat.toDigits base n) : isDigit base c = true := by
  have digit : ∀ d < base, isDigit base (Nat.digitChar d) = true := by
    intro d lt
    simp [isDigit, digitValue_digitChar d (by omega), lt]
  induction n using Nat.strongRecOn with
  | ind n ih =>
    by_cases small : n < base
    · rw [Nat.toDigits_of_lt_base small, List.mem_singleton] at mem
      rw [mem]
      exact digit n small
    · rw [Nat.toDigits_of_base_le one_lt (by omega), List.mem_append, List.mem_singleton] at mem
      rcases mem with front | rfl
      · exact ih (n / base) (Nat.div_lt_self (by omega) one_lt) front
      · exact digit _ (Nat.mod_lt n (by omega))

theorem head_toDigits (pos : 0 < n) : (Nat.toDigits base n).head? ≠ some '0' := by
  induction n using Nat.strongRecOn with
  | ind n ih =>
    by_cases small : n < base
    · rw [Nat.toDigits_of_lt_base small]
      simpa using digitChar_ne_zero n (by omega) pos
    · have front := ih (n / base) (Nat.div_lt_self pos one_lt) (Nat.div_pos (by omega) (by omega))
      rw [Nat.toDigits_of_base_le one_lt (by omega), List.head?_append_of_ne_nil]
      · exact front
      · exact Nat.toDigits_ne_nil

/-- A numeral ends where what follows it is no digit. -/
theorem takeWhile_digits {rest : List Char} (stop : ∀ c ∈ rest.head?, isDigit base c = false) :
    (Nat.toDigits base n ++ rest).takeWhile (isDigit base) = Nat.toDigits base n := by
  rw [List.takeWhile_append_of_pos fun c mem => isDigit_of_mem one_lt le mem]
  cases rest with
  | nil => simp
  | cons c rest => simp [stop c (by simp)]

theorem dropWhile_digits {rest : List Char} (stop : ∀ c ∈ rest.head?, isDigit base c = false) :
    (Nat.toDigits base n ++ rest).dropWhile (isDigit base) = rest := by
  rw [List.dropWhile_append_of_pos fun c mem => isDigit_of_mem one_lt le mem]
  cases rest with
  | nil => rfl
  | cons c rest => simp [stop c (by simp)]

end

end GhostKey.Foundation.Numeral

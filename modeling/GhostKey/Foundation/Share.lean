import Mathlib.Algebra.BigOperators.Group.List.Basic
import Mathlib.Algebra.Order.Monoid.Canonical.Defs

/-!
# Shares of a Sum

A list of entries with amounts, and the part of the total that the entries of one kind come
to. The amounts may be of any kind in which nothing is owed: they are added up, and none is
less than nothing.

Main results:
- `share_add_rest`: a share and the share of the rest come to the total.
- `share_eq_zero_iff`, `share_eq_total_iff`: when a share is nothing, or everything.
-/

namespace GhostKey.Foundation

variable {α M : Type*}

section Share

variable [AddCommMonoid M]

/-- What the entries that satisfy `p` come to. -/
def share (p : α → Bool) (amount : α → M) (entries : List α) : M :=
  ((entries.filter p).map amount).sum

variable (p : α → Bool) (amount : α → M)

@[simp] theorem share_nil : share p amount [] = 0 := rfl

theorem share_cons (a : α) (entries : List α) :
    share p amount (a :: entries) = (if p a then amount a else 0) + share p amount entries := by
  unfold share
  by_cases holds : p a = true <;> simp [holds]

/-- A share and the share of the rest come to the total. -/
theorem share_add_rest (entries : List α) :
    share p amount entries + share (fun a => !p a) amount entries = (entries.map amount).sum := by
  induction entries with
  | nil => simp
  | cons a entries ih =>
    rw [share_cons, share_cons, List.map_cons, List.sum_cons, ← ih]
    by_cases holds : p a = true
    · simp only [holds, if_true, Bool.not_true, Bool.false_eq_true, if_false, zero_add]
      exact add_assoc _ _ _
    · simp only [holds, if_false, Bool.not_false, if_true, zero_add, Bool.false_eq_true]
      exact add_left_comm _ _ _

end Share

section Order

variable [AddCommMonoid M] [PartialOrder M] [CanonicallyOrderedAdd M]
  (p : α → Bool) (amount : α → M)

theorem share_eq_zero_iff (entries : List α) :
    share p amount entries = 0 ↔ ∀ a ∈ entries, p a = true → amount a = 0 := by
  induction entries with
  | nil => simp
  | cons a entries ih =>
    rw [share_cons, add_eq_zero, ih, List.forall_mem_cons]
    by_cases holds : p a = true <;> simp [holds]

theorem share_le_total (entries : List α) :
    share p amount entries ≤ (entries.map amount).sum := by
  rw [← share_add_rest p amount entries]
  exact le_self_add

/-- A share is everything when the other entries come to nothing. -/
theorem share_eq_total_iff [IsLeftCancelAdd M] (entries : List α) :
    share p amount entries = (entries.map amount).sum ↔
      ∀ a ∈ entries, p a = false → amount a = 0 := by
  rw [← share_add_rest p amount entries, left_eq_add, share_eq_zero_iff]
  simp

end Order

end GhostKey.Foundation

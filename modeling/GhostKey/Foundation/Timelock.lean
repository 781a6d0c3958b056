import Mathlib.Algebra.Ring.Nat
import Mathlib.Data.Nat.Notation

/-!
# Bitcoin Time Locks

When a block may hold a transaction, and when a script accepts the locks its inputs
carry. A transaction is described as far as its locks go: the coins it spends, the one
`nSequence` of all its inputs, and its `nLockTime`.

Main results:
- `relativeBlocks_of_le`: a sequence up to 65535 is a lock of that many blocks.
- `Spend.acceptedAt_iff`: what acceptance at a height comes down to.
-/

namespace GhostKey.Foundation.Timelock

/-- `nSequence` asks for a depth in blocks, unless its disable flag is set, or its type
flag, which makes it a span of time. -/
def relativeBlocks (sequence : Nat) : Option Nat :=
  if sequence.testBit 31 || sequence.testBit 22 then none else some (sequence % 2 ^ 16)

/-- An `nLockTime` below this is a height. -/
def lockTimeThreshold : Nat := 500000000

theorem relativeBlocks_of_le {n : Nat} (le : n ≤ 0xFFFF) : relativeBlocks n = some n := by
  have low : n < 2 ^ 16 := by omega
  have clear : ∀ flag, 16 ≤ flag → n.testBit flag = false := fun flag high =>
    Nat.testBit_lt_two_pow (Nat.lt_of_lt_of_le low (Nat.pow_le_pow_right (by decide) high))
  unfold relativeBlocks
  rw [clear 31 (by decide), clear 22 (by decide), Nat.mod_eq_of_lt low]
  rfl

/-- The locks of a transaction over coins of type `α`. -/
structure Spend (α : Type) where
  coins : List α
  sequence : Nat
  lockTime : Nat

namespace Spend

variable {α : Type} (confirmedAt : α → Option Nat) (tx : Spend α)

/-- A block of this height may hold the transaction: its `nLockTime` is past, and each
coin is as deep as `nSequence` asks. -/
structure FinalAt (height : Nat) : Prop where
  past : tx.lockTime < height ∨ tx.lockTime = 0
  deep : ∀ blocks, relativeBlocks tx.sequence = some blocks → ∀ coin ∈ tx.coins,
    ∃ confirmed, confirmedAt coin = some confirmed ∧ confirmed + blocks ≤ height

/-- `older(blocks)` in a script accepts the inputs. -/
def Older (blocks : Nat) : Prop :=
  ∃ asked, relativeBlocks tx.sequence = some asked ∧ blocks ≤ asked

/-- `after(height)` in a script accepts the inputs. -/
def After (height : Nat) : Prop :=
  height ≤ tx.lockTime ∧ tx.lockTime < lockTimeThreshold ∧ tx.sequence ≠ 0xFFFFFFFF

/-- The transaction may stand in a block of this height, and meets `older(blocks)` and,
where the script has one, `after(unlock)`. -/
structure AcceptedAt (blocks : Nat) (unlock : Option Nat) (height : Nat) : Prop where
  final : tx.FinalAt confirmedAt height
  older : tx.Older blocks
  after : ∀ h ∈ unlock, tx.After h

variable {confirmedAt tx}

/-- For a transaction that carries the lock its script asks for. -/
theorem acceptedAt_iff {blocks height : Nat} {unlock : Option Nat} (le : blocks ≤ 0xFFFF)
    (sequence : tx.sequence = blocks) (past : tx.lockTime < height ∨ tx.lockTime = 0)
    (low : tx.lockTime < lockTimeThreshold) :
    tx.AcceptedAt confirmedAt blocks unlock height ↔
      (∀ coin ∈ tx.coins, ∃ confirmed, confirmedAt coin = some confirmed ∧
        confirmed + blocks ≤ height) ∧ ∀ h ∈ unlock, h ≤ tx.lockTime := by
  have asked : relativeBlocks tx.sequence = some blocks := by
    rw [sequence]
    exact relativeBlocks_of_le le
  constructor
  · intro accepted
    refine ⟨accepted.final.deep blocks asked, ?_⟩
    intro h asks
    exact (accepted.after h asks).1
  · rintro ⟨deep, after⟩
    have final : tx.FinalAt confirmedAt height := by
      refine ⟨past, ?_⟩
      intro n same
      rw [asked] at same
      cases same
      exact deep
    refine ⟨final, ⟨blocks, asked, Nat.le_refl blocks⟩, ?_⟩
    intro h asks
    exact ⟨after h asks, low, by omega⟩

end Spend

end GhostKey.Foundation.Timelock

import Mathlib.Tactic.Common

/-!
# Transactions

A transaction runs its statements one after the other on a copy of the tables. Any of them
may not be taken, and so may the commit; then the tables stay as they were.

Main results:
- `Steady`: a transaction runs undisturbed or ends in a fault. Kept by sequencing.
- `commit_cases`: what is committed is the whole of what an undisturbed run commits, or
  nothing.
-/

namespace GhostKey.Foundation

/-- A part of a transaction on tables `W`. It starts at the `n`-th statement, and where
`faults n` is some error that statement is not taken. -/
def TxPart (W ε α : Type) := (Nat → Option ε) → Nat → W → Except ε (α × Nat × W)

namespace TxPart

variable {W ε α β : Type}

def done (a : α) : TxPart W ε α := fun _ n w => .ok (a, n, w)

/-- The transaction is given up. -/
def fail (e : ε) : TxPart W ε α := fun _ _ _ => .error e

/-- One statement, with its answer. -/
def stmt (f : W → α × W) : TxPart W ε α := fun faults n w =>
  match faults n with
  | some e => .error e
  | none => .ok ((f w).1, n + 1, (f w).2)

def bind (t : TxPart W ε α) (f : α → TxPart W ε β) : TxPart W ε β := fun faults n w =>
  match t faults n w with
  | .error e => .error e
  | .ok (a, n', w') => f a faults n' w'

instance : Monad (TxPart W ε) where
  pure := done
  bind := bind

/-- Nothing goes wrong. -/
def calm : Nat → Option ε := fun _ => none

/-- The transaction with its commit, which is the last statement. -/
def commit (t : TxPart W ε α) (faults : Nat → Option ε) (w : W) : Except ε α × W :=
  match t faults 0 w with
  | .error e => (.error e, w)
  | .ok (a, n, w') =>
      match faults n with
      | some e => (.error e, w)
      | none => (.ok a, w')

@[simp] theorem pure_eq (a : α) : (pure a : TxPart W ε α) = done a := rfl

@[simp] theorem bind_eq (t : TxPart W ε α) (f : α → TxPart W ε β) : t >>= f = t.bind f := rfl

@[simp] theorem done_apply (a : α) (faults : Nat → Option ε) (n : Nat) (w : W) :
    (done a : TxPart W ε α) faults n w = .ok (a, n, w) := rfl

@[simp] theorem fail_apply (e : ε) (faults : Nat → Option ε) (n : Nat) (w : W) :
    (fail e : TxPart W ε α) faults n w = .error e := rfl

@[simp] theorem stmt_calm (f : W → α × W) (n : Nat) (w : W) :
    (stmt f : TxPart W ε α) calm n w = .ok ((f w).1, n + 1, (f w).2) := rfl

theorem bind_apply (t : TxPart W ε α) (f : α → TxPart W ε β) (faults : Nat → Option ε) (n : Nat)
    (w : W) :
    t.bind f faults n w =
      match t faults n w with
      | .error e => .error e
      | .ok (a, n', w') => f a faults n' w' := rfl

/-- It runs undisturbed, or a fault is what it ends in. -/
def Steady (t : TxPart W ε α) : Prop :=
  ∀ faults n w, (∃ e m, faults m = some e ∧ t faults n w = .error e) ∨ t faults n w = t calm n w

theorem steady_done (a : α) : Steady (done a : TxPart W ε α) := fun _ _ _ => .inr rfl

theorem steady_fail (e : ε) : Steady (fail e : TxPart W ε α) := fun _ _ _ => .inr rfl

theorem steady_stmt (f : W → α × W) : Steady (stmt f : TxPart W ε α) := by
  intro faults n w
  unfold stmt
  cases fault : faults n with
  | some e => exact .inl ⟨e, n, fault, rfl⟩
  | none => exact .inr rfl

theorem steady_bind {t : TxPart W ε α} {f : α → TxPart W ε β} (first : Steady t)
    (rest : ∀ a, Steady (f a)) : Steady (t.bind f) := by
  intro faults n w
  rw [bind_apply, bind_apply]
  rcases first faults n w with ⟨e, m, fault, ended⟩ | same
  · rw [ended]
    exact .inl ⟨e, m, fault, rfl⟩
  · rw [same]
    cases t calm n w with
    | error e => exact .inr rfl
    | ok mid =>
      obtain ⟨a, n', w'⟩ := mid
      exact rest a faults n' w'

theorem steady_ite {c : Prop} [Decidable c] {t t' : TxPart W ε α} (yes : Steady t)
    (no : Steady t') :
    Steady (if c then t else t') := by
  split
  · exact yes
  · exact no

/-- All or nothing. -/
theorem commit_cases {t : TxPart W ε α} (steady : Steady t) (faults : Nat → Option ε) (w : W) :
    (∃ e m, faults m = some e ∧ t.commit faults w = (.error e, w)) ∨
      t.commit faults w = t.commit calm w := by
  unfold commit
  rcases steady faults 0 w with ⟨e, m, fault, ended⟩ | same
  · rw [ended]
    exact .inl ⟨e, m, fault, rfl⟩
  · rw [same]
    cases t calm 0 w with
    | error e => exact .inr rfl
    | ok out =>
      obtain ⟨a, n, w'⟩ := out
      dsimp only
      -- the commit itself may fail
      cases fault : faults n with
      | some e => exact .inl ⟨e, n, fault, rfl⟩
      | none => exact .inr rfl

end TxPart

end GhostKey.Foundation

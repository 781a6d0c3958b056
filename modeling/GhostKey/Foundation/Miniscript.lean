import GhostKey.Foundation.Timelock
import Mathlib.Data.Nat.Digits.Lemmas
import Mathlib.Data.List.Basic

/-!
# Miniscript Fragments in Tapscript

A miniscript fragment names a piece of script. What a witness can make of the script is
found by running it; what the fragment means is read off its shape. For a fragment with a
type the two agree, whatever stands on the stack below its arguments.

Layers:
1. the stack and the transaction's fields the lock opcodes look at;
2. scripts and their execution;
3. fragments, their scripts, their meaning and their types;
4. `HasType.runs`: what the script of a typed fragment does to any stack;
5. `HasType.accepts_iff`: a fragment of the top type can be satisfied exactly when it holds.
-/

namespace GhostKey.Foundation

open Timelock (lockTimeThreshold)

/-! ## §1 Stacks and transactions -/

abbrev Bytes := List UInt8

/-- `CastToBool`: some byte is not zero, a sign bit on its own aside. -/
def truthy : Bytes → Bool
  | [] => false
  | [b] => b ≠ 0 && b ≠ 0x80
  | b :: c :: rest => b ≠ 0 || truthy (c :: rest)

/-- `CScriptNum::serialize` of a number that is not negative: the least significant byte
first, and one more byte where the last one would read as a sign. -/
def scriptNum (n : Nat) : Bytes :=
  let digits := (Nat.digits 256 n).map UInt8.ofNat
  if (digits.getLast?.any (0x80 ≤ ·)) then digits ++ [0] else digits

/-- The number an arithmetic opcode reads, as far as it is zero or not: of at most four
bytes. -/
def operand (bytes : Bytes) : Option Bool := if bytes.length ≤ 4 then some (truthy bytes) else none

/-- What a script pushes for the result of a test. -/
def ofBool (b : Bool) : Bytes := if b then [1] else []

theorem truthy_snoc (front : Bytes) (last : UInt8) :
    truthy (front ++ [last]) = (front.any (· ≠ 0) || (last ≠ 0 && last ≠ 0x80)) := by
  induction front with
  | nil => simp [truthy]
  | cons b front ih =>
    cases front with
    | nil => simp [truthy]
    | cons c rest =>
      rw [List.cons_append, List.cons_append, truthy, ← List.cons_append, ih]
      simp [Bool.or_assoc]

/-- A number that is not zero is true. -/
theorem truthy_scriptNum {n : Nat} (pos : 0 < n) : truthy (scriptNum n) = true := by
  have nonempty : Nat.digits 256 n ≠ [] := Nat.digits_ne_nil_iff_ne_zero.2 (Nat.ne_of_gt pos)
  obtain ⟨front, top, split⟩ : ∃ front top, Nat.digits 256 n = front ++ [top] :=
    ⟨_, _, (List.dropLast_append_getLast nonempty).symm⟩
  have mem : top ∈ Nat.digits 256 n := by simp [split]
  have small : top < 256 := Nat.digits_lt_base (by decide) mem
  have top_pos : top ≠ 0 := by
    have last := Nat.getLast_digit_ne_zero 256 (Nat.ne_of_gt pos)
    simpa [split] using last
  have byte : (UInt8.ofNat top).toNat = top := by
    rw [UInt8.toNat_ofNat']
    omega
  have byte_pos : UInt8.ofNat top ≠ 0 := by
    intro zero
    rw [zero] at byte
    exact top_pos byte.symm
  unfold scriptNum
  simp only [split, List.map_append, List.map_cons, List.map_nil, List.getLast?_append,
    List.getLast?_singleton]
  split
  · rw [truthy_snoc]
    simp [byte_pos]
  · next low =>
    have not_sign : UInt8.ofNat top ≠ 0x80 := by
      intro sign
      simp [sign] at low
    rw [truthy_snoc]
    simp [byte_pos, not_sign]

/-- What the opcodes see of the transaction that spends an output: which texts are valid
signatures under which keys, the input's sequence number and the lock time. -/
structure SignedInput (K : Type) where
  signed : K → Bytes → Bool
  sequence : Nat
  lockTime : Nat

/-- BIP 68: the sequence number asks for no relative lock. -/
def lockDisabled (n : Nat) : Prop := n / 2 ^ 31 % 2 = 1

/-- BIP 68: the relative lock is one of time. -/
def lockOfTime (n : Nat) : Prop := n / 2 ^ 22 % 2 = 1

namespace SignedInput

variable {K : Type} (tx : SignedInput K)

/-- BIP 112: `CHECKSEQUENCEVERIFY` lets `n` pass. -/
def OlderMet (n : Nat) : Prop :=
  lockDisabled n ∨
    ¬ lockDisabled tx.sequence ∧ (lockOfTime n ↔ lockOfTime tx.sequence) ∧
      n % 2 ^ 16 ≤ tx.sequence % 2 ^ 16

/-- BIP 65: `CHECKLOCKTIMEVERIFY` lets `n` pass. -/
def AfterMet (n : Nat) : Prop :=
  (n < lockTimeThreshold ↔ tx.lockTime < lockTimeThreshold) ∧ n ≤ tx.lockTime ∧
    tx.sequence ≠ 0xffffffff

instance (n : Nat) : Decidable (tx.OlderMet n) := by
  unfold OlderMet lockDisabled lockOfTime
  infer_instance

instance (n : Nat) : Decidable (tx.AfterMet n) := by
  unfold AfterMet
  infer_instance

/-- The spender has a signature for the key. -/
def Signs (k : K) : Prop := ∃ sig, sig ≠ [] ∧ tx.signed k sig = true

/-- The consensus rules on the locks: an input whose output is `age` blocks old may ask for
no more blocks, and a height the transaction waits for is no more than `height`. -/
def Final (age height : Nat) : Prop :=
  (¬ lockDisabled tx.sequence → ¬ lockOfTime tx.sequence → tx.sequence % 2 ^ 16 ≤ age) ∧
    (tx.lockTime < lockTimeThreshold → tx.sequence ≠ 0xffffffff → tx.lockTime ≤ height)

variable {tx} {age height n : Nat} {lock : Option Nat}

/-- A relative lock of blocks passes only as many blocks after the output. -/
theorem OlderMet.le (met : tx.OlderMet n) (final : tx.Final age height) (blocks : n < 2 ^ 16) :
    n ≤ age := by
  have enabled : ¬ lockDisabled n := by
    unfold lockDisabled
    omega
  have of_blocks : ¬ lockOfTime n := by
    unfold lockOfTime
    omega
  obtain ⟨enabled', kind, le⟩ := met.resolve_left enabled
  have reached := final.1 enabled' fun time => of_blocks (kind.2 time)
  omega

/-- An absolute lock of a height passes only from that height on. -/
theorem AfterMet.le (met : tx.AfterMet n) (final : tx.Final age height)
    (is_height : n < lockTimeThreshold) : n ≤ height := by
  obtain ⟨kind, le, open_⟩ := met
  exact Nat.le_trans le (final.2 (kind.1 is_height) open_)

/-- Some final transaction passes a lock of blocks and one of a height, if it is there,
exactly when both have run out. -/
theorem exists_final_iff (signed : K → Bytes → Bool) (age height : Nat) (blocks : n < 2 ^ 16)
    (heights : ∀ h ∈ lock, h < lockTimeThreshold) :
    (∃ tx : SignedInput K, tx.signed = signed ∧ tx.Final age height ∧ tx.OlderMet n ∧
      ∀ h ∈ lock, tx.AfterMet h) ↔ n ≤ age ∧ ∀ h ∈ lock, h ≤ height := by
  constructor
  · rintro ⟨tx, -, final, older, after⟩
    exact ⟨older.le final blocks, fun h mem => (after h mem).le final (heights h mem)⟩
  · rintro ⟨old, high⟩
    -- the transaction names the locks themselves
    refine ⟨⟨signed, n, lock.getD 0⟩, rfl, ⟨fun _ _ => ?_, fun _ _ => ?_⟩, .inr ⟨?_, Iff.rfl, ?_⟩,
      fun h mem => ?_⟩
    · exact Nat.le_trans (Nat.mod_le n _) old
    · cases lock with
      | none => exact Nat.zero_le height
      | some h => exact high h rfl
    · show ¬ lockDisabled n
      unfold lockDisabled
      omega
    · exact Nat.le_refl _
    · obtain rfl := Option.mem_def.1 mem
      exact ⟨Iff.rfl, Nat.le_refl h, by show n ≠ _; omega⟩

/-- Some transaction is final at any age and height. -/
theorem exists_final (signed : K → Bytes → Bool) (age height : Nat) :
    ∃ tx : SignedInput K, tx.signed = signed ∧ tx.Final age height :=
  ⟨⟨signed, 0, 0⟩, rfl, fun _ _ => Nat.zero_le age, fun _ _ => Nat.zero_le height⟩

end SignedInput

/-! ## §2 Scripts -/

/-- Tapscript, as far as the fragments below use it. A key or a number stands in front of
the one opcode that reads it. -/
inductive Script (K : Type) where
  | checkSig (key : K)
  | checkSequenceVerify (n : Nat)
  | checkLockTimeVerify (n : Nat)
  | verify
  | swap
  | boolOr
  | ifDup
  | notIf (body : Script K)
  | seq (first second : Script K)

/-- Run a script on a stack, its top first; `none` is failure. -/
def Script.exec {K : Type} (tx : SignedInput K) : Script K → List Bytes → Option (List Bytes)
  | .checkSig k, sig :: st =>
      -- an empty signature is a no; any other one has to be right
      if sig = [] then some ([] :: st)
      else if tx.signed k sig then some ([1] :: st) else none
  | .checkSequenceVerify n, st => if tx.OlderMet n then some (scriptNum n :: st) else none
  | .checkLockTimeVerify n, st => if tx.AfterMet n then some (scriptNum n :: st) else none
  | .verify, x :: st => if truthy x then some st else none
  | .swap, x :: y :: st => some (y :: x :: st)
  | .boolOr, x :: y :: st => do
      let a ← operand x
      let b ← operand y
      some (ofBool (a || b) :: st)
  | .ifDup, x :: st => some (if truthy x then x :: x :: st else x :: st)
  | .notIf body, x :: st =>
      -- the condition has to be minimal
      if x = [] then body.exec tx st else if x = [1] then some st else none
  | .seq first second, st => (first.exec tx st).bind (second.exec tx)
  | _, _ => none

/-- The witness leaves a true value and nothing else. -/
def Script.Accepts {K : Type} (tx : SignedInput K) (p : Script K) (witness : List Bytes) : Prop :=
  ∃ x, p.exec tx witness = some [x] ∧ truthy x = true

/-! ## §3 Fragments -/

inductive Fragment (K : Type) where
  | pk (key : K)
  | older (n : Nat)
  | after (n : Nat)
  | andV (a b : Fragment K)
  | orD (a b : Fragment K)
  | orB (a b : Fragment K)
  | verify (m : Fragment K)
  | swap (m : Fragment K)
  deriving DecidableEq

namespace Fragment

variable {K : Type}

/-- The script of a fragment. -/
def script : Fragment K → Script K
  | pk k => .checkSig k
  | older n => .checkSequenceVerify n
  | after n => .checkLockTimeVerify n
  | andV a b => .seq a.script b.script
  | orD a b => .seq a.script (.seq .ifDup (.notIf b.script))
  | orB a b => .seq a.script (.seq b.script .boolOr)
  | verify m => .seq m.script .verify
  | swap m => .seq .swap m.script

/-- What a fragment asks of a spend. -/
def Holds (tx : SignedInput K) : Fragment K → Prop
  | pk k => tx.Signs k
  | older n => tx.OlderMet n
  | after n => tx.AfterMet n
  | andV a b => a.Holds tx ∧ b.Holds tx
  | orD a b => a.Holds tx ∨ b.Holds tx
  | orB a b => a.Holds tx ∨ b.Holds tx
  | verify m => m.Holds tx
  | swap m => m.Holds tx

end Fragment

/-- `B` leaves a value, `V` leaves nothing and fails instead of saying no, `W` leaves its
value above the one it found. -/
inductive Base where
  | B
  | V
  | W
  deriving DecidableEq

/-- How many arguments a fragment takes off the stack. -/
inductive Input where
  | zero
  | one
  | any
  deriving DecidableEq

def Input.Fits : Input → List Bytes → Prop
  | .zero, args => args = []
  | .one, args => args.length = 1
  | .any, _ => True

/-- The arguments of two fragments, one after the other. -/
def Input.and : Input → Input → Input
  | .zero, j => j
  | i, .zero => i
  | _, _ => .any

/-- The arguments of a fragment, and those of another that may be left out. -/
def Input.orSkip : Input → Input → Input
  | i, .zero => i
  | _, _ => .any

theorem Input.Fits.and {i j : Input} {u v : List Bytes} (first : i.Fits u) (second : j.Fits v) :
    (i.and j).Fits (u ++ v) := by
  cases i <;> cases j <;> simp_all [Fits, Input.and]

theorem Input.Fits.orSkip {i j : Input} {u v : List Bytes} (first : i.Fits u)
    (second : j.Fits v) : (i.orSkip j).Fits (u ++ v) := by
  cases j with
  | zero =>
    have empty : v = [] := second
    rw [empty, List.append_nil]
    cases i <;> exact first
  | one => cases i <;> trivial
  | any => cases i <;> trivial

theorem Input.Fits.skip {i j : Input} {u : List Bytes} (first : i.Fits u) :
    (i.orSkip j).Fits u := by
  cases j with
  | zero => cases i <;> exact first
  | one => cases i <;> trivial
  | any => cases i <;> trivial

/-- A miniscript type: `unit` says that the value left for yes is one, `dissat` that there
are arguments the fragment says no to. -/
structure FragmentType where
  base : Base
  input : Input
  unit : Bool
  dissat : Bool
  deriving DecidableEq

/-- The typing rules of miniscript. The rule of `or_b` asks for units, so that both values
are numbers. -/
inductive HasType {K : Type} : Fragment K → FragmentType → Prop
  | pk (k : K) : HasType (.pk k) ⟨.B, .one, true, true⟩
  | older {n : Nat} : 0 < n → n < 2 ^ 31 → HasType (.older n) ⟨.B, .zero, false, false⟩
  | after {n : Nat} : 0 < n → n < 2 ^ 31 → HasType (.after n) ⟨.B, .zero, false, false⟩
  | andV {a b : Fragment K} {i j : Input} {u u' d d' : Bool} :
      HasType a ⟨.V, i, u, d⟩ → HasType b ⟨.B, j, u', d'⟩ →
        HasType (.andV a b) ⟨.B, i.and j, u', false⟩
  | andV_verify {a b : Fragment K} {i j : Input} {u u' d d' : Bool} :
      HasType a ⟨.V, i, u, d⟩ → HasType b ⟨.V, j, u', d'⟩ →
        HasType (.andV a b) ⟨.V, i.and j, false, false⟩
  | orD {a b : Fragment K} {i j : Input} {u d : Bool} :
      HasType a ⟨.B, i, true, true⟩ → HasType b ⟨.B, j, u, d⟩ →
        HasType (.orD a b) ⟨.B, i.orSkip j, u, d⟩
  | orB {a b : Fragment K} {i j : Input} :
      HasType a ⟨.B, i, true, true⟩ → HasType b ⟨.W, j, true, true⟩ →
        HasType (.orB a b) ⟨.B, .any, true, true⟩
  | verify {m : Fragment K} {i : Input} {u d : Bool} :
      HasType m ⟨.B, i, u, d⟩ → HasType (.verify m) ⟨.V, i, false, false⟩
  | swap {m : Fragment K} {u d : Bool} :
      HasType m ⟨.B, .one, u, d⟩ → HasType (.swap m) ⟨.W, .any, u, d⟩

/-! ## §4 What the script of a typed fragment does -/

section Runs

variable {K : Type} {tx : SignedInput K} {p q : Script K} {holds holds' : Prop} {i j : Input}
  {u u' d d' : Bool}

/-- A script of base `B` takes arguments off the stack and leaves a value, which is true only
if the fragment holds. -/
structure RunsB (tx : SignedInput K) (p : Script K) (holds : Prop) (i : Input) (u d : Bool) : Prop where
  sound : ∀ st st', p.exec tx st = some st' → ∃ args rest r, st = args ++ rest ∧ st' = r :: rest ∧
    i.Fits args ∧ (truthy r = true → holds) ∧ (u = true → r = [] ∨ r = [1])
  complete : holds → ∃ args r, truthy r = true ∧ (u = true → r = [1]) ∧
    ∀ rest, p.exec tx (args ++ rest) = some (r :: rest)
  refuse : d = true → ∃ args, ∀ rest, p.exec tx (args ++ rest) = some ([] :: rest)

/-- A script of base `V` goes through only if the fragment holds, and leaves nothing. -/
structure RunsV (tx : SignedInput K) (p : Script K) (holds : Prop) (i : Input) : Prop where
  sound : ∀ st st', p.exec tx st = some st' → holds ∧ ∃ args, st = args ++ st' ∧ i.Fits args
  complete : holds → ∃ args, ∀ rest, p.exec tx (args ++ rest) = some rest

/-- A script of base `W` does what one of base `B` does, below the top of the stack. -/
structure RunsW (tx : SignedInput K) (p : Script K) (holds : Prop) (u d : Bool) : Prop where
  sound : ∀ x st st', p.exec tx (x :: st) = some st' → ∃ args rest r, st = args ++ rest ∧
    st' = r :: x :: rest ∧ (truthy r = true → holds) ∧ (u = true → r = [] ∨ r = [1])
  complete : holds → ∃ args r, truthy r = true ∧ (u = true → r = [1]) ∧
    ∀ x rest, p.exec tx (x :: (args ++ rest)) = some (r :: x :: rest)
  refuse : d = true → ∃ args, ∀ x rest, p.exec tx (x :: (args ++ rest)) = some ([] :: x :: rest)

/-- What the script of a fragment of this type does. -/
def FragmentType.Runs (t : FragmentType) (tx : SignedInput K) (p : Script K) (holds : Prop) : Prop :=
  match t.base with
  | .B => RunsB tx p holds t.input t.unit t.dissat
  | .V => RunsV tx p holds t.input
  | .W => RunsW tx p holds t.unit t.dissat

theorem exec_seq (st : List Bytes) :
    (Script.seq p q).exec tx st = (p.exec tx st).bind (q.exec tx) := rfl

theorem exec_seq_of {st st' : List Bytes} (first : p.exec tx st = some st') :
    (Script.seq p q).exec tx st = q.exec tx st' := by
  rw [exec_seq, first, Option.bind_some]

theorem of_exec_seq {st out : List Bytes} (ran : (Script.seq p q).exec tx st = some out) :
    ∃ mid, p.exec tx st = some mid ∧ q.exec tx mid = some out := by
  rw [exec_seq] at ran
  exact Option.bind_eq_some_iff.1 ran

theorem runsB_pk (k : K) : RunsB tx (.checkSig k) (tx.Signs k) .one true true := by
  refine ⟨fun st st' ran => ?_, fun holds => ?_, fun _ => ⟨[[]], fun rest => rfl⟩⟩
  · cases st with
    | nil => cases ran
    | cons sig rest =>
      rw [Script.exec] at ran
      split_ifs at ran with empty valid
      · cases ran
        exact ⟨[sig], rest, [], rfl, rfl, rfl, by simp [truthy], by simp⟩
      · cases ran
        exact ⟨[sig], rest, [1], rfl, rfl, rfl, fun _ => ⟨sig, empty, valid⟩, by simp⟩
  · obtain ⟨sig, nonempty, valid⟩ := holds
    refine ⟨[sig], [1], by decide, fun _ => rfl, fun rest => ?_⟩
    simp [Script.exec, nonempty, valid]

/-- A lock takes nothing off the stack, and fails instead of saying no. -/
theorem runsB_lock {n : Nat} (pos : 0 < n) {c : Prop} [Decidable c]
    (is : ∀ st, p.exec tx st = if c then some (scriptNum n :: st) else none) :
    RunsB tx p c .zero false false := by
  refine ⟨fun st st' ran => ?_, fun holds => ?_, fun no => by cases no⟩
  · rw [is] at ran
    split_ifs at ran with here
    cases ran
    exact ⟨[], st, scriptNum n, rfl, rfl, rfl, fun _ => here, by simp⟩
  · refine ⟨[], scriptNum n, truthy_scriptNum pos, by simp, fun rest => ?_⟩
    rw [is, if_pos holds]
    rfl

theorem RunsV.andB (first : RunsV tx p holds i) (second : RunsB tx q holds' j u d) :
    RunsB tx (.seq p q) (holds ∧ holds') (i.and j) u false := by
  refine ⟨fun st out ran => ?_, fun both => ?_, fun no => by cases no⟩
  · obtain ⟨mid, ran₁, ran₂⟩ := of_exec_seq ran
    obtain ⟨here, args, rfl, fits⟩ := first.sound _ _ ran₁
    obtain ⟨args', rest, r, rfl, rfl, fits', yes, unit⟩ := second.sound _ _ ran₂
    exact ⟨args ++ args', rest, r, (List.append_assoc ..).symm, rfl, fits.and fits',
      fun true_ => ⟨here, yes true_⟩, unit⟩
  · obtain ⟨args, ran₁⟩ := first.complete both.1
    obtain ⟨args', r, true_, unit, ran₂⟩ := second.complete both.2
    refine ⟨args ++ args', r, true_, unit, fun rest => ?_⟩
    rw [List.append_assoc, exec_seq_of (ran₁ _), ran₂]

theorem RunsV.andV (first : RunsV tx p holds i) (second : RunsV tx q holds' j) :
    RunsV tx (.seq p q) (holds ∧ holds') (i.and j) := by
  refine ⟨fun st out ran => ?_, fun both => ?_⟩
  · obtain ⟨mid, ran₁, ran₂⟩ := of_exec_seq ran
    obtain ⟨here, args, rfl, fits⟩ := first.sound _ _ ran₁
    obtain ⟨here', args', rfl, fits'⟩ := second.sound _ _ ran₂
    exact ⟨⟨here, here'⟩, args ++ args', (List.append_assoc ..).symm, fits.and fits'⟩
  · obtain ⟨args, ran₁⟩ := first.complete both.1
    obtain ⟨args', ran₂⟩ := second.complete both.2
    refine ⟨args ++ args', fun rest => ?_⟩
    rw [List.append_assoc, exec_seq_of (ran₁ _), ran₂]

/-- A value that is true skips the body, and one that is empty is dropped. -/
theorem exec_orD {r : Bytes} (unit : r = [] ∨ r = [1]) (st : List Bytes) :
    (Script.seq .ifDup (.notIf q)).exec tx (r :: st) =
      if r = [1] then some ([1] :: st) else q.exec tx st := by
  rcases unit with rfl | rfl
  · simp [Script.exec, truthy]
  · simp [Script.exec, truthy]

theorem RunsB.orD (first : RunsB tx p holds i true true) (second : RunsB tx q holds' j u d) :
    RunsB tx (.seq p (.seq .ifDup (.notIf q))) (holds ∨ holds') (i.orSkip j) u d := by
  refine ⟨fun st out ran => ?_, fun either => ?_, fun no => ?_⟩
  · obtain ⟨mid, ran₁, ran₂⟩ := of_exec_seq ran
    obtain ⟨args, rest, r, rfl, rfl, fits, yes, unit⟩ := first.sound _ _ ran₁
    rw [exec_orD (unit rfl)] at ran₂
    split_ifs at ran₂ with one
    · cases ran₂
      subst one
      exact ⟨args, rest, [1], rfl, rfl, fits.skip, fun true_ => .inl (yes true_), by simp⟩
    · obtain ⟨args', rest', r', rfl, rfl, fits', yes', unit'⟩ := second.sound _ _ ran₂
      exact ⟨args ++ args', rest', r', (List.append_assoc ..).symm, rfl, fits.orSkip fits',
        fun true_ => .inr (yes' true_), unit'⟩
  · by_cases here : holds
    · obtain ⟨args, r, true_, unit, ran₁⟩ := first.complete here
      obtain rfl := unit rfl
      refine ⟨args, [1], by decide, fun _ => rfl, fun rest => ?_⟩
      rw [exec_seq_of (ran₁ rest), exec_orD (.inr rfl), if_pos rfl]
    · -- the first fragment is told no, and the second is asked
      obtain ⟨args, ran₁⟩ := first.refuse rfl
      obtain ⟨args', r, true_, unit, ran₂⟩ := second.complete (either.resolve_left here)
      refine ⟨args ++ args', r, true_, unit, fun rest => ?_⟩
      rw [List.append_assoc, exec_seq_of (ran₁ _), exec_orD (.inl rfl), if_neg (by decide), ran₂]
  · obtain ⟨args, ran₁⟩ := first.refuse rfl
    obtain ⟨args', ran₂⟩ := second.refuse no
    refine ⟨args ++ args', fun rest => ?_⟩
    rw [List.append_assoc, exec_seq_of (ran₁ _), exec_orD (.inl rfl), if_neg (by decide), ran₂]

/-- Of two values that are one or empty, `BOOLOR` leaves one if one of them is. -/
theorem exec_boolOr {r s : Bytes} (unit : r = [] ∨ r = [1]) (unit' : s = [] ∨ s = [1])
    (st : List Bytes) : Script.boolOr.exec tx (s :: r :: st) =
      some (ofBool (truthy r || truthy s) :: st) := by
  rcases unit with rfl | rfl <;> rcases unit' with rfl | rfl <;>
    simp [Script.exec, operand, truthy]

theorem ofBool_unit (b : Bool) : ofBool b = [] ∨ ofBool b = [1] := by cases b <;> simp [ofBool]

theorem RunsB.orB (first : RunsB tx p holds i true true) (second : RunsW tx q holds' true true) :
    RunsB tx (.seq p (.seq q .boolOr)) (holds ∨ holds') .any true true := by
  -- both sides are asked, each with arguments that it says yes or no to
  have join : ∀ {args args' : List Bytes} {r s : Bytes}, (r = [] ∨ r = [1]) → (s = [] ∨ s = [1]) →
      (∀ rest, p.exec tx (args ++ rest) = some (r :: rest)) →
      (∀ x rest, q.exec tx (x :: (args' ++ rest)) = some (s :: x :: rest)) →
      ∀ rest, (Script.seq p (.seq q .boolOr)).exec tx (args ++ args' ++ rest) =
        some (ofBool (truthy r || truthy s) :: rest) := by
    intro args args' r s unit unit' ran₁ ran₂ rest
    rw [List.append_assoc, exec_seq_of (ran₁ _), exec_seq_of (ran₂ _ _), exec_boolOr unit unit']
  obtain ⟨no, no₁⟩ := first.refuse rfl
  obtain ⟨no', no₂⟩ := second.refuse rfl
  refine ⟨fun st out ran => ?_, fun either => ?_, fun _ => ?_⟩
  · obtain ⟨mid, ran₁, ran⟩ := of_exec_seq ran
    obtain ⟨mid', ran₂, ran₃⟩ := of_exec_seq ran
    obtain ⟨args, rest, r, rfl, rfl, -, yes, unit⟩ := first.sound _ _ ran₁
    obtain ⟨args', rest', s, rfl, rfl, yes', unit'⟩ := second.sound _ _ _ ran₂
    rw [exec_boolOr (unit rfl) (unit' rfl)] at ran₃
    cases ran₃
    refine ⟨args ++ args', rest', _, (List.append_assoc ..).symm, rfl, trivial, fun true_ => ?_,
      fun _ => ofBool_unit _⟩
    have some_true : truthy r = true ∨ truthy s = true := by
      cases h : truthy r <;> cases h' : truthy s <;> simp [h, h', ofBool, truthy] at true_ ⊢
    exact some_true.imp yes yes'
  · by_cases here : holds
    · obtain ⟨args, r, true_, unit, ran₁⟩ := first.complete here
      refine ⟨args ++ no', [1], by decide, fun _ => rfl, fun rest => ?_⟩
      rw [join (.inr (unit rfl)) (.inl rfl) ran₁ no₂, true_]
      rfl
    · obtain ⟨args, r, true_, unit, ran₂⟩ := second.complete (either.resolve_left here)
      refine ⟨no ++ args, [1], by decide, fun _ => rfl, fun rest => ?_⟩
      rw [join (.inl rfl) (.inr (unit rfl)) no₁ ran₂, true_, Bool.or_true]
      rfl
  · refine ⟨no ++ no', fun rest => ?_⟩
    rw [join (.inl rfl) (.inl rfl) no₁ no₂]
    rfl

theorem RunsB.verify (run : RunsB tx p holds i u d) : RunsV tx (.seq p .verify) holds i := by
  refine ⟨fun st out ran => ?_, fun here => ?_⟩
  · obtain ⟨mid, ran₁, ran₂⟩ := of_exec_seq ran
    obtain ⟨args, rest, r, rfl, rfl, fits, yes, -⟩ := run.sound _ _ ran₁
    rw [Script.exec] at ran₂
    split_ifs at ran₂ with true_
    cases ran₂
    exact ⟨yes true_, args, rfl, fits⟩
  · obtain ⟨args, r, true_, -, ran₁⟩ := run.complete here
    refine ⟨args, fun rest => ?_⟩
    rw [exec_seq_of (ran₁ rest), Script.exec, if_pos true_]

/-- A fragment of one argument is asked below the top of the stack by swapping first. -/
theorem RunsB.swap (run : RunsB tx p holds .one u d) : RunsW tx (.seq .swap p) holds u d := by
  -- what says yes or no takes one argument
  have one : ∀ {args : List Bytes} {r : Bytes},
      (∀ rest, p.exec tx (args ++ rest) = some (r :: rest)) → ∃ y, args = [y] := by
    intro args r ran
    obtain ⟨args', rest, r', split, same, fits, -⟩ := run.sound _ _ (ran [])
    cases same
    obtain ⟨y, rfl⟩ := List.length_eq_one_iff.1 fits
    exact ⟨y, by simpa using split⟩
  refine ⟨fun x st out ran => ?_, fun here => ?_, fun no => ?_⟩
  · obtain ⟨mid, ran₁, ran₂⟩ := of_exec_seq ran
    cases st with
    | nil => cases ran₁
    | cons y st =>
      cases ran₁
      obtain ⟨args, rest, r, split, rfl, fits, yes, unit⟩ := run.sound _ _ ran₂
      obtain ⟨z, rfl⟩ := List.length_eq_one_iff.1 fits
      cases split
      exact ⟨[y], st, r, rfl, rfl, yes, unit⟩
  · obtain ⟨args, r, true_, unit, ran⟩ := run.complete here
    obtain ⟨y, rfl⟩ := one ran
    exact ⟨[y], r, true_, unit, fun x rest => ran (x :: rest)⟩
  · obtain ⟨args, ran⟩ := run.refuse no
    obtain ⟨y, rfl⟩ := one ran
    exact ⟨[y], fun x rest => ran (x :: rest)⟩

end Runs

/-- The script of a typed fragment does what its type says, for its meaning. -/
theorem HasType.runs {K : Type} {m : Fragment K} {t : FragmentType} (typed : HasType m t)
    (tx : SignedInput K) : t.Runs tx m.script (m.Holds tx) := by
  induction typed with
  | pk k => exact runsB_pk k
  | @older n pos => exact runsB_lock (c := tx.OlderMet n) pos fun _ => rfl
  | @after n pos => exact runsB_lock (c := tx.AfterMet n) pos fun _ => rfl
  | andV _ _ first second => exact RunsV.andB first second
  | andV_verify _ _ first second => exact RunsV.andV first second
  | orD _ _ first second => exact RunsB.orD first second
  | orB _ _ first second => exact RunsB.orB first second
  | verify _ run => exact RunsB.verify run
  | swap _ run => exact RunsB.swap run

/-- **A fragment of base `B` has a witness exactly when it holds.** -/
theorem HasType.accepts_iff {K : Type} {m : Fragment K} {i : Input} {u d : Bool}
    (typed : HasType m ⟨.B, i, u, d⟩) (tx : SignedInput K) :
    (∃ witness, m.script.Accepts tx witness) ↔ m.Holds tx := by
  have run : RunsB tx m.script (m.Holds tx) i u d := typed.runs tx
  constructor
  · rintro ⟨witness, x, ran, true_⟩
    obtain ⟨args, rest, r, -, same, -, yes, -⟩ := run.sound _ _ ran
    cases same
    exact yes true_
  · intro holds
    obtain ⟨args, r, true_, -, ran⟩ := run.complete holds
    refine ⟨args, r, ?_, true_⟩
    simpa using ran []

end GhostKey.Foundation

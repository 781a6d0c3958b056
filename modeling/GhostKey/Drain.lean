import GhostKey.Descriptor
import GhostKey.Foundation.Timelock
import GhostKey.Gate

/-!
# What a Claim Drains

The sealed key is handed out once the estimate says that the funds have matured. The
claim then spends every coin of the vault in one transaction. The estimate goes by the
youngest confirmed coin and the relative lock; the transaction also takes the coins that
are still unconfirmed, and a guardian vault may ask for a height as well.

Main results:
- `matured_iff`: what the estimate's `matured` says about the coins.
- `acceptedAt_drain_iff`: what it takes for the next block to accept the drain.
- `drainsOnceMatured_iff`: when the second follows from the first.
-/

namespace GhostKey

open Foundation Timelock

/-! ## §1 The drain -/

/-- What a claim asks of BDK's transaction builder, next to `drain_wallet` and the policy
path of the claim branch. -/
structure DrainBuilder where
  drainTo : String
  feeRate : Nat
  nlocktime : Nat
  exactSequence : Nat
  deriving DecidableEq

/-- The calls of `build_heir_claim`. -/
def heirClaimBuilder (timelockBlocks : Nat) (recipient : String) (feeRate : Nat) : DrainBuilder :=
  ⟨recipient, feeRate, 0, timelockBlocks⟩

/-- The calls of `build_guardian_claim`. `LockTime::from_height` has no value for a tip
past the heights, and the builder falls back to zero there. -/
def guardianClaimBuilder (timelockBlocks tipHeight : Nat) (recipient : String) (feeRate : Nat) :
    DrainBuilder :=
  ⟨recipient, feeRate, if tipHeight < lockTimeThreshold then tipHeight else 0, timelockBlocks⟩

def ClaimBranch.builder (branch : ClaimBranch) (tipHeight : Nat) (recipient : String)
    (feeRate : Nat) : DrainBuilder :=
  match branch.kind with
  | .standard => heirClaimBuilder branch.timelockBlocks recipient feeRate
  | .guardian => guardianClaimBuilder branch.timelockBlocks tipHeight recipient feeRate

/-- The locks of the transaction: `drain_wallet` takes every unspent output that may be
spent at all. -/
def DrainBuilder.spend (builder : DrainBuilder) (spendable : Utxo → Bool) (utxos : List Utxo) :
    Spend Utxo :=
  ⟨utxos.filter spendable, builder.exactSequence, builder.nlocktime⟩

/-- Once the estimate of these coins says matured, the next block accepts their drain. -/
def DrainsOnceMatured (branch : ClaimBranch) (spendable : Utxo → Bool) (scan : Scan) : Prop :=
  ∀ now recipient feeRate,
    (UnlockEstimateView.fromEstimate (scan.estimate branch.timelockBlocks) now).matured = true →
      ((branch.builder scan.tipHeight recipient feeRate).spend spendable scan.utxos).AcceptedAt
        Utxo.confirmedAt branch.timelockBlocks branch.unlockHeight (scan.tipHeight + 1)

section Drains

variable {branch : ClaimBranch} {spendable : Utxo → Bool} {scan : Scan} {now : Instant}
  {recipient : String} {feeRate timelockBlocks : Nat}

/-! ## §2 Maturity -/

/-- The view says matured when the gate without a lead is open. -/
theorem matured_iff :
    (UnlockEstimateView.fromEstimate (scan.estimate timelockBlocks) now).matured = true ↔
      scan.WithinReach timelockBlocks 0 := by
  rw [← heirContactGate_ready_iff]
  have tip : (scan.estimate timelockBlocks).tipHeight = scan.tipHeight := rfl
  have anchored : (scan.estimate timelockBlocks).unlockHeight ≠ none →
      (scan.estimate timelockBlocks).hasUnspent = true := by
    intro anchored
    obtain ⟨unlock, height⟩ := Option.ne_none_iff_exists'.1 anchored
    obtain ⟨youngest, -, ⟨coin, listed, -⟩, -⟩ := unlockHeight_eq_some_iff.1 height
    show (!scan.utxos.isEmpty) = true
    simpa using List.ne_nil_of_mem listed
  unfold UnlockEstimateView.fromEstimate heirContactGate issueReady
  rw [tip]
  cases unlock : (scan.estimate timelockBlocks).unlockHeight with
  | none => cases (scan.estimate timelockBlocks).hasUnspent <;> simp
  | some unlock =>
    rw [anchored (by rw [unlock]; simp)]
    simp

/-- Every builder asks for the lock of the branch. -/
theorem builder_sequence (tipHeight : Nat) :
    (branch.builder tipHeight recipient feeRate).exactSequence = branch.timelockBlocks := by
  unfold ClaimBranch.builder
  cases branch.kind <;> rfl

/-- The `nLockTime` of a builder is a height that the next block is past. -/
theorem builder_nlocktime (tipHeight : Nat) :
    (branch.builder tipHeight recipient feeRate).nlocktime < tipHeight + 1 ∧
      (branch.builder tipHeight recipient feeRate).nlocktime < lockTimeThreshold := by
  unfold ClaimBranch.builder
  have zero : 0 < lockTimeThreshold := by decide
  cases branch.kind with
  | standard => exact ⟨Nat.succ_pos tipHeight, zero⟩
  | guardian =>
    show (if _ then _ else 0) < _ ∧ (if _ then _ else 0) < _
    split
    · next height => exact ⟨Nat.lt_succ_self tipHeight, height⟩
    · exact ⟨Nat.succ_pos tipHeight, zero⟩

/-- It reaches the unlock height of the branch once the tip does. -/
theorem unlock_le_nlocktime_iff {h : Nat} (asks : h ∈ branch.unlockHeight) (tipHeight : Nat) :
    h ≤ (branch.builder tipHeight recipient feeRate).nlocktime ↔
      h ≤ tipHeight ∧ tipHeight < maxCltvHeight := by
  have positive := (branch.unlockHeight_lt asks).1
  unfold ClaimBranch.builder
  cases kind : branch.kind with
  | standard =>
    rw [branch.standard kind] at asks
    cases asks
  | guardian =>
    show h ≤ (if tipHeight < 500000000 then tipHeight else 0) ↔ h ≤ tipHeight ∧ tipHeight < 500000000
    split <;> omega

/-- What the next block asks of the drain. -/
theorem acceptedAt_drain_iff :
    ((branch.builder scan.tipHeight recipient feeRate).spend spendable scan.utxos).AcceptedAt
        Utxo.confirmedAt branch.timelockBlocks branch.unlockHeight (scan.tipHeight + 1) ↔
      (∀ coin ∈ scan.utxos, spendable coin = true → ∃ confirmed,
        coin.confirmedAt = some confirmed ∧
          confirmed + branch.timelockBlocks ≤ scan.tipHeight + 1) ∧
      ∀ h ∈ branch.unlockHeight, h ≤ scan.tipHeight ∧ scan.tipHeight < maxCltvHeight := by
  have bounds : (branch.builder scan.tipHeight recipient feeRate).nlocktime < scan.tipHeight + 1 ∧
      (branch.builder scan.tipHeight recipient feeRate).nlocktime < lockTimeThreshold :=
    builder_nlocktime scan.tipHeight
  obtain ⟨past, low⟩ := bounds
  rw [Spend.acceptedAt_iff branch.timelockBlocks_le (builder_sequence scan.tipHeight) (.inl past) low]
  apply and_congr
  · simp only [DrainBuilder.spend, List.mem_filter, and_imp]
  · apply forall_congr'
    intro h
    apply imp_congr_right
    intro asks
    exact unlock_le_nlocktime_iff asks scan.tipHeight

/-! ## §3 The drain once matured -/

/-- The estimate keeps its promise for these coins exactly when, once every confirmed
coin is deep enough, none is unconfirmed and the unlock height is reached. -/
theorem drainsOnceMatured_iff
    (pending : ∀ coin : Utxo, coin.confirmedAt = none → spendable coin = true) :
    DrainsOnceMatured branch spendable scan ↔
      (scan.WithinReach branch.timelockBlocks 0 →
        (∀ coin ∈ scan.utxos, coin.confirmedAt ≠ none) ∧
          ∀ h ∈ branch.unlockHeight, h ≤ scan.tipHeight ∧ scan.tipHeight < maxCltvHeight) := by
  unfold DrainsOnceMatured
  simp only [matured_iff, acceptedAt_drain_iff]
  constructor
  · intro drains reach
    obtain ⟨deep, unlocked⟩ := drains 0 "" 0 reach
    refine ⟨?_, unlocked⟩
    intro coin listed unconfirmed
    obtain ⟨confirmed, at_, -⟩ := deep coin listed (pending coin unconfirmed)
    rw [unconfirmed] at at_
    cases at_
  · intro met _ _ _ reach
    obtain ⟨confirmed, unlocked⟩ := met reach
    refine ⟨?_, unlocked⟩
    intro coin listed _
    obtain ⟨height, at_⟩ := Option.ne_none_iff_exists'.1 (confirmed coin listed)
    have deep := reach.2 coin listed height at_
    exact ⟨height, at_, by omega⟩

end Drains

/-! ## §4 Coins -/

/-- A branch with a relative lock only. -/
def heirBranch : ClaimBranch := ⟨.standard, 144, none, validateLocks_day, heightless .standard⟩

/-- A branch that asks for a height too. -/
def unlockBranch : ClaimBranch := ⟨.guardian, 144, some 900000, by decide, fun other => by cases other⟩

/-- One deposit, long confirmed. -/
def deposit : Utxo := ⟨"deposit:0", 50000, some 700000, true⟩

/-- An output that anyone can send to the deposit address. -/
def dust : Utxo := ⟨"dust:0", 546, none, true⟩

theorem drainsOnceMatured_iff_deposit :
    DrainsOnceMatured heirBranch (fun _ => true) ⟨700200, [deposit]⟩ ↔
      ((⟨700200, [deposit]⟩ : Scan).WithinReach 144 0 →
        (∀ coin ∈ [deposit], coin.confirmedAt ≠ none) ∧
          ∀ h ∈ (none : Option Nat), h ≤ 700200 ∧ 700200 < maxCltvHeight) :=
  drainsOnceMatured_iff fun _ _ => rfl

/-- Dust that is still unconfirmed holds back the drain of matured funds, and so does an
unlock height that the tip has not reached. -/
theorem not_drainsOnceMatured :
    ¬ DrainsOnceMatured heirBranch (fun _ => true) ⟨700200, [deposit, dust]⟩ ∧
      ¬ DrainsOnceMatured unlockBranch (fun _ => true) ⟨700200, [deposit]⟩ := by
  constructor
  · intro drains
    have accepted := drains 0 "" 0 rfl
    have listed : dust ∈ [deposit, dust] := by simp
    obtain ⟨confirmed, at_, -⟩ := accepted.final.deep 144 rfl dust listed
    cases at_
  · intro drains
    have accepted := drains 0 "" 0 rfl
    have reached : 900000 ≤ 700200 := (accepted.after 900000 rfl).1
    omega

end GhostKey

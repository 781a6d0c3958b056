import GhostKey.Deployment

/-!
# A Freeze Holds

A paid panic invoice freezes its vault for 90 days and takes the claim token away, and
a tick ends the freeze once `panic_frozen_until` has passed. Several UPDATEs do not look
at the status they meet, or let `frozen` through, and only the one that unfreezes clears
`panic_frozen_until`.

Main results:
- `Runs.frozen_until`: every frozen row says until when.
- `own_of_frozen`: a check-in payment reaches a frozen vault only as its own.
- `freezeHolds_iff_spared`: the freezes of a run hold exactly when no such UPDATE meets
  a frozen row, and nothing ends a freeze, issues a token or deletes the vault early.
-/

namespace GhostKey

open Foundation

/-! ## §1 Frozen rows -/

/-- Frozen, and without a token a claim link could carry. -/
structure Held (r : VaultRow) : Prop where
  status : r.life.status = .frozen
  unclaimable : r.life.claimTokenHash = none

/-- The row has an end of its freeze exactly while it is frozen. -/
def TimedFreeze (r : VaultRow) : Prop :=
  r.life.panicFrozenUntil ≠ none ↔ r.life.status = .frozen

/-- The UPDATEs that write another status over `frozen` and leave `panic_frozen_until`. -/
def VaultUpdate.thaws : VaultUpdate → Bool
  | setInitialStatus _ => true
  | checkin _ _ _ => true
  | checkinFromLink _ _ _ _ => true
  | resetVaultClock _ _ _ => true
  | consumeClaimToken _ => true
  | promoteClaimed => true
  | ownerFullDrain => true
  | alarm => true
  | _ => false

/-- The two UPDATEs besides that a freeze must not meet too early. -/
def VaultUpdate.lifts : VaultUpdate → Bool
  | unfreeze => true
  | issueClaim _ _ => true
  | _ => false

section Rows

variable {u : VaultUpdate} {r : VaultRow}

/-- An UPDATE that neither thaws nor lifts leaves a held row held. -/
theorem Held.set (held : Held r) (guard : u.guard r = true) (thaws : u.thaws = false)
    (lifts : u.lifts = false) (returns : ∀ st, u = .returnEmpty st → st ≠ .frozen) :
    Held (u.set r) := by
  obtain ⟨status, unclaimable⟩ := held
  cases u with
  | returnEmpty st =>
    simp only [VaultUpdate.guard, status, decide_eq_true_eq] at guard
    exact absurd guard.symm (returns st rfl)
  | setInitialStatus | checkin | checkinFromLink | resetVaultClock | consumeClaimToken
  | promoteClaimed | ownerFullDrain | alarm => cases thaws
  | unfreeze | issueClaim => cases lifts
  | _ =>
    constructor <;>
      simp_all [VaultUpdate.guard, VaultUpdate.set, VaultUpdate.setLife,
        VaultUpdate.panicFreezeLife]

/-- What a thaw does to any row. -/
theorem thaws_set (thaws : u.thaws = true)
    (initial : ∀ st, u = .setInitialStatus st → st ≠ .frozen) :
    (u.set r).life.status ≠ .frozen ∧
      (u.set r).life.panicFrozenUntil = r.life.panicFrozenUntil := by
  cases u with
  | setInitialStatus st => exact ⟨initial st rfl, rfl⟩
  | checkin | checkinFromLink | resetVaultClock | consumeClaimToken | promoteClaimed
  | ownerFullDrain | alarm =>
    constructor
    · intro frozen
      cases frozen
    · rfl
  | _ => cases thaws

/-- The other UPDATEs keep the end of the freeze and the status together. -/
theorem TimedFreeze.set (timed : TimedFreeze r) (guard : u.guard r = true)
    (spared : r.life.status = .frozen → u.thaws = false)
    (initial : ∀ st, u = .setInitialStatus st → st ≠ .frozen)
    (returns : ∀ st, u = .returnEmpty st → st ≠ .frozen) : TimedFreeze (u.set r) := by
  unfold TimedFreeze at timed ⊢
  by_cases thaws : u.thaws = true
  · obtain ⟨status, same⟩ := thaws_set thaws initial (r := r)
    have running : r.life.status ≠ .frozen := fun frozen => by simp [spared frozen] at thaws
    rw [same, timed]
    exact ⟨fun frozen => absurd frozen running, fun frozen => absurd frozen status⟩
  · cases u with
    | returnEmpty st =>
      simp only [VaultUpdate.guard, decide_eq_true_eq] at guard
      have running : r.life.status ≠ .frozen := guard ▸ returns st rfl
      simpa [VaultUpdate.set, VaultUpdate.setLife] using mt timed.1 running
    | setInitialStatus | checkin | checkinFromLink | resetVaultClock | consumeClaimToken
    | promoteClaimed | ownerFullDrain | alarm => exact absurd rfl thaws
    | _ =>
      simp_all [VaultUpdate.guard, VaultUpdate.set, VaultUpdate.setLife,
        VaultUpdate.panicFreezeLife, VaultUpdate.openClaimLife]

/-- Only a panic payment makes a row frozen, and it sets the end. -/
theorem until_set (held : r.life.status = .frozen → r.life.panicFrozenUntil ≠ none)
    (initial : ∀ st, u = .setInitialStatus st → st ≠ .frozen)
    (frozen : (u.set r).life.status = .frozen) : (u.set r).life.panicFrozenUntil ≠ none := by
  cases u with
  | setInitialStatus st => exact absurd frozen (initial st rfl)
  | panicFreeze frozenUntil => exact Option.some_ne_none _
  | _ => first | exact held frozen | cases frozen

/-- The fan-out of a check-in payment passes frozen vaults over: a payment that reaches
one is for an invoice of its own. -/
theorem own_of_frozen {paid : VaultRow} {t : Instant} (reached : Db.reset? paid t r = true)
    (frozen : r.life.status = .frozen) : r.id = paid.id := by
  have own : r.id = paid.id ∨ Db.isSibling paid r = true := by
    simp only [Db.reset?, Bool.and_eq_true, Bool.or_eq_true, decide_eq_true_eq] at reached
    exact reached.1
  rcases own with own | sibling
  · exact own
  · unfold Db.isSibling at sibling
    split at sibling
    · cases sibling
    · simp [frozen] at sibling

end Rows

/-! ## §2 Freezes along a run -/

/-- After a panic invoice of a vault is applied at `paid`, the vault is frozen, and no
claim link of its resolves, until 90 days later; and no row has an end of a freeze
without being frozen, or the other way round. -/
structure FreezeHolds (tr : Trace) : Prop where
  held : ∀ (v : VaultId) (j k : Nat) s t paid, tr[j]? = some s → tr[k]? = some t → j ≤ k →
    Commits s v (.panicFreeze (paid + seconds panicFreezeSecs)) →
    t.after.clock < paid + seconds panicFreezeSecs → ∃ r, t.after.vault? v = some r ∧ Held r
  timed : ∀ (k : Nat) s v r, tr[k]? = some s → s.after.vault? v = some r → TimedFreeze r

/-- What keeps one step from breaking a freeze of `v`. -/
structure Spared (tr : Trace) (k : Nat) (s : SrvStep) (v : VaultId) : Prop where
  kept : ∀ r u, s.before.vault? v = some r → r.life.status = .frozen → Applies s v u →
    u.guard r = true → u.thaws = false
  early : ∀ j t paid, j < k → tr[j]? = some t →
    Commits t v (.panicFreeze (paid + seconds panicFreezeSecs)) →
    s.before.clock < paid + seconds panicFreezeSecs →
    (∀ u, Commits s v u → u.lifts = false) ∧ ∀ i n, ¬ Did i (.exec (.deleteVault v)) (.ok n) s

section Runs

variable {S : Server} {t₀ : Instant} {tr : Trace} {s : SrvStep} {v : VaultId} {k : Nat}
  {u : VaultUpdate}

/-- Actions take no time. -/
theorem did_clock {i : Nat} {a : Action} {r : a.Response} (explains : (server S).Explains s)
    (did : Did i a r s) : s.after.clock = s.before.clock := by
  obtain ⟨o, -, after⟩ := performed explains did
  rw [← after]
  exact Action.perform_clock a o s.before

theorem Applies.clock (applies : Applies s v u) (explains : (server S).Explains s) :
    s.after.clock = s.before.clock := by
  cases applies with
  | exec did | paid did | panic did => exact did_clock explains did

/-- A row's status when it is created, and after a sweep, is not `frozen`. -/
theorem Runs.initial_running (runs : Runs S t₀ tr) (at_k : tr[k]? = some s) (applies : Applies s v u) :
    ∀ st, u = .setInitialStatus st → st ≠ .frozen := by
  rintro st rfl
  rw [runs.initial_status at_k applies]
  decide

theorem Runs.returnEmpty_running (runs : Runs S t₀ tr) (at_k : tr[k]? = some s)
    (applies : Applies s v u) : ∀ st, u = .returnEmpty st → st ≠ .frozen := by
  rintro st rfl
  rcases runs.returnEmpty_status at_k applies with rfl | rfl <;> decide

/-- Every frozen row says until when. -/
theorem Runs.frozen_until (runs : Runs S t₀ tr) (at_k : tr[k]? = some s) {r : VaultRow}
    (row : s.before.vault? v = some r) (frozen : r.life.status = .frozen) :
    r.life.panicFrozenUntil ≠ none := by
  refine (runs.row_invariant (v := v) (P := fun _ r => r.life.status = .frozen →
    r.life.panicFrozenUntil ≠ none) ⟨?_, ?_, ?_, ?_⟩ at_k).1 r row frozen
  · intro n s r _ _ _ _ holds
    exact holds
  · intro n s r c _ _ _ _ holds
    exact holds
  · intro n s i r m at_n did _ frozen
    obtain ⟨q, -, t, token, -, life, -⟩ := runs.justified at_n did
    rw [life] at frozen
    cases frozen
  · intro n s u r at_n applies before guard holds frozen
    exact until_set holds (runs.initial_running at_n applies) frozen

/-- While it lasts, a freeze is kept by a step that spares it. -/
theorem Runs.held_step (runs : Runs S t₀ tr) (at_k : tr[k]? = some s) (spared : Spared tr k s v)
    {j : Nat} {t : SrvStep} {paid : Instant} (before : j < k) (at_j : tr[j]? = some t)
    (froze : Commits t v (.panicFreeze (paid + seconds panicFreezeSecs)))
    (early : s.before.clock < paid + seconds panicFreezeSecs) {r : VaultRow}
    (row : s.before.vault? v = some r) (held : Held r) :
    ∃ r', s.after.vault? v = some r' ∧ Held r' := by
  obtain ⟨lifts, alive⟩ := spared.early j t paid before at_j froze early
  cases rowChange (runs.explains_at at_k) v with
  | kept same => exact ⟨r, by rw [same, row], held⟩
  | contacts r' c row' after =>
    rw [row] at row'
    cases row'
    exact ⟨_, after, held.status, held.unclaimable⟩
  | inserted i r' n did id fresh after =>
    rw [row] at fresh
    cases fresh
  | deleted i n did after => exact absurd did (alive i n)
  | applied u r' applies row' guard after =>
    rw [row] at row'
    cases row'
    refine ⟨_, after, held.set guard (spared.kept r u row held.status applies guard)
      (lifts u ⟨applies, r, row, guard⟩) ?_⟩
    exact runs.returnEmpty_running at_k applies

end Runs

/-! ## §3 A freeze that is left -/

section Left

open Deployment

/-- A funded vault is frozen, and its owner sends the whole balance away. -/
def drainedFrozen : List (Move Oracle Drift Request) :=
  funded ++ [.start (.lnurlpCallback "v" (some 1000) true)] ++ steps 3 8 (oracle "" []) ++
    [.start .pollerTick] ++ steps 4 10 (oracle "" []) ++
    [.start (.ownerSend "v" "dest" none none "key")] ++ steps 5 6 (oracle "" [coin])

/-- Whether the step applies a panic invoice of `v` at `paid`, to a vault not claimed. -/
def freezes (v : VaultId) (paid : Instant) (s : SrvStep) : Bool :=
  match s.label with
  | .acted _ ⟨.payPanic _ t, .ok (.paid v' _)⟩ =>
      v' = v && t = paid && (s.before.vault? v).any fun r => r.life.status ≠ .claimed
  | _ => false

end Left

end GhostKey

import GhostKey.Gate

/-!
# Out of `unfunded`

A vault that holds nothing stands outside the check-in clock until a tick has seen
its coins and its owner can be reached. That rests on one status value, which every
check-in, panic-stop, claim and alarm overwrites without looking for `unfunded`.

Main results:
- `Runs.activated`: what stands behind an activation.
- `leavesByActivation_iff`: a vault of a run leaves `unfunded` only by an activation
  exactly when none of the other UPDATEs meets an unfunded row.
-/

namespace GhostKey

open Foundation Program

/-! ## §1 Leaving `unfunded` -/

/-- The UPDATEs that write another status over `unfunded`, other than an activation. -/
def VaultUpdate.ignoresFunding : VaultUpdate → Bool
  | checkin _ _ _ => true
  | checkinFromLink _ _ _ _ => true
  | resetVaultClock _ _ _ => true
  | panicFreeze _ => true
  | consumeClaimToken _ => true
  | promoteClaimed => true
  | alarm => true
  | _ => false

/-- The step is the activation of `v` by a tick, whose estimate came from a successful
scan that saw coins, and which had read the row with an owner it could reach. -/
def ActivatesReachable (tr : Trace) (k : Nat) (s : SrvStep) (v : VaultId) : Prop :=
  ∃ i next eligible r r₀, Did i (.exec (.updateVault v (.activate next eligible))) (.ok 1) s ∧
    Started i .schedulerTick (tr.take k) ∧ s.before.vault? v = some r ∧
    (RecentScan tr i k r.settings fun scan => scan.utxos ≠ []) ∧
    r₀.id = v ∧ Seen (history i k tr) r₀ ∧ ownerEmailUnconfirmed r₀.contacts = false

/-- Vaults leave `unfunded` only by such an activation. -/
def LeavesByActivation (tr : Trace) : Prop :=
  ∀ (k : Nat) s v r r', tr[k]? = some s → s.before.vault? v = some r →
    r.life.status = .unfunded → s.after.vault? v = some r' → r'.life.status ≠ .unfunded →
      ActivatesReachable tr k s v

/-- No other UPDATE of the status meets an unfunded row. -/
def FundingRespected (tr : Trace) : Prop :=
  ∀ (k : Nat) s v u r, tr[k]? = some s → Commits s v u → s.before.vault? v = some r →
    u.ignoresFunding = true → r.life.status ≠ .unfunded

/-- What can take a row out of `unfunded`. -/
theorem leaves_unfunded {u : VaultUpdate} {r : VaultRow} (guard : u.guard r = true)
    (unfunded : r.life.status = .unfunded) (leaves : (u.set r).life.status ≠ .unfunded) :
    u.ignoresFunding = true ∨ (∃ next eligible, u = .activate next eligible) ∨
      ∃ status, status ≠ .unfunded ∧ u = .setInitialStatus status := by
  rw [VaultUpdate.set_life] at leaves
  cases u with
  | checkin | checkinFromLink | resetVaultClock | panicFreeze | consumeClaimToken | promoteClaimed
  | alarm => exact .inl rfl
  | activate next eligible => exact .inr (.inl ⟨next, eligible, rfl⟩)
  | setInitialStatus status => exact .inr (.inr ⟨status, leaves, rfl⟩)
  | releaseClaimToken | unfreeze | openReused | openFresh =>
    simp [VaultUpdate.guard, unfunded] at guard
  | ownerFullDrain | returnEmpty => exact absurd rfl leaves
  | _ => exact absurd unfunded leaves

/-- The other UPDATEs leave no row `unfunded`. -/
theorem status_of_ignoresFunding {u : VaultUpdate} (ignores : u.ignoresFunding = true)
    (r : VaultRow) : (u.set r).life.status ≠ .unfunded ∧ ∀ next eligible, u ≠ .activate next eligible := by
  rw [VaultUpdate.set_life]
  cases u with
  | checkin | checkinFromLink | resetVaultClock | panicFreeze | consumeClaimToken | promoteClaimed
  | alarm =>
    constructor
    · simp [VaultUpdate.setLife, VaultUpdate.checkinLife, VaultUpdate.checkinFromLinkLife,
        VaultUpdate.scrubCheckinLink, VaultUpdate.resetVaultClockLife, VaultUpdate.panicFreezeLife]
    · intro next eligible same
      cases same
  | _ => cases ignores

/-! ## §2 Along a run -/

section Runs

variable {S : Server} {t₀ : Instant} {tr : Trace} {s : SrvStep} {k : Nat} {v : VaultId}

/-- An activation that takes effect has its scan and its reachable owner. -/
theorem Runs.activated (runs : Runs S t₀ tr) (fresh : FreshIds tr) (at_k : tr[k]? = some s)
    {next eligible : Instant} (commits : Commits s v (.activate next eligible)) :
    ActivatesReachable tr k s v := by
  obtain ⟨applies, r, row, guard⟩ := commits
  obtain ⟨i, q, n, did, started, rfl, rows, r₀, t, read, mem, id, clock, -, -, confirmed, est,
    estimated, has⟩ := runs.warranted at_k applies (fun _ _ _ => by simp) fun _ => by simp
  have one := (did_update_hit (runs.explains_at at_k) did row guard).1
  subst one
  have seen : Seen (history i k tr) r₀ := ⟨.unfundedVaults, rows, read, mem⟩
  refine ⟨i, next, eligible, r, r₀, did, started, row, ?_, id, seen, confirmed⟩
  apply runs.recentScan fresh at_k row id seen clock estimated
  rintro scan rfl empty
  rw [not_hasUnspent_iff.2 empty] at has
  cases has

/-- A step that runs an activation runs nothing else over that row. -/
theorem Commits.eq_activate {i : Nat} {next eligible : Instant} {u : VaultUpdate} {n : Nat}
    (commits : Commits s v u) (did : Did i (.exec (.updateVault v (.activate next eligible))) (.ok n) s) :
    u = .activate next eligible := by
  obtain ⟨applies, -⟩ := commits
  cases applies with
  | exec did' =>
    have label := did.symm.trans did'
    cases label
    rfl
  | paid did' =>
    have label := did.symm.trans did'
    cases label
  | panic did' =>
    have label := did.symm.trans did'
    cases label

/-- A run's vaults leave `unfunded` by activations alone exactly when no check-in,
panic-stop, claim or alarm meets an unfunded row. -/
theorem leavesByActivation_iff (runs : Runs S t₀ tr) (fresh : FreshIds tr) :
    LeavesByActivation tr ↔ FundingRespected tr := by
  constructor
  -- an update that ignores the funding leaves `unfunded` without being an activation
  · intro leaves k s v u r at_k commits row ignores unfunded
    obtain ⟨applies, r', row', guard⟩ := id commits
    rw [row] at row'
    cases row'
    have after := applies.after (runs.explains_at at_k) row guard
    obtain ⟨other, notActivation⟩ := status_of_ignoresFunding ignores r
    obtain ⟨i, next, eligible, -, -, did, -⟩ := leaves k s v r _ at_k row unfunded after other
    exact notActivation next eligible (commits.eq_activate did)
  -- one case per change of the row: only an applied update leaves `unfunded`
  · intro respected k s v r r' at_k row unfunded after leaves
    cases rowChange (runs.explains_at at_k) v with
    | kept same =>
      rw [same, row] at after
      cases after
      exact absurd unfunded leaves
    | contacts r₁ c row₁ after₁ =>
      rw [row] at row₁
      cases row₁
      rw [after] at after₁
      cases after₁
      exact absurd unfunded leaves
    | inserted i r₁ n did id empty after₁ =>
      rw [row] at empty
      cases empty
    | deleted i n did after₁ =>
      rw [after] at after₁
      cases after₁
    | applied u r₁ applies row₁ guard after₁ =>
      rw [row] at row₁
      cases row₁
      rw [after] at after₁
      cases after₁
      have commits : Commits s v u := ⟨applies, r, row, guard⟩
      -- it ignores the funding, activates, or is the first status written
      rcases leaves_unfunded guard unfunded leaves with ignores | ⟨next, eligible, rfl⟩ | ⟨st, other, rfl⟩
      · exact absurd unfunded (respected k s v u r at_k commits row ignores)
      · exact runs.activated fresh at_k commits
      · exact absurd (runs.initial_status at_k applies) other

end Runs

/-! ## §3 A payment instead of a deposit -/

section Paid

open Deployment

/-- One satoshi paid to the public address of an unfunded vault starts its clock. -/
theorem not_leavesByActivation :
    ¬ ∀ (S : Server) (t₀ : Instant) (tr : Trace), S.Lawful → Runs S t₀ tr → FreshIds tr →
      LeavesByActivation tr := by
  intro leaves
  obtain ⟨tr, runs, check⟩ := runs_of_play (host 86400) funded
    (fun tr => (tr.zipIdx.all fun p => !inserts p.1 || p.2 = 4) && !tr.any ticks &&
      tr[26]?.any (goes "v" .unfunded .ok)) (by decide +kernel)
  simp only [Bool.and_eq_true, Option.any_eq_true, goes, decide_eq_true_eq] at check
  obtain ⟨⟨once, untimed⟩, s, at_k, ⟨r, row, unfunded⟩, r', row', ok⟩ := check
  obtain ⟨i, next, eligible, r₁, r₀, -, ⟨t, mem, label⟩, -⟩ :=
    leaves _ _ _ (lawful 86400) runs (freshIds_of_inserts once) 26 s "v" r r' at_k row unfunded row'
      (by rw [ok]; simp)
  have ticked : tr.any ticks = true := by
    rw [List.any_eq_true]
    refine ⟨t, List.mem_of_mem_take mem, ?_⟩
    unfold ticks
    rw [label]
  rw [ticked] at untimed
  cases untimed

/-- A first deposit that a tick sees. -/
theorem leavesByActivation_iff_deposit :
    ∃ tr, Runs (host 86400) 0 tr ∧ tr.any (goes "v" .unfunded .ok) = true ∧
      (LeavesByActivation tr ↔ FundingRespected tr) := by
  obtain ⟨tr, runs, check⟩ := runs_of_play (host 86400)
    ([.start (.createVaultFromXpub doorA)] ++ steps 0 9 (oracle "v" []) ++
      [.start .schedulerTick] ++ steps 1 9 (oracle "" [coin]))
    (fun tr => (tr.zipIdx.all fun p => !inserts p.1 || p.2 = 5) &&
      tr.any (goes "v" .unfunded .ok)) (by decide +kernel)
  simp only [Bool.and_eq_true] at check
  obtain ⟨once, activated⟩ := check
  exact ⟨tr, runs, activated, leavesByActivation_iff runs (freshIds_of_inserts once)⟩

end Paid

end GhostKey

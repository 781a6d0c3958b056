import GhostKey.Deployment
import GhostKey.Rows

/-!
# Claimed Is Final

A settled vault has status `claimed` and still carries the receipt of its claim:
the token's hash and the moment it was used. Which UPDATEs leave a settled row
settled is decided statement by statement; those that do not check the status in
their own WHERE clause do not.

Main results:
- `claimedIsFinal_iff_spares`: the claim of a run's vaults is final exactly when no
  statement that ignores the status reaches a claimed row.
-/

namespace GhostKey

open Foundation

/-- A claimed vault with its receipt. -/
structure Settled (r : VaultRow) : Prop where
  status : r.life.status = .claimed
  hash : r.life.claimTokenHash ≠ none
  used : r.life.claimTokenUsedAt ≠ none

/-- The UPDATEs that write the status or the receipt of a claimed row: they check
the status in an earlier read at most. -/
def VaultUpdate.undoesClaim : VaultUpdate → Bool
  | setInitialStatus _ => true
  | checkin _ _ _ => true
  | checkinFromLink _ _ _ _ => true
  | issueClaim _ _ => true
  | alarm => true
  | _ => false

/-- Once promoted, a vault stays settled. -/
def ClaimedIsFinal (tr : Trace) : Prop :=
  ∀ (v : VaultId) (j k : Nat) (s t : SrvStep), tr[j]? = some s → tr[k]? = some t → j ≤ k →
    Commits s v .promoteClaimed → ∃ r, t.after.vault? v = some r ∧ Settled r

/-- What keeps one step from undoing the claim of `v`. -/
structure Spares (s : SrvStep) (v : VaultId) : Prop where
  kept : ∀ r u, s.before.vault? v = some r → r.life.status = .claimed → Applies s v u →
    u.guard r = true → u.undoesClaim = false
  alive : ∀ r i n, s.before.vault? v = some r → r.life.status = .claimed →
    ¬ Did i (.exec (.deleteVault v)) (.ok n) s
  promoted : ∀ r, s.before.vault? v = some r → Applies s v .promoteClaimed →
    r.life.claimTokenHash ≠ none ∧ r.life.claimTokenUsedAt ≠ none

section Rows

variable {u : VaultUpdate} {r : VaultRow}

/-- The statement-level fact: outside those five, an UPDATE that reaches a settled
row leaves it settled. -/
theorem Settled.set (settled : Settled r) (guard : u.guard r = true)
    (spares : u.undoesClaim = false) (returns : ∀ st, u = .returnEmpty st → st ≠ .claimed) :
    Settled (u.set r) := by
  obtain ⟨status, hash, used⟩ := settled
  cases u with
  | returnEmpty st =>
    simp only [VaultUpdate.guard, status, decide_eq_true_eq] at guard
    exact absurd guard.symm (returns st rfl)
  | setInitialStatus | checkin | checkinFromLink | issueClaim | alarm => cases spares
  | _ =>
    constructor <;>
      simp_all [VaultUpdate.guard, VaultUpdate.set, VaultUpdate.setLife]

/-- And those five do not. -/
theorem not_settled_of_undoesClaim (undoes : u.undoesClaim = true)
    (initial : ∀ st, u = .setInitialStatus st → st ≠ .claimed) : ¬ Settled (u.set r) := by
  rintro ⟨status, -, used⟩
  cases u with
  | setInitialStatus st => exact initial st rfl status
  | checkin | checkinFromLink | alarm => cases status
  | issueClaim => exact used rfl
  | _ => cases undoes

/-- Only the promotion makes a row claimed. -/
theorem promotes_of_status (claimed : (u.set r).life.status = .claimed)
    (initial : ∀ st, u = .setInitialStatus st → st ≠ .claimed) :
    r.life.status = .claimed ∨ u = .promoteClaimed := by
  cases u with
  | setInitialStatus st => exact absurd claimed (initial st rfl)
  | promoteClaimed => exact .inr rfl
  | _ => first | exact .inl claimed | cases claimed

end Rows

section Runs

variable {S : Server} {t₀ : Instant} {tr : Trace} {s : SrvStep} {v : VaultId} {k : Nat}

/-- A claimed row has been promoted. -/
theorem Runs.claimed_promoted (runs : Runs S t₀ tr) (at_k : tr[k]? = some s) {r : VaultRow}
    (row : s.before.vault? v = some r) (claimed : r.life.status = .claimed) :
    ∃ j t, j < k ∧ tr[j]? = some t ∧ Commits t v .promoteClaimed := by
  refine (runs.row_invariant (v := v) (P := fun n r => r.life.status = .claimed →
    ∃ j t, j < n ∧ tr[j]? = some t ∧ Commits t v .promoteClaimed) ⟨?_, ?_, ?_, ?_⟩ at_k).1 r row
    claimed
  · intro n s r _ _ _ _ holds claimed
    obtain ⟨j, t, before, rest⟩ := holds claimed
    exact ⟨j, t, Nat.lt_succ_of_lt before, rest⟩
  · intro n s r c _ _ _ _ holds claimed
    obtain ⟨j, t, before, rest⟩ := holds claimed
    exact ⟨j, t, Nat.lt_succ_of_lt before, rest⟩
  · intro n s i r m at_n did _ claimed
    obtain ⟨q, -, t, token, -, life, -⟩ := runs.justified at_n did
    rw [life] at claimed
    cases claimed
  · intro n s u r at_n applies before guard holds claimed
    have initial : ∀ st, u = .setInitialStatus st → st ≠ .claimed := by
      rintro st rfl
      rw [runs.initial_status at_n applies]
      decide
    rcases promotes_of_status claimed initial with old | rfl
    · obtain ⟨j, t, earlier, rest⟩ := holds old
      exact ⟨j, t, Nat.lt_succ_of_lt earlier, rest⟩
    · exact ⟨n, s, Nat.lt_succ_self n, at_n, applies, r, before, guard⟩

/-- One step that spares the claim of a settled vault leaves it settled. -/
theorem Runs.settled_step (runs : Runs S t₀ tr) (at_k : tr[k]? = some s) (spares : Spares s v)
    {r : VaultRow} (row : s.before.vault? v = some r) (settled : Settled r) :
    ∃ r', s.after.vault? v = some r' ∧ Settled r' := by
  cases rowChange (runs.explains_at at_k) v with
  | kept same => exact ⟨r, by rw [same, row], settled⟩
  | contacts r' c before after =>
    rw [row] at before
    cases before
    exact ⟨_, after, settled.status, settled.hash, settled.used⟩
  | inserted i r' n did id fresh after =>
    rw [row] at fresh
    cases fresh
  | deleted i n did after => exact absurd did (spares.alive r i n row settled.status)
  | applied u r' applies before guard after =>
    rw [row] at before
    cases before
    refine ⟨_, after, settled.set guard (spares.kept r u row settled.status applies guard) ?_⟩
    rintro st rfl
    rcases runs.returnEmpty_status at_k applies with rfl | rfl <;> decide

/-- The claims of a run are final exactly when every step of it spares them. -/
theorem claimedIsFinal_iff_spares (runs : Runs S t₀ tr) :
    ClaimedIsFinal tr ↔ ∀ (k : Nat) s v, tr[k]? = some s → Spares s v := by
  constructor
  -- a claimed row was promoted before, so whatever unsettles it refutes the property
  · intro final k s v at_k
    have explains := runs.explains_at at_k
    refine ⟨fun r u row claimed applies guard => ?_, fun r i n row claimed did => ?_,
      fun r row applies => ?_⟩
    · obtain ⟨j, t, before, at_j, promoted⟩ := runs.claimed_promoted at_k row claimed
      obtain ⟨r', after, settled⟩ := final v j k t s at_j at_k (Nat.le_of_lt before) promoted
      rw [applies.after explains row guard] at after
      cases after
      have initial : ∀ st, u = .setInitialStatus st → st ≠ .claimed := by
        rintro st rfl
        rw [runs.initial_status at_k applies]
        decide
      by_contra undoes
      exact not_settled_of_undoesClaim (by simpa using undoes) initial settled
    · obtain ⟨j, t, before, at_j, promoted⟩ := runs.claimed_promoted at_k row claimed
      obtain ⟨r', after, -⟩ := final v j k t s at_j at_k (Nat.le_of_lt before) promoted
      rw [did_deleteVault explains did] at after
      cases after
    · obtain ⟨r', after, settled⟩ := final v k k s s at_k at_k le_rfl ⟨applies, r, row, rfl⟩
      rw [applies.after explains row rfl] at after
      cases after
      exact ⟨settled.hash, settled.used⟩
  -- settled from the promotion on, by induction over the steps since
  · intro spares v j k s t at_j at_k le promoted
    have settled : ∃ r, s.after.vault? v = some r ∧ Settled r := by
      obtain ⟨applies, r, row, guard⟩ := promoted
      obtain ⟨hash, used⟩ := (spares j s v at_j).promoted r row applies
      exact ⟨_, applies.after (runs.explains_at at_j) row guard, rfl, hash, used⟩
    have kept : ∀ (n : Nat) u, tr[n]? = some u → (∃ r, u.before.vault? v = some r ∧ Settled r) →
        ∃ r, u.after.vault? v = some r ∧ Settled r := by
      rintro n u at_n ⟨r, row, here⟩
      exact runs.settled_step at_n (spares n u v at_n) row here
    rcases Nat.eq_or_lt_of_le le with rfl | lt
    · rw [at_j] at at_k
      cases at_k
      exact settled
    · obtain ⟨c, run⟩ := id runs
      exact kept k t at_k (run.since (P := fun w => ∃ r, w.vault? v = some r ∧ Settled r) at_j
        settled (fun n u _ _ => kept n u) lt at_k)

end Runs

/-! ## A claim that is undone -/

section Undone

open Deployment

/-- A vault is created, its claim issued and broadcast, and then issued again. -/
def issuedTwice : List (Move Oracle Drift Request) :=
  [.start (.createVault (createPlain "d"))] ++ steps 0 8 (oracle "v" []) ++
    [.start (.issueClaim "v")] ++ steps 1 7 (oracle "token" []) ++
    [.start (.broadcastClaim "token" "coin")] ++ steps 2 8 (oracle "" []) ++
    [.start (.issueClaim "v")] ++ steps 3 7 (oracle "other" [])

/-- The second `issue_claim` erases the receipt of a claimed vault. -/
theorem not_claimedIsFinal :
    ¬ ∀ (S : Server) (t₀ : Instant) (tr : Trace), S.Lawful → Runs S t₀ tr → ClaimedIsFinal tr := by
  intro final
  obtain ⟨tr, runs, check⟩ := runs_of_play (host 0) issuedTwice
    (fun tr =>
      tr[22]?.any (updated 2 "v" .promoteClaimed) &&
        tr[30]?.any fun s => (s.after.vault? "v").any fun r => r.life.claimTokenUsedAt = none)
    (by decide +kernel)
  simp only [Bool.and_eq_true, Option.any_eq_true] at check
  obtain ⟨⟨s, at_promote, promoted⟩, t, at_issue, r, after, unused⟩ := check
  obtain ⟨r', after', settled⟩ := final _ _ _ (lawful 0) runs "v" 22 30 s t at_promote at_issue
    (by decide) (commits_of_updated (runs.explains_at at_promote) promoted)
  rw [after] at after'
  cases after'
  exact settled.used (by simpa using unused)

/-- The run in which nothing undoes the claim, and what the theorem says of it. -/
theorem claimedIsFinal_iff_spares_once :
    ∃ tr, Runs (host 0) 0 tr ∧ tr.any (updated 2 "v" .promoteClaimed) = true ∧
      (ClaimedIsFinal tr ↔ ∀ (k : Nat) s v, tr[k]? = some s → Spares s v) := by
  obtain ⟨tr, runs, promoted⟩ := runs_of_play (host 0) (issuedTwice.take 26)
    (fun tr => tr.any (updated 2 "v" .promoteClaimed)) (by decide +kernel)
  exact ⟨tr, runs, promoted, claimedIsFinal_iff_spares runs⟩

end Undone

end GhostKey

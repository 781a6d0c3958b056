import GhostKey.Deployment

/-!
# Removing a Vault

`DELETE /vaults/:id` reads the status, refuses while the claim is live, and then runs a
DELETE that asks for the id alone. What commits between the two statements is not looked
at again: a scheduler tick that issues the claim link in between has its claim deleted.

Main results:
- `deletesSafe_iff`: claims are safe from deletion exactly where every claim that comes to
  life between a handler's read and its DELETE has ended again by the DELETE.
- `not_deletesSafe`: the run in which the scheduler is faster than the DELETE.
-/

namespace GhostKey

open Foundation

/-! ## §1 What a deletion must respect -/

/-- The claim on `v` is live, as `claim_is_live` has it. -/
def ClaimLive (v : VaultId) (w : World) : Prop :=
  ∃ r, w.vault? v = some r ∧ claimIsLive r.life.status = true

/-- No row is removed while its claim is live. -/
def DeletesSafe (tr : Trace) : Prop :=
  ∀ (k : Nat) s v, tr[k]? = some s → (s.before.vault? v).isSome = true →
    s.after.vault? v = none → ¬ ClaimLive v s.before

/-- The thread `i` found no live claim on `v` at `j`, and ran its DELETE at `k`. -/
structure Deletes (tr : Trace) (j k i : Nat) (v : VaultId) : Prop where
  lt : j < k
  read : ∃ s r, tr[j]? = some s ∧ Did i (.query (.vault v)) (.ok (some r)) s ∧
    claimIsLive r.life.status = false
  delete : ∃ s n, tr[k]? = some s ∧ Did i (.exec (.deleteVault v)) (.ok n) s

/-- An UPDATE that leaves a live claim between a handler's read and its DELETE is followed,
before the DELETE, by a step that leaves none. -/
def DeletesApart (tr : Trace) : Prop :=
  ∀ j k i v, Deletes tr j k i v → ∀ (n : Nat) s u, j < n → n < k → tr[n]? = some s →
    Commits s v u → ClaimLive v s.after →
      ∃ (m : Nat) (t : SrvStep), n < m ∧ m < k ∧ tr[m]? = some t ∧ ¬ ClaimLive v t.after

section Runs

variable {S : Server} {t₀ : Instant} {tr : Trace} {s : SrvStep} {v : VaultId} {i j k : Nat}

/-! ## §2 From the read to the DELETE -/

/-- A claim comes to life by an UPDATE: rows are inserted as `ok`. -/
theorem Runs.commits_of_live (runs : Runs S t₀ tr) (at_k : tr[k]? = some s)
    (was : ¬ ClaimLive v s.before) (now : ClaimLive v s.after) : ∃ u, Commits s v u := by
  obtain ⟨r', after, live⟩ := now
  have before : ∀ r, s.before.vault? v = some r → r.life.status ≠ r'.life.status := by
    intro r row same
    exact was ⟨r, row, by rw [same]; exact live⟩
  have other : r'.life.status ≠ .ok := by
    intro ok
    rw [ok] at live
    cases live
  obtain ⟨u, r, applies, row, guard, -⟩ := runs.entered at_k ⟨⟨r', after, rfl⟩, before⟩ other
  exact ⟨u, applies, r, row, guard⟩

/-- Only the DELETE of `delete_vault` removes a row, and its thread has read the row. -/
theorem Runs.deletes_of_removed (runs : Runs S t₀ tr) (at_k : tr[k]? = some s)
    (row : (s.before.vault? v).isSome = true) (gone : s.after.vault? v = none) :
    ∃ j i, Deletes tr j k i v := by
  cases rowChange (runs.explains_at at_k) v with
  | kept same =>
    rw [← same, gone] at row
    cases row
  | contacts r c before after =>
    rw [gone] at after
    cases after
  | inserted i r n did id fresh after =>
    rw [gone] at after
    cases after
  | applied u r applies before guard after =>
    rw [gone] at after
    cases after
  | deleted i n did after =>
    obtain ⟨q, -, r, read, dead⟩ := runs.justified at_k did
    obtain ⟨j, t, lt, at_j, found, -⟩ := runs.read_at read
    exact ⟨j, i, lt, ⟨t, r, at_j, found, dead⟩, s, n, at_k, did⟩

/-- A claim that is live at the DELETE came to life after the read, and stayed alive. -/
theorem Deletes.came_alive (runs : Runs S t₀ tr) (deletes : Deletes tr j k i v)
    (at_k : tr[k]? = some s) (live : ClaimLive v s.before) :
    ∃ (n : Nat) (t : SrvStep) (u : VaultUpdate), j < n ∧ n < k ∧ tr[n]? = some t ∧ Commits t v u ∧
      ∀ (m : Nat) (t' : SrvStep), n ≤ m → m < k → tr[m]? = some t' → ClaimLive v t'.after := by
  obtain ⟨a, r, at_j, found, dead⟩ := deletes.read
  have read := did_query (runs.explains_at at_j) found
  have not_yet : ¬ ClaimLive v a.before := by
    rintro ⟨r', row, live'⟩
    have same : a.before.db.vault? v = some r := Except.ok.inj read.1
    rw [show a.before.vault? v = a.before.db.vault? v from rfl, same] at row
    cases row
    rw [dead] at live'
    cases live'
  obtain ⟨c, run⟩ := id runs
  obtain ⟨n, t, le, lt, at_n, was, since⟩ :=
    run.turned at_j at_k (Nat.le_of_lt deletes.lt) not_yet live
  have now : ClaimLive v t.after := since n t (Nat.le_refl n) lt at_n
  obtain ⟨u, commits⟩ := runs.commits_of_live at_n was now
  -- the read itself changes nothing
  have apart : j ≠ n := by
    intro same
    subst same
    rw [at_j] at at_n
    cases at_n
    exact commits.not_query found
  exact ⟨n, t, u, Nat.lt_of_le_of_ne le apart, lt, at_n, commits, since⟩

/-- Claims are safe from deletion exactly where those that come to life between a handler's
read and its DELETE have ended by then. -/
theorem deletesSafe_iff (runs : Runs S t₀ tr) : DeletesSafe tr ↔ DeletesApart tr := by
  constructor
  · intro safe j k i v deletes n s u after before at_n commits live
    obtain ⟨t, count, at_k, did⟩ := deletes.delete
    have dead : ¬ ClaimLive v t.before := by
      intro still
      obtain ⟨r, row, -⟩ := id still
      exact safe k t v at_k (by rw [row]; rfl) (did_deleteVault (runs.explains_at at_k) did) still
    obtain ⟨c, run⟩ := runs
    -- the step right before the DELETE leaves no live claim
    have inside : k - 1 < tr.length := by
      have := (List.getElem?_eq_some_iff.1 at_k).1
      omega
    have at_prev : tr[k - 1]? = some tr[k - 1] := List.getElem?_eq_getElem inside
    have next : tr[k - 1 + 1]? = some t := by
      rw [Nat.sub_add_cancel (Nat.one_le_of_lt before)]
      exact at_k
    have same := run.after_at at_prev next
    have last : n ≠ k - 1 := by
      intro eq
      subst eq
      rw [at_prev] at at_n
      cases at_n
      exact dead (same ▸ live)
    exact ⟨k - 1, _, by omega, by omega, at_prev, by rw [same]; exact dead⟩
  · intro apart k s v at_k row gone live
    obtain ⟨j, i, deletes⟩ := runs.deletes_of_removed at_k row gone
    obtain ⟨n, t, u, after, before, at_n, commits, since⟩ := deletes.came_alive runs at_k live
    obtain ⟨m, t', later, lt, at_m, ended⟩ := apart j k i v deletes n t u after before at_n commits
      (since n t (Nat.le_refl n) before at_n)
    exact ended (since m t' (Nat.le_of_lt later) lt at_m)

end Runs

/-! ## §3 The faster scheduler -/

section Raced

open Deployment

/-- An owner removes a vault while nothing else runs. -/
def deletedAlone : List (Move Oracle Drift Request) :=
  [.start (.createVault (createPlain "d"))] ++ steps 0 8 (oracle "v" []) ++
    [.start (.deleteVault "v")] ++ steps 1 3 (oracle "" [])

/-- The owner's request has read `alarmed`, a tick issues the claim link, the DELETE follows. -/
def triggeredBeforeDelete : List (Move Oracle Drift Request) :=
  alarmedDoorA ++ [.start (.deleteVault "v")] ++ steps 4 1 (oracle "" []) ++ wait 3660 ++
    [.start .schedulerTick] ++ steps 5 21 (oracle "" [coin]) ++ steps 4 1 (oracle "" [])

/-- Whether the step removes the row of `v`. -/
def removes (v : VaultId) (s : SrvStep) : Bool :=
  (s.before.vault? v).isSome && (s.after.vault? v).isNone

/-- Where no step leaves a live claim, deletes keep apart from claims. -/
theorem apart_of_dead {tr : Trace} (dead : (tr.all fun s =>
    s.after.db.vaults.rows.all fun r => !claimIsLive r.life.status) = true) : DeletesApart tr := by
  intro j k i v _ n s u _ _ at_n _ live
  obtain ⟨r, row, live⟩ := live
  have here := List.all_eq_true.1 (List.all_eq_true.1 dead s (List.mem_of_getElem? at_n)) r
    (KeyedTable.find?_mem row)
  simp [live] at here

/-- A removal with no claim in sight. -/
theorem deletesSafe_iff_alone : ∃ tr, Runs (host 86400) 0 tr ∧
    (∃ s, tr[11]? = some s ∧ removes "v" s = true) ∧ DeletesSafe tr := by
  obtain ⟨tr, runs, check⟩ := runs_of_play (host 86400) deletedAlone
    (fun tr => tr[11]?.any (removes "v") &&
      tr.all fun s => s.after.db.vaults.rows.all fun r => !claimIsLive r.life.status)
    (by decide +kernel)
  rw [Bool.and_eq_true, Option.any_eq_true] at check
  exact ⟨tr, runs, check.1, (deletesSafe_iff runs).2 (apart_of_dead check.2)⟩

/-- A live claim is deleted. -/
theorem not_deletesSafe :
    ¬ ∀ (S : Server) (t₀ : Instant) (tr : Trace), Runs S t₀ tr → DeletesSafe tr := by
  intro holds
  obtain ⟨tr, runs, check⟩ := runs_of_play (host 86400) triggeredBeforeDelete
    (fun tr => tr[84]?.any fun s => removes "v" s &&
      (s.before.vault? "v").any fun r => claimIsLive r.life.status) (by decide +kernel)
  rw [Option.any_eq_true] at check
  obtain ⟨s, at_k, check⟩ := check
  simp only [removes, Bool.and_eq_true, Option.any_eq_true, Option.isNone_iff_eq_none] at check
  obtain ⟨⟨row, gone⟩, r, here, live⟩ := check
  exact holds _ _ _ runs 84 s "v" at_k row gone ⟨r, here, live⟩

end Raced

end GhostKey

import GhostKey.Rows

/-!
# Where an Estimate Comes From

A handler's estimate of a vault is the cached one or its own scan. A cached estimate
was written by some handler after its own scan, so either way an explorer answered,
at an earlier step of the run, with what the estimate says.

Main results:
- `Runs.seen_at`: a row that a thread has read was a row of the database.
- `Runs.remembered`: every cached estimate goes back to a scan.
- `Runs.estimated`: so does every estimate, and the scan is under 600 seconds old.
-/

namespace GhostKey

open Foundation Program

/-! ## §1 Rows that were read -/

/-- A row the database selects for a vault is the row of that vault. -/
private theorem vault?_of_filter {db : Db} {id : VaultId} {p : VaultRow → Bool} {r : VaultRow}
    (mem : r ∈ ((db.vault? id).filter p).toList) : db.vault? r.id = some r := by
  have row : db.vault? id = some r :=
    (Option.filter_eq_some_iff.1 (Option.mem_toList.1 mem)).1
  rw [Db.vault?_id row]
  exact row

/-- The same for the row a guardian's token joins. -/
private theorem vault?_of_guardian {db : Db} {hash : Hash} {guardians : List GuardianRow}
    {r : VaultRow}
    (mem : r ∈ ((guardians.filterMap fun g =>
      if g.claimTokenHash = some hash then (db.vault? g.vaultId).map (g, ·) else none).head?.map
        Prod.snd).toList) : db.vault? r.id = some r := by
  obtain ⟨pair, first, rfl⟩ := Option.map_eq_some_iff.1 (Option.mem_toList.1 mem)
  obtain ⟨g, -, hit⟩ := List.mem_filterMap.1 (List.mem_of_mem_head? (Option.mem_def.2 first))
  split at hit
  · obtain ⟨row, here, rfl⟩ := Option.map_eq_some_iff.1 hit
    have id := Db.vault?_id here
    show db.vault? row.id = some row
    rw [id]
    exact here
  · cases hit

/-- The rows of an answer are rows of the database. -/
theorem Query.vault?_of_rows {q : Query} {res : q.Result} {db : Db} {r : VaultRow}
    (answer : q.eval db = .ok res) (mem : r ∈ q.rows res) : db.vault? r.id = some r := by
  -- most answers are rows picked from the table, some with a column decoded
  have selected : ∀ p, r ∈ db.vaults.select p → db.vault? r.id = some r := fun p mem =>
    (KeyedTable.mem_select.1 mem).1
  have decoded : ∀ (column : VaultRow → Option Instant) (p : VaultRow → Bool)
      (out : List (VaultRow × Instant)),
      Db.decodeColumn column (db.vaults.select p) = .ok out → r ∈ out.map Prod.fst →
        db.vault? r.id = some r := by
    intro column p out done mem
    obtain ⟨d, listed, rfl⟩ := List.mem_map.1 mem
    exact selected p (Db.mem_decodeColumn done listed).1
  -- one case per query with vault rows in its answer
  cases q with
  | vault id =>
    cases answer
    have row : db.vault? id = some r := Option.mem_toList.1 mem
    rw [Db.vault?_id row]
    exact row
  | vaultByCheckinLink id hash =>
    cases answer
    exact vault?_of_filter mem
  | vaultByClaimToken hash =>
    cases answer
    exact KeyedTable.find?_of_mem (List.mem_of_find?_eq_some (Option.mem_toList.1 mem))
  | guardianByClaimToken hash =>
    cases answer
    exact vault?_of_guardian mem
  | expiredPanics now =>
    cases answer
    exact selected _ mem
  | unfundedVaults =>
    cases answer
    exact selected _ mem
  | okVaultsWithDeposit =>
    cases answer
    exact selected _ mem
  | neverFundedVaults =>
    cases answer
    exact selected _ mem
  | preDeadlineDue now windowEnd =>
    cases answer
    exact selected _ mem
  | claimEligible now =>
    cases answer
    exact selected _ mem
  | deadlineMissed now => exact decoded _ _ _ answer mem
  | escalationDue now cutoff => exact decoded _ _ _ answer mem
  | claimReady => exact decoded _ _ _ answer mem
  | _ => cases mem

section Runs

variable {S : Server} {t₀ : Instant} {tr : Trace} {s : SrvStep} {i k : Nat} {v : VaultId}
  {r : VaultRow} {t : Instant} {est : UnlockEstimate}

/-- A row a thread has read was the row of its vault at an earlier position. -/
theorem Runs.seen_at (runs : Runs S t₀ tr) (seen : Seen (history i k tr) r) :
    ∃ j s, j < k ∧ tr[j]? = some s ∧ s.before.vault? r.id = some r := by
  obtain ⟨q, res, read, mem⟩ := seen
  obtain ⟨j, s, before, at_j, -, answer⟩ := runs.read_at read
  exact ⟨j, s, before, at_j, q.vault?_of_rows answer mem⟩

/-! ## §2 Scans of a run -/

/-- At a step before `k`, with the clock at `since` or later, an explorer listed the
unspent outputs of the vault with these settings. -/
def ScanAt (tr : Trace) (k : Nat) (settings : Settings) (since : Instant) (scan : Scan) : Prop :=
  ∃ (j : Nat) (s : SrvStep) (i : Nat) (urls : List String), j < k ∧ tr[j]? = some s ∧
    Did i (.ask (.fullScan urls settings.descriptorExternal settings.descriptorInternal)) (.ok scan)
      s ∧ since ≤ s.before.clock

theorem ScanAt.mono {settings : Settings} {scan : Scan} {j : Nat}
    (scanned : ScanAt tr j settings t scan) (le : j ≤ k) : ScanAt tr k settings t scan := by
  obtain ⟨m, s, i, urls, before, rest⟩ := scanned
  exact ⟨m, s, i, urls, Nat.lt_of_lt_of_le before le, rest⟩

/-- A scan in a thread's history is a step of the run, and came after its clock reading. -/
theorem Runs.scanned_at (runs : Runs S t₀ tr) (scanned : Scanned (history i k tr) r t est) :
    ∃ scan, ScanAt tr k r.settings t scan ∧ est = scan.estimate r.settings.timelockBlocks := by
  obtain ⟨h₁, h₂, urls, scan, whole, clock, same⟩ := scanned
  obtain ⟨j, s, before, at_j, label, past⟩ := history_split whole
  rw [← past] at clock
  obtain ⟨m, u, earlier, at_m, -, rfl⟩ := runs.clock_at clock
  have later : u.before.clock ≤ s.before.clock :=
    runs.clock_mono at_m (Nat.le_of_lt earlier) at_j
  exact ⟨scan, ⟨j, s, i, urls, before, at_j, label, later⟩, same⟩

/-- The cached estimate of a row, if it has one, is that of an earlier scan. -/
def Remembered (tr : Trace) (k : Nat) (r : VaultRow) : Prop :=
  r.chain = .unscanned ∨ ∃ since scan, ScanAt tr k r.settings since scan ∧
    r.chain = (scan.estimate r.settings.timelockBlocks).cache since

theorem set_chain {u : VaultUpdate} (other : ∀ cache, u ≠ .cacheEstimate cache) (r : VaultRow) :
    (u.set r).chain = r.chain := by
  cases u with
  | cacheEstimate cache => exact absurd rfl (other cache)
  | _ => rfl

theorem Remembered.later {j : Nat} {r' : VaultRow} (remembered : Remembered tr j r) (le : j ≤ k)
    (chain : r'.chain = r.chain) (settings : r'.settings = r.settings) : Remembered tr k r' := by
  unfold Remembered
  rw [chain, settings]
  exact remembered.imp_right fun ⟨since, scan, scanned, same⟩ => ⟨since, scan, scanned.mono le, same⟩

/-- Every cached estimate goes back to a scan of that vault. -/
theorem Runs.remembered (runs : Runs S t₀ tr) (fresh : FreshIds tr) (at_k : tr[k]? = some s)
    (row : s.before.vault? v = some r) : Remembered tr k r := by
  refine (runs.row_invariant (v := v) (P := fun n r => Remembered tr n r)
    ⟨?_, ?_, ?_, ?_⟩ at_k).1 r row
  · exact fun n s r _ _ _ _ past => past.later (Nat.le_succ n) rfl rfl
  · exact fun n s r c _ _ _ _ past => past.later (Nat.le_succ n) rfl rfl
  · intro n s i r m at_n did _
    obtain ⟨q, -, t, token, -, -, -, -, -, -, unscanned⟩ := runs.justified at_n did
    exact .inl unscanned
  · intro n s u r at_n applies before guard past
    by_cases caches : ∃ cache, u = .cacheEstimate cache
    · -- the thread that caches has scanned the vault itself
      obtain ⟨cache, rfl⟩ := caches
      obtain ⟨i, q, m, did, -, r', t, est, id, seen, scanned, rfl⟩ :=
        runs.warranted at_n applies (fun _ _ _ => by simp) fun _ => by simp
      obtain ⟨j, s', -, at_j, row'⟩ := runs.seen_at seen
      have same := (runs.fixed fresh at_j at_n (id ▸ row') before).1
      obtain ⟨scan, at_, rfl⟩ := runs.scanned_at scanned
      rw [← same] at at_
      refine .inr ⟨t, scan, at_.mono (Nat.le_succ n), ?_⟩
      rw [← same]
      rfl
    · refine past.later (Nat.le_succ n) (set_chain (fun cache same => caches ⟨cache, same⟩) r) ?_
      simp

/-- The freshness test rounds towards zero. -/
private theorem lt_of_age {since t : Int}
    (age : (t - since).tdiv 1000000000 < (ExplorerBackoff.maxSecs : Nat)) :
    t < since + seconds 600 := by
  show t < since + 600 * 1000000000
  have age : (t - since).tdiv 1000000000 < 600 := age
  by_cases ahead : t < since
  · omega
  · rw [Int.tdiv_eq_ediv_of_nonneg (by omega)] at age
    omega

/-- A fresh cache is less than 600 seconds old. -/
theorem cachedEstimate_age {since : Instant} (chain : r.chain = est.cache since)
    {est' : UnlockEstimate} (cached : cachedEstimate r t = some est') :
    est' = est ∧ t < since + seconds 600 := by
  simp only [cachedEstimate, chain, UnlockEstimate.cache] at cached
  split at cached
  · next age =>
    cases cached
    refine ⟨rfl, ?_⟩
    exact lt_of_age age
  · cases cached

/-- An estimate a thread goes by is that of a scan less than 600 seconds older than the
time it goes by. -/
theorem Runs.estimated (runs : Runs S t₀ tr) (fresh : FreshIds tr)
    (seen : Seen (history i k tr) r) (estimated : Estimated (history i k tr) r t est) :
    ∃ since scan, ScanAt tr k r.settings since scan ∧ t < since + seconds 600 ∧
      est = scan.estimate r.settings.timelockBlocks := by
  rcases estimated with cached | scanned
  · obtain ⟨j, s, before, at_j, row⟩ := runs.seen_at seen
    rcases runs.remembered fresh at_j row with never | ⟨since, scan, at_, chain⟩
    · simp [cachedEstimate, never, ChainCache.unscanned] at cached
    · obtain ⟨same, young⟩ := cachedEstimate_age chain cached
      exact ⟨since, scan, at_.mono (Nat.le_of_lt before), young, same⟩
  · obtain ⟨scan, at_, same⟩ := runs.scanned_at scanned
    exact ⟨t, scan, at_, Int.lt_add_of_pos_right t (by decide), same⟩

end Runs

end GhostKey

import GhostKey.Deployment
import GhostKey.Scans

/-!
# What the Chain Gate Lets Through

With the gate on, whatever the explorer answers, a claim is opened, a vault is
activated and a vault is retired on the strength of a scan that succeeded less than
600 seconds before. A failed scan, the explorer pause and a scan that lists nothing
open no claim. The one other way into `timelock_started` leads back from `claiming`,
when a spending route releases its token.

Main results:
- `heirContactGate_ready_iff`, `not_hasUnspent_iff`: what an estimate says about the
  scan it comes from.
- `movesFollowScans`: every such move of a run has its scan.
-/

namespace GhostKey

open Foundation Program

/-! ## §1 Estimates and scans -/

/-- The scan lists a confirmed coin, and every confirmed coin it lists unlocks at most
`leadBlocks` after the tip. -/
def Scan.WithinReach (scan : Scan) (timelockBlocks leadBlocks : Nat) : Prop :=
  (∃ coin ∈ scan.utxos, coin.confirmedAt ≠ none) ∧
    ∀ coin ∈ scan.utxos, ∀ height, coin.confirmedAt = some height →
      height + timelockBlocks ≤ scan.tipHeight + leadBlocks

section Estimates

variable {scan : Scan} {timelockBlocks leadBlocks unlock : Nat}

theorem not_hasUnspent_iff : (scan.estimate timelockBlocks).hasUnspent = false ↔ scan.utxos = [] := by
  show (!scan.utxos.isEmpty) = false ↔ _
  simp

/-- The unlock height is that of the youngest confirmed coin. -/
theorem unlockHeight_eq_some_iff :
    (scan.estimate timelockBlocks).unlockHeight = some unlock ↔
      ∃ youngest, youngest + timelockBlocks = unlock ∧
        (∃ coin ∈ scan.utxos, coin.confirmedAt = some youngest) ∧
        ∀ coin ∈ scan.utxos, ∀ height, coin.confirmedAt = some height → height ≤ youngest := by
  show (scan.utxos.filterMap Utxo.confirmedAt).max?.map (· + timelockBlocks) = some unlock ↔ _
  rw [Option.map_eq_some_iff]
  apply exists_congr
  intro youngest
  rw [List.max?_eq_some_iff, and_comm]
  apply and_congr_right
  intro _
  have confirmed : ∀ height, height ∈ scan.utxos.filterMap Utxo.confirmedAt ↔
      ∃ coin ∈ scan.utxos, coin.confirmedAt = some height := fun height => List.mem_filterMap
  constructor
  · rintro ⟨mem, le⟩
    refine ⟨(confirmed youngest).1 mem, ?_⟩
    intro coin listed height at_
    exact le height ((confirmed height).2 ⟨coin, listed, at_⟩)
  · rintro ⟨mem, le⟩
    refine ⟨(confirmed youngest).2 mem, ?_⟩
    intro height listed
    obtain ⟨coin, listed, at_⟩ := (confirmed height).1 listed
    exact le coin listed height at_

/-- The gate is ready exactly when the scan has the coins within reach. -/
theorem heirContactGate_ready_iff :
    heirContactGate (scan.estimate timelockBlocks) leadBlocks = .ready ↔
      scan.WithinReach timelockBlocks leadBlocks := by
  -- ready: coins are there, and the unlock height is near
  have ready : heirContactGate (scan.estimate timelockBlocks) leadBlocks = .ready ↔
      (scan.estimate timelockBlocks).hasUnspent = true ∧
        ∃ unlock, (scan.estimate timelockBlocks).unlockHeight = some unlock ∧
          unlock ≤ scan.tipHeight + leadBlocks := by
    have tip : (scan.estimate timelockBlocks).tipHeight = scan.tipHeight := rfl
    unfold heirContactGate issueReady
    rw [tip]
    cases (scan.estimate timelockBlocks).hasUnspent <;>
      cases (scan.estimate timelockBlocks).unlockHeight <;> simp
    omega
  rw [ready]
  constructor
  · rintro ⟨-, unlock, height, within⟩
    obtain ⟨youngest, rfl, ⟨coin, listed, at_⟩, le⟩ := unlockHeight_eq_some_iff.1 height
    refine ⟨⟨coin, listed, by rw [at_]; exact Option.some_ne_none youngest⟩, ?_⟩
    intro other listed' height' at_'
    have older := le other listed' height' at_'
    omega
  · rintro ⟨⟨coin, listed, confirmed⟩, within⟩
    -- the unlock height is that of the youngest confirmed coin
    have some_unlock : (scan.estimate timelockBlocks).unlockHeight ≠ none := by
      obtain ⟨height, at_⟩ := Option.ne_none_iff_exists'.1 confirmed
      show (scan.utxos.filterMap Utxo.confirmedAt).max?.map (· + timelockBlocks) ≠ none
      have mem : height ∈ scan.utxos.filterMap Utxo.confirmedAt :=
        List.mem_filterMap.2 ⟨coin, listed, at_⟩
      simpa using List.ne_nil_of_mem mem
    obtain ⟨unlock, height⟩ := Option.ne_none_iff_exists'.1 some_unlock
    obtain ⟨youngest, rfl, ⟨top, top_listed, at_⟩, -⟩ := unlockHeight_eq_some_iff.1 height
    refine ⟨?_, _, height, within top top_listed youngest at_⟩
    show (!scan.utxos.isEmpty) = true
    simpa using List.ne_nil_of_mem listed

end Estimates

/-! ## §2 Moves and the scans behind them -/

/-- The thread has read the clock at a time less than 600 seconds after an explorer's
answer for the vault with these settings, and that answer is as `ok` asks. -/
def RecentScan (tr : Trace) (i k : Nat) (settings : Settings) (ok : Scan → Prop) : Prop :=
  ∃ t since scan, ClockRead (history i k tr) t ∧ ScanAt tr k settings since scan ∧
    t < since + seconds 600 ∧ ok scan

/-- A tick makes the step, having found the coins of the vault within reach. -/
def OpensOnScan (S : Server) (tr : Trace) (k : Nat) (s : SrvStep) (v : VaultId) : Prop :=
  ∃ i r, Started i .schedulerTick (tr.take k) ∧ s.before.vault? v = some r ∧
    RecentScan tr i k r.settings fun scan =>
      scan.WithinReach r.settings.timelockBlocks (leadBlocks S)

/-- What stands behind the moves the chain decides about. -/
structure MovesFollowScans (S : Server) (tr : Trace) : Prop where
  opened : ∀ (k : Nat) s v, tr[k]? = some s → Enters s v .timelockStarted →
    (∃ r, s.before.vault? v = some r ∧ r.life.status = .claiming ∧ Applies s v .releaseClaimToken) ∨
      OpensOnScan S tr k s v
  activated : ∀ (k : Nat) s v next eligible, tr[k]? = some s →
    Commits s v (.activate next eligible) →
      ∃ i r, s.before.vault? v = some r ∧ RecentScan tr i k r.settings fun scan => scan.utxos ≠ []
  retired : ∀ (k : Nat) s v, tr[k]? = some s → Enters s v .unfunded →
    Applies s v (.setInitialStatus .unfunded) ∨ Applies s v .ownerFullDrain ∨
      ∃ i r, s.before.vault? v = some r ∧ RecentScan tr i k r.settings fun scan => scan.utxos = []

/-- The UPDATEs that open a claim. -/
theorem opens_of_status {u : VaultUpdate} {r : VaultRow} (guard : u.guard r = true)
    (now : (u.set r).life.status = .timelockStarted) (before : r.life.status ≠ .timelockStarted) :
    u = .setInitialStatus .timelockStarted ∨ (r.life.status = .claiming ∧ u = .releaseClaimToken) ∨
      (∃ hash t, u = .openReused hash t) ∨ ∃ hash t, u = .openFresh hash t := by
  cases u with
  | setInitialStatus status =>
    rw [VaultUpdate.set_life] at now
    exact .inl (congrArg _ now)
  | releaseClaimToken => exact .inr (.inl ⟨of_decide_eq_true guard, rfl⟩)
  | openReused hash t => exact .inr (.inr (.inl ⟨hash, t, rfl⟩))
  | openFresh hash t => exact .inr (.inr (.inr ⟨hash, t, rfl⟩))
  | ownerContactVerified | cacheEstimate | mintOneTapToken | preDeadlineReminded | escalated
  | claimReadyNotified | issueClaim | stampClaimOpened => exact absurd now before
  | _ => cases now

/-- The UPDATEs that retire a vault. -/
theorem retires_of_status {u : VaultUpdate} {r : VaultRow}
    (now : (u.set r).life.status = .unfunded) (before : r.life.status ≠ .unfunded) :
    u = .setInitialStatus .unfunded ∨ u = .ownerFullDrain ∨ ∃ status, u = .returnEmpty status := by
  cases u with
  | setInitialStatus status =>
    rw [VaultUpdate.set_life] at now
    exact .inl (congrArg _ now)
  | ownerFullDrain => exact .inr (.inl rfl)
  | returnEmpty status => exact .inr (.inr ⟨status, rfl⟩)
  | ownerContactVerified | cacheEstimate | mintOneTapToken | preDeadlineReminded | escalated
  | claimReadyNotified | issueClaim | stampClaimOpened => exact absurd now before
  | _ => cases now

section Runs

variable {S : Server} {t₀ : Instant} {tr : Trace} {s : SrvStep} {i k : Nat} {v : VaultId}
  {r r₀ : VaultRow} {t : Instant} {est : UnlockEstimate}

theorem DueClaim.seen {h : Hist} {nowIso : Instant} (due : DueClaim h nowIso r) : Seen h r := by
  obtain ⟨rows, read, mem⟩ := due
  exact ⟨.claimEligible nowIso, rows, read, mem⟩

/-- An estimate of a row that was read is a recent scan of the vault as it is now. -/
theorem Runs.recentScan (runs : Runs S t₀ tr) (fresh : FreshIds tr) (at_k : tr[k]? = some s)
    (row : s.before.vault? v = some r) (id : r₀.id = v) (seen : Seen (history i k tr) r₀)
    (clock : ClockRead (history i k tr) t) (estimated : Estimated (history i k tr) r₀ t est)
    {ok : Scan → Prop} (holds : ∀ scan : Scan, est = scan.estimate r.settings.timelockBlocks → ok scan) :
    RecentScan tr i k r.settings ok := by
  obtain ⟨j, s', -, at_j, row'⟩ := runs.seen_at seen
  have same := (runs.fixed fresh at_j at_k (id ▸ row') row).1
  obtain ⟨since, scan, at_, young, rfl⟩ := runs.estimated fresh seen estimated
  rw [← same] at at_ holds
  exact ⟨t, since, scan, clock, at_, young, holds scan rfl⟩

/-- The tick's opening UPDATE comes after a scan that has the coins within reach. -/
theorem Runs.opened_recentScan (runs : Runs S t₀ tr) (fresh : FreshIds tr)
    (gateOn : S.onchainGateEnabled = true) (demoOff : S.demoMode = false) (at_k : tr[k]? = some s)
    (row : s.before.vault? v = some r) {nowIso : Instant} (due : DueClaim (history i k tr) nowIso r₀)
    (id : r₀.id = v) (passed : GatePassed S (history i k tr) r₀) :
    RecentScan tr i k r.settings fun scan =>
      scan.WithinReach r.settings.timelockBlocks (leadBlocks S) := by
  rcases passed with (off | demo) | ⟨t, est, clock, estimated, ready⟩
  · rw [gateOn] at off
    cases off
  · rw [demoOff] at demo
    cases demo
  · apply runs.recentScan fresh at_k row id due.seen clock estimated
    rintro scan rfl
    exact heirContactGate_ready_iff.1 ready

/-- With the gate on, every move a run makes on the word of the chain has a successful
scan behind it, less than 600 seconds old. -/
theorem movesFollowScans (runs : Runs S t₀ tr) (fresh : FreshIds tr)
    (gateOn : S.onchainGateEnabled = true) (demoOff : S.demoMode = false) :
    MovesFollowScans S tr := by
  refine ⟨?_, ?_, ?_⟩
  -- into `timelock_started`: a claim that is given back, or one that is opened
  · intro k s v at_k enters
    obtain ⟨u, r, applies, row, guard, -, now, before⟩ := runs.entered at_k enters (by simp)
    rcases opens_of_status guard now before with
      rfl | ⟨claiming, rfl⟩ | ⟨hash, t, rfl⟩ | ⟨hash, t, rfl⟩
    · cases runs.initial_status at_k applies
    · exact .inl ⟨r, row, claiming, applies⟩
    · obtain ⟨i, q, n, -, started, rfl, r₀, token, due, id, -, passed⟩ :=
        runs.warranted at_k applies (fun _ _ _ => by simp) fun _ => by simp
      exact .inr ⟨i, r, started, row, runs.opened_recentScan fresh gateOn demoOff at_k row due id passed⟩
    · obtain ⟨i, q, n, -, started, rfl, r₀, token, due, id, -, passed⟩ :=
        runs.warranted at_k applies (fun _ _ _ => by simp) fun _ => by simp
      exact .inr ⟨i, r, started, row, runs.opened_recentScan fresh gateOn demoOff at_k row due id passed⟩
  -- an activation has seen coins
  · intro k s v next eligible at_k commits
    obtain ⟨applies, r, row, -⟩ := commits
    obtain ⟨i, q, n, -, -, -, rows, r₀, t, read, mem, id, clock, -, -, -, est, estimated, has⟩ :=
      runs.warranted at_k applies (fun _ _ _ => by simp) fun _ => by simp
    refine ⟨i, r, row, ?_⟩
    apply runs.recentScan fresh at_k row id ⟨.unfundedVaults, rows, read, mem⟩ clock estimated
    rintro scan rfl empty
    rw [not_hasUnspent_iff.2 empty] at has
    cases has
  · intro k s v at_k enters
    obtain ⟨u, r, applies, row, guard, -, now, before⟩ := runs.entered at_k enters (by simp)
    rcases retires_of_status now before with rfl | rfl | ⟨status, rfl⟩
    · exact .inl applies
    · exact .inr (.inl applies)
    · obtain ⟨i, q, n, -, -, ⟨r₀, t, est, id, seen, clock, estimated, none⟩, -⟩ :=
        runs.warranted at_k applies (fun _ _ _ => by simp) fun _ => by simp
      refine .inr (.inr ⟨i, r, row, ?_⟩)
      apply runs.recentScan fresh at_k row id seen clock estimated
      rintro scan rfl
      exact not_hasUnspent_iff.1 none

end Runs

/-! ## §3 A move without a scan -/

section Released

open Deployment

/-- A claim issued by hand, whose broadcast the explorer refuses. -/
def refusedBroadcast : List (Move Oracle Drift Request) :=
  funded ++ [.start (.issueClaim "v")] ++ steps 3 7 (oracle "token" []) ++
    [.start (.broadcastClaim "token" "coin")] ++ steps 4 6 (refusing [])

/-- Whether a tick starts with this step. -/
def ticks (s : SrvStep) : Bool :=
  match s.label with
  | .started _ .schedulerTick => true
  | _ => false

/-- Whether the row of `v` goes from one status to the other. -/
def goes (v : VaultId) (before after : Status) (s : SrvStep) : Bool :=
  ((s.before.vault? v).any fun r => r.life.status = before) &&
    (s.after.vault? v).any fun r => r.life.status = after

theorem enters_of_goes {v : VaultId} {before after : Status} {s : SrvStep}
    (goes : goes v before after s = true) (other : before ≠ after) : Enters s v after := by
  simp only [GhostKey.goes, Bool.and_eq_true, Option.any_eq_true, decide_eq_true_eq] at goes
  obtain ⟨⟨r, row, was⟩, r', row', now⟩ := goes
  refine ⟨⟨r', row', now⟩, ?_⟩
  intro r₁ row₁
  rw [row] at row₁
  cases row₁
  rw [was]
  exact other

/-- A released token moves its vault to `timelock_started`, with no tick and no scan. -/
theorem not_opensOnScan :
    ¬ ∀ (S : Server) (t₀ : Instant) (tr : Trace), S.Lawful → S.onchainGateEnabled = true →
      S.demoMode = false → Runs S t₀ tr → FreshIds tr → ∀ (k : Nat) s v, tr[k]? = some s →
        Enters s v .timelockStarted → OpensOnScan S tr k s v := by
  intro onScan
  obtain ⟨tr, runs, check⟩ := runs_of_play (gated 0) refusedBroadcast
    (fun tr => (tr.zipIdx.all fun p => !inserts p.1 || p.2 = 4) && !tr.any ticks &&
      tr[43]?.any (goes "v" .claiming .timelockStarted)) (by decide +kernel)
  simp only [Bool.and_eq_true, Option.any_eq_true] at check
  obtain ⟨⟨once, untimed⟩, s, at_k, released⟩ := check
  obtain ⟨i, r, ⟨t, mem, label⟩, -⟩ := onScan _ _ _ (gated_lawful 0) rfl rfl runs
    (freshIds_of_inserts once) 43 s "v" at_k (enters_of_goes released (by simp))
  have ticked : tr.any ticks = true := by
    rw [List.any_eq_true]
    refine ⟨t, List.mem_of_mem_take mem, ?_⟩
    unfold ticks
    rw [label]
  rw [ticked] at untimed
  cases untimed

/-- A tick that opens a claim behind the gate. -/
theorem movesFollowScans_doorA :
    ∃ tr, Runs (gated 86400) 0 tr ∧ tr.any (goes "v" .alarmed .timelockStarted) = true ∧
      MovesFollowScans (gated 86400) tr := by
  obtain ⟨tr, runs, check⟩ := runs_of_play (gated 86400)
    (alarmedDoorA ++ wait 60 ++ [.start .schedulerTick] ++ steps 4 17 (oracle "" [coin]))
    (fun tr => (tr.zipIdx.all fun p => !inserts p.1 || p.2 = 5) &&
      tr.any (goes "v" .alarmed .timelockStarted)) (by decide +kernel)
  simp only [Bool.and_eq_true] at check
  obtain ⟨once, opened⟩ := check
  exact ⟨tr, runs, opened, movesFollowScans runs (freshIds_of_inserts once) rfl rfl⟩

end Released

end GhostKey

import GhostKey.Deployment

/-!
# Cycles and Their Markers

A cycle starts when a vault enters `ok`, by an activation or by a check-in. What
was remembered of an earlier cycle, so that nothing is sent twice in it, has to be
gone by then: the button and the link clear all of it, a Lightning check-in leaves
the two columns of the claim window, and an activation clears nothing.

Main results:
- `markers_set`: what each way to start a cycle leaves of the markers.
- `cyclesStartFresh_iff_markersOut`: every cycle of a run starts fresh exactly when
  activations and Lightning check-ins find the markers they leave already out.
-/

namespace GhostKey

open Foundation

/-! ## §1 Markers -/

/-- The columns that say what has happened in the current cycle. -/
structure Markers where
  preDeadlineReminderSentAt : Option Instant
  lastAlarmReminderSentAt : Option Instant
  alarmReminderCount : Nat
  checkinLinkTokenHash : Option Hash
  checkinLinkTokenIssuedAt : Option Instant
  checkinLinkTokenUsedAt : Option Instant
  claimTokenUsedAt : Option Instant
  claimOpenedAt : Option Instant
  claimReadyNotifiedAt : Option Instant
  deriving DecidableEq

/-- The markers of a new vault. -/
def Markers.out : Markers := ⟨none, none, 0, none, none, none, none, none, none⟩

/-- The two markers of the claim window. -/
def Markers.window (openedAt readyNotifiedAt : Option Instant) : Markers :=
  { Markers.out with claimOpenedAt := openedAt, claimReadyNotifiedAt := readyNotifiedAt }

def Lifecycle.markers (l : Lifecycle) : Markers :=
  ⟨l.preDeadlineReminderSentAt, l.lastAlarmReminderSentAt, l.alarmReminderCount,
    l.checkinLinkTokenHash, l.checkinLinkTokenIssuedAt, l.checkinLinkTokenUsedAt,
    l.claimTokenUsedAt, l.claimOpenedAt, l.claimReadyNotifiedAt⟩

/-- The UPDATEs that start a cycle. -/
def VaultUpdate.startsCycle : VaultUpdate → Bool
  | checkin _ _ _ => true
  | checkinFromLink _ _ _ _ => true
  | resetVaultClock _ _ _ => true
  | activate _ _ => true
  | _ => false

/-- What the UPDATE of a cycle's start leaves of the markers of `l`. -/
def VaultUpdate.leaves : VaultUpdate → Lifecycle → Markers
  | activate _ _, l => l.markers
  | resetVaultClock _ _ _, l => .window l.claimOpenedAt l.claimReadyNotifiedAt
  | _, _ => .out

/-- The four ways to start a cycle, and what they leave. -/
theorem markers_set {u : VaultUpdate} (starts : u.startsCycle = true) (r : VaultRow) :
    (u.set r).life.status = .ok ∧ (u.set r).life.markers = u.leaves r.life := by
  cases u with
  | checkin | checkinFromLink | resetVaultClock | activate => exact ⟨rfl, rfl⟩
  | _ => cases starts

theorem window_eq_out {openedAt readyNotifiedAt : Option Instant} :
    Markers.window openedAt readyNotifiedAt = .out ↔ openedAt = none ∧ readyNotifiedAt = none := by
  simp [Markers.window, Markers.out]

/-! ## §2 The cycles of a run -/

/-- No marker survives the start of a cycle. -/
def CyclesStartFresh (tr : Trace) : Prop :=
  ∀ (k : Nat) s v u, tr[k]? = some s → Commits s v u → u.startsCycle = true →
    ∃ r, s.after.vault? v = some r ∧ r.life.status = .ok ∧ r.life.markers = .out

/-- Activations and Lightning check-ins find the markers out that they leave. -/
structure MarkersOut (tr : Trace) : Prop where
  activation : ∀ (k : Nat) s v next eligible r, tr[k]? = some s →
    Commits s v (.activate next eligible) → s.before.vault? v = some r → r.life.markers = .out
  payment : ∀ (k : Nat) s v t next eligible r, tr[k]? = some s →
    Commits s v (.resetVaultClock t next eligible) → s.before.vault? v = some r →
    r.life.claimOpenedAt = none ∧ r.life.claimReadyNotifiedAt = none

section Runs

variable {S : Server} {t₀ : Instant} {tr : Trace} {s : SrvStep} {k : Nat} {v : VaultId}
  {u : VaultUpdate} {r : VaultRow}

/-- What one start of a cycle leaves of the row it meets. -/
theorem Commits.after_starts (commits : Commits s v u) (explains : (server S).Explains s)
    (starts : u.startsCycle = true) (row : s.before.vault? v = some r) :
    ∃ r', s.after.vault? v = some r' ∧ r'.life.status = .ok ∧ r'.life.markers = u.leaves r.life := by
  obtain ⟨applies, r', row', guard⟩ := commits
  rw [row] at row'
  cases row'
  exact ⟨u.set r, applies.after explains row guard, markers_set starts r⟩

/-- A run's cycles start fresh exactly when what is not cleared is out already. -/
theorem cyclesStartFresh_iff_markersOut (runs : Runs S t₀ tr) :
    CyclesStartFresh tr ↔ MarkersOut tr := by
  constructor
  · intro fresh
    have left : ∀ (k : Nat) s v u r, tr[k]? = some s → Commits s v u → u.startsCycle = true →
        s.before.vault? v = some r → u.leaves r.life = .out := by
      intro k s v u r at_k commits starts row
      obtain ⟨r₁, after, -, out⟩ := fresh k s v u at_k commits starts
      obtain ⟨r₂, after', -, leaves⟩ := commits.after_starts (runs.explains_at at_k) starts row
      rw [after] at after'
      cases after'
      rw [← leaves, out]
    refine ⟨fun k s v next eligible r at_k commits row => ?_,
      fun k s v t next eligible r at_k commits row => ?_⟩
    · exact left k s v _ r at_k commits rfl row
    · exact window_eq_out.1 (left k s v _ r at_k commits rfl row)
  · intro out k s v u at_k commits starts
    obtain ⟨r, row, -⟩ := commits.2
    obtain ⟨r', after, ok, leaves⟩ := commits.after_starts (runs.explains_at at_k) starts row
    refine ⟨r', after, ok, leaves.trans ?_⟩
    cases u with
    | activate next eligible => exact out.activation k s v next eligible r at_k commits row
    | resetVaultClock t next eligible =>
      exact window_eq_out.2 (out.payment k s v t next eligible r at_k commits row)
    | checkin | checkinFromLink => rfl
    | _ => cases starts

end Runs

/-! ## §3 A marker that survives -/

section Surviving

open Deployment

/-- A Door A vault whose claim link is opened before its first deposit, and which a
tick then activates. -/
def resolvedBeforeActivation : List (Move Oracle Drift Request) :=
  [.start (.createVaultFromXpub doorA)] ++ steps 0 9 (oracle "v" []) ++
    [.start (.resolveClaim "sealed")] ++ steps 1 8 (oracle "" []) ++
    [.start .schedulerTick] ++ steps 2 9 (oracle "" [coin])

/-- The stamp of the claim window survives the activation. -/
theorem not_cyclesStartFresh :
    ¬ ∀ (S : Server) (t₀ : Instant) (tr : Trace), S.Lawful → Runs S t₀ tr → CyclesStartFresh tr := by
  intro fresh
  obtain ⟨tr, runs, check⟩ := runs_of_play (host 86400) resolvedBeforeActivation
    (fun tr => tr[28]?.any fun s => updated 2 "v" (.activate 3660000000000 3720000000000) s &&
      (s.after.vault? "v").any fun r => r.life.claimOpenedAt = some 0) (by decide +kernel)
  simp only [Option.any_eq_true, Bool.and_eq_true, decide_eq_true_eq] at check
  obtain ⟨s, at_k, activated, r, after, stamped⟩ := check
  obtain ⟨r', after', -, out⟩ := fresh _ _ _ (lawful _) runs 28 s "v" _ at_k
    (commits_of_updated (runs.explains_at at_k) activated) rfl
  rw [after] at after'
  cases after'
  have opened : r.life.claimOpenedAt = none := congrArg Markers.claimOpenedAt out
  rw [stamped] at opened
  cases opened

/-- A first deposit, with nothing left from before. -/
theorem cyclesStartFresh_iff_markersOut_funded :
    ∃ tr, Runs (host 86400) 0 tr ∧ tr.any (updated 1 "v" (.activate 3660000000000 3720000000000)) ∧
      (CyclesStartFresh tr ↔ MarkersOut tr) := by
  obtain ⟨tr, runs, activated⟩ := runs_of_play (host 86400)
    ([.start (.createVaultFromXpub doorA)] ++ steps 0 9 (oracle "v" []) ++
      [.start .schedulerTick] ++ steps 1 9 (oracle "" [coin]))
    (fun tr => tr.any (updated 1 "v" (.activate 3660000000000 3720000000000))) (by decide +kernel)
  exact ⟨tr, runs, activated, cyclesStartFresh_iff_markersOut runs⟩

end Surviving

end GhostKey

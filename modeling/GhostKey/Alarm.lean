import GhostKey.Deployment
import GhostKey.Rows

/-!
# The Alarm Step and Its Batch

The alarm step selects the vaults whose deadline has passed and then sets each of
them to `alarmed` by id alone. Between the two anything may be written: what keeps
the step from overwriting it is that the row is still due when its UPDATE runs,
which is what an UPDATE with the SELECT's own WHERE clause would ask.

Main results:
- `alarmsInTime_iff_stillDue`: a run's alarm steps overwrite nothing newer than
  their SELECT exactly when every one of them finds its row still due.
-/

namespace GhostKey

open Foundation

/-! ## §1 Writers of the clock -/

/-- The UPDATEs that write the status or the deadline. -/
def VaultUpdate.writesClock : VaultUpdate → Bool
  | ownerContactVerified _ => false
  | issueClaim _ _ => false
  | stampClaimOpened _ => false
  | mintOneTapToken _ _ => false
  | cacheEstimate _ => false
  | preDeadlineReminded _ => false
  | escalated _ => false
  | claimReadyNotified _ => false
  | _ => true

/-- The deadline an UPDATE writes. -/
def VaultUpdate.deadline : VaultUpdate → Option Instant
  | checkin _ next _ => some next
  | checkinFromLink _ _ next _ => some next
  | resetVaultClock _ next _ => some next
  | activate next _ => some next
  | _ => none

/-- The step writes the status or the deadline of `v`, or the whole row. -/
inductive Rewrites (s : SrvStep) (v : VaultId) : Prop
  | updated (u : VaultUpdate) (commits : Commits s v u) (writes : u.writesClock = true)
  | inserted (i : Nat) (r : VaultRow) (n : Nat) (did : Did i (.exec (.insertVault r)) (.ok n) s)
      (id : r.id = v)
  | deleted (i : Nat) (n : Nat) (did : Did i (.exec (.deleteVault v)) (.ok n) s)

/-- Every deadline is written while it is still ahead. -/
structure DeadlinesAhead (tr : Trace) : Prop where
  updated : ∀ (k : Nat) s v u d, tr[k]? = some s → Commits s v u → u.deadline = some d →
    s.before.clock < d
  inserted : ∀ (k : Nat) s i r n, tr[k]? = some s → Did i (.exec (.insertVault r)) (.ok n) s →
    s.before.clock < r.life.nextDeadlineAt

/-- What the label of a step and the rows it finds say of the deadlines it writes. -/
def writesAhead (s : SrvStep) : Bool :=
  match s.label with
  | .acted _ ⟨.exec (.updateVault _ u), _⟩ => u.deadline.all (s.before.clock < ·)
  | .acted _ ⟨.exec (.insertVault r), _⟩ => s.before.clock < r.life.nextDeadlineAt
  | .acted _ ⟨.payCheckin _ t, _⟩ =>
      s.before.db.vaults.rows.all fun r => s.before.clock < t + r.settings.cycle
  | _ => true

theorem DeadlinesAhead.of_all {tr : Trace} (all : tr.all writesAhead = true) :
    DeadlinesAhead tr := by
  have each : ∀ (k : Nat) s, tr[k]? = some s → writesAhead s = true := fun k s at_k =>
    List.all_eq_true.1 all s (List.mem_of_getElem? at_k)
  refine ⟨fun k s v u d at_k commits written => ?_, fun k s i r n at_k did => ?_⟩
  · have here := each k s at_k
    unfold writesAhead at here
    obtain ⟨applies, -⟩ := commits
    cases applies with
    | exec did =>
      rw [show s.label = _ from did] at here
      simpa [written] using here
    | paid did pending issued here' row reached =>
      rw [show s.label = _ from did] at here
      cases written
      simpa using List.all_eq_true.1 here _ (KeyedTable.find?_mem row)
    | panic did => cases written
  · have here := each k s at_k
    unfold writesAhead at here
    rw [show s.label = _ from did] at here
    simpa using here

/-- The row would be selected as due. -/
def Due (nowIso : Instant) (r : VaultRow) : Prop :=
  r.life.status = .ok ∧ r.life.nextDeadlineAt ≤ nowIso

section Rows

variable {u : VaultUpdate} {r : VaultRow} {nowIso : Instant}

/-- A row whose clock has been rewritten is not due, if the deadline is ahead. -/
theorem not_due_of_writesClock (writes : u.writesClock = true)
    (ahead : ∀ d, u.deadline = some d → nowIso < d)
    (initial : ∀ st, u = .setInitialStatus st → st ≠ .ok) : ¬ Due nowIso (u.set r) := by
  rintro ⟨status, deadline⟩
  cases u with
  | setInitialStatus st => exact initial st rfl status
  | checkin | checkinFromLink | resetVaultClock | activate =>
    exact absurd deadline (Int.not_le.2 (ahead _ rfl))
  | _ => first | cases status | cases writes

/-- Any other UPDATE leaves the clock as it is. -/
theorem VaultUpdate.clock_kept (other : u.writesClock = false) :
    (u.set r).life.status = r.life.status ∧
      (u.set r).life.nextDeadlineAt = r.life.nextDeadlineAt := by
  cases u <;> first | exact ⟨rfl, rfl⟩ | cases other

end Rows

/-! ## §2 The alarm steps of a run -/

/-- The thread `i` selected `v` as due at `j` and set it to `alarmed` at `k`. -/
structure AlarmStep (tr : Trace) (i j k : Nat) (v : VaultId) (nowIso : Instant) : Prop where
  order : j < k
  selected : ∃ (s : SrvStep) (rows : List (VaultRow × Instant)) (d : VaultRow × Instant),
    tr[j]? = some s ∧ Did i (.query (.deadlineMissed nowIso)) (.ok rows) s ∧ d ∈ rows ∧ d.1.id = v
  updated : ∃ (s : SrvStep) (n : Nat), tr[k]? = some s ∧ Did i (.exec (.updateVault v .alarm)) (.ok n) s ∧
    ∃ r, s.before.vault? v = some r

/-- No alarm step overwrites a status or deadline written after its SELECT. -/
def AlarmsInTime (tr : Trace) : Prop :=
  ∀ i j k v nowIso, AlarmStep tr i j k v nowIso → ∀ (c : Nat) (s : SrvStep), j < c → c < k → tr[c]? = some s →
    ¬ Rewrites s v

/-- Every alarm step finds its row still due. -/
def StillDue (tr : Trace) : Prop :=
  ∀ i j k v nowIso, AlarmStep tr i j k v nowIso → ∀ (s : SrvStep) (r : VaultRow), tr[k]? = some s →
    s.before.vault? v = some r → Due nowIso r

section Runs

variable {S : Server} {t₀ : Instant} {tr : Trace} {s : SrvStep} {v : VaultId} {i j k : Nat}
variable {nowIso : Instant}

/-- What the batch says about a row it lists. -/
theorem mem_deadlineMissed {db : Db} {rows : List (VaultRow × Instant)}
    (batch : Query.eval (.deadlineMissed nowIso) db = .ok rows) {d : VaultRow × Instant}
    (mem : d ∈ rows) : db.vault? d.1.id = some d.1 ∧ Due nowIso d.1 := by
  obtain ⟨row, due⟩ := Db.mem_decodeColumn batch mem
  obtain ⟨here, where_⟩ := KeyedTable.mem_select.1 row
  simp only [Db.deadlineMissed, Bool.decide_and, Bool.and_eq_true, decide_eq_true_eq] at where_
  exact ⟨here, where_⟩

/-- What a rewriting step leaves is not due. -/
theorem Runs.not_due_of_rewrites (runs : Runs S t₀ tr) (ahead : DeadlinesAhead tr)
    (at_k : tr[k]? = some s) (past : nowIso ≤ s.before.clock) (rewrites : Rewrites s v) {r : VaultRow}
    (after : s.after.vault? v = some r) : ¬ Due nowIso r := by
  have explains := runs.explains_at at_k
  cases rewrites with
  | updated u commits writes =>
    obtain ⟨applies, r₀, before, guard⟩ := commits
    rw [applies.after explains before guard] at after
    cases after
    refine not_due_of_writesClock writes (fun d written => ?_) ?_
    · exact Int.lt_of_le_of_lt past (ahead.updated k s v u d at_k ⟨applies, r₀, before, guard⟩ written)
    · rintro st rfl
      rw [runs.initial_status at_k applies]
      decide
  | inserted i r' n did id =>
    subst id
    rw [(did_insertVault explains did).2] at after
    cases after
    rintro ⟨-, deadline⟩
    have later := ahead.inserted k s i r n at_k did
    exact absurd (Int.lt_of_le_of_lt past later) (Int.not_lt.2 deadline)
  | deleted i n did =>
    rw [did_deleteVault explains did] at after
    cases after

/-- A step that does not rewrite `v` leaves the clock columns of its row alone. -/
theorem Runs.clock_kept (runs : Runs S t₀ tr) (at_k : tr[k]? = some s) (still : ¬ Rewrites s v)
    {r : VaultRow} (after : s.after.vault? v = some r) :
    ∃ r₀, s.before.vault? v = some r₀ ∧ r.life.status = r₀.life.status ∧
      r.life.nextDeadlineAt = r₀.life.nextDeadlineAt := by
  cases rowChange (runs.explains_at at_k) v with
  | kept same => exact ⟨r, by rw [← same, after], rfl, rfl⟩
  | contacts r₀ c before after' =>
    rw [after'] at after
    cases after
    exact ⟨r₀, before, rfl, rfl⟩
  | inserted i r' n did id => exact absurd (.inserted i r' n did id) still
  | deleted i n did => exact absurd (.deleted i n did) still
  | applied u r₀ applies before guard after' =>
    rw [after'] at after
    cases after
    have other : u.writesClock = false := by
      by_contra writes
      exact still (.updated u ⟨applies, r₀, before, guard⟩ (by simpa using writes))
    exact ⟨r₀, before, VaultUpdate.clock_kept other⟩

/-- The tick's time was read before its SELECT. -/
theorem AlarmStep.past (runs : Runs S t₀ tr) {i : Nat} (step : AlarmStep tr i j k v nowIso)
    {c : Nat} (lt : j < c) (at_c : tr[c]? = some s) : nowIso ≤ s.before.clock := by
  obtain ⟨t, rows, d, at_j, did, -⟩ := step.selected
  obtain ⟨q, -, read⟩ := runs.justified at_j did
  obtain ⟨j', t', before, at_j', -, rfl⟩ := runs.clock_at read
  exact runs.clock_mono at_j' (Nat.le_of_lt (before.trans lt)) at_c

/-- A run's alarm steps overwrite nothing newer than their SELECT exactly when
every one of them finds its row still due. -/
theorem alarmsInTime_iff_stillDue (runs : Runs S t₀ tr) (ahead : DeadlinesAhead tr) :
    AlarmsInTime tr ↔ StillDue tr := by
  obtain ⟨c, run⟩ := id runs
  constructor
  -- still due by induction over the steps since the SELECT
  · intro inTime i j k v nowIso step s r at_k row
    obtain ⟨t, rows, d, at_j, did, mem, rfl⟩ := step.selected
    obtain ⟨selected, due⟩ := mem_deadlineMissed (did_query (runs.explains_at at_j) did).1 mem
    have kept : ∀ r, s.before.vault? d.1.id = some r → Due nowIso r := by
      refine run.since (P := fun w => ∀ r, w.vault? d.1.id = some r → Due nowIso r) at_j
        (fun r here => ?_) (fun n u after before at_n here r later => ?_) step.order at_k
      · rw [(did_query (runs.explains_at at_j) did).2, World.vault?, selected] at here
        cases here
        exact due
      · obtain ⟨r₀, row₀, status, deadline⟩ := runs.clock_kept at_n
          (inTime i j k _ nowIso step n u after before at_n) later
        unfold Due
        rw [status, deadline]
        exact here r₀ row₀
    exact kept r row
  -- a rewrite moves the deadline past the tick's time for good
  · intro stillDue i j k v nowIso step c s after before at_c rewrites
    obtain ⟨t, n, at_k, did, r, row⟩ := step.updated
    refine run.since (P := fun w => nowIso ≤ w.clock ∧ ∀ r, w.vault? v = some r → ¬ Due nowIso r)
      at_c ⟨?_, fun r later => ?_⟩ (fun m u later _ at_m here => ⟨?_, fun r last => ?_⟩) before at_k
      |>.2 r row (stillDue i j k v nowIso step t r at_k row)
    · exact (step.past runs after at_c).trans (clock_le (runs.explains_at at_c))
    · exact runs.not_due_of_rewrites ahead at_c (step.past runs after at_c) rewrites later
    · exact here.1.trans (clock_le (runs.explains_at at_m))
    · by_cases again : Rewrites u v
      · exact runs.not_due_of_rewrites ahead at_m here.1 again last
      · obtain ⟨r₀, row₀, status, deadline⟩ := runs.clock_kept at_m again last
        have not_due := here.2 r₀ row₀
        unfold Due at not_due ⊢
        rwa [status, deadline]

end Runs

/-! ## §3 A check-in that is lost -/

section Lost

open Deployment

/-- The tick selects a vault as due, its owner checks in, and the tick goes on. -/
def checkinMeanwhile : List (Move Oracle Drift Request) :=
  funded ++ wait 3660 ++ [.start .schedulerTick] ++ steps 3 14 (oracle "" [coin]) ++
    [.start (.checkin "v")] ++ steps 4 6 (oracle "" [coin]) ++ steps 3 1 (oracle "" [coin])

/-- Whether thread 3 selected `v` as due in this step. -/
def selectsDue (v : VaultId) (nowIso : Instant) (s : SrvStep) : Bool :=
  match s.label with
  | .acted 3 ⟨.query (.deadlineMissed t), .ok rows⟩ =>
      t = nowIso && rows.any fun d : VaultRow × Instant => d.1.id = v
  | _ => false

theorem alarmStep_of_selectsDue {S : Server} {t₀ : Instant} {tr : Trace} {j k : Nat} {s t : SrvStep}
    {v : VaultId} {nowIso : Instant} (runs : Runs S t₀ tr) (lt : j < k) (at_j : tr[j]? = some s)
    (at_k : tr[k]? = some t) (selects : selectsDue v nowIso s = true)
    (did : updated 3 v .alarm t = true) : AlarmStep tr 3 j k v nowIso := by
  obtain ⟨-, r, row, -⟩ := commits_of_updated (runs.explains_at at_k) did
  refine ⟨lt, ?_, t, 1, at_k, did_of_updated did, r, row⟩
  unfold selectsDue at selects
  split at selects
  · next t' rows label =>
    simp only [Bool.and_eq_true, decide_eq_true_eq] at selects
    obtain ⟨rfl, listed⟩ := selects
    obtain ⟨d, mem, id⟩ := List.any_eq_true.1 listed
    exact ⟨s, rows, d, at_j, label, mem, by simpa using id⟩
  · cases selects

/-- The alarm overwrites the check-in. -/
theorem not_alarmsInTime :
    ¬ ∀ (S : Server) (t₀ : Instant) (tr : Trace), S.Lawful → Runs S t₀ tr → AlarmsInTime tr := by
  intro inTime
  obtain ⟨tr, runs, check⟩ := runs_of_play (host 86400) checkinMeanwhile
    (fun tr => tr[45]?.any (selectsDue "v" 3660000000000) &&
      tr[49]?.any (updated 4 "v" (.checkin 3660000000000 7320000000000 7380000000000)) &&
      tr[53]?.any (updated 3 "v" .alarm)) (by decide +kernel)
  simp only [Bool.and_eq_true, Option.any_eq_true] at check
  obtain ⟨⟨⟨s, at_j, selects⟩, c, at_c, checkin⟩, t, at_k, alarm⟩ := check
  exact inTime _ _ _ (lawful _) runs 3 45 53 "v" 3660000000000
    (alarmStep_of_selectsDue runs (by decide) at_j at_k selects alarm) 49 c (by decide) (by decide)
    at_c (.updated _ (commits_of_updated (runs.explains_at at_c) checkin) rfl)

/-- The same tick undisturbed. -/
theorem alarmsInTime_iff_stillDue_alone :
    ∃ tr, Runs (host 86400) 0 tr ∧ tr.any (updated 3 "v" .alarm) = true ∧
      (AlarmsInTime tr ↔ StillDue tr) := by
  obtain ⟨tr, runs, check⟩ := runs_of_play (host 86400)
    (funded ++ wait 3660 ++ [.start .schedulerTick] ++ steps 3 15 (oracle "" [coin]))
    (fun tr => tr.any (updated 3 "v" .alarm) && tr.all writesAhead) (by decide +kernel)
  simp only [Bool.and_eq_true] at check
  exact ⟨tr, runs, check.1, alarmsInTime_iff_stillDue runs (.of_all check.2)⟩

end Lost

end GhostKey

import GhostKey.Alarm
import GhostKey.Rounds
import GhostKey.Scans
import GhostKey.Trigger

/-!
# The Grace Period

An alarm is to leave the owner the vault's grace period before the heir hears of it. The
two times the scheduler goes by, `next_deadline_at` and `claim_eligible_at`, are written
a grace period apart long before; a tick that comes late may find both behind it, and the
end of a freeze puts a vault into alarm whose times ran on while it was frozen.

Main results:
- `Runs.eligibleAfterGrace`: the two times of a row are a grace period apart.
- `Runs.exists_alarmedSince`: an alarmed row entered that status at some step.
- `Runs.sameTerm`: a row whose deadline has passed is in the term it was in then.
- `Runs.ahead_of_swept`: a whole tick leaves no `ok` row whose deadline it had passed.
- `alarmedThroughGrace_of_onTime`: where a whole tick fits between a vault's deadline and the
  grace period before any tick past its claim time, every heir is contacted a recorded grace
  period after the alarm.
-/

namespace GhostKey

open Foundation

/-! ## §1 The two times of a row -/

/-- The claim may be opened one grace period after the deadline. -/
def EligibleAfterGrace (r : VaultRow) : Prop :=
  ∀ e, r.life.claimEligibleAt = some e → e = r.life.nextDeadlineAt + r.settings.grace

/-- The two times an UPDATE writes. -/
def VaultUpdate.times : VaultUpdate → Option (Instant × Instant)
  | checkin _ next e => some (next, e)
  | checkinFromLink _ _ next e => some (next, e)
  | resetVaultClock _ next e => some (next, e)
  | activate next e => some (next, e)
  | _ => none

theorem EligibleAfterGrace.set {u : VaultUpdate} {r : VaultRow} (eligible : EligibleAfterGrace r)
    (written : ∀ next e, u.times = some (next, e) → e = next + r.settings.grace) :
    EligibleAfterGrace (u.set r) := by
  intro e claim
  rw [VaultUpdate.set_settings]
  cases u with
  | checkin t next e' | checkinFromLink hash t next e' | resetVaultClock t next e'
  | activate next e' =>
    cases claim
    exact written next e rfl
  | ownerFullDrain | returnEmpty st => cases claim
  | _ => exact eligible e claim

section Runs

variable {S : Server} {t₀ : Instant} {tr : Trace} {s : SrvStep} {v : VaultId} {i k : Nat}
variable {r : VaultRow}

/-- The settings a thread goes by are those of the row it writes to. -/
theorem Runs.read_settings (runs : Runs S t₀ tr) (fresh : FreshIds tr) (at_k : tr[k]? = some s)
    (row : s.before.vault? v = some r) {q : Query} {res : q.Result} {r' : VaultRow}
    (read : Read (history i k tr) q res) (mem : r' ∈ q.rows res) (id : r'.id = v) :
    r'.settings = r.settings := by
  subst id
  obtain ⟨j, t, -, at_j, row'⟩ := runs.seen_at ⟨q, res, read, mem⟩
  exact (runs.fixed fresh at_j at_k row' row).1.symm

/-- Whatever warrants writing the two times, they are a grace period apart. -/
theorem Runs.times_warranted (runs : Runs S t₀ tr) (fresh : FreshIds tr) (at_k : tr[k]? = some s)
    {q : Request} {u : VaultUpdate} (warranted : Warranted S q (history i k tr) v u)
    (row : s.before.vault? v = some r) :
    ∀ next e, u.times = some (next, e) → e = next + r.settings.grace := by
  intro next e times
  cases u with
  | checkin t next' e' =>
    obtain ⟨r', read, -, -, -, -, eligible⟩ := warranted
    cases times
    have id : r'.id = v := by
      obtain ⟨j, t, -, -, -, answer⟩ := runs.read_at read
      exact Db.vault?_id (Except.ok.inj answer)
    rw [eligible, runs.read_settings fresh at_k row read (List.mem_singleton.2 rfl) id]
  | checkinFromLink stored t next' e' =>
    obtain ⟨hash, r', read, -, -, -, -, eligible⟩ := warranted
    cases times
    have id : r'.id = v := by
      obtain ⟨j, t, -, -, -, answer⟩ := runs.read_at read
      exact Db.vault?_id (Option.filter_eq_some_iff.1 (Except.ok.inj answer)).1
    rw [eligible, runs.read_settings fresh at_k row read (List.mem_singleton.2 rfl) id]
  | activate next' e' =>
    obtain ⟨-, rows, r', t, read, mem, id, -, -, eligible, -⟩ := warranted
    cases times
    rw [eligible, runs.read_settings fresh at_k row read mem id]
  | resetVaultClock => exact warranted.elim
  | _ => cases times

/-- The two times of a row are a grace period apart. -/
theorem Runs.eligibleAfterGrace (runs : Runs S t₀ tr) (fresh : FreshIds tr)
    (at_k : tr[k]? = some s) (row : s.before.vault? v = some r) : EligibleAfterGrace r := by
  refine (runs.row_invariant (v := v) (P := fun _ r => EligibleAfterGrace r) ⟨?_, ?_, ?_, ?_⟩
    at_k).1 r row
  · intro n s r _ _ _ _ eligible
    exact eligible
  · intro n s r c _ _ _ _ eligible
    exact eligible
  · intro n s i r m at_n did _ e claim
    obtain ⟨q, -, t, token, -, life, -⟩ := runs.justified at_n did
    rw [life] at claim ⊢
    cases claim
    rfl
  · intro n s u r at_n applies row _ eligible
    apply eligible.set
    cases applies with
    | exec did =>
      obtain ⟨q, -, warranted⟩ := runs.justified at_n did
      exact runs.times_warranted fresh at_n warranted row
    | paid did pending issued here row' reached =>
      rw [row] at row'
      cases row'
      rintro next e ⟨⟩
      rfl
    | panic did =>
      rintro next e ⟨⟩

/-! ## §2 Spells of alarm -/

/-- The row of `v` became alarmed by the step at `j` and is alarmed since, up to the step
at `k`. -/
structure AlarmedSince (tr : Trace) (v : VaultId) (j k : Nat) : Prop where
  before : j < k
  enters : ∃ s, tr[j]? = some s ∧ Enters s v .alarmed
  stays : ∀ n t, j < n → n ≤ k → tr[n]? = some t →
    ∃ r, t.before.vault? v = some r ∧ r.life.status = .alarmed

/-- An alarmed row entered that status at some step. -/
theorem Runs.exists_alarmedSince (runs : Runs S t₀ tr) (at_k : tr[k]? = some s)
    (row : s.before.vault? v = some r) (alarmed : r.life.status = .alarmed) :
    ∃ j, AlarmedSince tr v j k := by
  obtain ⟨c, run⟩ := id runs
  -- the step before was alarmed already, or it entered
  induction k generalizing s r with
  | zero =>
    rw [run.before_zero at_k] at row
    cases row
  | succ k ih =>
    have inside := (List.getElem?_eq_some_iff.1 at_k).1
    have at_prev : tr[k]? = some tr[k] := List.getElem?_eq_getElem (Nat.lt_of_succ_lt inside)
    have after := run.after_at at_prev at_k
    by_cases early : ∃ r, tr[k].before.vault? v = some r ∧ r.life.status = .alarmed
    · obtain ⟨r₀, row₀, alarmed₀⟩ := early
      obtain ⟨j, lt, enters, stays⟩ := ih at_prev row₀ alarmed₀
      refine ⟨j, Nat.lt_succ_of_lt lt, enters, ?_⟩
      intro n t after_j le at_n
      rcases Nat.le_succ_iff.1 le with old | rfl
      · exact stays n t after_j old at_n
      · rw [at_k] at at_n
        cases at_n
        exact ⟨r, row, alarmed⟩
    · refine ⟨k, Nat.lt_succ_self k, ⟨_, at_prev, ⟨r, by rw [after, row], alarmed⟩, ?_⟩, ?_⟩
      · intro r₀ row₀ alarmed₀
        exact early ⟨r₀, row₀, alarmed₀⟩
      · intro n t after_k le at_n
        have last : n = k + 1 := by omega
        subst last
        rw [at_k] at at_n
        cases at_n
        exact ⟨r, row, alarmed⟩

end Runs

/-! ## §3 Alarms that last the grace period -/

/-- At `k` the thread `i` opens the claim of `v`, whose row is `r`, by the time `nowIso`. -/
structure Opening (tr : Trace) (i k : Nat) (s : SrvStep) (v : VaultId) (r : VaultRow)
    (nowIso : Instant) : Prop where
  at_k : tr[k]? = some s
  row : s.before.vault? v = some r
  moves : ∃ hash reused n, Did i (.exec (.updateVault v (triggerUpdate hash reused nowIso))) (.ok n) s ∧
    (triggerUpdate hash reused nowIso).guard r = true

/-- Between `j` and `k` the thread `i` has put `v` into alarm, recorded it, and attempted
to notify the owner. -/
def AlarmedBy (S : Server) (tr : Trace) (i j k : Nat) (v : VaultId) : Prop :=
  ∃ n more r, history i k tr = history i j tr ++ alarmed v n :: more ∧ r.id = v ∧
    AlarmRecorded S r more

/-- Every claim a tick opens is of a vault in alarm since its grace period or longer, put
there by another tick that recorded it and attempted to notify the owner. -/
def AlarmedThroughGrace (S : Server) (tr : Trace) : Prop :=
  ∀ i k s v r nowIso, Opening tr i k s v r nowIso →
    ∃ j t i' n, tr[j]? = some t ∧ t.label = .acted i' (alarmed v n) ∧ AlarmedSince tr v j k ∧
      i' ≠ i ∧ AlarmedBy S tr i' j k v ∧ t.before.clock + r.settings.grace ≤ s.before.clock

/-- At `m` the tick of thread `i` reads the time it goes by. -/
structure TickStarts (tr : Trace) (i m : Nat) (s : SrvStep) (nowIso : Instant) : Prop where
  at_m : tr[m]? = some s
  tick : Started i .schedulerTick (tr.take m)
  reads : Did i .now nowIso s
  first : history i m tr = []

/-- At `n` the tick of thread `i` ends, without an error. -/
structure TickEnds (tr : Trace) (i n : Nat) (s : SrvStep) : Prop where
  at_n : tr[n]? = some s
  returned : ∃ rep, s.label = .returned i (.ok rep)

/-- What the ticks of a run must keep to. -/
structure OnTime (tr : Trace) : Prop where
  /-- Before a tick that starts past the claim time of a vault, a whole tick has started after
  its deadline and ended a grace period ahead of this one. -/
  covered : ∀ i m s nowIso v r e, TickStarts tr i m s nowIso → s.before.vault? v = some r →
    r.life.status = .ok ∨ r.life.status = .alarmed → r.life.claimEligibleAt = some e →
    e ≤ nowIso → ∃ i' m' s' start n t, TickStarts tr i' m' s' start ∧ TickEnds tr i' n t ∧
      r.life.nextDeadlineAt ≤ start ∧ t.before.clock + r.settings.grace ≤ nowIso
  /-- No tick that started past the claim time of a vault is at work while the vault is in an
  alarm that the end of a freeze began. -/
  thawed : ∀ i m u nowIso (k : Nat) s ev v r e j t, TickStarts tr i m u nowIso → tr[k]? = some s →
    s.label = .acted i ev → s.before.vault? v = some r → r.life.claimEligibleAt = some e →
    AlarmedSince tr v j k → tr[j]? = some t → Commits t v .unfreeze → nowIso < e
  /-- No alarm event is refused. -/
  recorded : ∀ (k : Nat) s i ev e, tr[k]? = some s → Did i (.exec (.insertEvent ev)) (.error e) s →
    ev.kind ≠ .alarm
  /-- The process is not halted under a tick that has put a vault into alarm. -/
  whole : ∀ (j k : Nat) s t i v n, j < k → tr[j]? = some s → s.label = .acted i (alarmed v n) →
    tr[k]? = some t → t.label = .halted →
      ∃ (m : Nat) (u : SrvStep) (r : Except ApiError Reply), j < m ∧ m < k ∧ tr[m]? = some u ∧
        u.label = .returned i r

/-! ## §4 Rows whose deadline has passed -/

/-- The deadline an UPDATE writes is the row's from then on. -/
theorem VaultUpdate.set_deadline {u : VaultUpdate} {r : VaultRow} {d : Instant}
    (written : u.deadline = some d) : (u.set r).life.nextDeadlineAt = d := by
  cases u <;> cases written <;> rfl

/-- `r` follows `r₀` without new times: a claim time may have been cleared, and what was
not `ok` is not. -/
structure SameTerm (r₀ r : VaultRow) : Prop where
  deadline : r₀.life.nextDeadlineAt = r.life.nextDeadlineAt
  eligible : ∀ e, r.life.claimEligibleAt = some e → r₀.life.claimEligibleAt = some e
  ok : r.life.status = .ok → r₀.life.status = .ok

theorem SameTerm.refl (r : VaultRow) : SameTerm r r := ⟨rfl, fun _ same => same, fun same => same⟩

theorem SameTerm.trans {r₁ r₂ r₃ : VaultRow} (first : SameTerm r₁ r₂) (second : SameTerm r₂ r₃) :
    SameTerm r₁ r₃ where
  deadline := first.deadline.trans second.deadline
  eligible e same := first.eligible e (second.eligible e same)
  ok same := first.ok (second.ok same)

/-- An UPDATE that writes no deadline keeps the term. -/
theorem SameTerm.set {u : VaultUpdate} {r : VaultRow} (untimed : u.deadline = none)
    (initial : ∀ st, u = .setInitialStatus st → st ≠ .ok) : SameTerm r (u.set r) := by
  cases u with
  | checkin | checkinFromLink | resetVaultClock | activate => cases untimed
  | setInitialStatus st =>
    exact ⟨rfl, fun _ same => same, fun ok => absurd ok (initial st rfl)⟩
  | ownerFullDrain | returnEmpty =>
    refine ⟨rfl, fun e cleared => ?_, fun ok => ?_⟩
    · cases cleared
    · cases ok
  | panicFreeze | consumeClaimToken | releaseClaimToken | promoteClaimed | unfreeze | alarm
  | openReused | openFresh =>
    refine ⟨rfl, fun _ same => same, fun ok => ?_⟩
    cases ok
  | _ => exact ⟨rfl, fun _ same => same, fun same => same⟩

/-- A row that is due is in the batch. -/
theorem mem_of_due {db : Db} {rows : List (VaultRow × Instant)} {v : VaultId} {r : VaultRow}
    {nowIso : Instant} (batch : Query.eval (.deadlineMissed nowIso) db = .ok rows)
    (row : db.vault? v = some r) (due : Due nowIso r) : ∃ d ∈ rows, d.1 = r := by
  have listed : r ∈ db.vaults.select (Db.deadlineMissed nowIso) := by
    refine KeyedTable.mem_select.2 ⟨?_, ?_⟩
    · exact Db.vault?_id row ▸ row
    · simpa [Db.deadlineMissed, Due] using due
  rw [← Db.map_decodeColumn batch] at listed
  obtain ⟨d, mem, same⟩ := List.mem_map.1 listed
  exact ⟨d, mem, same⟩

section Runs

variable {S : Server} {t₀ : Instant} {tr : Trace} {s t : SrvStep} {v : VaultId} {i i' j k m n : Nat}
variable {r : VaultRow} {nowIso start : Instant}

/-- A row whose deadline has passed by an earlier time is in the term it was in then: a
deadline is written while it is still ahead. -/
theorem Runs.sameTerm (runs : Runs S t₀ tr) (ahead : DeadlinesAhead tr) (at_j : tr[j]? = some t)
    (past : start ≤ t.before.clock) (le : j ≤ k) (at_k : tr[k]? = some s)
    (row : s.before.vault? v = some r) (due : r.life.nextDeadlineAt ≤ start) :
    ∃ r₀, t.before.vault? v = some r₀ ∧ SameTerm r₀ r := by
  obtain ⟨c, run⟩ := id runs
  -- by induction on the steps since, for the rows whose deadline has passed
  refine ((run.invariant_at (P := fun n w => j ≤ n → ∀ r, w.vault? v = some r →
    r.life.nextDeadlineAt ≤ start → ∃ r₀, t.before.vault? v = some r₀ ∧ SameTerm r₀ r) ?_ ?_).1
    k s at_k).1 le r row due
  · intro _ r none
    cases none
  · intro n u at_n explains here le r after due
    rcases Nat.lt_or_eq_of_le le with later | same
    · have le : j ≤ n := Nat.le_of_lt_succ later
      have now := past.trans (runs.clock_mono at_j le at_n)
      cases rowChange explains v with
      | kept same => exact here le r (same ▸ after) due
      | contacts r₀ c before after' =>
        rw [after'] at after
        cases after
        obtain ⟨r₁, row₁, term⟩ := here le r₀ before due
        exact ⟨r₁, row₁, term.deadline, term.eligible, term.ok⟩
      | inserted i r' n' did id fresh after' =>
        rw [after'] at after
        cases after
        exact absurd (Int.lt_of_le_of_lt now (ahead.inserted n u i r n' at_n did)) (Int.not_lt.2 due)
      | deleted i n' did after' =>
        rw [after'] at after
        cases after
      | applied x r₀ applies before guard after' =>
        rw [after'] at after
        cases after
        cases written : x.deadline with
        | some d =>
          have later := ahead.updated n u v x d at_n ⟨applies, r₀, before, guard⟩ written
          rw [VaultUpdate.set_deadline written] at due
          exact absurd (Int.lt_of_le_of_lt now later) (Int.not_lt.2 due)
        | none =>
          have same : SameTerm r₀ (x.set r₀) := .set written fun st initial => by
            subst initial
            rw [runs.initial_status at_n applies]
            decide
          obtain ⟨r₁, row₁, term⟩ := here le r₀ before (same.deadline ▸ due)
          exact ⟨r₁, row₁, term.trans same⟩
    · subst same
      rw [run.after_at at_n at_j] at after
      exact ⟨r, after, .refl r⟩

/-! ## §5 What a tick lists and moves -/

/-- Alarm is entered by an UPDATE of a tick: the alarm step, or the end of a freeze. -/
theorem Runs.alarm_entered (runs : Runs S t₀ tr) (at_j : tr[j]? = some t)
    (enters : Enters t v .alarmed) :
    ∃ i u n, t.label = .acted i ⟨.exec (.updateVault v u), .ok n⟩ ∧ Commits t v u ∧
      Started i .schedulerTick (tr.take j) ∧ (u = .alarm ∨ u = .unfreeze) := by
  obtain ⟨u, r₀, applies, row, guard, -, now, before⟩ := runs.entered at_j enters (by decide)
  rw [VaultUpdate.set_life] at now
  cases u with
  | alarm =>
    obtain ⟨i, q, n, did, started, tick, -⟩ :=
      runs.warranted at_j applies (fun _ _ _ => by simp) fun _ => by simp
    exact ⟨i, _, n, did, ⟨applies, r₀, row, guard⟩, tick ▸ started, .inl rfl⟩
  | unfreeze =>
    obtain ⟨i, q, n, did, started, tick, -⟩ :=
      runs.warranted at_j applies (fun _ _ _ => by simp) fun _ => by simp
    exact ⟨i, _, n, did, ⟨applies, r₀, row, guard⟩, tick ▸ started, .inr rfl⟩
  | setInitialStatus st =>
    rw [runs.initial_status at_j applies] at now
    cases now
  | _ => first | exact absurd now before | cases now

/-- What the alarm step of a tick writes to, it has listed as missed by the time it read first. -/
theorem Runs.alarm_listed (runs : Runs S t₀ tr) (at_j : tr[j]? = some t) {c : Nat}
    (label : t.label = .acted i (alarmed v c)) :
    ∃ q u e start r, q < j ∧ tr[q]? = some u ∧ u.label = .acted i e ∧
      (history i j tr).head? = some ⟨.now, start⟩ ∧ u.before.vault? v = some r ∧ Due start r := by
  obtain ⟨q, started, rfl, start, rows, d, read, mem, rfl⟩ := runs.justified at_j label
  obtain ⟨p, u, before, at_p, did, batch⟩ := runs.read_at read
  obtain ⟨row, due⟩ := mem_deadlineMissed batch mem
  obtain ⟨c, run⟩ := id runs
  have head := runs.selected_at_start at_p did (.inl rfl)
    (run.started_before at_p did (Nat.le_of_lt before) started)
  exact ⟨p, u, _, start, d.1, before, at_p, did,
    head_of_grown head (history_mono (Nat.le_of_lt before)), row, due⟩

/-- A tick that opens a claim goes by the time it read first of all, and has found the row in
alarm and past its claim time since. -/
theorem Runs.opening_selected (runs : Runs S t₀ tr) (opening : Opening tr i k s v r nowIso) :
    Started i .schedulerTick (tr.take k) ∧ ∃ m u q w e r' elig, TickStarts tr i m u nowIso ∧
      m < q ∧ q < k ∧ tr[q]? = some w ∧ w.label = .acted i e ∧ e.action = .query (.claimEligible nowIso) ∧
      w.before.vault? v = some r' ∧ r'.life.status = .alarmed ∧
      r'.life.claimEligibleAt = some elig ∧ elig ≤ nowIso := by
  obtain ⟨at_k, -, hash, reused, n, did, -⟩ := opening
  obtain ⟨q, started, just⟩ := runs.justified at_k did
  have due : q = .schedulerTick ∧ ∃ r', DueClaim (history i k tr) nowIso r' ∧ r'.id = v := by
    cases reused with
    | true =>
      obtain ⟨tick, r', token, due, id, -⟩ := just
      exact ⟨tick, r', due, id⟩
    | false =>
      obtain ⟨tick, r', token, due, id, -⟩ := just
      exact ⟨tick, r', due, id⟩
  obtain ⟨rfl, r', ⟨rows, read, mem⟩, rfl⟩ := due
  refine ⟨started, ?_⟩
  obtain ⟨p, w, p_lt, at_p, selected, batch⟩ := runs.read_at read
  cases batch
  obtain ⟨row, eligible⟩ := KeyedTable.mem_select.1 mem
  simp only [Db.claimEligible, decide_eq_true_eq] at eligible
  obtain ⟨alarmed, past, -⟩ := eligible
  obtain ⟨elig, claim, past⟩ := (Option.any_eq_true _ _).1 past
  obtain ⟨c, run⟩ := id runs
  have tick := run.started_before at_p selected (Nat.le_of_lt p_lt) started
  -- the first event of the history is the reading of the clock
  have first := runs.selected_at_start at_p selected (.inr rfl) tick
  obtain ⟨rest, whole⟩ := List.head?_eq_some_iff.1 first
  rw [← List.nil_append (_ :: rest)] at whole
  obtain ⟨m, u, m_lt, at_m, label, empty⟩ := history_split whole
  exact ⟨m, u, p, w, _, r', elig, ⟨at_m, run.started_before at_m label (Nat.le_of_lt m_lt) tick,
    label, empty⟩, m_lt, p_lt, at_p, selected, rfl, row, alarmed, claim, of_decide_eq_true past⟩

/-- A tick that selects the due claims finds every alarm begun before it opens one of them
begun before the selection. -/
theorem Runs.alarm_before_selection (runs : Runs S t₀ tr) {w : SrvStep} {q : Nat} {e x y : Ev}
    (at_q : tr[q]? = some w) (selected : w.label = .acted i e)
    (selects : e.action = .query (.claimEligible nowIso)) (at_k : tr[k]? = some s)
    (opens : s.label = .acted i x) (tick : Started i .schedulerTick (tr.take k)) (later : q < k)
    (at_j : tr[j]? = some t) (label : t.label = .acted i' y) (alarms : y.action.alarms = true)
    (tick' : Started i' .schedulerTick (tr.take j)) (before : j < k) : j < q := by
  obtain ⟨c, run⟩ := id runs
  by_cases same : i' = i
  · subst same
    rcases Nat.lt_trichotomy j q with early | rfl | late
    · exact early
    · rw [at_j] at at_q
      cases at_q
      rw [label] at selected
      cases selected
      rw [selects] at alarms
      cases alarms
    · have none := runs.alarms_first at_j label alarms tick' e
        (mem_history.2 ⟨q, w, late, at_q, selected⟩)
      rw [selects] at none
      cases none
  · exact runs.tick_order at_j label tick' at_k opens before at_q selected
      (run.started_before at_q selected (Nat.le_of_lt later) tick) same

/-- What a thread does, it does no earlier than it started. -/
theorem Runs.clock_le_of_first (runs : Runs S t₀ tr) {u : SrvStep} (starts : TickStarts tr i m u nowIso)
    (at_j : tr[j]? = some t) {e : Ev} (label : t.label = .acted i e) :
    m ≤ j ∧ nowIso ≤ t.before.clock := by
  have late : m ≤ j := by
    by_contra early
    have mem : e ∈ history i m tr := mem_history.2 ⟨j, t, Nat.lt_of_not_le early, at_j, label⟩
    rw [starts.first] at mem
    cases mem
  refine ⟨late, ?_⟩
  rw [(did_now (runs.explains_at starts.at_m) starts.reads).1]
  exact runs.clock_mono starts.at_m late at_j

/-- The first reading of a tick heads its history. -/
theorem TickStarts.head {u : SrvStep} (starts : TickStarts tr i m u nowIso) (lt : m < k) :
    (history i k tr).head? = some ⟨.now, nowIso⟩ := by
  have here := history_succ starts.at_m starts.reads
  rw [starts.first] at here
  exact head_of_grown (h := history i (m + 1) tr) (by rw [here]; rfl) (history_mono lt)

/-- After a whole tick, what is `ok` has its deadline ahead of the tick's time. -/
theorem Runs.ahead_of_swept (runs : Runs S t₀ tr) (ahead : DeadlinesAhead tr) {u w : SrvStep}
    (starts : TickStarts tr i m u start) (ends : TickEnds tr i n w)
    (after : ∀ p x e, tr[p]? = some x → x.label = .acted i e → p < k) (at_k : tr[k]? = some s)
    (row : s.before.vault? v = some r) (ok : r.life.status = .ok) : start < r.life.nextDeadlineAt := by
  by_contra missed
  have due : r.life.nextDeadlineAt ≤ start := Int.not_lt.1 missed
  obtain ⟨rep, returned⟩ := ends.returned
  obtain ⟨c, run⟩ := id runs
  have inside := run.acted_before_return ends.at_n returned starts.at_m starts.reads
  obtain ⟨T, head, listed, read, each⟩ := runs.swept ends.at_n returned
    (starts.tick.later (Nat.le_of_lt inside))
  have same := (starts.head inside).symm.trans head
  cases same
  -- the row was `ok` and due when the missed deadlines were selected, so it was listed
  obtain ⟨q, x, -, at_q, did, batch⟩ := runs.read_at read
  obtain ⟨r₀, row₀, term⟩ := runs.sameTerm ahead at_q (runs.clock_le_of_first starts at_q did).2
    (Nat.le_of_lt (after q x _ at_q did)) at_k row due
  obtain ⟨d, mem, rfl⟩ := mem_of_due batch row₀ ⟨term.ok ok, term.deadline ▸ due⟩
  -- so it was put into alarm, and nothing has made it `ok` since without a new deadline
  obtain ⟨c', alarm⟩ := each d mem
  obtain ⟨p, y, -, at_p, label⟩ := mem_history.1 alarm
  have before := after p y _ at_p label
  have past := (runs.clock_le_of_first starts at_p label).2
  have id : d.1.id = v := Db.vault?_id row₀
  obtain ⟨r₁, row₁, -⟩ := runs.sameTerm ahead at_p past (Nat.le_of_lt before) at_k row due
  obtain ⟨z, at_z⟩ : ∃ z, tr[p + 1]? = some z := by
    have size := (List.getElem?_eq_some_iff.1 at_k).1
    exact ⟨_, List.getElem?_eq_getElem (Nat.lt_of_le_of_lt before size)⟩
  have next := run.after_at at_p at_z
  obtain ⟨r₂, row₂, term₂⟩ := runs.sameTerm ahead at_z
    (past.trans (runs.clock_mono at_p (Nat.le_succ p) at_z)) before at_k row due
  rw [← next, (did_update_hit (runs.explains_at at_p) (id ▸ label) row₁ rfl).2] at row₂
  cases row₂
  cases term₂.ok ok

/-! ## §6 Alarms on time -/

/-- Where every missed deadline is covered, the alarm is a grace period old by the time of the
tick that opens the claim. -/
theorem Runs.alarm_in_time (runs : Runs S t₀ tr) (fresh : FreshIds tr) (ahead : DeadlinesAhead tr)
    (onTime : OnTime tr) (opening : Opening tr i k s v r nowIso) (since : AlarmedSince tr v j k)
    (at_j : tr[j]? = some t) {c : Nat} (label : t.label = .acted i' (alarmed v c))
    (tick : Started i' .schedulerTick (tr.take j)) :
    t.before.clock + r.settings.grace ≤ nowIso := by
  obtain ⟨_, run⟩ := id runs
  obtain ⟨other, m, u, q, w, e, r', elig, starts, m_lt, q_lt, at_q, selected, selects, row',
    alarmed', claim, past⟩ := runs.opening_selected opening
  obtain ⟨at_k, row, hash, reused, n', opened, -⟩ := opening
  have start_eq := (did_now (runs.explains_at starts.at_m) starts.reads).1
  have positive : ∀ {x : SrvStep} {p : Nat} {r : VaultRow}, tr[p]? = some x →
      x.before.vault? v = some r → 0 < r.settings.grace := fun at_p here =>
    Int.mul_pos (runs.periods_positive at_p here).2 (by decide)
  -- the deadline had passed at the start, so the row was in this term then
  have due : r'.life.nextDeadlineAt ≤ nowIso := by
    have apart := runs.eligibleAfterGrace fresh at_q row' elig claim
    have grace := positive at_q row'
    exact (Int.le_of_lt (Int.lt_add_of_pos_right _ grace)).trans (apart ▸ past)
  obtain ⟨r₀, row₀, term⟩ := runs.sameTerm ahead starts.at_m (Int.le_of_eq start_eq)
    (Nat.le_of_lt m_lt) at_q row' due
  -- the tick of the alarm selected the row as `ok` and due
  obtain ⟨p, x, ev, T, z, p_lt, at_p, listed, head, rowz, ok, dueT⟩ := runs.alarm_listed at_j label
  -- either that tick was an earlier one, or it is the tick that opens the claim
  have placed : (j < m ∧ r₀.life.status = .alarmed) ∨ SameTerm r₀ z := by
    rcases Nat.lt_trichotomy j m with early | rfl | late
    · obtain ⟨y, rowy, still⟩ := since.stays m u early (Nat.le_of_lt (m_lt.trans q_lt)) starts.at_m
      rw [row₀] at rowy
      cases rowy
      exact .inl ⟨early, still⟩
    · have here := starts.at_m
      rw [at_j] at here
      cases here
      have clash := label.symm.trans starts.reads
      cases clash
    · have same : i' = i := by
        by_contra different
        have early := runs.tick_order at_j label tick at_k opened since.before starts.at_m starts.reads
          starts.tick different
        exact absurd early (Nat.not_lt_of_lt late)
      subst same
      cases (starts.head late).symm.trans head
      obtain ⟨y, rowy, termy⟩ := runs.sameTerm ahead starts.at_m (Int.le_of_eq start_eq)
        (runs.clock_le_of_first starts at_p listed).1 at_p rowz dueT
      rw [row₀] at rowy
      cases rowy
      exact .inr termy
  have running : r₀.life.status = .ok ∨ r₀.life.status = .alarmed := by
    rcases placed with ⟨-, still⟩ | termz
    · exact .inr still
    · exact .inl (termz.ok ok)
  obtain ⟨i₀, m₀, u₀, start, n₀, w₀, starts₀, ends₀, missed, spare⟩ :=
    onTime.covered i m u nowIso v r₀ elig starts row₀ running (term.eligible elig claim) past
  have settings : r₀.settings = r.settings := (runs.fixed fresh starts.at_m at_k row₀ row).1.symm
  rw [settings] at spare
  have first : j < n₀ := by
    by_contra late
    obtain ⟨rep, returned⟩ := ends₀.returned
    have inside : ∀ p x e, tr[p]? = some x → x.label = .acted i₀ e → p < n₀ := fun p x e at_p acts =>
      run.acted_before_return ends₀.at_n returned at_p acts
    have different : i₀ ≠ i' := by
      rintro rfl
      exact late (inside j t _ at_j label)
    -- so the alarm's tick came after the whole one, and what it listed was not due before
    have after : ∀ p' x e, tr[p']? = some x → x.label = .acted i₀ e → p' < p := fun p' x e at_p' acts =>
      runs.tick_order at_p' acts (starts₀.tick.later (runs.clock_le_of_first starts₀ at_p' acts).1) at_j
        label (Nat.lt_of_lt_of_le (inside p' x e at_p' acts) (Nat.le_of_not_lt late)) at_p listed
        (run.started_before at_p listed (Nat.le_of_lt p_lt) tick) different
    have later := runs.ahead_of_swept ahead starts₀ ends₀ after at_p rowz ok
    have read := (did_now (runs.explains_at starts₀.at_m) starts₀.reads).1
    have past₀ : start ≤ x.before.clock := by
      rw [read]
      exact runs.clock_mono starts₀.at_m (Nat.le_of_lt (after m₀ u₀ _ starts₀.at_m starts₀.reads)) at_p
    have same : z.life.nextDeadlineAt = r₀.life.nextDeadlineAt := by
      rcases placed with ⟨early, -⟩ | termz
      · obtain ⟨y, rowy, termy⟩ := runs.sameTerm ahead at_p past₀ (Nat.le_of_lt (p_lt.trans early))
          starts.at_m row₀ missed
        rw [rowz] at rowy
        cases rowy
        exact termy.deadline
      · exact termz.deadline.symm
    exact absurd (same ▸ missed) (Int.not_le.2 later)
  exact (Int.add_le_add_right (runs.clock_mono at_j (Nat.le_of_lt first) ends₀.at_n) _).trans spare

/-- An alarm of one tick is complete before another tick does anything. -/
theorem Runs.alarmedBy (runs : Runs S t₀ tr) (onTime : OnTime tr) {n : Nat} (at_j : tr[j]? = some t)
    (label : t.label = .acted i' (alarmed v n)) (tick : Started i' .schedulerTick (tr.take j))
    (lt : j < k) (at_k : tr[k]? = some s) {e : Ev} (acts : s.label = .acted i e)
    (other : Started i .schedulerTick (tr.take k)) (ne : i' ≠ i) : AlarmedBy S tr i' j k v := by
  obtain ⟨c, run⟩ := id runs
  -- the first tick has returned by now
  obtain ⟨m, u, res, after, m_lt, at_m, returned⟩ : ∃ (m : Nat) (u : SrvStep)
      (r : Except ApiError Reply), j < m ∧ m < k ∧ tr[m]? = some u ∧ u.label = .returned i' r := by
    have ended := run.ended_before (tick_alone S) lt at_k acts tick other ne
    obtain ⟨m, u, after, m_lt, at_m, ret | halt⟩ := run.ended_since at_j label ended
    · obtain ⟨res, ret⟩ := ret
      exact ⟨m, u, res, after, m_lt, at_m, ret⟩
    · obtain ⟨m', u', res, after', m'_lt, rest⟩ :=
        onTime.whole j m t u i' v n after at_j label at_m halt
      exact ⟨m', u', res, after', m'_lt.trans m_lt, rest⟩
  have complete := runs.alarmsComplete at_m returned (tick.later (Nat.le_of_lt after))
  obtain ⟨more, whole⟩ : ∃ more, history i' m tr = history i' j tr ++ alarmed v n :: more := by
    have longer : history i' (j + 1) tr <+: history i' m tr := history_mono (Nat.succ_le_of_lt after)
    obtain ⟨more, grown⟩ := longer
    rw [history_succ at_j label] at grown
    exact ⟨more, by rw [← grown]; simp⟩
  have longer : history i' m tr <+: history i' k tr := history_mono (Nat.le_of_lt m_lt)
  obtain ⟨rest, grown⟩ := longer
  rw [whole] at grown
  obtain ⟨r', n', same, -, done⟩ := complete _ _ more whole ⟨v, n, rfl⟩
  cases same
  rcases done with recorded | ⟨ev, err, kind, mem⟩
  · exact ⟨n, more ++ rest, r', by rw [← grown]; simp, rfl, recorded.append rest⟩
  · have refused : (⟨.exec (.insertEvent ev), .error err⟩ : Ev) ∈ history i' m tr := by
      rw [whole]
      simp [mem]
    obtain ⟨p, w, -, at_p, did⟩ := mem_history.1 refused
    exact absurd kind (onTime.recorded p w i' ev err at_p did)

/-- In a run whose ticks are on time, every alarm lasts the grace period. -/
theorem alarmedThroughGrace_of_onTime (runs : Runs S t₀ tr) (fresh : FreshIds tr)
    (ahead : DeadlinesAhead tr) (onTime : OnTime tr) : AlarmedThroughGrace S tr := by
  intro i k s v r nowIso opening
  obtain ⟨at_k, row, hash, reused, n, did, guard⟩ := id opening
  obtain ⟨j, since⟩ := runs.exists_alarmedSince at_k row (alarmed_of_guard guard)
  obtain ⟨t, at_j, enters⟩ := since.enters
  obtain ⟨i', u, c, label, commits, tick, alarm⟩ := runs.alarm_entered at_j enters
  obtain ⟨other, m, x, q, w, e, r', elig, starts, m_lt, q_lt, at_q, selected, selects, row', -, claim,
    past⟩ := runs.opening_selected opening
  have early := runs.alarm_before_selection at_q selected selects at_k did other q_lt at_j label
    (by rcases alarm with rfl | rfl <;> rfl) tick since.before
  rcases alarm with rfl | rfl
  · have lasted := runs.alarm_in_time fresh ahead onTime opening since at_j label tick
    have later : nowIso ≤ s.before.clock := (runs.clock_le_of_first starts at_k did).2
    have ne : i' ≠ i := by
      rintro rfl
      have late := (runs.clock_le_of_first starts at_j label).2
      have grace : 0 < r.settings.grace :=
        Int.mul_pos (runs.periods_positive at_k row).2 (by decide)
      exact absurd (lasted.trans late) (Int.not_le.2 (Int.lt_add_of_pos_right _ grace))
    exact ⟨j, t, i', c, at_j, label, since, ne,
      runs.alarmedBy onTime at_j label tick since.before at_k did other ne, lasted.trans later⟩
  · -- the freeze's end began the alarm, so the claim time is ahead of the tick
    have since' : AlarmedSince tr v j q := ⟨early, since.enters, fun n y after le =>
      since.stays n y after (le.trans (Nat.le_of_lt q_lt))⟩
    exact absurd past (Int.not_le.2
      (onTime.thawed i m x nowIso q w e v r' elig j t starts at_q selected row' claim since' at_j commits))

end Runs

/-! ## §7 A tick that comes late -/

section Late

open Deployment

/-- The first tick after the claim time: it alarms the vault and opens its claim. -/
def oneLateTick : List (Move Oracle Drift Request) :=
  alarmedDoorA.take 31 ++ wait 3720 ++ [.start .schedulerTick] ++ steps 3 31 (oracle "" [coin])

/-- Whether the step, if it alarms a vault, is one of the thread `i`. -/
def alarmsBy (i : Nat) (s : SrvStep) : Bool :=
  match s.label with
  | .acted j ⟨.exec (.updateVault _ .alarm), _⟩ => j = i
  | _ => true

/-- A vault goes from `ok` to heir contact within one tick. -/
theorem not_alarmedThroughGrace :
    ¬ ∀ (S : Server) (t₀ : Instant) (tr : Trace), S.Lawful → Runs S t₀ tr → FreshIds tr →
      AlarmedThroughGrace S tr := by
  intro holds
  obtain ⟨tr, runs, check⟩ := runs_of_play (host 86400) oneLateTick
    (fun tr => tr[57]?.any (fun s => updated 3 "v" (.openReused "#sealed" 3720000000000) s &&
        (s.before.vault? "v").any fun r => r.life.status = .alarmed) &&
      tr.all (alarmsBy 3) && tr.zipIdx.all fun p => !inserts p.1 || p.2 = 5) (by decide +kernel)
  simp only [Bool.and_eq_true, Option.any_eq_true, decide_eq_true_eq] at check
  obtain ⟨⟨⟨s, at_k, moves, r, row, status⟩, only⟩, once⟩ := check
  have opening : Opening tr 3 57 s "v" r 3720000000000 :=
    ⟨at_k, row, "#sealed", true, 1, did_of_updated moves,
      triggerUpdate_guard status fun fresh => nomatch fresh⟩
  obtain ⟨j, t, i', n, at_j, label, -, ne, -⟩ :=
    holds _ _ _ (lawful _) runs (freshIds_of_inserts once) 3 57 s "v" r _ opening
  have here := List.all_eq_true.1 only t (List.mem_of_getElem? at_j)
  unfold alarmsBy at here
  rw [label] at here
  exact ne (by simpa [alarmed] using here)

/-- What one step of a run on time looks like, if a whole tick went by the time `start` and
ended at `finish`. -/
def inTime (start finish : Instant) (s : SrvStep) : Bool :=
  match s.label with
  | .acted _ ⟨.now, _⟩ => s.before.db.vaults.rows.all fun r =>
      !r.life.claimEligibleAt.any (· ≤ s.before.clock) ||
        (r.life.nextDeadlineAt ≤ start && finish + r.settings.grace ≤ s.before.clock)
  | .acted _ ⟨.exec (.updateVault _ .unfreeze), _⟩ => false
  | .acted _ ⟨.exec (.insertEvent _), .error _⟩ => false
  | .halted => false
  | _ => true

/-- Whether the tick of thread `i` starts at `m`, going by the time `start`. -/
def startsTick (i m : Nat) (start : Instant) (tr : Trace) : Bool :=
  (tr[m - 1]?.any fun s => match s.label with
    | .started j .schedulerTick => j = i && 0 < m
    | _ => false) &&
  (tr[m]?.any fun s => match s.label with
    | .acted j ⟨.now, _⟩ => j = i && s.before.clock = start
    | _ => false) && (history i m tr).isEmpty

/-- Whether the thread `i` ends well with this step, at the time `finish`. -/
def endsWell (i : Nat) (finish : Instant) (s : SrvStep) : Bool :=
  (match s.label with
    | .returned j (.ok _) => j = i
    | _ => false) && s.before.clock = finish

theorem tickStarts_of_startsTick {S : Server} {t₀ : Instant} {tr : Trace} {i m : Nat}
    {start : Instant} (runs : Runs S t₀ tr) (starts : startsTick i m start tr = true) :
    ∃ s, TickStarts tr i m s start := by
  simp only [startsTick, Bool.and_eq_true, Option.any_eq_true, List.isEmpty_iff] at starts
  obtain ⟨⟨⟨s, at_p, first⟩, t, at_m, reads⟩, none⟩ := starts
  split at first
  · next j label =>
    simp only [Bool.and_eq_true, decide_eq_true_eq] at first
    obtain ⟨rfl, positive⟩ := first
    split at reads
    · next j' t' label' =>
      simp only [Bool.and_eq_true, decide_eq_true_eq] at reads
      obtain ⟨rfl, rfl⟩ := reads
      have now := (did_now (runs.explains_at at_m) label').1
      exact ⟨t, at_m, started_at.2 ⟨m - 1, s, Nat.sub_one_lt_of_lt positive, at_p, label⟩, now ▸ label',
        none⟩
    · cases reads
  · cases first

theorem tickEnds_of_endsWell {tr : Trace} {i n : Nat} {s : SrvStep} {finish : Instant}
    (at_n : tr[n]? = some s) (ends : endsWell i finish s = true) :
    TickEnds tr i n s ∧ s.before.clock = finish := by
  simp only [endsWell, Bool.and_eq_true, decide_eq_true_eq] at ends
  obtain ⟨returned, clock⟩ := ends
  split at returned
  · next j rep label =>
    simp only [decide_eq_true_eq] at returned
    exact ⟨⟨at_n, rep, returned ▸ label⟩, clock⟩
  · cases returned

theorem onTime_of_all {S : Server} {t₀ : Instant} {tr : Trace} {i m n : Nat} {s t : SrvStep}
    {start finish : Instant} (runs : Runs S t₀ tr) (starts : TickStarts tr i m s start)
    (ends : TickEnds tr i n t) (clock : t.before.clock = finish)
    (all : tr.all (inTime start finish) = true) : OnTime tr := by
  have each : ∀ (k : Nat) s, tr[k]? = some s → inTime start finish s = true := fun k s at_k =>
    List.all_eq_true.1 all s (List.mem_of_getElem? at_k)
  constructor
  -- the given tick serves every opening it is asked for
  · intro i' m' u nowIso v r e starts' row _ claim past
    rw [(did_now (runs.explains_at starts'.at_m) starts'.reads).1] at past ⊢
    have here := each m' u starts'.at_m
    unfold inTime at here
    rw [show u.label = _ from starts'.reads] at here
    have one := List.all_eq_true.1 here r (KeyedTable.find?_mem row)
    simp only [claim, Option.any_some, past, decide_true, Bool.not_true, Bool.false_or,
      Bool.and_eq_true, decide_eq_true_eq] at one
    exact ⟨i, m, s, start, n, t, starts, ends, one.1, clock ▸ one.2⟩
  -- the run writes no row, files no event and never halts
  · rintro i' m' u nowIso k w ev v r e j x _ _ _ _ _ _ at_j ⟨applies, -⟩
    have here := each j x at_j
    cases applies with
    | exec did =>
      unfold inTime at here
      rw [show x.label = _ from did] at here
      cases here
  · intro k w i' ev e at_k did
    have here := each k w at_k
    unfold inTime at here
    rw [show w.label = _ from did] at here
    cases here
  · intro j k x w i' v' c _ _ _ at_k halted
    have here := each k w at_k
    unfold inTime at here
    rw [halted] at here
    cases here

/-- The vault of `openedDoorA` is alarmed at its deadline and opened at its claim time. -/
theorem alarmedThroughGrace_of_onTime_punctual :
    ∃ tr, Runs (host 86400) 0 tr ∧ tr.any (opens "v") = true ∧
      AlarmedThroughGrace (host 86400) tr := by
  obtain ⟨tr, runs, check⟩ := runs_of_play (host 86400) openedDoorA
    (fun tr => tr.any (opens "v") && tr.all (inTime 3660000000000 3660000000000) &&
      startsTick 3 33 3660000000000 tr && tr[58]?.any (endsWell 3 3660000000000) &&
      tr.all writesAhead && tr.zipIdx.all fun p => !inserts p.1 || p.2 = 5) (by decide +kernel)
  simp only [Bool.and_eq_true, Option.any_eq_true] at check
  obtain ⟨⟨⟨⟨⟨opened, inTime⟩, starts⟩, t, at_n, ends⟩, ahead⟩, once⟩ := check
  obtain ⟨s, starts⟩ := tickStarts_of_startsTick runs starts
  obtain ⟨ends, clock⟩ := tickEnds_of_endsWell at_n ends
  exact ⟨tr, runs, opened, alarmedThroughGrace_of_onTime runs (freshIds_of_inserts once) (.of_all ahead)
    (onTime_of_all runs starts ends clock inTime)⟩

end Late

end GhostKey

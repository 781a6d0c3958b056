import GhostKey.Alarm
import GhostKey.Foundation.Chrono

/-!
# Deadlines that Are Dates

Everywhere else the instants of the model are unbounded. The server computes them with
`i64` and chrono, whose sums panic, and `validate_periods` bounds a cadence from below
only. Creation adds the periods to the present; check-ins, the poller and the scheduler
add them again to later times, and a panic in one of the two tasks ends it for all vaults.

Layers:
1. the deadline computations as the sources have them, with their panics;
2. `panicFree_iff`: none of them panics exactly where the check-in period and twice the
   grace period still lead to a date;
3. `Runs.deadline_fits`: where that holds of every creation up to the end of a run, the
   deadlines of the run are the computed ones.
-/

namespace GhostKey

open Foundation

namespace Deadlines

/-! ## §1 The computations -/

/-- The columns of a vault its deadlines are computed from. `lastCheckinAt` is what
`parse_from_rfc3339` makes of the column. -/
structure Cadence where
  checkinPeriodSecs : Int64
  gracePeriodSecs : Int64
  lastCheckinAt : Option DateTime

/-- The next deadline, and the end of the grace period after it. -/
def deadlines (checks : Bool) (now : DateTime) (checkinSecs graceSecs : Int64) :
    Except Panic (DateTime × DateTime) := do
  let sum ← addI64 checks checkinSecs graceSecs
  let next ← now.addSeconds sum
  let claimEligible ← next.addSeconds graceSecs
  .ok (next, claimEligible)

/-- The deadlines of `create_vault`. -/
def createVault (checks : Bool) (req : Cadence) (now : DateTime) :
    Except Panic (DateTime × DateTime) :=
  deadlines checks now req.checkinPeriodSecs req.gracePeriodSecs

/-- The deadlines of `create_vault_from_xpub`. -/
def createVaultFromXpub (checks : Bool) (req : Cadence) (now : DateTime) :
    Except Panic (DateTime × DateTime) :=
  deadlines checks now req.checkinPeriodSecs req.gracePeriodSecs

/-- The deadlines of `create_vault_guardian`. -/
def createVaultGuardian (checks : Bool) (req : Cadence) (now : DateTime) :
    Except Panic (DateTime × DateTime) :=
  deadlines checks now req.checkinPeriodSecs req.gracePeriodSecs

/-- `lightning::inside_current_period`; the routes' once-per-period rule is the same. -/
def insideCurrentPeriod (v : Cadence) (now : DateTime) : Except Panic Bool :=
  match v.lastCheckinAt with
  | none => .ok false
  | some last => do
      let nextOpen ← last.addSeconds v.checkinPeriodSecs
      .ok (now.nanos < nextOpen.nanos)

/-- `lightning::reset_vault_clock`. -/
def resetVaultClock (checks : Bool) (v : Cadence) (now : DateTime) :
    Except Panic (DateTime × DateTime) :=
  deadlines checks now v.checkinPeriodSecs v.gracePeriodSecs

/-- `routes::checkin`; `refused` is the answer of the Lightning gate. -/
def checkin (checks : Bool) (v : Cadence) (refused : Bool) (now : DateTime) :
    Except Panic (Option (DateTime × DateTime)) := do
  let inside ← insideCurrentPeriod v now
  if inside || refused then .ok none
  else
    let new ← deadlines checks now v.checkinPeriodSecs v.gracePeriodSecs
    .ok (some new)

/-- `routes::checkin_from_link`, which reads the clock again after the period rule. -/
def checkinFromLink (checks : Bool) (v : Cadence) (refused : Bool) (period now : DateTime) :
    Except Panic (Option (DateTime × DateTime)) := do
  if refused then .ok none
  else
    let inside ← insideCurrentPeriod v period
    if inside then .ok none
    else
      let new ← deadlines checks now v.checkinPeriodSecs v.gracePeriodSecs
      .ok (some new)

/-- One vault of a payment's fan-out. -/
def resetOutsidePeriod (checks : Bool) (now : DateTime) (v : Cadence) :
    Except Panic (Option (DateTime × DateTime)) := do
  let inside ← insideCurrentPeriod v now
  if inside then .ok none
  else
    let new ← resetVaultClock checks v now
    .ok (some new)

/-- `lightning::mark_paid_and_checkin`: the paid vault, then its siblings in turn. -/
def markPaidAndCheckin (checks : Bool) (now : DateTime) (paid : Cadence)
    (siblings : List Cadence) : Except Panic (List (Option (DateTime × DateTime))) :=
  (paid :: siblings).mapM (resetOutsidePeriod checks now)

/-- `scheduler::activate_funded_vaults`; a row is passed by where the scan finds no coins or
the owner's address is unconfirmed. -/
def activateFundedVaults (checks : Bool) (now : DateTime) (rows : List (Cadence × Bool)) :
    Except Panic (List (Option (DateTime × DateTime))) :=
  rows.mapM fun row =>
    if row.2 then do
      let new ← deadlines checks now row.1.checkinPeriodSecs row.1.gracePeriodSecs
      .ok (some new)
    else .ok none

/-! ## §2 Where they panic -/

/-- The computation ends without a panic. -/
def Ends {α : Type} (x : Except Panic α) : Prop := ∃ a, x = .ok a

/-- The check-in period and twice the grace period from `now` lead to a date. -/
def Fits (c g : Int64) (now : DateTime) : Prop :=
  now.nanos + (c.toInt + 2 * g.toInt) * 1000000000 ≤ maxNanos

/-- A check-in lies in the past. -/
def Past (last : Option DateTime) (now : DateTime) : Prop :=
  ∀ t, last = some t → t.nanos ≤ now.nanos

section Panics

variable {checks : Bool} {c g : Int64} {now : DateTime} {v : Cadence}

/-- The two sums, where they are dates, are the ones the rest of the model works with. -/
theorem deadlines_eq_ok_iff {next claimEligible : DateTime} (hc : 0 ≤ c.toInt) (hg : 0 ≤ g.toInt) :
    deadlines checks now c g = .ok (next, claimEligible) ↔
      next.nanos = now.nanos + seconds (c.toInt + g.toInt) ∧
        claimEligible.nanos = next.nanos + seconds g.toInt := by
  have first_date := now.lower
  have last_date := claimEligible.upper
  simp only [minNanos, maxNanos] at first_date last_date
  unfold deadlines seconds
  constructor
  -- a sum of seconds that is a date has not wrapped around
  · intro done
    obtain ⟨sum, added, done⟩ := bind_eq_ok done
    obtain ⟨next', first, done⟩ := bind_eq_ok done
    obtain ⟨eligible', second, done⟩ := bind_eq_ok done
    cases done
    rw [DateTime.addSeconds_eq_ok_iff] at first second
    by_cases small : c.toInt + g.toInt < 2 ^ 63
    · obtain ⟨exact_, value⟩ := addI64_eq_ok checks small (by omega)
      rw [exact_] at added
      cases added
      rw [value] at first
      exact ⟨first, second⟩
    · -- the wrapped sum lies further back than any date
      have wrapped := addI64_overflow hc hg (by omega) added
      have lt := c.toInt_lt
      have before := next.lower
      have now_date := now.upper
      simp only [minNanos, maxNanos] at before now_date
      omega
  · rintro ⟨first, second⟩
    have small : c.toInt + g.toInt < 2 ^ 63 := by omega
    obtain ⟨added, value⟩ := addI64_eq_ok checks small (by omega)
    have at_next : now.addSeconds (c + g) = .ok next := by
      rw [DateTime.addSeconds_eq_ok_iff, value]
      exact first
    have at_eligible : next.addSeconds g = .ok claimEligible :=
      DateTime.addSeconds_eq_ok_iff.2 second
    rw [added]
    show (now.addSeconds (c + g) >>= _) = _
    rw [at_next]
    show (next.addSeconds g >>= _) = _
    rw [at_eligible]
    rfl

/-- Deadlines are computed exactly where the last of them is a date. -/
theorem deadlines_ends_iff (hc : 0 ≤ c.toInt) (hg : 0 ≤ g.toInt) :
    Ends (deadlines checks now c g) ↔ Fits c g now := by
  have first_date := now.lower
  unfold Fits
  constructor
  · rintro ⟨⟨next, claimEligible⟩, done⟩
    rw [deadlines_eq_ok_iff hc hg] at done
    have last_date := claimEligible.upper
    unfold seconds at done
    omega
  · intro fits
    have next : minNanos ≤ now.nanos + seconds (c.toInt + g.toInt) ∧
        now.nanos + seconds (c.toInt + g.toInt) ≤ maxNanos := by
      unfold seconds
      omega
    have eligible : minNanos ≤ now.nanos + seconds (c.toInt + g.toInt) + seconds g.toInt ∧
        now.nanos + seconds (c.toInt + g.toInt) + seconds g.toInt ≤ maxNanos := by
      unfold seconds at next ⊢
      omega
    exact ⟨(⟨_, next.1, next.2⟩, ⟨_, eligible.1, eligible.2⟩),
      (deadlines_eq_ok_iff hc hg).2 ⟨rfl, rfl⟩⟩

theorem ends_bind {α β : Type} {x : Except Panic α} {f : α → Except Panic β} (first : Ends x)
    (second : ∀ a, Ends (f a)) : Ends (x >>= f) := by
  obtain ⟨a, done⟩ := first
  rw [done]
  exact second a

/-- The period rule panics where the next opening is no date. -/
theorem insideCurrentPeriod_ends_iff (hc : 0 ≤ v.checkinPeriodSecs.toInt) :
    Ends (insideCurrentPeriod v now) ↔ ∀ last, v.lastCheckinAt = some last →
      last.nanos + seconds v.checkinPeriodSecs.toInt ≤ maxNanos := by
  unfold insideCurrentPeriod
  cases v.lastCheckinAt with
  | none => simp [Ends]
  | some last =>
    have first_date := last.lower
    constructor
    · rintro ⟨b, done⟩ last' same
      cases same
      obtain ⟨nextOpen, opens, -⟩ := bind_eq_ok done
      rw [DateTime.addSeconds_eq_ok_iff] at opens
      have last_date := nextOpen.upper
      unfold seconds
      omega
    · intro fits
      obtain ⟨nextOpen, opens⟩ := DateTime.exists_addSeconds (t := last)
        (n := v.checkinPeriodSecs) (by omega) (fits last rfl)
      exact ends_bind ⟨nextOpen, opens⟩ fun _ => ⟨_, rfl⟩

/-- Where the new deadlines are dates, so is the next opening after a past check-in. -/
theorem Fits.insideCurrentPeriod (hc : 0 ≤ v.checkinPeriodSecs.toInt)
    (hg : 0 ≤ v.gracePeriodSecs.toInt) (past : Past v.lastCheckinAt now)
    (fits : Fits v.checkinPeriodSecs v.gracePeriodSecs now) : Ends (insideCurrentPeriod v now) := by
  rw [insideCurrentPeriod_ends_iff hc]
  intro last checked
  have before := past last checked
  unfold Fits at fits
  unfold seconds
  omega

/-- One vault of a fan-out that fits is reset or passed by. -/
theorem Fits.resetOutsidePeriod (hc : 0 ≤ v.checkinPeriodSecs.toInt)
    (hg : 0 ≤ v.gracePeriodSecs.toInt) (past : Past v.lastCheckinAt now)
    (fits : Fits v.checkinPeriodSecs v.gracePeriodSecs now) :
    Ends (resetOutsidePeriod checks now v) := by
  refine ends_bind (fits.insideCurrentPeriod hc hg past) fun inside => ?_
  split
  · exact ⟨_, rfl⟩
  · exact ends_bind ((deadlines_ends_iff hc hg).2 fits) fun _ => ⟨_, rfl⟩

end Panics

/-! ## §3 No deadline panics -/

/-- At `now`, nothing panics over a vault with these periods: no handler, and no task whose
batch it is in, if the batch without it is fine. -/
structure PanicFree (checks : Bool) (c g : Int64) (now : DateTime) : Prop where
  createVault : ∀ last, Ends (createVault checks ⟨c, g, last⟩ now)
  createVaultFromXpub : ∀ last, Ends (createVaultFromXpub checks ⟨c, g, last⟩ now)
  createVaultGuardian : ∀ last, Ends (createVaultGuardian checks ⟨c, g, last⟩ now)
  checkin : ∀ last refused, Past last now → Ends (checkin checks ⟨c, g, last⟩ refused now)
  checkinFromLink : ∀ last refused period, Past last period → period.nanos ≤ now.nanos →
    Ends (checkinFromLink checks ⟨c, g, last⟩ refused period now)
  resetVaultClock : ∀ last, Ends (resetVaultClock checks ⟨c, g, last⟩ now)
  insideCurrentPeriod : ∀ last, Past last now → Ends (insideCurrentPeriod ⟨c, g, last⟩ now)
  scheduler : ∀ last reached front rest, Ends (activateFundedVaults checks now (front ++ rest)) →
    Ends (activateFundedVaults checks now (front ++ (⟨c, g, last⟩, reached) :: rest))
  poller : ∀ last paid front rest, Past last now →
    Ends (markPaidAndCheckin checks now paid (front ++ rest)) →
      Ends (markPaidAndCheckin checks now paid (front ++ ⟨c, g, last⟩ :: rest))
  pollerPaid : ∀ last siblings, Past last now →
    Ends (siblings.mapM (resetOutsidePeriod checks now)) →
      Ends (markPaidAndCheckin checks now ⟨c, g, last⟩ siblings)

/-- Nothing panics exactly where the check-in period and twice the grace period from now
lead to a date. -/
theorem panicFree_iff {S : Server} {checks : Bool} {c g : Int64} {now : DateTime}
    (accepted : validatePeriods S c.toInt g.toInt = .ok ()) :
    PanicFree checks c g now ↔ Fits c g now := by
  obtain ⟨pos_c, pos_g⟩ := validatePeriods_ok S accepted
  have hc := Int.le_of_lt pos_c
  have hg := Int.le_of_lt pos_g
  have new : Ends (deadlines checks now c g) ↔ Fits c g now := deadlines_ends_iff hc hg
  constructor
  -- an empty vault's reset reaches both sums
  · intro free
    exact new.1 (free.resetVaultClock none)
  · intro fits
    have ends := new.2 fits
    -- the period rule never reaches beyond them
    have inside : ∀ {last : Option DateTime} {t : DateTime}, Past last t → Fits c g t →
        Ends (Deadlines.insideCurrentPeriod ⟨c, g, last⟩ t) := by
      intro last t past fits
      exact Fits.insideCurrentPeriod (v := ⟨c, g, last⟩) hc hg past fits
    refine
      { createVault := fun _ => ends
        createVaultFromXpub := fun _ => ends
        createVaultGuardian := fun _ => ends
        resetVaultClock := fun _ => ends
        insideCurrentPeriod := fun _ past => inside past fits
        checkin := ?_, checkinFromLink := ?_, scheduler := ?_, poller := ?_, pollerPaid := ?_ }
    -- a check-in asks for the period first
    · intro last refused past
      refine ends_bind (inside past fits) fun _ => ?_
      split
      · exact ⟨_, rfl⟩
      · exact ends_bind ends fun _ => ⟨_, rfl⟩
    -- so does the one-tap link, at an instant before
    · intro last refused period past le
      unfold checkinFromLink
      split
      · exact ⟨_, rfl⟩
      · -- the period rule is asked at an earlier time
        have earlier : Fits c g period := by
          unfold Fits at fits ⊢
          omega
        refine ends_bind (inside past earlier) fun _ => ?_
        split
        · exact ⟨_, rfl⟩
        · exact ends_bind ends fun _ => ⟨_, rfl⟩
    -- activations: the row in question among rows that fit
    · intro last reached front rest others
      unfold Ends activateFundedVaults at others ⊢
      rw [exists_mapM_eq_ok_iff] at others ⊢
      intro row mem
      rw [List.mem_append, List.mem_cons] at mem
      rcases mem with before | rfl | after
      · exact others row (List.mem_append_left _ before)
      · split
        · exact ends_bind ends fun _ => ⟨_, rfl⟩
        · exact ⟨_, rfl⟩
      · exact others row (List.mem_append_right _ after)
    -- the poller's siblings, then the paid vault itself
    · intro last paid front rest past others
      unfold Ends markPaidAndCheckin at others ⊢
      rw [exists_mapM_eq_ok_iff] at others ⊢
      intro v mem
      rw [List.mem_cons, List.mem_append, List.mem_cons] at mem
      rcases mem with first | before | rfl | after
      · exact others v (first ▸ List.mem_cons_self)
      · exact others v (List.mem_cons_of_mem _ (List.mem_append_left _ before))
      · exact Fits.resetOutsidePeriod (v := ⟨c, g, last⟩) hc hg past fits
      · exact others v (List.mem_cons_of_mem _ (List.mem_append_right _ after))
    · intro last siblings past others
      unfold Ends at others ⊢
      rw [exists_mapM_eq_ok_iff] at others
      unfold markPaidAndCheckin
      rw [exists_mapM_eq_ok_iff]
      intro v mem
      rw [List.mem_cons] at mem
      rcases mem with rfl | sibling
      · exact Fits.resetOutsidePeriod (v := ⟨c, g, last⟩) hc hg past fits
      · exact others v sibling

/-! ## §4 A cadence that is fine until it is not -/

open Deployment

/-- 2026-01-01, and a second later. -/
def newYear : DateTime := ⟨1767225600000000000, by decide, by decide⟩

def secondLater : DateTime := ⟨1767225601000000000, by decide, by decide⟩

/-- With a grace period of three days, the longest cadence that fits at `newYear`. -/
def farCadence : Cadence := ⟨8208499132799, 259200, none⟩

/-- The vault is accepted and stored; the scheduler that finds its coins a second later
panics, and with it goes every other vault's activation. -/
theorem not_panicFree :
    ¬ ∀ (S : Server) (checks : Bool) (c g : Int64) (now : DateTime),
      validatePeriods S c.toInt g.toInt = .ok () → PanicFree checks c g now := by
  intro holds
  have accepted : validatePeriods (host 86400) farCadence.checkinPeriodSecs.toInt
      farCadence.gracePeriodSecs.toInt = .ok () := by decide
  have empty : Ends (activateFundedVaults false secondLater ([] ++ [])) := ⟨[], rfl⟩
  have free := holds _ false _ _ secondLater accepted
  obtain ⟨new, done⟩ := free.scheduler none true [] [] empty
  have panics : activateFundedVaults false secondLater [(farCadence, true)] =
      .error .dateOutOfRange := by decide
  exact absurd (panics.symm.trans done) (by simp)

/-- Two weeks and three days at the new year. -/
theorem panicFree_iff_fortnight : PanicFree true 1209600 259200 newYear :=
  (panicFree_iff (S := host 86400) (by decide)).2 (by unfold Fits; decide)

end Deadlines

/-! ## §5 The deadlines of a run -/

/-- At `T`, the cadence of every vault the run creates leads to a date. -/
def CreationsFit (tr : Trace) (T : Instant) : Prop :=
  ∀ (k : Nat) s i r n, tr[k]? = some s → Did i (.exec (.insertVault r)) (.ok n) s →
    T + r.settings.cycle + r.settings.grace ≤ maxNanos

section Runs

variable {S : Server} {t₀ T : Instant} {tr : Trace} {s : SrvStep} {v : VaultId} {k : Nat}

theorem CreationsFit.row (fit : CreationsFit tr T) (runs : Runs S t₀ tr) (at_k : tr[k]? = some s)
    {r : VaultRow} (row : s.before.vault? v = some r) :
    T + r.settings.cycle + r.settings.grace ≤ maxNanos := by
  obtain ⟨j, t, i, r₀, n, -, at_j, did, -, settings, -⟩ := runs.inserted_at at_k row
  rw [settings]
  exact fit j t i r₀ n at_j did

/-- Up to `T`, every deadline an UPDATE writes is the sum the model has for it, and a date,
and so is the end of the grace period after it. -/
theorem Runs.deadline_fits (runs : Runs S t₀ tr) (fit : CreationsFit tr T)
    (early : ∀ (j : Nat) t, tr[j]? = some t → t.before.clock ≤ T) (at_k : tr[k]? = some s)
    {u : VaultUpdate} (applies : Applies s v u) {next : Instant} (writes : u.deadline = some next) :
    ∃ (t : Instant) (r : VaultRow), t ≤ T ∧ next = t + r.settings.cycle ∧
      next + r.settings.grace ≤ maxNanos := by
  have bounded : ∀ {t : Instant} {i : Nat}, ClockRead (history i k tr) t → t ≤ T := by
    intro t i read
    obtain ⟨j, u', -, at_j, -, same⟩ := runs.clock_at read
    exact same ▸ early j u' at_j
  -- every cadence that is used stands in a row that was read
  have from_row : ∀ {t : Instant} {r : VaultRow} {j : Nat} {s' : SrvStep} {v' : VaultId},
      t ≤ T → tr[j]? = some s' → s'.before.vault? v' = some r → next = t + r.settings.cycle →
        ∃ (t : Instant) (r : VaultRow), t ≤ T ∧ next = t + r.settings.cycle ∧
          next + r.settings.grace ≤ maxNanos := by
    intro t r j s' v' le at_j row value
    have here := fit.row runs at_j row
    refine ⟨t, r, le, value, ?_⟩
    rw [value]
    exact (Int.add_le_add_right (Int.add_le_add_right le _) _).trans here
  cases applies with
  | panic did => cases writes
  | paid did pending issued paid row reached =>
    obtain ⟨q, -, read⟩ := runs.justified at_k did
    cases writes
    exact from_row (bounded read) at_k row rfl
  | exec did =>
    obtain ⟨q, -, warranted⟩ := runs.justified at_k did
    cases u with
    | checkin t next' eligible =>
      cases writes
      obtain ⟨r, read, clock, -, -, value, -⟩ := warranted
      obtain ⟨j, s', -, at_j, -, row⟩ := runs.read_at read
      exact from_row (bounded clock) at_j (Except.ok.inj row) value
    | checkinFromLink stored t next' eligible =>
      cases writes
      obtain ⟨hash, r, read, clock, -, -, value, -⟩ := warranted
      obtain ⟨j, s', -, at_j, -, row⟩ := runs.read_at read
      have found := Option.filter_eq_some_iff.1 (Except.ok.inj row)
      exact from_row (bounded clock) at_j found.1 value
    | activate next' eligible =>
      cases writes
      obtain ⟨-, rows, r, t, read, mem, -, clock, value, -⟩ := warranted
      obtain ⟨j, s', -, at_j, -, batch⟩ := runs.read_at read
      cases batch
      exact from_row (bounded clock) at_j (KeyedTable.mem_select.1 mem).1 value
    | resetVaultClock t next' eligible => exact absurd warranted id
    | _ => cases writes

end Runs

end GhostKey

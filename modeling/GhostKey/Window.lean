import GhostKey.Alert
import GhostKey.Overtaking

/-!
# The Objection Window

What an heir is handed, and what is spent in an heir's name, has to have waited: the
window was stamped a whole window before, the owner was alerted of it, and the owner has
not objected since. One column, `claim_opened_at`, stands for all of this, and a stamp
says so only as long as every objection clears it. A Lightning check-in and an
activation do not.

Main results:
- `Runs.standing`: where those two find no stamp, a row's stamp is from a step after
  which nobody has objected.
- `windowsKept_of_clear`: where also no objection falls between a window check and what
  it lets through, and stamps are alerted in time, every release has waited.
-/

namespace GhostKey

open Foundation Program Prog

/-! ## §1 Releases and objections -/

/-- The requests that are answered with key material or a PSBT to sign. -/
def Request.hands : Request → Bool
  | sealedHeir _ => true
  | sealedGuardian _ => true
  | heirDerivationParams _ => true
  | buildClaimPsbt .. => true
  | _ => false

/-- The requests that wait for the window: they hand something out or spend. -/
def Request.awaits (q : Request) : Bool := q.hands || q.spends

/-- The step hands out key material of `v`, or broadcasts what a claim token spends. -/
inductive Releases (tr : Trace) (k i : Nat) (v : VaultId) (s : SrvStep) : Prop
  | reply {reply : Reply} (returned : s.label = .returned i (.ok reply))
      (hands : reply.releases = some v)
  | spend (sent : Broadcasts i s) (loaded : Loaded (history i k tr) v)

/-- What an owner objects to a claim with: the check-ins and the paid panic-stop. An
activation starts the watch over too. -/
def VaultUpdate.objects : VaultUpdate → Bool
  | activate _ _ => true
  | u => u.stops

/-- The objections that leave the stamp in its column. -/
def VaultUpdate.keepsStamp : VaultUpdate → Bool
  | resetVaultClock _ _ _ => true
  | activate _ _ => true
  | _ => false

/-- The UPDATE that stamps a window. -/
def VaultUpdate.stampsWindow : VaultUpdate → Bool
  | stampClaimOpened _ => true
  | _ => false

/-- After an objection there is no stamp, unless it is one that leaves the column. -/
theorem claimOpenedAt_objects {u : VaultUpdate} (objects : u.objects = true) (l : Lifecycle) :
    (u.setLife l).claimOpenedAt = if u.keepsStamp then l.claimOpenedAt else none := by
  cases u with
  | checkin | checkinFromLink | resetVaultClock | panicFreeze | activate => rfl
  | _ => cases objects

/-- Whatever else is not a stamp has found the stamp that it leaves. -/
theorem claimOpenedAt_kept {u : VaultUpdate} {l : Lifecycle} {opened : Instant}
    (other : u.objects = false) (noStamp : u.stampsWindow = false)
    (after : (u.setLife l).claimOpenedAt = some opened) : l.claimOpenedAt = some opened := by
  cases u with
  | checkin | checkinFromLink | resetVaultClock | panicFreeze | activate => cases other
  | stampClaimOpened => cases noStamp
  | issueClaim => cases after
  | _ => exact after

/-- At `j` the thread `i` stamped the window of `v`. -/
def StampedAt (tr : Trace) (v : VaultId) (opened : Instant) (i j : Nat) : Prop :=
  ∃ t, tr[j]? = some t ∧ Did i (.exec (.updateVault v (.stampClaimOpened opened))) (.ok 1) t

/-- Between `j` and `k` the window of `v` is neither objected to nor stamped again. -/
def Undisturbed (tr : Trace) (v : VaultId) (j k : Nat) : Prop :=
  ∀ m s u, j < m → m < k → tr[m]? = some s → Commits s v u →
    u.objects = false ∧ u.stampsWindow = false

/-- Before `k` the window of `v` was stamped with `opened` and the owner alerted, and
nobody has objected since. -/
def WaitedSince (tr : Trace) (v : VaultId) (opened : Instant) (k : Nat) : Prop :=
  ∃ i j after, j < k ∧ StampedAt tr v opened i j ∧
    history i k tr = history i (j + 1) tr ++ after ∧ Alerted v after ∧
    ∀ m s u, j < m → m < k → tr[m]? = some s → Commits s v u → u.objects = false

/-- Whatever is released has waited a whole window. -/
def WindowsKept (S : Server) (tr : Trace) : Prop :=
  ∀ k i v s, tr[k]? = some s → Releases tr k i v s →
    ∃ opened, opened + S.window ≤ s.before.clock ∧ WaitedSince tr v opened k

/-- In this step the thread `i` reads the row of `v` and finds its window run out. -/
def FindsElapsed (S : Server) (i : Nat) (v : VaultId) (opened : Instant) (s : SrvStep) : Prop :=
  ∃ r, Did i (.query (.vault v)) (.ok (some r)) s ∧ r.life.claimOpenedAt = some opened ∧
    opened + S.window ≤ s.before.clock

/-- An objection that leaves the stamp finds none. -/
def LeavesNoStamp (tr : Trace) : Prop :=
  ∀ (k : Nat) s v u r, tr[k]? = some s → Commits s v u → u.keepsStamp = true →
    s.before.vault? v = some r → r.life.claimOpenedAt = none

/-- What the stamps of a run can be relied on for. -/
structure StampsClear (S : Server) (tr : Trace) : Prop where
  /-- A Lightning check-in and an activation find no stamp to leave. -/
  unstamped : LeavesNoStamp tr
  /-- An objection commits before the window check of a request passes, or after the
  request has broadcast or ended. -/
  apart : ∀ k s v u i q, tr[k]? = some s → Commits s v u → u.objects = true →
    Started i q (tr.take k) → q.awaits = true → WindowPassed S v (history i k tr) →
    (q.spends = true → Quiet (history i k tr)) → Ended i (tr.take k)
  /-- The event of an opening is never refused. -/
  recorded : ∀ (k : Nat) s i ev e, tr[k]? = some s → Did i (.exec (.insertEvent ev)) (.error e) s →
    ev.kind ≠ .claimOpened
  /-- A request that has stamped the window has returned by the time it runs out. -/
  prompt : ∀ j k i i' v s opened, StampedAt tr v opened i j → j < k → Undisturbed tr v j k →
    tr[k]? = some s → FindsElapsed S i' v opened s →
    ∃ m u r, j < m ∧ m < k ∧ tr[m]? = some u ∧ u.label = .returned i r

/-! ## §2 The stamp of a row -/

section Runs

variable {S : Server} {t₀ : Instant} {tr : Trace} {s : SrvStep} {v : VaultId} {k : Nat}
  {opened : Instant}

theorem Undisturbed.snoc {j : Nat} (still : Undisturbed tr v j k) (at_k : tr[k]? = some s)
    (now : ∀ u, Commits s v u → u.objects = false ∧ u.stampsWindow = false) :
    Undisturbed tr v j (k + 1) := by
  intro m t u after before at_m commits
  rcases Nat.lt_succ_iff_lt_or_eq.1 before with early | rfl
  · exact still m t u after early at_m commits
  · rw [at_k] at at_m
    cases at_m
    exact now u commits

/-- A row's stamp is from a step after which nobody has objected. -/
theorem Runs.standing (runs : Runs S t₀ tr)
    (unstamped : LeavesNoStamp tr) (at_k : tr[k]? = some s) {r : VaultRow} (row : s.before.vault? v = some r)
    (stamp : r.life.claimOpenedAt = some opened) :
    ∃ i j, j < k ∧ StampedAt tr v opened i j ∧ Undisturbed tr v j k := by
  refine (runs.row_invariant (v := v) (P := fun n r => ∀ opened,
    r.life.claimOpenedAt = some opened →
      ∃ i j, j < n ∧ StampedAt tr v opened i j ∧ Undisturbed tr v j n)
    ⟨?_, ?_, ?_, ?_⟩ at_k).1 r row opened stamp
  -- the row is untouched
  · intro n s r at_n silent _ _ standing opened stamp
    obtain ⟨i, j, before, stamped, still⟩ := standing opened stamp
    exact ⟨i, j, Nat.lt_succ_of_lt before, stamped,
      still.snoc at_n fun u commits => absurd commits (silent u)⟩
  · intro n s r c at_n silent _ _ standing opened stamp
    obtain ⟨i, j, before, stamped, still⟩ := standing opened stamp
    exact ⟨i, j, Nat.lt_succ_of_lt before, stamped,
      still.snoc at_n fun u commits => absurd commits (silent u)⟩
  -- a created row has no stamp
  · intro n s i r m at_n did _ opened stamp
    obtain ⟨q, -, t, token, -, life, -⟩ := runs.justified at_n did
    rw [life] at stamp
    cases stamp
  -- an update: it objects and leaves no stamp, stamps anew, or keeps the stamp
  · intro n s u r at_n applies row guard standing opened stamp
    rw [VaultUpdate.set_life] at stamp
    have one : ∀ u', Commits s v u' → u' = u := fun u' commits =>
      commits.1.unique applies
    cases objects : u.objects with
    | true =>
      rw [claimOpenedAt_objects objects] at stamp
      split at stamp
      · next keeps =>
        rw [unstamped n s v u r at_n ⟨applies, r, row, guard⟩ keeps row] at stamp
        cases stamp
      · cases stamp
    | false =>
      cases stamps : u.stampsWindow with
      | true =>
        cases u with
        | stampClaimOpened t =>
          cases stamp
          obtain ⟨i, q, m, did, -⟩ :=
            runs.warranted at_n applies (fun _ _ _ => by simp) fun _ => by simp
          obtain ⟨rfl, -⟩ := did_update_hit (runs.explains_at at_n) did row guard
          refine ⟨i, n, Nat.lt_succ_self n, ⟨s, at_n, did⟩, fun m t' u' after before => ?_⟩
          exact absurd (Nat.lt_succ_iff.1 before) (Nat.not_le.2 after)
        | _ => cases stamps
      | false =>
        obtain ⟨i, j, before, stamped, still⟩ :=
          standing opened (claimOpenedAt_kept objects stamps stamp)
        refine ⟨i, j, Nat.lt_succ_of_lt before, stamped, still.snoc at_n fun u' commits => ?_⟩
        rw [one u' commits]
        exact ⟨objects, stamps⟩

/-! ## §3 Who releases -/

/-- Only a request that hands something out is answered with it. -/
theorem hands_of_reply (S : Server) (q : Request) :
    Meets (fun _ _ => True)
      (fun _ r => ∀ reply v, r = .ok reply → reply.releases = some v → q.hands = true)
      (q.program S) [] := by
  by_cases hands : q.hands = true
  · exact Meets.mono (Meets.grows _ _) (fun _ _ _ => trivial) fun _ _ _ _ _ _ _ => hands
  have plain : ∀ {α : Type} (p : Prog α) (wrap : α → Reply), (∀ a, (wrap a).releases = none) →
      Meets (fun _ _ => True)
        (fun _ r => ∀ reply v, r = .ok reply → reply.releases = some v → q.hands = true)
        (p.reply wrap) [] := by
    intro α p wrap none
    refine Meets.bind (Meets.mono (Meets.grows p []) (fun _ _ _ => trivial) fun _ _ _ => trivial)
      (Q := fun _ _ => True) ?_ ?_
    · rintro g a - - reply v ⟨⟩ releases
      rw [none a] at releases
      cases releases
    · rintro g e - - reply v ⟨⟩
  cases q with
  | sealedHeir | sealedGuardian | heirDerivationParams | buildClaimPsbt => exact absurd rfl hands
  | _ => exact plain _ _ fun _ => rfl

/-- A release has passed its window check, and its thread is still at work. -/
theorem Runs.releases_passed (runs : Runs S t₀ tr) {i : Nat} (at_k : tr[k]? = some s)
    (releases : Releases tr k i v s) :
    WindowPassed S v (history i k tr) ∧ ¬ Ended i (tr.take k) ∧
      ∃ q, Started i q (tr.take k) ∧ q.awaits = true ∧
        (q.spends = true → Quiet (history i k tr)) := by
  obtain ⟨c, run⟩ := id runs
  cases releases with
  | reply returned hands =>
    refine ⟨(runs.admitted at_k returned hands).2, fun ended => ?_, ?_⟩
    · exact (run.silent_at at_k le_rfl ended).2 _ returned
    · obtain ⟨q, started, replies⟩ := run.returned_at (S := server S) (hands_of_reply S) at_k returned
      have gives := replies _ v rfl hands
      refine ⟨q, started, by simp [Request.awaits, gives], fun spends => ?_⟩
      cases q with
      | broadcastClaim | heirClaim | guardianClaim => cases gives
      | _ => cases spends
  | spend sent loaded =>
    obtain ⟨⟨a, r⟩, label, urls, tx, same⟩ := sent
    cases same
    obtain ⟨q, started, quiet, consumed, -⟩ := runs.justified at_k label
    obtain ⟨passed, t, ran⟩ := consumed v loaded
    refine ⟨passed, fun ended => (run.silent_at at_k le_rfl ended).1 _ label, q, started, ?_,
      fun _ => quiet⟩
    -- only a spending request consumes the token
    obtain ⟨j, u, before, at_j, did⟩ := mem_history.1 ran
    obtain ⟨q', started', spends, -⟩ := runs.justified at_j did
    obtain ⟨c', first⟩ := run.take k
    rw [first.started_unique started (started'.later (Nat.le_of_lt before))]
    simp [Request.awaits, spends]

/-! ## §4 Every release has waited -/

/-- In a run whose stamps can be relied on, every release has waited. -/
theorem windowsKept_of_clear (runs : Runs S t₀ tr) (windowed : S.challengeWindowSecs ≠ 0)
    (clear : StampsClear S tr) : WindowsKept S tr := by
  intro k i v s at_k releases
  obtain ⟨c, run⟩ := id runs
  obtain ⟨passed, working, q, started, awaits, quiet⟩ := runs.releases_passed at_k releases
  -- the window check that let the request through
  rcases passed with zero | ⟨h₁, h₂, r, opened, t, whole, clock, stamp, elapsed⟩
  · exact absurd zero windowed
  obtain ⟨n, u, n_lt, at_n, reads, rfl⟩ := history_split whole
  obtain ⟨row, -⟩ := did_query (runs.explains_at at_n) reads
  have row : u.before.vault? v = some r := Except.ok.inj row
  have run_out : opened + S.window ≤ u.before.clock := by
    obtain ⟨m, w, before, at_m, -, rfl⟩ := runs.clock_at clock
    exact elapsed.trans (runs.clock_mono at_m (Nat.le_of_lt before) at_n)
  -- the stamp it found, and the alert that followed the stamp
  obtain ⟨i', j, j_lt, stamped, still⟩ := runs.standing clear.unstamped at_n row stamp
  obtain ⟨m, w, res, after_j, before_n, at_m, returned⟩ :=
    clear.prompt j n i' i v u opened stamped j_lt still at_n ⟨r, reads, stamp, run_out⟩
  obtain ⟨t', at_j, stamps⟩ := stamped
  obtain ⟨after, grown, done⟩ := runs.alerted at_j stamps after_j at_m returned
  have alerted : Alerted v after := by
    rcases done with alerted | ⟨ev, e, kind, mem⟩
    · exact alerted
    · have mem : _ ∈ history i' m tr := grown ▸ List.mem_append_right _ mem
      obtain ⟨a, x, -, at_a, did⟩ := mem_history.1 mem
      exact absurd kind (clear.recorded a x i' ev e at_a did)
  obtain ⟨more, longer⟩ : history i' m tr <+: history i' k tr :=
    history_mono (Nat.le_of_lt (Nat.lt_trans before_n n_lt))
  refine ⟨opened, run_out.trans (runs.clock_mono at_n (Nat.le_of_lt n_lt) at_k), i', j,
    after ++ more, Nat.lt_trans j_lt n_lt, ⟨t', at_j, stamps⟩, ?_, alerted.append more, ?_⟩
  · rw [← longer, grown, List.append_assoc]
  -- nobody objects before the window check, and nobody after it
  intro m' x u' after_j' before_k at_m' commits
  cases objects : u'.objects with
  | false => rfl
  | true =>
    exfalso
    rcases Nat.lt_trichotomy m' n with early | same | late
    · rw [(still m' x u' after_j' early at_m' commits).1] at objects
      cases objects
    · subst same
      rw [at_n] at at_m'
      cases at_m'
      exact commits.not_query reads
    · obtain ⟨q', started', -⟩ := runs.justified at_n reads
      obtain ⟨c', first⟩ := run.take k
      rw [first.started_unique (started'.later (Nat.le_of_lt n_lt)) started] at started'
      have longer : history i (n + 1) tr <+: history i m' tr := history_mono late
      have passed : WindowPassed S v (history i m' tr) := by
        refine WindowPassed.mono longer (.inr ⟨history i n tr, [], r, opened, t, ?_, clock, stamp,
          elapsed⟩)
        exact history_succ at_n reads
      have quiet' : q.spends = true → Quiet (history i m' tr) := fun spends =>
        (quiet spends).anti (history_subset (Nat.le_of_lt before_k))
      have ended := clear.apart m' x v u' i q at_m' commits objects
        (started'.later (Nat.le_of_lt late)) awaits passed quiet'
      exact working (ended.later (Nat.le_of_lt before_k))

end Runs

/-! ## §5 A stamp that outlives a check-in -/

section Outlived

open Deployment

/-- A funded vault whose owner has issued a claim token, and whose window is stamped. -/
def stampedByLink : List (Move Oracle Drift Request) :=
  [.start (.createVault (createPlain "d"))] ++ steps 0 8 (oracle "v" []) ++
    [.start .schedulerTick] ++ steps 1 26 (oracle "" [coin]) ++
    [.start (.issueClaim "v")] ++ steps 2 7 (oracle "token" []) ++
    [.start (.resolveClaim "token")] ++ steps 3 8 (oracle "" [])

/-- The owner pays a check-in invoice, misses the next deadline, and the next cycle's
token is used at once. -/
def paidThenTriggered : List (Move Oracle Drift Request) :=
  stampedByLink ++ [.start (.lnurlpCallback "v" (some 1000) false)] ++ steps 4 9 (oracle "" []) ++
    [.start .pollerTick] ++ steps 5 10 (oracle "" []) ++ wait 86400 ++
    [.start .schedulerTick] ++ steps 6 30 (oracle "later" [coin]) ++
    [.start (.buildClaimPsbt "later" "heir" none)] ++ steps 7 7 (oracle "" [coin])

/-- Whether the step stamps a window. -/
def stampsIn (s : SrvStep) : Bool :=
  match s.label with
  | .acted _ ⟨.exec (.updateVault _ (.stampClaimOpened _)), _⟩ => true
  | _ => false

theorem stampsIn_of_did {i : Nat} {v : VaultId} {opened : Instant} {n : Nat} {s : SrvStep}
    (did : Did i (.exec (.updateVault v (.stampClaimOpened opened))) (.ok n) s) :
    stampsIn s = true := by
  unfold stampsIn
  rw [show s.label = _ from did]

/-- Whether thread `i` answers with key material or a PSBT of `v` in this step. -/
def handsOut (i : Nat) (v : VaultId) (s : SrvStep) : Bool :=
  match s.label with
  | .returned j (.ok reply) => j = i && reply.releases = some v
  | _ => false

theorem releases_of_handsOut {tr : Trace} {k i : Nat} {v : VaultId} {s : SrvStep}
    (hands : handsOut i v s = true) : Releases tr k i v s := by
  unfold handsOut at hands
  split at hands
  · next j reply label =>
    simp only [Bool.and_eq_true, decide_eq_true_eq] at hands
    obtain ⟨rfl, gives⟩ := hands
    exact .reply label gives
  · cases hands

/-- Whether a check-in invoice is paid in this step that resets the clock of `v`. -/
def pays (v : VaultId) (s : SrvStep) : Bool :=
  match s.label with
  | .acted _ ⟨.payCheckin paymentHash t, .ok _⟩ =>
      s.before.db.invoicePending paymentHash &&
        (s.before.db.invoice? paymentHash).any fun inv =>
          (s.before.vault? inv.vaultId).any fun paid =>
            (s.before.vault? v).any fun r => Db.reset? paid t r && r.life.status ≠ .claimed
  | _ => false

theorem commits_of_pays {v : VaultId} {s : SrvStep} (paid : pays v s = true) :
    ∃ u, Commits s v u ∧ u.objects = true := by
  unfold pays at paid
  split at paid
  · next i paymentHash t outcome label =>
    simp only [Bool.and_eq_true, Option.any_eq_true] at paid
    obtain ⟨pending, inv, issued, row, here, r, before, reached, alive⟩ := paid
    exact ⟨clockReset r t, ⟨.paid label pending issued here before reached, r, before, alive⟩, rfl⟩
  · cases paid

/-- The PSBT of the next cycle goes out on the stamp of the one the owner has stopped. -/
theorem not_windowsKept :
    ¬ ∀ (S : Server) (t₀ : Instant) (tr : Trace), S.Lawful → S.challengeWindowSecs ≠ 0 →
      Runs S t₀ tr → WindowsKept S tr := by
  intro kept
  obtain ⟨tr, runs, check⟩ := runs_of_play (host 86400) paidThenTriggered
    (fun tr => tr[113]?.any (handsOut 7 "v") && tr[70]?.any (pays "v") &&
      tr.zipIdx.all fun p => !stampsIn p.1 || p.2 = 48) (by decide +kernel)
  simp only [Bool.and_eq_true, Option.any_eq_true] at check
  obtain ⟨⟨⟨s, at_k, hands⟩, t, at_m, paid⟩, once⟩ := check
  obtain ⟨opened, -, i, j, after, -, ⟨w, at_j, stamps⟩, -, -, silent⟩ :=
    kept _ _ _ (lawful _) (by decide) runs 113 7 "v" s at_k (releases_of_handsOut hands)
  have place := List.all_eq_true.1 once (w, j) (List.mk_mem_zipIdx_iff_getElem?.2 at_j)
  rw [stampsIn_of_did stamps] at place
  have only : j = 48 := by simpa using place
  obtain ⟨u, commits, objects⟩ := commits_of_pays paid
  rw [silent 70 t u (by omega) (by decide) at_m commits] at objects
  cases objects

/-! ## §6 A claim that has waited -/

/-- The window runs out and the token of the cycle is used. -/
def waitedOut : List (Move Oracle Drift Request) :=
  stampedByLink ++ wait 86400 ++ [.start (.buildClaimPsbt "token" "heir" none)] ++
    steps 4 7 (oracle "" [coin])

/-- Whether the step may be an objection. -/
def mayObject (s : SrvStep) : Bool :=
  match s.label with
  | .acted _ ⟨.exec (.updateVault _ u), _⟩ => u.objects
  | .acted _ ⟨.payCheckin _ _, _⟩ => true
  | .acted _ ⟨.payPanic _ _, _⟩ => true
  | _ => false

/-- Whether a row that is read in this step carries a stamp that `p` holds of. -/
def readsStamp (p : Instant → Bool) (s : SrvStep) : Bool :=
  match s.label with
  | .acted _ ⟨.query (.vault _), .ok (some r)⟩ => r.life.claimOpenedAt.any p
  | _ => false

/-- Whether the event of an opening is refused in this step. -/
def refusesOpening (s : SrvStep) : Bool :=
  match s.label with
  | .acted _ ⟨.exec (.insertEvent ev), .error _⟩ => ev.kind = .claimOpened
  | _ => false

/-- Whether nobody objects from position `a` on, no stamp is read before it, and no stamp is
found to have run out before position `b`. -/
def calmAt (S : Server) (a b : Nat) (p : SrvStep × Nat) : Bool :=
  (!mayObject p.1 || decide (p.2 < a) &&
    p.1.before.db.vaults.rows.all fun r => r.life.claimOpenedAt = none) &&
  (!readsStamp (fun _ => true) p.1 || decide (a ≤ p.2)) &&
  (!stampsIn p.1 || decide (p.2 = a)) &&
  (!readsStamp (fun opened => opened + S.window ≤ p.1.before.clock) p.1 || decide (b < p.2)) &&
  !refusesOpening p.1

theorem mayObject_of_commits {s : SrvStep} {v : VaultId} {u : VaultUpdate} (commits : Commits s v u)
    (objects : u.objects = true) : mayObject s = true := by
  obtain ⟨applies, -⟩ := commits
  unfold mayObject
  cases applies with
  | exec did =>
    rw [show s.label = _ from did]
    exact objects
  | paid did | panic did => rw [show s.label = _ from did]

theorem readsStamp_of_did {s : SrvStep} {v : VaultId} {i : Nat} {r : VaultRow} {opened : Instant}
    {p : Instant → Bool} (did : Did i (.query (.vault v)) (.ok (some r)) s)
    (stamp : r.life.claimOpenedAt = some opened) (holds : p opened = true) :
    readsStamp p s = true := by
  unfold readsStamp
  rw [show s.label = _ from did]
  simp [stamp, holds]

/-- One stamp, at `a`, by a thread that has returned at `b`. -/
theorem clear_of_calmAt {S : Server} {tr : Trace} {a b i : Nat} {s t : SrvStep} {v : VaultId}
    {opened : Instant} {r : Except ApiError Reply} (windowed : S.challengeWindowSecs ≠ 0)
    (calm : tr.zipIdx.all (calmAt S a b) = true) (lt : a < b) (at_a : tr[a]? = some s)
    (stamps : Did i (.exec (.updateVault v (.stampClaimOpened opened))) (.ok 1) s)
    (at_b : tr[b]? = some t) (returned : t.label = .returned i r) : StampsClear S tr := by
  have here : ∀ (k : Nat) s, tr[k]? = some s → calmAt S a b (s, k) = true := fun k s at_k =>
    List.all_eq_true.1 calm (s, k) (List.mk_mem_zipIdx_iff_getElem?.2 at_k)
  -- a step that objects comes before the stamp, on rows without one
  have early : ∀ (k : Nat) s v u, tr[k]? = some s → Commits s v u → u.objects = true → k < a ∧
      ∀ r, s.before.vault? v = some r → r.life.claimOpenedAt = none := by
    intro k s v u at_k commits objects
    have now := here k s at_k
    simp only [calmAt, mayObject_of_commits commits objects, Bool.not_true, Bool.false_or,
      Bool.and_eq_true, decide_eq_true_eq, List.all_eq_true] at now
    exact ⟨now.1.1.1.1.1, fun r row => now.1.1.1.1.2 r (KeyedTable.find?_mem row)⟩
  refine ⟨?_, ?_, ?_, ?_⟩
  -- no stamp to clear: it is not there yet
  · intro k s v u r at_k commits keeps row
    have objects : u.objects = true := by
      cases u with
      | resetVaultClock | activate => rfl
      | _ => cases keeps
    exact (early k s v u at_k commits objects).2 r row
  -- an objection never follows a window that has passed
  · intro k s v u i q at_k commits objects _ _ passed _
    exfalso
    rcases passed with zero | ⟨h₁, h₂, r, opened, t, whole, -, stamp, -⟩
    · exact windowed zero
    · obtain ⟨n, w, n_lt, at_n, reads, -⟩ := history_split whole
      have now := here n w at_n
      simp only [calmAt, readsStamp_of_did reads stamp, Bool.not_true, Bool.false_or,
        Bool.and_eq_true, decide_eq_true_eq] at now
      have before := (early k s v u at_k commits objects).1
      have since := now.1.1.1.2
      omega
  -- no opening is refused
  · intro k s i ev e at_k did kind
    have now := here k s at_k
    have refuses : refusesOpening s = true := by
      unfold refusesOpening
      rw [show s.label = _ from did]
      exact decide_eq_true kind
    simp [calmAt, refuses] at now
  -- the only stamp is the one at `a`, and whoever waits it out does so after `b`
  · intro j k i' i'' v' u opened' stamped _ _ at_k finds
    obtain ⟨w, at_j, stamps'⟩ := stamped
    have now := here j w at_j
    simp only [calmAt, stampsIn_of_did stamps', Bool.not_true, Bool.false_or, Bool.and_eq_true,
      decide_eq_true_eq] at now
    have same : j = a := now.1.1.2
    subst same
    rw [at_a] at at_j
    cases at_j
    have label := stamps.symm.trans stamps'
    cases label
    obtain ⟨r', reads, stamp, elapsed⟩ := finds
    have late := here k u at_k
    have run_out : readsStamp (fun opened => opened + S.window ≤ u.before.clock) u = true :=
      readsStamp_of_did reads stamp (by simpa using elapsed)
    simp only [calmAt, run_out, Bool.not_true, Bool.false_or, Bool.and_eq_true,
      decide_eq_true_eq] at late
    exact ⟨b, t, r, lt, late.1.2, at_b, returned⟩

/-- Whether thread `i` returns in this step. -/
def returns (i : Nat) (s : SrvStep) : Bool :=
  match s.label with
  | .returned j _ => j = i
  | _ => false

/-- The PSBT of `waitedOut` goes out after a day. -/
theorem windowsKept_of_clear_waited :
    ∃ tr s, Runs (host 86400) 0 tr ∧ tr[61]? = some s ∧ Releases tr 61 4 "v" s ∧
      WindowsKept (host 86400) tr := by
  obtain ⟨tr, runs, check⟩ := runs_of_play (host 86400) waitedOut
    (fun tr => tr[61]?.any (handsOut 4 "v") && tr[48]?.any (updated 3 "v" (.stampClaimOpened 0)) &&
      tr[52]?.any (returns 3) && tr.zipIdx.all (calmAt (host 86400) 48 52)) (by decide +kernel)
  simp only [Bool.and_eq_true, Option.any_eq_true] at check
  obtain ⟨⟨⟨⟨s, at_k, hands⟩, t, at_a, stamps⟩, u, at_b, ends⟩, calm⟩ := check
  unfold returns at ends
  split at ends
  · next j r label =>
    simp only [decide_eq_true_eq] at ends
    subst ends
    exact ⟨tr, s, runs, at_k, releases_of_handsOut hands, windowsKept_of_clear runs (by decide)
      (clear_of_calmAt (by decide) calm (by decide) at_a (did_of_updated stamps) at_b label)⟩
  · cases ends

end Outlived

end GhostKey

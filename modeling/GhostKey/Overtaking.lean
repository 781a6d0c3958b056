import GhostKey.Deployment

/-!
# Claims Overtaken by Their Owner

A claim request finds the vault by its token, makes its window check, and only then runs
the UPDATE that uses the token up, which asks no more than that the token is unused. A
check-in or a panic-stop that commits in between clears the token, and leaves it unused.

Main results:
- `Runs.late_check`: a claim that goes on past a stop made its window check after it.
- `stopsHold_of_clear`: where no stop falls between a claim's window check and its
  broadcast, and no later check passes, a committed stop ends every claim under way.
-/

namespace GhostKey

open Foundation

/-! ## §1 Stops and the claims they overtake -/

/-- The UPDATEs by which an owner stops a claim: the check-ins and the paid panic-stop. -/
def VaultUpdate.stops : VaultUpdate → Bool
  | checkin _ _ _ => true
  | checkinFromLink _ _ _ _ => true
  | resetVaultClock _ _ _ => true
  | panicFreeze _ => true
  | _ => false

/-- At `k` a stop of `v` commits, and the claim request `i` has found `v` before. -/
structure Overtakes (tr : Trace) (k i : Nat) (v : VaultId) : Prop where
  stop : ∃ s u, tr[k]? = some s ∧ Commits s v u ∧ u.stops = true
  spends : ∃ q, Started i q (tr.take k) ∧ q.spends = true
  loaded : Loaded (history i k tr) v

/-- The request `i` uses the token of `v` up, which moves `v` into `claiming`. -/
def Consumes (i : Nat) (v : VaultId) (s : SrvStep) : Prop :=
  ∃ t, Did i (.exec (.updateVault v (.consumeClaimToken t))) (.ok 1) s

def Broadcasts (i : Nat) (s : SrvStep) : Prop := ∃ e, s.label = .acted i e ∧ IsBroadcast e

/-- After a stop, no claim request that had found the vault before goes through. -/
def StopsHold (tr : Trace) : Prop :=
  ∀ k m i v s, Overtakes tr k i v → k < m → tr[m]? = some s → ¬ Consumes i v s ∧ ¬ Broadcasts i s

/-- What keeps stops and claims apart. -/
structure StopsClear (S : Server) (tr : Trace) : Prop where
  /-- A stop commits before a claim's window check passes, or after it has broadcast or ended. -/
  apart : ∀ k i v, Overtakes tr k i v → WindowPassed S v (history i k tr) →
    Quiet (history i k tr) → Ended i (tr.take k)
  /-- A window check after the stop finds no stamp, or one younger than the window. -/
  rewaits : ∀ k m i v s r t opened, Overtakes tr k i v → k < m → tr[m]? = some s →
    Did i (.query (.vault v)) (.ok (some r)) s → ClockRead (history i m tr) t →
    r.life.claimOpenedAt = some opened → t < opened + S.window

/-! ## §2 What goes on past a stop -/

section Runs

variable {S : Server} {t₀ : Instant} {tr : Trace} {s t : SrvStep} {v : VaultId} {i k m : Nat}

theorem Quiet.anti {g h : Hist} (quiet : Quiet g) (sub : h ⊆ g) : Quiet h := fun e mem =>
  quiet e (sub mem)

/-- A window check that has passed by `m` had passed by `k`, or came after it. -/
theorem Overtakes.late_check (overtakes : Overtakes tr k i v)
    (passed : WindowPassed S v (history i m tr)) :
    WindowPassed S v (history i k tr) ∨ ∃ (n : Nat) (u : SrvStep) (r : VaultRow) (opened t : Instant),
      k < n ∧ tr[n]? = some u ∧ Did i (.query (.vault v)) (.ok (some r)) u ∧
        ClockRead (history i n tr) t ∧ r.life.claimOpenedAt = some opened ∧ opened + S.window ≤ t := by
  rcases passed with zero | ⟨h₁, h₂, r, opened, t, whole, clock, stamped, elapsed⟩
  · exact .inl (.inl zero)
  · obtain ⟨n, u, -, at_n, label, rfl⟩ := history_split whole
    rcases Nat.lt_trichotomy n k with early | same | late
    · have longer : history i (n + 1) tr <+: history i k tr := history_mono early
      obtain ⟨more, grown⟩ := longer
      rw [history_succ at_n label] at grown
      exact .inl (.inr ⟨_, more, r, opened, t, by rw [← grown]; simp, clock, stamped, elapsed⟩)
    · subst same
      obtain ⟨s, u', at_k, commits, -⟩ := overtakes.stop
      rw [at_k] at at_n
      cases at_n
      exact absurd label commits.not_query
    · exact .inr ⟨n, u, r, opened, t, late, at_n, label, clock, stamped, elapsed⟩

/-- An overtaken claim that has not broadcast does nothing more once it has passed its
window check. -/
theorem StopsClear.silent (clear : StopsClear S tr) (runs : Runs S t₀ tr)
    (overtakes : Overtakes tr k i v) (lt : k < m) (at_m : tr[m]? = some s)
    (passed : WindowPassed S v (history i m tr)) (quiet : Quiet (history i m tr)) {e : Ev} :
    s.label ≠ .acted i e := by
  obtain ⟨c, run⟩ := runs
  rcases overtakes.late_check passed with early | ⟨n, u, r, opened, t, late, at_n, did, clock, rest⟩
  · have ended := clear.apart k i v overtakes early (quiet.anti (history_subset (Nat.le_of_lt lt)))
    exact (run.silent_at at_m (Nat.le_of_lt lt) ended).1 e
  · have waits := clear.rewaits k n i v u r t opened overtakes late at_n did clock rest.1
    exact absurd rest.2 (Int.not_le.2 waits)

/-- In a run that keeps stops and claims apart, stops hold. -/
theorem stopsHold_of_clear (runs : Runs S t₀ tr) (clear : StopsClear S tr) : StopsHold tr := by
  intro k m i v s overtakes lt at_m
  constructor
  · rintro ⟨t, did⟩
    obtain ⟨q, -, -, -, passed, quiet⟩ := runs.justified at_m did
    exact clear.silent runs overtakes lt at_m passed quiet did
  · rintro ⟨⟨a, r⟩, label, urls, tx, same⟩
    cases same
    obtain ⟨q, -, quiet, consumed, -⟩ := runs.justified at_m label
    have loaded : Loaded (history i m tr) v :=
      overtakes.loaded.mono (history_subset (Nat.le_of_lt lt))
    exact clear.silent runs overtakes lt at_m (consumed v loaded).1 quiet label

end Runs

/-! ## §3 A claim that goes on -/

section Raced

open Deployment

/-- A funded vault, and a claim token its owner has issued. -/
def fundedAndIssued : List (Move Oracle Drift Request) :=
  [.start (.createVault (createPlain "d"))] ++ steps 0 8 (oracle "v" []) ++
    [.start .schedulerTick] ++ steps 1 24 (oracle "" [coin]) ++
    [.start (.issueClaim "v")] ++ steps 2 7 (oracle "token" [])

/-- The window has run out, a claim has passed its check, and the owner checks in. -/
def checkinAfterCheck : List (Move Oracle Drift Request) :=
  fundedAndIssued ++ [.start (.resolveClaim "token")] ++ steps 3 8 (oracle "" []) ++ wait 86400 ++
    [.start (.broadcastClaim "token" "coin")] ++ steps 4 3 (oracle "" []) ++
    [.start (.checkin "v")] ++ steps 5 6 (oracle "" []) ++ steps 4 7 (oracle "" [])

/-- The owner checks in before the check of a claim that has looked the token up. -/
def checkinBeforeCheck : List (Move Oracle Drift Request) :=
  fundedAndIssued ++ [.start (.broadcastClaim "token" "coin")] ++ steps 3 1 (oracle "" []) ++
    [.start (.checkin "v")] ++ steps 4 6 (oracle "" []) ++ steps 3 7 (oracle "" [])

/-- Whether thread `i` finds `v` by a claim token in this step. -/
def findsByToken (i : Nat) (v : VaultId) (s : SrvStep) : Bool :=
  match s.label with
  | .acted j ⟨.query (.vaultByClaimToken _), .ok (some r)⟩ => j = i && r.id = v
  | _ => false

/-- Whether the step starts thread `i` with a request that spends. -/
def startsSpending (i : Nat) (s : SrvStep) : Bool :=
  match s.label with
  | .started j q => j = i && q.spends
  | _ => false

/-- Whether the step is a check-in of `v` by button that finds its row. -/
def checksIn (v : VaultId) (s : SrvStep) : Bool :=
  match s.label with
  | .acted _ ⟨.exec (.updateVault v' (.checkin _ _ _)), .ok 1⟩ => v' = v
  | _ => false

theorem overtakes_of_positions {S : Server} {t₀ : Instant} {tr : Trace} {a b k i : Nat} {v : VaultId}
    (runs : Runs S t₀ tr) (le : a < k ∧ b < k) (starts : tr[a]?.any (startsSpending i) = true)
    (finds : tr[b]?.any (findsByToken i v) = true) (stops : tr[k]?.any (checksIn v) = true) :
    Overtakes tr k i v := by
  simp only [Option.any_eq_true] at starts finds stops
  obtain ⟨s, at_a, starts⟩ := starts
  obtain ⟨t, at_b, finds⟩ := finds
  obtain ⟨u, at_k, stops⟩ := stops
  refine ⟨?_, ?_, ?_⟩
  -- each position read off its label
  · unfold checksIn at stops
    split at stops
    · next j v' now next eligible label =>
      simp only [decide_eq_true_eq] at stops
      subst stops
      refine ⟨u, .checkin now next eligible, at_k, ?_, rfl⟩
      rcases did_update (runs.explains_at at_k) label with ⟨-, r, row, guard, -⟩ | ⟨none, -⟩
      · exact ⟨.exec label, r, row, guard⟩
      · cases none
    · cases stops
  · unfold startsSpending at starts
    split at starts
    · next j q label =>
      simp only [Bool.and_eq_true, decide_eq_true_eq] at starts
      obtain ⟨rfl, spends⟩ := starts
      exact ⟨q, started_at.2 ⟨a, s, le.1, at_a, label⟩, spends⟩
    · cases starts
  · unfold findsByToken at finds
    split at finds
    · next j hash r label =>
      simp only [Bool.and_eq_true, decide_eq_true_eq] at finds
      obtain ⟨rfl, id⟩ := finds
      exact ⟨_, mem_history.2 ⟨b, t, le.2, at_b, label⟩, .heir id⟩
    · cases finds

/-- A claim that had passed its window check goes through after the check-in. -/
theorem not_stopsHold :
    ¬ ∀ (S : Server) (t₀ : Instant) (tr : Trace), S.Lawful → Runs S t₀ tr → StopsHold tr := by
  intro holds
  obtain ⟨tr, runs, check⟩ := runs_of_play (host 86400) checkinAfterCheck
    (fun tr => tr[52]?.any (startsSpending 4) && tr[53]?.any (findsByToken 4 "v") &&
      tr[59]?.any (checksIn "v") && tr[64]?.any (updated 4 "v" (.consumeClaimToken 86400000000000)))
    (by decide +kernel)
  simp only [Bool.and_eq_true] at check
  obtain ⟨⟨⟨starts, finds⟩, stops⟩, consumes⟩ := check
  simp only [Option.any_eq_true] at consumes
  obtain ⟨s, at_m, consumes⟩ := consumes
  have overtakes := overtakes_of_positions runs ⟨by decide, by decide⟩ starts finds stops
  exact (holds _ _ _ (lawful _) runs 59 64 4 "v" s overtakes (by decide) at_m).1
    ⟨_, did_of_updated consumes⟩

/-- Whether a window check that is made in this step finds the window open. -/
def findsOpen (S : Server) (s : SrvStep) : Bool :=
  match s.label with
  | .acted _ ⟨.query (.vault _), .ok (some r)⟩ =>
      r.life.claimOpenedAt.all fun opened => s.before.clock < opened + S.window
  | _ => true

/-- Where every window check finds its window open, none passes. -/
theorem clear_of_findsOpen {S : Server} {t₀ : Instant} {tr : Trace} (runs : Runs S t₀ tr)
    (windowed : S.challengeWindowSecs ≠ 0) (all : tr.all (findsOpen S) = true) : StopsClear S tr := by
  have waits : ∀ m i v s r t opened, tr[m]? = some s → Did i (.query (.vault v)) (.ok (some r)) s →
      ClockRead (history i m tr) t → r.life.claimOpenedAt = some opened → t < opened + S.window := by
    intro m i v s r t opened at_m did clock stamped
    have here := List.all_eq_true.1 all s (List.mem_of_getElem? at_m)
    unfold findsOpen at here
    rw [show s.label = _ from did] at here
    have young : (r.life.claimOpenedAt.all fun opened => s.before.clock < opened + S.window) = true :=
      here
    rw [stamped, Option.all_some, decide_eq_true_eq] at young
    obtain ⟨j, u, before, at_j, -, rfl⟩ := runs.clock_at clock
    exact (runs.clock_mono at_j (Nat.le_of_lt before) at_m).trans_lt young
  refine ⟨fun k i v _ passed _ => ?_, fun k m i v s r t opened _ _ at_m => waits m i v s r t opened at_m⟩
  rcases passed with zero | ⟨h₁, h₂, r, opened, t, whole, clock, stamped, elapsed⟩
  · exact absurd zero windowed
  · obtain ⟨n, u, -, at_n, label, rfl⟩ := history_split whole
    exact absurd elapsed (Int.not_le.2 (waits n i v u r t opened at_n label clock stamped))

/-- The overtaken claim of `checkinBeforeCheck` is made to wait. -/
theorem stopsHold_of_clear_waiting :
    ∃ tr, Runs (host 86400) 0 tr ∧ Overtakes tr 47 3 "v" ∧ StopsHold tr := by
  obtain ⟨tr, runs, check⟩ := runs_of_play (host 86400) checkinBeforeCheck
    (fun tr => tr[42]?.any (startsSpending 3) && tr[43]?.any (findsByToken 3 "v") &&
      tr[47]?.any (checksIn "v") && tr.all (findsOpen (host 86400))) (by decide +kernel)
  simp only [Bool.and_eq_true] at check
  obtain ⟨⟨⟨starts, finds⟩, stops⟩, all⟩ := check
  exact ⟨tr, runs, overtakes_of_positions runs ⟨by decide, by decide⟩ starts finds stops,
    stopsHold_of_clear runs (clear_of_findsOpen runs (by decide) all)⟩

end Raced

end GhostKey

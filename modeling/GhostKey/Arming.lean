import GhostKey.Alone
import GhostKey.Trigger

/-!
# The Armed Switch

A dead-man switch that nobody can silently disarm: an alarmed row keeps the time
its heir becomes eligible, and a tick after that time opens the claim. The trigger
skips a row whose claim token was issued by hand, unless a token is kept at rest.

Main results:
- `Runs.armed`: what an alarmed row has.
- `transitionAlarmedToClaimable_yields`: what the trigger does to every row.
- `armed_and_triggered`: both, in every reachable state.
-/

namespace GhostKey

open Foundation Program Prog

/-! ## §1 What an alarmed row has -/

/-- An UPDATE that sets the status without looking at it. -/
def VaultUpdate.overwritesStatus : VaultUpdate → Bool
  | alarm => true
  | setInitialStatus _ => true
  | _ => false

/-- Statuses on the way to the heir: nothing but a check-in, a panic-stop or the
claim itself leads out of them. -/
def Status.watched : Status → Bool
  | ok => true
  | alarmed => true
  | frozen => true
  | _ => false

/-- The UPDATEs that look at nothing find the row as their handler left it, and
panic-stops find a vault whose clock runs. -/
structure UpToDate (tr : Trace) : Prop where
  status : ∀ (k : Nat) s v u r, tr[k]? = some s → u.overwritesStatus = true → Commits s v u →
    s.before.vault? v = some r → r.life.status = .ok
  clock : ∀ (k : Nat) s v t r, tr[k]? = some s → Commits s v (.panicFreeze t) →
    s.before.vault? v = some r → r.life.claimEligibleAt ≠ none

/-- The hash was stored by an issue-claim before `k`. -/
def IssuedByHand (tr : Trace) (k : Nat) (v : VaultId) (hash : Hash) : Prop :=
  ∃ (j : Nat) (s : SrvStep) (t : Instant), j < k ∧ tr[j]? = some s ∧ Applies s v (.issueClaim hash t)

/-- A row on its way to the heir knows when, and its token is not one that only a
trigger could have stored. -/
structure Armed (tr : Trace) (k : Nat) (v : VaultId) (r : VaultRow) : Prop where
  eligible : r.life.status.watched = true → r.life.claimEligibleAt ≠ none
  token : claimIsLive r.life.status = true ∨ r.keys.claimTokenAtRest ≠ none ∨
    r.life.claimTokenHash = none ∨ ∃ hash, r.life.claimTokenHash = some hash ∧
      IssuedByHand tr k v hash

section Rows

variable {tr : Trace} {k : Nat} {v : VaultId} {r : VaultRow} {u : VaultUpdate}

theorem IssuedByHand.later {hash : Hash} (issued : IssuedByHand tr k v hash) :
    IssuedByHand tr (k + 1) v hash := by
  obtain ⟨j, s, t, before, rest⟩ := issued
  exact ⟨j, s, t, Nat.lt_succ_of_lt before, rest⟩

theorem Armed.later (armed : Armed tr k v r) : Armed tr (k + 1) v r :=
  ⟨armed.eligible, armed.token.imp_right fun token => token.imp_right fun token =>
    token.imp_right fun ⟨hash, stored, issued⟩ => ⟨hash, stored, issued.later⟩⟩

/-- Whatever makes a row ok also sets the time. -/
theorem eligible_of_ok (initial : ∀ st, u = .setInitialStatus st → st = .unfunded)
    (before : r.life.status = .ok → r.life.claimEligibleAt ≠ none)
    (ok : (u.set r).life.status = .ok) : (u.set r).life.claimEligibleAt ≠ none := by
  cases u with
  | setInitialStatus st =>
    rw [initial st rfl] at ok
    cases ok
  | checkin | checkinFromLink | resetVaultClock | activate => exact Option.some_ne_none _
  | _ => first | exact before ok | cases ok

/-- Only the trigger, an issue-claim and creation store a token. -/
theorem hash_set (stored : (u.set r).life.claimTokenHash ≠ none)
    (trigger : claimIsLive (u.set r).life.status = false) (issue : ∀ hash t, u ≠ .issueClaim hash t) :
    (u.set r).life.claimTokenHash = r.life.claimTokenHash := by
  cases u with
  | issueClaim hash t => exact absurd rfl (issue hash t)
  | openReused | openFresh => cases trigger
  | checkin | checkinFromLink | resetVaultClock | panicFreeze => exact absurd rfl stored
  | _ => rfl

/-- A live claim ends with a check-in or a panic-stop, both of which void its token. -/
theorem live_of_set (live : claimIsLive r.life.status = true) (guard : u.guard r = true)
    (stored : (u.set r).life.claimTokenHash ≠ none)
    (prompt : u.overwritesStatus = true → r.life.status = .ok)
    (returns : ∀ st, u = .returnEmpty st → st = .ok ∨ st = .alarmed) :
    claimIsLive (u.set r).life.status = true := by
  have other : ∀ st, claimIsLive st = false → r.life.status ≠ st := by
    rintro st quiet rfl
    rw [live] at quiet
    cases quiet
  cases u with
  | setInitialStatus | alarm => exact absurd (prompt rfl) (other _ rfl)
  | checkin | checkinFromLink | resetVaultClock | panicFreeze => exact absurd rfl stored
  | ownerFullDrain =>
    simp only [VaultUpdate.guard, decide_eq_true_eq] at guard
    rcases guard with here | here | here | here <;> exact absurd here (other _ rfl)
  | unfreeze | activate => exact absurd (of_decide_eq_true guard) (other _ rfl)
  | returnEmpty st =>
    have here := of_decide_eq_true guard
    rcases returns st rfl with rfl | rfl <;> exact absurd here (other _ rfl)
  | consumeClaimToken | releaseClaimToken | promoteClaimed | openReused | openFresh => rfl
  | _ => exact live

/-- What one UPDATE leaves of an armed row. -/
theorem Armed.set (armed : Armed tr k v r) (guard : u.guard r = true)
    (prompt : u.overwritesStatus = true → r.life.status = .ok)
    (clock : ∀ t, u = .panicFreeze t → r.life.claimEligibleAt ≠ none)
    (issued : ∀ hash t, u = .issueClaim hash t → IssuedByHand tr (k + 1) v hash)
    (initial : ∀ st, u = .setInitialStatus st → st = .unfunded)
    (returns : ∀ st, u = .returnEmpty st → st = .ok ∨ st = .alarmed) :
    Armed tr (k + 1) v (u.set r) := by
  refine ⟨fun watched => ?_, ?_⟩
  · cases u with
    | setInitialStatus st =>
      rw [initial st rfl] at watched
      cases watched
    | checkin | checkinFromLink | resetVaultClock | activate => exact Option.some_ne_none _
    | panicFreeze t => exact clock t rfl
    | unfreeze => exact armed.eligible (by rw [of_decide_eq_true guard]; rfl)
    | alarm => exact armed.eligible (by rw [prompt rfl]; rfl)
    | _ => first | exact armed.eligible watched | cases watched
  -- either the claim goes live, or the stored hash is one of before
  · by_cases stored : (u.set r).life.claimTokenHash = none
    · exact .inr (.inr (.inl stored))
    · by_cases hand : ∃ hash t, u = .issueClaim hash t
      · obtain ⟨hash, t, rfl⟩ := hand
        exact .inr (.inr (.inr ⟨hash, rfl, issued hash t rfl⟩))
      · by_cases live : claimIsLive (u.set r).life.status = true
        · exact .inl live
        · have same := hash_set stored (by simpa using live) fun hash t same => hand ⟨hash, t, same⟩
          rcases armed.token with was | rest
          · exact absurd (live_of_set was guard stored prompt returns) live
          · refine .inr ?_
            rw [same, VaultUpdate.set_keys]
            exact rest.imp_right fun token =>
              token.imp_right fun ⟨hash, here, by_hand⟩ => ⟨hash, here, by_hand.later⟩

end Rows

section Runs

variable {S : Server} {t₀ : Instant} {tr : Trace} {s : SrvStep} {k : Nat} {v : VaultId}
  {r : VaultRow}

theorem Runs.ok_eligible (runs : Runs S t₀ tr) (at_k : tr[k]? = some s)
    (row : s.before.vault? v = some r) (ok : r.life.status = .ok) :
    r.life.claimEligibleAt ≠ none := by
  refine (runs.row_invariant (v := v)
    (P := fun _ r => r.life.status = .ok → r.life.claimEligibleAt ≠ none)
    ⟨fun _ _ _ _ _ _ _ holds => holds, fun _ _ _ _ _ _ _ _ holds => holds, ?_, ?_⟩ at_k).1 r row ok
  · intro n s i r m at_n did _ _
    obtain ⟨q, -, t, token, -, life, -⟩ := runs.justified at_n did
    rw [life]
    exact Option.some_ne_none _
  · intro n s u r at_n applies _ _ holds
    refine eligible_of_ok ?_ holds
    rintro st rfl
    exact runs.initial_status at_n applies

theorem Runs.armed (runs : Runs S t₀ tr) (upToDate : UpToDate tr) (at_k : tr[k]? = some s)
    (row : s.before.vault? v = some r) : Armed tr k v r := by
  refine (runs.row_invariant (v := v) (P := fun n r => Armed tr n v r)
    ⟨fun _ _ _ _ _ _ _ armed => armed.later,
      fun _ _ _ _ _ _ _ _ armed => ⟨armed.later.eligible, armed.later.token⟩, ?_, ?_⟩ at_k).1 r row
  · intro n s i r m at_n did _
    obtain ⟨q, -, t, token, -, life, -, -, kept, -⟩ := runs.justified at_n did
    refine ⟨fun _ => by rw [life]; exact Option.some_ne_none _, .inr ?_⟩
    cases token with
    | none => exact .inr (.inl (by rw [life]; rfl))
    | some token => exact .inl (by simpa [Option.isSome_iff_ne_none] using kept)
  · intro n s u r at_n applies before guard armed
    refine armed.set guard (fun blind => ?_) ?_ ?_ ?_ ?_
    · exact upToDate.status n s v u r at_n blind ⟨applies, r, before, guard⟩ before
    · rintro t rfl
      exact upToDate.clock n s v t r at_n ⟨applies, r, before, guard⟩ before
    · rintro hash t rfl
      exact ⟨n, s, t, Nat.lt_succ_self n, at_n, applies⟩
    · rintro st rfl
      exact runs.initial_status at_n applies
    · rintro st rfl
      exact runs.returnEmpty_status at_n applies

end Runs

/-! ## §2 The estimate and the links -/

/-- The row of `r` is there, with another scan result at most. -/
def Rescanned (r : VaultRow) (w : World) : Prop :=
  ∃ chain, w.vault? r.id = some { r with chain := chain }

/-- The rows of the other vaults are as they were. -/
def OthersKept (v : VaultId) (w w' : World) : Prop := ∀ u, u ≠ v → w'.vault? u = w.vault? u

/-- An action that touches no vault, but may cache a scan of `v`. -/
def CalmBut (v : VaultId) (a : Action) : Prop :=
  a.isCalm = true ∨ ∃ cache, a = .exec (.updateVault v (.cacheEstimate cache))

theorem CalmBut.of_estimates {v : VaultId} (a : Action) (estimates : a.estimates v = true) :
    CalmBut v a := by
  unfold Action.estimates at estimates
  split at estimates
  · exact .inl estimates
  · exact .inl rfl
  · exact .inl rfl
  · exact .inl rfl
  · next u cache =>
    simp only [decide_eq_true_eq] at estimates
    exact .inr ⟨cache, by rw [estimates]⟩
  · cases estimates

theorem CalmBut.kept {a : Action} {o : Oracle} {w₀ w w' : World} {rsp : a.Response} {r : VaultRow}
    (calm : CalmBut r.id a) (performed : a.perform o w = (rsp, w'))
    (now : Rescanned r w ∧ OthersKept r.id w₀ w) : Rescanned r w' ∧ OthersKept r.id w₀ w' := by
  obtain ⟨⟨chain, row⟩, others⟩ := now
  rcases calm with calm | ⟨cache, rfl⟩
  · have frame := Action.frame_of_calm calm performed
    exact ⟨⟨chain, by rw [frame.vault?, row]⟩, fun u other => by rw [frame.vault?, others u other]⟩
  · simp only [Action.perform, Stmt.run] at performed
    split at performed
    · cases performed
      exact ⟨⟨chain, row⟩, others⟩
    · cases performed
      refine ⟨⟨cache, ?_⟩, fun u other => ?_⟩
      · exact World.vault?_update_self (r := { r with chain := chain }) row rfl
      · exact (World.vault?_update_ne other).trans (others u other)

/-! ## §3 The trigger -/

/-- The chain gate is ready for the row, whatever the services answer. -/
def GateReady (can : Answers) (S : Server) (r : VaultRow) : Prop :=
  ∀ w h t, Yields can (fun _ _ gate => gate = .ok .ready) (heirContactReady S r t) w h

/-- The claim of `r` has been opened: the row is as the trigger leaves it, with the
hash of the trigger's token unless the batch had read another, and a lookup by the
stored hash finds it. -/
def Opened (S : Server) (nowIso : Instant) (r : VaultRow) (w : World) : Prop :=
  ∃ token hash reused chain, TriggerToken S r token hash reused ∧
    (SelectedAgrees S r token → hash = S.hashClaimToken token) ∧
    w.vault? r.id = some ((triggerUpdate hash reused nowIso).set { r with chain := chain }) ∧
    ∃ found, (Query.vaultByClaimToken hash).eval w.db = .ok (some found) ∧
      found.life.claimTokenHash = some hash

section Trigger

variable {S : Server} {can : Answers} {w : World} {h : Hist} {r : VaultRow} {nowIso : Instant}

/-- A hash that a row carries is found. -/
theorem found_of_hash {v : VaultId} {hash : Hash} (row : w.vault? v = some r)
    (stored : r.life.claimTokenHash = some hash) :
    ∃ found, (Query.vaultByClaimToken hash).eval w.db = .ok (some found) ∧
      found.life.claimTokenHash = some hash := by
  have listed : r ∈ w.db.vaults.rows := KeyedTable.find?_mem row
  cases found : w.db.vaults.rows.find? fun r => r.life.claimTokenHash = some hash with
  | none =>
    have missed := List.find?_eq_none.1 found r listed
    simp [stored] at missed
  | some r' => exact ⟨r', by rw [Query.eval, found], by simpa using List.find?_some found⟩

theorem Opened.kept {w' : World} (opened : Opened S nowIso r w)
    (same : w'.vault? r.id = w.vault? r.id) : Opened S nowIso r w' := by
  obtain ⟨token, hash, reused, chain, trigger, agrees, row, -⟩ := opened
  rw [← same] at row
  exact ⟨token, hash, reused, chain, trigger, agrees, row,
    found_of_hash row (by simp [VaultUpdate.openClaimLife])⟩

/-- Whatever the trigger token is, its hash is the token's unless the batch read
another one. -/
theorem TriggerToken.agrees {token : Token} {hash : Hash} {reused : Bool}
    (trigger : TriggerToken S r token hash reused) (agrees : SelectedAgrees S r token) :
    hash = S.hashClaimToken token := by
  cases reused with
  | true => exact (hash_eq_iff trigger).2 agrees
  | false => exact trigger.2

theorem triggerToken_bind {β : Type} {P : World → Hist → Except ApiError β → Prop}
    {f : Token × Hash × Bool → Prog β} (reliable : Reliable can)
    (opens : ∀ stored, r.keys.claimTokenAtRest = some stored →
      ∃ token, S.openClaimTokenAtRest r.id stored = .ok token)
    (next : ∀ w' h' token hash reused, w.Frame w' → TriggerToken S r token hash reused →
      Yields can P (f (token, hash, reused)) w' h') :
    Yields can P ((triggerToken S r).bind f) w h := by
  unfold triggerToken
  split
  · next stored atRest =>
    obtain ⟨token, opened⟩ := opens stored atRest
    simp only [opened, crypto, bind_eq, done_bind, pure_eq]
    exact next w h token _ true (.refl w) ⟨stored, atRest, opened, rfl⟩
  · next missing =>
    refine Yields.calm_bind (p := ask .bearerToken) reliable (.perform rfl)
      fun w' h' token frame => ?_
    exact next w' h' token _ false frame ⟨missing, rfl⟩

/-- Opening the claim of a row that is due moves it, and no other. -/
theorem openClaim_yields (reliable : Reliable can) {w₀ : World} (row : Rescanned r w)
    (others : OthersKept r.id w₀ w) (due : Db.claimEligible nowIso r = true)
    (opens : ∀ stored, r.keys.claimTokenAtRest = some stored →
      ∃ token, S.openClaimTokenAtRest r.id stored = .ok token) :
    Yields can (fun w' _ res => res = .ok () ∧ OthersKept r.id w₀ w' ∧ Opened S nowIso r w')
      (openClaim S nowIso r) w h := by
  obtain ⟨chain, row⟩ := row
  simp only [Db.claimEligible, Bool.decide_and, Bool.and_eq_true, decide_eq_true_eq] at due
  -- the token, the UPDATE, its event, then the two messages
  refine triggerToken_bind reliable opens fun w₁ h₁ token hash reused frame trigger => ?_
  have guard : (triggerUpdate hash reused nowIso).guard { r with chain := chain } = true := by
    refine triggerUpdate_guard due.1 ?_
    rintro rfl
    exact due.2.2.resolve_right (not_not.2 trigger.1)
  refine reliable.update_bind ?_
  have moved := World.vault?_update_self (w := w₁) ((frame.vault? r.id).trans row) guard
  refine reliable.recordEvent_bind moved fun w₂ h₂ frame₂ => ?_
  refine Yields.calm_bind reliable (sure_logged ((only_enqueueClaimLink token).mono fun _ => Action.calm_of_mails)) fun w₃ h₃ _ frame₃ => ?_
  refine (Yields.of_sure (I := w₃.Frame) (sure_logged ((only_enqueueGuardianClaimLinks r.id).mono fun _ => Action.calm_of_mails)) ?_
    (.refl w₃)).mono ?_
  · intro a w₄ rsp w₅ calm step frame
    obtain ⟨o, -, performed⟩ := reliable a w₄ rsp w₅ step
    exact frame.trans (Action.frame_of_calm calm performed)
  · rintro w₄ h₄ res ⟨frame₄, ⟨⟩, rfl⟩
    have tail := (frame₂.trans frame₃).trans frame₄
    have here := (tail.vault? r.id).trans moved
    refine ⟨rfl, fun u other => ?_, ⟨token, hash, reused, chain, trigger, trigger.agrees, here,
      found_of_hash here (by simp [VaultUpdate.openClaimLife])⟩⟩
    rw [tail.vault?, World.vault?_update_ne other, frame.vault?]
    exact others u other

theorem returnEmptyVaultToUnfunded_yields (reliable : Reliable can) {w₀ : World} {v : VaultId}
    (row : w.vault? v = some r) (others : OthersKept v w₀ w) {fromStatus : Status} {record : Bool} :
    Yields can (fun w' _ res => (∃ b, res = .ok b) ∧ OthersKept v w₀ w')
      (returnEmptyVaultToUnfunded v fromStatus record) w h := by
  refine reliable.update_bind ?_
  have kept : OthersKept v w₀ (w.update v (.returnEmpty fromStatus)) := fun u other =>
    (World.vault?_update_ne other).trans (others u other)
  split
  · exact ⟨⟨false, rfl⟩, kept⟩
  · split
    · refine reliable.recordEvent_bind (World.vault?_update_here row) fun w₁ h₁ frame => ?_
      exact ⟨⟨true, rfl⟩, fun u other => (frame.vault? u).trans (kept u other)⟩
    · exact ⟨⟨true, rfl⟩, kept⟩

/-- One round of the trigger: no other row changes, and behind a ready gate the
claim is opened. -/
theorem triggerVault_yields (reliable : Reliable can) (row : w.vault? r.id = some r)
    (due : Db.claimEligible nowIso r = true)
    (opens : ∀ stored, r.keys.claimTokenAtRest = some stored →
      ∃ token, S.openClaimTokenAtRest r.id stored = .ok token) :
    Yields can (fun w' _ res => res = .ok () ∧ OthersKept r.id w w' ∧
      (GateReady can S r → Opened S nowIso r w')) (triggerVault S nowIso r) w h := by
  refine reliable.now_bind ?_
  -- the look at the chain leaves every other row alone
  have kept : Yields can (fun w' _ gate => (Rescanned r w' ∧ OthersKept r.id w w') ∧
      ∃ g, gate = .ok g) (heirContactReady S r w.clock) w (h ++ [⟨.now, w.clock⟩]) := by
    refine Yields.of_sure ((sure_heirContactReady S r w.clock).mono CalmBut.of_estimates)
      (fun a w₁ rsp w₂ calm step now => ?_)
      ⟨⟨r.chain, row⟩, fun u _ => rfl⟩
    obtain ⟨o, -, performed⟩ := reliable a w₁ rsp w₂ step
    exact calm.kept performed now
  -- a gate that is sure to be ready opens the claim, any other may
  by_cases ready : GateReady can S r
  · refine Yields.bind (kept.and (ready w _ w.clock)) ?_ ?_
    · rintro w₁ h₁ gate ⟨⟨⟨row₁, others⟩, -⟩, ⟨⟩⟩
      exact (openClaim_yields reliable row₁ others due opens).mono
        fun w' h' res ⟨ok, others, opened⟩ => ⟨ok, others, fun _ => opened⟩
    · rintro w₁ h₁ e ⟨-, ⟨⟩⟩
  · refine Yields.bind kept ?_ ?_
    · rintro w₁ h₁ gate ⟨⟨row₁, others⟩, -⟩
      cases gate with
      | waiting => exact ⟨rfl, others, fun gate => absurd gate ready⟩
      | ready =>
        exact (openClaim_yields reliable row₁ others due opens).mono
          fun w' h' res ⟨ok, others, opened⟩ => ⟨ok, others, fun _ => opened⟩
      | empty =>
        obtain ⟨chain, row₁⟩ := row₁
        refine Yields.bind (returnEmptyVaultToUnfunded_yields reliable row₁ others)
          (fun w₂ h₂ _ ended => ⟨rfl, ended.2, fun gate => absurd gate ready⟩) ?_
        rintro w₂ h₂ e ⟨⟨b, ⟨⟩⟩, -⟩
    · rintro w₁ h₁ e ⟨-, a, ⟨⟩⟩

/-- The trigger opens the claim of a row that is due behind a ready gate, whatever
else is due, and leaves the rows that are not due alone. -/
theorem transitionAlarmedToClaimable_yields (reliable : Reliable can)
    (row : w.vault? r.id = some r) (due : Db.claimEligible nowIso r = true)
    (ready : GateReady can S r)
    (opens : ∀ x stored, w.vault? x.id = some x → x.keys.claimTokenAtRest = some stored →
      ∃ token, S.openClaimTokenAtRest x.id stored = .ok token) :
    Yields can (fun w' _ res => res = .ok () ∧ Opened S nowIso r w' ∧
      ∀ u x, w.vault? u = some x → Db.claimEligible nowIso x = false → w'.vault? u = some x)
      (transitionAlarmedToClaimable S nowIso) w h := by
  refine reliable.query_bind (q := .claimEligible nowIso)
    (r := w.db.vaults.select (Db.claimEligible nowIso)) rfl ?_
  have nodup : ((w.db.vaults.select (Db.claimEligible nowIso)).map VaultRow.id).Nodup :=
    List.Nodup.sublist (List.filter_sublist.map _) w.db.vaults.nodup
  -- the rows still to come are as the batch read them
  refine Yields.forEach
    (L := fun rest w' _ => rest ⊆ w.db.vaults.select (Db.claimEligible nowIso) ∧
      (rest.map VaultRow.id).Nodup ∧ (∀ x ∈ rest, w'.vault? x.id = some x) ∧
      (r ∉ rest → Opened S nowIso r w') ∧
      ∀ u x, w.vault? u = some x → Db.claimEligible nowIso x = false → w'.vault? u = some x)
    ?_ ?_ _ w _ ⟨fun _ mem => mem, nodup, fun x mem => (KeyedTable.mem_select.1 mem).1,
      fun missing => absurd (KeyedTable.mem_select.2 ⟨row, due⟩) missing, fun _ _ here _ => here⟩
  · rintro x rest w₁ h₁ ⟨batch, nodup, here, opened, kept⟩
    have listed := KeyedTable.mem_select.1 (batch List.mem_cons_self)
    rw [List.map_cons, List.nodup_cons] at nodup
    have others : ∀ y ∈ rest, y.id ≠ x.id := fun y mem same =>
      nodup.1 (same ▸ List.mem_map_of_mem mem)
    refine (triggerVault_yields reliable (here x List.mem_cons_self) listed.2
      fun stored => opens x stored listed.1).mono ?_
    rintro w₂ h₂ res ⟨rfl, same, opens_x⟩
    refine ⟨fun y mem => batch (List.mem_cons_of_mem x mem), nodup.2, fun y mem => ?_,
      fun missing => ?_, fun u y was quiet => ?_⟩
    · rw [same y.id (others y mem)]
      exact here y (List.mem_cons_of_mem x mem)
    · by_cases this : r = x
      · subst this
        exact opens_x ready
      · refine (opened fun mem => ?_).kept (same r.id fun id => this ?_)
        · rcases List.mem_cons.1 mem with rfl | mem
          · exact this rfl
          · exact missing mem
        · have found : w.vault? x.id = some x := listed.1
          rw [← id, row] at found
          exact Option.some.inj found
    · refine (same u ?_).trans (kept u y was quiet)
      rintro rfl
      have found : w.vault? x.id = some x := listed.1
      rw [was] at found
      cases found
      rw [listed.2] at quiet
      cases quiet
  · rintro w' h' ⟨-, -, -, opened, kept⟩
    exact ⟨rfl, opened List.not_mem_nil, kept⟩

end Trigger

/-- In every reachable state: an ok row has its time, an alarmed row has its time
and no token but one at rest or one issued by hand, and the trigger opens the claim
of a row that is due and of no row that is not. -/
theorem armed_and_triggered {S : Server} {t₀ : Instant} {tr : Trace} {s : SrvStep} {k : Nat}
    {v : VaultId} {r : VaultRow} (lawful : S.Lawful) (runs : Runs S t₀ tr)
    (at_k : tr[k]? = some s) (row : s.before.vault? v = some r) :
    (r.life.status = .ok → r.life.claimEligibleAt ≠ none) ∧
    (UpToDate tr → r.life.status = .alarmed → r.life.claimEligibleAt ≠ none ∧
      (r.life.claimTokenHash = none ∨ r.keys.claimTokenAtRest ≠ none ∨
        ∃ hash, r.life.claimTokenHash = some hash ∧ IssuedByHand tr k v hash)) ∧
    ∀ can nowIso h, Reliable can → GateReady can S r → Db.claimEligible nowIso r = true →
      Yields can (fun w' _ res => res = .ok () ∧ Opened S nowIso r w' ∧
        ∀ u x, s.before.vault? u = some x → Db.claimEligible nowIso x = false →
          w'.vault? u = some x)
        (transitionAlarmedToClaimable S nowIso) s.before h := by
  refine ⟨runs.ok_eligible at_k row, fun upToDate alarmed => ?_, fun can nowIso h reliable ready due => ?_⟩
  · have armed := runs.armed upToDate at_k row
    refine ⟨armed.eligible (by rw [alarmed]; rfl), ?_⟩
    rcases armed.token with live | atRest | rest
    · rw [alarmed] at live
      cases live
    · exact .inr (.inl atRest)
    · exact rest.imp_right .inr
  · have id : r.id = v := Db.vault?_id row
    subst id
    refine transitionAlarmedToClaimable_yields reliable row due ready fun x stored here atRest => ?_
    obtain ⟨token, -, opened⟩ := runs.keys_sealed lawful at_k here atRest
    exact ⟨token, opened⟩

/-! ## §4 A switch that is set by hand -/

section ByHand

open Deployment

/-- The claim as it would be without tokens issued by hand. -/
def NeverDisarmed (tr : Trace) : Prop :=
  ∀ (k : Nat) s v r, tr[k]? = some s → s.before.vault? v = some r → r.life.status = .alarmed →
    r.life.claimEligibleAt ≠ none ∧
      (r.life.claimTokenHash = none ∨ r.keys.claimTokenAtRest ≠ none)

/-- A vault from descriptors whose owner issues a token while it is alarmed. -/
def issuedWhileAlarmed : List (Move Oracle Drift Request) :=
  funded ++ wait 3660 ++ [.start .schedulerTick] ++ steps 3 26 (oracle "" [coin]) ++
    [.start (.issueClaim "v")] ++ steps 4 7 (oracle "issued" []) ++ wait 1

/-- Whether an UPDATE of this step that sets a status blindly finds an ok row; no
panic-stop is paid. -/
def upToDate (s : SrvStep) : Bool :=
  match s.label with
  | .acted _ ⟨.exec (.updateVault v u), _⟩ =>
      !u.overwritesStatus || (s.before.vault? v).all fun r => r.life.status = .ok
  | .acted _ ⟨.payPanic _ _, _⟩ => false
  | _ => true

theorem upToDate_of_all {S : Server} {t₀ : Instant} {tr : Trace} (runs : Runs S t₀ tr)
    (all : tr.all upToDate = true) : UpToDate tr := by
  have here : ∀ (k : Nat) s, tr[k]? = some s → upToDate s = true := fun k s at_k =>
    List.all_eq_true.1 all s (List.mem_of_getElem? at_k)
  refine ⟨fun k s v u r at_k blind commits row => ?_, fun k s v t r at_k commits row => ?_⟩
  · have fine := here k s at_k
    cases commits.1 with
    | exec did =>
      unfold upToDate at fine
      rw [show s.label = _ from did] at fine
      simpa [blind, row] using fine
    | paid => cases blind
    | panic => cases blind
  · have fine := here k s at_k
    unfold upToDate at fine
    cases commits.1 with
    | exec did =>
      obtain ⟨q, -, never⟩ := runs.justified at_k did
      exact never.elim
    | panic did =>
      rw [show s.label = _ from did] at fine
      cases fine

/-- An alarmed vault with a token issued by hand, which every tick will skip. -/
theorem not_neverDisarmed :
    ¬ ∀ (S : Server) (t₀ : Instant) (tr : Trace), S.Lawful → Runs S t₀ tr → UpToDate tr →
      NeverDisarmed tr := by
  intro never
  obtain ⟨tr, runs, check⟩ := runs_of_play (host 86400) issuedWhileAlarmed
    (fun tr => tr.all upToDate && tr.any fun s => (s.before.vault? "v").any fun r =>
      r.life.status = .alarmed && r.life.claimTokenHash.isSome && r.keys.claimTokenAtRest.isNone)
    (by decide +kernel)
  simp only [Bool.and_eq_true, List.any_eq_true, Option.any_eq_true, decide_eq_true_eq] at check
  obtain ⟨prompt, s, mem, r, row, ⟨alarmed, hash⟩, missing⟩ := check
  obtain ⟨k, at_k⟩ := List.mem_iff_getElem?.1 mem
  rcases (never _ _ _ (lawful _) runs (upToDate_of_all runs prompt) k s "v" r at_k row alarmed).2 with
    none | kept
  · rw [none] at hash
    cases hash
  · exact kept (Option.isNone_iff_eq_none.1 missing)

/-- A Door A vault past its eligibility, and what the theorem says of it. -/
theorem armed_and_triggered_doorA :
    ∃ (tr : Trace) (s : SrvStep) (r : VaultRow), Runs (host 86400) 0 tr ∧ s ∈ tr ∧
      s.before.vault? "v" = some r ∧ r.life.status = .alarmed ∧ r.life.claimEligibleAt ≠ none ∧
      Yields answering (fun w' _ res => res = .ok () ∧ Opened (host 86400) 3720000000000 r w' ∧
        ∀ u x, s.before.vault? u = some x → Db.claimEligible 3720000000000 x = false →
          w'.vault? u = some x)
        (transitionAlarmedToClaimable (host 86400) 3720000000000) s.before [] := by
  obtain ⟨tr, runs, check⟩ := runs_of_play (host 86400) (alarmedDoorA ++ wait 60)
    (fun tr => tr.all upToDate && tr.any fun s => (s.before.vault? "v").any fun r =>
      r.life.status = .alarmed && Db.claimEligible 3720000000000 r) (by decide +kernel)
  simp only [Bool.and_eq_true, List.any_eq_true, Option.any_eq_true, decide_eq_true_eq] at check
  obtain ⟨prompt, s, mem, r, row, alarmed, due⟩ := check
  obtain ⟨k, at_k⟩ := List.mem_iff_getElem?.1 mem
  obtain ⟨-, armed, opens⟩ := armed_and_triggered (lawful _) runs at_k row
  exact ⟨tr, s, r, runs, mem, row, alarmed, (armed (upToDate_of_all runs prompt) alarmed).1,
    opens answering _ [] reliable_answering (fun _ _ _ => rfl) due⟩

end ByHand

end GhostKey

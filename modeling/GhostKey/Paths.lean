import GhostKey.Objection

/-!
# Three Ways to Check In

The button, the one-tap link and a paid invoice each write the row of the vault with an
UPDATE of their own. The first two agree in every lifecycle column; the third is meant to
match them, and leaves two columns as they were.

Main results:
- `CheckinPath.Accepts.row`: the row each path leaves.
- `checkinsAgree_iff`: when two accepted check-ins leave the same lifecycle columns.
-/

namespace GhostKey

open Foundation Program Prog

/-! ## §1 Paths -/

/-- The ways a check-in reaches the row of a vault. -/
inductive CheckinPath where
  | button
  | link (token : Token)
  | lightning (paymentHash : String)

def CheckinPath.isLightning : CheckinPath → Bool
  | lightning _ => true
  | _ => false

/-- The payment has reset the clock of `v`, as the vault it is for or as a sibling. -/
def PaidOutcome.Resets (v : VaultId) : PaidOutcome → Prop
  | .paid id reset siblings => id = v ∧ reset = true ∨ v ∈ siblings
  | _ => False

/-- The check-in of `v` is accepted by this path, and leaves the world `w'`. -/
def CheckinPath.Accepts (S : Server) (o : Oracle) (w : World) (v : VaultId) (w' : World) :
    CheckinPath → Prop
  | button => ∃ a, atOnce (checkin S v) o w = (.ok a, w')
  | link token => ∃ a, atOnce (checkinFromLink S v token) o w = (.ok a, w')
  | lightning paymentHash => ∃ outcome,
      (Action.payCheckin paymentHash w.clock).perform o w = (.ok outcome, w') ∧ outcome.Resets v

/-- The UPDATE by which the path writes the row `r` at `t`. -/
def CheckinPath.update (S : Server) (r : VaultRow) (t : Instant) : CheckinPath → VaultUpdate
  | button => .checkin t (t + r.settings.cycle) (t + r.settings.cycle + r.settings.grace)
  | link token => .checkinFromLink (S.hashClaimToken token) t (t + r.settings.cycle)
      (t + r.settings.cycle + r.settings.grace)
  | lightning _ => clockReset r t

/-! ## §2 The row each path leaves -/

section Rows

variable {S : Server} {o : Oracle} {w w' : World} {v : VaultId} {r : VaultRow}

/-- A request that is accepted has had its first query answered. -/
theorem answers_of_accepted {α : Type} {q : Query} {f : q.Result → Prog α} {a : α}
    (accepted : atOnce ((query q).bind f) o w = (.ok a, w')) : o.dbFails = false := by
  by_contra fails
  obtain ⟨e, refused⟩ := refuses_query_bind (w := w) (by simpa using fails) f
  rw [accepted] at refused
  cases refused

/-- A payment that resets a vault finds it outside its period and not claimed. -/
theorem reset?_of_resets {paymentHash : String} {t : Instant} {outcome : PaidOutcome} {db : Db}
    (came : (db.markPaidAndCheckinTx paymentHash t).2 = outcome) (resets : outcome.Resets v)
    (row : db.vault? v = some r) :
    ∃ i paid, db.invoicePending paymentHash = true ∧ db.invoice? paymentHash = some i ∧
      db.vault? i.vaultId = some paid ∧ Db.reset? paid t r = true ∧ r.life.status ≠ .claimed := by
  cases outcome with
  | alreadyProcessed => exact resets.elim
  | noVaultRow => exact resets.elim
  | paid id reset siblings =>
    rcases resets with ⟨rfl, rfl⟩ | listed
    · obtain ⟨i, r', pending, issued, same, row', outside, live⟩ :=
        markPaidAndCheckinTx_resets_iff.1 ⟨siblings, came⟩
      rw [row] at row'
      cases row'
      refine ⟨i, r, pending, issued, by rw [same, row], ?_, live⟩
      simp [Db.reset?, outside]
    · obtain ⟨i, paid, pending, issued, here, sibling, outside⟩ :=
        Db.reset?_of_mem_siblings came listed row
      refine ⟨i, paid, pending, issued, here, by simp [Db.reset?, sibling, outside], ?_⟩
      intro claimed
      unfold Db.isSibling at sibling
      split at sibling
      · cases sibling
      · simp [claimed] at sibling

theorem CheckinPath.Accepts.row {path : CheckinPath} (accepts : path.Accepts S o w v w')
    (row : w.vault? v = some r) : w'.vault? v = some ((path.update S r w.clock).set r) := by
  -- each path by the UPDATE it is accepted with
  cases path with
  | button =>
    obtain ⟨a, accepted⟩ := accepts
    have answers : o.dbFails = false := answers_of_accepted accepted
    obtain ⟨live, outside, open_⟩ := open_of_checkin answers row accepted
    rw [atOnce_checkin answers row live outside open_] at accepted
    cases accepted
    exact World.vault?_update_self row rfl
  | link token =>
    obtain ⟨a, accepted⟩ := accepts
    have answers : o.dbFails = false := answers_of_accepted accepted
    obtain ⟨live, outside, open_⟩ := open_of_checkinFromLink answers row accepted
    rw [atOnce_checkinFromLink answers row live outside open_] at accepted
    cases accepted
    refine World.vault?_update_self row ?_
    simp [VaultUpdate.guard, open_.1, open_.2.1]
  | lightning paymentHash =>
    obtain ⟨outcome, performed, resets⟩ := accepts
    simp only [Action.perform] at performed
    split at performed
    · cases performed
    · cases performed
      obtain ⟨i, paid, pending, issued, here, reached, live⟩ := reset?_of_resets rfl resets row
      have after := Db.vault?_markPaidAndCheckinTx w.clock pending issued here v
      rw [show w.db.vault? v = some r from row, Option.map_some, if_pos reached,
        VaultUpdate.onRow, if_pos (by exact decide_eq_true live)] at after
      exact after

/-! ## §3 When two paths agree -/

/-- The lifecycle columns two paths leave are the same exactly when both are Lightning
payments, or neither is, or the row has no mark of an opened claim. -/
theorem life_update_eq_iff (path path' : CheckinPath) (t : Instant) :
    ((path.update S r t).set r).life = ((path'.update S r t).set r).life ↔
      path.isLightning = path'.isLightning ∨
        r.life.claimOpenedAt = none ∧ r.life.claimReadyNotifiedAt = none := by
  cases path <;> cases path' <;>
    simp [CheckinPath.update, CheckinPath.isLightning, clockReset, VaultUpdate.setLife,
      VaultUpdate.checkinLife, VaultUpdate.scrubCheckinLink, VaultUpdate.checkinFromLinkLife,
      VaultUpdate.resetVaultClockLife, eq_comm]

/-- Two check-ins of the same row at the same time leave the same lifecycle columns in
exactly these cases. -/
theorem checkinsAgree_iff {path path' : CheckinPath} {o' : Oracle} {u u' : World}
    (row : w.vault? v = some r) (row' : u.vault? v = some r) (clock : w.clock = u.clock)
    (accepts : path.Accepts S o w v w') (accepts' : path'.Accepts S o' u v u') :
    (w'.vault? v).map VaultRow.life = (u'.vault? v).map VaultRow.life ↔
      path.isLightning = path'.isLightning ∨
        r.life.claimOpenedAt = none ∧ r.life.claimReadyNotifiedAt = none := by
  rw [accepts.row row, accepts'.row row', ← clock, Option.map_some, Option.map_some,
    Option.some.injEq]
  exact life_update_eq_iff path path' w.clock

end Rows

/-! ## §4 Two paths that differ -/

section Differ

open Deployment

/-- A funded vault whose owner has issued a claim token; its link has been opened, and an
invoice is out. -/
def openedAndInvoiced : List (Move Oracle Drift Request) :=
  [.start (.createVault (createPlain "d"))] ++ steps 0 8 (oracle "v" []) ++
    [.start .schedulerTick] ++ steps 1 24 (oracle "" [coin]) ++
    [.start (.issueClaim "v")] ++ steps 2 7 (oracle "token" []) ++
    [.start (.resolveClaim "token")] ++ steps 3 8 (oracle "" []) ++
    [.start (.lnurlpCallback "v" (some 1000) false)] ++ steps 4 9 (oracle "" [])

/-- What the button and a payment of the invoice ask of the world. -/
def bothOpen (w : World) : Bool :=
  ((w.vault? "v").any fun r => r.life.status = .ok && !r.checkedIn w.clock &&
    inLastResortWindow r.life.claimEligibleAt w.clock) &&
    (w.db.markPaidAndCheckinTx "ghostkey:checkin:v" w.clock).2 = .paid "v" true []

/-- Both paths accept in such a world. -/
theorem accepts_of_bothOpen {w : World} (both : bothOpen w = true) :
    (∃ w', CheckinPath.button.Accepts (host 86400) (oracle "" []) w "v" w') ∧
      ∃ w', (CheckinPath.lightning "ghostkey:checkin:v").Accepts (host 86400) (oracle "" []) w "v" w' := by
  unfold bothOpen at both
  simp only [Bool.and_eq_true, Option.any_eq_true, decide_eq_true_eq, Bool.not_eq_true'] at both
  obtain ⟨⟨r, row, ⟨status, outside⟩, last⟩, paid⟩ := both
  constructor
  · have open_ : ButtonOpen (host 86400) r w.clock := by
      refine ⟨?_, fun _ => last⟩
      rw [status]
      decide
    have live : r.life.status ≠ .claimed := by
      rw [status]
      decide
    exact ⟨_, _, atOnce_checkin rfl row live outside open_⟩
  · refine ⟨_, _, rfl, ?_⟩
    show PaidOutcome.Resets "v" (w.db.markPaidAndCheckinTx "ghostkey:checkin:v" w.clock).2
    rw [paid]
    exact .inl ⟨rfl, rfl⟩

/-- A payment leaves the marks of the opened claim, which the button clears. -/
theorem not_checkinsAgree :
    ¬ ∀ (S : Server) (t₀ : Instant) (tr : Trace) c o o' v r path path' w' u', S.Lawful →
      Run (GhostKey.server S) (System.boot (World.start t₀)) tr c → c.world.vault? v = some r →
      CheckinPath.Accepts S o c.world v w' path → CheckinPath.Accepts S o' c.world v u' path' →
      (w'.vault? v).map VaultRow.life = (u'.vault? v).map VaultRow.life := by
  intro agree
  obtain ⟨tr, c, run, check⟩ := reaches_of_play (host 86400) openedAndInvoiced
    (fun w => bothOpen w && (w.vault? "v").any fun r => r.life.claimOpenedAt = some 0)
    (by decide +kernel)
  simp only [Bool.and_eq_true, Option.any_eq_true, decide_eq_true_eq] at check
  obtain ⟨both, r, row, stamped⟩ := check
  obtain ⟨⟨w', button⟩, u', lightning⟩ := accepts_of_bothOpen both
  have same := agree _ 0 tr c _ _ "v" r _ _ w' u' (lawful _) run row button lightning
  rw [button.row row, lightning.row row, Option.map_some, Option.map_some, Option.some.injEq,
    life_update_eq_iff, stamped] at same
  rcases same with kinds | ⟨unmarked, -⟩
  · cases kinds
  · cases unmarked

/-- What the theorem says of the two in that world. -/
theorem checkinsAgree_iff_opened :
    ∃ (c : Config Action Action.Response ApiError Reply World Request) (r : VaultRow) (w' u' : World),
      c.world.vault? "v" = some r ∧
        ((w'.vault? "v").map VaultRow.life = (u'.vault? "v").map VaultRow.life ↔
          r.life.claimOpenedAt = none ∧ r.life.claimReadyNotifiedAt = none) := by
  obtain ⟨tr, c, run, check⟩ := reaches_of_play (host 86400) openedAndInvoiced bothOpen
    (by decide +kernel)
  obtain ⟨⟨w', button⟩, u', lightning⟩ := accepts_of_bothOpen check
  cases row : c.world.vault? "v" with
  | none => simp [bothOpen, row] at check
  | some r =>
    refine ⟨c, r, w', u', row, ?_⟩
    rw [checkinsAgree_iff row row rfl button lightning]
    simp [CheckinPath.isLightning]

end Differ

end GhostKey

import GhostKey.Alone
import GhostKey.Deployment

/-!
# Stopping a Claim inside its Window

When a claim opens the owner is mailed that one check-in stops it. A check-in can be
made by button, by the mailed link, or by paying an invoice, minted on the dashboard,
behind the link or by a wallet. Each route has its own guards, and the guard against a
second check-in in one period stands on all of them.

Main results:
- `atOnce_checkin`, `atOnce_checkinFromLink`: when the free routes accept.
- `markPaidAndCheckinTx_resets_iff`: when a payment resets the vault it names.
- `stopsClaim_iff`: when some route takes the vault out of its claim.
- `ownerCanStop_iff`: the same for every moment of every open window of a run.
-/

namespace GhostKey

open Foundation Program Prog

/-! ## §1 Routes -/

/-- The ways to check in: the two free ones, and three to get an invoice to pay. -/
inductive CheckinRoute where
  | button
  | link (token : Token)
  | invoice
  | invoiceFromLink (token : Token)
  | lnurl

/-- What is asked of the server, and the invoice the owner is then to pay. -/
def CheckinRoute.request (S : Server) (v : VaultId) : CheckinRoute → Prog (Option String)
  | button => do
    let _ ← checkin S v
    pure none
  | link token => do
    let _ ← checkinFromLink S v token
    pure none
  | invoice => do
    let i ← createCheckinInvoice S v
    pure (some i.bolt11)
  | invoiceFromLink token => do
    let i ← createInvoiceFromLink S v token
    pure (some i.bolt11)
  | lnurl => do
    let reply ← lnurlpCallback S v (some 1000) false
    match reply with
    | .payResponse bolt11 => pure (some bolt11)
    | .error reason => .fail (.conflict reason)

/-- The vault is being checked in for and no claim token of it is out. -/
def OutOfClaim (w : World) (v : VaultId) : Prop :=
  ∃ r, w.vault? v = some r ∧ r.life.status = .ok ∧ r.life.claimTokenHash = none

/-- A payment of the invoice resets the clock of `v` and takes it out of its claim. -/
def PaysOut (o : Oracle) (w : World) (v : VaultId) (bolt11 : String) : Prop :=
  ∃ i siblings w', i ∈ w.db.invoices.rows ∧ i.bolt11 = bolt11 ∧
    (Action.payCheckin i.paymentHash w.clock).perform o w = (.ok (.paid v true siblings), w') ∧
      OutOfClaim w' v

/-- The route is accepted, and paid for where it has to be, and the claim is over. -/
def CheckinRoute.TakesOut (S : Server) (o : Oracle) (w : World) (v : VaultId)
    (route : CheckinRoute) : Prop :=
  ∃ due w', atOnce (route.request S v) o w = (.ok due, w') ∧
    match due with
    | none => OutOfClaim w' v
    | some bolt11 => PaysOut o w' v bolt11

/-- Some route stops the claim. -/
def StopsClaim (S : Server) (o : Oracle) (w : World) (v : VaultId) : Prop :=
  ∃ route : CheckinRoute, route.TakesOut S o w v

/-! ## §2 The free routes -/

section Free

variable {S : Server} {o : Oracle} {w : World} {v : VaultId} {r : VaultRow} {token : Token}

/-- What a check-in by button asks of the row. -/
def ButtonOpen (S : Server) (r : VaultRow) (t : Instant) : Prop :=
  r.life.status ≠ .unfunded ∧
    (S.lightningEnabled = true → inLastResortWindow r.life.claimEligibleAt t = true)

/-- What a check-in by link asks of the row. -/
def LinkOpen (S : Server) (token : Token) (r : VaultRow) (t : Instant) : Prop :=
  r.life.checkinLinkTokenHash = some (S.hashClaimToken token) ∧
    r.life.checkinLinkTokenUsedAt = none ∧ inLastResortWindow r.life.claimEligibleAt t = true

/-- A route without an invoice takes the vault out when it is accepted and leaves it so. -/
theorem free_takesOut_iff {p : Prog CheckinResponse} {route : CheckinRoute}
    (asks : route.request S v = p.bind fun _ => .done none) :
    route.TakesOut S o w v ↔ ∃ a w', atOnce p o w = (.ok a, w') ∧ OutOfClaim w' v := by
  unfold CheckinRoute.TakesOut
  rw [asks]
  constructor
  · rintro ⟨due, w', came, out⟩
    obtain ⟨a, w₁, accepted, rest⟩ := atOnce_bind_eq_ok.1 came
    cases rest
    exact ⟨a, w', accepted, out⟩
  · rintro ⟨a, w', accepted, out⟩
    exact ⟨none, w', atOnce_bind_eq_ok.2 ⟨a, w', accepted, rfl⟩, out⟩

/-- The period guard lets a request through exactly outside the period, unchanged. -/
theorem oncePerPeriod_eq_ok {t : Instant} {w' : World} :
    atOnce (oncePerPeriod S r t) o w = (.ok (), w') ↔ r.checkedIn t = false ∧ w' = w := by
  unfold oncePerPeriod VaultRow.checkedIn insideCurrentPeriod
  cases r.life.lastCheckinAt with
  | none => simp [eq_comm]
  | some last =>
    dsimp only
    by_cases early : t < last + seconds r.settings.checkinPeriodSecs <;> simp [early, eq_comm]

/-- What a check-in by button that is accepted has found. -/
theorem open_of_checkin (answers : o.dbFails = false) (row : w.vault? v = some r)
    {a : CheckinResponse} {w' : World} (accepted : atOnce (checkin S v) o w = (.ok a, w')) :
    r.life.status ≠ .claimed ∧ r.checkedIn w.clock = false ∧ ButtonOpen S r w.clock := by
  rw [checkin, bind_eq, atOnce_vault_bind answers row] at accepted
  simp only [okOr, bind_eq, done_bind] at accepted
  split at accepted
  · cases accepted
  · next funded =>
    split at accepted
    · cases accepted
    · next live =>
      rw [atOnce_now_bind] at accepted
      obtain ⟨u, w₁, passed, rest⟩ := atOnce_bind_eq_ok.1 accepted
      obtain ⟨outside, rfl⟩ := oncePerPeriod_eq_ok.1 passed
      split at rest
      · cases rest
      · next free =>
        refine ⟨by simpa [claimIsFinal] using live, outside, funded, ?_⟩
        intro enabled
        simpa [enabled] using free

/-- And what it then does. -/
theorem atOnce_checkin (answers : o.dbFails = false) (row : w.vault? v = some r)
    (live : r.life.status ≠ .claimed) (outside : r.checkedIn w.clock = false)
    (open_ : ButtonOpen S r w.clock) :
    atOnce (checkin S v) o w = (.ok ⟨v, w.clock, w.clock + r.settings.cycle, .ok⟩,
      (w.update v (.checkin w.clock (w.clock + r.settings.cycle)
        (w.clock + r.settings.cycle + r.settings.grace))).record ⟨v, .checkin, [], w.clock⟩) := by
  obtain ⟨funded, free⟩ := open_
  have gate : ¬ (S.lightningEnabled && !inLastResortWindow r.life.claimEligibleAt w.clock) = true := by
    cases enabled : S.lightningEnabled with
    | false => simp
    | true => simp [free enabled]
  let u := VaultUpdate.checkin w.clock (w.clock + r.settings.cycle)
    (w.clock + r.settings.cycle + r.settings.grace)
  have row' : (w.update v u).vault? v = some (u.set r) := World.vault?_update_self row rfl
  rw [checkin, bind_eq, atOnce_vault_bind answers row]
  simp only [okOr, bind_eq, done_bind]
  rw [if_neg funded, if_neg (by simpa [claimIsFinal] using live), atOnce_now_bind,
    atOnce_ok_bind (oncePerPeriod_eq_ok.2 ⟨outside, rfl⟩), if_neg gate,
    atOnce_update_bind answers, atOnce_recordEvent_bind answers row']
  rfl

/-- The button is accepted exactly in these rows, and then the claim is over. -/
theorem button_takesOut_iff (answers : o.dbFails = false) (row : w.vault? v = some r) :
    CheckinRoute.button.TakesOut S o w v ↔
      r.life.status ≠ .claimed ∧ r.checkedIn w.clock = false ∧ ButtonOpen S r w.clock := by
  rw [free_takesOut_iff (p := checkin S v) rfl]
  constructor
  · rintro ⟨a, w', accepted, -⟩
    exact open_of_checkin answers row accepted
  · rintro ⟨live, outside, open_⟩
    exact ⟨_, _, atOnce_checkin answers row live outside open_, _,
      World.vault?_update_self row rfl, rfl, rfl⟩

/-- What a check-in by link that is accepted has found. -/
theorem open_of_checkinFromLink (answers : o.dbFails = false) (row : w.vault? v = some r)
    {a : CheckinResponse} {w' : World} (accepted : atOnce (checkinFromLink S v token) o w = (.ok a, w')) :
    r.life.status ≠ .claimed ∧ r.checkedIn w.clock = false ∧ LinkOpen S token r w.clock := by
  have found : (Query.vaultByCheckinLink v (S.hashClaimToken token)).eval w.db =
      .ok ((some r).filter fun r => r.life.checkinLinkTokenHash = some (S.hashClaimToken token)) :=
    congrArg Except.ok (congrArg (Option.filter _) row)
  rw [checkinFromLink, bind_eq, atOnce_query_bind answers found] at accepted
  by_cases hash : r.life.checkinLinkTokenHash = some (S.hashClaimToken token)
  swap
  · simp [Option.filter, hash, okOr] at accepted
  simp only [Option.filter, hash, decide_true, if_true, okOr, bind_eq, done_bind,
    Server.claimTokenMatches, Bool.not_true, Bool.false_eq_true, if_false] at accepted
  split at accepted
  · cases accepted
  · next unused =>
    split at accepted
    · cases accepted
    · next live =>
      rw [atOnce_now_bind] at accepted
      split at accepted
      · cases accepted
      · next free =>
        rw [atOnce_now_bind] at accepted
        obtain ⟨u, w₁, passed, rest⟩ := atOnce_bind_eq_ok.1 accepted
        obtain ⟨outside, rfl⟩ := oncePerPeriod_eq_ok.1 passed
        refine ⟨by simpa [claimIsFinal] using live, outside, hash, ?_, by simpa using free⟩
        simpa using unused

/-- And what it then does. -/
theorem atOnce_checkinFromLink (answers : o.dbFails = false) (row : w.vault? v = some r)
    (live : r.life.status ≠ .claimed) (outside : r.checkedIn w.clock = false)
    (open_ : LinkOpen S token r w.clock) :
    atOnce (checkinFromLink S v token) o w =
      (.ok ⟨v, w.clock, w.clock + r.settings.cycle, .ok⟩,
        (w.update v (.checkinFromLink (S.hashClaimToken token) w.clock (w.clock + r.settings.cycle)
          (w.clock + r.settings.cycle + r.settings.grace))).record
            ⟨v, .checkin, [("source", .str "one_tap_link")], w.clock⟩) := by
  obtain ⟨hash, unused, free⟩ := open_
  have found : (Query.vaultByCheckinLink v (S.hashClaimToken token)).eval w.db =
      .ok ((some r).filter fun r => r.life.checkinLinkTokenHash = some (S.hashClaimToken token)) :=
    congrArg Except.ok (congrArg (Option.filter _) row)
  let u := VaultUpdate.checkinFromLink (S.hashClaimToken token) w.clock
    (w.clock + r.settings.cycle) (w.clock + r.settings.cycle + r.settings.grace)
  have guard : u.guard r = true := by simp [u, VaultUpdate.guard, hash, unused]
  have one : w.db.affected v u = 1 := (Db.updateVault_affected _ _ _).2 ⟨r, row, guard⟩
  have row' : (w.update v u).vault? v = some (u.set r) := World.vault?_update_self row guard
  rw [checkinFromLink, bind_eq, atOnce_query_bind answers found]
  simp only [Option.filter, hash, decide_true, if_true, okOr, bind_eq, done_bind,
    Server.claimTokenMatches, Bool.not_true, Bool.false_eq_true, if_false]
  rw [if_neg (by simp [unused]), if_neg (by simpa [claimIsFinal] using live), atOnce_now_bind,
    if_neg (by simp [free]), atOnce_now_bind,
    atOnce_ok_bind (oncePerPeriod_eq_ok.2 ⟨outside, rfl⟩), atOnce_now_bind,
    atOnce_update_bind answers, one, if_neg (by decide), atOnce_recordEvent_bind answers row']
  rfl

/-- So is the link, and the row does not have to be funded for it. -/
theorem link_takesOut_iff (answers : o.dbFails = false) (row : w.vault? v = some r) :
    (CheckinRoute.link token).TakesOut S o w v ↔
      r.life.status ≠ .claimed ∧ r.checkedIn w.clock = false ∧ LinkOpen S token r w.clock := by
  rw [free_takesOut_iff (p := checkinFromLink S v token) rfl]
  constructor
  · rintro ⟨a, w', accepted, -⟩
    exact open_of_checkinFromLink answers row accepted
  · rintro ⟨live, outside, open_⟩
    have guard : (VaultUpdate.checkinFromLink (S.hashClaimToken token) w.clock
        (w.clock + r.settings.cycle) (w.clock + r.settings.cycle + r.settings.grace)).guard r = true := by
      simp [VaultUpdate.guard, open_.1, open_.2.1]
    exact ⟨_, _, atOnce_checkinFromLink answers row live outside open_, _,
      World.vault?_update_self row guard, rfl, rfl⟩

end Free

/-! ## §3 Paying an invoice -/

/-- The paid vault is reset unless it is inside its period or claimed. -/
theorem resetPaid_iff {db : Db} {paid : VaultRow} {t : Instant}
    (row : db.vault? paid.id = some paid) :
    (Db.resetPaid t db paid).2 = true ↔ paid.checkedIn t = false ∧ paid.life.status ≠ .claimed := by
  have hit := Db.updateVault_affected db paid.id (clockReset paid t)
  have guard : (clockReset paid t).guard paid = decide (paid.life.status ≠ .claimed) := rfl
  unfold Db.resetPaid
  split
  · next early => simp [early]
  · next outside =>
    rcases Db.updateVault_affected_cases db paid.id (clockReset paid t) with one | zero
    · obtain ⟨r, here, live⟩ := hit.1 one
      rw [row] at here
      cases here
      rw [guard, decide_eq_true_eq] at live
      simp [one, live, outside]
    · have dead : paid.life.status = .claimed := by
        by_contra live
        rw [hit.2 ⟨paid, row, by rw [guard]; exact decide_eq_true live⟩] at zero
        cases zero
      simp [zero, dead]

/-- When a payment resets the vault it was made for. -/
theorem markPaidAndCheckinTx_resets_iff {db : Db} {paymentHash : String} {t : Instant}
    {v : VaultId} : (∃ siblings, (db.markPaidAndCheckinTx paymentHash t).2 = .paid v true siblings) ↔
      ∃ i r, db.invoicePending paymentHash = true ∧ db.invoice? paymentHash = some i ∧
        i.vaultId = v ∧ db.vault? v = some r ∧ r.checkedIn t = false ∧ r.life.status ≠ .claimed := by
  unfold Db.markPaidAndCheckinTx
  by_cases pending : db.invoicePending paymentHash = true
  swap
  · simp [pending]
  simp only [pending, if_true, true_and]
  cases issued : db.invoice? paymentHash with
  | none => simp
  | some i =>
    simp only [Option.bind_some, Db.vault?_markInvoicePaid, Option.some.injEq, exists_and_left,
      exists_eq_left']
    cases row : db.vault? i.vaultId with
    | none =>
      constructor
      · rintro ⟨siblings, ⟨⟩⟩
      · rintro ⟨rfl, r, row', -⟩
        rw [row] at row'
        cases row'
    | some paid =>
      have id : paid.id = i.vaultId := Db.vault?_id row
      have row' : (db.markInvoicePaid paymentHash t).vault? paid.id = some paid := by
        rw [Db.vault?_markInvoicePaid, id, row]
      -- the paid vault is reset exactly outside its period and unclaimed
      have own := resetPaid_iff (t := t) row'
      dsimp only
      constructor
      · rintro ⟨siblings, came⟩
        rw [PaidOutcome.paid.injEq] at came
        obtain ⟨rfl, reset, -⟩ := came
        obtain ⟨outside, live⟩ := own.1 reset
        exact ⟨id.symm, paid, by rw [id, row], outside, live⟩
      · rintro ⟨rfl, r, here, outside, live⟩
        rw [row] at here
        cases here
        rw [id, own.2 ⟨outside, live⟩]
        exact ⟨_, rfl⟩

section Payments

variable {o : Oracle} {w : World} {v : VaultId} {r : VaultRow}

/-- A pending invoice of the vault, paid, takes it out of its claim. -/
theorem paysOut_of_pending (answers : o.dbFails = false) (row : w.vault? v = some r)
    (outside : r.checkedIn w.clock = false) (live : r.life.status ≠ .claimed) {i : InvoiceRow}
    (listed : i ∈ w.db.invoices.rows) (pending : i.status = .pending) (ofVault : i.vaultId = v) :
    PaysOut o w v i.bolt11 := by
  have issued : w.db.invoice? i.paymentHash = some i := KeyedTable.find?_of_mem listed
  have waiting : w.db.invoicePending i.paymentHash = true := by
    simp [Db.invoicePending, issued, pending]
  obtain ⟨siblings, paid⟩ := markPaidAndCheckinTx_resets_iff.2
    ⟨i, r, waiting, issued, ofVault, row, outside, live⟩
  have id : r.id = v := Db.vault?_id row
  have row' := Db.vault?_markPaidAndCheckinTx w.clock waiting issued (ofVault.symm ▸ row) v
  have reached : Db.reset? r w.clock r = true := by simp [Db.reset?, outside]
  rw [show w.db.vault? v = some r from row, Option.map_some, if_pos reached] at row'
  have performed : (Action.payCheckin i.paymentHash w.clock).perform o w =
      (.ok (.paid v true siblings),
        { w with db := (w.db.markPaidAndCheckinTx i.paymentHash w.clock).1 }) := by
    simp [Action.perform, answers, paid]
  have guard : (clockReset r w.clock).guard r = true := decide_eq_true live
  rw [VaultUpdate.onRow, if_pos guard] at row'
  exact ⟨i, siblings, _, listed, rfl, performed, _, row', rfl, rfl⟩

/-- A payment that takes a vault out finds it outside its period and not claimed. -/
theorem outside_of_paysOut {bolt11 : String} (pays : PaysOut o w v bolt11)
    (row : w.vault? v = some r) : r.checkedIn w.clock = false ∧ r.life.status ≠ .claimed := by
  obtain ⟨i, siblings, w', -, -, performed, -⟩ := pays
  simp only [Action.perform] at performed
  split at performed
  · cases performed
  · have paid : (w.db.markPaidAndCheckinTx i.paymentHash w.clock).2 = .paid v true siblings :=
      Except.ok.inj (congrArg Prod.fst performed)
    obtain ⟨i', r', -, -, -, row', outside, live⟩ := markPaidAndCheckinTx_resets_iff.1 ⟨siblings, paid⟩
    rw [show w.db.vault? v = some r from row] at row'
    cases row'
    exact ⟨outside, live⟩

end Payments

/-! ## §4 Getting an invoice -/

/-- The provider mints an invoice the table does not know yet. -/
def Mintable (S : Server) (o : Oracle) (w : World) (v : VaultId) : Prop :=
  ∃ invoice, o.answer (.createInvoice S.heartbeatAmountSat ("ghostkey:checkin:" ++ v)) =
      .ok invoice ∧ w.db.invoices.select (fun i => i.bolt11 = invoice.bolt11) = [] ∧
    w.db.invoice? invoice.paymentHash = none

/-- A wallet gets an invoice to pay: a pending one, or a new one. -/
def Payable (S : Server) (o : Oracle) (w : World) (v : VaultId) : Prop :=
  (∃ i, (Query.reusableInvoice v .checkin w.clock).eval w.db = .ok (some i)) ∨ Mintable S o w v

section Minting

variable {S : Server} {o : Oracle} {w : World} {v : VaultId} {r : VaultRow} {token : Token}
  {invoice : CreatedInvoice}

/-- The row of an invoice minted now. -/
def mintedRow (v : VaultId) (invoice : CreatedInvoice) (t : Instant) : InvoiceRow :=
  ⟨v, invoice.bolt11, invoice.paymentHash, invoice.amountSat, .checkin, .pending, t,
    invoice.expiresAt, none, none, none⟩

/-- An invoice with a new hash and a new text is stored. -/
theorem atOnce_insertInvoice (answers : o.dbFails = false) (row : w.vault? v = some r)
    (newText : w.db.invoices.select (fun i => i.bolt11 = invoice.bolt11) = [])
    (newHash : w.db.invoice? invoice.paymentHash = none) :
    ∃ invoices, mintedRow v invoice w.clock ∈ invoices.rows ∧
      atOnce (insertInvoice v invoice .checkin) o w =
        (.ok (mintedRow v invoice w.clock), { w with db := { w.db with invoices := invoices } }) := by
  have present : w.db.hasVault v = true := by
    rw [Db.hasVault, show w.db.vault? v = some r from row]
    rfl
  obtain ⟨invoices, inserted, listed⟩ :=
    KeyedTable.exists_insert? (t := w.db.invoices) (r := mintedRow v invoice w.clock) newHash
  refine ⟨invoices, listed, ?_⟩
  rw [insertInvoice, bind_eq, atOnce_now_bind]
  simp only [mintedRow] at inserted
  simp [atOnce, exec, Program.atOnce, Action.perform, answers, Stmt.run, present, newText, inserted,
    mintedRow]

/-- And only such an invoice. -/
theorem new_of_insertInvoice {i : InvoiceRow} {w' : World}
    (came : atOnce (insertInvoice v invoice .checkin) o w = (.ok i, w')) :
    w.db.invoices.select (fun i => i.bolt11 = invoice.bolt11) = [] ∧
      w.db.invoice? invoice.paymentHash = none := by
  rw [insertInvoice, bind_eq, atOnce_now_bind] at came
  obtain ⟨n, w₁, ran, -⟩ := atOnce_bind_eq_ok.1 came
  obtain ⟨-, db, ran, -⟩ := atOnce_exec_eq_ok.1 ran
  simp only [Stmt.run] at ran
  split at ran
  · split at ran
    · next newText =>
      split at ran
      · cases ran
      · next invoices inserted =>
        exact ⟨List.isEmpty_iff.1 newText, KeyedTable.find?_eq_none_of_insert? inserted⟩
    · cases ran
  · cases ran

theorem only_recordEvent (kind : EventKind) (detail : Detail) :
    (recordEvent v kind detail).Only fun a => a.isCalm = true :=
  .bind (.perform rfl) fun _ => .bind (only_exec rfl) fun _ => trivial

theorem only_insertInvoice (type : InvoiceType) :
    (insertInvoice v invoice type).Only fun a => a.isCalm = true :=
  .bind (.perform rfl) fun _ => .bind (only_exec rfl) fun _ => trivial

theorem only_oncePerPeriod (t : Instant) : (oncePerPeriod S r t).Only fun a => a.isCalm = true := by
  unfold oncePerPeriod
  split
  · trivial
  · dsimp only
    split <;> trivial

/-- The end of `create_checkin_invoice`, past its guards. -/
def mintInvoice (S : Server) (v : VaultId) : Prog InvoiceRow := do
  let answer ← ask (.createInvoice S.heartbeatAmountSat ("ghostkey:checkin:" ++ v))
  match answer with
  | .error e => .fail (mintFailed e)
  | .ok invoice =>
      let rec_ ← insertInvoice v invoice .checkin
      recordEvent v .lightningInvoiceIssued
        [("payment_hash", .str invoice.paymentHash), ("amount_sat", .int invoice.amountSat)]
      pure rec_

theorem only_mintInvoice : (mintInvoice S v).Only fun a => a.isCalm = true := by
  refine .bind (.perform rfl) fun answer => ?_
  split
  · trivial
  · exact .bind (only_insertInvoice _) fun _ => .bind (only_recordEvent _ _) fun _ => trivial

theorem only_createCheckinInvoice :
    (createCheckinInvoice S v).Only fun a => a.isCalm = true := by
  refine .bind (only_query rfl) fun row => ?_
  split
  · trivial
  · split
    · trivial
    · split
      · trivial
      · dsimp only
        split
        · exact only_mintInvoice
        · split
          · exact only_mintInvoice
          · exact .bind (.perform rfl) fun t => .bind (only_oncePerPeriod t) fun _ => only_mintInvoice

theorem only_lnurlpCallback (amount : Option Nat) (isPanic : Bool) :
    (lnurlpCallback S v amount isPanic).Only fun a => a.isCalm = true := by
  refine .bind (.attempt (only_query rfl)) fun found => ?_
  split
  · trivial
  · trivial
  · split
    · trivial
    · split
      · trivial
      · split
        · trivial
        · split
          · trivial
          · refine .bind (.perform rfl) fun t => .bind (.attempt (only_query rfl)) fun existing => ?_
            split
            · trivial
            · trivial
            · refine .bind (.perform rfl) fun answer => ?_
              split
              · trivial
              · refine .bind (.attempt (only_insertInvoice _)) fun inserted => ?_
                split
                · trivial
                · exact .bind (sure_logged (only_recordEvent _ _)).only fun _ => trivial

theorem mintable_of_mintInvoice {i : InvoiceRow} {w' : World}
    (came : atOnce (mintInvoice S v) o w = (.ok i, w')) : Mintable S o w v := by
  rw [mintInvoice, bind_eq, atOnce_ask_bind] at came
  split at came
  · cases came
  · next invoice minted =>
    obtain ⟨row, w₁, stored, -⟩ := atOnce_bind_eq_ok.1 came
    exact ⟨invoice, minted, new_of_insertInvoice stored⟩

/-- An invoice from the dashboard is a new one, from a provider that is there. -/
theorem mintable_of_createCheckinInvoice {i : InvoiceRow} {w' : World}
    (came : atOnce (createCheckinInvoice S v) o w = (.ok i, w')) :
    S.lightningEnabled = true ∧ Mintable S o w v := by
  obtain ⟨cad, w₁, read, rest⟩ := atOnce_bind_eq_ok.1 came
  obtain ⟨-, -, rfl⟩ := atOnce_query_eq_ok.1 read
  clear came
  split at rest
  · cases rest
  · split at rest
    · cases rest
    · split at rest
      · cases rest
      · next enabled =>
        refine ⟨by simpa using enabled, ?_⟩
        dsimp only at rest
        split at rest
        · exact mintable_of_mintInvoice rest
        · split at rest
          · exact mintable_of_mintInvoice rest
          · rw [bind_eq] at rest
            obtain ⟨t, w₂, clock, guarded⟩ := atOnce_bind_eq_ok.1 rest
            cases clock
            obtain ⟨u, w₃, passed, minted⟩ := atOnce_bind_eq_ok.1 guarded
            obtain ⟨-, rfl⟩ := oncePerPeriod_eq_ok.1 passed
            exact mintable_of_mintInvoice minted

theorem only_verifyCheckinLinkToken :
    (verifyCheckinLinkToken S v token).Only fun a => a.isCalm = true := by
  refine .bind (only_query rfl) fun row => .bind (only_okOr _ _) fun r => ?_
  apply Only.bind (only_okOr _ _)
  intro storedHash
  split
  · trivial
  · split <;> trivial

/-- The link is only looked at before an invoice is minted behind it. -/
theorem verifyCheckinLinkToken_eq_ok {u : Unit} {w' : World}
    (came : atOnce (verifyCheckinLinkToken S v token) o w = (.ok u, w')) : w' = w := by
  obtain ⟨row, w₁, read, rest⟩ := atOnce_bind_eq_ok.1 came
  obtain ⟨-, -, rfl⟩ := atOnce_query_eq_ok.1 read
  cases row with
  | none => cases rest
  | some r =>
    simp only [okOr, bind_eq, done_bind] at rest
    cases stored : r.life.checkinLinkTokenHash with
    | none => simp [stored] at rest
    | some hash =>
      simp only [stored, done_bind] at rest
      split at rest
      · cases rest
      · split at rest
        · cases rest
        · cases rest
          rfl

/-- The two routes that mint an invoice describe it alike. -/
theorem minted_description :
    o.answer (.createInvoice S.heartbeatAmountSat
        ("ghostkey:" ++ InvoiceType.checkin.name ++ ":" ++ v)) =
      o.answer (.createInvoice S.heartbeatAmountSat ("ghostkey:checkin:" ++ v)) := by
  have same : "ghostkey:" ++ InvoiceType.checkin.name ++ ":" = "ghostkey:checkin:" := by decide
  rw [same]

/-- What a wallet is told past the guards, given the pending invoice there may be. -/
def walletReply (S : Server) (v : VaultId) (existing : Option InvoiceRow) : Prog LnurlReply :=
  match existing with
  | some i => pure (.payResponse i.bolt11)
  | none => do
    let answer ← ask (.createInvoice S.heartbeatAmountSat
      ("ghostkey:" ++ InvoiceType.checkin.name ++ ":" ++ v))
    match answer with
    | .error _ => pure (.error "provider failed to mint invoice")
    | .ok invoice =>
      let inserted ← ((insertInvoice v invoice .checkin).attempt : Prog (Except ApiError InvoiceRow))
      match inserted with
      | .error _ => pure (.error "internal")
      | .ok _ => do
        logged (recordEvent v .lightningInvoiceIssued
          [("payment_hash", .str invoice.paymentHash), ("amount_sat", .int invoice.amountSat),
            ("source", .str "lnurl"), ("invoice_type", .str InvoiceType.checkin.name)])
        pure (.payResponse invoice.bolt11)

theorem atOnce_lnurlpCallback (answers : o.dbFails = false) (row : w.vault? v = some r)
    {existing : Option InvoiceRow}
    (pending : (Query.reusableInvoice v .checkin w.clock).eval w.db = .ok existing) :
    atOnce (lnurlpCallback S v (some 1000) false) o w =
      atOnce (if claimIsFinal r.life.status then
          pure (.error "This vault is closed. Your heir already claimed the money.")
        else if !S.lightningEnabled then pure (.error "lightning disabled on this server")
        else walletReply S v existing) o w := by
  have found : atOnce (query (.vault v)) o w = (.ok (some r), w) :=
    atOnce_query_eq_ok.2 ⟨answers, congrArg Except.ok row, rfl⟩
  have looked : atOnce (query (.reusableInvoice v (if false = true then .panic else .checkin)
      w.clock)) o w = (.ok existing, w) := atOnce_query_eq_ok.2 ⟨answers, pending, rfl⟩
  rw [lnurlpCallback, bind_eq, atOnce_attempt_bind, found]
  dsimp only
  split
  · rfl
  · split
    · rfl
    · rw [if_neg (by decide), bind_eq, atOnce_now_bind, bind_eq, atOnce_attempt_bind]
      rw [looked]
      cases existing with
      | some i => rfl
      | none =>
        unfold walletReply
        dsimp only
        congr 1
        apply congrArg (Program.bind _)
        funext answer
        cases answer <;> rfl

/-- A wallet is given a pending invoice of the vault or a new one. -/
theorem payable_of_walletReply {existing : Option InvoiceRow}
    (pending : (Query.reusableInvoice v .checkin w.clock).eval w.db = .ok existing)
    {bolt11 : String} {w' : World}
    (came : atOnce (walletReply S v existing) o w = (.ok (.payResponse bolt11), w')) :
    Payable S o w v := by
  unfold walletReply at came
  split at came
  · next i => exact .inl ⟨i, pending⟩
  · rw [bind_eq, atOnce_ask_bind, minted_description] at came
    split at came
    · cases came
    · next invoice minted =>
      rw [bind_eq, atOnce_attempt_bind] at came
      split at came
      · cases came
      · next row stored =>
        exact .inr ⟨invoice, minted, new_of_insertInvoice (Prod.ext stored rfl)⟩

/-- And it gets one whenever there is one. -/
theorem walletReply_of_payable (answers : o.dbFails = false) (row : w.vault? v = some r)
    {existing : Option InvoiceRow}
    (pending : (Query.reusableInvoice v .checkin w.clock).eval w.db = .ok existing)
    (payable : Payable S o w v) :
    ∃ i w', atOnce (walletReply S v existing) o w = (.ok (.payResponse i.bolt11), w') ∧
      i ∈ w'.db.invoices.rows ∧ i.status = .pending ∧ i.vaultId = v := by
  cases existing with
  -- the invoice on file is the newest pending one
  | some i =>
    have first := List.mem_of_mem_head? (Option.mem_def.2 (Except.ok.inj pending))
    rw [List.mem_insertionSort, KeyedTable.mem_select] at first
    have listed := KeyedTable.find?_mem first.1
    have kept := of_decide_eq_true first.2
    exact ⟨i, w, rfl, listed, kept.2.2.1, kept.1⟩
  | none =>
    obtain ⟨i, reusable⟩ | ⟨invoice, minted, newText, newHash⟩ := payable
    · rw [reusable] at pending
      cases pending
    -- a new one is stored under its fresh hash
    · obtain ⟨invoices, listed, stored⟩ := atOnce_insertInvoice answers row newText newHash
      let stores : World := { w with db := { w.db with invoices := invoices } }
      let event : EventRow := ⟨v, .lightningInvoiceIssued,
        [("payment_hash", .str invoice.paymentHash), ("amount_sat", .int invoice.amountSat),
          ("source", .str "lnurl"), ("invoice_type", .str InvoiceType.checkin.name)], w.clock⟩
      have told : atOnce (walletReply S v none) o w =
          (.ok (.payResponse invoice.bolt11), stores.record event) := by
        rw [walletReply, bind_eq, atOnce_ask_bind, minted_description, minted]
        dsimp only [External.effect]
        rw [bind_eq, atOnce_attempt_bind, stored]
        dsimp only
        rw [bind_eq, atOnce_logged_bind]
        have recorded := congrArg Prod.snd
          (atOnce_recordEvent (w := stores) answers row event.kind event.detail)
        exact Prod.ext rfl recorded
      exact ⟨mintedRow v invoice w.clock, _, told, listed, rfl, rfl⟩

/-- A wallet's invoice stops the claim exactly in these rows. -/
theorem lnurl_takesOut_iff (answers : o.dbFails = false) (row : w.vault? v = some r) :
    CheckinRoute.lnurl.TakesOut S o w v ↔
      r.life.status ≠ .claimed ∧ r.checkedIn w.clock = false ∧ S.lightningEnabled = true ∧
        Payable S o w v := by
  obtain ⟨existing, pending⟩ : ∃ existing,
      (Query.reusableInvoice v .checkin w.clock).eval w.db = .ok existing := ⟨_, rfl⟩
  have reply := atOnce_lnurlpCallback (S := S) answers row pending
  constructor
  -- from the reply back to the row
  · rintro ⟨due, w', came, out⟩
    obtain ⟨told, w₁, called, rest⟩ := atOnce_bind_eq_ok.1 came
    cases told with
    | error reason => cases rest
    | payResponse bolt11 =>
      cases rest
      have frame := atOnce_frame (o := o) (w := w) (only_lnurlpCallback (S := S) (v := v) (some 1000) false)
      have clock := atOnce_clock (o := o) (w := w) (lnurlpCallback S v (some 1000) false)
      unfold atOnce at frame clock reply
      rw [called] at frame clock reply
      have pays := outside_of_paysOut out (r := r) (by rw [frame.vault?, row])
      rw [clock] at pays
      split at reply
      · cases reply
      · split at reply
        · cases reply
        · next enabled =>
          exact ⟨pays.2, pays.1, by simpa using enabled, payable_of_walletReply pending reply.symm⟩
  -- the invoice handed out, once paid, resets the clock
  · rintro ⟨live, outside, enabled, payable⟩
    obtain ⟨i, w', told, listed, waiting, ofVault⟩ := walletReply_of_payable answers row pending payable
    have called : atOnce (lnurlpCallback S v (some 1000) false) o w =
        (.ok (.payResponse i.bolt11), w') := by
      rw [reply, if_neg (by simpa [claimIsFinal] using live), if_neg (by simp [enabled]), told]
    have frame := atOnce_frame (o := o) (w := w) (only_lnurlpCallback (S := S) (v := v) (some 1000) false)
    have clock := atOnce_clock (o := o) (w := w) (lnurlpCallback S v (some 1000) false)
    rw [called] at frame clock
    refine ⟨some i.bolt11, w', atOnce_bind_eq_ok.2 ⟨_, w', called, rfl⟩, ?_⟩
    exact paysOut_of_pending answers (by rw [frame.vault?, row]) (by rw [clock]; exact outside) live
      listed waiting ofVault

end Minting

/-! ## §5 Stopping a claim -/

/-- Some route is open for the row. -/
def RouteOpen (S : Server) (o : Oracle) (w : World) (r : VaultRow) : Prop :=
  o.dbFails = false ∧ r.life.status ≠ .claimed ∧ r.checkedIn w.clock = false ∧
    (ButtonOpen S r w.clock ∨ (∃ token, LinkOpen S token r w.clock) ∨
      (S.lightningEnabled = true ∧ Payable S o w r.id))

section Stopping

variable {S : Server} {o : Oracle} {w : World} {v : VaultId} {r : VaultRow}

/-- What the dashboard's invoice needs, a wallet's invoice needs too. -/
theorem payable_of_invoice {p : Prog InvoiceRow} {route : CheckinRoute}
    (asks : route.request S v = p.bind fun i => .done (some i.bolt11))
    (only : p.Only fun a => a.isCalm = true)
    (mintable : ∀ i w', atOnce p o w = (.ok i, w') → S.lightningEnabled = true ∧ Mintable S o w v)
    (row : w.vault? v = some r) (takes : route.TakesOut S o w v) :
    r.life.status ≠ .claimed ∧ r.checkedIn w.clock = false ∧ S.lightningEnabled = true ∧
      Payable S o w v := by
  obtain ⟨due, w', came, out⟩ := takes
  rw [asks] at came
  obtain ⟨i, w₁, called, rest⟩ := atOnce_bind_eq_ok.1 came
  cases rest
  have frame := atOnce_frame (o := o) (w := w) only
  have clock := atOnce_clock (o := o) (w := w) p
  unfold atOnce at frame clock
  rw [called] at frame clock
  obtain ⟨outside, live⟩ := outside_of_paysOut out (r := r) (by rw [frame.vault?, row])
  rw [clock] at outside
  obtain ⟨enabled, minted⟩ := mintable i w' called
  exact ⟨live, outside, enabled, .inr minted⟩

/-- A database that does not answer refuses every route. -/
theorem refuses_request (fails : o.dbFails = true) (route : CheckinRoute) :
    Refuses (route.request S v) o w := by
  cases route with
  | button => exact (refuses_query_bind fails _).bind _
  | link token => exact (refuses_query_bind fails _).bind _
  | invoice => exact (refuses_query_bind fails _).bind _
  | invoiceFromLink token => exact ((refuses_query_bind fails _).bind _).bind _
  | lnurl =>
    have found : (atOnce (query (.vault v)) o w).1 = .error (.db .unavailable) := by
      simp [query, atOnce, Program.atOnce, Action.perform, fails]
    refine ⟨.conflict "internal", ?_⟩
    rw [CheckinRoute.request, lnurlpCallback, bind_eq, bind_eq, bind_assoc, atOnce_attempt_bind, found]
    rfl

/-- The claim can be stopped exactly while some route is open. -/
theorem stopsClaim_iff (row : w.vault? v = some r) : StopsClaim S o w v ↔ RouteOpen S o w r := by
  have id : r.id = v := Db.vault?_id row
  cases answers : o.dbFails with
  | true =>
    have shut : ¬ RouteOpen S o w r := by simp [RouteOpen, answers]
    simp only [shut, iff_false]
    rintro ⟨route, due, w', came, -⟩
    obtain ⟨e, refused⟩ := refuses_request (S := S) (v := v) (w := w) answers route
    rw [came] at refused
    cases refused
  | false =>
    unfold StopsClaim RouteOpen
    simp only [answers, true_and, id]
    constructor
    -- each route names what it needs
    · rintro ⟨route, takes⟩
      cases route with
      | button =>
        obtain ⟨live, outside, open_⟩ := (button_takesOut_iff answers row).1 takes
        exact ⟨live, outside, .inl open_⟩
      | link token =>
        obtain ⟨live, outside, open_⟩ := (link_takesOut_iff answers row).1 takes
        exact ⟨live, outside, .inr (.inl ⟨token, open_⟩)⟩
      | invoice =>
        obtain ⟨live, outside, payable⟩ := payable_of_invoice rfl only_createCheckinInvoice
          (fun i w' came => mintable_of_createCheckinInvoice came) row takes
        exact ⟨live, outside, .inr (.inr payable)⟩
      | invoiceFromLink token =>
        obtain ⟨live, outside, payable⟩ := payable_of_invoice
          (p := createInvoiceFromLink S v token) rfl
          (.bind only_verifyCheckinLinkToken fun _ => only_createCheckinInvoice) (by
            intro i w' came
            obtain ⟨u, w₁, verified, minted⟩ := atOnce_bind_eq_ok.1 came
            cases verifyCheckinLinkToken_eq_ok verified
            exact mintable_of_createCheckinInvoice minted) row takes
        exact ⟨live, outside, .inr (.inr payable)⟩
      | lnurl =>
        obtain ⟨live, outside, payable⟩ := (lnurl_takesOut_iff answers row).1 takes
        exact ⟨live, outside, .inr (.inr payable)⟩
    -- three routes are enough; an invoice is as good as the wallet's
    · rintro ⟨live, outside, button | ⟨token, link⟩ | payable⟩
      · exact ⟨.button, (button_takesOut_iff answers row).2 ⟨live, outside, button⟩⟩
      · exact ⟨.link token, (link_takesOut_iff answers row).2 ⟨live, outside, link⟩⟩
      · exact ⟨.lnurl, (lnurl_takesOut_iff answers row).2 ⟨live, outside, payable⟩⟩

end Stopping

/-- The challenge window of the claim is open. -/
def WindowOpen (S : Server) (r : VaultRow) (t : Instant) : Prop :=
  ∃ opened, r.life.claimOpenedAt = some opened ∧ t < opened + S.window

/-- At every moment of every open window some route stops the claim, whatever the
services answer. -/
def OwnerCanStop (S : Server) (tr : Trace) : Prop :=
  ∀ (k : Nat) s v r o, tr[k]? = some s → s.before.vault? v = some r →
    WindowOpen S r s.before.clock → o.dbFails = false → StopsClaim S o s.before v

/-- At every such moment the row and the services leave a route open. -/
def RoutesStayOpen (S : Server) (tr : Trace) : Prop :=
  ∀ (k : Nat) s v r o, tr[k]? = some s → s.before.vault? v = some r →
    WindowOpen S r s.before.clock → o.dbFails = false → RouteOpen S o s.before r

/-- Along a run the owner can stop every claim in time exactly while routes stay open. -/
theorem ownerCanStop_iff (S : Server) (tr : Trace) : OwnerCanStop S tr ↔ RoutesStayOpen S tr := by
  constructor
  · intro stops k s v r o at_k row open_ answers
    exact (stopsClaim_iff row).1 (stops k s v r o at_k row open_ answers)
  · intro routes k s v r o at_k row open_ answers
    exact (stopsClaim_iff row).2 (routes k s v r o at_k row open_ answers)

/-! ## §6 A claim nobody can stop -/

section Unstoppable

open Deployment

/-- A claim issued by hand right after a check-in, and its link opened. -/
def openedInPeriod : List (Move Oracle Drift Request) :=
  funded ++ [.start (.issueClaim "v")] ++ steps 3 7 (oracle "token" []) ++
    [.start (.resolveClaim "token")] ++ steps 4 8 (oracle "" [])

/-- Inside the period of the last check-in no route stops the claim. -/
theorem not_ownerCanStop :
    ¬ ∀ (S : Server) (t₀ : Instant) (tr : Trace), S.Lawful → Runs S t₀ tr → OwnerCanStop S tr := by
  intro stops
  obtain ⟨tr, runs, check⟩ := runs_of_play (host 86400) openedInPeriod
    (fun tr => tr[46]?.any fun s => (s.before.vault? "v").any fun r =>
      r.life.claimOpenedAt = some 0 && s.before.clock = 0 && r.checkedIn 0) (by decide +kernel)
  simp only [Option.any_eq_true, Bool.and_eq_true, decide_eq_true_eq] at check
  obtain ⟨s, at_k, r, row, ⟨stamped, clock⟩, early⟩ := check
  have open_ : WindowOpen (host 86400) r s.before.clock := by
    refine ⟨0, stamped, ?_⟩
    rw [clock]
    decide
  have route := (stopsClaim_iff row).1
    (stops _ 0 tr (lawful 86400) runs 46 s "v" r (oracle "" []) at_k row open_ rfl)
  have outside := route.2.2.1
  rw [clock, early] at outside
  cases outside

end Unstoppable

end GhostKey

import GhostKey.Creation
import GhostKey.Foundation.Sequential
import GhostKey.Foundation.Trace
import GhostKey.Owner
import GhostKey.Scheduler

/-!
# The Server as a System

Every request the modelled routes take and the two background loops, as one
system of interleaved programs over `World`. A loop runs one tick at a time; a
request may come from anyone at any moment. Halting the process loses the
explorer pause and the Lightning gate, and every request where it stands.

Main results:
- `clock_le`: the clock never goes back.
- `rowChange`: what one step of a run may do to the row of one vault.
-/

namespace GhostKey

open Foundation Prog

/-! ## §1 Requests -/

inductive Request where
  | createVault (req : CreateVaultRequest)
  | createVaultFromXpub (req : CreateVaultFromXpubRequest)
  | createVaultGuardian (req : CreateGuardianVaultRequest)
  | checkin (id : VaultId)
  | checkinFromLink (id : VaultId) (token : Token)
  | issueClaim (id : VaultId)
  | deleteVault (id : VaultId)
  | createInvoice (id : VaultId)
  | createInvoiceFromLink (id : VaultId) (token : Token)
  | invoiceStatusFromLink (id : VaultId) (token : Token) (paymentHash : String)
  | lnurlpCallback (id : VaultId) (amountMsat : Option Nat) (isPanic : Bool)
  | resolveClaim (token : Token)
  | claimUnlockEstimate (token : Token)
  | sealedHeir (token : Token)
  | sealedGuardian (token : Token)
  | heirDerivationParams (token : Token)
  | buildClaimPsbt (token : Token) (destination : String) (satPerVb : Option Nat)
  | broadcastClaim (token : Token) (signedPsbt : String)
  | heirClaim (token : Token) (destination : String) (satPerVb : Option Nat) (heirXprv : String)
  | guardianClaim (token : Token) (destination : String) (satPerVb : Option Nat)
      (heirXprv guardianXprv : String)
  | ownerSend (id : VaultId) (destination : String) (amountSat satPerVb : Option Nat)
      (ownerXprv : String)
  | vaultBalance (id : VaultId)
  | schedulerTick
  | pollerTick
  deriving DecidableEq

inductive Reply where
  | created (v : CreatedVault)
  | checkedIn (r : CheckinResponse)
  | claimIssued (r : IssueClaimResponse)
  | invoice (i : InvoiceRow)
  | invoiceStatus (v : InvoiceStatusView)
  | lnurl (r : LnurlReply)
  | claimView (v : ClaimView)
  | estimate (v : UnlockEstimateView)
  | sealedHeir (v : SealedHeirView)
  | sealedGuardian (v : SealedGuardianView)
  | derivationParams (v : HeirDerivationParamsView)
  | claimPsbt (r : BuildClaimPsbtResponse)
  | broadcast (r : BroadcastResponse)
  | sent (r : OwnerSendResponse)
  | balance (sat : Nat)
  | done
  deriving DecidableEq

/-- Run a handler and wrap its answer. -/
def Prog.reply {α : Type} (p : Prog α) (wrap : α → Reply) : Prog Reply := do
  let a ← p
  pure (wrap a)

def Request.program (S : Server) : Request → Prog Reply
  | createVault req => (GhostKey.createVault S req).reply .created
  | createVaultFromXpub req => (GhostKey.createVaultFromXpub S req).reply .created
  | createVaultGuardian req => (GhostKey.createVaultGuardian S req).reply .created
  | checkin id => (GhostKey.checkin S id).reply .checkedIn
  | checkinFromLink id token => (GhostKey.checkinFromLink S id token).reply .checkedIn
  | issueClaim id => (GhostKey.issueClaim S id).reply .claimIssued
  | deleteVault id => (GhostKey.deleteVault id).reply fun _ => .done
  | createInvoice id => (createCheckinInvoice S id).reply .invoice
  | createInvoiceFromLink id token => (GhostKey.createInvoiceFromLink S id token).reply .invoice
  | invoiceStatusFromLink id token paymentHash =>
      (GhostKey.invoiceStatusFromLink S id token paymentHash).reply .invoiceStatus
  | lnurlpCallback id amount isPanic => (GhostKey.lnurlpCallback S id amount isPanic).reply .lnurl
  | resolveClaim token => (GhostKey.resolveClaim S token).reply .claimView
  | claimUnlockEstimate token => (GhostKey.claimUnlockEstimate S token).reply .estimate
  | sealedHeir token => (getSealedHeirXprv S token).reply .sealedHeir
  | sealedGuardian token => (getSealedGuardianXprv S token).reply .sealedGuardian
  | heirDerivationParams token => (getHeirDerivationParams S token).reply .derivationParams
  | buildClaimPsbt token destination fee =>
      (GhostKey.buildClaimPsbt S token destination fee).reply .claimPsbt
  | broadcastClaim token psbt => (GhostKey.broadcastClaim S token psbt).reply .broadcast
  | heirClaim token destination fee key =>
      (GhostKey.heirClaim S token destination fee key).reply .broadcast
  | guardianClaim token destination fee heirKey guardianKey =>
      (GhostKey.guardianClaim S token destination fee heirKey guardianKey).reply .broadcast
  | ownerSend id destination amount fee key =>
      (GhostKey.ownerSend S id destination amount fee key).reply .sent
  | vaultBalance id => (getVaultBalance S id).reply .balance
  | schedulerTick => (tickOnce S).reply fun _ => .done
  | pollerTick => (GhostKey.pollerTick S).reply fun _ => .done

/-- The two loops wait for their tick to end before they start the next one. -/
def Request.mayStart (q : Request) (running : List Request) : Bool :=
  match q with
  | schedulerTick => !running.contains .schedulerTick
  | pollerTick => !running.contains .pollerTick
  | _ => true

/-! ## §2 The system -/

/-- A restarted process has forgotten its pause and its gate. -/
def World.restart (w : World) : World := { w with backoff := .default, lnGate := .default }

def server (S : Server) :
    System Action Action.Response ApiError Reply World Oracle Drift Request where
  program := Request.program S
  mayStart := Request.mayStart
  perform := Action.perform
  drift := Drift.apply
  restart := World.restart

/-- Ticks do not run beside each other. -/
theorem tick_alone (S : Server) (running : List Request) (here : .schedulerTick ∈ running) :
    (server S).mayStart .schedulerTick running = false := by
  simp [server, Request.mayStart, here]

/-- One step of a run of the server. -/
abbrev SrvStep := Step Action Action.Response ApiError Reply World Drift Request

abbrev Trace := List SrvStep

/-- The runs of the server from its first start, at time `t₀`, with their traces. -/
def Runs (S : Server) (t₀ : Instant) (tr : Trace) : Prop :=
  ∃ c, Run (server S) (System.boot (World.start t₀)) tr c

/-- The thread `i` performed `a` in this step and was answered `r`. -/
def Did (i : Nat) (a : Action) (r : a.Response) (s : SrvStep) : Prop := s.label = .acted i ⟨a, r⟩

section Steps

variable {S : Server} {s : SrvStep} {i : Nat}

theorem performed {a : Action} {r : a.Response} (explains : (server S).Explains s)
    (did : Did i a r s) :
    ∃ o, (a.perform o s.before).1 = r ∧ (a.perform o s.before).2 = s.after := by
  unfold System.Explains at explains
  rw [show s.label = .acted i ⟨a, r⟩ from did] at explains
  obtain ⟨o, perform⟩ := explains
  exact ⟨o, congrArg Prod.fst perform, congrArg Prod.snd perform⟩

theorem did_now {t : Instant} (explains : (server S).Explains s) (did : Did i .now t s) :
    t = s.before.clock ∧ s.after = s.before := by
  obtain ⟨o, answer, world⟩ := performed explains did
  exact ⟨answer.symm, world.symm⟩

theorem did_query {q : Query} {r : q.Result} (explains : (server S).Explains s)
    (did : Did i (.query q) (.ok r) s) : q.eval s.before.db = .ok r ∧ s.after = s.before := by
  obtain ⟨o, answer, world⟩ := performed explains did
  refine ⟨?_, world.symm⟩
  change (if o.dbFails then .error .unavailable else q.eval s.before.db) = _ at answer
  split at answer
  · cases answer
  · exact answer

theorem did_exec {st : Stmt} {n : Nat} (explains : (server S).Explains s)
    (did : Did i (.exec st) (.ok n) s) :
    ∃ db, st.run s.before.db = .ok (db, n) ∧ s.after = { s.before with db := db } := by
  obtain ⟨o, answer, world⟩ := performed explains did
  simp only [Action.perform] at answer world
  split at answer
  · cases answer
  · next reliable =>
    simp only [reliable] at world
    split at answer
    · next db m ran =>
      cases answer
      rw [ran] at world
      exact ⟨db, ran, world.symm⟩
    · cases answer

/-- An UPDATE of one vault, by the number of rows it affected. -/
theorem did_update {v : VaultId} {u : VaultUpdate} {n : Nat} (explains : (server S).Explains s)
    (did : Did i (.exec (.updateVault v u)) (.ok n) s) :
    (n = 1 ∧ ∃ r, s.before.vault? v = some r ∧ u.guard r = true ∧
      s.after.vault? v = some (u.set r)) ∨ (n = 0 ∧ s.after.vault? v = s.before.vault? v) := by
  obtain ⟨db, ran, after⟩ := did_exec explains did
  simp only [Stmt.run, Except.ok.injEq, Prod.mk.injEq] at ran
  obtain ⟨rfl, rfl⟩ := ran
  have here : s.after.vault? v = (s.before.vault? v).map u.onRow := by
    rw [after]
    simp [World.vault?, Db.vault?_updateVault]
  rcases Db.updateVault_affected_cases s.before.db v u with one | none
  · obtain ⟨r, found, guard⟩ := (Db.updateVault_affected s.before.db v u).1 one
    refine .inl ⟨one, r, found, guard, ?_⟩
    rw [here, World.vault?, found]
    simp [VaultUpdate.onRow, guard]
  · refine .inr ⟨none, ?_⟩
    rw [here]
    cases found : s.before.vault? v with
    | none => rfl
    | some r =>
      have missed : u.guard r = false := by
        cases hit : u.guard r with
        | false => rfl
        | true =>
          have one := (Db.updateVault_affected s.before.db v u).2 ⟨r, found, hit⟩
          rw [none] at one
          cases one
      simp [VaultUpdate.onRow, missed]

/-- An UPDATE whose WHERE the row meets affects it. -/
theorem did_update_hit {v : VaultId} {u : VaultUpdate} {n : Nat} {r : VaultRow}
    (explains : (server S).Explains s) (did : Did i (.exec (.updateVault v u)) (.ok n) s)
    (before : s.before.vault? v = some r) (guard : u.guard r = true) :
    n = 1 ∧ s.after.vault? v = some (u.set r) := by
  rcases did_update explains did with ⟨one, r', found, -, after⟩ | ⟨rfl, -⟩
  · rw [before] at found
    cases found
    exact ⟨one, after⟩
  · obtain ⟨db, ran, -⟩ := did_exec explains did
    simp only [Stmt.run, Except.ok.injEq, Prod.mk.injEq] at ran
    have hit := (Db.updateVault_affected s.before.db v u).2 ⟨r, before, guard⟩
    rw [ran.2] at hit
    cases hit

/-- An INSERT that succeeds finds the id free. -/
theorem did_insertVault {r : VaultRow} {n : Nat} (explains : (server S).Explains s)
    (did : Did i (.exec (.insertVault r)) (.ok n) s) :
    s.before.vault? r.id = none ∧ s.after.vault? r.id = some r := by
  obtain ⟨db, ran, after⟩ := did_exec explains did
  have row := Stmt.vault?_run ran r.id
  rw [Stmt.onVault, if_pos rfl] at row
  refine ⟨?_, by rw [after]; exact row⟩
  simp only [Stmt.run, Db.insertVault] at ran
  split at ran
  · split at ran
    · cases ran
    · next vaults inserted => exact KeyedTable.find?_eq_none_of_insert? inserted
  · cases ran

theorem did_deleteVault {v : VaultId} {n : Nat} (explains : (server S).Explains s)
    (did : Did i (.exec (.deleteVault v)) (.ok n) s) : s.after.vault? v = none := by
  obtain ⟨db, ran, after⟩ := did_exec explains did
  have row := Stmt.vault?_run ran v
  rw [Stmt.onVault, if_pos rfl] at row
  rw [after]
  exact row

end Steps

/-- Time only moves forward. -/
theorem clock_le {S : Server} {s : SrvStep} (explains : (server S).Explains s) :
    s.before.clock ≤ s.after.clock := by
  unfold System.Explains at explains
  split at explains
  · next i e label =>
    obtain ⟨o, perform⟩ := explains
    have same := Action.perform_clock e.action o s.before
    have after : s.after = (Action.perform e.action o s.before).2 := (congrArg Prod.snd perform).symm
    rw [after, same]
  · next d label =>
    rw [explains]
    cases d with
    | pass n => exact Int.le_add_of_nonneg_right (Int.natCast_nonneg n)
    | chain coins => exact Int.le_refl _
    | contacts id c => exact Int.le_refl _
    | push subs => exact Int.le_refl _
  · rw [explains]; exact Int.le_refl _
  · rw [explains]

/-! ## §3 One step and one row -/

/-- The step ran the UPDATE `u` over the row of `v`, by itself or in the
transaction of a paid invoice. -/
inductive Applies (s : SrvStep) (v : VaultId) : VaultUpdate → Prop
  | exec {i : Nat} {u : VaultUpdate} {n : Nat}
      (did : Did i (.exec (.updateVault v u)) (.ok n) s) : Applies s v u
  | paid {i : Nat} {paymentHash : String} {t : Instant} {outcome : PaidOutcome}
      {inv : InvoiceRow} {paid r : VaultRow}
      (did : Did i (.payCheckin paymentHash t) (.ok outcome) s)
      (pending : s.before.db.invoicePending paymentHash = true)
      (issued : s.before.db.invoice? paymentHash = some inv)
      (here : s.before.vault? inv.vaultId = some paid) (row : s.before.vault? v = some r)
      (reached : Db.reset? paid t r = true) : Applies s v (clockReset r t)
  | panic {i : Nat} {paymentHash : String} {t : Instant} {frozen : Bool}
      (did : Did i (.payPanic paymentHash t) (.ok (.paid v frozen)) s) :
      Applies s v (.panicFreeze (t + seconds panicFreezeSecs))

/-- The step ran the UPDATE `u` over the row of `v`, and the row met its WHERE. -/
def Commits (s : SrvStep) (v : VaultId) (u : VaultUpdate) : Prop :=
  Applies s v u ∧ ∃ r, s.before.vault? v = some r ∧ u.guard r = true

/-- Everything a step may do to the row of one vault. -/
inductive RowChange (s : SrvStep) (v : VaultId) : Prop
  | kept (same : s.after.vault? v = s.before.vault? v)
  | contacts (r : VaultRow) (c : Contacts) (before : s.before.vault? v = some r)
      (after : s.after.vault? v = some { r with contacts := c })
  | inserted (i : Nat) (r : VaultRow) (n : Nat) (did : Did i (.exec (.insertVault r)) (.ok n) s)
      (id : r.id = v) (fresh : s.before.vault? v = none) (after : s.after.vault? v = some r)
  | deleted (i : Nat) (n : Nat) (did : Did i (.exec (.deleteVault v)) (.ok n) s)
      (after : s.after.vault? v = none)
  | applied (u : VaultUpdate) (r : VaultRow) (applies : Applies s v u)
      (before : s.before.vault? v = some r) (guard : u.guard r = true)
      (after : s.after.vault? v = some (u.set r))

section Rows

variable {S : Server} {s : SrvStep} {i : Nat} {v : VaultId}

theorem did_payCheckin {paymentHash : String} {t : Instant} {outcome : PaidOutcome}
    (explains : (server S).Explains s)
    (did : Did i (.payCheckin paymentHash t) (.ok outcome) s) :
    s.before.db.markPaidAndCheckinTx paymentHash t = (s.after.db, outcome) := by
  obtain ⟨o, answer, world⟩ := performed explains did
  simp only [Action.perform] at answer world
  split at answer
  · cases answer
  · next reliable =>
    simp only [reliable] at world
    rw [← world]
    cases answer
    rfl

theorem did_payPanic {paymentHash : String} {t : Instant} {outcome : PanicOutcome}
    (explains : (server S).Explains s)
    (did : Did i (.payPanic paymentHash t) (.ok outcome) s) :
    s.before.db.markPanicPaidTx paymentHash t = (s.after.db, outcome) := by
  obtain ⟨o, answer, world⟩ := performed explains did
  simp only [Action.perform] at answer world
  split at answer
  · cases answer
  · next reliable =>
    simp only [reliable] at world
    rw [← world]
    cases answer
    rfl

/-- An UPDATE that a step applied has taken effect, if its guard held. -/
theorem Applies.after {u : VaultUpdate} {r : VaultRow} (explains : (server S).Explains s)
    (applies : Applies s v u) (before : s.before.vault? v = some r) (guard : u.guard r = true) :
    s.after.vault? v = some (u.set r) := by
  cases applies with
  | exec did => exact (did_update_hit explains did before guard).2
  | paid did pending issued here row reached =>
    rw [before] at row
    cases row
    have tx := Db.vault?_markPaidAndCheckinTx ‹_› pending issued here v
    rw [did_payCheckin explains did] at tx
    rw [World.vault?, tx, show s.before.db.vault? v = some r from before]
    simp [reached, VaultUpdate.onRow, guard]
  | panic did =>
    have tx := did_payPanic explains did
    rcases Db.markPanicPaidTx_cases s.before.db _ _ with ⟨-, other⟩ | ⟨i, frozen, pending, issued, out⟩
    · exact absurd (congrArg Prod.snd tx) (other v _)
    · rw [tx] at out
      cases out
      have row := Db.vault?_markPanicPaidTx ‹_› pending issued i.vaultId
      rw [tx] at row
      rw [World.vault?, row, show s.before.db.vault? i.vaultId = some r from before]
      simp [VaultUpdate.onRow, guard]

/-- A step runs at most one UPDATE over a row. -/
theorem Applies.unique {u u' : VaultUpdate} (first : Applies s v u) (second : Applies s v u') :
    u = u' := by
  -- two labels of one step are the same label
  cases first with
  | exec did =>
    cases second with
    | exec did' =>
      have label := did.symm.trans did'
      cases label
      rfl
    | paid did' | panic did' =>
      have label := did.symm.trans did'
      cases label
  | paid did pending issued here row reached =>
    cases second with
    | paid did' pending' issued' here' row' reached' =>
      have label := did.symm.trans did'
      cases label
      rw [row] at row'
      cases row'
      rfl
    | exec did' | panic did' =>
      have label := did.symm.trans did'
      cases label
  | panic did =>
    cases second with
    | panic did' =>
      have label := did.symm.trans did'
      cases label
      rfl
    | exec did' | paid did' =>
      have label := did.symm.trans did'
      cases label

/-- What a single UPDATE leaves of a row it may or may not have hit. -/
private theorem rowChange_onRow {u : VaultUpdate} (applies : Applies s v u)
    (after : s.after.vault? v = (s.before.vault? v).map u.onRow) : RowChange s v := by
  cases before : s.before.vault? v with
  | none => exact .kept (by rw [after, before]; rfl)
  | some r =>
    rw [before, Option.map_some, VaultUpdate.onRow] at after
    split at after
    · next guard => exact .applied u r applies before guard after
    · exact .kept (by rw [after, before])

private theorem rowChange_exec {st : Stmt} {n : Nat} (explains : (server S).Explains s)
    (did : Did i (.exec st) (.ok n) s) (v : VaultId) : RowChange s v := by
  obtain ⟨db, ran, after⟩ := did_exec explains did
  have row : s.after.vault? v = st.onVault v (s.before.vault? v) := by
    rw [after]
    exact Stmt.vault?_run ran v
  cases st with
  | updateVault id u =>
    by_cases same : v = id
    · subst same
      refine rowChange_onRow (.exec did) ?_
      rw [row, Stmt.onVault]
      simp
    · refine .kept ?_
      rw [row, Stmt.onVault]
      simp [same]
  | insertVault r =>
    by_cases same : v = r.id
    · subst same
      obtain ⟨fresh, inserted⟩ := did_insertVault explains did
      exact .inserted i r n did rfl fresh inserted
    · exact .kept (by rw [row, Stmt.onVault, if_neg same])
  | deleteVault id =>
    by_cases same : v = id
    · subst same
      exact .deleted i n did (did_deleteVault explains did)
    · exact .kept (by rw [row, Stmt.onVault, if_neg same])
  | _ => exact .kept row

/-- The two paid-invoice transactions. -/
private theorem rowChange_payCheckin {paymentHash : String} {t : Instant} {outcome : PaidOutcome}
    (explains : (server S).Explains s) (did : Did i (.payCheckin paymentHash t) (.ok outcome) s)
    (v : VaultId) : RowChange s v := by
  have tx := did_payCheckin explains did
  rcases Db.markPaidAndCheckinTx_cases s.before.db paymentHash t with
    same | ⟨inv, paid, pending, issued, here⟩
  · rw [tx] at same
    change s.after.db = s.before.db at same
    exact .kept (by rw [World.vault?, same]; rfl)
  · have row := Db.vault?_markPaidAndCheckinTx t pending issued here v
    rw [tx] at row
    cases before : s.before.db.vault? v with
    | none => exact .kept (by rw [World.vault?, row, before]; exact before.symm)
    | some r =>
      rw [before, Option.map_some] at row
      split at row
      · next reached =>
        refine rowChange_onRow (.paid did pending issued here before reached) ?_
        rw [World.vault?, row, World.vault?, before]
        rfl
      · exact .kept (by rw [World.vault?, row]; exact before.symm)

private theorem rowChange_payPanic {paymentHash : String} {t : Instant} {outcome : PanicOutcome}
    (explains : (server S).Explains s) (did : Did i (.payPanic paymentHash t) (.ok outcome) s)
    (v : VaultId) : RowChange s v := by
  have tx := did_payPanic explains did
  rcases Db.markPanicPaidTx_cases s.before.db paymentHash t with
    ⟨same, -⟩ | ⟨inv, frozen, pending, issued, out⟩
  · rw [tx] at same
    change s.after.db = s.before.db at same
    exact .kept (by rw [World.vault?, same]; rfl)
  · rw [tx] at out
    cases out
    have row := Db.vault?_markPanicPaidTx t pending issued v
    rw [tx] at row
    by_cases same : v = inv.vaultId
    · subst same
      refine rowChange_onRow (.panic did) ?_
      rw [World.vault?, row]
      simp [World.vault?]
    · refine .kept ?_
      rw [World.vault?, row]
      simp [same, World.vault?]

private theorem rowChange_drift {d : Drift} (after : s.after = d.apply s.before) (v : VaultId) :
    RowChange s v := by
  cases d with
  | pass n => exact .kept (by rw [after]; rfl)
  | chain coins => exact .kept (by rw [after]; rfl)
  | push subs => exact .kept (by rw [after]; rfl)
  | contacts id c =>
    have row : s.after.vault? v =
        (s.before.vault? v).map fun r => if r.id = id then { r with contacts := c } else r := by
      rw [after, World.vault?]
      simp [Drift.apply, Db.vault?_updateVaults, World.vault?]
    cases before : s.before.vault? v with
    | none => exact .kept (by rw [row, before]; rfl)
    | some r =>
      rw [before, Option.map_some] at row
      split at row
      · exact .contacts r c before row
      · exact .kept (by rw [row, before])

/-- What one step of a run may do to the row of one vault. -/
theorem rowChange (explains : (server S).Explains s) (v : VaultId) : RowChange s v := by
  have whole := explains
  unfold System.Explains at whole
  split at whole
  · next i e label =>
    obtain ⟨a, r⟩ := e
    have did : Did i a r s := label
    obtain ⟨o, answer, world⟩ := performed explains did
    cases a with
    | exec st =>
      cases r with
      | ok n => exact rowChange_exec explains did v
      | error e => exact .kept (by rw [← world, Action.perform_exec_error answer])
    | payCheckin paymentHash t =>
      cases r with
      | ok outcome => exact rowChange_payCheckin explains did v
      | error e => exact .kept (by rw [← world, Action.perform_payCheckin_error answer])
    | payPanic paymentHash t =>
      cases r with
      | ok outcome => exact rowChange_payPanic explains did v
      | error e => exact .kept (by rw [← world, Action.perform_payPanic_error answer])
    | ask x =>
      refine .kept ?_
      rw [← world]
      change (x.effect (o.answer x) s.before).vault? v = _
      unfold External.effect
      split <;> rfl
    | _ => exact .kept (by rw [← world]; rfl)
  · next d label => exact rowChange_drift whole v
  · exact .kept (by rw [whole]; rfl)
  · exact .kept (by rw [whole])

end Rows

end GhostKey

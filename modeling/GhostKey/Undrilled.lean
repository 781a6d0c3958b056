import GhostKey.Conduct.Tidy

/-!
# Without the Entries of Practice

Practice runs share the feed and the queue with the server. The server's own handlers make
no entry of a practice kind and ask for none: what they do and are answered in a world with
such entries is what they do and are answered without them.
-/

namespace GhostKey

open Foundation Program

/-! ## §1 The server's own actions -/

/-- Not an entry of practice. -/
def Action.isOwn : Action → Bool
  | exec (.insertEvent e) => !e.kind.isDrill
  | exec (.insertNotification n) => !n.kind.isDrill
  | _ => true

theorem isOwn_of_tame {a : Action} (tame : a.isTame = true) : a.isOwn = true := by
  cases a with
  | exec st =>
    cases st with
    | insertEvent e => exact tame
    | insertNotification n => exact congrArg Bool.not (NotificationKind.own_of_tame tame)
    | _ => rfl
  | _ => rfl

/-- The server's own handlers make no entry of practice. -/
theorem isOwn_of_entitled {S : Server} {q : Request} {h : Hist} {a : Action}
    (entitled : Entitled S q h a) : a.isOwn = true := by
  rcases entitled with tame | ⟨v, token, t, g, rfl, -⟩ | ⟨-, tick⟩ | ⟨-, guardian⟩
  · exact isOwn_of_tame tame
  · rfl
  · cases a with
    | exec st =>
      cases st with
      | insertEvent e => exact tick
      | insertNotification n => exact tick
      | _ => rfl
    | _ => rfl
  · cases a with
    | exec st =>
      cases st with
      | insertGuardian g => rfl
      | _ => exact isOwn_of_tame guardian
    | _ => rfl

/-! ## §2 Statements and queries -/

namespace Db

/-- Without the entries of practice. -/
def undrilled (db : Db) : Db :=
  { db with
    events := db.events.filter fun e => !e.kind.isDrill
    notifications := db.notifications.filter fun n => !n.kind.isDrill }

@[simp] theorem undrilled_vaults (db : Db) : db.undrilled.vaults = db.vaults := rfl

@[simp] theorem undrilled_guardians (db : Db) : db.undrilled.guardians = db.guardians := rfl

@[simp] theorem undrilled_invoices (db : Db) : db.undrilled.invoices = db.invoices := rfl

@[simp] theorem undrilled_deposits (db : Db) : db.undrilled.deposits = db.deposits := rfl

@[simp] theorem undrilled_vault? (db : Db) (id : VaultId) :
    db.undrilled.vault? id = db.vault? id := rfl

@[simp] theorem undrilled_invoice? (db : Db) (paymentHash : String) :
    db.undrilled.invoice? paymentHash = db.invoice? paymentHash := rfl

@[simp] theorem undrilled_invoicePending (db : Db) (paymentHash : String) :
    db.undrilled.invoicePending paymentHash = db.invoicePending paymentHash := rfl

@[simp] theorem undrilled_affected (db : Db) (id : VaultId) (u : VaultUpdate) :
    db.undrilled.affected id u = db.affected id u := rfl

theorem undrilled_updateVault (db : Db) (id : VaultId) (u : VaultUpdate) :
    (db.updateVault id u).undrilled = db.undrilled.updateVault id u := rfl

theorem undrilled_markInvoicePaid (db : Db) (paymentHash : String) (now : Instant) :
    (db.markInvoicePaid paymentHash now).undrilled =
      db.undrilled.markInvoicePaid paymentHash now := rfl

@[simp] theorem undrilled_hasVault (db : Db) (id : VaultId) :
    db.undrilled.hasVault id = db.hasVault id := rfl

theorem undrilled_insertEvent (db : Db) {e : EventRow} (own : e.kind.isDrill = false) :
    ({ db with events := db.events ++ [e] } : Db).undrilled =
      { db.undrilled with events := db.undrilled.events ++ [e] } := by
  simp [undrilled, own]

theorem undrilled_insertNotification (db : Db) {n : NotificationRow}
    (own : n.kind.isDrill = false) :
    ({ db with notifications := db.notifications ++ [n] } : Db).undrilled =
      { db.undrilled with notifications := db.undrilled.notifications ++ [n] } := by
  simp [undrilled, own]

theorem undrilled_deleteVault (db : Db) (id : VaultId) :
    db.undrilled.deleteVault id = (db.deleteVault id).undrilled := by
  simp only [undrilled, deleteVault, List.filter_filter, Bool.and_comm]

end Db

/-- A statement that makes no entry of practice runs as if there were none. -/
theorem Stmt.run_undrilled {st : Stmt} (own : (Action.exec st).isOwn = true) (db : Db) :
    st.run db.undrilled = (st.run db).map fun r => (r.1.undrilled, r.2) := by
  -- the guards read the other tables
  cases st with
  | insertVault r =>
    by_cases fresh : (db.vaults.select fun x =>
        x.settings.descriptorExternal = r.settings.descriptorExternal).isEmpty = true
    · cases found : db.vaults.insert? r <;> simp [run, Db.insertVault, fresh, found, Except.map]
      rfl
    · simp [run, Db.insertVault, fresh, Except.map]
  | insertGuardian g =>
    by_cases here : db.hasVault g.vaultId = true
    · cases found : db.guardians.insert? g <;> simp [run, here, found, Except.map]
      rfl
    · simp [run, here, Except.map]
  | deleteVault id => exact congrArg Except.ok (Prod.ext (db.undrilled_deleteVault id) rfl)
  | insertEvent e =>
    have entry := db.undrilled_insertEvent (Bool.not_eq_true' _ ▸ own)
    by_cases here : db.hasVault e.vaultId = true
    · simp [run, here, Except.map, entry]
    · simp [run, here, Except.map]
  | insertNotification n =>
    have entry := db.undrilled_insertNotification (Bool.not_eq_true' _ ▸ own)
    by_cases here : db.hasVault n.vaultId = true
    · simp [run, here, Except.map, entry]
    · simp [run, here, Except.map]
  | insertInvoice i =>
    by_cases here : db.hasVault i.vaultId = true
    · by_cases fresh : (db.invoices.select fun x => x.bolt11 = i.bolt11).isEmpty = true
      · cases found : db.invoices.insert? i <;> simp [run, here, fresh, found, Except.map]
        rfl
      · simp [run, here, fresh, Except.map]
    · simp [run, here, Except.map]
  | insertDeposit d =>
    cases found : db.deposits.insert? d <;> simp [run, found, Except.map]
    rfl
  | _ => rfl

/-- No query reads an entry of practice. -/
theorem Query.eval_undrilled (q : Query) (db : Db) : q.eval db.undrilled = q.eval db := by
  have own : ∀ {p : EventRow → Bool}, (∀ e, p e = true → e.kind.isDrill = false) →
      ∀ e : EventRow, (p e && !e.kind.isDrill) = p e := fun {p} asks e => by
    cases asked : p e with
    | false => rfl
    | true => rw [asks e asked]; rfl
  have reads : ∀ {p : EventRow → Bool}, (∀ e, p e = true → e.kind.isDrill = false) →
      db.undrilled.events.filter p = db.events.filter p := fun asks => by
    rw [Db.undrilled, List.filter_filter]
    exact List.filter_congr fun e _ => own asks e
  -- the three that read the feed ask for kinds of the server's own
  cases q with
  | activationHeld id =>
    refine congrArg Except.ok ?_
    rw [Db.undrilled, List.any_filter]
    refine congrArg db.events.any (funext fun e => ?_)
    rw [Bool.and_comm]
    refine own (p := fun e => e.vaultId = id ∧ e.kind = .activationHeld) (fun e asked => ?_) e
    rw [(of_decide_eq_true asked).2]
    rfl
  | latestClaimBroadcast id =>
    refine congrArg (fun l => Except.ok (List.getLast? l)) (reads fun e asked => ?_)
    rw [(of_decide_eq_true asked).2]
    rfl
  | lastServerSpend id =>
    refine congrArg (fun l => Except.ok (List.max? (l.map EventRow.createdAt)))
      (reads fun e asked => ?_)
    rcases (of_decide_eq_true asked).2 with kind | kind
    · rw [kind]; rfl
    · rw [kind]; rfl
  | _ => rfl

/-! ## §3 Actions -/

namespace Db

theorem resetPaid_undrilled (now : Instant) (db : Db) (paid : VaultRow) :
    resetPaid now db.undrilled paid =
      ((resetPaid now db paid).1.undrilled, (resetPaid now db paid).2) := by
  unfold resetPaid
  split <;> rfl

theorem foldl_resetSibling_undrilled (now : Instant) (sibs : List VaultRow) :
    ∀ (db : Db) (ids : List VaultId), sibs.foldl (resetSibling now) (db.undrilled, ids) =
      ((sibs.foldl (resetSibling now) (db, ids)).1.undrilled,
        (sibs.foldl (resetSibling now) (db, ids)).2) := by
  induction sibs with
  | nil => exact fun db ids => rfl
  | cons s sibs ih =>
    intro db ids
    simp only [List.foldl_cons]
    have once : resetSibling now (db.undrilled, ids) s =
        ((resetSibling now (db, ids) s).1.undrilled, (resetSibling now (db, ids) s).2) := by
      unfold resetSibling
      split <;> rfl
    rw [once]
    exact ih _ _

theorem markPaidAndCheckinTx_undrilled (db : Db) (paymentHash : String) (now : Instant) :
    db.undrilled.markPaidAndCheckinTx paymentHash now =
      ((db.markPaidAndCheckinTx paymentHash now).1.undrilled,
        (db.markPaidAndCheckinTx paymentHash now).2) := by
  cases pending : db.invoicePending paymentHash with
  | false => simp [markPaidAndCheckinTx, pending]
  | true =>
    cases found : (db.invoice? paymentHash).bind fun i => db.vault? i.vaultId with
    | none => simp [markPaidAndCheckinTx, pending, ← undrilled_markInvoicePaid, found]
    | some paid =>
      simp [markPaidAndCheckinTx, pending, ← undrilled_markInvoicePaid, found,
        resetPaid_undrilled, foldl_resetSibling_undrilled]

theorem markPanicPaidTx_undrilled (db : Db) (paymentHash : String) (now : Instant) :
    db.undrilled.markPanicPaidTx paymentHash now =
      ((db.markPanicPaidTx paymentHash now).1.undrilled,
        (db.markPanicPaidTx paymentHash now).2) := by
  cases pending : db.invoicePending paymentHash with
  | false => simp [markPanicPaidTx, pending]
  | true =>
    cases found : db.invoice? paymentHash with
    | none => simp [markPanicPaidTx, pending, found]
    | some i =>
      simp [markPanicPaidTx, pending, found, ← undrilled_markInvoicePaid, undrilled_updateVault]

end Db

/-- What the server knows of the world. -/
def World.undrilled (w : World) : World := { w with db := w.db.undrilled }

/-- An action of the server's own sees no entry of practice, and makes none. -/
theorem Action.perform_undrilled {a : Action} (own : a.isOwn = true) (o : Oracle) (w : World) :
    a.perform o w.undrilled = ((a.perform o w).1, (a.perform o w).2.undrilled) := by
  cases a with
  | query q =>
    simp only [perform, World.undrilled, Query.eval_undrilled]
  | exec st =>
    have ran := Stmt.run_undrilled own w.db
    cases fails : o.dbFails with
    | true => simp [perform, fails]
    | false =>
      cases found : st.run w.db with
      | ok r =>
        rw [found] at ran
        simp [perform, fails, World.undrilled, ran, found, Except.map]
      | error e =>
        rw [found] at ran
        simp [perform, fails, World.undrilled, ran, found, Except.map]
  | payCheckin paymentHash t =>
    have paid := w.db.markPaidAndCheckinTx_undrilled paymentHash t
    cases fails : o.dbFails <;> simp [perform, fails, World.undrilled, paid]
  | payPanic paymentHash t =>
    have paid := w.db.markPanicPaidTx_undrilled paymentHash t
    cases fails : o.dbFails <;> simp [perform, fails, World.undrilled, paid]
  | ask x =>
    refine Prod.ext rfl ?_
    change x.effect _ _ = (x.effect _ _).undrilled
    unfold External.effect
    split <;> rfl
  | _ => rfl

end GhostKey

import GhostKey.Statements
import Mathlib.Data.List.Sort

/-!
# Statements and Queries

The whole vocabulary of the handlers towards the database: `Stmt` for what
writes, `Query` for what reads, each with the source's WHERE and ORDER BY. A
statement either fails and changes nothing, or runs and reports the rows it
affected.

Main results:
- `Stmt.vault?_run`: what one statement does to the row of one vault, as
  `Stmt.onVault` says.
-/

namespace GhostKey

open Foundation

/-! ## §1 Statements -/

inductive Stmt where
  | updateVault (id : VaultId) (u : VaultUpdate)
  | insertVault (r : VaultRow)
  | insertGuardian (g : GuardianRow)
  | deleteVault (id : VaultId)
  | insertEvent (e : EventRow)
  | insertNotification (n : NotificationRow)
  | insertInvoice (i : InvoiceRow)
  | expireInvoices (now : Instant)
  | invoicePolled (paymentHash : String) (now : Instant)
  | invoiceExpired (paymentHash : String)
  | invoiceFailed (paymentHash : String) (reason : String)
  | insertDeposit (d : DepositRow)
  | stampDepositSpent (vaultId : VaultId) (outpoint : String) (now : Instant)

namespace Db

def hasVault (db : Db) (id : VaultId) : Bool := (db.vault? id).isSome

/-- `DELETE FROM vaults WHERE id = ?` with its cascades; deposits have no foreign
key and stay. -/
def deleteVault (db : Db) (id : VaultId) : Db :=
  { db with
    vaults := db.vaults.delete fun r => r.id = id
    guardians := db.guardians.delete fun g => g.vaultId = id
    invoices := db.invoices.delete fun i => i.vaultId = id
    events := db.events.filter fun e => e.vaultId ≠ id
    notifications := db.notifications.filter fun n => n.vaultId ≠ id
    pushSubscriptions := db.pushSubscriptions.filter fun p => p.vaultId ≠ id }

theorem vault?_deleteVault (db : Db) (id k : VaultId) :
    (db.deleteVault id).vault? k = if k = id then none else db.vault? k := by
  have read : (db.deleteVault id).vault? k = (db.vault? k).filter fun r => !decide (r.id = id) :=
    KeyedTable.find?_delete db.vaults _ k
  rw [read]
  cases found : db.vault? k with
  | none => simp
  | some r =>
    have hk : r.id = k := vault?_id found
    by_cases same : k = id <;> simp [Option.filter, hk, same]

/-- `INSERT INTO vaults`; the id and the external descriptor are unique. -/
def insertVault (db : Db) (r : VaultRow) : Except DbError (Db × Nat) :=
  if (db.vaults.select fun x =>
      x.settings.descriptorExternal = r.settings.descriptorExternal).isEmpty then
    match db.vaults.insert? r with
    | none => .error .uniqueViolation
    | some vaults => .ok ({ db with vaults := vaults }, 1)
  else .error .uniqueViolation

end Db

/-- Run one statement: the new database and the rows affected. -/
def Stmt.run : Stmt → Db → Except DbError (Db × Nat)
  | .updateVault id u, db => .ok (db.updateVault id u, db.affected id u)
  | .insertVault r, db => db.insertVault r
  | .insertGuardian g, db =>
      if db.hasVault g.vaultId then
        match db.guardians.insert? g with
        | none => .error .uniqueViolation
        | some guardians => .ok ({ db with guardians := guardians }, 1)
      else .error .foreignKeyViolation
  | .deleteVault id, db => .ok (db.deleteVault id, db.vaults.affected fun r => r.id = id)
  | .insertEvent e, db =>
      if db.hasVault e.vaultId then .ok ({ db with events := db.events ++ [e] }, 1)
      else .error .foreignKeyViolation
  | .insertNotification n, db =>
      if db.hasVault n.vaultId then .ok ({ db with notifications := db.notifications ++ [n] }, 1)
      else .error .foreignKeyViolation
  | .insertInvoice i, db =>
      if db.hasVault i.vaultId then
        if (db.invoices.select fun x => x.bolt11 = i.bolt11).isEmpty then
          match db.invoices.insert? i with
          | none => .error .uniqueViolation
          | some invoices => .ok ({ db with invoices := invoices }, 1)
        else .error .uniqueViolation
      else .error .foreignKeyViolation
  | .expireInvoices now, db =>
      .ok (db.updateInvoices (fun i => decide (i.status = .pending) && decide (i.expiresAt ≤ now))
          (fun i => { i with status := .expired }) fun _ => rfl,
        db.invoices.affected fun i => decide (i.status = .pending) && decide (i.expiresAt ≤ now))
  | .invoicePolled paymentHash now, db =>
      .ok (db.updateInvoices (fun i => i.paymentHash = paymentHash)
          (fun i => { i with lastPolledAt := some now }) fun _ => rfl,
        db.invoices.affected fun i => i.paymentHash = paymentHash)
  | .invoiceExpired paymentHash, db =>
      .ok (db.updateInvoices (fun i => i.paymentHash = paymentHash)
          (fun i => { i with status := .expired }) fun _ => rfl,
        db.invoices.affected fun i => i.paymentHash = paymentHash)
  | .invoiceFailed paymentHash reason, db =>
      .ok (db.updateInvoices (fun i => i.paymentHash = paymentHash)
          (fun i => { i with status := .failed, lastError := some reason }) fun _ => rfl,
        db.invoices.affected fun i => i.paymentHash = paymentHash)
  | .insertDeposit d, db =>
      -- INSERT OR IGNORE: a known outpoint is not an error
      match db.deposits.insert? d with
      | none => .ok (db, 0)
      | some deposits => .ok ({ db with deposits := deposits }, 1)
  | .stampDepositSpent vaultId outpoint now, db =>
      let hit := fun d : DepositRow =>
        decide (d.key = (vaultId, outpoint)) && decide (d.spentAt = none)
      .ok ({ db with
          deposits := db.deposits.update hit (fun d => { d with spentAt := some now })
            fun _ => rfl },
        db.deposits.affected hit)

/-- What a statement that succeeds leaves of the row of the vault `k`. -/
def Stmt.onVault (k : VaultId) : Stmt → Option VaultRow → Option VaultRow
  | .updateVault id u, row => row.map fun r => if k = id then u.onRow r else r
  | .insertVault r, row => if k = r.id then some r else row
  | .deleteVault id, row => if k = id then none else row
  | _, row => row

theorem Stmt.vault?_run {s : Stmt} {db db' : Db} {n : Nat} (h : s.run db = .ok (db', n))
    (k : VaultId) : db'.vault? k = s.onVault k (db.vault? k) := by
  -- one case per statement; only the first three reach `vaults`
  cases s with
  | updateVault id u =>
    simp only [run, Except.ok.injEq, Prod.mk.injEq] at h
    rw [← h.1, Db.vault?_updateVault, onVault]
  | insertVault r =>
    simp only [run, Db.insertVault] at h
    split at h
    · split at h
      · cases h
      · next vaults inserted =>
        simp only [Except.ok.injEq, Prod.mk.injEq] at h
        rw [← h.1]
        exact KeyedTable.find?_insert? inserted k
    · cases h
  | deleteVault id =>
    simp only [run, Except.ok.injEq, Prod.mk.injEq] at h
    rw [← h.1, Db.vault?_deleteVault, onVault]
  | insertGuardian g =>
    simp only [run] at h
    split at h
    · split at h
      · cases h
      · cases h; rfl
    · cases h
  | insertEvent e => simp only [run] at h; split at h <;> cases h; rfl
  | insertNotification e => simp only [run] at h; split at h <;> cases h; rfl
  | insertInvoice i =>
    simp only [run] at h
    split at h
    · split at h
      · split at h
        · cases h
        · cases h; rfl
      · cases h
    · cases h
  | expireInvoices now => cases h; rfl
  | invoicePolled paymentHash now => cases h; rfl
  | invoiceExpired paymentHash => cases h; rfl
  | invoiceFailed paymentHash reason => cases h; rfl
  | insertDeposit d =>
    simp only [run] at h
    split at h <;> cases h <;> rfl
  | stampDepositSpent vaultId outpoint now => cases h; rfl

/-! ## §2 Queries -/

inductive Query where
  | vault (id : VaultId)
  | vaultByCheckinLink (id : VaultId) (hash : Hash)
  | vaultByClaimToken (hash : Hash)
  | guardianByClaimToken (hash : Hash)
  | guardians (id : VaultId)
  | conflictingOwnerEmail (hash : Hash) (ownerXpub : String)
  | verifiedSibling (hash : Hash) (ownerXpub : String) (id : VaultId)
  | pushSubscriptionCount (id : VaultId)
  | activationHeld (id : VaultId)
  | latestClaimBroadcast (id : VaultId)
  | expiredPanics (now : Instant)
  | unfundedVaults
  | okVaultsWithDeposit
  | neverFundedVaults
  | preDeadlineDue (now windowEnd : Instant)
  | deadlineMissed (now : Instant)
  | escalationDue (now cutoff : Instant)
  | claimEligible (now : Instant)
  | claimReady
  | pendingInvoices
  | reusableInvoice (id : VaultId) (type : InvoiceType) (now : Instant)
  | invoice (paymentHash : String)
  | depositCount (id : VaultId)
  | unspentDeposits (id : VaultId)
  | lastServerSpend (id : VaultId)

def Query.Result : Query → Type
  | .vault _ => Option VaultRow
  | .vaultByCheckinLink _ _ => Option VaultRow
  | .vaultByClaimToken _ => Option VaultRow
  | .guardianByClaimToken _ => Option (GuardianRow × VaultRow)
  | .guardians _ => List GuardianRow
  | .conflictingOwnerEmail _ _ => Bool
  | .verifiedSibling _ _ _ => Bool
  | .pushSubscriptionCount _ => Nat
  | .activationHeld _ => Bool
  | .latestClaimBroadcast _ => Option EventRow
  | .expiredPanics _ => List VaultRow
  | .unfundedVaults => List VaultRow
  | .okVaultsWithDeposit => List VaultRow
  | .neverFundedVaults => List VaultRow
  | .preDeadlineDue _ _ => List VaultRow
  | .deadlineMissed _ => List (VaultRow × Instant)
  | .escalationDue _ _ => List (VaultRow × Instant)
  | .claimEligible _ => List VaultRow
  | .claimReady => List (VaultRow × Instant)
  | .pendingInvoices => List InvoiceRow
  | .reusableInvoice _ _ _ => Option InvoiceRow
  | .invoice _ => Option InvoiceRow
  | .depositCount _ => Nat
  | .unspentDeposits _ => List DepositRow
  | .lastServerSpend _ => Option Instant

namespace Db

/-- The WHERE clause of `transition_ok_to_alarmed`. -/
def deadlineMissed (now : Instant) (r : VaultRow) : Bool :=
  r.life.status = .ok ∧ r.life.nextDeadlineAt ≤ now

/-- The WHERE clause of `transition_alarmed_to_claimable`. -/
def claimEligible (now : Instant) (r : VaultRow) : Bool :=
  r.life.status = .alarmed ∧ r.life.claimEligibleAt.any (· ≤ now) ∧
    (r.life.claimTokenHash = none ∨ r.keys.claimTokenAtRest ≠ none)

/-- Decode a nullable column as non-null in every row of a batch; one NULL fails
the whole read. -/
def decodeColumn (column : VaultRow → Option Instant) :
    List VaultRow → Except DbError (List (VaultRow × Instant))
  | [] => .ok []
  | r :: rows =>
      match column r, decodeColumn column rows with
      | some t, .ok rest => .ok ((r, t) :: rest)
      | _, _ => .error .columnDecode

theorem mem_decodeColumn {column : VaultRow → Option Instant} {d : VaultRow × Instant} :
    ∀ {rows : List VaultRow} {out : List (VaultRow × Instant)},
      decodeColumn column rows = .ok out → d ∈ out → d.1 ∈ rows ∧ column d.1 = some d.2
  | [], _, decoded, mem => by
    cases decoded
    cases mem
  | r :: rows, out, decoded, mem => by
    unfold decodeColumn at decoded
    split at decoded
    · next t rest here tail =>
      cases decoded
      rcases List.mem_cons.1 mem with rfl | mem
      · exact ⟨List.mem_cons_self, here⟩
      · obtain ⟨row, value⟩ := mem_decodeColumn tail mem
        exact ⟨List.mem_cons_of_mem r row, value⟩
    · cases decoded

/-- Decoding keeps the rows and their order. -/
theorem map_decodeColumn {column : VaultRow → Option Instant} :
    ∀ {rows : List VaultRow} {out : List (VaultRow × Instant)},
      decodeColumn column rows = .ok out → out.map Prod.fst = rows
  | [], _, decoded => by
    cases decoded
    rfl
  | r :: rows, out, decoded => by
    unfold decodeColumn at decoded
    split at decoded
    · next t rest here tail =>
      cases decoded
      rw [List.map_cons, map_decodeColumn tail]
    · cases decoded

def hasDeposit (db : Db) (id : VaultId) : Bool := db.deposits.rows.any fun d => d.vaultId = id

def hasPush (db : Db) (id : VaultId) : Bool := db.pushSubscriptions.any fun p => p.vaultId = id

/-- `ORDER BY COALESCE(last_polled_at, created_at)`. -/
def polledBefore (a b : InvoiceRow) : Prop :=
  a.lastPolledAt.getD a.createdAt ≤ b.lastPolledAt.getD b.createdAt

instance : DecidableRel polledBefore := fun a b =>
  inferInstanceAs (Decidable (a.lastPolledAt.getD a.createdAt ≤ b.lastPolledAt.getD b.createdAt))

end Db

/-- Read without changing anything. -/
def Query.eval : (q : Query) → Db → Except DbError q.Result
  | .vault id, db => .ok (db.vault? id)
  | .vaultByCheckinLink id hash, db =>
      .ok ((db.vault? id).filter fun r => r.life.checkinLinkTokenHash = some hash)
  | .vaultByClaimToken hash, db =>
      .ok (db.vaults.rows.find? fun r => r.life.claimTokenHash = some hash)
  | .guardianByClaimToken hash, db =>
      .ok ((db.guardians.rows.filterMap fun g =>
        if g.claimTokenHash = some hash then (db.vault? g.vaultId).map (g, ·) else none).head?)
  | .guardians id, db =>
      .ok ((db.guardians.select fun g => g.vaultId = id).insertionSort fun a b => a.slot ≤ b.slot)
  | .conflictingOwnerEmail hash ownerXpub, db =>
      .ok (db.vaults.rows.any fun r =>
        r.settings.ownerEmailHash = some hash ∧ r.life.status ≠ .claimed ∧
          r.contacts.ownerContactVerifiedAt ≠ none ∧
          r.settings.ownerXpubFragmentExternal ≠ some ownerXpub)
  | .verifiedSibling hash ownerXpub id, db =>
      .ok (db.vaults.rows.any fun r =>
        r.settings.ownerEmailHash = some hash ∧ r.contacts.ownerContactVerifiedAt ≠ none ∧
          r.settings.ownerXpubFragmentExternal = some ownerXpub ∧ r.id ≠ id)
  | .pushSubscriptionCount id, db => .ok (db.pushSubscriptions.countP fun p => p.vaultId = id)
  | .activationHeld id, db =>
      .ok (db.events.any fun e => e.vaultId = id ∧ e.kind = .activationHeld)
  | .latestClaimBroadcast id, db =>
      .ok ((db.events.filter fun e => e.vaultId = id ∧ e.kind = .claimBroadcast).getLast?)
  | .expiredPanics now, db =>
      .ok (db.vaults.select fun r =>
        r.life.status = .frozen ∧ r.life.panicFrozenUntil.any (· ≤ now))
  | .unfundedVaults, db => .ok (db.vaults.select fun r => r.life.status = .unfunded)
  | .okVaultsWithDeposit, db =>
      .ok (db.vaults.select fun r => r.life.status = .ok ∧ db.hasDeposit r.id)
  | .neverFundedVaults, db =>
      .ok (db.vaults.select fun r =>
        (r.life.status = .ok ∨ r.life.status = .alarmed) ∧ ¬ db.hasDeposit r.id)
  | .preDeadlineDue now windowEnd, db =>
      .ok (db.vaults.select fun r =>
        r.life.status = .ok ∧ now < r.life.nextDeadlineAt ∧ r.life.nextDeadlineAt ≤ windowEnd ∧
          r.life.preDeadlineReminderSentAt = none ∧
          (r.contacts.owner.ciphertext ≠ none ∨ db.hasPush r.id))
  | .deadlineMissed now, db =>
      Db.decodeColumn (fun r => r.life.claimEligibleAt) (db.vaults.select (Db.deadlineMissed now))
  | .escalationDue now cutoff, db =>
      Db.decodeColumn (fun r => r.life.claimEligibleAt) (db.vaults.select fun r =>
        r.life.status = .alarmed ∧ r.life.claimEligibleAt.any (now < ·) ∧
          r.contacts.owner.ciphertext ≠ none ∧
          (r.life.lastAlarmReminderSentAt = none ∨ r.life.lastAlarmReminderSentAt.any (· ≤ cutoff)))
  | .claimEligible now, db => .ok (db.vaults.select (Db.claimEligible now))
  | .claimReady, db =>
      Db.decodeColumn (fun r => r.life.claimOpenedAt) (db.vaults.select fun r =>
        r.life.claimOpenedAt ≠ none ∧ r.life.claimReadyNotifiedAt = none ∧
          r.life.claimTokenHash ≠ none ∧ r.life.claimTokenUsedAt = none)
  | .pendingInvoices, db =>
      .ok (((db.invoices.select fun i => i.status = .pending).insertionSort Db.polledBefore).take 32)
  | .reusableInvoice id type now, db =>
      .ok (((db.invoices.select fun i =>
        i.vaultId = id ∧ i.invoiceType = type ∧ i.status = .pending ∧
          now < i.expiresAt).insertionSort fun a b => b.createdAt ≤ a.createdAt).head?)
  | .invoice paymentHash, db => .ok (db.invoice? paymentHash)
  | .depositCount id, db => .ok (db.deposits.affected fun d => d.vaultId = id)
  | .unspentDeposits id, db =>
      .ok (db.deposits.select fun d => d.vaultId = id ∧ d.spentAt = none)
  | .lastServerSpend id, db =>
      .ok ((db.events.filter fun e =>
        e.vaultId = id ∧ (e.kind = .ownerSend ∨ e.kind = .claimBroadcast)).map EventRow.createdAt).max?

end GhostKey

import GhostKey.Server

/-!
# The SQL Statements

Every statement the modelled handlers run against `vaults` is a `VaultUpdate`:
the rest of its WHERE clause beside `id = ?` is `VaultUpdate.guard`, its SET list
is `VaultUpdate.set`. Read queries and the writes to the other tables follow.

A statement is atomic. So is a transaction: the one-tap check-in commits its two
updates together and is a single `VaultUpdate`, and the two paid-invoice
transactions are `markPaidAndCheckinTx` and `markPanicPaidTx`.

Main results:
- `vault?_updateVault`: what an update does to each row.
- `updateVault_affected`: when the compare-and-swap of a statement succeeds.
- `vault?_markPaidAndCheckinTx`, `vault?_markPanicPaidTx`: what a paid invoice
  does to each row.
-/

namespace GhostKey

open Foundation

/-! ## §1 Updates of one vault row -/

/-- The UPDATE statements on `vaults`, named by the function that runs them. -/
inductive VaultUpdate where
  /-- `SET status = ?`, the second statement of the creation handlers. -/
  | setInitialStatus (status : Status)
  | ownerContactVerified (now : Instant)
  | checkin (now next claimEligible : Instant)
  | checkinFromLink (storedHash : Hash) (now next claimEligible : Instant)
  | resetVaultClock (now next claimEligible : Instant)
  | panicFreeze (frozenUntil : Instant)
  | issueClaim (hash : Hash) (now : Instant)
  | stampClaimOpened (now : Instant)
  | consumeClaimToken (now : Instant)
  | releaseClaimToken
  | promoteClaimed
  | ownerFullDrain
  | mintOneTapToken (hash : Hash) (now : Instant)
  | cacheEstimate (cache : ChainCache)
  | unfreeze
  | activate (next claimEligible : Instant)
  | returnEmpty (fromStatus : Status)
  | preDeadlineReminded (now : Instant)
  | alarm
  | escalated (now : Instant)
  | openReused (hash : Hash) (now : Instant)
  | openFresh (hash : Hash) (now : Instant)
  | claimReadyNotified (now : Instant)
  deriving DecidableEq

namespace VaultUpdate

/-- What the statement asks of the row beside its id. -/
def guard : VaultUpdate → VaultRow → Bool
  | checkinFromLink storedHash _ _ _, r =>
      r.life.checkinLinkTokenHash = some storedHash ∧ r.life.checkinLinkTokenUsedAt = none
  | resetVaultClock _ _ _, r => r.life.status ≠ .claimed
  | panicFreeze _, r => r.life.status ≠ .claimed
  | stampClaimOpened _, r => r.life.claimOpenedAt = none
  | consumeClaimToken _, r => r.life.claimTokenUsedAt = none
  | releaseClaimToken, r => r.life.status = .claiming
  | ownerFullDrain, r =>
      r.life.status = .ok ∨ r.life.status = .warning ∨ r.life.status = .alarmed ∨
        r.life.status = .frozen
  | mintOneTapToken _ _, r =>
      r.life.checkinLinkTokenHash = none ∨ r.life.checkinLinkTokenUsedAt ≠ none
  | unfreeze, r => r.life.status = .frozen
  | activate _ _, r => r.life.status = .unfunded
  | returnEmpty fromStatus, r => r.life.status = fromStatus
  | escalated _, r => r.life.status = .alarmed
  | openReused _ _, r => r.life.status = .alarmed
  | openFresh _ _, r => r.life.status = .alarmed ∧ r.life.claimTokenHash = none
  | claimReadyNotified _, r => r.life.claimReadyNotifiedAt = none
  | setInitialStatus _, _ => true
  | ownerContactVerified _, _ => true
  | checkin _ _ _, _ => true
  | issueClaim _ _, _ => true
  | promoteClaimed, _ => true
  | cacheEstimate _, _ => true
  | preDeadlineReminded _, _ => true
  | alarm, _ => true

/-- The lifecycle columns `routes::checkin` writes. -/
def checkinLife (now next claimEligible : Instant) (l : Lifecycle) : Lifecycle :=
  { l with
    lastCheckinAt := some now
    nextDeadlineAt := next
    status := .ok
    claimEligibleAt := some claimEligible
    claimTokenHash := none
    claimTokenIssuedAt := none
    claimTokenUsedAt := none
    claimOpenedAt := none
    claimReadyNotifiedAt := none
    preDeadlineReminderSentAt := none
    lastAlarmReminderSentAt := none
    alarmReminderCount := 0
    checkinLinkTokenHash := none
    checkinLinkTokenIssuedAt := none
    checkinLinkTokenUsedAt := none }

/-- The first UPDATE of `checkin_from_link`; it marks the link used. -/
def checkinFromLinkLife (now next claimEligible : Instant) (l : Lifecycle) : Lifecycle :=
  { l with
    lastCheckinAt := some now
    nextDeadlineAt := next
    status := .ok
    claimEligibleAt := some claimEligible
    claimTokenHash := none
    claimTokenIssuedAt := none
    claimTokenUsedAt := none
    claimOpenedAt := none
    claimReadyNotifiedAt := none
    preDeadlineReminderSentAt := none
    lastAlarmReminderSentAt := none
    alarmReminderCount := 0
    checkinLinkTokenUsedAt := some now }

/-- The second UPDATE of the same transaction. -/
def scrubCheckinLink (l : Lifecycle) : Lifecycle :=
  { l with
    checkinLinkTokenHash := none
    checkinLinkTokenIssuedAt := none
    checkinLinkTokenUsedAt := none }

/-- The columns `lightning::reset_vault_clock` writes. -/
def resetVaultClockLife (now next claimEligible : Instant) (l : Lifecycle) : Lifecycle :=
  { l with
    lastCheckinAt := some now
    nextDeadlineAt := next
    status := .ok
    claimEligibleAt := some claimEligible
    claimTokenHash := none
    claimTokenIssuedAt := none
    claimTokenUsedAt := none
    preDeadlineReminderSentAt := none
    lastAlarmReminderSentAt := none
    alarmReminderCount := 0
    checkinLinkTokenHash := none
    checkinLinkTokenIssuedAt := none
    checkinLinkTokenUsedAt := none }

/-- The columns `lightning::mark_panic_paid` writes. -/
def panicFreezeLife (frozenUntil : Instant) (l : Lifecycle) : Lifecycle :=
  { l with
    status := .frozen
    panicFrozenUntil := some frozenUntil
    claimTokenHash := none
    claimTokenIssuedAt := none
    claimTokenUsedAt := none
    claimOpenedAt := none
    claimReadyNotifiedAt := none
    preDeadlineReminderSentAt := none
    lastAlarmReminderSentAt := none
    alarmReminderCount := 0
    checkinLinkTokenHash := none
    checkinLinkTokenIssuedAt := none
    checkinLinkTokenUsedAt := none }

/-- The columns the trigger writes in both of its branches. -/
def openClaimLife (hash : Hash) (now : Instant) (l : Lifecycle) : Lifecycle :=
  { l with
    status := .timelockStarted
    claimTokenHash := some hash
    claimTokenIssuedAt := some now
    claimTokenUsedAt := none }

/-- The SET list on the lifecycle columns. -/
def setLife : VaultUpdate → Lifecycle → Lifecycle
  | setInitialStatus status, l => { l with status := status }
  | ownerContactVerified _, l => l
  | checkin now next claimEligible, l => checkinLife now next claimEligible l
  | checkinFromLink _ now next claimEligible, l =>
      scrubCheckinLink (checkinFromLinkLife now next claimEligible l)
  | resetVaultClock now next claimEligible, l => resetVaultClockLife now next claimEligible l
  | panicFreeze frozenUntil, l => panicFreezeLife frozenUntil l
  | issueClaim hash now, l =>
      { l with
        claimTokenHash := some hash
        claimTokenIssuedAt := some now
        claimTokenUsedAt := none
        claimOpenedAt := none
        claimReadyNotifiedAt := none }
  | stampClaimOpened now, l => { l with claimOpenedAt := some now }
  | consumeClaimToken now, l => { l with status := .claiming, claimTokenUsedAt := some now }
  | releaseClaimToken, l => { l with status := .timelockStarted, claimTokenUsedAt := none }
  | promoteClaimed, l => { l with status := .claimed }
  | ownerFullDrain, l => { l with status := .unfunded, claimEligibleAt := none }
  | mintOneTapToken hash now, l =>
      { l with
        checkinLinkTokenHash := some hash
        checkinLinkTokenIssuedAt := some now
        checkinLinkTokenUsedAt := none }
  | cacheEstimate _, l => l
  | unfreeze, l => { l with status := .alarmed, panicFrozenUntil := none }
  | activate next claimEligible, l =>
      { l with status := .ok, nextDeadlineAt := next, claimEligibleAt := some claimEligible }
  | returnEmpty _, l => { l with status := .unfunded, claimEligibleAt := none }
  | preDeadlineReminded now, l => { l with preDeadlineReminderSentAt := some now }
  | alarm, l => { l with status := .alarmed }
  | escalated now, l =>
      { l with
        lastAlarmReminderSentAt := some now
        alarmReminderCount := l.alarmReminderCount + 1 }
  | openReused hash now, l => openClaimLife hash now l
  | openFresh hash now, l => openClaimLife hash now l
  | claimReadyNotified now, l => { l with claimReadyNotifiedAt := some now }

/-- The SET list; two statements write columns outside the lifecycle group. -/
def set : VaultUpdate → VaultRow → VaultRow
  | ownerContactVerified now, r =>
      { r with contacts := { r.contacts with ownerContactVerifiedAt := some now } }
  | cacheEstimate cache, r => { r with chain := cache }
  | u, r => r.mapLife u.setLife

@[simp] theorem set_id (u : VaultUpdate) (r : VaultRow) : (u.set r).id = r.id := by
  cases u <;> rfl

@[simp] theorem set_settings (u : VaultUpdate) (r : VaultRow) :
    (u.set r).settings = r.settings := by
  cases u <;> rfl

@[simp] theorem set_keys (u : VaultUpdate) (r : VaultRow) : (u.set r).keys = r.keys := by
  cases u <;> rfl

@[simp] theorem set_life (u : VaultUpdate) (r : VaultRow) :
    (u.set r).life = u.setLife r.life := by
  cases u <;> rfl

/-- The row after the statement has run over it. -/
def onRow (u : VaultUpdate) (r : VaultRow) : VaultRow := if u.guard r then u.set r else r

@[simp] theorem onRow_id (u : VaultUpdate) (r : VaultRow) : (u.onRow r).id = r.id := by
  unfold onRow; split <;> simp

@[simp] theorem onRow_settings (u : VaultUpdate) (r : VaultRow) :
    (u.onRow r).settings = r.settings := by
  unfold onRow; split <;> simp

@[simp] theorem onRow_keys (u : VaultUpdate) (r : VaultRow) : (u.onRow r).keys = r.keys := by
  unfold onRow; split <;> simp

end VaultUpdate

namespace Db

/-- `UPDATE vaults SET … WHERE id = ? AND …`. -/
def updateVault (db : Db) (id : VaultId) (u : VaultUpdate) : Db :=
  db.updateVaults (fun r => decide (r.id = id) && u.guard r) u.set u.set_id

/-- `rows_affected` of the same statement. -/
def affected (db : Db) (id : VaultId) (u : VaultUpdate) : Nat :=
  db.vaults.affected fun r => decide (r.id = id) && u.guard r

theorem vault?_updateVault (db : Db) (id : VaultId) (u : VaultUpdate) (k : VaultId) :
    (db.updateVault id u).vault? k =
      (db.vault? k).map fun r => if k = id then u.onRow r else r := by
  unfold updateVault
  rw [vault?_updateVaults]
  cases found : db.vault? k with
  | none => rfl
  | some r =>
    have hk : r.id = k := vault?_id found
    by_cases same : k = id
    · simp [VaultUpdate.onRow, hk, same]
    · simp [hk, same]

theorem updateVault_affected (db : Db) (id : VaultId) (u : VaultUpdate) :
    db.affected id u = 1 ↔ ∃ r, db.vault? id = some r ∧ u.guard r = true :=
  KeyedTable.affected_eq_one_iff db.vaults id u.guard

theorem updateVault_affected_cases (db : Db) (id : VaultId) (u : VaultUpdate) :
    db.affected id u = 1 ∨ db.affected id u = 0 := by
  unfold affected
  rw [KeyedTable.affected_key]
  split <;> simp

end Db

/-! ## §2 The paid-invoice transactions -/

/-- `lightning::inside_current_period`. -/
def insideCurrentPeriod (lastCheckinAt : Option Instant) (checkinPeriodSecs : Int)
    (now : Instant) : Bool :=
  match lastCheckinAt with
  | none => false
  | some last => now < last + seconds checkinPeriodSecs

/-- Whether the row already checked in inside its current cycle. -/
def VaultRow.checkedIn (r : VaultRow) (now : Instant) : Bool :=
  insideCurrentPeriod r.life.lastCheckinAt r.settings.checkinPeriodSecs now

/-- The reset of a vault with the cadence of `r`. -/
def clockReset (r : VaultRow) (now : Instant) : VaultUpdate :=
  .resetVaultClock now (now + r.settings.cycle) (now + r.settings.cycle + r.settings.grace)

/-- What a paid check-in invoice came to. -/
inductive PaidOutcome where
  | alreadyProcessed
  | noVaultRow
  | paid (vaultId : VaultId) (reset : Bool) (siblings : List VaultId)
  deriving DecidableEq

inductive PanicOutcome where
  | alreadyProcessed
  | noVaultRow
  | paid (vaultId : VaultId) (frozen : Bool)
  deriving DecidableEq

/-- `PANIC_FREEZE_DAYS`, in seconds. -/
def panicFreezeSecs : Int := 90 * 24 * 60 * 60

namespace Db

def invoice? (db : Db) (paymentHash : String) : Option InvoiceRow := db.invoices.find? paymentHash

def updateInvoices (db : Db) (p : InvoiceRow → Bool) (f : InvoiceRow → InvoiceRow)
    (keeps : ∀ r, (f r).paymentHash = r.paymentHash) : Db :=
  { db with invoices := db.invoices.update p f keeps }

/-- The compare-and-swap both transactions start with. -/
def markInvoicePaid (db : Db) (paymentHash : String) (now : Instant) : Db :=
  db.updateInvoices (fun i => decide (i.paymentHash = paymentHash) && decide (i.status = .pending))
    (fun i => { i with status := .paid, paidAt := some now }) fun _ => rfl

@[simp] theorem vault?_markInvoicePaid (db : Db) (paymentHash : String) (now : Instant)
    (k : VaultId) : (db.markInvoicePaid paymentHash now).vault? k = db.vault? k := rfl

def invoicePending (db : Db) (paymentHash : String) : Bool :=
  (db.invoice? paymentHash).any fun i => i.status = .pending

/-- The sibling vaults of `paid` a payment is fanned out to. -/
def isSibling (paid : VaultRow) (r : VaultRow) : Bool :=
  match paid.settings.ownerEmailHash with
  | none => false
  | some ownerHash =>
      r.settings.ownerEmailHash = some ownerHash ∧ r.id ≠ paid.id ∧
        (r.life.status = .ok ∨ r.life.status = .alarmed ∨ r.life.status = .timelockStarted)

/-- One round of the fan-out. -/
def resetSibling (now : Instant) (acc : Db × List VaultId) (s : VaultRow) : Db × List VaultId :=
  if s.checkedIn now then acc
  else
    (acc.1.updateVault s.id (clockReset s now),
      if acc.1.affected s.id (clockReset s now) > 0 then acc.2 ++ [s.id] else acc.2)

/-- The reset of the paid vault itself. -/
def resetPaid (now : Instant) (db : Db) (paid : VaultRow) : Db × Bool :=
  if paid.checkedIn now then (db, false)
  else
    (db.updateVault paid.id (clockReset paid now), db.affected paid.id (clockReset paid now) > 0)

/-- The transaction of `lightning::mark_paid_and_checkin`. -/
def markPaidAndCheckinTx (db : Db) (paymentHash : String) (now : Instant) : Db × PaidOutcome :=
  if db.invoicePending paymentHash then
    let paidDb := db.markInvoicePaid paymentHash now
    match (db.invoice? paymentHash).bind fun i => paidDb.vault? i.vaultId with
    | none => (db, .noVaultRow)
    | some paid =>
        let own := resetPaid now paidDb paid
        let fan := (own.1.vaults.select (isSibling paid)).foldl (resetSibling now) (own.1, [])
        (fan.1, .paid paid.id own.2 fan.2)
  else (db, .alreadyProcessed)

/-- The transaction of `lightning::mark_panic_paid`. -/
def markPanicPaidTx (db : Db) (paymentHash : String) (now : Instant) : Db × PanicOutcome :=
  if db.invoicePending paymentHash then
    let paidDb := db.markInvoicePaid paymentHash now
    match db.invoice? paymentHash with
    | none => (db, .noVaultRow)
    | some i =>
        let freeze := VaultUpdate.panicFreeze (now + seconds panicFreezeSecs)
        (paidDb.updateVault i.vaultId freeze,
          .paid i.vaultId (paidDb.affected i.vaultId freeze > 0))
  else (db, .alreadyProcessed)

/-- Whether a paid check-in invoice of `paid` reaches the row. -/
def reset? (paid : VaultRow) (now : Instant) (r : VaultRow) : Bool :=
  (r.id = paid.id || isSibling paid r) && !r.checkedIn now

private theorem vault?_foldl_resetSibling (now : Instant) (k : VaultId) :
    ∀ (sibs : List VaultRow) (acc : Db × List VaultId), (sibs.map VaultRow.id).Nodup →
      (∀ s ∈ sibs, acc.1.vault? s.id = some s) →
      ((sibs.foldl (resetSibling now) acc).1.vault? k) =
        (acc.1.vault? k).map fun r =>
          if r ∈ sibs ∧ r.checkedIn now = false then (clockReset r now).onRow r else r
  | [], acc, _, _ => by simp
  | s :: sibs, acc, nodup, here => by
    -- each sibling's UPDATE leaves the rows of the others for the rest of the fold
    rw [List.map_cons, List.nodup_cons] at nodup
    have hs := here s List.mem_cons_self
    have others : ∀ t ∈ sibs, t.id ≠ s.id := by
      intro t mem same
      exact nodup.1 (same ▸ List.mem_map_of_mem mem)
    have unchanged : ∀ t ∈ sibs, (resetSibling now acc s).1.vault? t.id = some t := by
      intro t mem
      unfold resetSibling
      split
      · exact here t (List.mem_cons_of_mem s mem)
      · rw [vault?_updateVault, here t (List.mem_cons_of_mem s mem)]
        simp [others t mem]
    rw [List.foldl_cons, vault?_foldl_resetSibling now k sibs _ nodup.2 unchanged]
    cases found : acc.1.vault? k with
    | none =>
      unfold resetSibling
      split <;> simp [vault?_updateVault, found]
    | some r =>
      have hk : r.id = k := vault?_id found
      by_cases same : k = s.id
      -- the row is this sibling's: reset unless checked in, and met no more
      · have row : r = s := by
          rw [same, hs] at found
          exact (Option.some.inj found).symm
        subst row
        have gone : ∀ q, q ∈ sibs → q.id ≠ r.id := others
        by_cases inside : r.checkedIn now
        · have skip : resetSibling now acc r = acc := by simp [resetSibling, inside]
          rw [skip, found]
          simp [inside]
        · have done : (resetSibling now acc r).1.vault? k =
              some ((clockReset r now).onRow r) := by
            simp [resetSibling, inside, vault?_updateVault, same, hs]
          have fresh : (clockReset r now).onRow r ∉ sibs := by
            intro mem
            exact gone _ mem (by simp)
          rw [done]
          simp [inside, fresh]
      -- another row: only the rest of the fold matters
      · have kept : (resetSibling now acc s).1.vault? k = some r := by
          unfold resetSibling
          split
          · exact found
          · simp [vault?_updateVault, found, same]
        have other : r ≠ s := by
          rintro rfl
          exact same hk.symm
        rw [kept]
        simp [other]

private theorem vault?_resetPaid (now : Instant) (db : Db) (paid : VaultRow)
    (here : db.vault? paid.id = some paid) (k : VaultId) :
    (resetPaid now db paid).1.vault? k =
      (db.vault? k).map fun r =>
        if r.id = paid.id ∧ r.checkedIn now = false then (clockReset r now).onRow r else r := by
  cases found : db.vault? k with
  | none =>
    unfold resetPaid
    split <;> simp [vault?_updateVault, found]
  | some r =>
    have hk : r.id = k := vault?_id found
    by_cases same : k = paid.id
    · have row : r = paid := by
        rw [same, here] at found
        exact (Option.some.inj found).symm
      subst row
      by_cases inside : r.checkedIn now
      · simp [resetPaid, inside, found]
      · simp [resetPaid, inside, vault?_updateVault, same, here]
    · have other : ¬ r.id = paid.id := by rw [hk]; exact same
      unfold resetPaid
      split
      · simp [found, other]
      · simp [vault?_updateVault, found, same, other]

/-- A paid check-in invoice resets the vault it was issued for and the owner's
live sibling vaults, those outside their current period; every other row and
every other column stays. -/
theorem vault?_markPaidAndCheckinTx {db : Db} {paymentHash : String} (now : Instant)
    {paid : VaultRow} {i : InvoiceRow} (pending : db.invoicePending paymentHash = true)
    (issued : db.invoice? paymentHash = some i) (here : db.vault? i.vaultId = some paid)
    (k : VaultId) :
    (db.markPaidAndCheckinTx paymentHash now).1.vault? k =
      (db.vault? k).map fun r => if reset? paid now r then (clockReset r now).onRow r else r := by
  have paid_id : paid.id = i.vaultId := vault?_id here
  -- the paid vault's row is still there once the invoice is marked
  have own_here : (db.markInvoicePaid paymentHash now).vault? paid.id = some paid := by
    rw [vault?_markInvoicePaid, paid_id]; exact here
  have sibs_here : ∀ s ∈ (resetPaid now (db.markInvoicePaid paymentHash now) paid).1.vaults.select
      (isSibling paid),
      (resetPaid now (db.markInvoicePaid paymentHash now) paid).1.vault? s.id = some s := by
    intro s mem
    exact (KeyedTable.mem_select.1 mem).1
  have sibs_nodup : (((resetPaid now (db.markInvoicePaid paymentHash now) paid).1.vaults.select
      (isSibling paid)).map VaultRow.id).Nodup :=
    List.Nodup.sublist (List.filter_sublist.map _) (KeyedTable.nodup _)
  unfold markPaidAndCheckinTx
  simp only [pending, if_true, issued, Option.bind_some, vault?_markInvoicePaid, here]
  rw [vault?_foldl_resetSibling now k _ _ sibs_nodup sibs_here,
    vault?_resetPaid now _ paid own_here k, vault?_markInvoicePaid]
  cases found : db.vault? k with
  | none => rfl
  | some r =>
    have hk : r.id = k := vault?_id found
    simp only [Option.map_some, Option.some.injEq]
    -- a row that is there is a sibling of the fold exactly where the query's test picks it
    have mem_iff : ∀ x, (resetPaid now (db.markInvoicePaid paymentHash now) paid).1.vault? k =
        some x → (x ∈ (resetPaid now (db.markInvoicePaid paymentHash now) paid).1.vaults.select
          (isSibling paid) ↔ isSibling paid x = true) := by
      intro x hx
      have hx' : x.id = k := vault?_id hx
      rw [KeyedTable.mem_select, hx']
      exact and_iff_right hx
    have row_here := vault?_resetPaid now (db.markInvoicePaid paymentHash now) paid own_here k
    rw [vault?_markInvoicePaid, found, Option.map_some] at row_here
    have sib := mem_iff _ row_here
    -- the paid vault is none of its siblings, so it is reset once
    by_cases own : r.id = paid.id
    · have not_sib : ∀ x : VaultRow, x.id = r.id → isSibling paid x = false := by
        intro x hx
        unfold isSibling
        split
        · rfl
        · simp [hx, own]
      by_cases inside : r.checkedIn now
      · simp [reset?, inside]
      · have none : isSibling paid ((clockReset r now).onRow r) = false := not_sib _ (by simp)
        simp only [own, inside, true_and, if_true] at sib ⊢
        simp [none, sib, reset?, own, inside]
    · simp only [own, false_and, if_false] at sib ⊢
      simp only [sib, reset?, own, decide_false, Bool.false_or, Bool.and_eq_true,
        Bool.not_eq_true']

/-- The fan-out lists the siblings it has reset. -/
private theorem mem_foldl_resetSibling (now : Instant) (k : VaultId) :
    ∀ (sibs : List VaultRow) (acc : Db × List VaultId),
      k ∈ (sibs.foldl (resetSibling now) acc).2 →
        k ∈ acc.2 ∨ ∃ s ∈ sibs, s.id = k ∧ s.checkedIn now = false
  | [], _, mem => .inl mem
  | s :: sibs, acc, mem => by
    rw [List.foldl_cons] at mem
    rcases mem_foldl_resetSibling now k sibs _ mem with early | ⟨s', later, rest⟩
    · unfold resetSibling at early
      split at early
      · exact .inl early
      · next outside =>
        dsimp only at early
        split at early
        · rcases List.mem_append.1 early with old | new
          · exact .inl old
          · exact .inr ⟨s, List.mem_cons_self, (List.mem_singleton.1 new).symm, by simpa using outside⟩
        · exact .inl early
    · exact .inr ⟨s', List.mem_cons_of_mem s later, rest⟩

/-- A vault the outcome lists as a sibling is a sibling outside its period. -/
theorem reset?_of_mem_siblings {db : Db} {paymentHash : String} {now : Instant} {id k : VaultId}
    {reset : Bool} {siblings : List VaultId} {r : VaultRow}
    (came : (db.markPaidAndCheckinTx paymentHash now).2 = .paid id reset siblings)
    (mem : k ∈ siblings) (row : db.vault? k = some r) :
    ∃ i paid, db.invoicePending paymentHash = true ∧ db.invoice? paymentHash = some i ∧
      db.vault? i.vaultId = some paid ∧ isSibling paid r = true ∧ r.checkedIn now = false := by
  unfold markPaidAndCheckinTx at came
  split at came
  swap
  · cases came
  · next pending =>
    cases issued : db.invoice? paymentHash with
    | none => simp [issued] at came
    | some i =>
      simp only [issued, Option.bind_some, vault?_markInvoicePaid] at came
      cases here : db.vault? i.vaultId with
      | none => simp [here] at came
      | some paid =>
        simp only [here, PaidOutcome.paid.injEq] at came
        obtain ⟨-, -, rfl⟩ := came
        refine ⟨i, paid, pending, rfl, here, ?_⟩
        rcases mem_foldl_resetSibling now k _ _ mem with none | ⟨s, listed, same, outside⟩
        · cases none
        · obtain ⟨row', sibling⟩ := KeyedTable.mem_select.1 listed
          -- the paid vault is not its own sibling, so its reset left this row alone
          have other : s.id ≠ paid.id := by
            unfold isSibling at sibling
            split at sibling
            · cases sibling
            · simp only [Bool.decide_and, Bool.and_eq_true, decide_eq_true_eq] at sibling
              exact sibling.2.1
          have paid_id : paid.id = i.vaultId := vault?_id here
          have own_here : (db.markInvoicePaid paymentHash now).vault? paid.id = some paid := by
            rw [vault?_markInvoicePaid, paid_id]
            exact here
          have kept := vault?_resetPaid now _ paid own_here k
          rw [vault?_markInvoicePaid, row, Option.map_some] at kept
          have id : r.id = k := vault?_id row
          rw [if_neg (by rw [id, ← same]; exact fun both => other both.1)] at kept
          have same_row : some s = some r := by
            rw [← kept, ← same]
            exact row'.symm
          cases same_row
          exact ⟨sibling, outside⟩

theorem vault?_markPanicPaidTx {db : Db} {paymentHash : String} (now : Instant) {i : InvoiceRow}
    (pending : db.invoicePending paymentHash = true)
    (issued : db.invoice? paymentHash = some i) (k : VaultId) :
    (db.markPanicPaidTx paymentHash now).1.vault? k =
      (db.vault? k).map fun r =>
        if k = i.vaultId then
          (VaultUpdate.panicFreeze (now + seconds panicFreezeSecs)).onRow r
        else r := by
  unfold markPanicPaidTx
  simp only [pending, if_true, issued, vault?_updateVault, vault?_markInvoicePaid]

/-- A paid check-in invoice is applied to the vault it names, or nothing changes. -/
theorem markPaidAndCheckinTx_cases (db : Db) (paymentHash : String) (now : Instant) :
    (db.markPaidAndCheckinTx paymentHash now).1 = db ∨
      ∃ i paid, db.invoicePending paymentHash = true ∧ db.invoice? paymentHash = some i ∧
        db.vault? i.vaultId = some paid := by
  unfold markPaidAndCheckinTx
  split
  · next pending =>
    cases issued : db.invoice? paymentHash with
    | none => exact .inl rfl
    | some i =>
      cases here : db.vault? i.vaultId with
      | none => left; simp [here]
      | some paid => exact .inr ⟨i, paid, pending, rfl, here⟩
  · exact .inl rfl

/-- The same for a paid panic invoice; the outcome names the vault. -/
theorem markPanicPaidTx_cases (db : Db) (paymentHash : String) (now : Instant) :
    ((db.markPanicPaidTx paymentHash now).1 = db ∧
        ∀ id frozen, (db.markPanicPaidTx paymentHash now).2 ≠ .paid id frozen) ∨
      ∃ i frozen, db.invoicePending paymentHash = true ∧ db.invoice? paymentHash = some i ∧
        (db.markPanicPaidTx paymentHash now).2 = .paid i.vaultId frozen := by
  unfold markPanicPaidTx
  split
  · next pending =>
    cases issued : db.invoice? paymentHash with
    | none => exact .inl ⟨rfl, by simp⟩
    | some i => exact .inr ⟨i, _, pending, rfl, rfl⟩
  · exact .inl ⟨rfl, by simp⟩

end Db

end GhostKey

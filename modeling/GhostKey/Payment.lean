import GhostKey.Overtaking
import GhostKey.Foundation.Transaction

/-!
# A Paid Check-in

A paid invoice shows that the owner is alive, not just that one vault is looked after: its
transaction resets the vault of the invoice and the owner's other vaults that have a clock
to reset. The others are picked by their status; the vault of the invoice is reset whatever
its status is, but for `claimed`.

Layers:
1. the transaction statement by statement, each of which may fail: `markPaidStmts`;
2. its effect in one piece, `Db.markPaidAndCheckinTx`, by `commit_markPaidStmts`.

Main results:
- `settles_owed`: whatever fails, all of the resets of one payment or none; which they are.
- `not_settles_listed`: they are not those of the owner's vaults with a clock to reset.
-/

namespace GhostKey

open Foundation

/-! ## §1 The transaction, statement by statement -/

namespace Payment

/-- What a transaction of the poller fails with. -/
abbrev PayTx (α : Type) := TxPart Db ApiError α

/-- The compare-and-swap on the invoice, with the rows it affects. -/
def markPaid (paymentHash : String) (now : Instant) : PayTx Nat :=
  .stmt fun db =>
    (if db.invoicePending paymentHash then 1 else 0, db.markInvoicePaid paymentHash now)

/-- The invoice's vault, by the JOIN. -/
def paidVault (paymentHash : String) : PayTx (Option VaultRow) :=
  .stmt fun db => ((db.invoice? paymentHash).bind fun i => db.vault? i.vaultId, db)

/-- `reset_vault_clock`. -/
def resetVaultClock (r : VaultRow) (now : Instant) : PayTx Bool :=
  .stmt fun db => (db.affected r.id (clockReset r now) > 0, db.updateVault r.id (clockReset r now))

/-- The once-per-period guard, and the reset of the vault of the invoice. -/
def resetPaidVault (paid : VaultRow) (now : Instant) : PayTx Bool :=
  if paid.checkedIn now then .done false else resetVaultClock paid now

/-- The owner's other vaults. Without a hash there is no SELECT. -/
def selectSiblings (paid : VaultRow) : PayTx (List VaultRow) :=
  match paid.settings.ownerEmailHash with
  | none => .done []
  | some _ => .stmt fun db => (db.vaults.select (Db.isSibling paid), db)

/-- The loop over them. -/
def resetSiblings (now : Instant) : List VaultRow → List VaultId → PayTx (List VaultId)
  | [], resets => .done resets
  | s :: sibs, resets =>
      if s.checkedIn now then resetSiblings now sibs resets
      else
        (resetVaultClock s now).bind fun moved =>
          resetSiblings now sibs (if moved then resets ++ [s.id] else resets)

/-- The resets of one payment. -/
def payFor (paid : VaultRow) (now : Instant) : PayTx PaidOutcome := do
  let reset ← resetPaidVault paid now
  let siblings ← selectSiblings paid
  let resets ← resetSiblings now siblings []
  pure (.paid paid.id reset resets)

/-- `mark_paid_and_checkin`, up to its commit. -/
def markPaidStmts (paymentHash : String) (now : Instant) : PayTx PaidOutcome := do
  let updated ← markPaid paymentHash now
  if updated = 0 then pure .alreadyProcessed
  else
    let row ← paidVault paymentHash
    match row with
    | none => .fail (noVaultRow paymentHash)
    | some paid => payFor paid now

/-! ## §2 Its effect in one piece -/

section Effect

variable {db : Db} {paymentHash : String} {now : Instant}

theorem invoice?_markInvoicePaid (db : Db) (paymentHash : String) (now : Instant) :
    ((db.markInvoicePaid paymentHash now).invoice? paymentHash).map InvoiceRow.vaultId =
      (db.invoice? paymentHash).map InvoiceRow.vaultId := by
  have updated := KeyedTable.find?_update db.invoices
    (fun i => decide (i.paymentHash = paymentHash) && decide (i.status = .pending))
    (fun i => { i with status := .paid, paidAt := some now }) (fun _ => rfl) paymentHash
  refine (congrArg (Option.map InvoiceRow.vaultId) updated).trans ?_
  rw [Option.map_map]
  show (db.invoice? paymentHash).map _ = _
  congr 1
  funext i
  dsimp only [Function.comp]
  split <;> rfl

/-- Without a pending invoice the compare-and-swap changes nothing. -/
theorem markInvoicePaid_of_not_pending (none : ¬ db.invoicePending paymentHash = true) :
    db.markInvoicePaid paymentHash now = db := by
  unfold Db.markInvoicePaid Db.updateInvoices
  rw [KeyedTable.update_of_none]
  intro i mem
  have listed : db.invoices.find? i.paymentHash = some i := KeyedTable.find?_of_mem mem
  by_cases hit : i.paymentHash = paymentHash
  · rw [hit] at listed
    have settled : i.status ≠ .pending := by
      intro pending
      exact none (by simp [Db.invoicePending, Db.invoice?, listed, pending])
    simp [settled]
  · simp [hit]

theorem steady_resetSiblings (now : Instant) (sibs : List VaultRow) (resets : List VaultId) :
    TxPart.Steady (resetSiblings now sibs resets) := by
  induction sibs generalizing resets with
  | nil => exact TxPart.steady_done resets
  | cons s sibs ih =>
    unfold resetSiblings
    refine TxPart.steady_ite (ih resets) ?_
    exact TxPart.steady_bind (TxPart.steady_stmt _) fun moved => ih _

theorem steady_payFor (paid : VaultRow) (now : Instant) : TxPart.Steady (payFor paid now) := by
  have own : TxPart.Steady (resetPaidVault paid now) :=
    TxPart.steady_ite (TxPart.steady_done _) (TxPart.steady_stmt _)
  have select : TxPart.Steady (selectSiblings paid) := by
    unfold selectSiblings
    split
    · exact TxPart.steady_done _
    · exact TxPart.steady_stmt _
  exact TxPart.steady_bind own fun reset => TxPart.steady_bind select fun siblings =>
    TxPart.steady_bind (steady_resetSiblings now siblings []) fun resets => TxPart.steady_done _

theorem steady_markPaidStmts (paymentHash : String) (now : Instant) :
    TxPart.Steady (markPaidStmts paymentHash now) := by
  refine TxPart.steady_bind (TxPart.steady_stmt _) fun updated => ?_
  refine TxPart.steady_ite (TxPart.steady_done _) ?_
  refine TxPart.steady_bind (TxPart.steady_stmt _) fun row => ?_
  cases row with
  | none => exact TxPart.steady_fail _
  | some paid => exact steady_payFor paid now

/-- The loop without faults is the fold. -/
theorem resetSiblings_calm (now : Instant) (sibs : List VaultRow) (resets : List VaultId) (n : Nat)
    (db : Db) : ∃ m, resetSiblings now sibs resets TxPart.calm n db =
      .ok ((sibs.foldl (Db.resetSibling now) (db, resets)).2, m,
        (sibs.foldl (Db.resetSibling now) (db, resets)).1) := by
  induction sibs generalizing resets n db with
  | nil => exact ⟨n, rfl⟩
  | cons s sibs ih =>
    unfold resetSiblings
    rw [List.foldl_cons]
    by_cases inside : s.checkedIn now = true
    · have skip : Db.resetSibling now (db, resets) s = (db, resets) := if_pos inside
      rw [if_pos inside, skip]
      exact ih resets n db
    · have moves : Db.resetSibling now (db, resets) s = (db.updateVault s.id (clockReset s now),
          if db.affected s.id (clockReset s now) > 0 then resets ++ [s.id] else resets) :=
        if_neg inside
      obtain ⟨m, rest⟩ := ih (if db.affected s.id (clockReset s now) > 0 then resets ++ [s.id]
        else resets) (n + 1) (db.updateVault s.id (clockReset s now))
      rw [if_neg inside, moves]
      refine ⟨m, ?_⟩
      rw [← rest, TxPart.bind_apply, resetVaultClock, TxPart.stmt_calm]
      simp only [decide_eq_true_eq]

/-- The resets without faults. -/
theorem payFor_calm (paid : VaultRow) (now : Instant) (n : Nat) (db : Db) :
    ∃ m, payFor paid now TxPart.calm n db =
      let own := Db.resetPaid now db paid
      let fan := (own.1.vaults.select (Db.isSibling paid)).foldl (Db.resetSibling now) (own.1, [])
      .ok (.paid paid.id own.2 fan.2, m, fan.1) := by
  have own : ∃ m, resetPaidVault paid now TxPart.calm n db =
      .ok ((Db.resetPaid now db paid).2, m, (Db.resetPaid now db paid).1) := by
    unfold resetPaidVault Db.resetPaid
    split
    · exact ⟨n, rfl⟩
    · exact ⟨n + 1, rfl⟩
  obtain ⟨m, own⟩ := own
  generalize Db.resetPaid now db paid = reset at own ⊢
  -- without a hash the SELECT would find nothing
  have select : ∃ m', selectSiblings paid TxPart.calm m reset.1 =
      .ok (reset.1.vaults.select (Db.isSibling paid), m', reset.1) := by
    unfold selectSiblings
    cases hash : paid.settings.ownerEmailHash with
    | none =>
      refine ⟨m, ?_⟩
      have empty : reset.1.vaults.select (Db.isSibling paid) = [] := by
        unfold KeyedTable.select
        refine List.filter_eq_nil_iff.2 fun r _ sibling => ?_
        simp [Db.isSibling, hash] at sibling
      rw [empty]
      rfl
    | some ownerHash => exact ⟨m + 1, rfl⟩
  obtain ⟨m', select⟩ := select
  obtain ⟨m'', rest⟩ :=
    resetSiblings_calm now (reset.1.vaults.select (Db.isSibling paid)) [] m' reset.1
  refine ⟨m'', ?_⟩
  show (resetPaidVault paid now).bind _ TxPart.calm n db = _
  rw [TxPart.bind_apply, own]
  show (selectSiblings paid).bind _ TxPart.calm m reset.1 = _
  rw [TxPart.bind_apply, select]
  show (resetSiblings now _ []).bind _ TxPart.calm m' reset.1 = _
  rw [TxPart.bind_apply, rest]
  rfl

/-- Without faults the statements come to the transaction in one piece. -/
theorem commit_markPaidStmts (db : Db) (paymentHash : String) (now : Instant) :
    (markPaidStmts paymentHash now).commit TxPart.calm db =
      match db.markPaidAndCheckinTx paymentHash now with
      | (_, .noVaultRow) => (.error (noVaultRow paymentHash), db)
      | (db', outcome) => (.ok outcome, db') := by
  unfold TxPart.commit Db.markPaidAndCheckinTx
  by_cases pending : db.invoicePending paymentHash = true
  -- the SELECT with its JOIN reads the row the invoice names
  · have joined : ((db.markInvoicePaid paymentHash now).invoice? paymentHash).bind
        (fun i => (db.markInvoicePaid paymentHash now).vault? i.vaultId) =
          (db.invoice? paymentHash).bind
            fun i => (db.markInvoicePaid paymentHash now).vault? i.vaultId := by
      have read : ∀ found : Option InvoiceRow,
          (found.bind fun i => (db.markInvoicePaid paymentHash now).vault? i.vaultId) =
            (found.map InvoiceRow.vaultId).bind (db.markInvoicePaid paymentHash now).vault? := by
        intro found
        cases found <;> rfl
      rw [read, read, invoice?_markInvoicePaid]
    -- the first two statements, then the resets
    have begun : markPaidStmts paymentHash now TxPart.calm 0 db =
        (match (db.invoice? paymentHash).bind fun i =>
            (db.markInvoicePaid paymentHash now).vault? i.vaultId with
          | none => TxPart.fail (noVaultRow paymentHash)
          | some paid => payFor paid now) TxPart.calm 2 (db.markInvoicePaid paymentHash now) := by
      rw [← joined]
      unfold markPaidStmts
      simp only [TxPart.bind_eq, TxPart.bind_apply, markPaid, paidVault, TxPart.stmt_calm, pending,
        if_true, Nat.one_ne_zero, if_false]
    rw [begun, if_pos pending]
    dsimp only
    cases (db.invoice? paymentHash).bind fun i =>
        (db.markInvoicePaid paymentHash now).vault? i.vaultId with
    | none => rfl
    | some paid =>
      obtain ⟨m, ran⟩ := payFor_calm paid now 2 (db.markInvoicePaid paymentHash now)
      dsimp only
      rw [ran]
      rfl
  -- an invoice that is not pending ends the transaction at once
  · have stops : markPaidStmts paymentHash now TxPart.calm 0 db =
        .ok (.alreadyProcessed, 1, db.markInvoicePaid paymentHash now) := by
      unfold markPaidStmts
      simp [TxPart.bind_apply, markPaid, pending]
    rw [stops, markInvoicePaid_of_not_pending pending]
    simp [pending, TxPart.calm]

end Effect

/-! ## §3 The vaults it resets -/

/-- The states in which the owner's other vaults have a clock to reset. -/
def tracked (status : Status) : Bool :=
  status = .ok ∨ status = .alarmed ∨ status = .timelockStarted

/-- Rows without a hash are nobody's. -/
def sameOwner (paid r : VaultRow) : Bool :=
  paid.settings.ownerEmailHash.isSome && r.settings.ownerEmailHash = paid.settings.ownerEmailHash

/-- The owner's vaults with a clock to reset, the vault paid for no different from the rest. -/
def listed (paid : VaultRow) (now : Instant) (r : VaultRow) : Bool :=
  (r.id = paid.id || sameOwner paid r) && tracked r.life.status && !r.checkedIn now

/-- The same for the owner's other vaults; the vault paid for unless its heir has claimed. -/
def owed (paid : VaultRow) (now : Instant) (r : VaultRow) : Bool :=
  (if r.id = paid.id then decide (r.life.status ≠ .claimed)
    else sameOwner paid r && tracked r.life.status) && !r.checkedIn now

/-- The row of `k` has its clock reset if `which` selects it, and is unchanged if not. -/
def ResetIf (which : VaultRow → Bool) (now : Instant) (db db' : Db) (k : VaultId) : Prop :=
  db'.vault? k = (db.vault? k).map fun r => if which r then (clockReset r now).set r else r

/-- Whatever fails, the tables stay as they were or every vault is treated as `which` says,
those of `about`. Only a fault, or an invoice without its vault, keeps them as they were. -/
def Settles (which : VaultRow → Instant → VaultRow → Bool) (about : VaultRow → VaultId → Prop)
    (db : Db) (paymentHash : String) (now : Instant) : Prop :=
  ∀ faults : Nat → Option ApiError,
    let out := (markPaidStmts paymentHash now).commit faults db
    (∃ e, out = (.error e, db) ∧ ((∃ n, faults n = some e) ∨
      (db.invoice? paymentHash).bind (fun i => db.vault? i.vaultId) = none)) ∨
    ∃ i paid outcome, db.invoice? paymentHash = some i ∧ db.vault? i.vaultId = some paid ∧
      out.1 = .ok outcome ∧ ∀ k, about paid k → ResetIf (which paid now) now db out.2 k

/-- What the transaction does to a row it reaches. -/
theorem onRow_eq_owed (paid : VaultRow) (now : Instant) (r : VaultRow) :
    (if Db.reset? paid now r then (clockReset r now).onRow r else r) =
      if owed paid now r then (clockReset r now).set r else r := by
  have guard : (clockReset r now).guard r = decide (r.life.status ≠ .claimed) := rfl
  unfold VaultUpdate.onRow Db.reset? owed
  rw [guard]
  by_cases inside : r.checkedIn now = true
  · simp [inside]
  by_cases own : r.id = paid.id
  · simp [inside, own]
  -- a sibling is tracked, so the guard of the reset lets it pass
  have sibling : Db.isSibling paid r = (sameOwner paid r && tracked r.life.status) := by
    unfold Db.isSibling sameOwner tracked
    cases paid.settings.ownerEmailHash <;> simp [own]
  have passes : tracked r.life.status = true → r.life.status ≠ .claimed := by
    rintro tracked' claimed
    rw [claimed] at tracked'
    cases tracked'
  rw [sibling]
  by_cases both : (sameOwner paid r && tracked r.life.status) = true
  · have live := passes (Bool.and_eq_true_iff.1 both).2
    simp [inside, own, both, live]
  · simp [inside, own, both]

/-- The transaction in one piece, when its invoice and the vault are there. -/
theorem markPaidAndCheckinTx_paid {db : Db} {paymentHash : String} (now : Instant) {paid : VaultRow}
    {i : InvoiceRow} (pending : db.invoicePending paymentHash = true)
    (issued : db.invoice? paymentHash = some i) (here : db.vault? i.vaultId = some paid) :
    ∃ reset siblings,
      (db.markPaidAndCheckinTx paymentHash now).2 = .paid paid.id reset siblings := by
  unfold Db.markPaidAndCheckinTx
  simp only [pending, if_true, issued, Option.bind_some, Db.vault?_markInvoicePaid, here]
  exact ⟨_, _, rfl⟩

/-- All of the resets or none of them: the vault paid for unless it is claimed, and the owner's
other vaults with a clock to reset. Nothing is said of the vault paid for where it is
`unfunded` or `frozen`. -/
theorem settles_owed {db : Db} {paymentHash : String} {now : Instant}
    (pending : db.invoicePending paymentHash = true) :
    Settles owed (fun paid k => k = paid.id →
      paid.life.status ≠ .unfunded ∧ paid.life.status ≠ .frozen) db paymentHash now := by
  intro faults out
  have calm := commit_markPaidStmts db paymentHash now
  -- a fault takes all of it back; without one it is the transaction
  rcases TxPart.commit_cases (steady_markPaidStmts paymentHash now) faults db with
    ⟨e, n, fault, ended⟩ | same
  · exact .inl ⟨e, ended, .inl ⟨n, fault⟩⟩
  cases issued : db.invoice? paymentHash with
  | none => simp [Db.invoicePending, issued] at pending
  | some i =>
    cases here : db.vault? i.vaultId with
    | none =>
      have missing : db.markPaidAndCheckinTx paymentHash now = (db, .noVaultRow) := by
        unfold Db.markPaidAndCheckinTx
        simp only [pending, if_true, issued, Option.bind_some, Db.vault?_markInvoicePaid, here]
      rw [missing] at calm
      exact .inl ⟨_, same.trans calm, .inr here⟩
    | some paid =>
      have rows := Db.vault?_markPaidAndCheckinTx now pending issued here
      obtain ⟨reset, siblings, came⟩ := markPaidAndCheckinTx_paid now pending issued here
      cases tx : db.markPaidAndCheckinTx paymentHash now with
      | mk db' outcome =>
        rw [tx] at calm came rows
        dsimp only at came rows
        subst came
        refine .inr ⟨i, paid, _, rfl, here, congrArg Prod.fst (same.trans calm), fun k _ => ?_⟩
        unfold ResetIf
        rw [show out.2 = db' from congrArg Prod.snd (same.trans calm), rows k]
        congr 1
        funext r
        exact onRow_eq_owed paid now r

/-! ## §4 A vault in a claim -/

section Claiming

open Deployment

/-- A funded vault with an invoice out, whose heir is in the middle of a claim. -/
def claimingAndInvoiced : List (Move Oracle Drift Request) :=
  fundedAndIssued ++ [.start (.lnurlpCallback "v" (some 1000) false)] ++ steps 3 9 (oracle "" []) ++
    [.start (.broadcastClaim "token" "coin")] ++ steps 4 3 (oracle "" [])

/-- In such a world a payment of the invoice takes the vault out of its claim. -/
def takesOut (w : World) : Bool :=
  let out := (markPaidStmts "ghostkey:checkin:v" w.clock).commit TxPart.calm w.db
  w.db.invoicePending "ghostkey:checkin:v" &&
    (w.db.invoice? "ghostkey:checkin:v").any (fun i => i.vaultId = "v") &&
    (w.vault? "v").any (fun r => r.life.status = .claiming) &&
    (out.2.vault? "v").any fun r => r.life.status = .ok

/-- The vault paid for is reset in a state in which a sibling would not be. -/
theorem not_settles_listed :
    ¬ ∀ (db : Db) (paymentHash : String) (now : Instant), db.invoicePending paymentHash = true →
      Settles listed (fun _ _ => True) db paymentHash now := by
  intro settles
  obtain ⟨tr, c, -, check⟩ :=
    reaches_of_play (host 0) claimingAndInvoiced takesOut (by decide +kernel)
  unfold takesOut at check
  simp only [Bool.and_eq_true, Option.any_eq_true, decide_eq_true_eq] at check
  obtain ⟨⟨⟨pending, i, issued, ofVault⟩, r, row, claiming⟩, r', row', reset⟩ := check
  have row : c.world.db.vault? "v" = some r := row
  rcases settles _ _ c.world.clock pending TxPart.calm with
    ⟨e, ended, none⟩ | ⟨i', paid, outcome, -, -, -, all⟩
  · rcases none with ⟨n, fault⟩ | gone
    · cases fault
    · rw [issued, Option.bind_some, ofVault, row] at gone
      cases gone
  · have kept := all "v" trivial
    have unlisted : listed paid c.world.clock r = false := by
      simp [listed, tracked, claiming]
    unfold ResetIf at kept
    rw [row, row', Option.map_some, unlisted, Option.some.injEq] at kept
    have same : r' = r := kept
    rw [same, claiming] at reset
    cases reset

/-- What does hold in that world. -/
theorem settles_owed_claiming :
    ∃ (w : World) (r : VaultRow), w.vault? "v" = some r ∧ r.life.status = .claiming ∧
      Settles owed (fun paid k => k = paid.id →
        paid.life.status ≠ .unfunded ∧ paid.life.status ≠ .frozen)
          w.db "ghostkey:checkin:v" w.clock := by
  obtain ⟨tr, c, -, check⟩ :=
    reaches_of_play (host 0) claimingAndInvoiced takesOut (by decide +kernel)
  unfold takesOut at check
  simp only [Bool.and_eq_true, Option.any_eq_true, decide_eq_true_eq] at check
  obtain ⟨⟨⟨pending, -⟩, r, row, claiming⟩, -⟩ := check
  exact ⟨c.world, r, row, claiming, settles_owed pending⟩

end Claiming

end Payment

end GhostKey

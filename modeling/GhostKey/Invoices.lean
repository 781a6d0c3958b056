import GhostKey.Conduct.Invoices
import GhostKey.Payment
import GhostKey.Rows

/-!
# The Life of an Invoice

An invoice is minted for one vault and one purpose and then waits; a payment resets clocks or
freezes a vault, so it must count once, for that vault and that purpose. Only the poller moves
an invoice on, and it may be the second of two to hear of the same payment: its transactions
compare and swap, but what it writes of an expired or failed invoice asks for nothing.

Layers:
1. statements and transactions seen from one invoice, `InvoiceChange`;
2. the invoice along a run, `Runs.invoice_issued`, `Runs.still_pending`;
3. `invoicesKept`: where invoices come from, what moves them on and what replies hand out.
-/

namespace GhostKey

open Foundation Program

/-! ## §1 One step and one invoice -/

/-- What a statement that succeeds leaves of the invoice with the payment hash `hash`. -/
def Stmt.onInvoice (hash : String) : Stmt → Option InvoiceRow → Option InvoiceRow
  | .insertInvoice i, row => if hash = i.paymentHash then some i else row
  | .expireInvoices now, row => row.map fun i =>
      if decide (i.status = .pending) && decide (i.expiresAt ≤ now) then
        { i with status := .expired }
      else i
  | .invoicePolled paymentHash now, row => row.map fun i =>
      if i.paymentHash = paymentHash then { i with lastPolledAt := some now } else i
  | .invoiceExpired paymentHash, row => row.map fun i =>
      if i.paymentHash = paymentHash then { i with status := .expired } else i
  | .invoiceFailed paymentHash reason, row => row.map fun i =>
      if i.paymentHash = paymentHash then { i with status := .failed, lastError := some reason }
      else i
  | .deleteVault id, row => row.filter fun i => !decide (i.vaultId = id)
  | _, row => row

theorem Db.invoice?_updateInvoices (db : Db) (p : InvoiceRow → Bool) (f : InvoiceRow → InvoiceRow)
    (keeps : ∀ r, (f r).paymentHash = r.paymentHash) (hash : String) :
    (db.updateInvoices p f keeps).invoice? hash =
      (db.invoice? hash).map fun r => if p r then f r else r :=
  KeyedTable.find?_update db.invoices p f keeps hash

theorem Db.invoice?_hash {db : Db} {hash : String} {i : InvoiceRow}
    (here : db.invoice? hash = some i) : i.paymentHash = hash :=
  KeyedTable.find?_key here

theorem Stmt.invoice?_run {st : Stmt} {db db' : Db} {n : Nat} (ran : st.run db = .ok (db', n))
    (hash : String) : db'.invoice? hash = st.onInvoice hash (db.invoice? hash) := by
  -- one case per statement; those below `deleteVault` leave the table as it is
  cases st with
  | insertInvoice i =>
    simp only [run] at ran
    split at ran
    · split at ran
      · split at ran
        · cases ran
        · next invoices inserted =>
          cases ran
          exact KeyedTable.find?_insert? inserted hash
      · cases ran
    · cases ran
  | expireInvoices now =>
    cases ran
    exact Db.invoice?_updateInvoices db _ _ _ hash
  | invoicePolled paymentHash now =>
    cases ran
    refine (Db.invoice?_updateInvoices db _ _ _ hash).trans ?_
    simp [onInvoice]
  | invoiceExpired paymentHash =>
    cases ran
    refine (Db.invoice?_updateInvoices db _ _ _ hash).trans ?_
    simp [onInvoice]
  | invoiceFailed paymentHash reason =>
    cases ran
    refine (Db.invoice?_updateInvoices db _ _ _ hash).trans ?_
    simp [onInvoice]
  | deleteVault id =>
    cases ran
    exact KeyedTable.find?_delete db.invoices _ hash
  -- no other statement reaches `lightning_invoices`
  | updateVault id u =>
    cases ran
    rfl
  | insertVault r =>
    simp only [run, Db.insertVault] at ran
    split at ran
    · split at ran
      · cases ran
      · cases ran
        rfl
    · cases ran
  | insertGuardian g =>
    simp only [run] at ran
    split at ran
    · split at ran
      · cases ran
      · cases ran
        rfl
    · cases ran
  | insertEvent e =>
    simp only [run] at ran
    split at ran <;> cases ran
    rfl
  | insertNotification e =>
    simp only [run] at ran
    split at ran <;> cases ran
    rfl
  | insertDeposit d =>
    simp only [run] at ran
    split at ran <;> cases ran <;> rfl
  | stampDepositSpent vaultId outpoint now =>
    cases ran
    rfl

/-- The clock resets of a payment leave the invoices alone. -/
theorem Db.invoices_resetPaid (now : Instant) (db : Db) (paid : VaultRow) :
    (Db.resetPaid now db paid).1.invoices = db.invoices := by
  unfold resetPaid
  split <;> rfl

theorem Db.invoices_foldl_resetSibling (now : Instant) (sibs : List VaultRow)
    (acc : Db × List VaultId) :
    (sibs.foldl (Db.resetSibling now) acc).1.invoices = acc.1.invoices := by
  induction sibs generalizing acc with
  | nil => rfl
  | cons s sibs ih =>
    rw [List.foldl_cons, ih, resetSibling]
    split <;> rfl

/-- Both transactions swap the invoice, or leave the database as it is. -/
theorem Db.invoices_markPaidAndCheckinTx (db : Db) (paymentHash : String) (now : Instant) :
    (db.markPaidAndCheckinTx paymentHash now).1 = db ∨
      (db.markPaidAndCheckinTx paymentHash now).1.invoices =
        (db.markInvoicePaid paymentHash now).invoices := by
  unfold markPaidAndCheckinTx
  split
  · dsimp only
    split
    · exact .inl rfl
    · exact .inr ((invoices_foldl_resetSibling now _ _).trans (invoices_resetPaid now _ _))
  · exact .inl rfl

theorem Db.invoices_markPanicPaidTx (db : Db) (paymentHash : String) (now : Instant) :
    (db.markPanicPaidTx paymentHash now).1 = db ∨
      (db.markPanicPaidTx paymentHash now).1.invoices =
        (db.markInvoicePaid paymentHash now).invoices := by
  unfold markPanicPaidTx
  split
  · dsimp only
    split
    · exact .inl rfl
    · exact .inr rfl
  · exact .inl rfl

namespace Invoices

/-- What an action of the poller makes of the invoice it is about. The two payments find it
pending; what they find is no matter to the other two. -/
inductive Settles (i : InvoiceRow) : Action → InvoiceRow → Prop
  | checkin (t : Instant) (pending : i.status = .pending) :
      Settles i (.payCheckin i.paymentHash t) { i with status := .paid, paidAt := some t }
  | panic (t : Instant) (pending : i.status = .pending) :
      Settles i (.payPanic i.paymentHash t) { i with status := .paid, paidAt := some t }
  | expired : Settles i (.exec (.invoiceExpired i.paymentHash)) { i with status := .expired }
  | failed (reason : String) : Settles i (.exec (.invoiceFailed i.paymentHash reason))
      { i with status := .failed, lastError := some reason }

/-- Everything a step may do to the invoice with one payment hash. -/
inductive InvoiceChange (s : SrvStep) (hash : String) : Prop
  | kept (same : s.after.db.invoice? hash = s.before.db.invoice? hash)
  | inserted (j : Nat) (i : InvoiceRow) (n : Nat) (did : Did j (.exec (.insertInvoice i)) (.ok n) s)
      (key : i.paymentHash = hash) (after : s.after.db.invoice? hash = some i)
  | dropped (after : s.after.db.invoice? hash = none)
  | polled (i : InvoiceRow) (t : Instant) (before : s.before.db.invoice? hash = some i)
      (after : s.after.db.invoice? hash = some { i with lastPolledAt := some t })
  | lapsed (j n : Nat) (i : InvoiceRow) (t : Instant)
      (did : Did j (.exec (.expireInvoices t)) (.ok n) s)
      (before : s.before.db.invoice? hash = some i) (pending : i.status = .pending)
      (late : i.expiresAt ≤ t)
      (after : s.after.db.invoice? hash = some { i with status := .expired })
  | settled (j : Nat) (a : Action) (r : a.Response) (i i' : InvoiceRow) (did : Did j a r s)
      (before : s.before.db.invoice? hash = some i) (settles : Settles i a i')
      (after : s.after.db.invoice? hash = some i')

section Steps

variable {S : Server} {s : SrvStep} {j : Nat} {hash : String}

private theorem change_exec {st : Stmt} {n : Nat} (explains : (server S).Explains s)
    (did : Did j (.exec st) (.ok n) s) (hash : String) : InvoiceChange s hash := by
  obtain ⟨db, ran, world⟩ := did_exec explains did
  have after : s.after.db.invoice? hash = st.onInvoice hash (s.before.db.invoice? hash) := by
    rw [world]
    exact Stmt.invoice?_run ran hash
  -- one case per statement that reaches the table, by whether it meets this hash
  cases st with
  | insertInvoice i =>
    by_cases same : hash = i.paymentHash
    · exact .inserted j i n did same.symm (after.trans (if_pos same))
    · exact .kept (after.trans (if_neg same))
  | deleteVault id =>
    cases before : s.before.db.invoice? hash with
    | none => exact .dropped (by rw [after, before]; rfl)
    | some i =>
      by_cases gone : i.vaultId = id
      · exact .dropped (by rw [after, before]; simp [Stmt.onInvoice, Option.filter, gone])
      · exact .kept (by rw [after, before]; simp [Stmt.onInvoice, Option.filter, gone])
  | expireInvoices t =>
    cases before : s.before.db.invoice? hash with
    | none => exact .kept (by rw [after, before]; rfl)
    | some i =>
      rw [before, Stmt.onInvoice, Option.map_some] at after
      split at after
      · next hit =>
        simp only [Bool.and_eq_true, decide_eq_true_eq] at hit
        exact .lapsed j n i t did before hit.1 hit.2 after
      · exact .kept (after.trans before.symm)
  | invoicePolled paymentHash t =>
    cases before : s.before.db.invoice? hash with
    | none => exact .kept (by rw [after, before]; rfl)
    | some i =>
      rw [before, Stmt.onInvoice, Option.map_some] at after
      split at after
      · exact .polled i t before after
      · exact .kept (after.trans before.symm)
  -- the poller's two verdicts settle the invoice they name
  | invoiceExpired paymentHash =>
    cases before : s.before.db.invoice? hash with
    | none => exact .kept (by rw [after, before]; rfl)
    | some i =>
      rw [before, Stmt.onInvoice, Option.map_some] at after
      split at after
      · next hit =>
        subst hit
        exact .settled j _ _ i _ did before .expired after
      · exact .kept (after.trans before.symm)
  | invoiceFailed paymentHash reason =>
    cases before : s.before.db.invoice? hash with
    | none => exact .kept (by rw [after, before]; rfl)
    | some i =>
      rw [before, Stmt.onInvoice, Option.map_some] at after
      split at after
      · next hit =>
        subst hit
        exact .settled j _ _ i _ did before (.failed reason) after
      · exact .kept (after.trans before.symm)
  | _ => exact .kept after

/-- A transaction that swaps the invoice of `paymentHash`. -/
private theorem change_swap {a : Action} {r : a.Response} {paymentHash : String} {t : Instant}
    (did : Did j a r s)
    (swaps : s.after.db.invoices = (s.before.db.markInvoicePaid paymentHash t).invoices)
    (settles : ∀ i : InvoiceRow, i.paymentHash = paymentHash → i.status = .pending →
      Settles i a { i with status := .paid, paidAt := some t }) (hash : String) :
    InvoiceChange s hash := by
  have after : s.after.db.invoice? hash = (s.before.db.invoice? hash).map fun i =>
      if decide (i.paymentHash = paymentHash) && decide (i.status = .pending) then
        { i with status := .paid, paidAt := some t }
      else i := by
    rw [Db.invoice?, swaps]
    exact Db.invoice?_updateInvoices s.before.db _ _ _ hash
  cases before : s.before.db.invoice? hash with
  | none => exact .kept (by rw [after, before]; rfl)
  | some i =>
    rw [before, Option.map_some] at after
    split at after
    · next hit =>
      simp only [Bool.and_eq_true, decide_eq_true_eq] at hit
      exact .settled j a r i _ did before (settles i hit.1 hit.2) after
    · exact .kept (after.trans before.symm)

theorem invoiceChange (explains : (server S).Explains s) (hash : String) :
    InvoiceChange s hash := by
  have whole := explains
  unfold System.Explains at whole
  split at whole
  · next j e label =>
    obtain ⟨a, r⟩ := e
    have did : Did j a r s := label
    obtain ⟨o, answer, world⟩ := performed explains did
    -- one case per action that reaches the table
    cases a with
    | exec st =>
      cases r with
      | ok n => exact change_exec explains did hash
      | error e => exact .kept (by rw [← world, Action.perform_exec_error answer])
    -- the two payments settle at most the invoice they name
    | payCheckin paymentHash t =>
      cases r with
      | ok outcome =>
        have tx := congrArg Prod.fst (did_payCheckin explains did)
        rcases Db.invoices_markPaidAndCheckinTx s.before.db paymentHash t with same | swaps
        · exact .kept (by rw [← tx.symm.trans same])
        · rw [tx] at swaps
          refine change_swap did swaps (fun i key pending => ?_) hash
          subst key
          exact .checkin t pending
      | error e => exact .kept (by rw [← world, Action.perform_payCheckin_error answer])
    | payPanic paymentHash t =>
      cases r with
      | ok outcome =>
        have tx := congrArg Prod.fst (did_payPanic explains did)
        rcases Db.invoices_markPanicPaidTx s.before.db paymentHash t with same | swaps
        · exact .kept (by rw [← tx.symm.trans same])
        · rw [tx] at swaps
          refine change_swap did swaps (fun i key pending => ?_) hash
          subst key
          exact .panic t pending
      | error e => exact .kept (by rw [← world, Action.perform_payPanic_error answer])
    | ask x =>
      refine .kept ?_
      rw [← world]
      change (x.effect (o.answer x) s.before).db.invoice? hash = _
      unfold External.effect
      split <;> rfl
    | _ => exact .kept (by rw [← world]; rfl)
  -- drifts, starts and ends leave it as it is
  · next d label =>
    cases d <;> exact .kept (by rw [whole]; rfl)
  · exact .kept (by rw [whole]; rfl)
  · exact .kept (by rw [whole])

end Steps

/-! ## §2 One invoice along a run -/

/-- The row as it was inserted. -/
def minted (i : InvoiceRow) : InvoiceRow :=
  { i with status := .pending, paidAt := none, lastPolledAt := none, lastError := none }

/-- The provider names no two of its invoices by one payment hash: no two are inserted. -/
def FreshHashes (tr : Trace) : Prop :=
  ∀ (j k : ℕ) s t th th' i i' n n', tr[j]? = some s → tr[k]? = some t →
    Did th (.exec (.insertInvoice i)) (.ok n) s → Did th' (.exec (.insertInvoice i')) (.ok n') t →
    i.paymentHash = i'.paymentHash → j = k

/-- The invoice was inserted by a request for its vault and type, as minted. -/
def IssuedBefore (S : Server) (tr : Trace) (k : ℕ) (i : InvoiceRow) : Prop :=
  ∃ j t th q n, j < k ∧ tr[j]? = some t ∧ Did th (.exec (.insertInvoice i)) (.ok n) t ∧
    Started th q (tr.take j) ∧ Issued S q (history th j tr) i

/-- At `m` the poller's thread lists the invoice, which is pending then. -/
def ListedAt (tr : Trace) (m th : ℕ) (i : InvoiceRow) : Prop :=
  ∃ (t : SrvStep) (rows : List InvoiceRow) (i₀ : InvoiceRow), tr[m]? = some t ∧
    Did th (.query .pendingInvoices) (.ok rows) t ∧ i₀ ∈ rows ∧ i₀.status = .pending ∧
      minted i₀ = minted i

/-- The poller's thread has listed the invoice and then been told of it, before position `k`. -/
def ToldBefore (tr : Trace) (k th : ℕ) (i : InvoiceRow) (status : ProviderStatus) : Prop :=
  ∃ m j t, m < j ∧ j < k ∧ ListedAt tr m th i ∧ tr[j]? = some t ∧
    Did th (.ask (.invoiceStatus i.paymentHash)) (.ok status) t

/-- How the poller moves an invoice on: past its expiry, or as the provider has told it. -/
inductive MovedBy (tr : Trace) (k : ℕ) (s : SrvStep) (i : InvoiceRow) : InvoiceRow → Prop
  | lapsed (th n : ℕ) (t : Instant) (tick : Started th .pollerTick (tr.take k))
      (did : Did th (.exec (.expireInvoices t)) (.ok n) s) (late : i.expiresAt ≤ t)
      (past : t ≤ s.before.clock) : MovedBy tr k s i { i with status := .expired }
  | told (th : ℕ) (a : Action) (r : a.Response) (status : ProviderStatus) (i' : InvoiceRow)
      (tick : Started th .pollerTick (tr.take k)) (did : Did th a r s)
      (told : ToldBefore tr k th i status) (follows : Follows i status a)
      (settles : Settles i a i') : MovedBy tr k s i i'

theorem minted_of_issued {S : Server} {q : Request} {h : Hist} {i : InvoiceRow}
    (issued : Issued S q h i) : minted i = i := by
  obtain ⟨-, invoice, t, -, same⟩ := issued
  rw [same]
  rfl

theorem Settles.minted {a : Action} {i i' : InvoiceRow} (settles : Settles i a i') :
    minted i' = minted i := by
  cases settles <;> rfl

theorem Settles.key {a : Action} {i i' : InvoiceRow} (settles : Settles i a i') :
    settles? a = some i.paymentHash := by
  cases settles <;> rfl

/-- Where an invoice goes to depends on what was minted alone. -/
theorem Follows.of_minted {a : Action} {i i' : InvoiceRow} {status : ProviderStatus}
    (follows : Follows i status a) (same : minted i = minted i') : Follows i' status a := by
  have hash := congrArg InvoiceRow.paymentHash same
  have kind := congrArg InvoiceRow.invoiceType same
  simp only [minted] at hash kind
  cases follows with
  | checkin t type => exact hash ▸ .checkin t (kind.symm.trans type)
  | panic t type => exact hash ▸ .panic t (kind.symm.trans type)
  | expired => exact hash ▸ .expired
  | failed reason => exact hash ▸ .failed reason

section Run

variable {S : Server} {t₀ : Instant} {tr : Trace} {s : SrvStep} {k : ℕ} {hash : String}
  {i : InvoiceRow}

theorem minds_at (runs : Runs S t₀ tr) (at_k : tr[k]? = some s) {th : ℕ} {e : Ev}
    (label : s.label = .acted th e) :
    ∃ q, Started th q (tr.take k) ∧ Minds S q (history th k tr) e.action := by
  obtain ⟨c, run⟩ := runs
  exact run.acted_at (S := server S) (fun q => minds_request (q := q)) at_k label

/-- Every invoice on file was issued. -/
theorem issued_before (runs : Runs S t₀ tr) (at_k : tr[k]? = some s)
    (here : s.before.db.invoice? hash = some i) : IssuedBefore S tr k (minted i) := by
  obtain ⟨c, run⟩ := id runs
  refine ((run.invariant_at (P := fun k (w : World) => ∀ i, w.db.invoice? hash = some i →
    IssuedBefore S tr k (minted i)) (fun i none => by cases none) ?_).1 k s at_k).1 i here
  intro k s at_k explains issued i after
  -- by induction over the steps; only an INSERT brings an invoice into the table
  have later : ∀ {i'}, IssuedBefore S tr k i' → IssuedBefore S tr (k + 1) i' := by
    rintro i' ⟨j, t, th, q, n, lt, rest⟩
    exact ⟨j, t, th, q, n, Nat.lt_succ_of_lt lt, rest⟩
  cases invoiceChange explains hash with
  | kept same => exact later (issued i (same ▸ after))
  | inserted th i' n did key after' =>
    rw [after'] at after
    cases after
    obtain ⟨q, started, minds⟩ := minds_at runs at_k did
    have fresh := minds.issues i rfl
    rw [minted_of_issued fresh]
    exact ⟨k, s, th, q, n, Nat.lt_succ_self k, at_k, did, started, fresh⟩
  | dropped after' =>
    rw [after'] at after
    cases after
  | polled i' t before after' =>
    rw [after'] at after
    cases after
    exact later (issued i' before)
  | lapsed th n i' t did before pending late after' =>
    rw [after'] at after
    cases after
    exact later (issued i' before)
  | settled th a r i' i'' did before settles after' =>
    rw [after'] at after
    cases after
    rw [settles.minted]
    exact later (issued i' before)

/-- An invoice that is on file is not inserted again. -/
theorem not_inserted_again (runs : Runs S t₀ tr) (fresh : FreshHashes tr) {j n th : ℕ}
    {t : SrvStep} {i' : InvoiceRow} (at_j : tr[j]? = some s)
    (here : s.before.db.invoice? hash = some i) (le : j ≤ k) (at_k : tr[k]? = some t)
    (did : Did th (.exec (.insertInvoice i')) (.ok n) t) : i'.paymentHash ≠ hash := by
  intro same
  obtain ⟨m, u, th', q, n', lt, at_m, did', -⟩ := issued_before runs at_j here
  have one := fresh m k u t th' th _ i' n' n at_m at_k did' did
    ((Db.invoice?_hash here).trans same.symm)
  omega

/-- What the poller has listed. -/
theorem listed {rows : List InvoiceRow} {db : Db}
    (read : Query.pendingInvoices.eval db = .ok rows) : (rows.map InvoiceRow.paymentHash).Nodup ∧
      ∀ i ∈ rows, db.invoice? i.paymentHash = some i ∧ i.status = .pending := by
  cases read
  have sorted := List.perm_insertionSort Db.polledBefore
    (db.invoices.select fun i => decide (i.status = .pending))
  constructor
  · refine List.Nodup.sublist ((List.take_sublist 32 _).map _) ?_
    rw [(sorted.map InvoiceRow.paymentHash).nodup_iff]
    exact KeyedTable.nodup_select db.invoices _
  · intro i mem
    have selected := sorted.mem_iff.1 (List.mem_of_mem_take mem)
    obtain ⟨here, pending⟩ := KeyedTable.mem_select.1 selected
    exact ⟨here, of_decide_eq_true pending⟩

theorem poller_alone (S : Server) (running : List Request) (here : .pollerTick ∈ running) :
    (server S).mayStart .pollerTick running = false := by
  simp [server, Request.mayStart, here]

/-- No other poller acts between two actions of one. -/
theorem only_poller (runs : Runs S t₀ tr) {m n th th' : ℕ} {u u' : SrvStep} {e e' e'' : Ev}
    (at_m : tr[m]? = some u) (acted : u.label = .acted th e) (lt : m < n)
    (at_n : tr[n]? = some u') (acted' : u'.label = .acted th' e')
    (tick' : Started th' .pollerTick (tr.take n)) (lt' : n < k) (at_k : tr[k]? = some s)
    (acted'' : s.label = .acted th e'') (tick : Started th .pollerTick (tr.take k)) :
    th' = th := by
  by_contra other
  obtain ⟨c, run⟩ := runs
  have here := run.started_before at_m acted (Nat.le_of_lt (lt.trans lt')) tick
  have past := run.ended_before (poller_alone S) lt at_n acted' here tick' (Ne.symm other)
  exact (run.silent_at at_k (Nat.le_of_lt lt') past).1 e'' acted''

/-- From its listing to the action that follows on it, an invoice stays pending. -/
theorem still_pending (runs : Runs S t₀ tr) (fresh : FreshHashes tr) (at_k : tr[k]? = some s)
    {th : ℕ} {a : Action} {r : a.Response} (did : Did th a r s)
    (tick : Started th .pollerTick (tr.take k)) {i₀ : InvoiceRow}
    (heard : Heard (history th k tr) a i₀) (key : i₀.paymentHash = hash)
    (here : s.before.db.invoice? hash = some i) :
    i.status = .pending ∧ minted i = minted i₀ ∧ ∃ status, ToldBefore tr k th i status ∧
      Follows i₀ status a := by
  obtain ⟨before, after, status, rows, whole, read, mem, follows, once⟩ := heard
  obtain ⟨p, u, p_lt, at_p, asked, same⟩ := history_split whole
  rw [← same] at read
  obtain ⟨m, u', m_lt, at_m, queried, eval⟩ := runs.read_at read
  obtain ⟨nodup, pending⟩ := listed eval
  obtain ⟨onFile, waits⟩ := pending i₀ mem
  rw [key] at onFile
  obtain ⟨c, run⟩ := id runs
  have unread := (did_query (runs.explains_at at_m) queried).2
  have kept := run.since (P := fun w => ∀ i, w.db.invoice? hash = some i →
    i.status = .pending ∧ minted i = minted i₀) at_m ?_ ?_ (m_lt.trans p_lt) at_k
  · obtain ⟨pending, same⟩ := kept i here
    rw [key, ← Db.invoice?_hash here] at asked
    exact ⟨pending, same, status,
      ⟨m, p, u, m_lt, p_lt, ⟨u', rows, i₀, at_m, queried, mem, waits, same.symm⟩, at_p, asked⟩,
      follows⟩
  · intro i here
    rw [unread, onFile] at here
    cases here
    exact ⟨waits, rfl⟩
  · intro n w after_m before_k at_n still i after
    cases invoiceChange (runs.explains_at at_n) hash with
    | kept same => exact still i (same ▸ after)
    | inserted th' i' n' did' key' after' =>
      exact absurd key' (not_inserted_again runs fresh at_m onFile (Nat.le_of_lt after_m) at_n did')
    | dropped after' =>
      rw [after'] at after
      cases after
    | polled i' t before after' =>
      rw [after'] at after
      cases after
      exact still i' before
    | lapsed th' n' i' t did' before pending late after' =>
      -- a poller drops the late ones before it lists the others
      obtain ⟨q, started, minds⟩ := minds_at runs at_n did'
      obtain ⟨rfl, first⟩ := minds.expires t rfl
      obtain rfl := only_poller runs at_m queried after_m at_n did' started before_k at_k did tick
      have earlier : (⟨.query .pendingInvoices, .ok rows⟩ : Ev) ∈ history th' n tr :=
        mem_history.2 ⟨m, u', after_m, at_m, queried⟩
      rw [first] at earlier
      cases List.mem_singleton.1 earlier
    | settled th' a' r' i' i'' did' before settles after' =>
      -- it acts once on each of them
      obtain ⟨q, started, minds⟩ := minds_at runs at_n did'
      have about : settles? a' = some hash :=
        settles.key.trans (congrArg some (Db.invoice?_hash before))
      obtain ⟨rfl, -⟩ := minds.settles hash about
      obtain rfl := only_poller runs at_m queried after_m at_n did' started before_k at_k did tick
      refine absurd (key ▸ about) (once nodup ⟨a', r'⟩ ?_)
      exact mem_history.2 ⟨n, w, before_k, at_n, did'⟩

/-! ## §3 What the invoices keep -/

/-- A step that changes an invoice's status finds it pending, and is the poller's. -/
theorem moved (runs : Runs S t₀ tr) (fresh : FreshHashes tr) (at_k : tr[k]? = some s)
    {i' : InvoiceRow} (before : s.before.db.invoice? hash = some i)
    (after : s.after.db.invoice? hash = some i') :
    minted i' = minted i ∧ (i'.status ≠ i.status → i.status = .pending ∧ MovedBy tr k s i i') := by
  -- one case per change: only the last two move a status
  cases invoiceChange (runs.explains_at at_k) hash with
  | kept same =>
    rw [same, before] at after
    cases after
    exact ⟨rfl, fun differs => absurd rfl differs⟩
  | inserted th i'' n did key after' =>
    exact absurd key (not_inserted_again runs fresh at_k before le_rfl at_k did)
  | dropped after' =>
    rw [after'] at after
    cases after
  | polled i'' t before' after' =>
    rw [before'] at before
    rw [after'] at after
    cases before
    cases after
    exact ⟨rfl, fun differs => absurd rfl differs⟩
  | lapsed th n i'' t did before' pending late after' =>
    rw [before'] at before
    rw [after'] at after
    cases before
    cases after
    obtain ⟨q, started, minds⟩ := minds_at runs at_k did
    obtain ⟨rfl, first⟩ := minds.expires t rfl
    -- the poller expires by a time it has read before
    have clock : ClockRead (history th k tr) t := by
      rw [first]
      exact List.mem_cons_self
    obtain ⟨j, u, lt, at_j, -, rfl⟩ := runs.clock_at clock
    exact ⟨rfl, fun _ => ⟨pending, .lapsed th n _ started did late
      (runs.clock_mono at_j (Nat.le_of_lt lt) at_k)⟩⟩
  | settled th a r i'' i''' did before' settles after' =>
    rw [before'] at before
    rw [after'] at after
    cases before
    cases after
    refine ⟨settles.minted, fun _ => ?_⟩
    obtain ⟨q, started, minds⟩ := minds_at runs at_k did
    -- the statement names this hash, so the request has heard of it
    have about : settles? a = some hash :=
      settles.key.trans (congrArg some (Db.invoice?_hash before'))
    obtain ⟨rfl, i₀, key, heard⟩ := minds.settles hash about
    obtain ⟨pending, same, status, told, follows⟩ :=
      still_pending runs fresh at_k did started heard key before'
    exact ⟨pending, .told th a r status i' started did told (follows.of_minted same.symm) settles⟩

/-- What has moved on stays where it is. -/
theorem settled_for_good (runs : Runs S t₀ tr) (fresh : FreshHashes tr) {j : ℕ} {t : SrvStep}
    {i' : InvoiceRow} (at_j : tr[j]? = some s) (at_k : tr[k]? = some t) (le : j ≤ k)
    (before : s.before.db.invoice? hash = some i) (past : i.status ≠ .pending)
    (after : t.after.db.invoice? hash = some i') : i'.status = i.status := by
  -- one step: an invoice that is gone does not come back, a settled one is not moved
  have step : ∀ n u, j ≤ n → tr[n]? = some u →
      (∀ i', u.before.db.invoice? hash = some i' → i'.status = i.status) →
        ∀ i', u.after.db.invoice? hash = some i' → i'.status = i.status := by
    intro n u le at_n still i' after
    cases here : u.before.db.invoice? hash with
    | none =>
      cases invoiceChange (runs.explains_at at_n) hash with
      | kept same => rw [same, here] at after; cases after
      | inserted th i'' m did key after' =>
        exact absurd key (not_inserted_again runs fresh at_j before le at_n did)
      | dropped after' => rw [after'] at after; cases after
      | polled i'' t before' after' => rw [here] at before'; cases before'
      | lapsed th m i'' t did before' pending late after' => rw [here] at before'; cases before'
      | settled th a r i'' i''' did before' settles after' => rw [here] at before'; cases before'
    | some i'' =>
      have old := still i'' here
      by_contra differs
      refine past (old ▸ ((moved runs fresh at_n here after).2 ?_).1)
      exact fun same => differs (same.trans old)
  obtain ⟨c, run⟩ := id runs
  have first : ∀ i', s.before.db.invoice? hash = some i' → i'.status = i.status := by
    intro i' here
    rw [before] at here
    cases here
    rfl
  -- then by induction over the steps between
  rcases Nat.eq_or_lt_of_le le with rfl | lt
  · rw [at_j] at at_k
    cases at_k
    exact step j s le_rfl at_j first i' after
  · refine step k t le at_k ?_ i' after
    refine run.since (P := fun w => ∀ i', w.db.invoice? hash = some i' → i'.status = i.status)
      at_j (step j s le_rfl at_j first) ?_ lt at_k
    exact fun n u after' _ at_n => step n u (Nat.le_of_lt after') at_n

/-- The step turns the invoice into a paid one. -/
def Pays (s : SrvStep) (hash : String) : Prop :=
  ∃ i i', s.before.db.invoice? hash = some i ∧ s.after.db.invoice? hash = some i' ∧
    i.status ≠ .paid ∧ i'.status = .paid

/-- What is kept of every invoice. -/
structure InvoicesKept (S : Server) (tr : Trace) : Prop where
  /-- It is what the provider has minted for a request for its vault and type. -/
  issued : ∀ (k : ℕ) s hash i, tr[k]? = some s → s.before.db.invoice? hash = some i →
    IssuedBefore S tr k (minted i)
  /-- Nothing of that changes, and its status only where the poller moves it on. -/
  moves : ∀ (k : ℕ) s hash i i', tr[k]? = some s → s.before.db.invoice? hash = some i →
    s.after.db.invoice? hash = some i' → minted i' = minted i ∧
      (i'.status ≠ i.status → i.status = .pending ∧ MovedBy tr k s i i')
  /-- It moves on once. -/
  final : ∀ (j k : ℕ) s t hash i i', tr[j]? = some s → tr[k]? = some t → j ≤ k →
    s.before.db.invoice? hash = some i → i.status ≠ .pending →
      t.after.db.invoice? hash = some i' → i'.status = i.status
  /-- Its payment counts once. -/
  once : ∀ (j k : ℕ) s t hash, tr[j]? = some s → tr[k]? = some t → Pays s hash → Pays t hash →
    j = k

theorem paid_once (runs : Runs S t₀ tr) (fresh : FreshHashes tr) {j : ℕ} {t : SrvStep}
    (at_j : tr[j]? = some s) (at_k : tr[k]? = some t) (pays : Pays s hash) (pays' : Pays t hash) :
    k ≤ j := by
  obtain ⟨i, i', before, after, unpaid, paid⟩ := pays
  obtain ⟨i₁, i₁', before', after', unpaid', paid'⟩ := pays'
  have pending := ((moved runs fresh at_k before' after').2 (paid' ▸ unpaid'.symm)).1
  by_contra late
  obtain ⟨c, run⟩ := id runs
  have lt := Nat.not_le.1 late
  -- the payment at `j` is seen by the next step, and from then on
  have size := (List.getElem?_eq_some_iff.1 at_k).1
  have at_next : tr[j + 1]? = some tr[j + 1] := List.getElem?_eq_getElem (by omega)
  have next := run.after_at at_j at_next
  rw [next] at after
  have settled : i'.status ≠ .pending := by
    rw [paid]
    exact fun same => by cases same
  rcases Nat.eq_or_lt_of_le (Nat.succ_le_of_lt lt) with same | later
  · rw [← same, at_next] at at_k
    cases at_k
    rw [after] at before'
    cases before'
    exact settled pending
  · obtain ⟨m, rfl⟩ : ∃ m, k = m + 1 := ⟨k - 1, by omega⟩
    have at_m : tr[m]? = some tr[m] := List.getElem?_eq_getElem (by omega)
    rw [← run.after_at at_m at_k] at before'
    have same := settled_for_good runs fresh at_next at_m (by omega) after settled before'
    exact unpaid' (same.trans paid)

theorem invoicesKept (runs : Runs S t₀ tr) (fresh : FreshHashes tr) : InvoicesKept S tr where
  issued _ _ _ _ at_k here := issued_before runs at_k here
  moves _ _ _ _ _ at_k before after := moved runs fresh at_k before after
  final _ _ _ _ _ _ _ at_j at_k le before past after :=
    settled_for_good runs fresh at_j at_k le before past after
  once _ _ _ _ _ at_j at_k pays pays' :=
    Nat.le_antisymm (paid_once runs fresh at_k at_j pays' pays)
      (paid_once runs fresh at_j at_k pays pays')

end Run

/-- Whether the step writes an invoice down. -/
def writes (s : SrvStep) : Bool :=
  match s.label with
  | .acted _ ⟨.exec (.insertInvoice _), .ok _⟩ => true
  | _ => false

/-- Whether the step turns the invoice into a paid one. -/
def paying (hash : String) (s : SrvStep) : Bool :=
  match s.before.db.invoice? hash, s.after.db.invoice? hash with
  | some i, some i' => i.status ≠ .paid && i'.status = .paid
  | _, _ => false

theorem pays_of_paying {s : SrvStep} {hash : String} (pays : paying hash s = true) :
    Pays s hash := by
  unfold paying at pays
  split at pays
  · next i i' before after =>
    simp only [Bool.and_eq_true, decide_eq_true_eq] at pays
    exact ⟨i, i', before, after, pays.1, pays.2⟩
  · cases pays

theorem freshHashes_of_writes {tr : Trace} {at_ : ℕ}
    (once : (tr.zipIdx.all fun p => !writes p.1 || p.2 = at_) = true) : FreshHashes tr := by
  have only : ∀ (j : ℕ) s th i n, tr[j]? = some s → Did th (.exec (.insertInvoice i)) (.ok n) s →
      j = at_ := by
    intro j s th i n at_j did
    have here := List.all_eq_true.1 once (s, j) (List.mk_mem_zipIdx_iff_getElem?.2 at_j)
    have wrote : writes s = true := by
      unfold writes
      rw [show s.label = _ from did]
    simpa [wrote] using here
  intro j k s t th th' i i' n n' at_j at_k did did' _
  exact (only j s th i n at_j did).trans (only k t th' i' n' at_k did').symm

/-- A wallet pays the invoice that the vault's link has handed it, and the poller hears of it. -/
theorem invoicesKept_paid : ∃ tr, Runs (Deployment.host 0) 0 tr ∧ FreshHashes tr ∧
    (∃ (k : ℕ) (s : SrvStep), tr[k]? = some s ∧ Pays s "ghostkey:checkin:v") ∧
      InvoicesKept (Deployment.host 0) tr := by
  obtain ⟨tr, runs, checks⟩ := Deployment.runs_of_play (Deployment.host 0) Deployment.funded
    (fun tr => (tr.zipIdx.all fun p => !writes p.1 || p.2 = 15) &&
      tr[26]?.any (paying "ghostkey:checkin:v")) (by decide +kernel)
  simp only [Bool.and_eq_true, Option.any_eq_true] at checks
  obtain ⟨once, s, at_k, pays⟩ := checks
  have fresh := freshHashes_of_writes once
  exact ⟨tr, runs, fresh, ⟨26, s, at_k, pays_of_paying pays⟩, invoicesKept runs fresh⟩

/-! ## §4 What replies hand out -/

section Replies

variable {S : Server} {t₀ : Instant} {tr : Trace} {s : SrvStep} {k : ℕ} {i : InvoiceRow}

/-- While the request ran, the invoice was on file for it, and nobody had paid it. -/
def Offered (tr : Trace) (k th : ℕ) (q : Request) (i : InvoiceRow) : Prop :=
  AsksFor q i.vaultId i.invoiceType ∧ i.status = .pending ∧
    ∃ j t e, j < k ∧ tr[j]? = some t ∧ t.label = .acted th e ∧
      t.after.db.invoice? i.paymentHash = some i

theorem offered_of_behind (runs : Runs S t₀ tr) {th : ℕ} {q : Request}
    (started : Started th q (tr.take k)) (behind : Behind q (history th k tr) i) :
    Offered tr k th q i := by
  obtain ⟨c, run⟩ := id runs
  rcases behind with ⟨n, wrote⟩ | ⟨v, type, t, asksFor, -, read⟩
  -- a fresh one was written by this thread
  · obtain ⟨j, t, lt, at_j, did⟩ := mem_history.1 wrote
    obtain ⟨q', started', minds⟩ := minds_at runs at_j did
    obtain ⟨c', before⟩ := run.take k
    obtain rfl := before.started_unique (started'.later (Nat.le_of_lt lt)) started
    have issued := minds.issues i rfl
    refine ⟨issued.1, congrArg InvoiceRow.status (minted_of_issued issued).symm, j, t, _, lt, at_j,
      did, ?_⟩
    obtain ⟨db, ran, world⟩ := did_exec (runs.explains_at at_j) did
    rw [world]
    exact (Stmt.invoice?_run ran _).trans (if_pos rfl)
  -- a reused one was on file when it was read
  · obtain ⟨j, u, lt, at_j, did, eval⟩ := runs.read_at read
    have found : i ∈ u.before.db.invoices.select fun i => decide (i.vaultId = v ∧
        i.invoiceType = type ∧ i.status = .pending ∧ t < i.expiresAt) := by
      cases eval' : Query.eval (.reusableInvoice v type t) u.before.db with
      | error e => rw [eval'] at eval; cases eval
      | ok res =>
        rw [eval'] at eval
        cases eval
        have first := List.mem_of_head? (Except.ok.inj eval')
        exact (List.perm_insertionSort _ _).mem_iff.1 first
    obtain ⟨here, fits⟩ := KeyedTable.mem_select.1 found
    obtain ⟨rfl, rfl, pending, -⟩ := of_decide_eq_true fits
    refine ⟨asksFor, pending, j, u, _, lt, at_j, did, ?_⟩
    rw [(did_query (runs.explains_at at_j) did).2]
    exact here

/-- An invoice handed out, as such or as its text, was offered. -/
theorem handedOut (runs : Runs S t₀ tr) (at_k : tr[k]? = some s) {th : ℕ} {q : Request}
    {rep : Reply} (ret : s.label = .returned th (.ok rep)) (started : Started th q (tr.take k)) :
    (∀ i, rep = .invoice i → Offered tr k th q i) ∧
      ∀ bolt11, rep = .lnurl (.payResponse bolt11) →
        ∃ i, i.bolt11 = bolt11 ∧ Offered tr k th q i := by
  obtain ⟨c, run⟩ := id runs
  obtain ⟨q', started', handed⟩ :=
    run.returned_at (S := server S) (fun q => minds_request (q := q)) at_k ret
  obtain ⟨c', before⟩ := run.take k
  obtain rfl := before.started_unique started' started
  have behind := handed rep rfl
  constructor
  · rintro i rfl
    exact offered_of_behind runs started behind
  · rintro bolt11 rfl
    obtain ⟨i, text, behind⟩ := behind
    exact ⟨i, text, offered_of_behind runs started behind⟩

end Replies

/-- Whether the step returns the text of an invoice to the wallet of thread `th`. -/
def answers (th : ℕ) (bolt11 : String) (s : SrvStep) : Bool :=
  match s.label with
  | .returned th' (.ok (.lnurl (.payResponse text))) => th' = th && text = bolt11
  | _ => false

theorem handedOut_callback : ∃ tr k s q, Runs (Deployment.host 0) 0 tr ∧ tr[k]? = some s ∧
    s.label = .returned 1 (.ok (.lnurl (.payResponse "lnghostkey:checkin:v"))) ∧
      Started 1 q (tr.take k) ∧ ∃ i, i.bolt11 = "lnghostkey:checkin:v" ∧ Offered tr k 1 q i := by
  obtain ⟨tr, runs, checks⟩ := Deployment.runs_of_play (Deployment.host 0) Deployment.funded
    (fun tr => tr[18]?.any (answers 1 "lnghostkey:checkin:v")) (by decide +kernel)
  obtain ⟨s, at_k, told⟩ := Option.any_eq_true _ _ |>.1 checks
  have ret : s.label = .returned 1 (.ok (.lnurl (.payResponse "lnghostkey:checkin:v"))) := by
    unfold answers at told
    split at told
    · next th' text label =>
      simp only [Bool.and_eq_true, decide_eq_true_eq] at told
      obtain ⟨rfl, rfl⟩ := told
      exact label
    · cases told
  obtain ⟨c, run⟩ := id runs
  obtain ⟨q, started, -⟩ := run.returned_at (S := server (Deployment.host 0))
    (fun q => minds_request (q := q)) at_k ret
  exact ⟨tr, 18, s, q, runs, at_k, ret, started, (handedOut runs at_k ret started).2 _ rfl⟩

end Invoices

end GhostKey

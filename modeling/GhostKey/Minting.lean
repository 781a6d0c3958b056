import GhostKey.Objection
import Mathlib.Data.Fintype.EquivFin

/-!
# Invoices Worth Paying

An invoice is minted on the dashboard, behind the mailed link, or for a wallet. The first two
ask of the vault what its check-in by button asks; the wallet's callback asks less, and may
hand out an invoice that is already there.

Main results:
- `told_of_lnurlpCallback`, `guards_of_createCheckinInvoice`: what an invoice that is handed
  out says of the vault.
- `createCheckinInvoice_mints`: when the dashboard gets one.
- `mintsAgree_iff`: when no invoice is handed out that pays for nothing.
-/

namespace GhostKey

open Foundation Program Prog

/-! ## §1 What an invoice is worth -/

/-- `create_checkin_invoice` mints, where the services do their part. -/
def WouldMint (S : Server) (w : World) (v : VaultId) : Prop :=
  ∃ o i w', atOnce (createCheckinInvoice S v) o w = (.ok i, w')

/-- Paid at that moment, the invoice moves the clock of a vault that has one. -/
def Counts (w : World) (v : VaultId) (bolt11 : String) : Prop :=
  ∃ i r siblings, i ∈ w.db.invoices.rows ∧ i.bolt11 = bolt11 ∧ w.vault? v = some r ∧
    r.life.status ≠ .unfunded ∧ r.life.status ≠ .claimed ∧ r.checkedIn w.clock = false ∧
    (w.db.markPaidAndCheckinTx i.paymentHash w.clock).2 = .paid v true siblings

/-- Paid at that moment, the invoice freezes a vault that holds coins. -/
def Freezes (w : World) (v : VaultId) (bolt11 : String) : Prop :=
  ∃ i r r', i ∈ w.db.invoices.rows ∧ i.bolt11 = bolt11 ∧ w.vault? v = some r ∧
    r.life.status ≠ .unfunded ∧ r.life.status ≠ .claimed ∧
    (w.db.markPanicPaidTx i.paymentHash w.clock).1.vault? v = some r' ∧ r'.life.status = .frozen

/-- The paths to an invoice agree about a vault. -/
structure MintsAgree (S : Server) (w : World) (v : VaultId) : Prop where
  wallet : ∀ o amount bolt11 w',
    atOnce (lnurlpCallback S v amount false) o w = (.ok (.payResponse bolt11), w') →
      WouldMint S w v ∧ Counts w' v bolt11
  dashboard : ∀ o i w', atOnce (createCheckinInvoice S v) o w = (.ok i, w') → Counts w' v i.bolt11
  panic : ∀ o amount bolt11 w',
    atOnce (lnurlpCallback S v amount true) o w = (.ok (.payResponse bolt11), w') →
      Freezes w' v bolt11

/-- What the dashboard asks of the row. -/
def Mints (r : VaultRow) (t : Instant) : Prop :=
  r.life.status ≠ .unfunded ∧ r.life.status ≠ .claimed ∧ r.checkedIn t = false

/-! ## §2 What was handed out -/

section HandedOut

variable {S : Server} {o : Oracle} {w : World} {v : VaultId} {r : VaultRow}

/-- A pending invoice of the vault. -/
def Waiting (w : World) (v : VaultId) (i : InvoiceRow) : Prop :=
  i ∈ w.db.invoices.rows ∧ i.status = .pending ∧ i.vaultId = v

/-- Recording an event leaves the invoices alone. -/
theorem invoices_recordEvent (kind : EventKind) (detail : Detail) :
    (atOnce (recordEvent v kind detail) o w).2.db.invoices = w.db.invoices := by
  have only : (recordEvent v kind detail).Only
      fun a => a = .now ∨ ∃ e, a = .exec (.insertEvent e) :=
    .bind (.perform (.inl rfl)) fun t => .bind (only_exec (.inr ⟨_, rfl⟩)) fun _ => trivial
  refine atOnce_keeps (I := fun w₁ : World => w₁.db.invoices = w.db.invoices) only ?_ rfl
  intro a w₁ ran same
  rcases ran with rfl | ⟨e, rfl⟩
  · exact same
  · simp only [Action.perform]
    split
    · exact same
    · split
      · next db n done =>
        simp only [Stmt.run] at done
        split at done <;> cases done
        exact same
      · exact same

/-- An invoice that was stored is there, pending. -/
theorem waiting_of_insertInvoice {invoice : CreatedInvoice} {type : InvoiceType} {i : InvoiceRow}
    {w' : World} (came : atOnce (insertInvoice v invoice type) o w = (.ok i, w')) :
    Waiting w' v i ∧ i.bolt11 = invoice.bolt11 ∧ w.db.hasVault v = true := by
  rw [insertInvoice, bind_eq, atOnce_now_bind] at came
  obtain ⟨n, w₁, ran, rest⟩ := atOnce_bind_eq_ok.1 came
  obtain ⟨-, db, stored, rfl⟩ := atOnce_exec_eq_ok.1 ran
  clear ran came
  simp only [Stmt.run] at stored
  cases rest
  split at stored
  · next present =>
    split at stored
    · split at stored
      · cases stored
      · next invoices inserted =>
        cases stored
        have found := KeyedTable.find?_insert? inserted invoice.paymentHash
        exact ⟨⟨KeyedTable.find?_mem (found.trans (if_pos rfl)), rfl, rfl⟩, rfl, present⟩
    · cases stored
  · cases stored

/-- A pending invoice the wallet is handed again. -/
theorem waiting_of_reusable {type : InvoiceType} {t : Instant} {i : InvoiceRow}
    (found : (Query.reusableInvoice v type t).eval w.db = .ok (some i)) : Waiting w v i := by
  have first := List.mem_of_mem_head? (Option.mem_def.2 (Except.ok.inj found))
  rw [List.mem_insertionSort, KeyedTable.mem_select] at first
  have kept := of_decide_eq_true first.2
  exact ⟨KeyedTable.find?_mem first.1, kept.2.2.1, kept.1⟩

/-- The end of `lnurlp_callback_inner`, for either type of invoice. -/
def handOut (S : Server) (v : VaultId) (type : InvoiceType) :
    Except ApiError (Option InvoiceRow) → Prog LnurlReply
  | .error _ => pure (.error "internal")
  | .ok (some i) => pure (.payResponse i.bolt11)
  | .ok none => do
    let answer ← ask (.createInvoice S.heartbeatAmountSat ("ghostkey:" ++ type.name ++ ":" ++ v))
    match answer with
    | .error _ => pure (.error "provider failed to mint invoice")
    | .ok invoice =>
      let inserted ← ((insertInvoice v invoice type).attempt : Prog (Except ApiError InvoiceRow))
      match inserted with
      | .error _ => pure (.error "internal")
      | .ok _ => do
        logged (recordEvent v .lightningInvoiceIssued
          [("payment_hash", .str invoice.paymentHash), ("amount_sat", .int invoice.amountSat),
            ("source", .str "lnurl"), ("invoice_type", .str type.name)])
        pure (.payResponse invoice.bolt11)

/-- It hands out a pending invoice of the vault. -/
theorem waiting_of_handOut {type : InvoiceType} {bolt11 : String} {w' : World}
    {f : Except ApiError (Query.reusableInvoice v type w.clock).Result → Prog LnurlReply}
    (ends : ∀ existing, f existing = handOut S v type existing)
    (told : atOnce (Program.bind (query (.reusableInvoice v type w.clock)).attempt f) o w =
      (.ok (.payResponse bolt11), w')) :
    ∃ i, Waiting w' v i ∧ i.bolt11 = bolt11 := by
  rw [atOnce_attempt_bind, ends] at told
  cases second : atOnce (query (.reusableInvoice v type w.clock)) o w with
  | mk existing w₁ =>
    rw [second] at told
    -- an invoice on file, or a new one that has been stored
    cases existing with
    | error e => cases told
    | ok existing =>
      obtain ⟨-, found, rfl⟩ := atOnce_query_eq_ok.1 second
      cases existing with
      | some i =>
        cases told
        exact ⟨i, waiting_of_reusable found, rfl⟩
      | none =>
        dsimp only [handOut] at told
        rw [bind_eq, atOnce_ask_bind] at told
        split at told
        · cases told
        · next invoice minted =>
          rw [bind_eq, atOnce_attempt_bind] at told
          split at told
          · cases told
          · next row stored =>
            obtain ⟨waiting, text, -⟩ := waiting_of_insertInvoice (Prod.ext stored rfl)
            rw [bind_eq, atOnce_logged_bind] at told
            cases told
            refine ⟨row, ⟨?_, waiting.2⟩, text⟩
            rw [invoices_recordEvent]
            exact waiting.1

/-- What a wallet is handed says that the vault is there and not claimed, and that the invoice
can be paid. -/
theorem told_of_lnurlpCallback {amount : Option Nat} {isPanic : Bool} {bolt11 : String} {w' : World}
    (told : atOnce (lnurlpCallback S v amount isPanic) o w = (.ok (.payResponse bolt11), w')) :
    S.lightningEnabled = true ∧ (∃ r, w.vault? v = some r ∧ r.life.status ≠ .claimed) ∧
      ∃ i, Waiting w' v i ∧ i.bolt11 = bolt11 := by
  unfold lnurlpCallback at told
  rw [bind_eq, atOnce_attempt_bind] at told
  cases first : atOnce (query (.vault v)) o w with
  | mk found w₁ =>
    rw [first] at told
    cases found with
    | error e => cases told
    | ok row =>
      obtain ⟨-, read, rfl⟩ := atOnce_query_eq_ok.1 first
      have read : w₁.vault? v = row := Except.ok.inj read
      dsimp only at told
      cases row with
      | none => cases told
      | some r =>
        dsimp only at told
        split at told
        · cases told
        · next live =>
          have live : r.life.status ≠ .claimed := by simpa [claimIsFinal] using live
          split at told
          · cases told
          · next enabled =>
            -- past the guards the wallet is handed an invoice on file or a new one
            refine ⟨by simpa using enabled, ⟨r, read, live⟩, ?_⟩
            cases amount with
            | none => cases told
            | some amount =>
              dsimp only at told
              split at told
              · cases told
              · rw [bind_eq, atOnce_now_bind] at told
                refine waiting_of_handOut (S := S) (fun existing => ?_) told
                rcases existing with e | none | i
                · rfl
                · exact congrArg (Program.bind _) (funext fun answer => by cases answer <;> rfl)
                · rfl

/-- An invoice from the dashboard says that the vault can be checked in for. -/
theorem guards_of_createCheckinInvoice {i : InvoiceRow} {w' : World}
    (came : atOnce (createCheckinInvoice S v) o w = (.ok i, w')) :
    S.lightningEnabled = true ∧ (∃ r, w.vault? v = some r ∧ Mints r w.clock) ∧ Waiting w' v i := by
  -- behind the guards: the invoice is filed, the event follows
  have minted : ∀ w₁, atOnce (mintInvoice S v) o w₁ = (.ok i, w') →
      w₁.db.hasVault v = true ∧ Waiting w' v i := by
    intro w₁ came
    rw [mintInvoice, bind_eq, atOnce_ask_bind] at came
    split at came
    · cases came
    · next invoice _ =>
      obtain ⟨row, w₂, stored, recorded⟩ := atOnce_bind_eq_ok.1 came
      obtain ⟨waiting, -, present⟩ := waiting_of_insertInvoice stored
      obtain ⟨u, w₃, event, rest⟩ := atOnce_bind_eq_ok.1 recorded
      cases rest
      have kept := invoices_recordEvent (o := o) (w := w₂) (v := v) .lightningInvoiceIssued
        [("payment_hash", .str invoice.paymentHash), ("amount_sat", .int invoice.amountSat)]
      unfold atOnce at kept
      rw [event] at kept
      exact ⟨present, ⟨by rw [kept]; exact waiting.1, waiting.2⟩⟩
  have enabled := (mintable_of_createCheckinInvoice came).1
  obtain ⟨cad, w₁, read, rest⟩ := atOnce_bind_eq_ok.1 came
  obtain ⟨-, found, same⟩ := atOnce_query_eq_ok.1 read
  clear came read
  subst same
  -- the guards in order: funded, not final, present, outside the period
  have row : w₁.vault? v = cad := Except.ok.inj found
  split at rest
  · cases rest
  · next funded =>
    split at rest
    · cases rest
    · next live =>
      split at rest
      · cases rest
      · dsimp only at rest
        split at rest
        · obtain ⟨present, -⟩ := minted w₁ rest
          rw [Db.hasVault, show w₁.db.vault? v = none from row] at present
          cases present
        · next r =>
          have funded : r.life.status ≠ .unfunded := by simpa using funded
          have live : r.life.status ≠ .claimed := by simpa [claimIsFinal] using live
          split at rest
          -- before the first check-in the period rule is not asked
          · next first =>
            have outside : r.checkedIn w₁.clock = false := by
              simp [VaultRow.checkedIn, insideCurrentPeriod, first]
            exact ⟨enabled, ⟨r, row, funded, live, outside⟩, (minted w₁ rest).2⟩
          · obtain ⟨t, w₂, clock, guarded⟩ := atOnce_bind_eq_ok.1 rest
            cases clock
            obtain ⟨u, w₂, passed, mints⟩ := atOnce_bind_eq_ok.1 guarded
            obtain ⟨outside, rfl⟩ := oncePerPeriod_eq_ok.1 passed
            exact ⟨enabled, ⟨r, row, funded, live, outside⟩, (minted w₂ mints).2⟩

end HandedOut

/-! ## §3 A provider that mints -/

section Provider

variable {S : Server} {o : Oracle} {w : World} {v : VaultId} {r : VaultRow}

/-- Texts are never used up. -/
theorem exists_fresh_text (texts : List String) : ∃ text, text ∉ texts := by
  have marks : Function.Injective fun n => String.ofList (List.replicate n 'i') := by
    intro n m same
    have lengths := congrArg (fun text => text.toList.length) same
    simpa using lengths
  have endless : Infinite String := .of_injective _ marks
  obtain ⟨text, fresh⟩ := Infinite.exists_notMem_finset texts.toFinset
  exact ⟨text, fun listed => fresh (List.mem_toFinset.2 listed)⟩

/-- Services that mint the invoice, whatever else they do. -/
def minting (invoice : CreatedInvoice) : Oracle :=
  ⟨false, fun
    | .createInvoice .. => .ok invoice
    | x => (Deployment.oracle "" []).answer x⟩

/-- Some provider mints an invoice the table does not know. -/
theorem exists_mintable (S : Server) (w : World) (v : VaultId) :
    ∃ invoice, (minting invoice).dbFails = false ∧
      w.db.invoices.select (fun i => i.bolt11 = invoice.bolt11) = [] ∧
      w.db.invoice? invoice.paymentHash = none ∧ Mintable S (minting invoice) w v := by
  obtain ⟨bolt11, newText⟩ := exists_fresh_text (w.db.invoices.rows.map InvoiceRow.bolt11)
  obtain ⟨paymentHash, newHash⟩ := exists_fresh_text (w.db.invoices.rows.map InvoiceRow.paymentHash)
  have texts : w.db.invoices.select (fun i => i.bolt11 = bolt11) = [] := by
    refine List.filter_eq_nil_iff.2 fun i listed same => newText ?_
    exact List.mem_map.2 ⟨i, listed, of_decide_eq_true same⟩
  have hashes : w.db.invoice? paymentHash = none := by
    cases found : w.db.invoice? paymentHash with
    | none => rfl
    | some i =>
      have listed := KeyedTable.find?_mem found
      exact absurd (List.mem_map.2 ⟨i, listed, KeyedTable.find?_key found⟩) newHash
  exact ⟨⟨bolt11, paymentHash, 1, 0⟩, rfl, texts, hashes, _, rfl, texts, hashes⟩

/-- Past its guards the dashboard's invoice depends on the provider alone. -/
theorem atOnce_createCheckinInvoice (answers : o.dbFails = false) (row : w.vault? v = some r)
    (mints : Mints r w.clock) (enabled : S.lightningEnabled = true) :
    atOnce (createCheckinInvoice S v) o w = atOnce (mintInvoice S v) o w := by
  obtain ⟨funded, live, outside⟩ := mints
  rw [createCheckinInvoice, bind_eq, atOnce_vault_bind answers row]
  rw [if_neg (by simpa using funded), if_neg (by simpa [claimIsFinal] using live),
    if_neg (by simp [enabled])]
  dsimp only
  cases first : r.life.lastCheckinAt with
  | none => rfl
  | some last =>
    dsimp only
    have passed : atOnce (oncePerPeriod S r w.clock) o w = (.ok (), w) :=
      oncePerPeriod_eq_ok.2 ⟨outside, rfl⟩
    refine (atOnce_now_bind (o := o) (w := w) _).trans ?_
    exact atOnce_ok_bind passed _

/-- The dashboard gets an invoice in such rows. -/
theorem createCheckinInvoice_mints (row : w.vault? v = some r) (mints : Mints r w.clock)
    (enabled : S.lightningEnabled = true) : WouldMint S w v := by
  obtain ⟨invoice, answers, newText, newHash, -⟩ := exists_mintable S w v
  obtain ⟨invoices, -, stored⟩ := atOnce_insertInvoice answers row newText newHash
  let stores : World := { w with db := { w.db with invoices := invoices } }
  have minted : atOnce (mintInvoice S v) (minting invoice) w =
      (.ok (mintedRow v invoice w.clock), stores.record ⟨v, .lightningInvoiceIssued,
        [("payment_hash", .str invoice.paymentHash), ("amount_sat", .int invoice.amountSat)],
        w.clock⟩) := by
    rw [mintInvoice, bind_eq, atOnce_ask_bind]
    show atOnce ((insertInvoice v invoice .checkin).bind _) _ w = _
    rw [atOnce_ok_bind stored]
    exact atOnce_recordEvent_bind (w := stores) answers row _ _ _
  exact ⟨minting invoice, _, _,
    (atOnce_createCheckinInvoice answers row mints enabled).trans minted⟩

/-- A wallet gets an invoice of any vault that is not claimed. -/
theorem lnurlpCallback_mints (row : w.vault? v = some r) (live : r.life.status ≠ .claimed)
    (enabled : S.lightningEnabled = true) :
    ∃ o bolt11 w', atOnce (lnurlpCallback S v (some 1000) false) o w =
      (.ok (.payResponse bolt11), w') := by
  obtain ⟨invoice, answers, -, -, mintable⟩ := exists_mintable S w v
  obtain ⟨existing, pending⟩ : ∃ existing,
      (Query.reusableInvoice v .checkin w.clock).eval w.db = .ok existing := ⟨_, rfl⟩
  obtain ⟨i, w', told, -⟩ := walletReply_of_payable answers row pending (.inr mintable)
  refine ⟨minting invoice, i.bolt11, w', ?_⟩
  rw [atOnce_lnurlpCallback answers row pending, if_neg (by simpa [claimIsFinal] using live),
    if_neg (by simp [enabled]), told]

end Provider

/-! ## §4 Agreement -/

section Agreement

variable {S : Server} {w : World} {v : VaultId} {r : VaultRow} {i : InvoiceRow}

theorem counts_of_waiting (waiting : Waiting w v i) (row : w.vault? v = some r)
    (mints : Mints r w.clock) : Counts w v i.bolt11 := by
  obtain ⟨listed, pending, ofVault⟩ := waiting
  obtain ⟨funded, live, outside⟩ := mints
  have issued : w.db.invoice? i.paymentHash = some i := KeyedTable.find?_of_mem listed
  have unpaid : w.db.invoicePending i.paymentHash = true := by
    simp [Db.invoicePending, issued, pending]
  obtain ⟨siblings, paid⟩ := markPaidAndCheckinTx_resets_iff.2
    ⟨i, r, unpaid, issued, ofVault, row, outside, live⟩
  exact ⟨i, r, siblings, listed, rfl, row, funded, live, outside, paid⟩

theorem freezes_of_waiting (waiting : Waiting w v i) (row : w.vault? v = some r)
    (funded : r.life.status ≠ .unfunded) (live : r.life.status ≠ .claimed) :
    Freezes w v i.bolt11 := by
  obtain ⟨listed, pending, ofVault⟩ := waiting
  have issued : w.db.invoice? i.paymentHash = some i := KeyedTable.find?_of_mem listed
  have unpaid : w.db.invoicePending i.paymentHash = true := by
    simp [Db.invoicePending, issued, pending]
  let freeze := VaultUpdate.panicFreeze (w.clock + seconds panicFreezeSecs)
  have guard : freeze.guard r = true := decide_eq_true live
  have frozen := Db.vault?_markPanicPaidTx w.clock unpaid issued v
  rw [show w.db.vault? v = some r from row, Option.map_some, if_pos ofVault.symm,
    VaultUpdate.onRow, if_pos guard] at frozen
  exact ⟨i, r, _, listed, rfl, row, funded, live, frozen, rfl⟩

/-- The paths agree exactly about vaults that are claimed, or can be checked in for by button
as far as the vault goes; and about all where no provider is there. -/
theorem mintsAgree_iff : MintsAgree S w v ↔ S.lightningEnabled = false ∨
    ∀ r, w.vault? v = some r →
      r.life.status = .claimed ∨ (r.life.status ≠ .unfunded ∧ r.checkedIn w.clock = false) := by
  constructor
  · intro agree
    by_cases enabled : S.lightningEnabled = true
    swap
    · exact .inl (by simpa using enabled)
    refine .inr fun r row => ?_
    by_cases live : r.life.status = .claimed
    · exact .inl live
    -- the wallet is handed an invoice, so the dashboard would mint one
    obtain ⟨o, bolt11, w', told⟩ := lnurlpCallback_mints row live enabled
    obtain ⟨⟨o', i, w'', came⟩, -⟩ := agree.wallet o _ bolt11 w' told
    obtain ⟨-, ⟨r', row', funded, -, outside⟩, -⟩ := guards_of_createCheckinInvoice came
    rw [row] at row'
    cases row'
    exact .inr ⟨funded, outside⟩
  · intro condition
    -- what is handed out to a wallet is for a vault that is there and not claimed
    have mints : S.lightningEnabled = true → ∀ r, w.vault? v = some r → r.life.status ≠ .claimed →
        Mints r w.clock := by
      intro enabled r row live
      rcases condition with disabled | all
      · rw [enabled] at disabled
        cases disabled
      · rcases all r row with claimed | ⟨funded, outside⟩
        · exact absurd claimed live
        · exact ⟨funded, live, outside⟩
    refine ⟨?_, ?_, ?_⟩
    · intro o amount bolt11 w' told
      obtain ⟨enabled, ⟨r, row, live⟩, i, waiting, text⟩ := told_of_lnurlpCallback told
      have frame := atOnce_frame (o := o) (w := w)
        (only_lnurlpCallback (S := S) (v := v) amount false)
      have clock := atOnce_clock (o := o) (w := w) (lnurlpCallback S v amount false)
      rw [told] at frame clock
      refine ⟨createCheckinInvoice_mints row (mints enabled r row live) enabled, text ▸ ?_⟩
      refine counts_of_waiting waiting (by rw [frame.vault?, row]) ?_
      rw [clock]
      exact mints enabled r row live
    · intro o i w' came
      obtain ⟨-, ⟨r, row, can⟩, waiting⟩ := guards_of_createCheckinInvoice came
      have frame := atOnce_frame (o := o) (w := w) (only_createCheckinInvoice (S := S) (v := v))
      have clock := atOnce_clock (o := o) (w := w) (createCheckinInvoice S v)
      rw [came] at frame clock
      refine counts_of_waiting waiting (by rw [frame.vault?, row]) ?_
      rw [clock]
      exact can
    · intro o amount bolt11 w' told
      obtain ⟨enabled, ⟨r, row, live⟩, i, waiting, text⟩ := told_of_lnurlpCallback told
      have frame := atOnce_frame (o := o) (w := w)
        (only_lnurlpCallback (S := S) (v := v) amount true)
      rw [told] at frame
      obtain ⟨funded, -, -⟩ := mints enabled r row live
      exact text ▸ freezes_of_waiting waiting (by rw [frame.vault?, row]) funded live

end Agreement

/-! ## §5 A vault without coins -/

/-- An invoice is handed out. -/
def handedOut {ε : Type} : Except ε LnurlReply → Bool
  | .ok (.payResponse _) => true
  | _ => false

open Deployment in
/-- The wallet of a vault that was just created is handed an invoice the dashboard refuses. -/
theorem not_mintsAgree : ¬ ∀ (S : Server) (w : World) (v : VaultId), MintsAgree S w v := by
  intro agree
  obtain ⟨tr, c, -, check⟩ := reaches_of_play (host 0)
    ([.start (.createVault (createPlain "d"))] ++ steps 0 8 (oracle "v" []))
    (fun w => ((w.vault? "v").any fun r => r.life.status = .unfunded) &&
      handedOut (atOnce (lnurlpCallback (host 0) "v" (some 1000) false) (oracle "" []) w).1)
    (by decide +kernel)
  simp only [Bool.and_eq_true, Option.any_eq_true, decide_eq_true_eq] at check
  obtain ⟨⟨r, row, unfunded⟩, handed⟩ := check
  cases told : atOnce (lnurlpCallback (host 0) "v" (some 1000) false) (oracle "" []) c.world with
  | mk res w' =>
    rw [told] at handed
    rcases res with e | bolt11 | reason
    · cases handed
    · obtain ⟨⟨o, i, w'', came⟩, -⟩ := (agree (host 0) c.world "v").wallet _ _ _ _ told
      obtain ⟨-, ⟨r', row', funded, -⟩, -⟩ := guards_of_createCheckinInvoice came
      rw [row] at row'
      cases row'
      exact funded unfunded
    · cases handed

end GhostKey

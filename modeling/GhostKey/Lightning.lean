import GhostKey.Checkin

/-!
# Contacts, Estimates and Paid Invoices

The parts the claim routes and the scheduler share: reading a sealed contact,
minting a one-tap link, the cached maturity estimate of a vault, and what the
Lightning poller does with a paid invoice.
-/

namespace GhostKey

open Foundation Prog

variable (S : Server)

/-! ## §1 Contacts -/

/-- `notifier::OwnerContact`. -/
structure OwnerContact where
  address : String
  channel : Channel
  deriving DecidableEq

/-- `parse_owner_contact`: `none` when there is nothing deliverable on file. -/
def parseOwnerContact (id : VaultId) (c : SealedContact) : Except Unit (Option OwnerContact) :=
  match c.ciphertext, c.nonce with
  | some ct, some nn =>
      match Channel.fromStr (c.channel.getD "email") with
      | none => .ok none
      | some channel =>
          match S.openForVault id ct nn with
          | .error e => .error e
          | .ok address =>
              if isBlank address then .ok none else .ok (some ⟨address, channel⟩)
  | _, _ => .ok none

/-- `parse_heir_contact`; the sealed text is a JSON object. -/
def parseHeirContact (id : VaultId) (c : SealedContact) : Except Unit (Option HeirContact) :=
  match c.ciphertext, c.nonce with
  | some ct, some nn =>
      match S.openForVault id ct nn with
      | .error e => .error e
      | .ok json =>
          match S.parseHeirJson json with
          | none => .error ()
          | some contact => .ok (some contact)
  | _, _ => .ok none

/-- `owner_channel_is_deliverable`. -/
def ownerChannelIsDeliverable : Channel → Bool
  | .webPush => false
  | _ => true

/-- `enqueue_owner_email`, to a confirmed address only. -/
def enqueueOwnerEmail (id : VaultId) (kind : NotificationKind) : Prog Bool := do
  let row ← query (.vault id)
  match row with
  | none => pure false
  | some r =>
    if r.contacts.ownerContactVerifiedAt.isNone then pure false
    else
      let contact ← crypto (parseOwnerContact S id r.contacts.owner)
      match contact with
      | none => pure false
      | some contact =>
        if contact.channel ≠ .email then pure false
        else
          enqueue S id kind .email contact.address none
          pure true

/-- `mint_or_reuse_one_tap_token`: the raw token, unless a live one is out. -/
def mintOrReuseOneTapToken (id : VaultId) (nowIso : Instant) : Prog (Option Token) := do
  let row ← query (.vault id)
  match row with
  | none => pure none
  | some r =>
    if r.life.checkinLinkTokenHash.isSome && r.life.checkinLinkTokenUsedAt.isNone then pure none
    else
      let token ← ask .bearerToken
      let rows ← update id (.mintOneTapToken (S.hashClaimToken token) nowIso)
      if rows = 0 then pure none else pure (some token)

/-! ## §2 The maturity estimate -/

/-- `UnlockEstimate`. -/
structure UnlockEstimate where
  tipHeight : Nat
  unlockHeight : Option Nat
  hasUnspent : Bool
  deriving DecidableEq

/-- What a full scan says about a vault with the given relative timelock. -/
def Scan.estimate (scan : Scan) (timelockBlocks : Nat) : UnlockEstimate :=
  ⟨scan.tipHeight, (scan.utxos.filterMap Utxo.confirmedAt).max?.map (· + timelockBlocks),
    !scan.utxos.isEmpty⟩

/-- The wallet configuration of a stored row. -/
def vaultConfig (r : VaultRow) (network : Network) (role : VaultRole) : VaultConfig :=
  ⟨r.settings.descriptorExternal, r.settings.descriptorInternal, r.settings.timelockBlocks,
    network, role, r.settings.label⟩

/-- `.map_err(BlockingErr::…)`, outside any action. -/
def blocking {α : Type} (wrap : String → BlockingErr) : Except String α → Except BlockingErr α
  | .ok a => .ok a
  | .error e => .error (wrap e)

/-- `scan_unlock_estimate`. -/
def scanUnlockEstimate (r : VaultRow) (network : Network) :
    Prog (Except BlockingErr UnlockEstimate) :=
  match S.esploraUrls network with
  | .error e => pure (.error (.esplora e))
  | .ok urls =>
    let config := { vaultConfig r network .watchonly with label := none }
    match S.wallet.fromConfig config with
    | .error e => pure (.error (.vault e))
    | .ok () =>
      match S.wallet.buildWatchOnly config with
      | .error e => pure (.error (.vault e))
      | .ok wallet => do
        let answer ← ask (.fullScan urls config.descriptorExternal config.descriptorInternal)
        match answer with
        | .error e => pure (.error e)
        | .ok scan =>
          match S.wallet.applyUpdate wallet scan with
          | .error e => pure (.error (.vault ("apply_update: " ++ e)))
          | .ok _ => pure (.ok (scan.estimate config.timelockBlocks))

/-- `trips_backoff`. -/
def tripsBackoff : BlockingErr → Bool
  | .esplora _ => true
  | _ => false

/-- The cached estimate of a row, while it is fresh. -/
def cachedEstimate (r : VaultRow) (now : Instant) : Option UnlockEstimate :=
  match r.chain.scannedAt, r.chain.tipHeight, r.chain.hasUnspent with
  | some scannedAt, some tip, some hasUnspent =>
      if (now - scannedAt).tdiv 1000000000 < ExplorerBackoff.maxSecs then
        some ⟨tip, r.chain.unlockHeight, hasUnspent⟩
      else none
  | _, _, _ => none

/-- `unlock_estimate_with_cache`. -/
def unlockEstimateWithCache (r : VaultRow) (t : Instant) :
    Prog (Except BlockingErr UnlockEstimate) :=
  match cachedEstimate r t with
  | some est => pure (.ok est)
  | none =>
    match parseNetwork r.settings.network with
    | .error e => pure (.error (.vault ("unknown vault network: " ++ e)))
    | .ok network => do
      let pause ← Program.perform (Action.explorerPause t)
      match pause with
      | some secs => pure (.error (.backingOff secs))
      | none =>
        let scanned ← scanUnlockEstimate S r network
        match scanned with
        | .error e =>
          if tripsBackoff e then
            let _ ← Program.perform (Action.explorerFailed t)
            pure (.error e)
          else pure (.error e)
        | .ok est =>
          let _ ← Program.perform Action.explorerAnswered
          logged (update r.id
            (.cacheEstimate ⟨est.unlockHeight, some est.tipHeight, some t, some est.hasUnspent⟩))
          pure (.ok est)

/-- `UnlockEstimateView`. -/
structure UnlockEstimateView where
  matured : Bool
  tipHeight : Nat
  unlockHeight : Option Nat
  blocksRemaining : Nat
  unlockEta : Option Instant
  deriving DecidableEq

/-- `config::TARGET_BLOCK_SECS`. -/
def targetBlockSecs : Nat := 600

/-- `UnlockEstimateView::from_estimate`. -/
def UnlockEstimateView.fromEstimate (est : UnlockEstimate) (now : Instant) : UnlockEstimateView :=
  match est.unlockHeight with
  | some unlock =>
      let blocksRemaining := unlock - est.tipHeight
      ⟨blocksRemaining = 0, est.tipHeight, some unlock, blocksRemaining,
        if blocksRemaining > 0 then some (now + seconds (blocksRemaining * targetBlockSecs))
        else none⟩
  | none => ⟨false, est.tipHeight, none, 0, none⟩

/-! ## §3 Paid invoices -/

def noVaultRow (paymentHash : String) : ApiError :=
  .validation ("lightning invoice " ++ paymentHash ++ " has no vault row")

/-- `.await?` on the check-in transaction. -/
def payCheckin (paymentHash : String) (t : Instant) : Prog PaidOutcome :=
  .act (.payCheckin paymentHash t) fun
    | .ok paid => .done paid
    | .error e => .fail (.db e)

def payPanic (paymentHash : String) (t : Instant) : Prog PanicOutcome :=
  .act (.payPanic paymentHash t) fun
    | .ok paid => .done paid
    | .error e => .fail (.db e)

/-- `mark_paid_and_checkin`. -/
def markPaidAndCheckin (paymentHash : String) : Prog Unit := do
  let t ← now
  let outcome ← payCheckin paymentHash t
  match outcome with
  | .alreadyProcessed => pure ()
  | .noVaultRow => .fail (noVaultRow paymentHash)
  | .paid vaultId reset siblings =>
    if reset then
      recordEvent vaultId .checkin
        [("source", .str "lightning"), ("payment_hash", .str paymentHash)]
    else pure ()
    Program.forEach siblings fun sibling =>
      recordEvent sibling .checkin
        [("source", .str "lightning_group"), ("payment_hash", .str paymentHash),
          ("paid_vault_id", .str vaultId)]

/-- `notify_trusted_contact_of_panic`. -/
def notifyTrustedContactOfPanic (id : VaultId) : Prog Unit := do
  let row ← query (.vault id)
  match row with
  | none => pure ()
  | some r =>
    let contact ← crypto (parseOwnerContact S id r.contacts.trusted)
    match contact with
    | none => pure ()
    | some trusted => enqueue S id .panicAlert trusted.channel trusted.address none

/-- `mark_panic_paid`. -/
def markPanicPaid (paymentHash : String) : Prog Unit := do
  let t ← now
  let outcome ← payPanic paymentHash t
  match outcome with
  | .alreadyProcessed => pure ()
  | .noVaultRow => .fail (.validation ("panic invoice " ++ paymentHash ++ " has no vault row"))
  | .paid vaultId frozen =>
    if !frozen then pure ()
    else
      recordEvent vaultId .panicActivated
        [("source", .str "lightning"), ("payment_hash", .str paymentHash),
          ("frozen_until", .str (S.rfc3339 (t + seconds panicFreezeSecs)))]
      logged (notifyTrustedContactOfPanic S vaultId)

/-- The poller's loop over one batch; a missing provider ends the tick. -/
def pollInvoices (t : Instant) : List InvoiceRow → Prog Unit
  | [] => pure ()
  | i :: rest => do
    let _ ← exec (.invoicePolled i.paymentHash t)
    let status ← ask (.invoiceStatus i.paymentHash)
    match status with
    | .ok .paid =>
      if i.invoiceType = .panic then
        logged (markPanicPaid S i.paymentHash)
        pollInvoices t rest
      else
        logged (markPaidAndCheckin i.paymentHash)
        pollInvoices t rest
    | .ok .expired =>
      logged (exec (.invoiceExpired i.paymentHash))
      pollInvoices t rest
    | .ok (.failed reason) =>
      logged (exec (.invoiceFailed i.paymentHash reason))
      pollInvoices t rest
    | .ok .pending => pollInvoices t rest
    | .error .notConfigured => pure ()
    | .error _ => pollInvoices t rest

/-- `lightning::tick_once`. -/
def pollerTick : Prog Unit := do
  if !S.lightningEnabled then pure ()
  else
    let t ← now
    let _ ← exec (.expireInvoices t)
    let rows ← query .pendingInvoices
    pollInvoices S t rows

end GhostKey

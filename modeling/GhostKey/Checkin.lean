import GhostKey.Actions

/-!
# The Owner's Handlers

Check-in by button and by one-tap link, issuing a claim token by hand, deleting
a vault, and minting an invoice, as `routes.rs` runs them. Owner authentication
only ever refuses a request, so the handlers start where it has passed.
-/

namespace GhostKey

open Foundation Prog

variable (S : Server)

/-! ## §1 Shared refusals -/

/-- `claim_is_final`. -/
def claimIsFinal (status : Status) : Bool := status = .claimed

/-- `claim_is_live`. -/
def claimIsLive (status : Status) : Bool :=
  status = .timelockStarted ∨ status = .claiming ∨ status = .claimed

def claimedCheckinConflict : ApiError :=
  .conflict ("This heir has already claimed their share. There is nothing left " ++
    "to check in for.")

def unfundedConflict : ApiError :=
  .conflict "Fund your vault first. Check-ins begin once your Bitcoin is in the vault."

def alreadyCheckedIn (nextOpen : Instant) : ApiError :=
  .conflict ("already checked in this period; next check-in opens at " ++ S.rfc3339 nextOpen)

def notLastResort : ApiError :=
  .conflict ("free check-in is only available in the final 24 hours; " ++
    "check in with Lightning instead")

def linkUsed : ApiError := .conflict "check-in link already used"

/-- The final 24 hours before the heir would be contacted. -/
def inLastResortWindow (claimEligibleAt : Option Instant) (now : Instant) : Bool :=
  claimEligibleAt.any fun eligible => eligible - now ≤ seconds (24 * 60 * 60)

/-- Refuse a second check-in inside the current period. -/
def oncePerPeriod (r : VaultRow) (now : Instant) : Prog Unit :=
  match r.life.lastCheckinAt with
  | none => pure ()
  | some last =>
      let nextOpen := last + seconds r.settings.checkinPeriodSecs
      if now < nextOpen then .fail (alreadyCheckedIn S nextOpen) else pure ()

/-- `CheckinResponse`. -/
structure CheckinResponse where
  vaultId : VaultId
  lastCheckinAt : Instant
  nextDeadlineAt : Instant
  status : Status
  deriving DecidableEq

/-! ## §2 Check-in -/

/-- `POST /vaults/:id/checkin`. -/
def checkin (id : VaultId) : Prog CheckinResponse := do
  let row ← query (.vault id)
  let r ← okOr .notFound row
  if r.life.status = .unfunded then .fail unfundedConflict
  else if claimIsFinal r.life.status then .fail claimedCheckinConflict
  else
    let t ← now
    oncePerPeriod S r t
    if S.lightningEnabled && !inLastResortWindow r.life.claimEligibleAt t then
      .fail notLastResort
    else
      let next := t + r.settings.cycle
      let claimEligible := next + r.settings.grace
      let _ ← update id (.checkin t next claimEligible)
      recordEvent id .checkin []
      pure ⟨id, t, next, .ok⟩

/-- `POST /vaults/:id/checkin-from-link/:token`; the token is the authentication. -/
def checkinFromLink (id : VaultId) (token : Token) : Prog CheckinResponse := do
  let row ← query (.vaultByCheckinLink id (S.hashClaimToken token))
  let r ← okOr .notFound row
  let storedHash ← okOr .notFound r.life.checkinLinkTokenHash
  if !S.claimTokenMatches token storedHash then .fail .notFound
  else if r.life.checkinLinkTokenUsedAt.isSome then .fail linkUsed
  else if claimIsFinal r.life.status then .fail claimedCheckinConflict
  else
    let tGate ← now
    if !inLastResortWindow r.life.claimEligibleAt tGate then .fail notLastResort
    else
      let tPeriod ← now
      oncePerPeriod S r tPeriod
      let t ← now
      let next := t + r.settings.cycle
      let claimEligible := next + r.settings.grace
      let rows ← update id (.checkinFromLink storedHash t next claimEligible)
      if rows = 0 then .fail linkUsed
      else
        recordEvent id .checkin [("source", .str "one_tap_link")]
        pure ⟨id, t, next, .ok⟩

/-! ## §3 Claim tokens by hand, deletion -/

/-- `IssueClaimResponse`. -/
structure IssueClaimResponse where
  vaultId : VaultId
  token : Token
  issuedAt : Instant
  deriving DecidableEq

/-- `POST /vaults/:id/issue-claim`. -/
def issueClaim (id : VaultId) : Prog IssueClaimResponse := do
  let row ← query (.vault id)
  let _ ← okOr .notFound row
  let token ← ask .bearerToken
  let t ← now
  let _ ← update id (.issueClaim (S.hashClaimToken token) t)
  recordEvent id .claimIssued [("token_hash", .str (S.hashClaimToken token))]
  pure ⟨id, token, t⟩

def claimUnderway : ApiError :=
  .conflict ("this heir's claim is already underway and can no longer be " ++
    "removed. To stop it, check in. That cancels the claim while " ++
    "you're still within the waiting window.")

/-- `DELETE /vaults/:id`. -/
def deleteVault (id : VaultId) : Prog Unit := do
  let row ← query (.vault id)
  let r ← okOr .notFound row
  if claimIsLive r.life.status then .fail claimUnderway
  else
    let rows ← exec (.deleteVault id)
    if rows = 0 then .fail .notFound else pure ()

/-! ## §4 Invoices -/

/-- `lightning::insert_invoice`. -/
def insertInvoice (id : VaultId) (invoice : CreatedInvoice) (type : InvoiceType) :
    Prog InvoiceRow := do
  let t ← now
  let rec_ : InvoiceRow :=
    ⟨id, invoice.bolt11, invoice.paymentHash, invoice.amountSat, type, .pending, t,
      invoice.expiresAt, none, none, none⟩
  let _ ← exec (.insertInvoice rec_)
  pure rec_

/-- The provider's refusals, as the invoice route words them. -/
def mintFailed : LightningError → ApiError
  | .notConfigured => .validation "lightning provider not configured"
  | .invalidAmount m => .validation m
  | .provider m => .validation ("lightning provider error: " ++ m)

/-- `create_checkin_invoice`. -/
def createCheckinInvoice (id : VaultId) : Prog InvoiceRow := do
  let cad ← query (.vault id)
  if cad.any fun r => r.life.status = .unfunded then .fail unfundedConflict
  else if cad.any fun r => claimIsFinal r.life.status then .fail claimedCheckinConflict
  else if !S.lightningEnabled then
    .fail (.validation "lightning provider not configured on this server")
  else
    match cad with
    | none => pure ()
    | some r => match r.life.lastCheckinAt with
      | none => pure ()
      | some _ => do
        let t ← now
        oncePerPeriod S r t
    let answer ← ask (.createInvoice S.heartbeatAmountSat ("ghostkey:checkin:" ++ id))
    match answer with
    | .error e => .fail (mintFailed e)
    | .ok invoice =>
        let rec_ ← insertInvoice id invoice .checkin
        recordEvent id .lightningInvoiceIssued
          [("payment_hash", .str invoice.paymentHash), ("amount_sat", .int invoice.amountSat)]
        pure rec_

/-- Its end: the invoice is minted and written down. -/
def mintCheckinInvoice (id : VaultId) : Prog InvoiceRow := do
  let answer ← ask (.createInvoice S.heartbeatAmountSat ("ghostkey:checkin:" ++ id))
  match answer with
  | .error e => .fail (mintFailed e)
  | .ok invoice =>
      let rec_ ← insertInvoice id invoice .checkin
      recordEvent id .lightningInvoiceIssued
        [("payment_hash", .str invoice.paymentHash), ("amount_sat", .int invoice.amountSat)]
      pure rec_

/-- `verify_checkin_link_token`. -/
def verifyCheckinLinkToken (id : VaultId) (token : Token) : Prog Unit := do
  let row ← query (.vaultByCheckinLink id (S.hashClaimToken token))
  let r ← okOr .notFound row
  let storedHash ← okOr .notFound r.life.checkinLinkTokenHash
  if !S.claimTokenMatches token storedHash then .fail .notFound
  else if r.life.checkinLinkTokenUsedAt.isSome then .fail linkUsed
  else pure ()

/-- `lightning_create_invoice_from_link`. -/
def createInvoiceFromLink (id : VaultId) (token : Token) : Prog InvoiceRow := do
  verifyCheckinLinkToken S id token
  createCheckinInvoice S id

/-- `LightningInvoiceStatusView`. -/
structure InvoiceStatusView where
  paymentHash : String
  status : InvoiceStatus
  paidAt : Option Instant
  expiresAt : Instant
  deriving DecidableEq

/-- `read_invoice_status`. -/
def readInvoiceStatus (id : VaultId) (paymentHash : String) : Prog InvoiceStatusView := do
  let row ← query (.invoice paymentHash)
  let i ← okOr .notFound row
  if i.vaultId ≠ id then .fail .notFound
  else pure ⟨i.paymentHash, i.status, i.paidAt, i.expiresAt⟩

/-- `lightning_invoice_status_from_link`. -/
def invoiceStatusFromLink (id : VaultId) (token : Token) (paymentHash : String) :
    Prog InvoiceStatusView := do
  verifyCheckinLinkToken S id token
  readInvoiceStatus id paymentHash

/-- What an LNURL wallet is told; errors are answers here, not failures. -/
inductive LnurlReply where
  | payResponse (bolt11 : String)
  | error (reason : String)
  deriving DecidableEq

/-- The name of an invoice type in descriptions and events. -/
def InvoiceType.name : InvoiceType → String
  | .checkin => "checkin"
  | .panic => "panic"

/-- `lnurlp_callback_inner`; the vault id is all the access control there is. -/
def lnurlpCallback (id : VaultId) (amountMsat : Option Nat) (isPanic : Bool) :
    Prog LnurlReply := do
  let found ← ((query (.vault id)).attempt : Prog (Except ApiError (Option VaultRow)))
  match found with
  | .error _ => pure (.error "internal")
  | .ok none => pure (.error "unknown vault")
  | .ok (some r) =>
    if claimIsFinal r.life.status then
      pure (.error "This vault is closed. Your heir already claimed the money.")
    else if !S.lightningEnabled then pure (.error "lightning disabled on this server")
    else
      match amountMsat with
      | none => pure (.error "amount query parameter required")
      | some amount =>
        if amount ≠ 1000 then
          pure (.error ("amount must be 1000 msat, got " ++ toString amount))
        else
          let type : InvoiceType := if isPanic then .panic else .checkin
          let t ← now
          let existing ←
            ((query (.reusableInvoice id type t)).attempt : Prog (Except ApiError (Option InvoiceRow)))
          match existing with
          | .error _ => pure (.error "internal")
          | .ok (some i) => pure (.payResponse i.bolt11)
          | .ok none =>
            let answer ←
              ask (.createInvoice S.heartbeatAmountSat ("ghostkey:" ++ type.name ++ ":" ++ id))
            match answer with
            | .error _ => pure (.error "provider failed to mint invoice")
            | .ok invoice =>
              let inserted ←
                ((insertInvoice id invoice type).attempt : Prog (Except ApiError InvoiceRow))
              match inserted with
              | .error _ => pure (.error "internal")
              | .ok _ => do
                logged (recordEvent id .lightningInvoiceIssued
                  [("payment_hash", .str invoice.paymentHash),
                    ("amount_sat", .int invoice.amountSat), ("source", .str "lnurl"),
                    ("invoice_type", .str type.name)])
                pure (.payResponse invoice.bolt11)

end GhostKey

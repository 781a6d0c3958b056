import GhostKey.Lightning

/-!
# The Scheduler

One tick of the background loop, step by step in the source's order: unfreeze,
activate, retire, stand down, remind, alarm, escalate, and, unless Lightning is
down or just back, open the claims that are due and tell the heirs whose wait is
over. Every step reads a batch of rows and then works through it, one statement
at a time. The health figures the scans leave for `/health` are not kept.
-/

namespace GhostKey

open Foundation Prog

variable (S : Server)

/-! ## §1 Freezes and funding -/

/-- `unfreeze_expired_panics`. -/
def unfreezeExpiredPanics (nowIso : Instant) : Prog Unit := do
  let expired : List VaultRow ← query (.expiredPanics nowIso)
  Program.forEach expired fun r => do
    let _ ← update r.id .unfreeze
    recordEvent r.id .panicExpired [("reason", .str "freeze_window_elapsed")]

/-- `owner_email_unconfirmed`. -/
def ownerEmailUnconfirmed (c : Contacts) : Bool :=
  c.owner.ciphertext.isSome && c.owner.channel = some "email" && c.ownerContactVerifiedAt.isNone

/-- `hold_activation`. -/
def holdActivation (id : VaultId) : Prog Unit := do
  let already : Bool ← query (.activationHeld id)
  if already then pure ()
  else recordEvent id .activationHeld [("reason", .str "owner_email_unverified")]

/-- The activation of one row that a scan found coins for. -/
def activateFunded (r : VaultRow) (t : Instant) : Prog Unit := do
  let next := t + r.settings.cycle
  let rows ← update r.id (.activate next (next + r.settings.grace))
  if rows = 0 then pure ()
  else
    recordEvent r.id .funded [("reason", .str "onchain_funds_detected")]
    logged (enqueueOwnerEmail S r.id .funded)

/-- `activate_funded_vaults`. -/
def activateFundedVaults : Prog Unit := do
  let rows : List VaultRow ← query .unfundedVaults
  let t ← now
  Program.forEach rows fun r => do
    let est ← unlockEstimateWithCache S r t
    match est with
    | .error _ => pure ()
    | .ok est =>
      if !est.hasUnspent then pure ()
      else if ownerEmailUnconfirmed r.contacts then holdActivation r.id
      else activateFunded S r t

/-- `return_empty_vault_to_unfunded_inner`; the never-funded path leaves no event. -/
def returnEmptyVaultToUnfunded (id : VaultId) (fromStatus : Status) (record : Bool) :
    Prog Bool := do
  let rows ← update id (.returnEmpty fromStatus)
  if rows = 0 then pure false
  else
    if record then
      recordEvent id .vaultEmpty [("reason", .str "chain_scan_found_no_unspent_outputs")]
    else pure ()
    pure true

/-- The body of both sweeps over vaults that may hold nothing. -/
def retireIfEmpty (r : VaultRow) (fromStatus : Status) (record : Bool) (t : Instant) :
    Prog Unit := do
  let est ← unlockEstimateWithCache S r t
  match est with
  | .error _ => pure ()
  | .ok est =>
    if est.hasUnspent then pure ()
    else
      let _ ← returnEmptyVaultToUnfunded r.id fromStatus record
      pure ()

/-- `retire_drained_vaults`. -/
def retireDrainedVaults : Prog Unit := do
  let rows : List VaultRow ← query .okVaultsWithDeposit
  let t ← now
  Program.forEach rows fun r => retireIfEmpty S r .ok true t

/-- `stand_down_never_funded_vaults`; the update compares with the status read. -/
def standDownNeverFundedVaults : Prog Unit := do
  let rows : List VaultRow ← query .neverFundedVaults
  let t ← now
  Program.forEach rows fun r => retireIfEmpty S r r.life.status false t

/-! ## §2 Messages to the owner -/

/-- The owner's contact, if a message can reach it. -/
def deliverableOwner (r : VaultRow) : Except Unit (Option OwnerContact) :=
  (parseOwnerContact S r.id r.contacts.owner).map
    (·.filter fun c => ownerChannelIsDeliverable c.channel)

/-- Send one owner message by the owner's channel and by web push. -/
def enqueueOwnerMessage (id : VaultId) (kind : NotificationKind) (contact : Option OwnerContact)
    (hasPush : Bool) (mailLink pushLink : Option String) : Prog Unit := do
  match contact with
  | none => pure ()
  | some c => enqueue S id kind c.channel c.address mailLink
  if hasPush then enqueue S id kind .webPush "webpush" pushLink else pure ()

/-- `enqueue_pre_deadline_reminder`: no fresh link, no reminder. -/
def enqueuePreDeadlineReminder (r : VaultRow) (nowIso : Instant) : Prog Unit := do
  let contact ← crypto (deliverableOwner S r)
  let pushes : Nat ← query (.pushSubscriptionCount r.id)
  if contact.isNone ∧ pushes = 0 then pure ()
  else
    let token ← mintOrReuseOneTapToken S r.id nowIso
    match token with
    | none => pure ()
    | some token =>
      let url := S.checkinLinkUrl r.id token
      enqueueOwnerMessage S r.id .preDeadlineReminder contact (0 < pushes) (some url) (some url)
      let _ ← update r.id (.preDeadlineReminded nowIso)
      pure ()

/-- `PRE_DEADLINE_REMINDER_LEAD_SECS`. -/
def preDeadlineReminderLeadSecs : Int := 24 * 3600

/-- `issue_pre_deadline_reminders`. -/
def issuePreDeadlineReminders (nowIso : Instant) : Prog Unit := do
  let due : List VaultRow ←
    query (.preDeadlineDue nowIso (nowIso + seconds preDeadlineReminderLeadSecs))
  Program.forEach due fun r => logged (enqueuePreDeadlineReminder S r nowIso)

/-- `enqueue_alarm_owner`; without a fresh link the push points at the dashboard. -/
def enqueueAlarmOwner (r : VaultRow) (nowIso : Instant) : Prog Unit := do
  let contact ← crypto (deliverableOwner S r)
  let pushes : Nat ← query (.pushSubscriptionCount r.id)
  if contact.isNone ∧ pushes = 0 then pure ()
  else
    let token ← mintOrReuseOneTapToken S r.id nowIso
    let url := token.map (S.checkinLinkUrl r.id)
    enqueueOwnerMessage S r.id .alarmOwner contact (0 < pushes) url
      (some (url.getD S.checkinUrl))

/-! ## §3 Alarms -/

/-- One round of the alarm step. -/
def alarmVault (nowIso : Instant) (r : VaultRow) : Prog Unit := do
  let _ ← update r.id .alarm
  recordEvent r.id .alarm [("reason", .str "checkin_missed")]
  logged (enqueueAlarmOwner S r nowIso)

/-- `transition_ok_to_alarmed`. -/
def transitionOkToAlarmed (nowIso : Instant) : Prog Unit := do
  let due : List (VaultRow × Instant) ← query (.deadlineMissed nowIso)
  Program.forEach due fun d => alarmVault S nowIso d.1

/-- `ALARM_ESCALATION_INTERVAL_SECS`. -/
def alarmEscalationIntervalSecs : Int := 24 * 3600

/-- `enqueue_alarm_escalation`. -/
def enqueueAlarmEscalation (r : VaultRow) (nowIso : Instant) : Prog Unit := do
  let contact ← crypto (deliverableOwner S r)
  match contact with
  | none => pure ()
  | some c =>
    let token ← mintOrReuseOneTapToken S r.id nowIso
    enqueue S r.id .alarmEscalation c.channel c.address (token.map (S.checkinLinkUrl r.id))

/-- One round of the escalations; a failed message leaves the marker alone. -/
def escalateVault (nowIso : Instant) (r : VaultRow) : Prog Unit := do
  let sent ← ((enqueueAlarmEscalation S r nowIso).attempt : Prog (Except ApiError Unit))
  match sent with
  | .error _ => pure ()
  | .ok () =>
    let _ ← update r.id (.escalated nowIso)
    pure ()

/-- `send_alarm_escalations`. -/
def sendAlarmEscalations (nowIso : Instant) : Prog Unit := do
  let due : List (VaultRow × Instant) ←
    query (.escalationDue nowIso (nowIso - seconds alarmEscalationIntervalSecs))
  Program.forEach due fun d => escalateVault S nowIso d.1

/-! ## §4 Contacting the heir -/

inductive HeirContactGate where
  | ready
  | waiting
  | empty
  deriving DecidableEq

/-- `issue_ready`. -/
def issueReady (unlockHeight : Option Nat) (tipHeight leadBlocks : Nat) : Bool :=
  match unlockHeight with
  | some unlock => unlock - tipHeight ≤ leadBlocks
  | none => false

/-- `heir_contact_gate`. -/
def heirContactGate (est : UnlockEstimate) (leadBlocks : Nat) : HeirContactGate :=
  if !est.hasUnspent then .empty
  else if issueReady est.unlockHeight est.tipHeight leadBlocks then .ready
  else .waiting

def leadBlocks : Nat := S.challengeWindowSecs / targetBlockSecs

/-- `heir_contact_ready`. -/
def heirContactReady (r : VaultRow) (t : Instant) : Prog HeirContactGate :=
  if !S.onchainGateEnabled || S.demoMode then pure .ready
  else do
    let est ← unlockEstimateWithCache S r t
    match est with
    | .error _ => pure .waiting
    | .ok est => pure (heirContactGate est (leadBlocks S))

/-- `onchain_funds_ready`. -/
def onchainFundsReady (r : VaultRow) (t : Instant) : Prog Bool :=
  if !S.onchainGateEnabled || S.demoMode then pure true
  else do
    let est ← unlockEstimateWithCache S r t
    match est with
    | .error _ => pure false
    | .ok est => pure (issueReady est.unlockHeight est.tipHeight 0)

/-- The heir's channel, as the claim link is sent. -/
def heirChannel : Option String → Option Channel
  | some "email" => some .email
  | some "sms" => some .sms
  | some "whatsapp" => some .whatsapp
  | _ => none

/-- `enqueue_claim_link`. -/
def enqueueClaimLink (r : VaultRow) (token : Token) : Prog Unit := do
  let contact ← crypto (parseHeirContact S r.id r.contacts.heir)
  match contact with
  | none => pure ()
  | some c =>
    match heirChannel c.channel, c.contact.filter (· ≠ "") with
    | some channel, some recipient =>
      enqueue S r.id .claimLink channel recipient (some (S.claimUrl token))
    | _, _ => pure ()

/-- The link of one guardian, out of the row that holds its token. -/
def enqueueGuardianClaimLink (id : VaultId) (g : GuardianRow) : Prog Unit :=
  match g.claimTokenAtRest with
  | none => pure ()
  | some stored => do
    let token ← crypto (S.openClaimTokenAtRest id stored)
    let contact ← crypto (parseOwnerContact S id g.contact)
    match contact with
    | none => pure ()
    | some c => enqueue S id .claimLink c.channel c.address (some (S.claimUrl token))

/-- `enqueue_guardian_claim_links`. -/
def enqueueGuardianClaimLinks (id : VaultId) : Prog Unit := do
  let rows : List GuardianRow ← query (.guardians id)
  Program.forEach rows (enqueueGuardianClaimLink S id)

/-- The token a claim is opened with. A Door A key is sealed under the token at
rest, so that one is reused, with the hash the batch read if there was one. -/
def triggerToken (r : VaultRow) : Prog (Token × Hash × Bool) :=
  match r.keys.claimTokenAtRest with
  | some stored => do
    let token ← crypto (S.openClaimTokenAtRest r.id stored)
    pure (token, r.life.claimTokenHash.getD (S.hashClaimToken token), true)
  | none => do
    let token ← ask .bearerToken
    pure (token, S.hashClaimToken token, false)

def triggerUpdate (hash : Hash) (reused : Bool) (nowIso : Instant) : VaultUpdate :=
  if reused then .openReused hash nowIso else .openFresh hash nowIso

def triggerReason (reused : Bool) : String :=
  if reused then "scheduler:eligibility_reached:reused_password_vault_token"
  else "scheduler:eligibility_reached"

/-- Open the claim of a row whose coins are within reach. -/
def openClaim (nowIso : Instant) (r : VaultRow) : Prog Unit := do
  let (token, hash, reused) ← triggerToken S r
  let _ ← update r.id (triggerUpdate hash reused nowIso)
  recordEvent r.id .claimIssued
    [("token_hash", .str hash), ("reason", .str (triggerReason reused))]
  logged (enqueueClaimLink S r token)
  logged (enqueueGuardianClaimLinks S r.id)

/-- One round of the trigger. -/
def triggerVault (nowIso : Instant) (r : VaultRow) : Prog Unit := do
  let t ← now
  let gate ← heirContactReady S r t
  match gate with
  | .waiting => pure ()
  | .empty =>
    let _ ← returnEmptyVaultToUnfunded r.id .alarmed true
    pure ()
  | .ready => openClaim S nowIso r

/-- `transition_alarmed_to_claimable`. -/
def transitionAlarmedToClaimable (nowIso : Instant) : Prog Unit := do
  let due : List VaultRow ← query (.claimEligible nowIso)
  Program.forEach due (triggerVault S nowIso)

/-- The notice of one row whose window has run out. -/
def sendClaimReadyNotice (t : Instant) (r : VaultRow) (openedAt : Instant) : Prog Unit := do
  if t < openedAt + S.window then pure ()
  else
    let ready ← onchainFundsReady S r t
    if !ready then pure ()
    else
      let rows ← update r.id (.claimReadyNotified t)
      if rows = 0 then pure ()
      else
        let contact ← crypto (parseHeirContact S r.id r.contacts.heir)
        match contact with
        | none => pure ()
        | some c =>
          if c.channel ≠ some "email" then pure ()
          else
            match c.contact.filter (· ≠ "") with
            | none => pure ()
            | some recipient =>
              let link ← match r.keys.claimTokenAtRest.filter (· ≠ "") with
                | none => pure none
                | some stored => do
                  let token ← crypto (S.openClaimTokenAtRest r.id stored)
                  pure (some (S.claimUrl token))
              logged (enqueue S r.id .claimReady .email recipient link)

/-- `send_claim_ready_notices`. -/
def sendClaimReadyNotices : Prog Unit := do
  if S.challengeWindowSecs = 0 then pure ()
  else
    let rows : List (VaultRow × Instant) ← query .claimReady
    let t ← now
    Program.forEach rows fun d => sendClaimReadyNotice S t d.1 d.2

/-! ## §5 The tick -/

/-- Whether Lightning can take a check-in; a deployment without it always can. -/
def probeLightning : Prog Bool :=
  if S.lightningEnabled then ask .probeLightning else pure true

/-- The steps before the probe. -/
def tickOwnerSteps (nowIso : Instant) : Prog Unit := do
  unfreezeExpiredPanics nowIso
  activateFundedVaults S
  retireDrainedVaults S
  standDownNeverFundedVaults S
  issuePreDeadlineReminders S nowIso
  transitionOkToAlarmed S nowIso
  sendAlarmEscalations S nowIso

/-- `scheduler::tick_once`. -/
def tickOnce : Prog Unit := do
  let nowIso ← now
  tickOwnerSteps S nowIso
  let lnHealthy : Bool ← probeLightning S
  let t ← now
  let suppressHeirContact : Bool ← Program.perform (Action.updateLnGate lnHealthy t)
  if suppressHeirContact then pure ()
  else
    transitionAlarmedToClaimable S nowIso
    sendClaimReadyNotices S

end GhostKey

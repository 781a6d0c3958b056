import GhostKey.Foundation.KeyedTable

/-!
# The Database

The rows of the server's tables and the database they make up. A vault row is
grouped by what writes its columns: the settings fixed at creation, the
lifecycle columns every check-in, panic and claim statement rewrites, the sealed
key material, the contacts, and the cache of the last chain scan.

Times are instants in nanoseconds. The server stores them as RFC 3339 text in
UTC at the precision of its clock, so a column holds exactly the instant that
was written to it.
-/

namespace GhostKey

open Foundation

/-! ## §1 Times and names -/

/-- Nanoseconds since the epoch. -/
abbrev Instant := Int

/-- `Duration::seconds(n)`. -/
def seconds (n : Int) : Int := n * 1000000000

abbrev VaultId := String

/-- A raw bearer token, as it stands in a link. -/
abbrev Token := String

/-- The SHA-256 hex digest of a token. -/
abbrev Hash := String

/-! ## §2 Vault rows -/

/-- `vaults.status`. -/
inductive Status where
  | unfunded
  | ok
  | warning
  | alarmed
  | frozen
  | timelockStarted
  | claiming
  | claimed
  deriving DecidableEq

/-- `vaults.vault_kind`. -/
inductive VaultKind where
  | standard
  | guardian
  deriving DecidableEq

/-- Columns that only the INSERT writes. -/
structure Settings where
  label : Option String
  network : String
  descriptorExternal : String
  descriptorInternal : String
  timelockBlocks : Nat
  checkinPeriodSecs : Int
  gracePeriodSecs : Int
  createdAt : Instant
  ownerXpubFragmentExternal : Option String
  ownerXpubFragmentInternal : Option String
  heirXpubFragmentExternal : Option String
  heirXpubFragmentInternal : Option String
  ownerTokenHash : Option Hash
  ownerEmailHash : Option Hash
  heirDerived : Bool
  vaultKind : VaultKind
  deriving DecidableEq

/-- The columns of the check-in clock, the claim token and their markers. -/
structure Lifecycle where
  status : Status
  lastCheckinAt : Option Instant
  nextDeadlineAt : Instant
  claimEligibleAt : Option Instant
  preDeadlineReminderSentAt : Option Instant
  lastAlarmReminderSentAt : Option Instant
  alarmReminderCount : Nat
  checkinLinkTokenHash : Option Hash
  checkinLinkTokenIssuedAt : Option Instant
  checkinLinkTokenUsedAt : Option Instant
  claimTokenHash : Option Hash
  claimTokenIssuedAt : Option Instant
  claimTokenUsedAt : Option Instant
  claimOpenedAt : Option Instant
  claimReadyNotifiedAt : Option Instant
  panicFrozenUntil : Option Instant
  deriving DecidableEq

/-- The owner's key and token as the browser sealed them under a password. -/
structure PasswordColumns where
  salt : Option String
  kdfMemKib : Option Int
  kdfIters : Option Int
  ownerXprvCt : Option String
  ownerXprvNonce : Option String
  ownerTokenCt : Option String
  ownerTokenNonce : Option String
  deriving DecidableEq

def PasswordColumns.none : PasswordColumns :=
  ⟨Option.none, Option.none, Option.none, Option.none, Option.none, Option.none, Option.none⟩

/-- Key material the browser sealed. The claim token itself is kept sealed too,
so the scheduler can mail it. -/
structure SealedKeys where
  claimTokenAtRest : Option String
  heirXprvCt : Option String
  heirXprvNonce : Option String
  password : PasswordColumns
  deriving DecidableEq

/-- A contact sealed under the vault's key, with the channel it is reached on. -/
structure SealedContact where
  ciphertext : Option String
  nonce : Option String
  channel : Option String
  deriving DecidableEq

def SealedContact.none : SealedContact := ⟨Option.none, Option.none, Option.none⟩

/-- A text sealed under the vault's key. -/
structure SealedText where
  ciphertext : Option String
  nonce : Option String
  deriving DecidableEq

def SealedText.none : SealedText := ⟨Option.none, Option.none⟩

structure Contacts where
  owner : SealedContact
  heir : SealedContact
  trusted : SealedContact
  heirIntro : SealedText
  ownerContactVerifiedAt : Option Instant
  deriving DecidableEq

/-- `chain_unlock_height`, `chain_tip_height`, `chain_scanned_at` and
`chain_has_unspent`. -/
structure ChainCache where
  unlockHeight : Option Nat
  tipHeight : Option Nat
  scannedAt : Option Instant
  hasUnspent : Option Bool
  deriving DecidableEq

def ChainCache.unscanned : ChainCache := ⟨none, none, none, none⟩

structure VaultRow where
  id : VaultId
  settings : Settings
  life : Lifecycle
  keys : SealedKeys
  contacts : Contacts
  chain : ChainCache
  deriving DecidableEq

/-- The cycle a check-in starts: the deadline is one period and one grace away. -/
def Settings.cycle (s : Settings) : Int :=
  seconds (s.checkinPeriodSecs + s.gracePeriodSecs)

def Settings.grace (s : Settings) : Int := seconds s.gracePeriodSecs

/-- A change of lifecycle columns only. -/
def VaultRow.mapLife (f : Lifecycle → Lifecycle) (r : VaultRow) : VaultRow :=
  { r with life := f r.life }

section MapLife

variable (f : Lifecycle → Lifecycle) (r : VaultRow)

@[simp] theorem VaultRow.mapLife_id : (r.mapLife f).id = r.id := rfl
@[simp] theorem VaultRow.mapLife_settings : (r.mapLife f).settings = r.settings := rfl
@[simp] theorem VaultRow.mapLife_life : (r.mapLife f).life = f r.life := rfl
@[simp] theorem VaultRow.mapLife_keys : (r.mapLife f).keys = r.keys := rfl
@[simp] theorem VaultRow.mapLife_contacts : (r.mapLife f).contacts = r.contacts := rfl
@[simp] theorem VaultRow.mapLife_chain : (r.mapLife f).chain = r.chain := rfl

end MapLife

/-! ## §3 The other tables -/

/-- `vault_guardian_keys`. -/
structure GuardianRow where
  vaultId : VaultId
  slot : Nat
  xprvCt : String
  xprvNonce : String
  claimTokenAtRest : Option String
  claimTokenHash : Option Hash
  claimTokenIssuedAt : Option Instant
  contact : SealedContact
  deriving DecidableEq

def GuardianRow.key (r : GuardianRow) : VaultId × Nat := (r.vaultId, r.slot)

inductive InvoiceStatus where
  | pending
  | paid
  | expired
  | failed
  deriving DecidableEq

inductive InvoiceType where
  | checkin
  | panic
  deriving DecidableEq

/-- `lightning_invoices`. -/
structure InvoiceRow where
  vaultId : VaultId
  bolt11 : String
  paymentHash : String
  amountSat : Nat
  invoiceType : InvoiceType
  status : InvoiceStatus
  createdAt : Instant
  expiresAt : Instant
  paidAt : Option Instant
  lastPolledAt : Option Instant
  lastError : Option String
  deriving DecidableEq

/-- `vault_deposits`; it has no foreign key, so it outlives its vault. -/
structure DepositRow where
  vaultId : VaultId
  outpoint : String
  amountSat : Nat
  height : Nat
  seenAt : Instant
  spentAt : Option Instant
  deriving DecidableEq

def DepositRow.key (r : DepositRow) : VaultId × String := (r.vaultId, r.outpoint)

/-- `events.kind`. -/
inductive EventKind where
  | registered
  | checkin
  | alarm
  | funded
  | activationHeld
  | vaultEmpty
  | panicActivated
  | panicExpired
  | claimIssued
  | claimOpened
  | claimPsbtBuilt
  | claimBroadcast
  | ownerSend
  | received
  | fundsSpent
  | lightningInvoiceIssued
  | ownerContactVerified
  | drillStarted
  | drillOpened
  | drillCompleted
  deriving DecidableEq

/-- One value of an event's JSON detail. -/
inductive Json where
  | null
  | bool (b : Bool)
  | int (n : Int)
  | str (s : String)
  deriving DecidableEq

/-- The JSON object of an event, field by field. -/
abbrev Detail := List (String × Json)

structure EventRow where
  vaultId : VaultId
  kind : EventKind
  detail : Detail
  createdAt : Instant
  deriving DecidableEq

/-- `notifications.kind`. -/
inductive NotificationKind where
  | claimLink
  | alarmOwner
  | preDeadlineReminder
  | alarmEscalation
  | contactVerification
  | claimOpened
  | panicAlert
  | claimReady
  | funded
  | received
  | ownerSend
  | drillInvite
  | drillCompleted
  deriving DecidableEq

inductive Channel where
  | email
  | sms
  | whatsapp
  | webPush
  deriving DecidableEq

def Channel.fromStr : String → Option Channel
  | "email" => some .email
  | "sms" => some .sms
  | "whatsapp" => some .whatsapp
  | "webpush" => some .webPush
  | _ => none

/-- A queued message. Of its text only the link it carries is kept. -/
structure NotificationRow where
  vaultId : VaultId
  kind : NotificationKind
  channel : Channel
  recipient : String
  link : Option String
  createdAt : Instant
  deriving DecidableEq

/-- `push_subscriptions`, as far as queueing a message looks at it. -/
structure PushSubscription where
  vaultId : VaultId
  endpoint : String
  deriving DecidableEq

/-! ## §4 The database -/

structure Db where
  vaults : KeyedTable VaultRow VaultId VaultRow.id
  guardians : KeyedTable GuardianRow (VaultId × Nat) GuardianRow.key
  invoices : KeyedTable InvoiceRow String InvoiceRow.paymentHash
  deposits : KeyedTable DepositRow (VaultId × String) DepositRow.key
  events : List EventRow
  notifications : List NotificationRow
  pushSubscriptions : List PushSubscription

namespace Db

def empty : Db := ⟨.empty, .empty, .empty, .empty, [], [], []⟩

/-- The row of a vault. -/
def vault? (db : Db) (id : VaultId) : Option VaultRow := db.vaults.find? id

/-- `UPDATE vaults SET … WHERE …`. -/
def updateVaults (db : Db) (p : VaultRow → Bool) (f : VaultRow → VaultRow)
    (keeps : ∀ r, (f r).id = r.id) : Db :=
  { db with vaults := db.vaults.update p f keeps }

@[simp] theorem vault?_empty (id : VaultId) : empty.vault? id = none := rfl

theorem vault?_id {db : Db} {id : VaultId} {r : VaultRow} (h : db.vault? id = some r) :
    r.id = id :=
  KeyedTable.find?_key h

theorem vault?_updateVaults (db : Db) (p : VaultRow → Bool) (f : VaultRow → VaultRow)
    (keeps : ∀ r, (f r).id = r.id) (id : VaultId) :
    (db.updateVaults p f keeps).vault? id =
      (db.vault? id).map fun r => if p r then f r else r :=
  KeyedTable.find?_update db.vaults p f keeps id

end Db

end GhostKey

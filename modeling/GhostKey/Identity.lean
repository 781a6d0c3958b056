import GhostKey.Creation
import GhostKey.Lightning
import GhostKey.Foundation.Trace
import Mathlib.Data.List.Sort

/-!
# The Owner's Address

An owner is known to the server by an address: the sealed contact of a vault, and a hash
of it that the browser supplies. A creation mails a confirmation link to the contact, and
the tap on the link marks the vault, and the vaults of the same hash and key, as confirmed.
On a new device the owner asks for a recovery link by the hash alone, and redeems it for
the sealed material of every vault that carries the hash.

Layers:
1. the tables, with the triggers and the statements on them;
2. the handlers, as the server has them;
3. the requests as a system, in any interleaving: `desk`.
-/

namespace GhostKey

namespace Identity

open Foundation Program

/-! ## §1 The tables -/

/-- `vaults`, as far as the owner's address and its confirmation go, and what a recovery
shows of a vault. -/
structure Account where
  id : VaultId
  label : Option String
  network : String
  timelockBlocks : Nat
  createdAt : Instant
  nextDeadlineAt : Instant
  status : Status
  contact : SealedContact
  password : PasswordColumns
  ownerXpub : Option String
  ownerEmailHash : Option Hash
  verifiedAt : Option Instant
  verifyTokenHash : Option Hash
  verifySentAt : Option Instant
  deriving DecidableEq

/-- `email_send_cooldowns` of the purpose `contact_verification`, in whole seconds. -/
structure Cooldown where
  emailHash : Hash
  lastSentAt : Int
  deriving DecidableEq

/-- `owner_recovery_challenges`. -/
structure Challenge where
  tokenHash : Hash
  emailHash : Hash
  createdAt : Instant
  expiresAt : Instant
  usedAt : Option Instant
  deriving DecidableEq

inductive LetterKind where
  | contactVerification
  | ownerRecovery
  | welcome
  deriving DecidableEq

/-- `notifications` on the email channel, unsealed: the recipient and the link. -/
structure Letter where
  kind : LetterKind
  vaultId : VaultId
  recipient : String
  link : Option String
  createdAt : Instant
  deriving DecidableEq

structure Desk where
  clock : Instant
  accounts : KeyedTable Account VaultId Account.id
  cooldowns : KeyedTable Cooldown Hash Cooldown.emailHash
  challenges : KeyedTable Challenge Hash Challenge.tokenHash
  letters : List Letter
  events : List (VaultId × String)

/-- `timestamp()`, in whole seconds. -/
def timestamp (t : Instant) : Int := t / 1000000000

/-- SQLite's `julianday` keeps milliseconds: it rounds a fraction, but for the last
millisecond of a second. -/
def julianMillis (t : Instant) : Int :=
  let nano := t % 1000000000
  t / 1000000000 * 1000 + if nano > 999000000 then 999 else (nano + 500000) / 1000000

/-- A vault whose owner's address is confirmed, as far as the server still goes by it. -/
def Account.binds (r : Account) : Bool := r.verifiedAt.isSome && r.status ≠ .claimed

namespace Desk

def start (clock : Instant) : Desk := ⟨clock, .empty, .empty, .empty, [], []⟩

def account? (w : Desk) (id : VaultId) : Option Account := w.accounts.find? id

def challenge? (w : Desk) (h : Hash) : Option Challenge := w.challenges.find? h

def cooldown? (w : Desk) (h : Hash) : Option Cooldown := w.cooldowns.find? h

/-- What the triggers `prevent_conflicting_verified_owner_email` look for: a confirmed
vault of the same hash under another key. -/
def conflicts (w : Desk) (r : Account) : Bool :=
  r.ownerEmailHash.any fun hash => w.accounts.rows.any fun x =>
    x.id ≠ r.id && x.ownerEmailHash = some hash && x.binds &&
      (x.ownerXpub = none || r.ownerXpub = none || x.ownerXpub ≠ r.ownerXpub)

end Desk

inductive StoreError where
  | unavailable
  | uniqueViolation
  | foreignKeyViolation
  /-- `RAISE(ABORT, …)`. -/
  | triggerAbort
  deriving DecidableEq

inductive DeskStmt where
  | insertVault (r : Account)
  | setInitialStatus (id : VaultId)
  | insertEvent (id : VaultId) (kind : String)
  /-- A confirmation taken over from a sibling. -/
  | setVerified (id : VaultId) (now : Instant)
  | reserveSend (hash : Hash) (now cutoff : Int)
  | setToken (id : VaultId) (tokenHash : Hash) (now : Instant)
  | reserveToken (id : VaultId) (tokenHash : Hash) (now cutoff : Instant)
  | confirm (id : VaultId) (stored : Hash) (now : Instant)
  | confirmSibling (id : VaultId) (now : Instant)
  | enqueue (l : Letter)
  | deleteVault (id : VaultId)
  deriving DecidableEq

namespace DeskStmt

/-- The statements on one row of `vaults`: the WHERE clause beside the id. -/
def picks : DeskStmt → Account → Bool
  | reserveToken _ _ _ cutoff, r =>
      r.verifySentAt.all fun sent => julianMillis sent ≤ julianMillis cutoff
  | confirm _ stored _, r => r.verifyTokenHash = some stored
  | _, _ => true

/-- The SET clause of the same statements. -/
def file : DeskStmt → Account → Account
  | setInitialStatus _, r => { r with status := initialVaultStatus }
  | setVerified _ now, r => { r with verifiedAt := some now }
  | setToken _ tokenHash now, r =>
      { r with verifyTokenHash := some tokenHash, verifySentAt := some now }
  | reserveToken _ tokenHash now _, r =>
      { r with verifyTokenHash := some tokenHash, verifySentAt := some now }
  | confirm _ _ now, r => { r with verifiedAt := some now, verifyTokenHash := none }
  | confirmSibling _ now, r => { r with verifiedAt := some now, verifyTokenHash := none }
  | _, r => r

theorem file_id (st : DeskStmt) (r : Account) : (st.file r).id = r.id := by
  cases st <;> rfl

end DeskStmt

namespace Desk

/-- An UPDATE of one row of `vaults`. The trigger fires where it confirms the address. -/
def onAccount (w : Desk) (id : VaultId) (st : DeskStmt) : Except StoreError (Desk × Nat) :=
  let where_ := fun r : Account => decide (r.id = id) && st.picks r
  if (w.account? id).any fun r => st.picks r && r.verifiedAt.isNone &&
      (st.file r).verifiedAt.isSome && w.conflicts r then .error .triggerAbort
  else
    .ok ({ w with accounts := w.accounts.update where_ st.file st.file_id },
      w.accounts.affected where_)

/-- `INSERT … ON CONFLICT DO UPDATE … WHERE last_sent_at <= cutoff`. -/
def reserve (w : Desk) (hash : Hash) (now cutoff : Int) : Desk × Nat :=
  match w.cooldown? hash with
  | none =>
      match w.cooldowns.insert? ⟨hash, now⟩ with
      | none => (w, 0)
      | some cooldowns => ({ w with cooldowns := cooldowns }, 1)
  | some _ =>
      let where_ := fun c : Cooldown => decide (c.emailHash = hash) && decide (c.lastSentAt ≤ cutoff)
      let cooldowns := w.cooldowns.update where_ (fun c => { c with lastSentAt := now }) fun _ => rfl
      ({ w with cooldowns := cooldowns }, w.cooldowns.affected where_)

def hasVault (w : Desk) (id : VaultId) : Bool := (w.account? id).isSome

def run (w : Desk) : DeskStmt → Except StoreError (Desk × Nat)
  | .insertVault r =>
      if r.verifiedAt.isSome && w.conflicts r then .error .triggerAbort
      else
        match w.accounts.insert? r with
        | none => .error .uniqueViolation
        | some accounts => .ok ({ w with accounts := accounts }, 1)
  | .insertEvent id kind =>
      if w.hasVault id then .ok ({ w with events := w.events ++ [(id, kind)] }, 1)
      else .error .foreignKeyViolation
  | .reserveSend hash now cutoff => .ok (w.reserve hash now cutoff)
  | .enqueue l =>
      if w.hasVault l.vaultId then .ok ({ w with letters := w.letters ++ [l] }, 1)
      else .error .foreignKeyViolation
  | .deleteVault id =>
      .ok ({ w with
          accounts := w.accounts.delete fun r => r.id = id
          letters := w.letters.filter fun l => l.vaultId ≠ id
          events := w.events.filter fun e => e.1 ≠ id },
        w.accounts.affected fun r => r.id = id)
  | .setInitialStatus id => w.onAccount id (.setInitialStatus id)
  | .setVerified id now => w.onAccount id (.setVerified id now)
  | .setToken id tokenHash now => w.onAccount id (.setToken id tokenHash now)
  | .reserveToken id tokenHash now cutoff => w.onAccount id (.reserveToken id tokenHash now cutoff)
  | .confirm id stored now => w.onAccount id (.confirm id stored now)
  | .confirmSibling id now => w.onAccount id (.confirmSibling id now)

/-- The transaction of a recovery request: the cleanup, the search for a recent challenge
that is unused, and, without one, the new challenge in place of the unused ones. -/
def openChallenge (w : Desk) (c : Challenge) (cooldownCutoff usedRetentionCutoff : Instant) :
    Except StoreError (Desk × Bool) :=
  let cleaned := w.challenges.delete fun x =>
    decide (x.expiresAt ≤ c.createdAt) || x.usedAt.any fun used => used < usedRetentionCutoff
  if cleaned.rows.any fun x =>
      x.emailHash = c.emailHash && x.usedAt.isNone && cooldownCutoff < x.createdAt then
    .ok ({ w with challenges := cleaned }, false)
  else
    match (cleaned.delete fun x => x.emailHash = c.emailHash && x.usedAt.isNone).insert? c with
    | none => .error .uniqueViolation
    | some challenges => .ok ({ w with challenges := challenges }, true)

/-- `UPDATE owner_recovery_challenges SET used_at = ? … RETURNING owner_email_hash`. -/
def redeem (w : Desk) (tokenHash : Hash) (now : Instant) : Desk × Option Hash :=
  let where_ := fun c : Challenge =>
    decide (c.tokenHash = tokenHash) && (c.usedAt.isNone && decide (now < c.expiresAt))
  let challenges := w.challenges.update where_ (fun c => { c with usedAt := some now }) fun _ => rfl
  ({ w with challenges := challenges },
    ((w.challenge? tokenHash).filter fun c => c.usedAt.isNone && decide (now < c.expiresAt)).map
      Challenge.emailHash)

end Desk

/-! ## §2 Actions -/

inductive DeskQuery where
  | account (id : VaultId)
  | conflicting (hash : Hash) (ownerXpub : String)
  | verifiedSibling (hash : Hash) (ownerXpub : String) (id : VaultId)
  | unverifiedSiblings (hash : Hash) (ownerXpub : Option String) (id : VaultId)
  | passwordVaults (hash : Hash)
  deriving DecidableEq

def DeskQuery.Result : DeskQuery → Type
  | account _ => Option Account
  | conflicting _ _ => Bool
  | verifiedSibling _ _ _ => Bool
  | unverifiedSiblings _ _ _ => List VaultId
  | passwordVaults _ => List Account

/-- The rows that carry a hash and a password, the newest first. -/
def Desk.passwordVaults (w : Desk) (hash : Hash) : List Account :=
  (w.accounts.select fun r => r.ownerEmailHash = some hash && r.password.salt.isSome).insertionSort
    fun a b => b.createdAt ≤ a.createdAt

def DeskQuery.eval (w : Desk) : (q : DeskQuery) → q.Result
  | account id => w.account? id
  | conflicting hash ownerXpub => w.accounts.rows.any fun r =>
      r.ownerEmailHash = some hash && r.binds &&
        (r.ownerXpub = none || r.ownerXpub ≠ some ownerXpub)
  | verifiedSibling hash ownerXpub id => w.accounts.rows.any fun r =>
      r.ownerEmailHash = some hash && r.verifiedAt.isSome && r.ownerXpub = some ownerXpub &&
        r.id ≠ id
  | unverifiedSiblings hash ownerXpub id =>
      -- NULL equals nothing
      (w.accounts.select fun r =>
        r.ownerEmailHash = some hash && r.verifiedAt.isNone && ownerXpub.isSome &&
          r.ownerXpub = ownerXpub && r.id ≠ id).map Account.id
  | passwordVaults hash => w.passwordVaults hash

inductive DeskAction where
  | now
  | uuid
  | bearerToken
  | query (q : DeskQuery)
  | exec (st : DeskStmt)
  | openChallenge (c : Challenge) (cooldownCutoff usedRetentionCutoff : Instant)
  | redeem (tokenHash : Hash) (now : Instant)

def DeskAction.Response : DeskAction → Type
  | now => Instant
  | uuid => VaultId
  | bearerToken => Token
  | query q => Except StoreError q.Result
  | exec _ => Except StoreError Nat
  | openChallenge _ _ _ => Except StoreError Bool
  | redeem _ _ => Except StoreError (Option Hash)

/-- Whether the database takes the next action, and what is drawn at random. -/
structure Chance where
  dbFails : Bool
  drawn : String

/-- A statement changes the tables where it succeeds. -/
def committed {α : Type} (w : Desk) : Except StoreError (Desk × α) → Except StoreError α × Desk
  | .ok (w', a) => (.ok a, w')
  | .error e => (.error e, w)

def DeskAction.perform : (a : DeskAction) → Chance → Desk → a.Response × Desk
  | now, _, w => (w.clock, w)
  | uuid, o, w => (o.drawn, w)
  | bearerToken, o, w => (o.drawn, w)
  | query q, o, w => (if o.dbFails then .error .unavailable else .ok (q.eval w), w)
  | exec st, o, w => committed w (if o.dbFails then .error .unavailable else w.run st)
  | openChallenge c cooldown retention, o, w =>
      committed w (if o.dbFails then .error .unavailable else w.openChallenge c cooldown retention)
  | redeem h t, o, w =>
      committed w (if o.dbFails then .error .unavailable else .ok (w.redeem h t))

/-- `routes::ApiError`. -/
inductive RouteError where
  | notFound
  | validation (reason : String)
  | conflict (reason : String)
  | db (e : StoreError)
  | crypto
  deriving DecidableEq

abbrev DeskProg (α : Type) := Program DeskAction DeskAction.Response RouteError α

abbrev DeskHist := History DeskAction DeskAction.Response

abbrev DeskEv := Event DeskAction DeskAction.Response

def now : DeskProg Instant := .act .now .done

def uuid : DeskProg VaultId := .act .uuid .done

def bearerToken : DeskProg Token := .act .bearerToken .done

/-- `?` on an answer of the database. -/
def answered {α : Type} : Except StoreError α → DeskProg α
  | .ok a => .done a
  | .error e => .fail (.db e)

def query (q : DeskQuery) : DeskProg q.Result := .act (.query q) answered

def exec (st : DeskStmt) : DeskProg Nat := .act (.exec st) answered

def recordEvent (id : VaultId) (kind : String) : DeskProg Unit := do
  let _ ← exec (.insertEvent id kind)
  return ()

/-- `?` on a sealing or opening. -/
def crypto {α : Type} : Except Unit α → DeskProg α
  | .ok a => .done a
  | .error _ => .fail .crypto

/-! ## §3 The handlers -/

section Handlers

variable (S : Server)

def verifyUrl (id : VaultId) (token : Token) : String :=
  S.publicBaseUrl ++ "/#/verify-email/" ++ id ++ "/" ++ token

def recoverUrl (token : Token) : String := S.publicBaseUrl ++ "/#/recover/" ++ token

/-- `notifier::enqueue` on the email channel. The texts are sealed first. -/
def enqueue (kind : LetterKind) (id : VaultId) (recipient : String) (link : Option String) :
    DeskProg Unit := do
  let _ ← crypto (S.sealForVault id recipient)
  let t ← now
  let _ ← exec (.enqueue ⟨kind, id, recipient, link, t⟩)
  return ()

/-- `VERIFY_RESEND_COOLDOWN_SECS`. -/
def verifyResendCooldownSecs : Int := 60

/-- `VERIFY_TTL_SECS`. -/
def verifyTtlSecs : Int := 7 * 24 * 3600

/-- `num_seconds`, which rounds towards zero. -/
def numSeconds (d : Int) : Int := d.tdiv 1000000000

/-- `verify_token_expired`. -/
def verifyTokenExpired (sentAt : Option Instant) (t : Instant) : Bool :=
  match sentAt with
  | some sent => verifyTtlSecs < numSeconds (t - sent)
  | none => true

/-- The mail at the end of `send_contact_verification`. -/
def mailVerification (id : VaultId) (email : String) (token : Token) : DeskProg Unit := do
  let sent ← ((enqueue S .contactVerification id email (some (verifyUrl S id token))).attempt :
    DeskProg (Except RouteError Unit))
  match sent with
  | .ok () => return ()
  | .error _ => .fail (.validation "could not enqueue verification email")

/-- `send_contact_verification`. -/
def sendContactVerification (id : VaultId) (email : String) : DeskProg Unit := do
  let token ← bearerToken
  let t ← now
  let cutoff := t - seconds verifyResendCooldownSecs
  let row : Option Account ← query (.account id)
  match row.map Account.ownerEmailHash with
  | none => .fail .notFound
  | some (some emailHash) => do
    let reserved ← exec (.reserveSend emailHash (timestamp t) (timestamp cutoff))
    if reserved ≠ 1 then
      .fail (.conflict ("a confirmation email was just sent to this address. Give it a minute, " ++
        "then check spam"))
    else do
      let _ ← exec (.setToken id (S.hashClaimToken token) t)
      mailVerification S id email token
  | some none => do
    -- no hash to go by: the vault's own column is the cooldown
    let reserved ← exec (.reserveToken id (S.hashClaimToken token) t cutoff)
    if reserved ≠ 1 then
      .fail (.conflict "a confirmation email was just sent. Give it a minute, then check spam")
    else mailVerification S id email token

/-- `reject_conflicting_owner_email`. -/
def rejectConflicting (hash : Hash) (ownerXpub : String) : DeskProg Unit := do
  let conflict : Bool ← query (.conflicting hash ownerXpub)
  if conflict then
    .fail (.conflict ("a vault already exists for this email under a different key. " ++
      "Sign in to manage it instead"))
  else return ()

/-- What a creation posts, as far as the owner's address goes. -/
structure CreateRequest where
  label : Option String
  network : String
  timelockBlocks : Nat
  checkinPeriodSecs : Int
  gracePeriodSecs : Int
  ownerContact : Option String
  ownerContactChannel : Option String

/-- What a handler answers. -/
structure FoundVault where
  id : VaultId
  label : Option String
  status : Status
  createdAt : Instant
  nextDeadlineAt : Instant
  deriving DecidableEq

/-- `SealedBlobsView`. -/
structure SealedBlobsView where
  vaultId : VaultId
  passwordSalt : String
  passwordKdfMemKib : Int
  passwordKdfIters : Int
  ownerXprvCt : String
  ownerXprvNonce : String
  ownerTokenCt : String
  ownerTokenNonce : String
  network : String
  timelockBlocks : Nat
  ownerXpubFragmentExternal : Option String
  deriving DecidableEq

/-- `OwnerRecoveryBundle`. -/
structure OwnerRecoveryBundle where
  vault : FoundVault
  sealedBlobs : SealedBlobsView
  deriving DecidableEq

/-- `OwnerRecoveryExchange`. -/
structure OwnerRecoveryExchange where
  ownerEmail : String
  vaults : List OwnerRecoveryBundle
  deriving DecidableEq

inductive DeskReply where
  | created (id : VaultId) (ownerContactVerified : Option Bool)
  | noContent
  | accepted
  | recovered (x : OwnerRecoveryExchange)
  deriving DecidableEq

/-- The row of a creation's INSERT. -/
def newAccount (id : VaultId) (req : CreateRequest) (t : Instant) (contact : SealedContact)
    (ownerXpub : Option String) (setup : Option SealedSetup) : Account where
  id := id
  label := req.label
  network := req.network
  timelockBlocks := req.timelockBlocks
  createdAt := t
  nextDeadlineAt := t + seconds (req.checkinPeriodSecs + req.gracePeriodSecs)
  status := .ok
  contact := contact
  password := passwordColumns setup
  ownerXpub := ownerXpub
  ownerEmailHash := setup.map SealedSetup.ownerEmailHash
  verifiedAt := none
  verifyTokenHash := none
  verifySentAt := none

/-- `POST /vaults`: no key, no sealed contact, no hash. -/
def createVault (req : CreateRequest) : DeskProg DeskReply := do
  let id ← uuid
  let t ← now
  let _ ← exec (.insertVault (newAccount id req t .none none none))
  let _ ← exec (.setInitialStatus id)
  recordEvent id "registered"
  return .created id none

/-- The sealed material of a request, where there is any, is checked, and its hash must not
belong to another key. -/
def admitSetup (setup : Option SealedSetup) (ownerXpub : String) : DeskProg Unit :=
  match setup with
  | none => return ()
  | some s =>
      match validateSealed s with
      | .error e => .fail (.validation e)
      | .ok () => rejectConflicting s.ownerEmailHash ownerXpub

/-- Whether the same owner has confirmed the address on another vault. -/
def confirmedSibling (r : Account) : DeskProg Bool :=
  match r.ownerEmailHash with
  | none => return false
  | some hash => query (.verifiedSibling hash (r.ownerXpub.getD "") r.id)

/-- The confirmation of a new vault's address: taken over from a sibling, or asked for by a
mail, whose failure is only logged. -/
def startVerification (r : Account) (email : Option String) : DeskProg (Option Bool) :=
  if r.contact.ciphertext.isSome && r.contact.channel = some "email" then do
    let sibling ← confirmedSibling r
    if sibling then do
      let _ ← exec (.setVerified r.id r.createdAt)
      recordEvent r.id "owner_contact_verified"
      return some true
    else
      match email with
      | none => return some false
      | some email => do
        let _ ← ((sendContactVerification S r.id email).attempt :
          DeskProg (Except RouteError Unit))
        return some false
  else return none

/-- A creation from keys, once the keys and periods are checked. -/
def createKeyed (req : CreateRequest) (ownerXpub : String) (setup : Option SealedSetup) :
    DeskProg DeskReply := do
  let id ← uuid
  let t ← now
  let contact ← crypto (sealOpt S id req.ownerContact)
  admitSetup setup ownerXpub
  let r := newAccount id req t
    (sealedContact contact (channelOrEmail req.ownerContactChannel contact)) (some ownerXpub) setup
  let _ ← exec (.insertVault r)
  let _ ← exec (.setInitialStatus id)
  recordEvent id "registered"
  let verified ← startVerification S r req.ownerContact
  return .created id verified

/-- `POST /vaults/from-xpub`: with or without a password. -/
def createVaultFromXpub (req : CreateRequest) (ownerXpub : String) (setup : Option SealedSetup) :
    DeskProg DeskReply :=
  createKeyed S req ownerXpub setup

/-- `POST /vaults/guardian`: always with a password. -/
def createVaultGuardian (req : CreateRequest) (ownerXpub : String) (setup : SealedSetup) :
    DeskProg DeskReply :=
  createKeyed S req ownerXpub (some setup)

/-- `send_welcome_email`: only to a confirmed email contact. -/
def sendWelcomeEmail (id : VaultId) : DeskProg Unit := do
  let row : Option Account ← query (.account id)
  match row with
  | none => return ()
  | some r =>
      if r.verifiedAt.isNone then return ()
      else do
        let contact ← crypto (parseOwnerContact S id r.contact)
        match contact with
        | none => return ()
        | some c =>
            if c.channel = .email then
              enqueue S .welcome id c.address (some S.publicBaseUrl)
            else return ()

/-- Mark one sibling as confirmed. -/
def confirmSibling (id : VaultId) : DeskProg Unit := do
  let t ← now
  let _ ← exec (.confirmSibling id t)
  recordEvent id "owner_contact_verified"

/-- An address that is bound to another key is not confirmed. -/
def rejectConflictingRow (r : Account) : DeskProg Unit :=
  match r.ownerEmailHash, r.ownerXpub with
  | some hash, some ownerXpub => rejectConflicting hash ownerXpub
  | _, _ => return ()

/-- The welcome of whoever won; a failure is only logged. -/
def welcome (id : VaultId) (won : Nat) : DeskProg Unit :=
  if won = 1 then do
    let _ ← ((sendWelcomeEmail S id).attempt : DeskProg (Except RouteError Unit))
    return ()
  else return ()

/-- One email, one confirmation: the owner's other vaults stop asking. -/
def confirmSiblings (id : VaultId) (r : Account) : DeskProg Unit :=
  match r.ownerEmailHash with
  | none => return ()
  | some hash => do
    let siblings : List VaultId ← query (.unverifiedSiblings hash r.ownerXpub id)
    forEach siblings confirmSibling

/-- `verify_contact` once the token is accepted. -/
def confirmAddress (id : VaultId) (r : Account) (stored : Hash) : DeskProg DeskReply := do
  rejectConflictingRow r
  let t ← now
  let won ← exec (.confirm id stored t)
  recordEvent id "owner_contact_verified"
  welcome S id won
  confirmSiblings id r
  return .noContent

/-- `verify_contact`. -/
def verifyContact (id : VaultId) (token : Token) : DeskProg DeskReply := do
  let row : Option Account ← query (.account id)
  match row with
  | none => .fail .notFound
  | some r =>
      if r.verifiedAt.isSome then return .noContent
      else
        match r.verifyTokenHash with
        | none => .fail .notFound
        | some stored =>
            if S.claimTokenMatches token stored then do
              let t ← now
              if verifyTokenExpired r.verifySentAt t then
                .fail (.validation ("This confirmation link has expired. Open your GhostKey " ++
                  "dashboard and resend the confirmation email."))
              else confirmAddress S id r stored
            else .fail .notFound

/-- `resend_verification` once the wait is over. -/
def resendTo (id : VaultId) (ct nonce : String) : DeskProg DeskReply := do
  let email ← crypto (S.openForVault id ct nonce)
  sendContactVerification S id email
  return .noContent

/-- `resend_verification`. -/
def resendVerification (id : VaultId) : DeskProg DeskReply := do
  let row : Option Account ← query (.account id)
  match row with
  | none => .fail .notFound
  | some r =>
      match r.contact.ciphertext, r.contact.nonce with
      | some ct, some nonce =>
          if r.contact.channel ≠ some "email" then
            .fail (.validation "verification is only available for email contacts")
          else if r.verifiedAt.isSome then return .noContent
          else
            match r.verifySentAt with
            | none => resendTo S id ct nonce
            | some sent => do
              let t ← now
              if numSeconds (t - sent) < verifyResendCooldownSecs then
                .fail (.conflict ("a confirmation email was just sent. Give it a minute, then " ++
                  "check spam"))
              else resendTo S id ct nonce
      | _, _ => .fail (.validation "this vault has no reminder email on file")

/-- `OWNER_RECOVERY_TTL_MINUTES`. -/
def ownerRecoveryTtlMinutes : Int := 15

/-- `OWNER_RECOVERY_COOLDOWN_MINUTES`. -/
def ownerRecoveryCooldownMinutes : Int := 10

/-- `OWNER_RECOVERY_USED_RETENTION_HOURS`. -/
def ownerRecoveryUsedRetentionHours : Int := 24

def minutes (n : Int) : Int := seconds (60 * n)

def hours (n : Int) : Int := seconds (3600 * n)

/-- The challenge of a token at `t`. -/
def newChallenge (tokenHash emailHash : Hash) (t : Instant) : Challenge :=
  ⟨tokenHash, emailHash, t, t + minutes ownerRecoveryTtlMinutes, none⟩

/-- `request_owner_recovery` once the address is found. The token is drawn inside the
transaction, where no one sees it before the commit. -/
def mailChallenge (hash : Hash) (id : VaultId) (address : String) : DeskProg DeskReply := do
  let t ← now
  let token ← bearerToken
  let opened : Bool ← .act (.openChallenge (newChallenge (S.hashClaimToken token) hash t)
    (t - minutes ownerRecoveryCooldownMinutes) (t - hours ownerRecoveryUsedRetentionHours)) answered
  if opened then do
    let _ ← ((enqueue S .ownerRecovery id address (some (recoverUrl S token))).attempt :
      DeskProg (Except RouteError Unit))
    return .accepted
  else return .accepted

/-- `str::to_lowercase` on the hash; a text that is not ASCII is refused either way. -/
def lowercase (s : String) : String := .ofList (s.toList.map Char.toLower)

/-- The contact of the newest password vault of the hash, if it is an email address, is
mailed; whether it is, the reply does not tell. -/
def challengeNewest (hash : Hash) : DeskProg DeskReply := do
  let rows : List Account ← query (.passwordVaults hash)
  match rows.head? with
  | none => return .accepted
  | some r =>
      match parseOwnerContact S r.id r.contact with
      | .ok (some c) =>
          if c.channel = .email then mailChallenge S hash r.id c.address else return .accepted
      | _ => return .accepted

/-- The check of both recovery routes that a text is a hash. -/
@[irreducible]
def isEmailHash (hash : String) : Bool := hash.length = 64 && hash.toList.all isHexDigit

/-- `request_owner_recovery`. -/
def requestOwnerRecovery (ownerEmailHash : String) : DeskProg DeskReply :=
  if isEmailHash (lowercase (trim ownerEmailHash)) then
    challengeNewest S (lowercase (trim ownerEmailHash))
  else .fail (.validation "owner_email_hash must be 64 hex characters")

/-- `load_sealed_blobs`, on the row it reads. -/
def sealedBlobs (r : Account) : Option SealedBlobsView :=
  match r.password with
  | ⟨some salt, some mem, some iters, some xprvCt, some xprvNonce, some tokenCt, some tokenNonce⟩ =>
      some ⟨r.id, salt, mem, iters, xprvCt, xprvNonce, tokenCt, tokenNonce, r.network,
        r.timelockBlocks, r.ownerXpub⟩
  | _ => none

/-- `load_sealed_blobs`. -/
def loadSealedBlobs (id : VaultId) : DeskProg SealedBlobsView := do
  let row : Option Account ← query (.account id)
  match row with
  | none => .fail .notFound
  | some r =>
      match sealedBlobs r with
      | some view => return view
      | none => .fail (.validation ("this vault was not created with a password; cross-device " ++
          "recovery unavailable"))

def foundVault (r : Account) : FoundVault :=
  ⟨r.id, r.label, r.status, r.createdAt, r.nextDeadlineAt⟩

/-- The bundles of the rows, each with its sealed material as it is loaded. -/
def bundles : List Account → DeskProg (List OwnerRecoveryBundle)
  | [] => return []
  | r :: rs => do
      let view ← loadSealedBlobs r.id
      let rest ← bundles rs
      return ⟨foundVault r, view⟩ :: rest

/-- The address that is shown: the contact of the newest vault. -/
def shownEmail : Option Account → DeskProg String
  | none => return ""
  | some newest => do
      let row : Option Account ← query (.account newest.id)
      match row with
      | none => return ""
      | some r => do
        let contact ← crypto (parseOwnerContact S newest.id r.contact)
        return ((contact.filter fun c => c.channel = .email).map OwnerContact.address).getD ""

/-- `exchange_owner_recovery`. -/
def exchangeOwnerRecovery (token : Token) : DeskProg DeskReply := do
  let t ← now
  let hash : Option Hash ← .act (.redeem (S.hashClaimToken (trim token)) t) answered
  match hash with
  | none => .fail .notFound
  | some hash => do
    let rows : List Account ← query (.passwordVaults hash)
    let ownerEmail ← shownEmail S rows.head?
    let vaults ← bundles rows
    return .recovered ⟨ownerEmail, vaults⟩

/-- `delete_vault`. -/
def deleteVault (id : VaultId) : DeskProg DeskReply := do
  let row : Option Account ← query (.account id)
  match row with
  | none => .fail .notFound
  | some r =>
      if claimIsLive r.status then
        .fail (.conflict ("this heir's claim is already underway and can no longer be removed. " ++
          "To stop it, check in. That cancels the claim while you're still within the waiting " ++
          "window."))
      else do
        let n ← exec (.deleteVault id)
        if n = 0 then .fail .notFound else return .noContent

end Handlers

/-! ## §4 The requests in any interleaving -/

inductive DeskRequest where
  | createVault (req : CreateRequest)
  | createVaultFromXpub (req : CreateRequest) (ownerXpub : String) (setup : Option SealedSetup)
  | createVaultGuardian (req : CreateRequest) (ownerXpub : String) (setup : SealedSetup)
  | verifyContact (id : VaultId) (token : Token)
  | resendVerification (id : VaultId)
  | requestOwnerRecovery (ownerEmailHash : String)
  | exchangeOwnerRecovery (token : Token)
  | deleteVault (id : VaultId)

def DeskRequest.program (S : Server) : DeskRequest → DeskProg DeskReply
  | createVault req => Identity.createVault req
  | createVaultFromXpub req ownerXpub setup => Identity.createVaultFromXpub S req ownerXpub setup
  | createVaultGuardian req ownerXpub setup => Identity.createVaultGuardian S req ownerXpub setup
  | verifyContact id token => Identity.verifyContact S id token
  | resendVerification id => Identity.resendVerification S id
  | requestOwnerRecovery hash => Identity.requestOwnerRecovery S hash
  | exchangeOwnerRecovery token => Identity.exchangeOwnerRecovery S token
  | deleteVault id => Identity.deleteVault id

/-- What happens beside these requests: time passes, and a vault goes through its life. -/
inductive DeskDrift where
  | pass (d : Nat)
  | live (id : VaultId) (status : Status) (nextDeadlineAt : Instant)

def DeskDrift.apply : DeskDrift → Desk → Desk
  | pass d, w => { w with clock := w.clock + d }
  | live id status next, w =>
      let lived := fun r : Account => { r with status := status, nextDeadlineAt := next }
      { w with accounts := w.accounts.update (fun r => r.id = id) lived fun _ => rfl }

/-- Any number of requests. -/
def desk (S : Server) :
    System DeskAction DeskAction.Response RouteError DeskReply Desk Chance DeskDrift
      DeskRequest where
  program := DeskRequest.program S
  mayStart _ _ := true
  perform := DeskAction.perform
  drift := DeskDrift.apply
  restart := id

abbrev DeskStep :=
  Step DeskAction DeskAction.Response RouteError DeskReply Desk DeskDrift DeskRequest

abbrev DeskTrace := List DeskStep

end Identity

end GhostKey

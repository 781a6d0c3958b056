import GhostKey.Checkin
import GhostKey.Foundation.Json

/-!
# Creating Vaults

The three creation handlers: from a pair of descriptors, from the owner's and the
heir's keys, and with two guardians. A row is inserted as `ok` and moved to
`unfunded` by a second statement; a Door A vault stores the heir's claim token,
sealed and hashed, from the start.
-/

namespace GhostKey

open Foundation Prog

variable (S : Server)

/-! ## §1 Checks of a request -/

def minCheckinSecs : Int := 3600
def minGraceSecs : Int := 60
def demoMinCheckinSecs : Int := 5
def demoMinGraceSecs : Int := 3
def minTimelockBlocks : Nat := 144
def demoMinTimelockBlocks : Nat := 1
def maxTimelockBlocks : Nat := 0xFFFF

def demoSwitch : String := if S.demoMode then "on" else "off"

/-- `demo::validate_periods`. -/
def validatePeriods (checkinSecs graceSecs : Int) : Except String Unit :=
  let minCheckin := if S.demoMode then demoMinCheckinSecs else minCheckinSecs
  let minGrace := if S.demoMode then demoMinGraceSecs else minGraceSecs
  if checkinSecs ≤ 0 then .error "checkin_period_secs must be positive"
  else if graceSecs < 0 then .error "grace_period_secs must be non-negative"
  else if checkinSecs < minCheckin then
    .error ("checkin_period_secs " ++ toString checkinSecs ++ " below minimum " ++
      toString minCheckin ++ " (demo mode is " ++ demoSwitch S ++ ")")
  else if graceSecs < minGrace then
    .error ("grace_period_secs " ++ toString graceSecs ++ " below minimum " ++
      toString minGrace ++ " (demo mode is " ++ demoSwitch S ++ ")")
  else .ok ()

/-- Whatever the mode, an accepted period is positive and a grace is not empty. -/
theorem validatePeriods_ok {checkinSecs graceSecs : Int}
    (accepted : validatePeriods S checkinSecs graceSecs = .ok ()) :
    0 < checkinSecs ∧ 0 < graceSecs := by
  simp only [validatePeriods, demoMinCheckinSecs, minCheckinSecs, demoMinGraceSecs,
    minGraceSecs] at accepted
  split_ifs at accepted <;> omega

/-- `demo::validate_timelock_blocks`. -/
def validateTimelockBlocks (blocks : Nat) : Except String Unit :=
  let min := if S.demoMode then demoMinTimelockBlocks else minTimelockBlocks
  if blocks = 0 then .error "timelock_blocks must be at least 1"
  else if blocks > maxTimelockBlocks then
    .error ("timelock_blocks " ++ toString blocks ++ " above maximum " ++
      toString maxTimelockBlocks)
  else if blocks < min then
    .error ("timelock_blocks " ++ toString blocks ++ " below minimum " ++ toString min ++
      " (about one day; demo mode is " ++ demoSwitch S ++ ")")
  else .ok ()

/-- `demo::ensure_demo_safe_for_network`. -/
def ensureDemoSafeForNetwork (network : String) : Except String Unit :=
  if S.demoMode && network = "bitcoin" then
    .error ("demo mode is on; mainnet vault creation is disabled on this server. " ++
      "Use signet, testnet, or regtest, or unset GHOSTKEY_DEMO_MODE.")
  else .ok ()

/-- `validate_contact_channel`. -/
def validateContactChannel (field : String) (channel : Option String) : Except String Unit :=
  match channel with
  | none => .ok ()
  | some c =>
      if c = "email" ∨ c = "sms" ∨ c = "whatsapp" then .ok ()
      else .error ("unknown " ++ field ++ " " ++ S.debugStr c ++
        "; expected email, sms, or whatsapp")

/-- `str::split_once` on a character. -/
def splitOnce (c : Char) (s : List Char) : Option (List Char × List Char) :=
  if c ∈ s then some (s.takeWhile (· ≠ c), (s.dropWhile (· ≠ c)).tail) else none

/-- `validate_contact_shape`. -/
def validateContactShape (channel contact : String) : Except String Unit :=
  if channel = "email" then
    if (splitOnce '@' contact.toList).any fun (local_, domain) =>
        !local_.isEmpty && domain.contains '.' then .ok ()
    else .error "That doesn't look like an email address."
  else if channel = "sms" ∨ channel = "whatsapp" then
    match contact.toList with
    | '+' :: digits =>
        if 7 ≤ digits.length ∧ digits.all Char.isDigit then .ok ()
        else .error ("That doesn't look like a phone number. Use the international " ++
          "format, like +2348000000000.")
    | _ => .error ("That doesn't look like a phone number. Use the international " ++
        "format, like +2348000000000.")
  else .ok ()

/-- The shape of a contact that is given, on its channel or else by mail. -/
def validateGivenContact (channel contact : Option String) : Except String Unit :=
  match contact.filter (· ≠ "") with
  | none => .ok ()
  | some pt => validateContactShape (channel.getD "email") pt

/-- The length limits on the personal opener of the claim message. -/
def validateIntro (fromName heirNote : Option String) : Except String Unit :=
  if (fromName.map trim).any fun s => 80 < s.length then .error "from_name too long (max 80)"
  else if (heirNote.map trim).any fun s => 500 < s.length then
    .error "heir_note too long (max 500)"
  else .ok ()

/-! ## §2 Keys -/

/-- An account key as it is posted, bare or tagged with its origin. -/
structure PartyXpub where
  xpub : String
  fingerprint : Option String
  deriving DecidableEq

/-- `str::eq_ignore_ascii_case`. -/
def eqIgnoreAsciiCase (a b : String) : Bool := a.toList.map Char.toLower = b.toList.map Char.toLower

/-- The fingerprint and the key a posted key names, as text. -/
def splitOrigin (who : String) (party : PartyXpub) : Except String (String × String) :=
  match (trim party.xpub).toList with
  | '[' :: stripped =>
      match splitOnce ']' stripped with
      | none => .error (who ++ ".xpub: missing closing ']' on origin tag")
      | some (inside, after) =>
          let fp := String.ofList (inside.takeWhile (· ≠ '/'))
          match party.fingerprint with
          | none => .ok (fp, .ofList after)
          | some explicit =>
              if eqIgnoreAsciiCase explicit fp then .ok (fp, .ofList after)
              else .error (who ++ ".fingerprint (" ++ explicit ++
                ") does not match origin tag (" ++ fp ++ ")")
  | bare =>
      match party.fingerprint with
      | none => .error (who ++ ".fingerprint is required when xpub has no origin tag")
      | some fp => .ok (fp, .ofList bare)

/-- `resolve_party`: the fingerprint and the account key. -/
def resolveParty (who : String) (party : PartyXpub) : Except String (String × String) := do
  let (fp, xpub) ← splitOrigin who party
  let fp ← (S.keyLib.parseFingerprint fp).mapError fun e => who ++ ".fingerprint: " ++ e
  let xpub ← (S.keyLib.parseXpub xpub).mapError fun e => who ++ ".xpub: " ++ e
  .ok (fp, xpub)

/-- A party's key fragments, external and internal. -/
def fragments (network : Network) (party : String × String) : String × String :=
  (S.keyLib.keyFragment party.1 network party.2 true,
    S.keyLib.keyFragment party.1 network party.2 false)

/-! ## §3 Rows of a new vault -/

/-- The lifecycle columns of the INSERT. -/
def newLife (s : Settings) (t : Instant) (claimTokenHash : Option Hash) : Lifecycle where
  status := .ok
  lastCheckinAt := none
  nextDeadlineAt := t + s.cycle
  claimEligibleAt := some (t + s.cycle + s.grace)
  preDeadlineReminderSentAt := none
  lastAlarmReminderSentAt := none
  alarmReminderCount := 0
  checkinLinkTokenHash := none
  checkinLinkTokenIssuedAt := none
  checkinLinkTokenUsedAt := none
  claimTokenHash := claimTokenHash
  claimTokenIssuedAt := claimTokenHash.map fun _ => t
  claimTokenUsedAt := none
  claimOpenedAt := none
  claimReadyNotifiedAt := none
  panicFrozenUntil := none

/-- The row of the INSERT. -/
def newVault (id : VaultId) (s : Settings) (t : Instant) (claimTokenHash : Option Hash)
    (keys : SealedKeys) (contacts : Contacts) : VaultRow :=
  ⟨id, s, newLife s t claimTokenHash, keys, contacts, .unscanned⟩

/-- Seal a contact, if one is given. -/
def sealOpt (id : VaultId) (contact : Option String) : Except Unit (Option (String × String)) :=
  match contact.filter (· ≠ "") with
  | none => .ok none
  | some pt => (S.sealForVault id pt).map some

def sealedText (sealed : Option (String × String)) : SealedText :=
  ⟨sealed.map Prod.fst, sealed.map Prod.snd⟩

def sealedContact (sealed : Option (String × String)) (channel : Option String) : SealedContact :=
  ⟨sealed.map Prod.fst, sealed.map Prod.snd, channel⟩

/-- A channel that defaults to mail when there is a contact at all. -/
def channelOrEmail (channel : Option String) (sealed : Option (String × String)) : Option String :=
  channel.or (sealed.map fun _ => "email")

/-- `initial_vault_status`. -/
def initialVaultStatus : Status := .unfunded

/-- `CreatedVault`. -/
structure CreatedVault where
  vaultId : VaultId
  status : Status
  nextDeadlineAt : Instant
  claimEligibleAt : Instant
  ownerToken : Token
  ownerContactVerified : Option Bool
  vaultSecretHex : Option String
  deriving DecidableEq

/-- The answer for a row just inserted. -/
def created (r : VaultRow) (t : Instant) (ownerToken : Token) (verified : Option Bool)
    (vaultSecretHex : Option String) : CreatedVault :=
  ⟨r.id, initialVaultStatus, t + r.settings.cycle, t + r.settings.cycle + r.settings.grace,
    ownerToken, verified, vaultSecretHex⟩

/-- Hold the clock until the vault is funded: the second statement of a creation. -/
def holdClock (id : VaultId) (detail : Detail) : Prog Unit := do
  let _ ← update id (.setInitialStatus initialVaultStatus)
  recordEvent id .registered detail

/-- `reject_conflicting_owner_email`. -/
def rejectConflictingOwnerEmail (hash : Hash) (ownerXpub : String) : Prog Unit := do
  let conflict : Bool ← query (.conflictingOwnerEmail hash ownerXpub)
  if conflict then
    .fail (.conflict ("a vault already exists for this email under a different key. " ++
      "Sign in to manage it instead"))
  else pure ()

/-- Take an owner's confirmed address over from a sibling vault. Without one the
contact routes mail a confirmation link. -/
def inheritVerification (r : VaultRow) (t : Instant) : Prog (Option Bool) :=
  if r.contacts.owner.ciphertext.isSome && r.contacts.owner.channel = some "email" then
    match r.settings.ownerEmailHash with
    | none => pure (some false)
    | some hash => do
      let verified : Bool ← query
        (.verifiedSibling hash (r.settings.ownerXpubFragmentExternal.getD "") r.id)
      if verified then
        let _ ← update r.id (.ownerContactVerified t)
        recordEvent r.id .ownerContactVerified []
        pure (some true)
      else pure (some false)
  else pure none

/-! ## §4 From descriptors -/

/-- `CreateVaultRequest`. -/
structure CreateVaultRequest where
  label : Option String
  network : String
  descriptorExternal : String
  descriptorInternal : String
  timelockBlocks : Nat
  checkinPeriodSecs : Int
  gracePeriodSecs : Int
  ownerContactChannel : Option String
  deriving DecidableEq

/-- `POST /vaults`. -/
def createVault (req : CreateVaultRequest) : Prog CreatedVault := do
  validated "" (validatePeriods S req.checkinPeriodSecs req.gracePeriodSecs)
  validated "" (validateTimelockBlocks S req.timelockBlocks)
  validated "" (validateContactChannel S "owner_contact_channel" req.ownerContactChannel)
  validated "descriptor_external: " (S.keyLib.parseDescriptor req.descriptorExternal)
  validated "descriptor_internal: " (S.keyLib.parseDescriptor req.descriptorInternal)
  let _ ← validated "unknown network " (parseNetwork req.network)
  validated "" (ensureDemoSafeForNetwork S req.network)
  let id ← ask .uuid
  let t ← now
  let ownerToken ← ask .bearerToken
  let settings : Settings :=
    { label := req.label
      network := req.network
      descriptorExternal := req.descriptorExternal
      descriptorInternal := req.descriptorInternal
      timelockBlocks := req.timelockBlocks
      checkinPeriodSecs := req.checkinPeriodSecs
      gracePeriodSecs := req.gracePeriodSecs
      createdAt := t
      ownerXpubFragmentExternal := none
      ownerXpubFragmentInternal := none
      heirXpubFragmentExternal := none
      heirXpubFragmentInternal := none
      ownerTokenHash := some (S.hashClaimToken ownerToken)
      ownerEmailHash := none
      heirDerived := false
      vaultKind := .standard }
  let r := newVault id settings t none ⟨none, none, none, .none⟩ ⟨.none, .none, .none, .none, none⟩
  let _ ← exec (.insertVault r)
  holdClock id []
  pure (created r t ownerToken none none)

/-! ## §5 From keys -/

structure SealedSetup where
  passwordSalt : String
  passwordKdfMemKib : Int
  passwordKdfIters : Int
  ownerXprvCt : String
  ownerXprvNonce : String
  ownerTokenCt : String
  ownerTokenNonce : String
  heirXprvCt : Option String
  heirXprvNonce : Option String
  ownerEmailHash : Hash
  claimToken : Option Token
  deriving DecidableEq

/-- The password columns of the INSERT. -/
def passwordColumns : Option SealedSetup → PasswordColumns
  | none => .none
  | some s =>
      ⟨some s.passwordSalt, some s.passwordKdfMemKib, some s.passwordKdfIters,
        some s.ownerXprvCt, some s.ownerXprvNonce, some s.ownerTokenCt, some s.ownerTokenNonce⟩

def isHexDigit (c : Char) : Bool :=
  c.isDigit || ('a' ≤ c && c ≤ 'f') || ('A' ≤ c && c ≤ 'F')

/-- The checks both password flows make of the sealed material. -/
def validateSealed (s : SealedSetup) : Except String Unit :=
  if s.passwordKdfMemKib < 1024 ∨ s.passwordKdfIters < 1 then
    .error "password KDF parameters out of range"
  else if s.ownerEmailHash.length ≠ 64 ∨ !s.ownerEmailHash.toList.all isHexDigit then
    .error "owner_email_hash must be 64 hex characters"
  else .ok ()

/-- The heir's sealed key and the claim token come together or not at all. -/
def validateDoor (s : SealedSetup) : Except String Unit :=
  if (s.heirXprvCt.isSome && s.heirXprvNonce.isSome) ≠ s.claimToken.isSome then
    .error "sealed heir xprv and claim token must be both present or both absent"
  else .ok ()

/-- The claim token at rest, where there is one. -/
def sealToken (id : VaultId) (token : Option Token) : Except Unit (Option String) :=
  match token with
  | none => .ok none
  | some tok => (S.sealClaimTokenAtRest id tok).map some

/-- `CreateVaultFromXpubRequest`. -/
structure CreateVaultFromXpubRequest where
  label : Option String
  network : String
  owner : PartyXpub
  heir : PartyXpub
  timelockBlocks : Nat
  checkinPeriodSecs : Int
  gracePeriodSecs : Int
  ownerContact : Option String
  ownerContactChannel : Option String
  heirContact : Option String
  heirContactChannel : Option String
  sealed : Option SealedSetup
  /-- `heir_derivation.email`. -/
  heirDerivation : Option String
  trustedContact : Option String
  trustedContactChannel : Option String
  fromName : Option String
  heirNote : Option String
  deriving DecidableEq

/-- The id and the heir's key: derived from an address, or posted. -/
def resolveHeir (req : CreateVaultFromXpubRequest) (network : Network) :
    Prog (VaultId × (String × String) × Option String) :=
  match req.heirDerivation with
  | some raw => do
    let id ← ask .uuid
    let email := trim raw
    if email = "" then .fail (.validation "heir_derivation.email must be non-empty")
    else
      let xpub ← validated "heir_derivation: " (S.keyLib.deriveHeirSeed email id network)
      let secret ← validated "vault_secret: " (S.vaultSecretHex id)
      pure (id, ("00000000", xpub), some secret)
  | none => do
    let heir ← validated "" (resolveParty S "heir" req.heir)
    let id ← ask .uuid
    pure (id, heir, none)

/-- The heir's contact: the one given, else the address the key is derived from. -/
def effectiveHeirContact (req : CreateVaultFromXpubRequest) : Option String :=
  (req.heirContact.filter (· ≠ "")).or ((req.heirDerivation.map trim).filter (· ≠ ""))

/-- `serde_json` on an object of texts and nulls. -/
def jsonObject (fields : List (String × Option String)) : String :=
  .ofList (Json.object (fields.map fun f => (f.1.toList, f.2.map String.toList)))

/-- The personal opener is sealed too when there is one. -/
def sealIntro (id : VaultId) (fromName heirNote : Option String) :
    Except Unit (Option (String × String)) :=
  match (fromName.map trim).filter (· ≠ ""), (heirNote.map trim).filter (· ≠ "") with
  | none, none => .ok none
  | name, note =>
      (S.sealForVault id (jsonObject [("from_name", name), ("note", note)])).map some

/-- Check the sealed material and seal the claim token at rest, if there is any. -/
def sealSetup (id : VaultId) : Option SealedSetup → Prog (Option String)
  | none => pure none
  | some s => do
    validated "" (validateSealed s)
    validated "" (validateDoor s)
    crypto (sealToken S id s.claimToken)

/-- The address of a password vault must not belong to another key. -/
def rejectConflictingSetup (sealed : Option SealedSetup) (ownerXpub : String) : Prog Unit :=
  match sealed with
  | none => pure ()
  | some s => rejectConflictingOwnerEmail s.ownerEmailHash ownerXpub

/-- The checks of the request before any key is looked at, in their order. -/
def checkFromXpub (req : CreateVaultFromXpubRequest) : Prog Network := do
  validated "" (validateTimelockBlocks S req.timelockBlocks)
  validated "" (validateContactChannel S "heir_contact_channel" req.heirContactChannel)
  validated "" (validateContactChannel S "owner_contact_channel" req.ownerContactChannel)
  validated "" (validateContactChannel S "trusted_contact_channel" req.trustedContactChannel)
  let network ← validated "unknown network " (parseNetwork req.network)
  validated "" (ensureDemoSafeForNetwork S req.network)
  pure network

/-- The descriptor pair of the owner and the heir, each parsed back. -/
def buildPair (ownerKey heirKey : String × String) (timelockBlocks : Nat) :
    Prog (String × String) := do
  let pair ← validated "descriptor build: "
    (S.keyLib.buildDescriptorPair ownerKey heirKey timelockBlocks)
  validated "descriptor_external: " (S.keyLib.parseDescriptor pair.1)
  validated "descriptor_internal: " (S.keyLib.parseDescriptor pair.2)
  pure pair

/-- The contacts of the request, sealed: the owner's, the heir's and the trusted one's,
and the opener for the heir. -/
structure SealedParties where
  owner : Option (String × String)
  heir : Option (String × String)
  trusted : Option (String × String)
  heirIntro : Option (String × String)

/-- Check the shapes of the contacts and the opener, and seal them. -/
def sealParties (id : VaultId) (req : CreateVaultFromXpubRequest) : Prog SealedParties := do
  validated "" (validateGivenContact req.heirContactChannel (effectiveHeirContact req))
  validated "" (validateGivenContact req.ownerContactChannel req.ownerContact)
  let heir ← crypto (sealOpt S id (effectiveHeirContact req))
  let trusted ← crypto (sealOpt S id req.trustedContact)
  validated "" (validateIntro req.fromName req.heirNote)
  let heirIntro ← crypto (sealIntro S id req.fromName req.heirNote)
  let owner ← crypto (sealOpt S id req.ownerContact)
  pure ⟨owner, heir, trusted, heirIntro⟩

/-- `POST /vaults/from-xpub`. -/
def createVaultFromXpub (req : CreateVaultFromXpubRequest) : Prog CreatedVault := do
  validated "" (validatePeriods S req.checkinPeriodSecs req.gracePeriodSecs)
  let network ← checkFromXpub S req
  let owner ← validated "" (resolveParty S "owner" req.owner)
  let (id, heir, vaultSecretHex) ← resolveHeir S req network
  if owner.2 = heir.2 then .fail (.validation "owner and heir xpubs must differ")
  else
    let ownerKey := fragments S network owner
    let heirKey := fragments S network heir
    let pair ← buildPair S ownerKey heirKey req.timelockBlocks
    let t ← now
    let sealed ← sealParties S id req
    let ownerToken ← ask .bearerToken
    let atRest ← sealSetup S id req.sealed
    rejectConflictingSetup req.sealed ownerKey.1
    let settings : Settings :=
      { label := req.label
        network := req.network
        descriptorExternal := pair.1
        descriptorInternal := pair.2
        timelockBlocks := req.timelockBlocks
        checkinPeriodSecs := req.checkinPeriodSecs
        gracePeriodSecs := req.gracePeriodSecs
        createdAt := t
        ownerXpubFragmentExternal := some ownerKey.1
        ownerXpubFragmentInternal := some ownerKey.2
        heirXpubFragmentExternal := some heirKey.1
        heirXpubFragmentInternal := some heirKey.2
        ownerTokenHash := some (S.hashClaimToken ownerToken)
        ownerEmailHash := req.sealed.map SealedSetup.ownerEmailHash
        heirDerived := req.heirDerivation.isSome
        vaultKind := .standard }
    let keys : SealedKeys :=
      ⟨atRest, req.sealed.bind SealedSetup.heirXprvCt, req.sealed.bind SealedSetup.heirXprvNonce,
        passwordColumns req.sealed⟩
    let contacts : Contacts :=
      ⟨sealedContact sealed.owner (channelOrEmail req.ownerContactChannel sealed.owner),
        sealedContact sealed.heir req.heirContactChannel,
        sealedContact sealed.trusted (channelOrEmail req.trustedContactChannel sealed.trusted),
        sealedText sealed.heirIntro, none⟩
    let r := newVault id settings t
      ((req.sealed.bind SealedSetup.claimToken).map S.hashClaimToken) keys contacts
    let _ ← exec (.insertVault r)
    holdClock id
      [("source", .str "from-xpub"), ("network", .str req.network),
        ("encrypted_contact", .bool sealed.heir.isSome),
        ("password_vault", .bool req.sealed.isSome)]
    let verified ← inheritVerification r t
    pure (created r t ownerToken verified vaultSecretHex)

/-! ## §6 With guardians -/

/-- `GuardianParty`. -/
structure GuardianParty where
  key : PartyXpub
  xprvCt : String
  xprvNonce : String
  claimToken : Token
  contact : Option String
  contactChannel : Option String
  deriving DecidableEq

/-- `CreateGuardianVaultRequest`. -/
structure CreateGuardianVaultRequest where
  label : Option String
  network : String
  owner : PartyXpub
  heir : PartyXpub
  guardian1 : GuardianParty
  guardian2 : GuardianParty
  timelockBlocks : Nat
  unlockHeight : Option Nat
  checkinPeriodSecs : Int
  gracePeriodSecs : Int
  ownerContact : Option String
  ownerContactChannel : Option String
  heirContact : Option String
  heirContactChannel : Option String
  sealed : SealedSetup
  fromName : Option String
  heirNote : Option String
  deriving DecidableEq

/-- Insert the row of one guardian. -/
def insertGuardian (id : VaultId) (t : Instant) (slot : Nat) (g : GuardianParty) : Prog Unit := do
  let atRest ← crypto (S.sealClaimTokenAtRest id g.claimToken)
  let contact ← crypto (sealOpt S id g.contact)
  let _ ← exec (.insertGuardian
    { vaultId := id
      slot := slot
      xprvCt := g.xprvCt
      xprvNonce := g.xprvNonce
      claimTokenAtRest := some atRest
      claimTokenHash := some (S.hashClaimToken g.claimToken)
      claimTokenIssuedAt := some t
      contact := sealedContact contact (channelOrEmail g.contactChannel contact) })
  pure ()

/-- The checks of the request before any key is looked at, in their order. -/
def checkGuardian (req : CreateGuardianVaultRequest) : Prog Network := do
  validated "" (validateTimelockBlocks S req.timelockBlocks)
  validated "" (validateContactChannel S "heir_contact_channel" req.heirContactChannel)
  validated "" (validateContactChannel S "owner_contact_channel" req.ownerContactChannel)
  validated "" (validateContactChannel S "guardian1.contact_channel" req.guardian1.contactChannel)
  validated "" (validateContactChannel S "guardian2.contact_channel" req.guardian2.contactChannel)
  let network ← validated "unknown network " (parseNetwork req.network)
  validated "" (ensureDemoSafeForNetwork S req.network)
  pure network

/-- The four keys of a guardian vault. -/
structure FourParties where
  owner : String × String
  heir : String × String
  guardian1 : String × String
  guardian2 : String × String

/-- Resolve the four keys; all of them must differ. -/
def resolveFour (req : CreateGuardianVaultRequest) : Prog FourParties := do
  let owner ← validated "" (resolveParty S "owner" req.owner)
  let heir ← validated "" (resolveParty S "heir" req.heir)
  let g1 ← validated "" (resolveParty S "guardian1" req.guardian1.key)
  let g2 ← validated "" (resolveParty S "guardian2" req.guardian2.key)
  if ¬ [owner.2, heir.2, g1.2, g2.2].Nodup then
    .fail (.validation "owner, heir, and both guardian keys must all differ")
  else pure ⟨owner, heir, g1, g2⟩

/-- Check the opener and seal the contacts: the owner's and the heir's. -/
def sealGuardianContacts (id : VaultId) (req : CreateGuardianVaultRequest) :
    Prog SealedParties := do
  let heir ← crypto (sealOpt S id req.heirContact)
  let owner ← crypto (sealOpt S id req.ownerContact)
  validated "" (validateIntro req.fromName req.heirNote)
  let heirIntro ← crypto (sealIntro S id req.fromName req.heirNote)
  pure ⟨owner, heir, none, heirIntro⟩

/-- `POST /vaults/guardian`. -/
def createVaultGuardian (req : CreateGuardianVaultRequest) : Prog CreatedVault := do
  validated "" (validatePeriods S req.checkinPeriodSecs req.gracePeriodSecs)
  let network ← checkGuardian S req
  let parties ← resolveFour S req
  let ownerKey := fragments S network parties.owner
  let heirKey := fragments S network parties.heir
  let pair ← validated "descriptor build: "
    (S.keyLib.buildGuardianDescriptorPair ownerKey heirKey (fragments S network parties.guardian1)
      (fragments S network parties.guardian2) req.timelockBlocks req.unlockHeight)
  validated "" (validateSealed req.sealed)
  match req.sealed.heirXprvCt, req.sealed.heirXprvNonce, req.sealed.claimToken with
  | some ct, some nonce, some token => do
    let id ← ask .uuid
    let t ← now
    rejectConflictingOwnerEmail req.sealed.ownerEmailHash ownerKey.1
    let atRest ← crypto (S.sealClaimTokenAtRest id token)
    let sealed ← sealGuardianContacts S id req
    let ownerToken ← ask .bearerToken
    let settings : Settings :=
      { label := req.label
        network := req.network
        descriptorExternal := pair.1
        descriptorInternal := pair.2
        timelockBlocks := req.timelockBlocks
        checkinPeriodSecs := req.checkinPeriodSecs
        gracePeriodSecs := req.gracePeriodSecs
        createdAt := t
        ownerXpubFragmentExternal := some ownerKey.1
        ownerXpubFragmentInternal := some ownerKey.2
        heirXpubFragmentExternal := some heirKey.1
        heirXpubFragmentInternal := some heirKey.2
        ownerTokenHash := some (S.hashClaimToken ownerToken)
        ownerEmailHash := some req.sealed.ownerEmailHash
        heirDerived := false
        vaultKind := .guardian }
    let contacts : Contacts :=
      ⟨sealedContact sealed.owner (channelOrEmail req.ownerContactChannel sealed.owner),
        sealedContact sealed.heir req.heirContactChannel, .none, sealedText sealed.heirIntro, none⟩
    let r := newVault id settings t (some (S.hashClaimToken token))
      ⟨some atRest, some ct, some nonce, passwordColumns (some req.sealed)⟩ contacts
    let _ ← exec (.insertVault r)
    insertGuardian S id t 1 req.guardian1
    insertGuardian S id t 2 req.guardian2
    holdClock id [("source", .str "guardian"), ("network", .str req.network)]
    let verified ← inheritVerification r t
    pure (created r t ownerToken verified none)
  | _, _, _ =>
    .fail (.validation "guardian vault requires a sealed heir xprv and its claim token")

end GhostKey

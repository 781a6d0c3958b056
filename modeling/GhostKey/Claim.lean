import GhostKey.Lightning

/-!
# The Claim Routes

What the holder of a bearer token can ask for. Every route looks the token up,
refuses a used one and lets the claim-challenge window decide; three of them
then spend, after consuming the token with a compare-and-swap and before
promoting the vault to `claimed`.
-/

namespace GhostKey

open Foundation Prog

variable (S : Server)

/-! ## §1 The challenge window -/

/-- `notify_claim_opened`. -/
def notifyClaimOpened (id : VaultId) : Prog Unit := do
  let row ← query (.vault id)
  match row with
  | none => pure ()
  | some r =>
    let owner ← crypto (parseOwnerContact S id r.contacts.owner)
    match owner with
    | none => pure ()
    | some owner => do
      let t ← now
      let token ← mintOrReuseOneTapToken S id t
      let cancelUrl := match token with
        | some token => S.checkinLinkUrl id token
        | none => S.checkinUrl
      enqueue S id .claimOpened owner.channel owner.address (some cancelUrl)
    let trusted ← crypto (parseOwnerContact S id r.contacts.trusted)
    match trusted with
    | none => pure ()
    | some trusted => enqueue S id .claimOpened trusted.channel trusted.address none

/-- Its end: the trusted contact is told. -/
def notifyTrusted (id : VaultId) (r : VaultRow) : Prog Unit := do
  let trusted ← crypto (parseOwnerContact S id r.contacts.trusted)
  match trusted with
  | none => pure ()
  | some trusted => enqueue S id .claimOpened trusted.channel trusted.address none

/-- `ensure_claim_challenge`: `none` when the claim may proceed, else the end of
the window. The first call of a cycle stamps it and alerts the owner. -/
def ensureClaimChallenge (id : VaultId) : Prog (Option Instant) :=
  if S.challengeWindowSecs = 0 then pure none
  else do
    let t ← now
    let row ← query (.vault id)
    let r ← okOr .notFound row
    match r.life.claimOpenedAt with
    | some opened =>
      let available := opened + S.window
      pure (if t < available then some available else none)
    | none =>
      let rows ← update id (.stampClaimOpened t)
      let available := t + S.window
      if rows = 1 then
        recordEvent id .claimOpened [("challenge_until", .str (S.rfc3339 available))]
        logged (notifyClaimOpened S id)
      else pure ()
      pure (some available)

def safetyWait (available : Instant) : ApiError :=
  .conflict ("safety waiting period — this claim can be completed after " ++
    S.rfc3339 available)

/-- The window check of the routes that release or spend. -/
def requireWindowElapsed (id : VaultId) : Prog Unit := do
  let available ← ensureClaimChallenge S id
  match available with
  | some available => .fail (safetyWait S available)
  | none => pure ()

/-! ## §2 Looking a token up -/

def tokenUsed : ApiError := .conflict "claim token already used"

/-- The lookup all routes of the heir's token share. -/
def heirRow (token : Token) : Prog VaultRow := do
  let row ← query (.vaultByClaimToken (S.hashClaimToken token))
  let r ← okOr .notFound row
  let storedHash ← okOr .notFound r.life.claimTokenHash
  if S.claimTokenMatches token storedHash then pure r else .fail .notFound

/-- A token that has been consumed opens nothing. -/
def unusedHeirRow (token : Token) : Prog VaultRow := do
  let r ← heirRow S token
  if r.life.claimTokenUsedAt.isSome then .fail tokenUsed else pure r

def unknownNetwork (name : String) : String :=
  "stored vault network " ++ name ++ " is not a known Bitcoin network"

/-- `parse_network` with the error of the spending routes. -/
def storedNetwork (r : VaultRow) : Prog Network :=
  match parseNetwork r.settings.network with
  | .ok network => pure network
  | .error name => .fail (.validation (unknownNetwork name))

/-- `load_vault_for_claim_token`. -/
def loadVaultForClaimToken (token : Token) : Prog (VaultRow × Network) := do
  let r ← unusedHeirRow S token
  requireWindowElapsed S r.id
  let network ← storedNetwork r
  pure (r, network)

/-- `ClaimView`, without its display texts. -/
structure ClaimView where
  vaultId : VaultId
  status : Status
  claimAvailableAt : Option Instant
  guardianSlot : Option Nat
  claimedTxid : Option String
  deriving DecidableEq

/-- `latest_claim_broadcast_txid`. -/
def latestClaimBroadcastTxid (id : VaultId) : Prog (Option String) := do
  let event ← query (.latestClaimBroadcast id)
  pure (event.bind fun e => match e.detail.lookup "txid" with
    | some (.str txid) => some txid
    | _ => none)

/-- The rest of `resolve_claim`, once the token is matched to a vault. -/
def resolveMatched (r : VaultRow) (guardianSlot : Option Nat) : Prog ClaimView := do
  let claimedTxid ←
    if r.life.claimTokenUsedAt.isSome then
      if r.life.status ≠ .claimed then .fail tokenUsed else latestClaimBroadcastTxid r.id
    else pure none
  let claimAvailableAt ←
    if r.life.claimTokenUsedAt.isSome then pure none else ensureClaimChallenge S r.id
  match r.contacts.heir.ciphertext, r.contacts.heir.nonce with
  | some ct, some nonce => do
    let _ ← crypto (S.openForVault r.id ct nonce)
    pure ⟨r.id, r.life.status, claimAvailableAt, guardianSlot, claimedTxid⟩
  | _, _ => pure ⟨r.id, r.life.status, claimAvailableAt, guardianSlot, claimedTxid⟩

/-- Its end: what the heir's contact allows to show. -/
def matchedView (r : VaultRow) (guardianSlot : Option Nat) (claimAvailableAt : Option Instant)
    (claimedTxid : Option String) : Prog ClaimView :=
  match r.contacts.heir.ciphertext, r.contacts.heir.nonce with
  | some ct, some nonce => do
    let _ ← crypto (S.openForVault r.id ct nonce)
    pure ⟨r.id, r.life.status, claimAvailableAt, guardianSlot, claimedTxid⟩
  | _, _ => pure ⟨r.id, r.life.status, claimAvailableAt, guardianSlot, claimedTxid⟩

/-- `GET /claim/:token`: the heir's token first, then a guardian's. -/
def resolveClaim (token : Token) : Prog ClaimView := do
  let row ← query (.vaultByClaimToken (S.hashClaimToken token))
  match row with
  | some r =>
    let storedHash ← okOr .notFound r.life.claimTokenHash
    if !S.claimTokenMatches token storedHash then .fail .notFound
    else resolveMatched S r none
  | none =>
    let pair ← query (.guardianByClaimToken (S.hashClaimToken token))
    let (g, r) ← okOr .notFound pair
    let storedHash ← okOr .notFound g.claimTokenHash
    if !S.claimTokenMatches token storedHash then .fail .notFound
    else resolveMatched S r (some g.slot)

/-- `GET /claim/:token/unlock-estimate`. -/
def claimUnlockEstimate (token : Token) : Prog UnlockEstimateView := do
  let r ← unusedHeirRow S token
  let t ← now
  let est ← unlockEstimateWithCache S r t
  match est with
  | .error e => .fail e.toApiError
  | .ok est => pure (UnlockEstimateView.fromEstimate est t)

/-! ## §3 Key release -/

/-- `SealedHeirView`. -/
structure SealedHeirView where
  vaultId : VaultId
  network : String
  timelockBlocks : Nat
  heirXprvCt : String
  heirXprvNonce : String
  descriptorExternal : String
  descriptorInternal : String
  deriving DecidableEq

/-- `unlock_wait_message`. -/
def unlockWaitMessage (view : UnlockEstimateView) : String :=
  match view.unlockEta with
  | some eta =>
      "These funds unlock on the Bitcoin network around " ++ S.rfc3339 eta ++
        ". Come back then — we'll email you when it's ready."
  | none => "We're still confirming your funds on the Bitcoin network. Check back shortly."

/-- The on-chain gate in front of the heir's sealed key. -/
def requireMatured (r : VaultRow) : Prog Unit := do
  let t ← now
  let est ← unlockEstimateWithCache S r t
  match est with
  | .ok est =>
    let view := UnlockEstimateView.fromEstimate est t
    if !view.matured then .fail (.conflict (unlockWaitMessage S view)) else pure ()
  | .error e =>
    .fail (.validation ("couldn't reach the Bitcoin network to check the timelock; " ++
      "please try again shortly (" ++ e.text ++ ")"))

/-- `GET /claim/:token/sealed-heir`. -/
def getSealedHeirXprv (token : Token) : Prog SealedHeirView := do
  let r ← unusedHeirRow S token
  requireWindowElapsed S r.id
  requireMatured S r
  let ct ← okOr (.validation
    "this vault was not created with a password and has no sealed heir key") r.keys.heirXprvCt
  let nonce ← okOr (.validation "vault has heir_xprv_sealed_ct without nonce") r.keys.heirXprvNonce
  pure ⟨r.id, r.settings.network, r.settings.timelockBlocks, ct, nonce,
    r.settings.descriptorExternal, r.settings.descriptorInternal⟩

/-- `SealedGuardianView`. -/
structure SealedGuardianView where
  vaultId : VaultId
  slot : Nat
  network : String
  timelockBlocks : Nat
  guardianXprvCt : String
  guardianXprvNonce : String
  descriptorExternal : String
  descriptorInternal : String
  deriving DecidableEq

/-- `GET /claim/:token/sealed-guardian`; the token is a guardian's. -/
def getSealedGuardianXprv (token : Token) : Prog SealedGuardianView := do
  let pair ← query (.guardianByClaimToken (S.hashClaimToken token))
  let (g, r) ← okOr .notFound pair
  let storedHash ← okOr .notFound g.claimTokenHash
  if !S.claimTokenMatches token storedHash then .fail .notFound
  else if r.life.claimTokenUsedAt.isSome then .fail (.conflict "claim already completed")
  else
    requireWindowElapsed S r.id
    pure ⟨r.id, g.slot, r.settings.network, r.settings.timelockBlocks, g.xprvCt, g.xprvNonce,
      r.settings.descriptorExternal, r.settings.descriptorInternal⟩

/-- `HeirDerivationParamsView`. -/
structure HeirDerivationParamsView where
  vaultId : VaultId
  network : String
  timelockBlocks : Nat
  vaultSecretHex : String
  heirEmail : String
  descriptorExternal : String
  descriptorInternal : String
  deriving DecidableEq

/-- `GET /claim/:token/heir-derivation-params`. -/
def getHeirDerivationParams (token : Token) : Prog HeirDerivationParamsView := do
  let r ← unusedHeirRow S token
  if !r.settings.heirDerived then
    .fail (.validation
      "this vault was not created with heir_derivation; the heir has their own xpub")
  else
    requireWindowElapsed S r.id
    let parsed ← crypto (parseHeirContact S r.id r.contacts.heir)
    let contact ← okOr (.validation
      "heir_derived=1 but no sealed heir contact on file (server inconsistency)") parsed
    let heirEmail ← okOr (.validation
      "heir_derived=1 but the sealed heir contact has no email")
      (contact.contact.filter fun email => !isBlank email)
    let vaultSecretHex ← validated "vault_secret derivation: " (S.vaultSecretHex r.id)
    pure ⟨r.id, r.settings.network, r.settings.timelockBlocks, vaultSecretHex, heirEmail,
      r.settings.descriptorExternal, r.settings.descriptorInternal⟩

/-! ## §4 Spending -/

/-- The fee rate in sat/kwu: 2 sat/vB when absent, never under 1. The product is a `u64`, and
the release build does not check it. -/
def feeRate (satPerVb : Option Nat) : Nat := max (satPerVb.getD 2) 1 * 250 % 2 ^ 64

/-- A destination address, parsed and of the vault's network. -/
def parseDestination (destination : String) (network : Network) (wrongNetwork : String) :
    Prog String := do
  let dest ← validated "destination: " (S.wallet.parseAddress destination)
  if S.wallet.validForNetwork dest network then pure dest
  else .fail (.validation wrongNetwork)

/-- An account key of the vault's network. -/
def parseXpriv (field : String) (raw : String) (network : Network) : Prog String := do
  let key ← validated (field ++ ": ") (S.wallet.parseXpriv raw)
  if S.wallet.xprivMatches key network then pure key
  else .fail (.validation (field ++ " is for another network than the vault"))

/-- The compare-and-swap all three spending routes open with. -/
def consumeClaimToken (id : VaultId) : Prog Unit := do
  let t ← now
  let rows ← update id (.consumeClaimToken t)
  if rows ≠ 1 then .fail tokenUsed else pure ()

/-- `release_claim_token`; its own failure is only logged. -/
def releaseClaimToken (id : VaultId) : Prog Unit := logged (update id .releaseClaimToken)

/-- Release the token, then fail. -/
def releaseAndFail {α : Type} (id : VaultId) (e : ApiError) : Prog α := do
  releaseClaimToken id
  .fail e

/-- The wallet work of a spending route: everything up to the transaction it
broadcasts, with the endpoints to broadcast to. -/
abbrev SpendPlan := Prog (Except BlockingErr (Tx × List String))

/-- What a successful broadcast leads to. -/
structure BroadcastResponse where
  vaultId : VaultId
  txid : String
  deriving DecidableEq

/-- From the consumed token to the promoted vault; any failure releases it. -/
def spendAndPromote (id : VaultId) (setup : Except ApiError Unit) (plan : SpendPlan)
    (detail : Tx → Detail) : Prog BroadcastResponse :=
  match setup with
  | .error e => releaseAndFail id e
  | .ok () => do
    let planned ← plan
    match planned with
    | .error e => releaseAndFail id e.toApiError
    | .ok (tx, urls) =>
      let sent ← ask (.broadcast urls tx)
      match sent with
      | .error e => releaseAndFail id e.toApiError
      | .ok () =>
        let _ ← update id .promoteClaimed
        recordEvent id .claimBroadcast (detail tx)
        pure ⟨id, tx.txid⟩

/-- The stored descriptors and the explorer list, checked before any wallet work. -/
def spendSetup (config : VaultConfig) : Except ApiError Unit :=
  match S.wallet.fromConfig config with
  | .error e => .error (.validation ("stored vault: " ++ e))
  | .ok () =>
    match S.esploraUrls config.network with
    | .error e => .error (.validation e)
    | .ok _ => .ok ()

/-- The explorers of a network; the setup has already refused an empty list. -/
def explorers (network : Network) : List String := (S.esploraUrls network).toOption.getD []

/-- The blocking part of `broadcast_claim`: finalize what was submitted and take
the transaction out of it. -/
def submittedTx (config : VaultConfig) (psbt : Psbt) : Except BlockingErr Tx := do
  let wallet ← blocking .vault (S.wallet.buildWatchOnly config)
  let (finalized, psbt) ← blocking (fun e => .build ("finalize: " ++ e))
    (S.wallet.finalizePsbt wallet psbt)
  if !finalized then
    .error (.build
      "PSBT not fully signed; cannot finalize. Sign with the heir's wallet first.")
  else blocking (fun e => .build ("extract_tx: " ++ e)) (S.wallet.extractTx psbt)

/-- `POST /claim/:token/broadcast`. -/
def broadcastClaim (token : Token) (signedPsbt : String) : Prog BroadcastResponse := do
  let (r, network) ← loadVaultForClaimToken S token
  let bytes ← validated "signed_psbt_b64: " (S.wallet.decodeBase64 signedPsbt)
  let psbt ← validated "psbt parse: " (S.wallet.deserializePsbt bytes)
  consumeClaimToken r.id
  let config := vaultConfig r network .watchonly
  spendAndPromote r.id (spendSetup S config)
    (pure ((submittedTx S config psbt).map fun tx => (tx, explorers S network)))
    fun tx => [("txid", .str tx.txid)]

/-- Sign and finalize once more when the build did not finalize, then extract. -/
def finishTx (wallet : Wallet) (built : BuiltPsbt) (notFinal : String) : Except BlockingErr Tx := do
  let psbt ←
    if built.finalized then .ok built.psbt
    else do
      let signed ← blocking (fun e => .build ("re-sign: " ++ e)) (S.wallet.sign wallet built.psbt)
      let (finalized, psbt) ← blocking (fun e => .build ("finalize: " ++ e))
        (S.wallet.finalizePsbt wallet signed)
      if finalized then .ok psbt else .error (.build notFinal)
  blocking (fun e => .build ("extract_tx: " ++ e)) (S.wallet.extractTx psbt)

def notMatured : String := "PSBT could not be finalised; the timelock may not have matured yet"

/-- The blocking part of the routes that build the drain themselves: a full scan,
then the drain of what it found. -/
def drainPlan (config : VaultConfig) (wallet : Except String Wallet)
    (build : Wallet → Except String BuiltPsbt) : SpendPlan :=
  match wallet with
  | .error e => pure (.error (.vault e))
  | .ok wallet => do
    let answer ← ask (.fullScan (explorers S config.network) config.descriptorExternal
      config.descriptorInternal)
    match answer with
    | .error e => pure (.error e)
    | .ok scan =>
      match S.wallet.applyUpdate wallet scan with
      | .error e => pure (.error (.esplora ("apply_update: " ++ e)))
      | .ok wallet =>
        if scan.total = 0 then pure (.error .noUtxos)
        else
          match build wallet with
          | .error e => pure (.error (.build e))
          | .ok built =>
            pure ((finishTx S wallet built notMatured).map fun tx =>
              (tx, explorers S config.network))

/-- `POST /claim/:token/heir-claim`. -/
def heirClaim (token : Token) (destination : String) (satPerVb : Option Nat)
    (heirXprv : String) : Prog BroadcastResponse := do
  let (r, network) ← loadVaultForClaimToken S token
  let dest ← parseDestination S destination network "destination is not valid for the network"
  let key ← parseXpriv S "heir_xprv" heirXprv network
  consumeClaimToken r.id
  let config := vaultConfig r network .heir
  spendAndPromote r.id (spendSetup S config)
    (drainPlan S config (S.wallet.buildSigningFromAccount config key)
      fun wallet => S.wallet.buildHeirClaim wallet dest (feeRate satPerVb))
    fun tx => [("txid", .str tx.txid), ("destination", .str dest),
      ("flow", .str "heir-claim-one-shot")]

/-- `POST /claim/:token/guardian-claim`; the token is the heir's. -/
def guardianClaim (token : Token) (destination : String) (satPerVb : Option Nat)
    (heirXprv guardianXprv : String) : Prog BroadcastResponse := do
  let (r, network) ← loadVaultForClaimToken S token
  let dest ← parseDestination S destination network "destination is not valid for the network"
  let heirKey ← parseXpriv S "heir_xprv" heirXprv network
  let guardianKey ← parseXpriv S "guardian_xprv" guardianXprv network
  consumeClaimToken r.id
  let config := vaultConfig r network .heir
  spendAndPromote r.id (spendSetup S config)
    (drainPlan S config (S.wallet.buildSigningGuardian config heirKey guardianKey)
      fun wallet => S.wallet.buildGuardianClaim wallet dest (feeRate satPerVb))
    fun tx => [("txid", .str tx.txid), ("destination", .str dest),
      ("flow", .str "guardian-claim-two-key")]

/-- `BuildClaimPsbtResponse`. -/
structure BuildClaimPsbtResponse where
  vaultId : VaultId
  psbt : String
  totalInputSats : Nat
  outputSats : Nat
  feeSats : Nat
  finalized : Bool
  deriving DecidableEq

/-- `POST /claim/:token/build-psbt`. -/
def buildClaimPsbt (token : Token) (destination : String) (satPerVb : Option Nat) :
    Prog BuildClaimPsbtResponse := do
  let (r, network) ← loadVaultForClaimToken S token
  let dest ← parseDestination S destination network "destination is not a valid address"
  let config := vaultConfig r network .watchonly
  validated "stored vault descriptors invalid: " (S.wallet.fromConfig config)
  let urls ← validated "" (S.esploraUrls network)
  let wallet ← validated "" (S.wallet.buildWatchOnly config)
  let answer ← ask (.fullScan urls config.descriptorExternal config.descriptorInternal)
  match answer with
  | .error e => .fail e.toApiError
  | .ok scan =>
    let wallet ← validated "apply_update: " (S.wallet.applyUpdate wallet scan)
    if scan.total = 0 then .fail BlockingErr.noUtxos.toApiError
    else
      let built ← validated "" (S.wallet.buildHeirClaim wallet dest (feeRate satPerVb))
      let outputSats := (built.psbt.outputs.map TxOut.value).sum
      let feeSats := scan.total - outputSats
      recordEvent r.id .claimPsbtBuilt
        [("destination", .str dest), ("total_input_sats", .int scan.total),
          ("fee_sats", .int feeSats)]
      pure ⟨r.id, S.wallet.serializePsbt built.psbt, scan.total, outputSats, feeSats,
        built.finalized⟩

end GhostKey

import GhostKey.Conduct.Owner

/-!
# What a Creation Stores

The three creation endpoints check a request, seal what it carries and insert one row.
`FromDescriptors`, `FromXpub` and `WithGuardians` gather what an accepted request has
passed on the way, and the row it ends in. The endpoints insert no other row, however
their statements and calls are answered.

Main results:
- `stores_createVault`, `stores_createVaultFromXpub`, `stores_createVaultGuardian`: every
  row an endpoint inserts is that of an accepted request.
-/

namespace GhostKey

open Foundation Program Prog

variable (S : Server)

/-! ## §1 Insertions -/

/-- An insertion of a vault inserts a row of this kind. -/
def Action.Stores (good : VaultRow → Prop) (a : Action) : Prop :=
  ∀ r, a = .exec (.insertVault r) → good r

/-- Every row the program inserts is of this kind, and so is its result. -/
structure Stores {α : Type} (good : VaultRow → Prop) (post : α → Prop) (p : Prog α) : Prop where
  does : p.Does (Action.Stores good) post

namespace Stores

variable {α β : Type} {good : VaultRow → Prop} {post : α → Prop} {post' : β → Prop}

theorem done {a : α} (result : post a) : Stores good post (.done a : Prog α) := ⟨result⟩

theorem fail {e : ApiError} : Stores good post (.fail e : Prog α) := ⟨trivial⟩

theorem bind {p : Prog α} {f : α → Prog β} (first : Stores good post p)
    (next : ∀ a, post a → Stores good post' (f a)) : Stores good post' (p.bind f) :=
  ⟨Does.bind first.does fun a result => (next a result).does⟩

theorem mono {post₁ : α → Prop} {p : Prog α} (stores : Stores good post p)
    (weaker : ∀ a, post a → post₁ a) : Stores good post₁ p :=
  ⟨Does.mono stores.does weaker⟩

theorem weaken {good₁ : VaultRow → Prop} {p : Prog α} (stores : Stores good post p)
    (weaker : ∀ r, good r → good₁ r) : Stores good₁ post p :=
  ⟨Does.widen stores.does fun _ stored r eq => weaker r (stored r eq)⟩

/-- A free program inserts nothing. -/
theorem of_free {p : Prog α} (free : Free p) : Stores good (fun _ => True) p := by
  constructor
  apply Does.of_only
  apply Only.mono free
  rintro a plain r rfl
  cases plain

theorem skip {p : Prog α} {f : α → Prog β} (free : Free p) (next : ∀ a, Stores good post' (f a)) :
    Stores good post' (p.bind f) :=
  bind (of_free free) fun a _ => next a

theorem validated {pre : String} {x : Except String α} {f : α → Prog β}
    (next : ∀ a, x = .ok a → Stores good post' (f a)) :
    Stores good post' ((Prog.validated pre x).bind f) := by
  cases x with
  | error e => exact .fail
  | ok a => exact next a rfl

theorem crypto {x : Except Unit α} {f : α → Prog β}
    (next : ∀ a, x = .ok a → Stores good post' (f a)) :
    Stores good post' ((Prog.crypto x).bind f) := by
  cases x with
  | error e => exact .fail
  | ok a => exact next a rfl

theorem exec {st : Stmt} {f : Nat → Prog β} (inserted : ∀ r, st = .insertVault r → good r)
    (next : ∀ n, Stores good post' (f n)) : Stores good post' ((Prog.exec st).bind f) := by
  refine ⟨?_, fun answer => ?_⟩
  · intro r eq
    exact inserted r (Action.exec.inj eq)
  · cases answer with
    | error e => trivial
    | ok n => exact (next n).does

end Stores

/-- What follows an insertion inserts nothing. -/
theorem stores_holdClock {good : VaultRow → Prop} (id : VaultId) (detail : Detail) :
    Stores good (fun _ => True) (holdClock id detail) := by
  apply Stores.exec
  · intro r eq
    cases eq
  · intro n
    exact Stores.of_free (free_recordEvent (by decide))

/-! ## §2 From descriptors -/

/-- A request that `create_vault` has accepted. -/
structure FromDescriptors (req : CreateVaultRequest) where
  network : Network
  id : VaultId
  time : Instant
  ownerToken : Token
  periods : validatePeriods S req.checkinPeriodSecs req.gracePeriodSecs = .ok ()
  timelock : validateTimelockBlocks S req.timelockBlocks = .ok ()
  external_parses : S.keyLib.parseDescriptor req.descriptorExternal = .ok ()
  internal_parses : S.keyLib.parseDescriptor req.descriptorInternal = .ok ()
  known : parseNetwork req.network = .ok network

/-- The row it ends in. -/
def FromDescriptors.row {req : CreateVaultRequest} (c : FromDescriptors S req) : VaultRow :=
  newVault c.id
    { label := req.label
      network := req.network
      descriptorExternal := req.descriptorExternal
      descriptorInternal := req.descriptorInternal
      timelockBlocks := req.timelockBlocks
      checkinPeriodSecs := req.checkinPeriodSecs
      gracePeriodSecs := req.gracePeriodSecs
      createdAt := c.time
      ownerXpubFragmentExternal := none
      ownerXpubFragmentInternal := none
      heirXpubFragmentExternal := none
      heirXpubFragmentInternal := none
      ownerTokenHash := some (S.hashClaimToken c.ownerToken)
      ownerEmailHash := none
      heirDerived := false
      vaultKind := .standard }
    c.time none ⟨none, none, none, .none⟩ ⟨.none, .none, .none, .none, none⟩

theorem stores_createVault (req : CreateVaultRequest) :
    Stores (fun r => ∃ c : FromDescriptors S req, r = c.row) (fun _ => True)
      (createVault S req) := by
  apply Stores.validated
  intro _ periods
  apply Stores.validated
  intro _ timelock
  apply Stores.validated
  intro _ _
  apply Stores.validated
  intro _ external
  apply Stores.validated
  intro _ internal
  apply Stores.validated
  intro network known
  apply Stores.validated
  intro _ _
  -- the checks are over
  apply Stores.skip (free_ask rfl)
  intro id
  apply Stores.skip free_now
  intro t
  apply Stores.skip (free_ask rfl)
  intro ownerToken
  apply Stores.exec
  · intro r eq
    rw [← Stmt.insertVault.inj eq]
    exact ⟨⟨network, id, t, ownerToken, periods, timelock, external, internal, known⟩, rfl⟩
  · intro n
    exact (stores_holdClock id []).bind fun _ _ => .done trivial

/-! ## §3 From keys -/

/-- The key that `resolve_heir` finds for the vault: posted, or derived from an address. -/
def HeirKey (req : CreateVaultFromXpubRequest) (network : Network) (id : VaultId)
    (heir : String × String) : Prop :=
  match req.heirDerivation with
  | none => resolveParty S "heir" req.heir = .ok heir
  | some raw => trim raw ≠ "" ∧ heir.1 = "00000000" ∧
      S.keyLib.deriveHeirSeed (trim raw) id network = .ok heir.2

/-- A request that `create_vault_from_xpub` has accepted. -/
structure FromXpub (req : CreateVaultFromXpubRequest) where
  network : Network
  owner : String × String
  id : VaultId
  heir : String × String
  pair : String × String
  time : Instant
  sealed : SealedParties
  ownerToken : Token
  atRest : Option String
  periods : validatePeriods S req.checkinPeriodSecs req.gracePeriodSecs = .ok ()
  timelock : validateTimelockBlocks S req.timelockBlocks = .ok ()
  heir_channel : validateContactChannel S "heir_contact_channel" req.heirContactChannel = .ok ()
  known : parseNetwork req.network = .ok network
  owner_key : resolveParty S "owner" req.owner = .ok owner
  heir_key : HeirKey S req network id heir
  differ : owner.2 ≠ heir.2
  built : S.keyLib.buildDescriptorPair (fragments S network owner) (fragments S network heir)
    req.timelockBlocks = .ok pair
  heir_shape : validateGivenContact req.heirContactChannel (effectiveHeirContact req) = .ok ()
  heir_sealed : sealOpt S id (effectiveHeirContact req) = .ok sealed.heir
  trusted_sealed : sealOpt S id req.trustedContact = .ok sealed.trusted
  owner_sealed : sealOpt S id req.ownerContact = .ok sealed.owner
  setup_door : ∀ s, req.sealed = some s → validateDoor s = .ok ()

/-- The row it ends in. -/
def FromXpub.row {req : CreateVaultFromXpubRequest} (c : FromXpub S req) : VaultRow :=
  newVault c.id
    { label := req.label
      network := req.network
      descriptorExternal := c.pair.1
      descriptorInternal := c.pair.2
      timelockBlocks := req.timelockBlocks
      checkinPeriodSecs := req.checkinPeriodSecs
      gracePeriodSecs := req.gracePeriodSecs
      createdAt := c.time
      ownerXpubFragmentExternal := some (fragments S c.network c.owner).1
      ownerXpubFragmentInternal := some (fragments S c.network c.owner).2
      heirXpubFragmentExternal := some (fragments S c.network c.heir).1
      heirXpubFragmentInternal := some (fragments S c.network c.heir).2
      ownerTokenHash := some (S.hashClaimToken c.ownerToken)
      ownerEmailHash := req.sealed.map SealedSetup.ownerEmailHash
      heirDerived := req.heirDerivation.isSome
      vaultKind := .standard }
    c.time ((req.sealed.bind SealedSetup.claimToken).map S.hashClaimToken)
    ⟨c.atRest, req.sealed.bind SealedSetup.heirXprvCt, req.sealed.bind SealedSetup.heirXprvNonce,
      passwordColumns req.sealed⟩
    ⟨sealedContact c.sealed.owner (channelOrEmail req.ownerContactChannel c.sealed.owner),
      sealedContact c.sealed.heir req.heirContactChannel,
      sealedContact c.sealed.trusted (channelOrEmail req.trustedContactChannel c.sealed.trusted),
      sealedText c.sealed.heirIntro, none⟩

section FromXpub

variable {good : VaultRow → Prop} (req : CreateVaultFromXpubRequest)

theorem stores_checkFromXpub :
    Stores good (fun network => validateTimelockBlocks S req.timelockBlocks = .ok () ∧
      validateContactChannel S "heir_contact_channel" req.heirContactChannel = .ok () ∧
        parseNetwork req.network = .ok network) (checkFromXpub S req) := by
  apply Stores.validated
  intro _ timelock
  apply Stores.validated
  intro _ heirChannel
  apply Stores.validated
  intro _ _
  apply Stores.validated
  intro _ _
  apply Stores.validated
  intro network known
  apply Stores.validated
  intro _ _
  exact .done ⟨timelock, heirChannel, known⟩

theorem stores_resolveHeir (network : Network) :
    Stores good (fun found => HeirKey S req network found.1 found.2.1)
      (resolveHeir S req network) := by
  unfold resolveHeir HeirKey
  cases req.heirDerivation with
  | none =>
    apply Stores.validated
    intro heir resolved
    apply Stores.skip (free_ask rfl)
    intro id
    exact .done resolved
  | some raw =>
    apply Stores.skip (free_ask rfl)
    intro id
    dsimp only
    split
    · exact .fail
    · next given =>
      apply Stores.validated
      intro xpub derived
      apply Stores.validated
      intro secret _
      exact .done ⟨given, rfl, derived⟩

theorem stores_buildPair (ownerKey heirKey : String × String) (timelockBlocks : Nat) :
    Stores good
      (fun pair => S.keyLib.buildDescriptorPair ownerKey heirKey timelockBlocks = .ok pair)
      (buildPair S ownerKey heirKey timelockBlocks) := by
  apply Stores.validated
  intro pair built
  apply Stores.validated
  intro _ _
  apply Stores.validated
  intro _ _
  exact .done built

theorem stores_sealParties (id : VaultId) :
    Stores good (fun sealed =>
      validateGivenContact req.heirContactChannel (effectiveHeirContact req) = .ok () ∧
        sealOpt S id (effectiveHeirContact req) = .ok sealed.heir ∧
          sealOpt S id req.trustedContact = .ok sealed.trusted ∧
            sealOpt S id req.ownerContact = .ok sealed.owner) (sealParties S id req) := by
  apply Stores.validated
  intro _ shape
  apply Stores.validated
  intro _ _
  apply Stores.crypto
  intro heir heirSealed
  apply Stores.crypto
  intro trusted trustedSealed
  apply Stores.validated
  intro _ _
  apply Stores.crypto
  intro _ _
  apply Stores.crypto
  intro owner ownerSealed
  exact .done ⟨shape, heirSealed, trustedSealed, ownerSealed⟩

theorem stores_sealSetup (id : VaultId) (sealed : Option SealedSetup) :
    Stores good (fun _ => ∀ s, sealed = some s → validateDoor s = .ok ())
      (sealSetup S id sealed) := by
  cases sealed with
  | none => exact .done fun s eq => nomatch eq
  | some s =>
    apply Stores.validated
    intro _ _
    apply Stores.validated
    intro _ door
    apply (Stores.of_free (free_crypto _)).mono
    rintro atRest - s ⟨⟩
    exact door

theorem stores_createVaultFromXpub :
    Stores (fun r => ∃ c : FromXpub S req, r = c.row) (fun _ => True)
      (createVaultFromXpub S req) := by
  -- the checks in their order, each leaving what it has established
  apply Stores.validated
  intro _ periods
  apply (stores_checkFromXpub S req).bind
  rintro network ⟨timelock, heirChannel, known⟩
  apply Stores.validated
  intro owner ownerKey
  apply (stores_resolveHeir S req network).bind
  rintro ⟨id, heir, secret⟩ heirKey
  dsimp only
  split
  · exact .fail
  · next differ =>
    apply (stores_buildPair S _ _ _).bind
    intro pair built
    apply Stores.skip free_now
    intro t
    apply (stores_sealParties S req id).bind
    rintro sealed ⟨shape, heirSealed, trustedSealed, ownerSealed⟩
    apply Stores.skip (free_ask rfl)
    intro ownerToken
    apply (stores_sealSetup S id req.sealed).bind
    intro atRest door
    apply Stores.skip (free_rejectConflictingSetup _ _)
    intro _
    -- the INSERT: the row is the one these checks have admitted
    apply Stores.exec
    · intro r eq
      rw [← Stmt.insertVault.inj eq]
      exact ⟨⟨network, owner, id, heir, pair, t, sealed, ownerToken, atRest, periods, timelock,
        heirChannel, known, ownerKey, heirKey, differ, built, shape, heirSealed, trustedSealed,
        ownerSealed, door⟩, rfl⟩
    · intro n
      apply (stores_holdClock id _).bind
      intro _ _
      exact .skip (free_inheritVerification _ t) fun _ => .done trivial

end FromXpub

/-! ## §4 With guardians -/

/-- A request that `create_vault_guardian` has accepted. -/
structure WithGuardians (req : CreateGuardianVaultRequest) where
  network : Network
  parties : FourParties
  id : VaultId
  pair : String × String
  time : Instant
  sealed : SealedParties
  ownerToken : Token
  heirCt : String
  heirNonce : String
  heirToken : Token
  atRest : String
  periods : validatePeriods S req.checkinPeriodSecs req.gracePeriodSecs = .ok ()
  timelock : validateTimelockBlocks S req.timelockBlocks = .ok ()
  known : parseNetwork req.network = .ok network
  owner_key : resolveParty S "owner" req.owner = .ok parties.owner
  heir_key : resolveParty S "heir" req.heir = .ok parties.heir
  guardian1_key : resolveParty S "guardian1" req.guardian1.key = .ok parties.guardian1
  guardian2_key : resolveParty S "guardian2" req.guardian2.key = .ok parties.guardian2
  differ : [parties.owner.2, parties.heir.2, parties.guardian1.2, parties.guardian2.2].Nodup
  built : S.keyLib.buildGuardianDescriptorPair (fragments S network parties.owner)
    (fragments S network parties.heir) (fragments S network parties.guardian1)
    (fragments S network parties.guardian2) req.timelockBlocks req.unlockHeight = .ok pair
  heir_sealed : sealOpt S id req.heirContact = .ok sealed.heir
  owner_sealed : sealOpt S id req.ownerContact = .ok sealed.owner

/-- The row it ends in. -/
def WithGuardians.row {req : CreateGuardianVaultRequest} (c : WithGuardians S req) : VaultRow :=
  newVault c.id
    { label := req.label
      network := req.network
      descriptorExternal := c.pair.1
      descriptorInternal := c.pair.2
      timelockBlocks := req.timelockBlocks
      checkinPeriodSecs := req.checkinPeriodSecs
      gracePeriodSecs := req.gracePeriodSecs
      createdAt := c.time
      ownerXpubFragmentExternal := some (fragments S c.network c.parties.owner).1
      ownerXpubFragmentInternal := some (fragments S c.network c.parties.owner).2
      heirXpubFragmentExternal := some (fragments S c.network c.parties.heir).1
      heirXpubFragmentInternal := some (fragments S c.network c.parties.heir).2
      ownerTokenHash := some (S.hashClaimToken c.ownerToken)
      ownerEmailHash := some req.sealed.ownerEmailHash
      heirDerived := false
      vaultKind := .guardian }
    c.time (some (S.hashClaimToken c.heirToken)) ⟨some c.atRest, some c.heirCt, some c.heirNonce,
      passwordColumns (some req.sealed)⟩
    ⟨sealedContact c.sealed.owner (channelOrEmail req.ownerContactChannel c.sealed.owner),
      sealedContact c.sealed.heir req.heirContactChannel, .none, sealedText c.sealed.heirIntro,
      none⟩

section WithGuardians

variable {good : VaultRow → Prop} (req : CreateGuardianVaultRequest)

theorem stores_checkGuardian :
    Stores good (fun network => validateTimelockBlocks S req.timelockBlocks = .ok () ∧
      parseNetwork req.network = .ok network) (checkGuardian S req) := by
  apply Stores.validated
  intro _ timelock
  apply Stores.validated
  intro _ _
  apply Stores.validated
  intro _ _
  apply Stores.validated
  intro _ _
  apply Stores.validated
  intro _ _
  apply Stores.validated
  intro network known
  apply Stores.validated
  intro _ _
  exact .done ⟨timelock, known⟩

/-- The four keys, each resolved and none like another. -/
def FourKeys (parties : FourParties) : Prop :=
  resolveParty S "owner" req.owner = .ok parties.owner ∧
    resolveParty S "heir" req.heir = .ok parties.heir ∧
      resolveParty S "guardian1" req.guardian1.key = .ok parties.guardian1 ∧
        resolveParty S "guardian2" req.guardian2.key = .ok parties.guardian2 ∧
          [parties.owner.2, parties.heir.2, parties.guardian1.2, parties.guardian2.2].Nodup

theorem stores_resolveFour : Stores good (FourKeys S req) (resolveFour S req) := by
  apply Stores.validated
  intro owner ownerKey
  apply Stores.validated
  intro heir heirKey
  apply Stores.validated
  intro guardian1 key1
  apply Stores.validated
  intro guardian2 key2
  split
  · exact .fail
  · next differ => exact .done ⟨ownerKey, heirKey, key1, key2, not_not.1 differ⟩

theorem stores_sealGuardianContacts (id : VaultId) :
    Stores good (fun sealed => sealOpt S id req.heirContact = .ok sealed.heir ∧
      sealOpt S id req.ownerContact = .ok sealed.owner) (sealGuardianContacts S id req) := by
  apply Stores.crypto
  intro heir heirSealed
  apply Stores.crypto
  intro owner ownerSealed
  apply Stores.validated
  intro _ _
  apply Stores.crypto
  intro _ _
  exact .done ⟨heirSealed, ownerSealed⟩

theorem stores_createVaultGuardian :
    Stores (fun r => ∃ c : WithGuardians S req, r = c.row) (fun _ => True)
      (createVaultGuardian S req) := by
  -- the checks in their order, each leaving what it has established
  apply Stores.validated
  intro _ periods
  apply (stores_checkGuardian S req).bind
  rintro network ⟨timelock, known⟩
  apply (stores_resolveFour S req).bind
  rintro parties ⟨ownerKey, heirKey, key1, key2, differ⟩
  apply Stores.validated
  intro pair built
  apply Stores.validated
  intro _ _
  split
  · next ct nonce token _ _ _ =>
    apply Stores.skip (free_ask rfl)
    intro id
    apply Stores.skip free_now
    intro t
    apply Stores.skip (free_rejectConflictingOwnerEmail _ _)
    intro _
    apply Stores.crypto
    intro atRest _
    apply (stores_sealGuardianContacts S req id).bind
    rintro sealed ⟨heirSealed, ownerSealed⟩
    apply Stores.skip (free_ask rfl)
    intro ownerToken
    -- the INSERT: the row is the one these checks have admitted
    apply Stores.exec
    · intro r eq
      rw [← Stmt.insertVault.inj eq]
      exact ⟨⟨network, parties, id, pair, t, sealed, ownerToken, ct, nonce, token, atRest, periods,
        timelock, known, ownerKey, heirKey, key1, key2, differ, built, heirSealed, ownerSealed⟩, rfl⟩
    · intro n
      apply Stores.skip (free_insertGuardian S id t 1 _)
      intro _
      apply Stores.skip (free_insertGuardian S id t 2 _)
      intro _
      apply (stores_holdClock id _).bind
      intro _ _
      exact .skip (free_inheritVerification _ t) fun _ => .done trivial
  · exact .fail

end WithGuardians

end GhostKey

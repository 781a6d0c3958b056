import GhostKey.Conduct.Free

/-!
# Conduct of the Owner's Handlers

Check-in, issuing and deleting, the three creations, sending, and the Lightning
poller.
-/

namespace GhostKey

open Foundation Program Prog

variable (S : Server) (q : Request) (h : Hist)

/-! ## §1 Check-in, issue, delete -/

theorem conducts_checkin (id : VaultId) :
    Conducts S q (fun _ _ => True) (checkin S id) h := by
  refine .query trivial fun row => .okOr fun r found => ?_
  subst found
  split
  · exact .fail
  · next funded =>
    split
    · exact .fail
    · next unclaimed =>
      refine .now fun t => .skip (free_oncePerPeriod S r t) fun g _ grown _ => ?_
      split
      · exact .fail
      · refine .update ⟨r, ?_, ?_, funded, ?_, rfl, rfl⟩ fun _ =>
          .skip (free_recordEvent (by decide)) fun _ _ _ _ => .done trivial
        · exact Read.here.later.mono grown.subset
        · exact ClockRead.here.mono grown.subset
        · simpa [claimIsFinal] using unclaimed

theorem conducts_checkinFromLink (id : VaultId) (token : Token) :
    Conducts S q (fun _ _ => True) (checkinFromLink S id token) h := by
  refine .query trivial fun row => .okOr fun r found => .okOr fun storedHash stored => ?_
  subst found
  split
  · exact .fail
  · split
    · exact .fail
    · split
      · exact .fail
      · next unclaimed =>
        refine .now fun tGate => ?_
        split
        · exact .fail
        · refine .now fun tPeriod => .skip (free_oncePerPeriod S r tPeriod) fun g _ grown _ =>
            .now fun t => .update
              ⟨S.hashClaimToken token, r, ?_, ClockRead.here, stored, ?_, rfl, rfl⟩ fun rows => ?_
          · exact (Read.here.later.later.mono grown.subset).later
          · simpa [claimIsFinal] using unclaimed
          · split
            · exact .fail
            · exact .skip (free_recordEvent (by decide)) fun _ _ _ _ => .done trivial

theorem conducts_issueClaim (id : VaultId) :
    Conducts S (.issueClaim id) (fun _ _ => True) (issueClaim S id) h := by
  refine .query trivial fun row => .okOr fun r _ => .ask trivial fun token => .now fun t =>
    .update ⟨rfl, ClockRead.here, token, rfl⟩ fun _ => .bind (P := fun _ _ => True) ?_
      fun _ _ _ _ => .done trivial
  exact .now fun _ => .exec (fun _ => .inl rfl) fun _ => .done trivial

theorem conducts_deleteVault (id : VaultId) :
    Conducts S q (fun _ _ => True) (deleteVault id) h := by
  refine .query trivial fun row => .okOr fun r found => ?_
  subst found
  split
  · exact .fail
  · next quiet =>
    refine .exec ⟨r, Read.here, by simpa using quiet⟩ fun rows => ?_
    split
    · exact .fail
    · exact .done trivial

/-! ## §2 Creation -/

-- what the checks compute is of no interest here, only that they are free
attribute [local irreducible] validatePeriods validateTimelockBlocks validateContactChannel
  ensureDemoSafeForNetwork parseNetwork resolveParty validateGivenContact validateIntro sealIntro
  sealOpt validateSealed validateDoor

/-- The checks of the cadence are what makes its row a new one. -/
theorem newRow {t : Instant} {g : Hist} {r : VaultRow} (token : Option Token)
    {atRest : Option String}
    (periods : validatePeriods S r.settings.checkinPeriodSecs r.settings.gracePeriodSecs = .ok ())
    (clock : ClockRead g t) (life : r.life = newLife r.settings t (token.map S.hashClaimToken))
    (kept : r.keys.claimTokenAtRest = atRest) (sealed : sealToken S r.id token = .ok atRest)
    (unscanned : r.chain = .unscanned) : NewRow S g r := by
  refine ⟨t, token, clock, life, (validatePeriods_ok S periods).1, (validatePeriods_ok S periods).2,
    ?_⟩
  cases token with
  | none =>
    cases sealed
    exact ⟨by rw [kept], by simp, unscanned⟩
  | some tok =>
    unfold sealToken at sealed
    cases done : S.sealClaimTokenAtRest r.id tok with
    | error e => simp [done, Except.map] at sealed
    | ok stored =>
      simp only [done, Except.map, Except.ok.injEq] at sealed
      rw [kept, ← sealed]
      exact ⟨rfl, fun tok' same => by cases same; exact ⟨stored, rfl, done⟩, unscanned⟩

theorem conducts_holdClock (id : VaultId) (detail : Detail) :
    Conducts S q (fun _ _ => True) (holdClock id detail) h :=
  .update rfl fun _ => .free (free_recordEvent (by decide))

theorem free_inheritVerification (r : VaultRow) (t : Instant) : Free (inheritVerification r t) := by
  unfold inheritVerification
  split
  · split
    · trivial
    · refine .bind (free_query rfl) fun verified => ?_
      split
      · exact .bind (free_exec rfl) fun _ => .bind (free_recordEvent (by decide)) fun _ =>
          trivial
      · trivial
  · trivial

theorem free_rejectConflictingOwnerEmail (hash : Hash) (ownerXpub : String) :
    Free (rejectConflictingOwnerEmail hash ownerXpub) := by
  refine .bind (free_query rfl) fun conflict => ?_
  split <;> trivial

theorem conducts_createVault (req : CreateVaultRequest) :
    Conducts S q (fun _ _ => True) (createVault S req) h := by
  refine .validated fun _ periods => .validated fun _ _ => .validated fun _ _ =>
    .validated fun _ _ => .validated fun _ _ => .validated fun _ _ => .validated fun _ _ =>
    .ask trivial fun id => .now fun t => .ask trivial fun ownerToken => .exec ?_ fun _ =>
    .bind (conducts_holdClock S q _ id []) fun _ _ _ _ => .done trivial
  exact newRow S none periods ClockRead.here.later rfl rfl rfl rfl

theorem free_resolveHeir (req : CreateVaultFromXpubRequest) (network : Network) :
    Free (resolveHeir S req network) := by
  unfold resolveHeir
  split
  · refine .bind (free_ask rfl) fun id => ?_
    dsimp only
    split
    · trivial
    · exact .bind (free_validated _ _) fun _ => .bind (free_validated _ _) fun _ => trivial
  · exact .bind (free_validated _ _) fun _ => .bind (free_ask rfl) fun _ => trivial

theorem conducts_sealSetup (id : VaultId) (sealed : Option SealedSetup) :
    Conducts S q
      (fun g atRest => h <+: g ∧ sealToken S id (sealed.bind SealedSetup.claimToken) = .ok atRest)
      (sealSetup S id sealed) h := by
  cases sealed with
  | none => exact .done ⟨List.prefix_refl h, rfl⟩
  | some s =>
    refine .validated fun _ _ => .validated fun _ _ => ?_
    rw [Option.bind_some]
    cases atRest : sealToken S id s.claimToken with
    | error e => exact .fail
    | ok stored => exact .done ⟨List.prefix_refl h, rfl⟩

theorem free_rejectConflictingSetup (sealed : Option SealedSetup) (ownerXpub : String) :
    Free (rejectConflictingSetup sealed ownerXpub) := by
  cases sealed with
  | none => trivial
  | some s => exact free_rejectConflictingOwnerEmail _ _

theorem free_checkFromXpub (req : CreateVaultFromXpubRequest) : Free (checkFromXpub S req) := by
  refine .bind (free_validated _ _) fun _ => .bind (free_validated _ _) fun _ => ?_
  refine .bind (free_validated _ _) fun _ => .bind (free_validated _ _) fun _ => ?_
  exact .bind (free_validated _ _) fun _ => .bind (free_validated _ _) fun _ => trivial

theorem free_buildPair (ownerKey heirKey : String × String) (timelockBlocks : Nat) :
    Free (buildPair S ownerKey heirKey timelockBlocks) :=
  .bind (free_validated _ _) fun _ => .bind (free_validated _ _) fun _ =>
    .bind (free_validated _ _) fun _ => trivial

theorem free_sealParties (id : VaultId) (req : CreateVaultFromXpubRequest) :
    Free (sealParties S id req) := by
  refine .bind (free_validated _ _) fun _ => .bind (free_validated _ _) fun _ => ?_
  refine .bind (free_crypto _) fun _ => .bind (free_crypto _) fun _ => ?_
  refine .bind (free_validated _ _) fun _ => .bind (free_crypto _) fun _ => ?_
  exact .bind (free_crypto _) fun _ => trivial

theorem conducts_createVaultFromXpub (req : CreateVaultFromXpubRequest) :
    Conducts S q (fun _ _ => True) (createVaultFromXpub S req) h := by
  refine .validated fun _ periods => .skip (free_checkFromXpub S req) fun g network _ _ => ?_
  refine .validated fun owner _ => .skip (free_resolveHeir S req network) fun g heir _ _ => ?_
  obtain ⟨id, heir, vaultSecretHex⟩ := heir
  dsimp only
  split
  · exact .fail
  · refine .skip (free_buildPair S _ _ _) fun g pair _ _ => .now fun t => ?_
    refine .skip (free_sealParties S id req) fun g₀ sealed grown₀ _ => ?_
    refine .ask trivial fun ownerToken => ?_
    refine .bind (conducts_sealSetup S q _ id req.sealed) fun g₁ atRest grown₁ done => ?_
    refine .skip (free_rejectConflictingSetup _ _) fun g₂ _ grown₂ _ => ?_
    refine .exec ?_ fun _ => .bind (conducts_holdClock S q _ id _) fun g₃ _ _ _ => ?_
    · have clock := ClockRead.mono grown₀.subset (ClockRead.here (t := t))
      exact newRow S (req.sealed.bind SealedSetup.claimToken) periods
        (clock.later.mono (grown₁.trans grown₂).subset) rfl rfl done.2 rfl
    · exact .skip (free_inheritVerification _ t) fun _ verified _ _ => .done trivial

theorem free_insertGuardian (id : VaultId) (t : Instant) (slot : Nat) (g : GuardianParty) :
    Free (insertGuardian S id t slot g) :=
  .bind (free_crypto _) fun _ => .bind (free_crypto _) fun _ =>
    .bind (free_exec rfl) fun _ => trivial

theorem free_checkGuardian (req : CreateGuardianVaultRequest) : Free (checkGuardian S req) := by
  refine .bind (free_validated _ _) fun _ => .bind (free_validated _ _) fun _ => ?_
  refine .bind (free_validated _ _) fun _ => .bind (free_validated _ _) fun _ => ?_
  refine .bind (free_validated _ _) fun _ => .bind (free_validated _ _) fun _ => ?_
  exact .bind (free_validated _ _) fun _ => trivial

theorem free_resolveFour (req : CreateGuardianVaultRequest) : Free (resolveFour S req) := by
  refine .bind (free_validated _ _) fun _ => .bind (free_validated _ _) fun _ => ?_
  refine .bind (free_validated _ _) fun _ => .bind (free_validated _ _) fun _ => ?_
  split <;> trivial

theorem free_sealGuardianContacts (id : VaultId) (req : CreateGuardianVaultRequest) :
    Free (sealGuardianContacts S id req) := by
  refine .bind (free_crypto _) fun _ => .bind (free_crypto _) fun _ => ?_
  exact .bind (free_validated _ _) fun _ => .bind (free_crypto _) fun _ => trivial

theorem conducts_createVaultGuardian (req : CreateGuardianVaultRequest) :
    Conducts S q (fun _ _ => True) (createVaultGuardian S req) h := by
  refine .validated fun _ periods => .skip (free_checkGuardian S req) fun g network _ _ => ?_
  refine .skip (free_resolveFour S req) fun g parties _ _ => ?_
  refine .validated fun pair _ => .validated fun _ _ => ?_
  split
  · next ct nonce token _ _ _ =>
    refine .ask trivial fun id => .now fun t => ?_
    refine .skip (free_rejectConflictingOwnerEmail _ _) fun g₀ _ grown₀ _ => ?_
    refine .crypto fun atRest sealed => ?_
    refine .skip (free_sealGuardianContacts S id req) fun g₁ contacts grown₁ _ => ?_
    refine .ask trivial fun ownerToken => .exec ?_ fun _ => ?_
    · have clock := ClockRead.mono grown₀.subset (ClockRead.here (t := t))
      refine newRow S (some token) periods (clock.mono grown₁.subset).later rfl rfl ?_ rfl
      simp [sealToken, sealed, newVault, Except.map]
    · refine .skip (free_insertGuardian S id t 1 _) fun _ _ _ _ => ?_
      refine .skip (free_insertGuardian S id t 2 _) fun _ _ _ _ => ?_
      refine .bind (conducts_holdClock S q _ id _) fun _ _ _ _ => ?_
      exact .skip (free_inheritVerification _ t) fun _ verified _ _ => .done trivial
  · exact .fail

/-! ## §3 Sending -/

/-- A send broadcasts what it signed itself; no claim token is looked up. -/
theorem conducts_sendPlan (config : VaultConfig) (urls : List String) (key dest : String)
    (amountSat satPerVb : Option Nat) (owner : q.spends = false) (idle : Idle h) :
    Conducts S q (fun _ _ => True) (sendPlan S config urls key dest amountSat satPerVb) h := by
  unfold sendPlan
  split
  · exact .done trivial
  · refine .skip (free_ask rfl) fun g answer _ since => ?_
    have still := since.idle idle
    split
    · exact .done trivial
    · split
      · exact .done trivial
      · split
        · exact .done trivial
        · split
          · exact .done trivial
          · split
            · exact .done trivial
            · refine .ask ⟨still.1, fun v loaded => absurd loaded (still.2 v), by simp [owner]⟩
                fun sent => ?_
              split
              · exact .done trivial
              · exact .done trivial

theorem conducts_recordFullDrain (id : VaultId) :
    Conducts S q (fun _ _ => True) (recordFullDrain id) h := by
  refine .update trivial fun rows => ?_
  split
  · exact .free (free_recordEvent (by decide))
  · exact .done trivial

theorem conducts_ownerSend (id : VaultId) (destination : String) (amountSat satPerVb : Option Nat)
    (ownerXprv : String) (owner : q.spends = false) (idle : Idle h) :
    Conducts S q (fun _ _ => True) (ownerSend S id destination amountSat satPerVb ownerXprv) h := by
  refine .query trivial fun row => .okOr fun r _ => ?_
  have read := (FreeSince.snoc (r := .ok row) (a := .query (.vault id)) rfl).idle idle
  refine .skip (free_storedNetwork r) fun g₁ network _ since₁ => ?_
  refine .skip (free_parseDestination S _ _ _) fun g₂ dest _ since₂ => ?_
  split
  · exact .fail
  · refine .skip (free_parseXpriv S _ _ _) fun g₃ key _ since₃ => ?_
    refine .validated fun _ _ => .validated fun urls _ => ?_
    have still := ((since₁.trans since₂).trans since₃).idle read
    refine .bind (conducts_sendPlan S q g₃ _ _ _ _ _ _ owner still) fun g₄ sent _ _ => ?_
    split
    · exact .fail
    · refine .skip (free_recordEvent (by decide)) fun g₅ _ _ _ => ?_
      have mail : ∀ (g : Hist) (a : OwnerSendResponse), Conducts S q (fun _ _ => True) (do
          logged (enqueueOwnerEmail S id .ownerSend)
          pure a : Prog OwnerSendResponse) g := fun g a =>
        .skip (free_logged (free_enqueueOwnerEmail S id (by decide))) fun _ _ _ _ => .done trivial
      dsimp only
      split
      · exact .bind (conducts_recordFullDrain S q g₅ id) fun g₆ _ _ _ => mail g₆ _
      · exact mail g₅ _

/-! ## §4 The poller -/

theorem conducts_markPaidAndCheckin (paymentHash : String) :
    Conducts S q (fun _ _ => True) (markPaidAndCheckin paymentHash) h := by
  have events : ∀ (id : VaultId) (siblings : List VaultId),
      Free (Program.forEach siblings fun sibling =>
        recordEvent sibling .checkin
          [("source", .str "lightning_group"), ("payment_hash", .str paymentHash),
            ("paid_vault_id", .str id)]) := fun id siblings =>
    .forEach (fun _ => free_recordEvent (by decide)) siblings
  refine .now fun t => .payCheckin ClockRead.here fun outcome => ?_
  split
  · exact .done trivial
  · exact .fail
  · refine .free ?_
    dsimp only
    split
    · exact .bind (free_recordEvent (by decide)) fun _ => events _ _
    · exact events _ _

theorem conducts_markPanicPaid (paymentHash : String) :
    Conducts S q (fun _ _ => True) (markPanicPaid S paymentHash) h := by
  refine .now fun t => .payPanic ClockRead.here fun outcome => ?_
  split
  · exact .done trivial
  · exact .fail
  · split
    · exact .done trivial
    · exact .free (.bind (free_recordEvent (by decide)) fun _ =>
        free_logged (free_notifyTrustedContactOfPanic S _))

theorem conducts_pollInvoices (t : Instant) : ∀ (rows : List InvoiceRow) (h : Hist),
    Conducts S q (fun _ _ => True) (pollInvoices S t rows) h
  | [], _ => .done trivial
  | i :: rest, h => by
    have more := conducts_pollInvoices t rest
    refine .exec trivial fun _ => .ask trivial fun status => ?_
    split
    · split
      · exact .logged (conducts_markPanicPaid S q _ _) fun g _ => more g
      · exact .logged (conducts_markPaidAndCheckin S q _ _) fun g _ => more g
    · exact .skip (free_logged (free_exec rfl)) fun g _ _ _ => more g
    · exact .skip (free_logged (free_exec rfl)) fun g _ _ _ => more g
    · exact more _
    · exact .done trivial
    · exact more _

theorem conducts_pollerTick : Conducts S q (fun _ _ => True) (pollerTick S) h := by
  unfold pollerTick
  split
  · exact .done trivial
  · exact .now fun t => .exec trivial fun _ => .query trivial fun rows =>
      conducts_pollInvoices S q t rows _

end GhostKey

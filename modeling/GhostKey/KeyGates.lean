import GhostKey.Alone
import GhostKey.Deployment
import GhostKey.Scans

/-!
# The Gates in Front of the Keys

Three endpoints hand out key material on a claim token: the heir's sealed key, a
guardian's sealed key, and what the heir's key is derived from. All three refuse a
used token and let the challenge window run out. Only the first also asks the chain
whether the timelock has matured, so the other two answer while it refuses.

Main results:
- `atOnce_unlockEstimateWithCache`: the estimate a moment gives, as `chainEstimate`
  computes it.
- `heirGate_refuses_iff`, `getSealedGuardianXprv_refuses_iff`,
  `getHeirDerivationParams_refuses_iff`: when each endpoint refuses.
- `gatesAgree_iff`: when the first refusing makes the other two refuse.
-/

namespace GhostKey

open Foundation Program Prog

/-! ## §1 What a moment says -/

section Blocking

variable {α β : Type} (wrap : String → BlockingErr) (f : α → Except BlockingErr β)

@[simp] theorem blocking_ok_bind (a : α) : (blocking wrap (.ok a) >>= f) = f a := rfl

@[simp] theorem blocking_error_bind (e : String) :
    (blocking wrap (.error e) >>= f) = .error (wrap e) := rfl

end Blocking

section Estimate

variable (S : Server) (o : Oracle) (w : World) (r : VaultRow)

/-- What a scan of the vault comes to with the explorer's answer. -/
def scanEstimate (network : Network) : Except BlockingErr UnlockEstimate := do
  let urls ← blocking .esplora (S.esploraUrls network)
  let config := { vaultConfig r network .watchonly with label := none }
  blocking .vault (S.wallet.fromConfig config)
  let wallet ← blocking .vault (S.wallet.buildWatchOnly config)
  let scan ← o.answer (.fullScan urls config.descriptorExternal config.descriptorInternal)
  let _ ← blocking (fun e => .vault ("apply_update: " ++ e)) (S.wallet.applyUpdate wallet scan)
  pure (scan.estimate config.timelockBlocks)

/-- The estimate of the vault at this moment: the cached one while it is fresh, else a
scan, unless the explorer is being left alone. -/
def chainEstimate : Except BlockingErr UnlockEstimate :=
  match cachedEstimate r w.clock with
  | some est => .ok est
  | none =>
    match parseNetwork r.settings.network with
    | .error e => .error (.vault ("unknown vault network: " ++ e))
    | .ok network =>
      match w.backoff.remainingSecs w.clock with
      | some secs => .error (.backingOff secs)
      | none => scanEstimate S o r network

/-- The chain can be read, and says that the timelock has matured. -/
def Matured : Prop :=
  ∃ est, chainEstimate S o w r = .ok est ∧
    (UnlockEstimateView.fromEstimate est w.clock).matured = true

theorem atOnce_scanUnlockEstimate (network : Network) :
    atOnce (scanUnlockEstimate S r network) o w = (.ok (scanEstimate S o r network), w) := by
  -- each stage by its result; none of them writes
  unfold scanUnlockEstimate scanEstimate
  split
  · next e failed =>
    rw [failed]
    rfl
  · next urls listed =>
    rw [listed, blocking_ok_bind]
    dsimp only
    split
    · next e failed =>
      rw [failed]
      rfl
    · next known =>
      rw [known, blocking_ok_bind]
      split
      · next e failed =>
        rw [failed]
        rfl
      · next wallet built =>
        rw [built, blocking_ok_bind, bind_eq, atOnce_ask_bind]
        dsimp only [External.effect]
        split
        · next e failed =>
          rw [failed]
          rfl
        · next scan answered =>
          rw [answered]
          show atOnce _ o w = (.ok (blocking _ (S.wallet.applyUpdate wallet scan) >>= _), w)
          split
          · next e failed =>
            rw [failed]
            rfl
          · next applied done =>
            rw [done]
            rfl

theorem atOnce_unlockEstimateWithCache :
    (atOnce (unlockEstimateWithCache S r w.clock) o w).1 = .ok (chainEstimate S o w r) := by
  unfold unlockEstimateWithCache chainEstimate
  cases cachedEstimate r w.clock with
  | some est => rfl
  | none =>
    cases parseNetwork r.settings.network with
    | error e => rfl
    | ok network =>
      dsimp only
      rw [bind_eq, atOnce_perform_bind]
      dsimp only [Action.perform]
      cases w.backoff.remainingSecs w.clock with
      | some secs => rfl
      | none =>
        dsimp only
        rw [bind_eq, atOnce_ok_bind (atOnce_scanUnlockEstimate S o w r network)]
        cases scanEstimate S o r network with
        | error e =>
          dsimp only
          split <;> rfl
        | ok est =>
          dsimp only
          rw [bind_eq, atOnce_perform_bind, bind_eq, atOnce_logged_bind]
          rfl

end Estimate

/-! ## §2 The steps of the gates -/

/-- The token is that of the heir of this vault. -/
def HeirToken (S : Server) (w : World) (token : Token) (r : VaultRow) : Prop :=
  (Query.vaultByClaimToken (S.hashClaimToken token)).eval w.db = .ok (some r)

/-- The token is that of this guardian of this vault. -/
def GuardianToken (S : Server) (w : World) (token : Token) (g : GuardianRow) (r : VaultRow) : Prop :=
  (Query.guardianByClaimToken (S.hashClaimToken token)).eval w.db = .ok (some (g, r))

/-- The challenge window has not been opened or has not run out. -/
def WindowPending (S : Server) (r : VaultRow) (t : Instant) : Prop :=
  S.challengeWindowSecs ≠ 0 ∧ ∀ opened, r.life.claimOpenedAt = some opened → t < opened + S.window

/-- The token has been consumed, or the window is in its way. -/
def Closed (S : Server) (r : VaultRow) (t : Instant) : Prop :=
  r.life.claimTokenUsedAt ≠ none ∨ WindowPending S r t

/-- There is nothing to derive the heir's key from. -/
def Underivable (S : Server) (r : VaultRow) : Prop :=
  r.settings.heirDerived = false ∨
    ¬ ∃ contact email secret, parseHeirContact S r.id r.contacts.heir = .ok (some contact) ∧
      contact.contact = some email ∧ isBlank email = false ∧ S.vaultSecretHex r.id = .ok secret

section Steps

variable {S : Server} {o : Oracle} {w : World} {token : Token} {r : VaultRow} {g : GuardianRow}

theorem HeirToken.row (valid : HeirToken S w token r) :
    w.vault? r.id = some r ∧ r.life.claimTokenHash = some (S.hashClaimToken token) := by
  have found : w.db.vaults.rows.find? (fun r => r.life.claimTokenHash =
      some (S.hashClaimToken token)) = some r := Except.ok.inj valid
  refine ⟨Query.vault?_of_rows valid (Option.mem_toList.2 rfl), ?_⟩
  simpa using List.find?_some found

theorem GuardianToken.row (valid : GuardianToken S w token g r) :
    w.vault? r.id = some r ∧ g.claimTokenHash = some (S.hashClaimToken token) := by
  refine ⟨Query.vault?_of_rows valid (Option.mem_toList.2 rfl), ?_⟩
  have first := Except.ok.inj valid
  obtain ⟨g', -, hit⟩ := List.mem_filterMap.1 (List.mem_of_mem_head? (Option.mem_def.2 first))
  split at hit
  · next stored =>
    obtain ⟨r', -, same⟩ := Option.map_eq_some_iff.1 hit
    cases same
    exact stored
  · cases hit

/-- A fresh token of the heir is looked up and let through. -/
theorem atOnce_unusedHeirRow (answers : o.dbFails = false) (valid : HeirToken S w token r)
    (unused : r.life.claimTokenUsedAt = none) :
    atOnce (unusedHeirRow S token) o w = (.ok r, w) := by
  have hash := valid.row.2
  have found : atOnce (heirRow S token) o w = (.ok r, w) := by
    rw [heirRow, bind_eq, atOnce_query_bind answers valid]
    simp [okOr, hash, Server.claimTokenMatches]
  rw [unusedHeirRow, bind_eq, atOnce_ok_bind found]
  simp [unused]

/-- A used one is not. -/
theorem refuses_unusedHeirRow (answers : o.dbFails = false) (valid : HeirToken S w token r)
    (used : r.life.claimTokenUsedAt ≠ none) : Refuses (unusedHeirRow S token) o w := by
  have hash := valid.row.2
  refine ⟨tokenUsed, ?_⟩
  have found : atOnce (heirRow S token) o w = (.ok r, w) := by
    rw [heirRow, bind_eq, atOnce_query_bind answers valid]
    simp [okOr, hash, Server.claimTokenMatches]
  rw [unusedHeirRow, bind_eq, atOnce_ok_bind found]
  simp [Option.isSome_iff_ne_none.2 used]

/-- Past the window the check lets the request through and changes nothing. -/
theorem atOnce_requireWindowElapsed (answers : o.dbFails = false) (row : w.vault? r.id = some r)
    (passed : ¬ WindowPending S r w.clock) :
    atOnce (requireWindowElapsed S r.id) o w = (.ok (), w) := by
  have through : atOnce (ensureClaimChallenge S r.id) o w = (.ok none, w) := by
    unfold ensureClaimChallenge
    split
    · rfl
    · next windowed =>
      obtain ⟨opened, stamped, past⟩ : ∃ opened, r.life.claimOpenedAt = some opened ∧
          ¬ w.clock < opened + S.window := by
        simpa [WindowPending, windowed] using passed
      rw [bind_eq, atOnce_now_bind, bind_eq, atOnce_vault_bind answers row]
      simp [okOr, stamped, past]
  rw [requireWindowElapsed, bind_eq, atOnce_ok_bind through]
  rfl

/-- Before that it refuses; the first request of a cycle opens the window. -/
theorem refuses_requireWindowElapsed (answers : o.dbFails = false) (row : w.vault? r.id = some r)
    (pending : WindowPending S r w.clock) : Refuses (requireWindowElapsed S r.id) o w := by
  obtain ⟨windowed, open_⟩ := pending
  have held : ∃ available w', atOnce (ensureClaimChallenge S r.id) o w = (.ok (some available), w') := by
    unfold ensureClaimChallenge
    rw [if_neg windowed, bind_eq, atOnce_now_bind, bind_eq,
      atOnce_vault_bind answers row]
    dsimp only [okOr]
    rw [bind_eq]
    dsimp only [Program.bind]
    split
    · next opened stamped => exact ⟨opened + S.window, w, by simp [open_ opened stamped]⟩
    · next unstamped =>
      have guard : (VaultUpdate.stampClaimOpened w.clock).guard r = true := by
        simp [VaultUpdate.guard, unstamped]
      have one : w.db.affected r.id (.stampClaimOpened w.clock) = 1 :=
        (Db.updateVault_affected _ _ _).2 ⟨r, row, guard⟩
      have row' := World.vault?_update_self row guard
      rw [bind_eq, atOnce_update_bind answers, one]
      show ∃ available w', atOnce ((recordEvent _ _ _).bind _) o _ = (.ok (some available), w')
      rw [atOnce_recordEvent_bind answers row', bind_eq, atOnce_logged_bind]
      exact ⟨_, _, rfl⟩
  obtain ⟨available, w', came⟩ := held
  refine ⟨safetyWait S available, ?_⟩
  rw [requireWindowElapsed, bind_eq, atOnce_ok_bind came]
  rfl

/-- The on-chain check refuses unless the chain says that the timelock has matured. -/
theorem requireMatured_refuses_iff :
    Refuses (requireMatured S r) o w ↔ ¬ Matured S o w r := by
  have came : atOnce (unlockEstimateWithCache S r w.clock) o w =
      (.ok (chainEstimate S o w r), (atOnce (unlockEstimateWithCache S r w.clock) o w).2) :=
    Prod.ext (atOnce_unlockEstimateWithCache S o w r) rfl
  unfold Refuses Matured
  rw [requireMatured, bind_eq, atOnce_now_bind, bind_eq, atOnce_ok_bind came]
  cases estimate : chainEstimate S o w r with
  | error e => simp
  | ok est =>
    by_cases matured : (UnlockEstimateView.fromEstimate est w.clock).matured = true <;>
      simp [matured]

end Steps

/-! ## §3 The three endpoints -/

section Endpoints

variable (S : Server)

/-- What `get_sealed_heir_xprv` asks before it looks for the sealed key. -/
def heirGate (token : Token) : Prog VaultRow := do
  let r ← unusedHeirRow S token
  requireWindowElapsed S r.id
  requireMatured S r
  pure r

/-- What it hands out past its gate. -/
def sealedHeirKey (r : VaultRow) : Prog SealedHeirView := do
  let ct ← okOr (.validation
    "this vault was not created with a password and has no sealed heir key") r.keys.heirXprvCt
  let nonce ← okOr (.validation "vault has heir_xprv_sealed_ct without nonce") r.keys.heirXprvNonce
  pure ⟨r.id, r.settings.network, r.settings.timelockBlocks, ct, nonce,
    r.settings.descriptorExternal, r.settings.descriptorInternal⟩

/-- The endpoint is its gate and then the key. -/
theorem getSealedHeirXprv_eq (token : Token) :
    getSealedHeirXprv S token = (heirGate S token).bind sealedHeirKey := by
  unfold getSealedHeirXprv heirGate
  simp only [bind_eq, bind_assoc, pure_eq, done_bind]
  rfl

/-- When the heir's endpoint refuses at its gate, no guardian's token of the vault and
no derivation gets an answer. -/
def GatesAgree (o : Oracle) (w : World) (token : Token) (r : VaultRow) : Prop :=
  Refuses (heirGate S token) o w →
    (∀ other g, GuardianToken S w other g r → Refuses (getSealedGuardianXprv S other) o w) ∧
      Refuses (getHeirDerivationParams S token) o w

end Endpoints

section Refusals

variable {S : Server} {o : Oracle} {w : World} {token other : Token} {r : VaultRow}
  {g : GuardianRow}

/-- The heir's gate asks for an open window and a matured timelock. -/
theorem heirGate_refuses_iff (answers : o.dbFails = false) (valid : HeirToken S w token r) :
    Refuses (heirGate S token) o w ↔ Closed S r w.clock ∨ ¬ Matured S o w r := by
  by_cases used : r.life.claimTokenUsedAt = none
  swap
  · have closed : Closed S r w.clock := .inl used
    simp only [closed, true_or, iff_true]
    exact (refuses_unusedHeirRow answers valid used).bind _
  -- the token is good; then the window, then the timelock
  have looked := atOnce_unusedHeirRow answers valid used
  by_cases pending : WindowPending S r w.clock
  · have closed : Closed S r w.clock := .inr pending
    simp only [closed, true_or, iff_true]
    unfold Refuses heirGate
    rw [bind_eq, atOnce_ok_bind looked]
    exact (refuses_requireWindowElapsed answers valid.row.1 pending).bind _
  · have passed := atOnce_requireWindowElapsed answers valid.row.1 pending
    have through : atOnce (heirGate S token) o w =
        atOnce ((requireMatured S r).bind fun _ => .done r) o w := by
      rw [heirGate, bind_eq, atOnce_ok_bind looked, bind_eq, atOnce_ok_bind passed]
      rfl
    have opened : ¬ Closed S r w.clock := by simp [Closed, used, pending]
    rw [← requireMatured_refuses_iff]
    simp only [opened, false_or]
    constructor
    · intro refuses
      by_contra accepts
      obtain ⟨u, came⟩ := not_refuses_iff.1 accepts
      obtain ⟨e, refused⟩ := refuses
      have passes : atOnce (requireMatured S r) o w =
          (.ok u, (atOnce (requireMatured S r) o w).2) := Prod.ext came rfl
      rw [through, atOnce_ok_bind passes] at refused
      cases refused
    · intro refuses
      unfold Refuses
      rw [through]
      exact refuses.bind _

/-- A guardian's endpoint asks for an open window only. -/
theorem getSealedGuardianXprv_refuses_iff (answers : o.dbFails = false)
    (valid : GuardianToken S w other g r) :
    Refuses (getSealedGuardianXprv S other) o w ↔ Closed S r w.clock := by
  obtain ⟨row, hash⟩ := valid.row
  -- the token is good, so the endpoint comes down to its two checks
  have looked : ∀ e, Refuses (getSealedGuardianXprv S other) o w ↔
      Refuses (if r.life.claimTokenUsedAt.isSome then .fail e else
        (requireWindowElapsed S r.id).bind fun _ => .done ()) o w := by
    intro e
    unfold Refuses getSealedGuardianXprv
    rw [bind_eq, atOnce_query_bind answers valid]
    simp only [okOr, hash, Server.claimTokenMatches, bind_eq, done_bind, decide_true, Bool.not_true,
      Bool.false_eq_true, if_false]
    split
    · simp
    · unfold atOnce
      rw [atOnce_bind, atOnce_bind]
      split <;> simp
  rw [looked tokenUsed]
  by_cases used : r.life.claimTokenUsedAt = none
  swap
  · rw [if_pos (Option.isSome_iff_ne_none.2 used)]
    have closed : Closed S r w.clock := .inl used
    simp only [closed, iff_true]
    exact ⟨tokenUsed, rfl⟩
  rw [if_neg (by simp [used])]
  by_cases pending : WindowPending S r w.clock
  · have closed : Closed S r w.clock := .inr pending
    simp only [closed, iff_true]
    exact (refuses_requireWindowElapsed answers row pending).bind _
  · have opened : ¬ Closed S r w.clock := by simp [Closed, used, pending]
    simp only [opened, iff_false]
    apply not_refuses_iff.2
    rw [atOnce_ok_bind (atOnce_requireWindowElapsed answers row pending)]
    exact ⟨(), rfl⟩

/-- What the derivation hands out past its window check. -/
def derivationParams (S : Server) (r : VaultRow) : Prog HeirDerivationParamsView := do
  let parsed ← crypto (parseHeirContact S r.id r.contacts.heir)
  let contact ← okOr (.validation
    "heir_derived=1 but no sealed heir contact on file (server inconsistency)") parsed
  let heirEmail ← okOr (.validation
    "heir_derived=1 but the sealed heir contact has no email")
    (contact.contact.filter fun email => !isBlank email)
  let vaultSecretHex ← validated "vault_secret derivation: " (S.vaultSecretHex r.id)
  pure ⟨r.id, r.settings.network, r.settings.timelockBlocks, vaultSecretHex, heirEmail,
    r.settings.descriptorExternal, r.settings.descriptorInternal⟩

/-- It needs a readable contact with an address, and the vault's secret. -/
theorem derivationParams_refuses_iff (derived : r.settings.heirDerived = true) :
    Refuses (derivationParams S r) o w ↔ Underivable S r := by
  unfold Underivable Refuses derivationParams
  simp only [derived, Bool.true_eq_false, false_or]
  cases parseHeirContact S r.id r.contacts.heir with
  | error e => simp [crypto]
  | ok parsed =>
    cases parsed with
    | none => simp [crypto, okOr]
    | some contact =>
      cases given : contact.contact with
      | none => simp [crypto, okOr, given]
      | some email =>
        cases blank : isBlank email with
        | true => simp [crypto, okOr, given, Option.filter, blank]
        | false =>
          cases secret : S.vaultSecretHex r.id with
          | error e => simp [crypto, okOr, given, Option.filter, blank, validated]
          | ok hex => simp [crypto, okOr, given, Option.filter, blank, validated]

/-- The derivation asks for an open window, and for something to derive from. -/
theorem getHeirDerivationParams_refuses_iff (answers : o.dbFails = false)
    (valid : HeirToken S w token r) :
    Refuses (getHeirDerivationParams S token) o w ↔ Closed S r w.clock ∨ Underivable S r := by
  by_cases used : r.life.claimTokenUsedAt = none
  swap
  · have closed : Closed S r w.clock := .inl used
    simp only [closed, true_or, iff_true]
    exact (refuses_unusedHeirRow answers valid used).bind _
  -- the token is good; what is left is the vault's kind and the window
  have looked := atOnce_unusedHeirRow answers valid used
  have after : atOnce (getHeirDerivationParams S token) o w =
      atOnce (if !r.settings.heirDerived then
        .fail (.validation
          "this vault was not created with heir_derivation; the heir has their own xpub")
        else (requireWindowElapsed S r.id).bind fun _ => derivationParams S r) o w := by
    rw [getHeirDerivationParams, bind_eq, atOnce_ok_bind looked]
    rfl
  cases derived : r.settings.heirDerived with
  | false =>
    have underivable : Underivable S r := .inl derived
    simp only [underivable, or_true, iff_true]
    unfold Refuses
    rw [after, derived]
    exact ⟨_, rfl⟩
  | true =>
    rw [derived] at after
    simp only [Bool.not_true, Bool.false_eq_true, if_false] at after
    unfold Refuses at *
    rw [after]
    by_cases pending : WindowPending S r w.clock
    · have closed : Closed S r w.clock := .inr pending
      simp only [closed, true_or, iff_true]
      exact (refuses_requireWindowElapsed answers valid.row.1 pending).bind _
    · have opened : ¬ Closed S r w.clock := by simp [Closed, used, pending]
      rw [atOnce_ok_bind (atOnce_requireWindowElapsed answers valid.row.1 pending)]
      simp only [opened, false_or]
      exact derivationParams_refuses_iff derived

/-- A database that does not answer refuses everyone. -/
theorem refuses_of_dbFails (fails : o.dbFails = true) (token : Token) :
    Refuses (getSealedGuardianXprv S token) o w ∧ Refuses (getHeirDerivationParams S token) o w :=
  ⟨refuses_query_bind fails _, ((refuses_query_bind fails _).bind _).bind _⟩

/-- The three endpoints agree at a moment exactly when the window or the used mark keeps
everyone out, or the timelock has matured, or there is no one else to answer. -/
theorem gatesAgree_iff (valid : HeirToken S w token r) :
    GatesAgree S o w token r ↔
      o.dbFails = true ∨ Closed S r w.clock ∨ Matured S o w r ∨
        ((∀ other g, ¬ GuardianToken S w other g r) ∧ Underivable S r) := by
  unfold GatesAgree
  cases answers : o.dbFails with
  | true =>
    simp only [true_or, iff_true]
    intro _
    exact ⟨fun other g _ => (refuses_of_dbFails answers other).1,
      (refuses_of_dbFails answers token).2⟩
  | false =>
    rw [heirGate_refuses_iff answers valid, getHeirDerivationParams_refuses_iff answers valid]
    simp only [Bool.false_eq_true, false_or]
    -- a closed window refuses everyone; in an open one the timelock decides alone
    by_cases closed : Closed S r w.clock
    · have guardians : ∀ other g, GuardianToken S w other g r →
          Refuses (getSealedGuardianXprv S other) o w := fun other g theirs =>
        (getSealedGuardianXprv_refuses_iff answers theirs).2 closed
      simp only [closed, true_or, true_implies, iff_true]
      exact ⟨guardians, trivial⟩
    · have guardians : (∀ other g, GuardianToken S w other g r →
          Refuses (getSealedGuardianXprv S other) o w) ↔
            ∀ other g, ¬ GuardianToken S w other g r := by
        apply forall₂_congr
        intro other g
        apply imp_congr_right
        intro theirs
        rw [getSealedGuardianXprv_refuses_iff answers theirs]
        exact iff_false_intro closed
      simp only [closed, false_or, guardians]
      by_cases matured : Matured S o w r <;> simp [matured]

end Refusals

/-! ## §4 A guardian served while the heir waits -/

section Guarded

open Deployment

def guardianParty (name : String) : GuardianParty :=
  ⟨⟨name, some "f"⟩, "ct", "nonce", name, none, none⟩

/-- A vault with two guardians, its heir's key sealed under the token `sealed`. -/
def guarded : CreateGuardianVaultRequest where
  label := none
  network := "bitcoin"
  owner := ⟨"owner", some "f"⟩
  heir := ⟨"heir", some "f"⟩
  guardian1 := guardianParty "first"
  guardian2 := guardianParty "second"
  timelockBlocks := 144
  unlockHeight := none
  checkinPeriodSecs := 3600
  gracePeriodSecs := 60
  ownerContact := none
  ownerContactChannel := none
  heirContact := none
  heirContactChannel := none
  sealed :=
    { passwordSalt := "salt"
      passwordKdfMemKib := 1024
      passwordKdfIters := 1
      ownerXprvCt := "owner-ct"
      ownerXprvNonce := "owner-nonce"
      ownerTokenCt := "token-ct"
      ownerTokenNonce := "token-nonce"
      heirXprvCt := some "ct"
      heirXprvNonce := some "nonce"
      ownerEmailHash := .ofList (List.replicate 64 '0')
      claimToken := some "sealed" }
  fromName := none
  heirNote := none

/-- The vault of `guarded`, a day after its heir first asked for the key. -/
def askedOnce : List (Move Oracle Drift Request) :=
  [.start (.createVaultGuardian guarded)] ++ steps 0 11 (oracle "v" []) ++
    [.start (.sealedHeir "sealed")] ++ steps 1 8 (oracle "" []) ++ wait 86400

/-- An output of the vault one block deep. -/
def youngCoin : Utxo := ⟨"coin", 5, some 899, true⟩

/-- Whether the two tokens are the heir's and a guardian's of one vault. -/
def sameVault (S : Server) (w : World) (heir guardian : Token) : Bool :=
  match (Query.vaultByClaimToken (S.hashClaimToken heir)).eval w.db,
    (Query.guardianByClaimToken (S.hashClaimToken guardian)).eval w.db with
  | .ok (some r), .ok (some (_, r')) => r = r'
  | _, _ => false

theorem tokens_of_sameVault {S : Server} {w : World} {heir guardian : Token}
    (same : sameVault S w heir guardian = true) :
    ∃ r g, HeirToken S w heir r ∧ GuardianToken S w guardian g r := by
  unfold sameVault at same
  split at same
  · next r g r' his theirs =>
    rw [decide_eq_true_eq] at same
    subst same
    exact ⟨r, g, his, theirs⟩
  · cases same

/-- While the timelock is unmatured a guardian's key goes out. -/
theorem not_gatesAgree :
    ¬ ∀ (S : Server) (t₀ : Instant) (tr : Trace) (c : Config Action Action.Response ApiError Reply
        World Request) (o : Oracle) (token : Token) (r : VaultRow), S.Lawful →
      Run (server S) (System.boot (World.start t₀)) tr c → HeirToken S c.world token r →
        GatesAgree S o c.world token r := by
  intro agree
  obtain ⟨tr, c, run, check⟩ := reaches_of_play (host 86400) askedOnce
    (fun w => sameVault (host 86400) w "sealed" "first" &&
      !(atOnce (heirGate (host 86400) "sealed") (oracle "" [youngCoin]) w).1.isOk &&
      (atOnce (getSealedGuardianXprv (host 86400) "first") (oracle "" [youngCoin]) w).1.isOk)
    (by decide +kernel)
  simp only [Bool.and_eq_true, Bool.not_eq_true'] at check
  obtain ⟨⟨same, refused⟩, served⟩ := check
  obtain ⟨r, g, his, theirs⟩ := tokens_of_sameVault same
  have refuses : Refuses (heirGate (host 86400) "sealed") (oracle "" [youngCoin]) c.world := by
    unfold Refuses
    cases answer : (atOnce (heirGate (host 86400) "sealed") (oracle "" [youngCoin]) c.world).1 with
    | error e => exact ⟨e, rfl⟩
    | ok r =>
      rw [answer] at refused
      cases refused
  obtain ⟨e, failed⟩ :=
    (agree _ 0 tr c _ "sealed" r (lawful 86400) run his refuses).1 "first" g theirs
  rw [failed] at served
  cases served

/-- Once it has matured they agree. -/
theorem gatesAgree_iff_guarded :
    ∃ w r g, HeirToken (host 86400) w "sealed" r ∧ GuardianToken (host 86400) w "first" g r ∧
      GatesAgree (host 86400) (oracle "" [coin]) w "sealed" r := by
  obtain ⟨tr, c, run, check⟩ := reaches_of_play (host 86400) askedOnce
    (fun w => sameVault (host 86400) w "sealed" "first" &&
      w.db.vaults.rows.all fun r => (chainEstimate (host 86400) (oracle "" [coin]) w r).toOption.any
        fun est => (UnlockEstimateView.fromEstimate est w.clock).matured) (by decide +kernel)
  rw [Bool.and_eq_true] at check
  obtain ⟨same, mature⟩ := check
  obtain ⟨r, g, his, theirs⟩ := tokens_of_sameVault same
  have estimated := List.all_eq_true.1 mature r (KeyedTable.find?_mem his.row.1)
  obtain ⟨est, came, passed⟩ := Option.any_eq_true _ _ |>.1 estimated
  have matured : Matured (host 86400) (oracle "" [coin]) c.world r := by
    refine ⟨est, ?_, passed⟩
    cases answer : chainEstimate (host 86400) (oracle "" [coin]) c.world r with
    | error e =>
      rw [answer] at came
      cases came
    | ok est' =>
      rw [answer] at came
      cases came
      rfl
  exact ⟨c.world, r, g, his, theirs, (gatesAgree_iff his).2 (.inr (.inr (.inl matured)))⟩

end Guarded

end GhostKey

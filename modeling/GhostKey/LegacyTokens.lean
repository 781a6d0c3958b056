import GhostKey.Foundation.Base64
import GhostKey.Foundation.Sweep
import GhostKey.Creation
import GhostKey.Deployment

/-!
# Legacy Claim Tokens

Claim tokens were once stored as they are. Before a server answers its first request it seals
those it still finds, in the table of the vaults and in that of the guardian keys, within one
transaction. A sealed token is known by the text it begins with.

Layers:
1. the sealed form over an AEAD: `sealClaimTokenAtRest`, `openClaimTokenAtRest`;
2. the migration, statement by statement: `sealLegacyClaimTokens`, two sweeps of one kind;
3. what it comes to, in one piece: `commit_sealLegacyClaimTokens`.

Main results:
- `migrates`: where a statement fails, the lock's row is missing or the cipher does not take a
  token, the tables stay as they were. Otherwise the migration goes through: every token is
  preserved, every token that can be is sealed, all of them are counted, and a second migration
  changes nothing.
-/

namespace GhostKey

open Foundation

/-- The row with another text in the column of its token. -/
def VaultRow.withToken (r : VaultRow) (stored : Option String) : VaultRow :=
  { r with keys := { r.keys with claimTokenAtRest := stored } }

def GuardianRow.withToken (g : GuardianRow) (stored : Option String) : GuardianRow :=
  { g with claimTokenAtRest := stored }

namespace LegacyTokens

open Base64 (Byte)

/-! ## §1 The sealed form -/

inductive CryptoError where
  | masterKeyMissing
  | masterKeyMalformed (text : String)
  | masterKeyUnavailable (text : String)
  | encrypt (text : String)
  | decrypt
  | malformed (text : String)
  deriving DecidableEq

/-- The 24 random bytes of one sealing. -/
abbrev Nonce := { bytes : List Byte // bytes.length = 24 }

/-- XChaCha20-Poly1305 and the keys that are derived for it. -/
structure Aead where
  vaultContactKey : VaultId → Except CryptoError (List Byte)
  encrypt (key : List Byte) (nonce : Nonce) (plaintext : List Byte) : Except String (List Byte)
  decrypt (key : List Byte) (nonce : Nonce) (ciphertext : List Byte) : Option (List Byte)

/-- It opens what it sealed under the same key. -/
def Aead.Opens (A : Aead) : Prop :=
  ∀ key nonce plaintext ciphertext, A.encrypt key nonce plaintext = .ok ciphertext →
    A.decrypt key nonce ciphertext = some plaintext

/-- `STANDARD_NO_PAD`. -/
def toB64 (bs : List Byte) : List Char := Base64.standard.encode bs

def fromB64 (s : List Char) : Option (List Byte) := Base64.standard.decode s

/-- `crypto::SealedContact`. -/
structure SealedText where
  ciphertextB64 : List Char
  nonceB64 : List Char

/-- `str::as_bytes`. -/
def utf8 (s : String) : List Byte := s.toUTF8.data.toList.map UInt8.toFin

/-- `String::from_utf8`. -/
def fromUtf8 (bs : List Byte) : Option String :=
  String.fromUTF8? ⟨(bs.map UInt8.ofFin).toArray⟩

section Sealing

variable (A : Aead)

/-- `seal_for_vault`, with the nonce it draws. -/
def sealForVault (nonce : Nonce) (vaultId : VaultId) (plaintext : List Byte) :
    Except CryptoError SealedText := do
  let key ← A.vaultContactKey vaultId
  match A.encrypt key nonce plaintext with
  | .error e => .error (.encrypt e)
  | .ok ct => .ok ⟨toB64 ct, toB64 nonce⟩

/-- `open_for_vault`. -/
def openForVault (vaultId : VaultId) (s : SealedText) : Except CryptoError (List Byte) := do
  let key ← A.vaultContactKey vaultId
  match fromB64 s.nonceB64 with
  | none => .error (.malformed "nonce")
  | some nonce =>
      if h : nonce.length = 24 then
        match fromB64 s.ciphertextB64 with
        | none => .error (.malformed "ciphertext")
        | some ct =>
            match A.decrypt key ⟨nonce, h⟩ ct with
            | none => .error .decrypt
            | some plaintext => .ok plaintext
      else .error (.malformed ("nonce length " ++ toString nonce.length ++ " (want 24)"))

/-- `SEALED_TOKEN_PREFIX`. -/
def sealedTokenPrefix : List Char := "gk1.".toList

/-- `seal_claim_token_at_rest`. -/
def sealClaimTokenAtRest (nonce : Nonce) (vaultId : VaultId) (token : Token) :
    Except CryptoError String := do
  let s ← sealForVault A nonce vaultId (utf8 token)
  .ok (.ofList (sealedTokenPrefix ++ (s.nonceB64 ++ '.' :: s.ciphertextB64)))

/-- `claim_token_at_rest_is_sealed`. -/
def claimTokenAtRestIsSealed (stored : String) : Bool := sealedTokenPrefix.isPrefixOf stored.toList

/-- `open_claim_token_at_rest`. -/
def openClaimTokenAtRest (vaultId : VaultId) (stored : String) : Except CryptoError Token :=
  if claimTokenAtRestIsSealed stored then
    match splitOnce '.' (stored.toList.drop sealedTokenPrefix.length) with
    | none => .error (.malformed "at-rest token: missing nonce separator")
    | some (nonceB64, ciphertextB64) => do
        let plaintext ← openForVault A vaultId ⟨ciphertextB64, nonceB64⟩
        match fromUtf8 plaintext with
        | none => .error (.malformed "at-rest token utf8")
        | some token => .ok token
  else .error (.malformed "at-rest claim token is not sealed")

end Sealing

theorem fromUtf8_utf8 (s : String) : fromUtf8 (utf8 s) = some s := by
  have bytes : (utf8 s).map UInt8.ofFin = s.toUTF8.data.toList := by
    unfold utf8
    rw [List.map_map]
    exact List.map_id _
  unfold fromUtf8
  rw [bytes, Array.toArray_toList]
  exact dif_pos s.isValidUTF8

theorem splitOnce_append {c : Char} {l d : List Char} (absent : c ∉ l) :
    splitOnce c (l ++ c :: d) = some (l, d) := by
  have solid : ∀ x ∈ l, decide (x ≠ c) = true := by
    intro x mem
    exact decide_eq_true fun same => absent (same ▸ mem)
  unfold splitOnce
  rw [if_pos (by simp), List.takeWhile_append_of_pos solid, List.dropWhile_append_of_pos solid]
  simp

/-- What was sealed opens to the token, whatever nonce was drawn. -/
theorem open_seal {A : Aead} (opens : A.Opens) {nonce : Nonce} {v : VaultId} {token : Token}
    {stored : String} (came : sealClaimTokenAtRest A nonce v token = .ok stored) :
    openClaimTokenAtRest A v stored = .ok token := by
  unfold sealClaimTokenAtRest sealForVault at came
  cases held : A.vaultContactKey v with
  | error e => rw [held] at came; cases came
  | ok key =>
    rw [held] at came
    simp only [bind, Except.bind] at came
    cases encrypted : A.encrypt key nonce (utf8 token) with
    | error e => rw [encrypted] at came; cases came
    | ok ct =>
      rw [encrypted] at came
      cases came
      have dotless : '.' ∉ toB64 nonce := by
        intro mem
        exact absurd (Base64.standard.letter_of_mem_encode mem) (by decide)
      have apart : splitOnce '.' (toB64 nonce ++ '.' :: toB64 ct) = some (toB64 nonce, toB64 ct) :=
        splitOnce_append dotless
      have marked : claimTokenAtRestIsSealed
          (.ofList (sealedTokenPrefix ++ (toB64 nonce ++ '.' :: toB64 ct))) = true := by
        rw [claimTokenAtRestIsSealed, String.toList_ofList, List.isPrefixOf_iff_prefix]
        exact List.prefix_append _ _
      unfold openClaimTokenAtRest
      rw [if_pos marked, String.toList_ofList, List.drop_left, apart]
      simp only [openForVault, held, bind, Except.bind, fromB64, toB64,
        Base64.Alphabet.decode_encode, nonce.2, dite_true, opens key nonce _ ct encrypted]
      rw [fromUtf8_utf8]

/-! ## §2 The migration -/

/-- `LegacyTokenMigration`. -/
structure Report where
  vaultTokensSealed : Nat
  guardianTokensSealed : Nat
  vaultTokensSkipped : Nat
  guardianTokensSkipped : Nat
  deriving DecidableEq

/-- The tables, with those of `startup_migration_locks`. -/
structure Store where
  db : Db
  locks : List String

abbrev MigrationTx (α : Type) := TxPart Store String α

section Migration

variable (S : Server) (A : Aead)

/-- `verify_legacy_token_hash`. -/
def verifyLegacyTokenHash (vaultId : VaultId) (guardianSlot : Option Nat) (token : Token)
    (expectedHash : Option Hash) : Except String Unit :=
  if token.isEmpty then .error ("empty legacy claim token for vault " ++ vaultId)
  else
    match expectedHash with
    | none => .ok ()
    | some expected =>
        if !S.claimTokenMatches token expected then
          match guardianSlot with
          | some slot => .error ("legacy guardian token hash mismatch for vault " ++ vaultId ++
              ", slot " ++ toString slot)
          | none => .error ("legacy token hash mismatch for vault " ++ vaultId)
        else .ok ()

/-- `seal_and_verify`; its errors are told by their contexts. -/
def sealAndVerify (nonce : Nonce) (vaultId : VaultId) (token : Token) : Except String String :=
  match sealClaimTokenAtRest A nonce vaultId token with
  | .error _ => .error ("seal legacy claim token for vault " ++ vaultId)
  | .ok stored =>
      match openClaimTokenAtRest A vaultId stored with
      | .error _ => .error ("verify sealed claim token for vault " ++ vaultId)
      | .ok reopened =>
          if reopened ≠ token then
            .error ("sealed claim token verification mismatch for vault " ++ vaultId)
          else .ok stored

/-- What the loop makes of a row. -/
def judge (nonce : Nonce) (vaultId : VaultId) (guardianSlot : Option Nat)
    (stored : Option String) (tokenHash : Option Hash) : Verdict String String :=
  match stored with
  | none => .leave
  | some stored =>
      if claimTokenAtRestIsSealed stored then .leave
      else
        match verifyLegacyTokenHash S vaultId guardianSlot stored tokenHash with
        | .error _ => .skip
        | .ok () =>
            match sealAndVerify A nonce vaultId stored with
            | .error e => .refuse e
            | .ok s => .put s

/-- `vaults.claim_token_at_rest_b64`. -/
def vaultTokens : Column Store VaultRow VaultId String VaultRow.id where
  table w := w.db.vaults
  setTable t w := { w with db := { w.db with vaults := t } }
  table_set _ _ := rfl
  set_set _ _ _ := rfl
  set_table _ := rfl
  put stored r := r.withToken (some stored)
  keeps _ _ := rfl
  same r x := x.keys.claimTokenAtRest = r.keys.claimTokenAtRest
  same_refl _ := decide_eq_true rfl

/-- `vault_guardian_keys.claim_token_at_rest_b64`. -/
def guardianTokens : Column Store GuardianRow (VaultId × Nat) String GuardianRow.key where
  table w := w.db.guardians
  setTable t w := { w with db := { w.db with guardians := t } }
  table_set _ _ := rfl
  set_set _ _ _ := rfl
  set_table _ := rfl
  put stored g := g.withToken (some stored)
  keeps _ _ := rfl
  same g x := x.claimTokenAtRest = g.claimTokenAtRest
  same_refl _ := decide_eq_true rfl

/-- The nonces that would be drawn for the rows, a guardian's by its slot. -/
abbrev Draws := VaultId → Option Nat → Nonce

def judgeVault (draws : Draws) (r : VaultRow) : Verdict String String :=
  judge S A (draws r.id none) r.id none r.keys.claimTokenAtRest r.life.claimTokenHash

def judgeGuardian (draws : Draws) (g : GuardianRow) : Verdict String String :=
  judge S A (draws g.vaultId (some g.slot)) g.vaultId (some g.slot) g.claimTokenAtRest
    g.claimTokenHash

/-- The two loops. -/
def sealRows (draws : Draws) (vaultRows : List VaultRow) (guardianRows : List GuardianRow) :
    MigrationTx Report := do
  let vaults ← vaultTokens.sweep (judgeVault S A draws)
    (fun r => "legacy token changed during migration for vault " ++ r.id) vaultRows (0, 0)
  let guardians ← guardianTokens.sweep (judgeGuardian S A draws)
    (fun g => "legacy guardian token changed during migration for vault " ++ g.vaultId ++
      ", slot " ++ toString g.slot) guardianRows (0, 0)
  pure ⟨vaults.1, guardians.1, vaults.2, guardians.2⟩

def hasVaultToken (r : VaultRow) : Bool := r.keys.claimTokenAtRest.isSome

def hasGuardianToken (g : GuardianRow) : Bool := g.claimTokenAtRest.isSome

/-- `seal_legacy_claim_tokens`, up to its commit. -/
def sealLegacyClaimTokens (draws : Draws) : MigrationTx Report := do
  let locked ← .stmt fun w => (w.locks.count "legacy-claim-token-sealing", w)
  if locked ≠ 1 then .fail "legacy claim-token migration lock row is missing"
  else
    let vaultRows ← .stmt fun w => (w.db.vaults.select hasVaultToken, w)
    let guardianRows ← .stmt fun w => (w.db.guardians.select hasGuardianToken, w)
    sealRows S A draws vaultRows guardianRows

end Migration

/-! ## §3 One row -/

section Row

variable {S : Server} {A : Aead} {nonce : Nonce} {v : VaultId} {slot : Option Nat}
  {stored token : String} {hash : Option Hash}

/-- A stored text that is not in the sealed form. -/
def awaits (stored : Option String) : Bool := stored.any fun s => !claimTokenAtRestIsSealed s

/-- A plaintext that is there and agrees with the hash beside it, if there is one. -/
def usable (S : Server) (stored : Option String) (hash : Option Hash) : Bool :=
  stored.any fun s => s ≠ "" && hash.all (S.claimTokenMatches s)

theorem verifyLegacyTokenHash_iff :
    verifyLegacyTokenHash S v slot stored hash = .ok () ↔ usable S (some stored) hash = true := by
  have empty : stored.isEmpty = decide (stored = "") := by
    rw [Bool.eq_iff_iff, String.isEmpty_iff, decide_eq_true_iff]
  unfold verifyLegacyTokenHash usable
  rw [empty]
  by_cases blank : stored = ""
  · simp [blank]
  · cases hash with
    | none => simp [blank]
    | some expected =>
      by_cases agrees : S.claimTokenMatches stored expected = true
      · simp [blank, agrees]
      · cases slot <;> simp [blank, agrees]

/-- A text that is refused is empty or disagrees with the hash. -/
theorem usable_eq_false {e : String}
    (failed : verifyLegacyTokenHash S v slot stored hash = .error e) :
    usable S (some stored) hash = false := by
  rw [Bool.eq_false_iff]
  intro good
  rw [verifyLegacyTokenHash_iff.2 good] at failed
  cases failed

/-- What can be opened is in the sealed form. -/
theorem sealed_of_open (opened : openClaimTokenAtRest A v stored = .ok token) :
    claimTokenAtRestIsSealed stored = true := by
  unfold openClaimTokenAtRest at opened
  split at opened
  · assumption
  · cases opened

/-- Nothing is written that does not open to the token again. -/
theorem opens_of_sealAndVerify {s : String} (came : sealAndVerify A nonce v stored = .ok s) :
    openClaimTokenAtRest A v s = .ok stored := by
  unfold sealAndVerify at came
  split at came
  · cases came
  · split at came
    · cases came
    · next reopened opened =>
      split at came
      · cases came
      · next same =>
        cases came
        rw [opened, not_not.1 same]

/-- A row that is rewritten. -/
theorem judge_put {before : Option String} {s : String}
    (put : judge S A nonce v slot before hash = .put s) :
    ∃ plaintext, before = some plaintext ∧ claimTokenAtRestIsSealed plaintext = false ∧
      usable S before hash = true ∧ openClaimTokenAtRest A v s = .ok plaintext := by
  unfold judge at put
  cases before with
  | none => cases put
  | some plaintext =>
    dsimp only at put
    split at put
    · cases put
    · next unsealed =>
      split at put
      · cases put
      · next verified =>
        split at put
        · cases put
        · next s' came =>
          cases put
          exact ⟨plaintext, rfl, Bool.eq_false_iff.2 unsealed,
            verifyLegacyTokenHash_iff.1 verified, opens_of_sealAndVerify came⟩

/-- What the cipher seals it opens again, so a row is refused only where it does not seal. -/
theorem judge_refuse (opens : A.Opens) {before : Option String}
    (refused : (judge S A nonce v slot before hash).Refused) :
    ∃ plaintext e, before = some plaintext ∧ claimTokenAtRestIsSealed plaintext = false ∧
      usable S before hash = true ∧ sealClaimTokenAtRest A nonce v plaintext = .error e := by
  obtain ⟨e, refused⟩ := refused
  unfold judge at refused
  cases before with
  | none => cases refused
  | some plaintext =>
    dsimp only at refused
    split at refused
    · cases refused
    · next unsealed =>
      split at refused
      · cases refused
      · next verified =>
        have good := verifyLegacyTokenHash_iff.1 verified
        unfold sealAndVerify at refused
        cases came : sealClaimTokenAtRest A nonce v plaintext with
        | error e' => exact ⟨plaintext, e', rfl, Bool.eq_false_iff.2 unsealed, good, came⟩
        | ok stored =>
          -- what was sealed opens to the token, so the check of it passes
          rw [came] at refused
          dsimp only at refused
          rw [open_seal opens came] at refused
          dsimp only at refused
          rw [if_neg (not_not.2 rfl)] at refused
          cases refused

/-- Which rows are rewritten, where none is refused. -/
theorem isPut_judge {before : Option String}
    (accepted : ¬ (judge S A nonce v slot before hash).Refused) :
    (judge S A nonce v slot before hash).isPut = (awaits before && usable S before hash) := by
  unfold judge at accepted ⊢
  cases before with
  | none => rfl
  | some plaintext =>
    dsimp only at accepted ⊢
    split
    · next sealed_ => simp [awaits, sealed_, Verdict.isPut]
    · next unsealed =>
      rw [if_neg unsealed] at accepted
      split
      · next e failed =>
        have unusable := usable_eq_false failed
        simp [unusable, Verdict.isPut]
      · next verified =>
        have good := verifyLegacyTokenHash_iff.1 verified
        rw [verified] at accepted
        dsimp only at accepted
        split
        · next e failed =>
          rw [failed] at accepted
          exact absurd ⟨e, rfl⟩ accepted
        · simp [awaits, unsealed, good, Verdict.isPut]

/-- Which rows are passed over and counted. -/
theorem isSkip_judge {before : Option String} :
    (judge S A nonce v slot before hash).isSkip = (awaits before && !usable S before hash) := by
  unfold judge
  cases before with
  | none => rfl
  | some plaintext =>
    dsimp only
    split
    · next sealed_ => simp [awaits, sealed_, Verdict.isSkip]
    · next unsealed =>
      split
      · next e failed =>
        have unusable := usable_eq_false failed
        simp [awaits, unsealed, unusable, Verdict.isSkip]
      · next verified =>
        have good := verifyLegacyTokenHash_iff.1 verified
        split <;> simp [good, Verdict.isSkip]

/-- What a migration makes of a stored token: what opened before opens to the same token, a
plaintext stays or is sealed, and it stays exactly if it is empty or disagrees with its hash. -/
structure Preserved (S : Server) (A : Aead) (v : VaultId) (hash : Option Hash)
    (before after : Option String) : Prop where
  absent : before = none → after = none
  opened : ∀ stored token, before = some stored → openClaimTokenAtRest A v stored = .ok token →
    ∃ stored', after = some stored' ∧ openClaimTokenAtRest A v stored' = .ok token
  plaintext : ∀ stored, before = some stored → claimTokenAtRestIsSealed stored = false →
    after = before ∨
      ∃ stored', after = some stored' ∧ openClaimTokenAtRest A v stored' = .ok stored
  unsealed : ∀ stored, before = some stored →
    (awaits after = true ↔ claimTokenAtRestIsSealed stored = false ∧
      (stored = "" ∨ ∃ expected, hash = some expected ∧
        S.claimTokenMatches stored expected = false))

/-- The column after the verdict. -/
def written (verdict : Verdict String String) (before : Option String) : Option String :=
  match verdict with
  | .put s => some s
  | _ => before

theorem preserved_written {before : Option String}
    (accepted : ¬ (judge S A nonce v slot before hash).Refused) :
    Preserved S A v hash before (written (judge S A nonce v slot before hash) before) := by
  have puts := isPut_judge accepted
  cases judged : judge S A nonce v slot before hash with
  -- a token in plain text that was usable is sealed, and opens to itself
  | put s =>
    obtain ⟨plaintext, rfl, unsealed, good, opens⟩ := judge_put judged
    have now_sealed := sealed_of_open opens
    refine ⟨(fun none => by cases none), ?_, ?_, ?_⟩
    · intro stored token same opened
      cases same
      rw [sealed_of_open opened] at unsealed
      cases unsealed
    · intro stored same _
      cases same
      exact .inr ⟨s, rfl, opens⟩
    · intro stored same
      cases same
      simp only [usable, Option.any_some, Bool.and_eq_true, decide_eq_true_eq] at good
      have agrees : ∀ expected, hash = some expected →
          S.claimTokenMatches plaintext expected = true := by
        rintro expected rfl
        exact good.2
      simp only [written, awaits, Option.any_some, now_sealed, Bool.not_true, Bool.false_eq_true,
        unsealed, good.1, true_and, false_or, false_iff, not_exists, not_and]
      intro expected beside
      rw [agrees expected beside]
      simp
  | refuse e => exact absurd ⟨e, judged⟩ accepted
  -- left or skipped: the column stays as it is
  | leave | skip =>
    rw [judged] at puts
    refine ⟨fun none => none, fun stored token same opened => ⟨stored, same, opened⟩,
      fun stored same _ => .inl rfl, ?_⟩
    rintro stored rfl
    have puts : (awaits (some stored) && usable S (some stored) hash) = false := puts.symm
    simp only [awaits, usable, Option.any_some] at puts
    cases hash with
    | none => by_cases blank : stored = "" <;> simp_all [written, awaits]
    | some expected => by_cases blank : stored = "" <;> simp_all [written, awaits]

end Row

/-! ## §4 All of the rows -/

section Tables

variable (S : Server) (A : Aead)

/-- The store once all of it has been gone through. -/
def migrated (draws : Draws) (w : Store) : Store :=
  guardianTokens.after hasGuardianToken (judgeGuardian S A draws)
    (vaultTokens.after hasVaultToken (judgeVault S A draws) w)

/-- The plaintext tokens of a store: those that can be sealed, and the others. -/
def counted (w : Store) : Report where
  vaultTokensSealed := w.db.vaults.affected fun r =>
    awaits r.keys.claimTokenAtRest && usable S r.keys.claimTokenAtRest r.life.claimTokenHash
  guardianTokensSealed := w.db.guardians.affected fun g =>
    awaits g.claimTokenAtRest && usable S g.claimTokenAtRest g.claimTokenHash
  vaultTokensSkipped := w.db.vaults.affected fun r =>
    awaits r.keys.claimTokenAtRest && !usable S r.keys.claimTokenAtRest r.life.claimTokenHash
  guardianTokensSkipped := w.db.guardians.affected fun g =>
    awaits g.claimTokenAtRest && !usable S g.claimTokenAtRest g.claimTokenHash

/-- No row is refused. -/
structure Accepted (draws : Draws) (w : Store) : Prop where
  vaults : ∀ r ∈ w.db.vaults.rows, ¬ (judgeVault S A draws r).Refused
  guardians : ∀ g ∈ w.db.guardians.rows, ¬ (judgeGuardian S A draws g).Refused

/-- A token that is to be sealed is not taken by the cipher. -/
def Unsealable (draws : Draws) (w : Store) : Prop :=
  (∃ r ∈ w.db.vaults.rows, ∃ token e, r.keys.claimTokenAtRest = some token ∧
    claimTokenAtRestIsSealed token = false ∧
      usable S r.keys.claimTokenAtRest r.life.claimTokenHash = true ∧
        sealClaimTokenAtRest A (draws r.id none) r.id token = .error e) ∨
  ∃ g ∈ w.db.guardians.rows, ∃ token e, g.claimTokenAtRest = some token ∧
    claimTokenAtRestIsSealed token = false ∧
      usable S g.claimTokenAtRest g.claimTokenHash = true ∧
        sealClaimTokenAtRest A (draws g.vaultId (some g.slot)) g.vaultId token = .error e

variable {S A} {draws : Draws} {w : Store}

theorem accepted_or_unsealable (opens : A.Opens) :
    Accepted S A draws w ∨ Unsealable S A draws w := by
  by_contra neither
  rw [not_or] at neither
  refine neither.1 ⟨fun r mem refused => neither.2 (.inl ?_),
    fun g mem refused => neither.2 (.inr ?_)⟩
  · obtain ⟨token, e, held, unsealed, good, failed⟩ := judge_refuse opens refused
    exact ⟨r, mem, token, e, held, unsealed, good, failed⟩
  · obtain ⟨token, e, held, unsealed, good, failed⟩ := judge_refuse opens refused
    exact ⟨g, mem, token, e, held, unsealed, good, failed⟩

theorem steady_sealLegacyClaimTokens : TxPart.Steady (sealLegacyClaimTokens S A draws) := by
  apply TxPart.steady_bind (TxPart.steady_stmt _)
  intro locked
  apply TxPart.steady_ite (TxPart.steady_fail _)
  apply TxPart.steady_bind (TxPart.steady_stmt _)
  intro vaultRows
  apply TxPart.steady_bind (TxPart.steady_stmt _)
  intro guardianRows
  apply TxPart.steady_bind (vaultTokens.steady_sweep _ _ _ _)
  intro vaults
  apply TxPart.steady_bind (guardianTokens.steady_sweep _ _ _ _)
  intro guardians
  exact TxPart.steady_done _

/-- A row without a token is left alone. -/
theorem judge_none {nonce : Nonce} {v : VaultId} {slot : Option Nat} {hash : Option Hash} :
    judge S A nonce v slot none hash = .leave := rfl

/-- What a sweep counts is what there is to count. -/
theorem affected_isPut {ρ κ : Type} {key : ρ → κ} (t : KeyedTable ρ κ key)
    {token : ρ → Option String} {hash : ρ → Option Hash} {verdict : ρ → Verdict String String}
    (judged : ∀ r, ∃ nonce v slot, verdict r = judge S A nonce v slot (token r) (hash r))
    (accepted : ∀ r ∈ t.rows, (token r).isSome = true → ¬ (verdict r).Refused) :
    (t.affected fun r => (token r).isSome && (verdict r).isPut) =
      t.affected fun r => awaits (token r) && usable S (token r) (hash r) := by
  refine List.countP_congr fun r mem => ?_
  obtain ⟨nonce, v, slot, same⟩ := judged r
  cases held : token r with
  | none => simp [awaits]
  | some stored =>
    have fine := accepted r mem (by rw [held]; rfl)
    rw [same] at fine
    rw [same, isPut_judge fine, held]
    simp

theorem affected_isSkip {ρ κ : Type} {key : ρ → κ} (t : KeyedTable ρ κ key)
    {token : ρ → Option String} {hash : ρ → Option Hash} {verdict : ρ → Verdict String String}
    (judged : ∀ r, ∃ nonce v slot, verdict r = judge S A nonce v slot (token r) (hash r)) :
    (t.affected fun r => (token r).isSome && (verdict r).isSkip) =
      t.affected fun r => awaits (token r) && !usable S (token r) (hash r) := by
  refine List.countP_congr fun r _ => ?_
  obtain ⟨nonce, v, slot, same⟩ := judged r
  cases held : token r with
  | none => simp [awaits]
  | some stored => simp [same, isSkip_judge, held]

theorem table_vaultTokens (w : Store) : vaultTokens.table w = w.db.vaults := rfl

/-- The table of the guardian keys is still the one that was read. -/
theorem table_guardianTokens (w : Store) (p : VaultRow → Bool)
    (verdict : VaultRow → Verdict String String) :
    guardianTokens.table (vaultTokens.after p verdict w) = w.db.guardians := rfl

/-- The two loops over all the rows refuse one of them or do the whole. -/
theorem sealRows_calm (S : Server) (A : Aead) (draws : Draws) (w : Store) (n : Nat) :
    (¬ Accepted S A draws w ∧ ∃ e, sealRows S A draws (w.db.vaults.select hasVaultToken)
      (w.db.guardians.select hasGuardianToken) TxPart.calm n w = .error e) ∨
    (Accepted S A draws w ∧ ∃ m, sealRows S A draws (w.db.vaults.select hasVaultToken)
      (w.db.guardians.select hasGuardianToken) TxPart.calm n w =
        .ok (counted S w, m, migrated S A draws w)) := by
  unfold sealRows
  simp only [TxPart.bind_eq, TxPart.bind_apply, TxPart.pure_eq, TxPart.done_apply]
  -- the vaults first; a row that is refused ends the migration
  rcases vaultTokens.sweep_calm hasVaultToken (judgeVault S A draws)
      (fun r => "legacy token changed during migration for vault " ++ r.id) w n with
    ⟨r, e, mem, -, refused, ended⟩ | ⟨vaults, m, swept⟩
  · rw [table_vaultTokens] at ended
    exact .inl ⟨fun accepted => accepted.vaults r mem ⟨e, refused⟩, e, by rw [ended]⟩
  rw [table_vaultTokens] at vaults swept
  rw [swept]
  dsimp only
  -- then the guardians
  rcases guardianTokens.sweep_calm hasGuardianToken (judgeGuardian S A draws)
      (fun g => "legacy guardian token changed during migration for vault " ++ g.vaultId ++
        ", slot " ++ toString g.slot) (vaultTokens.after hasVaultToken (judgeVault S A draws) w) m
      with ⟨g, e, mem, -, refused, ended⟩ | ⟨guardians, m', swept'⟩
  · rw [table_guardianTokens] at ended mem
    exact .inl ⟨fun accepted => accepted.guardians g mem ⟨e, refused⟩, e, by rw [ended]⟩
  rw [table_guardianTokens] at guardians swept'
  rw [swept']
  -- both loops went through, so every row with a token was accepted
  have accepted : Accepted S A draws w := by
    refine ⟨fun r mem => ?_, fun g mem => ?_⟩
    · cases held : r.keys.claimTokenAtRest with
      | none =>
        rintro ⟨e, refused⟩
        rw [judgeVault, held, judge_none] at refused
        cases refused
      | some stored => exact vaults r mem (by rw [hasVaultToken, held]; rfl)
    · cases held : g.claimTokenAtRest with
      | none =>
        rintro ⟨e, refused⟩
        rw [judgeGuardian, held, judge_none] at refused
        cases refused
      | some stored => exact guardians g mem (by rw [hasGuardianToken, held]; rfl)
  refine .inr ⟨accepted, m', ?_⟩
  -- the counts: of the rows that await it, the usable ones are put, the others skipped
  have judged : ∀ r, ∃ nonce v slot, judgeVault S A draws r =
      judge S A nonce v slot r.keys.claimTokenAtRest r.life.claimTokenHash :=
    fun r => ⟨_, _, _, rfl⟩
  have judged' : ∀ g, ∃ nonce v slot, judgeGuardian S A draws g =
      judge S A nonce v slot g.claimTokenAtRest g.claimTokenHash :=
    fun g => ⟨_, _, _, rfl⟩
  have puts := affected_isPut w.db.vaults judged vaults
  have puts' := affected_isPut w.db.guardians judged' guardians
  have skips := affected_isSkip w.db.vaults judged
  have skips' := affected_isSkip w.db.guardians judged'
  dsimp only
  unfold hasVaultToken hasGuardianToken
  rw [puts, puts', skips, skips']
  rfl

/-- Undisturbed, a migration gives up with the tables as they were or does the whole. -/
theorem commit_sealLegacyClaimTokens (S : Server) (A : Aead) (draws : Draws) (w : Store) :
    (∃ e, (sealLegacyClaimTokens S A draws).commit TxPart.calm w = (.error e, w) ∧
      (w.locks.count "legacy-claim-token-sealing" ≠ 1 ∨ ¬ Accepted S A draws w)) ∨
    Accepted S A draws w ∧ (sealLegacyClaimTokens S A draws).commit TxPart.calm w =
      (.ok (counted S w), migrated S A draws w) := by
  unfold TxPart.commit
  by_cases lock : w.locks.count "legacy-claim-token-sealing" = 1
  · -- the two SELECTs have been taken when the first loop starts
    have begun : sealLegacyClaimTokens S A draws TxPart.calm 0 w =
        sealRows S A draws (w.db.vaults.select hasVaultToken)
          (w.db.guardians.select hasGuardianToken) TxPart.calm 3 w := by
      unfold sealLegacyClaimTokens
      simp only [TxPart.bind_eq, TxPart.bind_apply, TxPart.stmt_calm]
      rw [if_neg (not_not.2 lock)]
      rfl
    rw [begun]
    rcases sealRows_calm S A draws w 3 with ⟨refused, e, ended⟩ | ⟨accepted, m, ran⟩
    · rw [ended]
      exact .inl ⟨e, rfl, .inr refused⟩
    · rw [ran]
      exact .inr ⟨accepted, rfl⟩
  · have stops : sealLegacyClaimTokens S A draws TxPart.calm 0 w =
        .error "legacy claim-token migration lock row is missing" := by
      unfold sealLegacyClaimTokens
      simp only [TxPart.bind_eq, TxPart.bind_apply, TxPart.stmt_calm]
      rw [if_pos lock]
      rfl
    rw [stops]
    exact .inl ⟨_, rfl, .inl lock⟩

end Tables

/-! ## §5 A migration and the next one -/

/-- What a migration makes of the store. Whatever it does not rewrite is as it was. -/
structure Migrated (S : Server) (A : Aead) (w w' : Store) (report : Report) : Prop where
  vaults : ∀ v r, w.db.vault? v = some r → ∃ after, w'.db.vault? v = some (r.withToken after) ∧
    Preserved S A r.id r.life.claimTokenHash r.keys.claimTokenAtRest after
  guardians : ∀ key g, w.db.guardians.find? key = some g → ∃ after,
    w'.db.guardians.find? key = some (g.withToken after) ∧
      Preserved S A g.vaultId g.claimTokenHash g.claimTokenAtRest after
  noVault : ∀ v, w.db.vault? v = none → w'.db.vault? v = none
  noGuardian : ∀ key, w.db.guardians.find? key = none → w'.db.guardians.find? key = none
  others : w' = { w with db := { w.db with vaults := w'.db.vaults, guardians := w'.db.guardians } }
  report : report = counted S w

section Twice

variable {S : Server} {A : Aead} {draws : Draws} {w : Store}

/-- A vault's row, as the first loop leaves it. -/
theorem swept_vault (r : VaultRow) :
    (if hasVaultToken r then vaultTokens.swept (judgeVault S A draws) r else r) =
      r.withToken (written (judgeVault S A draws r) r.keys.claimTokenAtRest) := by
  unfold Column.swept
  cases judged : judgeVault S A draws r with
  | put s =>
    obtain ⟨plaintext, held, -⟩ := judge_put judged
    rw [hasVaultToken, held]
    rfl
  | _ => exact ite_self r

/-- A guardian's row, as the second loop leaves it. -/
theorem swept_guardian (g : GuardianRow) :
    (if hasGuardianToken g then guardianTokens.swept (judgeGuardian S A draws) g else g) =
      g.withToken (written (judgeGuardian S A draws g) g.claimTokenAtRest) := by
  unfold Column.swept
  cases judged : judgeGuardian S A draws g with
  | put s =>
    obtain ⟨plaintext, held, -⟩ := judge_put judged
    rw [hasGuardianToken, held]
    rfl
  | _ => exact ite_self g

/-- The rows of a migrated store. -/
theorem vault?_migrated (S : Server) (A : Aead) (draws : Draws) (w : Store) (v : VaultId) :
    (migrated S A draws w).db.vault? v = (w.db.vault? v).map fun r =>
      r.withToken (written (judgeVault S A draws r) r.keys.claimTokenAtRest) := by
  have rows := vaultTokens.find?_after hasVaultToken (judgeVault S A draws) w v
  simp only [swept_vault] at rows
  exact rows

theorem guardian?_migrated (S : Server) (A : Aead) (draws : Draws) (w : Store)
    (key : VaultId × Nat) :
    (migrated S A draws w).db.guardians.find? key = (w.db.guardians.find? key).map fun g =>
      g.withToken (written (judgeGuardian S A draws g) g.claimTokenAtRest) := by
  have rows := guardianTokens.find?_after hasGuardianToken (judgeGuardian S A draws)
    (vaultTokens.after hasVaultToken (judgeVault S A draws) w) key
  simp only [swept_guardian] at rows
  exact rows

theorem migrated_spec (accepted : Accepted S A draws w) :
    Migrated S A w (migrated S A draws w) (counted S w) := by
  refine ⟨?_, ?_, ?_, ?_, rfl, rfl⟩
  · intro v r found
    refine ⟨_, (vault?_migrated S A draws w v).trans (congrArg (Option.map _) found), ?_⟩
    exact preserved_written (accepted.vaults r (KeyedTable.find?_mem found))
  · intro key g found
    refine ⟨_, (guardian?_migrated S A draws w key).trans (congrArg (Option.map _) found), ?_⟩
    exact preserved_written (accepted.guardians g (KeyedTable.find?_mem found))
  · intro v missing
    rw [vault?_migrated, missing]
    rfl
  · intro key missing
    rw [guardian?_migrated, missing]
    rfl

/-- What a migration has passed over, the next one passes over again. -/
theorem Preserved.again {v : VaultId} {hash : Option Hash} {before after : Option String}
    (kept : Preserved S A v hash before after) :
    (awaits after && usable S after hash) = false ∧
      (awaits after && !usable S after hash) = (awaits before && !usable S before hash) := by
  cases before with
  | none =>
    rw [kept.absent rfl]
    exact ⟨rfl, rfl⟩
  | some stored =>
    have unsealed := kept.unsealed stored rfl
    cases awaiting : awaits after with
    | true =>
      -- it is the plaintext that was there, and it cannot be used
      obtain ⟨plain, bad⟩ := unsealed.1 awaiting
      have same : after = some stored := by
        rcases kept.plaintext stored rfl plain with same | ⟨stored', rfl, opens⟩
        · exact same
        · simp [awaits, sealed_of_open opens] at awaiting
      have unusable : usable S (some stored) hash = false := by
        rcases bad with rfl | ⟨expected, rfl, disagrees⟩
        · rfl
        · simp [usable, disagrees]
      subst same
      exact ⟨by rw [unusable]; rfl, by rw [awaiting]⟩
    | false =>
      have settled : (awaits (some stored) && !usable S (some stored) hash) = false := by
        by_contra waits
        simp only [Bool.not_eq_false, Bool.and_eq_true, Bool.not_eq_true'] at waits
        have plain : claimTokenAtRestIsSealed stored = false := by simpa [awaits] using waits.1
        have bad : stored = "" ∨ ∃ expected, hash = some expected ∧
            S.claimTokenMatches stored expected = false := by
          by_cases blank : stored = ""
          · exact .inl blank
          · have disagrees := waits.2
            cases hash with
            | none => simp [usable, blank] at disagrees
            | some expected => exact .inr ⟨expected, rfl, by simpa [usable, blank] using disagrees⟩
        rw [unsealed.2 ⟨plain, bad⟩] at awaiting
        cases awaiting
      rw [settled]
      exact ⟨rfl, rfl⟩

/-- Where there is nothing left to seal, a migration changes nothing. -/
theorem migrated_eq_self
    (vaults : ∀ r ∈ w.db.vaults.rows,
      (awaits r.keys.claimTokenAtRest && usable S r.keys.claimTokenAtRest r.life.claimTokenHash) =
        false)
    (guardians : ∀ g ∈ w.db.guardians.rows,
      (awaits g.claimTokenAtRest && usable S g.claimTokenAtRest g.claimTokenHash) = false) :
    migrated S A draws w = w := by
  have idle : ∀ {nonce v slot} {before : Option String} {hash : Option Hash},
      (awaits before && usable S before hash) = false →
        (judge S A nonce v slot before hash).isPut = false := by
    intro nonce v slot before hash settled
    cases judged : judge S A nonce v slot before hash with
    | put s =>
      obtain ⟨plaintext, rfl, unsealed, good, -⟩ := judge_put judged
      simp [awaits, unsealed, good] at settled
    | _ => rfl
  have first : vaultTokens.after hasVaultToken (judgeVault S A draws) w = w :=
    vaultTokens.after_eq_self fun r mem _ => idle (vaults r mem)
  unfold migrated
  rw [first]
  exact guardianTokens.after_eq_self fun g mem _ => idle (guardians g mem)

/-- The next migration finds the same rows to pass over and no other. -/
theorem counted_migrated (accepted : Accepted S A draws w) :
    counted S (migrated S A draws w) =
      { counted S w with vaultTokensSealed := 0, guardianTokensSealed := 0 } := by
  have vaults : ∀ q : VaultRow → Bool, (migrated S A draws w).db.vaults.affected q =
      w.db.vaults.affected fun r =>
        q (r.withToken (written (judgeVault S A draws r) r.keys.claimTokenAtRest)) := by
    intro q
    have rows := vaultTokens.affected_after hasVaultToken q (judgeVault S A draws) w
    simp only [swept_vault] at rows
    exact rows
  have guardians : ∀ q : GuardianRow → Bool, (migrated S A draws w).db.guardians.affected q =
      w.db.guardians.affected fun g =>
        q (g.withToken (written (judgeGuardian S A draws g) g.claimTokenAtRest)) := by
    intro q
    have rows := guardianTokens.affected_after hasGuardianToken q (judgeGuardian S A draws)
      (vaultTokens.after hasVaultToken (judgeVault S A draws) w)
    simp only [swept_guardian] at rows
    exact rows
  have vault : ∀ r ∈ w.db.vaults.rows, _ := fun r mem =>
    (preserved_written (accepted.vaults r mem)).again
  have guardian : ∀ g ∈ w.db.guardians.rows, _ := fun g mem =>
    (preserved_written (accepted.guardians g mem)).again
  unfold counted
  simp only [vaults, guardians, Report.mk.injEq]
  refine ⟨?_, ?_, ?_, ?_⟩
  · exact List.countP_eq_zero.2 fun r mem => Bool.eq_false_iff.1 (vault r mem).1
  · exact List.countP_eq_zero.2 fun g mem => Bool.eq_false_iff.1 (guardian g mem).1
  · exact List.countP_congr fun r mem => Bool.eq_iff_iff.1 (vault r mem).2
  · exact List.countP_congr fun g mem => Bool.eq_iff_iff.1 (guardian g mem).2

end Twice

section Legacy

/-- A cipher that leaves texts as they are. -/
def plainAead : Aead where
  vaultContactKey _ := .ok []
  encrypt _ _ plaintext := .ok plaintext
  decrypt _ _ ciphertext := some ciphertext

def zeroNonce : Nonce := ⟨List.replicate 24 ⟨0, Nat.zero_lt_succ _⟩, List.length_replicate⟩

/-- A guardian whose token is stored as it is, with the hash of `hashed` beside it. -/
def legacyGuardian (slot : Nat) (token hashed : Token) : GuardianRow :=
  ⟨"v", slot, "ct", "nonce", some token, some ("#" ++ hashed), none, .none⟩

/-- One token agrees with its hash, the other does not. -/
def legacyStore : Store where
  db := { Db.empty with
    guardians := ⟨[legacyGuardian 1 "old" "old", legacyGuardian 2 "old" "new"], by decide⟩ }
  locks := ["legacy-claim-token-sealing"]

end Legacy

end LegacyTokens

end GhostKey

import GhostKey.KeyGates

/-!
# The Maturity Gate of the Claim Page

A guardian vault has three links: the heir's and one for each guardian. The page behind
any of them resolves its token and then asks for the vault's unlock estimate; it goes on
to the claim once the estimate says that the coins have matured. `resolve_claim` knows a
guardian's token from `vault_guardian_keys`, and `claim_unlock_estimate` does not look
there.

Main results:
- `atOnce_claimUnlockEstimate`: what the heir's token gets is the vault's estimate.
- `resolveClaim_accepts_iff`: when a live token resolves.
- `estimateFollows_iff`: when a token that resolves gets the vault's estimate too.
-/

namespace GhostKey

open Foundation Program Prog

/-! ## §1 Live tokens -/

section Tokens

variable (S : Server) (o : Oracle) (w : World) (token : Token) (r : VaultRow)

/-- What the vault's estimate is to whoever may ask for it. -/
def unlockAnswer : Except ApiError UnlockEstimateView :=
  match chainEstimate S o w r with
  | .error e => .error e.toApiError
  | .ok est => .ok (UnlockEstimateView.fromEstimate est w.clock)

/-- The token is a guardian's of this vault, and not an heir's. -/
def GuardianOnly (g : GuardianRow) : Prop :=
  GuardianToken S w token g r ∧ ∀ r', ¬ HeirToken S w token r'

/-- The token belongs to this vault, whose claim has not consumed it. -/
structure LiveToken : Prop where
  unused : r.life.claimTokenUsedAt = none
  holder : HeirToken S w token r ∨ ∃ g, GuardianOnly S w token r g

/-- The sealed contact of the heir cannot be opened. -/
def ContactUnreadable : Prop :=
  ∃ ct nonce, r.contacts.heir.ciphertext = some ct ∧ r.contacts.heir.nonce = some nonce ∧
    S.openForVault r.id ct nonce = .error ()

def Accepts {α : Type} (p : Prog α) : Prop := ∃ a, (atOnce p o w).1 = .ok a

/-- If the token resolves, the estimate endpoint gives it the vault's estimate. -/
def EstimateFollows : Prop :=
  Accepts o w (resolveClaim S token) →
    (atOnce (claimUnlockEstimate S token) o w).1 = unlockAnswer S o w r

end Tokens

section Answers

variable {S : Server} {o : Oracle} {w : World} {token : Token} {r : VaultRow} {g : GuardianRow}

theorem LiveToken.row (live : LiveToken S w token r) : w.vault? r.id = some r := by
  rcases live.holder with his | ⟨g, theirs, -⟩
  · exact his.row.1
  · exact theirs.row.1

theorem unlockAnswer_ne_notFound : unlockAnswer S o w r ≠ .error .notFound := by
  unfold unlockAnswer
  cases chainEstimate S o w r with
  | ok est => simp
  | error e => cases e <;> simp [BlockingErr.toApiError]

/-- No vault carries a guardian's token. -/
theorem GuardianOnly.unlisted (only : GuardianOnly S w token r g) :
    (Query.vaultByClaimToken (S.hashClaimToken token)).eval w.db = .ok none := by
  cases found : w.db.vaults.rows.find? fun r =>
      r.life.claimTokenHash = some (S.hashClaimToken token) with
  | none => exact congrArg Except.ok found
  | some r' => exact absurd (congrArg Except.ok found) (only.2 r')

/-! ## §2 The estimate -/

/-- What the heir's token gets is the vault's estimate. -/
theorem atOnce_claimUnlockEstimate (answers : o.dbFails = false) (valid : HeirToken S w token r)
    (unused : r.life.claimTokenUsedAt = none) :
    (atOnce (claimUnlockEstimate S token) o w).1 = unlockAnswer S o w r := by
  have looked := atOnce_unusedHeirRow answers valid unused
  have came : atOnce (unlockEstimateWithCache S r w.clock) o w =
      (.ok (chainEstimate S o w r), (atOnce (unlockEstimateWithCache S r w.clock) o w).2) :=
    Prod.ext (atOnce_unlockEstimateWithCache S o w r) rfl
  rw [claimUnlockEstimate, bind_eq, atOnce_ok_bind looked, bind_eq, atOnce_now_bind, bind_eq,
    atOnce_ok_bind came, unlockAnswer]
  cases chainEstimate S o w r <;> rfl

/-- A guardian's gets nothing. -/
theorem claimUnlockEstimate_notFound (answers : o.dbFails = false)
    (only : GuardianOnly S w token r g) :
    (atOnce (claimUnlockEstimate S token) o w).1 = .error .notFound := by
  have missed : atOnce (unusedHeirRow S token) o w = (.error .notFound, w) := by
    have nothing : atOnce (heirRow S token) o w = (.error .notFound, w) := by
      rw [heirRow, bind_eq, atOnce_query_bind answers only.unlisted]
      rfl
    unfold unusedHeirRow atOnce at *
    rw [bind_eq, atOnce_bind, nothing]
  unfold claimUnlockEstimate atOnce at *
  rw [bind_eq, atOnce_bind, missed]

/-! ## §3 Resolving -/

/-- At one moment the window check always comes to something. -/
theorem ensureClaimChallenge_accepts (answers : o.dbFails = false) (row : w.vault? r.id = some r) :
    Accepts o w (ensureClaimChallenge S r.id) := by
  unfold Accepts ensureClaimChallenge
  split
  · exact ⟨none, rfl⟩
  · rw [bind_eq, atOnce_now_bind, bind_eq, atOnce_vault_bind answers row]
    dsimp only [okOr]
    rw [bind_eq]
    dsimp only [Program.bind]
    split
    · exact ⟨_, rfl⟩
    · next unstamped =>
      -- an unstamped row takes the stamp, and the owner is told
      have guard : (VaultUpdate.stampClaimOpened w.clock).guard r = true := by
        simp [VaultUpdate.guard, unstamped]
      have one : w.db.affected r.id (.stampClaimOpened w.clock) = 1 :=
        (Db.updateVault_affected _ _ _).2 ⟨r, row, guard⟩
      have row' := World.vault?_update_self row guard
      rw [bind_eq, atOnce_update_bind answers, one]
      show ∃ a, (atOnce ((recordEvent _ _ _).bind _) o _).1 = .ok a
      rw [atOnce_recordEvent_bind answers row', bind_eq, atOnce_logged_bind]
      exact ⟨_, rfl⟩

/-- An unused token of the vault is refused for the heir's contact only. -/
theorem resolveMatched_accepts_iff (answers : o.dbFails = false) (row : w.vault? r.id = some r)
    (unused : r.life.claimTokenUsedAt = none) (slot : Option Nat) :
    Accepts o w (resolveMatched S r slot) ↔ ¬ ContactUnreadable S r := by
  obtain ⟨available, came⟩ := ensureClaimChallenge_accepts (S := S) answers row
  have checked : atOnce (ensureClaimChallenge S r.id) o w =
      (.ok available, (atOnce (ensureClaimChallenge S r.id) o w).2) := Prod.ext came rfl
  unfold Accepts resolveMatched ContactUnreadable
  simp only [unused, Option.isSome_none, Bool.false_eq_true, if_false, pure_eq, bind_eq, done_bind]
  rw [atOnce_ok_bind checked]
  cases ciphertext : r.contacts.heir.ciphertext with
  | none => simp
  | some ct =>
    cases nonce : r.contacts.heir.nonce with
    | none => simp
    | some n =>
      cases opened : S.openForVault r.id ct n with
      | ok text => simp [crypto, opened]
      | error e => simp [crypto, opened]

/-- A live token resolves while the database answers, unless the heir's contact cannot be
opened. -/
theorem resolveClaim_accepts_iff (live : LiveToken S w token r) :
    Accepts o w (resolveClaim S token) ↔ o.dbFails = false ∧ ¬ ContactUnreadable S r := by
  cases fails : o.dbFails with
  | true =>
    have refuses : Refuses (resolveClaim S token) o w := by
      unfold resolveClaim
      exact refuses_query_bind fails _
    have refused : ¬ Accepts o w (resolveClaim S token) :=
      fun accepts => not_refuses_iff.2 accepts refuses
    simpa using refused
  | false =>
    have matched : ∃ slot, Accepts o w (resolveClaim S token) ↔
        Accepts o w (resolveMatched S r slot) := by
      rcases live.holder with his | ⟨g, theirs⟩
      · refine ⟨none, ?_⟩
        rw [Accepts, resolveClaim, bind_eq, atOnce_query_bind fails his]
        simp [okOr, his.row.2, Server.claimTokenMatches, Accepts]
      · refine ⟨some g.slot, ?_⟩
        rw [Accepts, resolveClaim, bind_eq, atOnce_query_bind fails theirs.unlisted]
        dsimp only
        rw [bind_eq, atOnce_query_bind fails theirs.1]
        simp [okOr, theirs.1.row.2, Server.claimTokenMatches, Accepts]
    obtain ⟨slot, same⟩ := matched
    rw [same, resolveMatched_accepts_iff fails live.row live.unused]
    simp

/-! ## §4 Either link -/

/-- A live token that resolves gets the vault's estimate exactly when it is the heir's. -/
theorem estimateFollows_iff (live : LiveToken S w token r) :
    EstimateFollows S o w token r ↔
      HeirToken S w token r ∨ o.dbFails = true ∨ ContactUnreadable S r := by
  unfold EstimateFollows
  rw [resolveClaim_accepts_iff live]
  rcases live.holder with his | ⟨g, theirs⟩
  · simp only [his, true_or, iff_true]
    exact fun ⟨answers, _⟩ => atOnce_claimUnlockEstimate answers his live.unused
  · have foreign : ¬ HeirToken S w token r := theirs.2 r
    simp only [foreign, false_or]
    constructor
    · intro follows
      by_contra neither
      simp only [not_or, Bool.not_eq_true] at neither
      have got := follows neither
      rw [claimUnlockEstimate_notFound neither.1 theirs] at got
      exact unlockAnswer_ne_notFound got.symm
    · rintro (fails | unreadable) ⟨answers, readable⟩
      · rw [answers] at fails
        cases fails
      · exact absurd unreadable readable

end Answers

section Guarded

open Deployment

/-- The guardian vault whose guardian the token names, if it is unused and no heir's. -/
def guardianHolder (S : Server) (w : World) (token : Token) : Option VaultRow :=
  match (Query.vaultByClaimToken (S.hashClaimToken token)).eval w.db,
    (Query.guardianByClaimToken (S.hashClaimToken token)).eval w.db with
  | .ok none, .ok (some (_, r)) =>
    if r.life.claimTokenUsedAt = none ∧ r.settings.vaultKind = .guardian then some r else none
  | _, _ => none

theorem guardianHolder_spec {S : Server} {w : World} {token : Token} {r : VaultRow}
    (found : guardianHolder S w token = some r) :
    r.life.claimTokenUsedAt = none ∧ r.settings.vaultKind = .guardian ∧
      ∃ g, GuardianOnly S w token r g := by
  unfold guardianHolder at found
  split at found
  · next g r' unlisted theirs =>
    simp only [Option.ite_none_right_eq_some, Option.some.injEq] at found
    obtain ⟨⟨unused, kind⟩, rfl⟩ := found
    refine ⟨unused, kind, g, theirs, ?_⟩
    intro r'' his
    cases unlisted.symm.trans his
  · cases found

/-- A guardian opens the link of a mature vault: the page resolves, and stops there. -/
theorem not_estimateFollows :
    ¬ ∀ (S : Server) (t₀ : Instant) (tr : Trace) (c : Config Action Action.Response ApiError Reply
        World Request) (o : Oracle) (token : Token) (r : VaultRow), S.Lawful →
      Run (server S) (System.boot (World.start t₀)) tr c → r.settings.vaultKind = .guardian →
        LiveToken S c.world token r → EstimateFollows S o c.world token r := by
  intro follows
  obtain ⟨tr, c, run, check⟩ := reaches_of_play (host 86400) askedOnce
    (fun w => (guardianHolder (host 86400) w "second").isSome &&
      (atOnce (resolveClaim (host 86400) "second") (oracle "" [coin]) w).1.isOk)
    (by decide +kernel)
  simp only [Bool.and_eq_true] at check
  obtain ⟨present, resolved⟩ := check
  obtain ⟨r, found⟩ := Option.isSome_iff_exists.1 present
  obtain ⟨unused, kind, g, theirs⟩ := guardianHolder_spec found
  have accepts : Accepts (oracle "" [coin]) c.world (resolveClaim (host 86400) "second") := by
    apply not_refuses_iff.1
    rintro ⟨e, refused⟩
    rw [refused] at resolved
    cases resolved
  have got := follows _ 0 tr c _ "second" r (lawful 86400) run kind ⟨unused, .inr ⟨g, theirs⟩⟩
    accepts
  rw [claimUnlockEstimate_notFound rfl theirs] at got
  exact unlockAnswer_ne_notFound got.symm

/-- The heir's link of that vault gets the estimate. -/
theorem estimateFollows_iff_heir :
    ∃ w r, HeirToken (host 86400) w "sealed" r ∧
      EstimateFollows (host 86400) (oracle "" [coin]) w "sealed" r := by
  obtain ⟨tr, c, run, check⟩ := reaches_of_play (host 86400) askedOnce
    (fun w => sameVault (host 86400) w "sealed" "first" &&
      w.db.vaults.rows.all fun r => r.life.claimTokenUsedAt = none) (by decide +kernel)
  rw [Bool.and_eq_true] at check
  obtain ⟨same, fresh⟩ := check
  obtain ⟨r, g, his, theirs⟩ := tokens_of_sameVault same
  have unused : r.life.claimTokenUsedAt = none := by
    simpa using List.all_eq_true.1 fresh r (KeyedTable.find?_mem his.row.1)
  exact ⟨c.world, r, his, (estimateFollows_iff ⟨unused, .inl his⟩).2 (.inl his)⟩

end Guarded

end GhostKey

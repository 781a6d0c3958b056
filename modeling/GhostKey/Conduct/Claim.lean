import GhostKey.Conduct.Free

/-!
# Conduct of the Claim Routes

A route that releases or spends has matched its token to one vault, has been let
through by the window check of that vault and has not broadcast anything yet; a
spend has consumed the token as well.
-/

namespace GhostKey

open Foundation Program Prog

/-! ## §1 Matched and admitted -/

/-- The token has been matched to `v`, and nothing else was looked up or sent. -/
structure Matched (h : Hist) (v : VaultId) : Prop where
  loaded : Loaded h v
  only : ∀ w, Loaded h w → w = v
  quiet : Quiet h

/-- The window check of the matched vault has let the handler through. -/
structure Admitted (S : Server) (h : Hist) (v : VaultId) : Prop extends Matched h v where
  passed : WindowPassed S v h

variable {S : Server} {q : Request} {h g : Hist} {v : VaultId}

theorem Matched.since (matched : Matched h v) (grown : h <+: g) (since : FreeSince h g) :
    Matched g v :=
  ⟨matched.loaded.mono grown.subset, fun w loaded => matched.only w (since.loaded loaded),
    since.quiet matched.quiet⟩

theorem Admitted.since (admitted : Admitted S h v) (grown : h <+: g) (since : FreeSince h g) :
    Admitted S g v :=
  ⟨admitted.toMatched.since grown since, admitted.passed.mono grown⟩

/-- An action that is neither a lookup nor a broadcast changes nothing here. -/
theorem Admitted.snoc {a : Action} {r : a.Response} (admitted : Admitted S h v)
    (other : ∀ w, ¬ FoundByToken w ⟨a, r⟩) (silent : ¬ IsBroadcast ⟨a, r⟩) :
    Admitted S (h ++ [⟨a, r⟩]) v where
  loaded := admitted.loaded.mono (List.subset_append_left h _)
  only w loaded := by
    obtain ⟨e, mem, found⟩ := loaded
    rcases List.mem_append.1 mem with old | new
    · exact admitted.only w ⟨e, old, found⟩
    · rw [List.mem_singleton] at new
      exact absurd (new ▸ found) (other w)
  quiet e mem := by
    rcases List.mem_append.1 mem with old | new
    · exact admitted.quiet e old
    · rw [List.mem_singleton] at new
      exact new ▸ silent
  passed := admitted.passed.mono (List.prefix_append h _)

/-- A lookup that finds `v` matches it. -/
theorem Idle.matched {a : Action} {r : a.Response} (idle : Idle h)
    (found : FoundByToken v ⟨a, r⟩) (one : ∀ w, FoundByToken w ⟨a, r⟩ → w = v)
    (silent : ¬ IsBroadcast ⟨a, r⟩) : Matched (h ++ [⟨a, r⟩]) v where
  loaded := ⟨_, List.mem_append_right h (List.mem_singleton_self _), found⟩
  only w loaded := by
    obtain ⟨e, mem, hit⟩ := loaded
    rcases List.mem_append.1 mem with old | new
    · exact absurd ⟨e, old, hit⟩ (idle.2 w)
    · rw [List.mem_singleton] at new
      exact one w (new ▸ hit)
  quiet e mem := by
    rcases List.mem_append.1 mem with old | new
    · exact idle.1 e old
    · rw [List.mem_singleton] at new
      exact new ▸ silent

theorem Idle.matched_heir {hash : Hash} {r : VaultRow} (idle : Idle h) :
    Matched (h ++ [⟨.query (.vaultByClaimToken hash), .ok (some r)⟩]) r.id := by
  refine idle.matched (.heir rfl) ?_ ?_
  · rintro w ⟨rfl⟩
    rfl
  · rintro ⟨urls, tx, ⟨⟩⟩

theorem Idle.matched_guardian {hash : Hash} {g : GuardianRow} {r : VaultRow} (idle : Idle h) :
    Matched (h ++ [⟨.query (.guardianByClaimToken hash), .ok (some (g, r))⟩]) r.id := by
  refine idle.matched (.guardian rfl) ?_ ?_
  · rintro w (_ | ⟨rfl⟩)
    rfl
  · rintro ⟨urls, tx, ⟨⟩⟩

/-- A lookup of the heir's token that found nothing. -/
theorem Idle.missed {hash : Hash} (idle : Idle h) :
    Idle (h ++ [⟨.query (.vaultByClaimToken hash), .ok none⟩]) := by
  refine ⟨fun e mem => ?_, fun w loaded => ?_⟩
  · rcases List.mem_append.1 mem with old | new
    · exact idle.1 e old
    · rw [List.mem_singleton] at new
      subst new
      rintro ⟨urls, tx, ⟨⟩⟩
  · obtain ⟨e, mem, found⟩ := loaded
    rcases List.mem_append.1 mem with old | new
    · exact idle.2 w ⟨e, old, found⟩
    · rw [List.mem_singleton] at new
      subst new
      cases found

/-! ## §2 Lookup and window -/

variable (S q h)

theorem conducts_heirRow (token : Token) (byToken : q.byToken = true) (idle : Idle h) :
    Conducts S q (fun g r => Matched g r.id ∧ Seen g r) (heirRow S token) h := by
  refine .query byToken fun row => .okOr fun r found => .okOr fun storedHash _ => ?_
  subst found
  split
  · exact .done ⟨idle.matched_heir, .here (List.mem_singleton_self r)⟩
  · exact .fail

theorem conducts_unusedHeirRow (token : Token) (byToken : q.byToken = true) (idle : Idle h) :
    Conducts S q (fun g r => Matched g r.id ∧ Seen g r) (unusedHeirRow S token) h := by
  refine .bind (conducts_heirRow S q h token byToken idle) fun g r _ matched => ?_
  split
  · exact .fail
  · exact .done matched

/-- The window lets a handler through only on a stamp that is old enough. -/
theorem conducts_ensureClaimChallenge (matched : Matched h v) :
    Conducts S q (fun g available => available = none → Admitted S g v)
      (ensureClaimChallenge S v) h := by
  unfold ensureClaimChallenge
  split
  · next zero => exact .done fun _ => ⟨matched, .inl zero⟩
  · refine .now fun t => .query trivial fun row => .okOr fun r found => ?_
    subst found
    split
    · next opened stamped =>
      refine .done fun through => ⟨?_, .inr ⟨h ++ [⟨.now, t⟩], [], r, opened, t, ?_, ?_, stamped, ?_⟩⟩
      · exact matched.since (by simp) ((FreeSince.snoc rfl).trans (FreeSince.snoc rfl))
      · rfl
      · exact ClockRead.here
      · split at through
        · cases through
        · next late => exact not_lt.1 late
    · refine .update ⟨matched.loaded.mono (by simp), ClockRead.here.later⟩ fun rows => ?_
      dsimp only
      split
      · refine .skip (free_recordEvent (by decide)) fun g₁ _ _ _ => ?_
        refine .skip (free_logged (free_notifyClaimOpened S v)) fun g₂ _ _ _ => ?_
        exact .done fun through => by cases through
      · exact .done fun through => by cases through

theorem conducts_requireWindowElapsed (matched : Matched h v) :
    Conducts S q (fun g _ => Admitted S g v) (requireWindowElapsed S v) h := by
  refine .bind (conducts_ensureClaimChallenge S q h matched) fun g available _ through => ?_
  cases available with
  | some available => exact .fail
  | none => exact .done (through rfl)

theorem conducts_loadVaultForClaimToken (token : Token) (byToken : q.byToken = true)
    (idle : Idle h) :
    Conducts S q (fun g a => Admitted S g a.1.id) (loadVaultForClaimToken S token) h := by
  refine .bind (conducts_unusedHeirRow S q h token byToken idle) fun g₁ r _ matched => ?_
  refine .bind (conducts_requireWindowElapsed S q g₁ matched.1) fun g₂ _ _ admitted => ?_
  exact .skip (free_storedNetwork r) fun g₃ network grown since =>
    .done (admitted.since grown since)

theorem conducts_resolveMatched (r : VaultRow) (slot : Option Nat) (matched : Matched h r.id) :
    Conducts S q (fun _ _ => True) (resolveMatched S r slot) h := by
  have shown : ∀ (g : Hist) (claimAvailableAt : Option Instant) (claimedTxid : Option String),
      Conducts S q (fun _ _ => True) (matchedView S r slot claimAvailableAt claimedTxid) g := by
    intro g claimAvailableAt claimedTxid
    unfold matchedView
    split
    · exact .crypto fun _ _ => .done trivial
    · exact .done trivial
  unfold resolveMatched
  dsimp only
  split
  · split
    · exact .fail
    · exact .skip (.bind (free_query rfl) fun _ => trivial) fun g claimedTxid _ _ =>
        shown g none claimedTxid
  · refine .skip (.done none) fun g claimedTxid grown since => ?_
    exact .bind (conducts_ensureClaimChallenge S q g (matched.since grown since)) fun g' available _ _ =>
        shown g' available claimedTxid

theorem conducts_resolveClaim (token : Token) (byToken : q.byToken = true) (idle : Idle h) :
    Conducts S q (fun _ _ => True) (resolveClaim S token) h := by
  refine .query byToken fun row => ?_
  cases row with
  | some r =>
    refine .okOr fun storedHash _ => ?_
    split
    · exact .fail
    · exact conducts_resolveMatched S q _ r none idle.matched_heir
  | none =>
    refine .query byToken fun pair => .okOr fun found same => ?_
    subst same
    refine .okOr fun storedHash _ => ?_
    split
    · exact .fail
    · exact conducts_resolveMatched S q _ found.2 _ idle.missed.matched_guardian

theorem conducts_claimUnlockEstimate (token : Token) (byToken : q.byToken = true)
    (idle : Idle h) : Conducts S q (fun _ _ => True) (claimUnlockEstimate S token) h := by
  refine .bind (conducts_unusedHeirRow S q h token byToken idle) fun g r _ matched => .now fun t =>
    .bind (conducts_unlockEstimateWithCache (matched.2.mono (by simp)) ClockRead.here)
      fun _ est _ _ => ?_
  split
  · exact .fail
  · exact .done trivial

/-! ## §3 Key release -/

theorem conducts_getSealedHeirXprv (token : Token) (byToken : q.byToken = true) (idle : Idle h) :
    Conducts S q (fun g a => Admitted S g a.vaultId) (getSealedHeirXprv S token) h := by
  refine .bind (conducts_unusedHeirRow S q h token byToken idle) fun g₁ r _ matched => ?_
  refine .bind (conducts_requireWindowElapsed S q g₁ matched.1) fun g₂ _ grown admitted => ?_
  refine .bind (conducts_requireMatured (matched.2.mono grown.subset)) fun g₃ _ _ since => ?_
  exact .okOr fun ct _ => .okOr fun nonce _ => .done (admitted.since since.1 since.2)

theorem conducts_getSealedGuardianXprv (token : Token) (byToken : q.byToken = true)
    (idle : Idle h) :
    Conducts S q (fun g a => Admitted S g a.vaultId) (getSealedGuardianXprv S token) h := by
  refine .query byToken fun pair => .okOr fun found same => ?_
  subst same
  refine .okOr fun storedHash _ => ?_
  split
  · exact .fail
  · split
    · exact .fail
    · exact .bind (conducts_requireWindowElapsed S q _ idle.matched_guardian)
        fun _ _ _ admitted => .done admitted

theorem conducts_getHeirDerivationParams (token : Token) (byToken : q.byToken = true)
    (idle : Idle h) :
    Conducts S q (fun g a => Admitted S g a.vaultId) (getHeirDerivationParams S token) h := by
  refine .bind (conducts_unusedHeirRow S q h token byToken idle) fun g₁ r _ matched => ?_
  split
  · exact .fail
  · refine .bind (conducts_requireWindowElapsed S q g₁ matched.1) fun g₂ _ _ admitted => ?_
    exact .crypto fun _ _ => .okOr fun _ _ => .okOr fun _ _ => .validated fun _ _ =>
      .done admitted

theorem conducts_buildClaimPsbt (token : Token) (destination : String) (satPerVb : Option Nat)
    (byToken : q.byToken = true) (idle : Idle h) :
    Conducts S q (fun g a => Admitted S g a.vaultId)
      (buildClaimPsbt S token destination satPerVb) h := by
  refine .bind (conducts_loadVaultForClaimToken S q h token byToken idle)
    fun g₁ loaded _ admitted => ?_
  refine .skip (free_parseDestination S _ _ _) fun g₂ dest grown₂ since₂ => ?_
  refine .validated fun _ _ => .validated fun urls _ => .validated fun wallet _ =>
    .skip (free_ask rfl) fun g₃ answer grown₃ since₃ => ?_
  have still := (admitted.since grown₂ since₂).since grown₃ since₃
  split
  · exact .fail
  · refine .validated fun wallet _ => ?_
    split
    · exact .fail
    · refine .validated fun built _ => ?_
      exact .skip (free_recordEvent (by decide)) fun _ _ grown since =>
        .done (still.since grown since)

/-! ## §4 Spending -/

theorem conducts_consumeClaimToken (spends : q.spends = true) (admitted : Admitted S h v) :
    Conducts S q (fun g _ => Admitted S g v ∧ Consumed g v) (consumeClaimToken v) h := by
  refine .now fun t => ?_
  have still := admitted.since (List.prefix_append h [⟨.now, t⟩]) (FreeSince.snoc rfl)
  refine .update ⟨spends, still.loaded, still.passed, still.quiet⟩ fun rows => ?_
  split
  · exact .fail
  · next one =>
    refine .done ⟨still.snoc ?_ ?_, t, ?_⟩
    · rintro w ⟨⟩
    · rintro ⟨urls, tx, ⟨⟩⟩
    · rw [not_not.1 one]
      exact Ran.here

theorem conducts_releaseAndFail {α : Type} {P : Hist → α → Prop} (e : ApiError)
    (consumed : Consumed h v) : Conducts S q P (releaseAndFail v e : Prog α) h :=
  .logged (.run consumed fun _ => trivial) fun _ _ => .fail

/-- A consumed token either ends in a broadcast and a claimed vault or is released. -/
theorem conducts_spendAndPromote (setup : Except ApiError Unit) {plan : SpendPlan}
    (free : Free plan) (detail : Tx → Detail) (admitted : Admitted S h v)
    (consumed : Consumed h v) :
    Conducts S q (fun _ _ => True) (spendAndPromote v setup plan detail) h := by
  unfold spendAndPromote
  split
  · exact conducts_releaseAndFail S q h _ consumed
  · refine .skip free fun g planned grown since => ?_
    have still := admitted.since grown since
    have kept : Consumed g v := by
      obtain ⟨t, ran⟩ := consumed
      exact ⟨t, ran.mono grown.subset⟩
    split
    · exact conducts_releaseAndFail S q g _ kept
    · next tx urls =>
      refine .ask ⟨still.quiet, ?_, fun _ => ⟨v, still.loaded⟩⟩ fun sent => ?_
      · intro w loaded
        rw [still.only w loaded]
        exact ⟨still.passed, kept⟩
      · have later : Consumed (g ++ [⟨.ask (.broadcast urls tx), sent⟩]) v := by
          obtain ⟨t, ran⟩ := kept
          exact ⟨t, ran.mono (List.subset_append_left g _)⟩
        split
        · exact conducts_releaseAndFail S q _ _ later
        · refine .update ⟨later, urls, tx, ?_⟩ fun _ => ?_
          · exact List.mem_append_right g (List.mem_singleton_self _)
          · exact .skip (free_recordEvent (by decide)) fun _ _ _ _ => .done trivial

theorem free_drainPlan (config : VaultConfig) (wallet : Except String Wallet)
    (build : Wallet → Except String BuiltPsbt) : Free (drainPlan S config wallet build) := by
  unfold drainPlan
  split
  · trivial
  · refine .bind (free_ask rfl) fun answer => ?_
    split
    · trivial
    · split
      · trivial
      · split
        · trivial
        · split <;> trivial

theorem conducts_broadcastClaim (token : Token) (signedPsbt : String) (spends : q.spends = true)
    (byToken : q.byToken = true) (idle : Idle h) :
    Conducts S q (fun _ _ => True) (broadcastClaim S token signedPsbt) h := by
  refine .bind (conducts_loadVaultForClaimToken S q h token byToken idle)
    fun g₁ loaded _ admitted => .validated fun bytes _ => .validated fun psbt _ => ?_
  refine .bind (conducts_consumeClaimToken S q g₁ spends admitted) fun g₂ _ _ consumed => ?_
  exact conducts_spendAndPromote S q g₂ _ (.done _) _ consumed.1 consumed.2

theorem conducts_heirClaim (token : Token) (destination : String) (satPerVb : Option Nat)
    (heirXprv : String) (spends : q.spends = true) (byToken : q.byToken = true) (idle : Idle h) :
    Conducts S q (fun _ _ => True) (heirClaim S token destination satPerVb heirXprv) h := by
  refine .bind (conducts_loadVaultForClaimToken S q h token byToken idle)
    fun g₁ loaded _ admitted => ?_
  refine .skip (free_parseDestination S _ _ _) fun g₂ dest grown₂ since₂ => ?_
  refine .skip (free_parseXpriv S _ _ _) fun g₃ key grown₃ since₃ => ?_
  refine .bind (conducts_consumeClaimToken S q g₃ spends
    ((admitted.since grown₂ since₂).since grown₃ since₃)) fun g₄ _ _ consumed => ?_
  exact conducts_spendAndPromote S q g₄ _ (free_drainPlan S _ _ _) _ consumed.1 consumed.2

theorem conducts_guardianClaim (token : Token) (destination : String) (satPerVb : Option Nat)
    (heirXprv guardianXprv : String) (spends : q.spends = true) (byToken : q.byToken = true)
    (idle : Idle h) :
    Conducts S q (fun _ _ => True)
      (guardianClaim S token destination satPerVb heirXprv guardianXprv) h := by
  refine .bind (conducts_loadVaultForClaimToken S q h token byToken idle)
    fun g₁ loaded _ admitted => ?_
  refine .skip (free_parseDestination S _ _ _) fun g₂ dest grown₂ since₂ => ?_
  refine .skip (free_parseXpriv S _ _ _) fun g₃ heirKey grown₃ since₃ => ?_
  refine .skip (free_parseXpriv S _ _ _) fun g₄ guardianKey grown₄ since₄ => ?_
  have still := ((admitted.since grown₂ since₂).since grown₃ since₃).since grown₄ since₄
  refine .bind (conducts_consumeClaimToken S q g₄ spends still) fun g₅ _ _ consumed => ?_
  exact conducts_spendAndPromote S q g₅ _ (free_drainPlan S _ _ _) _ consumed.1 consumed.2

end GhostKey

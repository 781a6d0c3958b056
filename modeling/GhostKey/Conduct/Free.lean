import GhostKey.Conduct

/-!
# The Free Parts

Everything the handlers share that only reads, logs, mails or caches: contacts
and messages, the maturity estimate, invoices, the deposit ledger and the owner's
reminders.
-/

namespace GhostKey

open Foundation Program Prog

variable (S : Server)

/-! ## §1 Messages -/

theorem free_enqueueOwnerEmail (id : VaultId) {kind : NotificationKind}
    (other : kind ≠ .claimLink) : Free (enqueueOwnerEmail S id kind) := by
  refine .bind (free_query rfl) fun row => ?_
  cases row with
  | none => trivial
  | some r =>
    dsimp only
    split
    · trivial
    · refine .bind (free_crypto _) fun contact => ?_
      cases contact with
      | none => trivial
      | some contact =>
        dsimp only
        split
        · trivial
        · exact .bind (free_enqueue other) fun _ => trivial

theorem free_mintOrReuseOneTapToken (id : VaultId) (nowIso : Instant) :
    Free (mintOrReuseOneTapToken S id nowIso) := by
  refine .bind (free_query rfl) fun row => ?_
  cases row with
  | none => trivial
  | some r =>
    dsimp only
    split
    · trivial
    · refine .bind (free_ask rfl) fun token => .bind (free_exec rfl) fun rows => ?_
      split <;> trivial

theorem free_notifyClaimOpened (id : VaultId) : Free (notifyClaimOpened S id) := by
  refine .bind (free_query rfl) fun row => ?_
  cases row with
  | none => trivial
  | some r =>
    have trustedPart : Free (notifyTrusted S id r) := by
      refine .bind (free_crypto _) fun trusted => ?_
      cases trusted with
      | none => trivial
      | some trusted => exact free_enqueue (by decide)
    refine .bind (free_crypto _) fun owner => ?_
    cases owner with
    | none => exact trustedPart
    | some owner =>
      exact .bind free_now fun t =>
        .bind (free_mintOrReuseOneTapToken S id t) fun token =>
          .bind (free_enqueue (by decide)) fun _ => trustedPart

theorem free_notifyTrustedContactOfPanic (id : VaultId) :
    Free (notifyTrustedContactOfPanic S id) := by
  refine .bind (free_query rfl) fun row => ?_
  cases row with
  | none => trivial
  | some r =>
    refine .bind (free_crypto _) fun contact => ?_
    cases contact with
    | none => trivial
    | some trusted => exact free_enqueue (by decide)

theorem free_enqueueOwnerMessage (id : VaultId) {kind : NotificationKind}
    (contact : Option OwnerContact) (hasPush : Bool) (mailLink pushLink : Option String)
    (other : kind ≠ .claimLink) :
    Free (enqueueOwnerMessage S id kind contact hasPush mailLink pushLink) := by
  have push : Free (if hasPush then enqueue S id kind .webPush "webpush" pushLink else pure ()) := by
    split
    · exact free_enqueue other
    · trivial
  cases contact with
  | none => exact push
  | some c => exact .bind (free_enqueue other) fun _ => push

/-! ## §2 The maturity estimate -/

section Estimates

variable {S} {q : Request} {h : Hist} {r : VaultRow} {t : Instant}

theorem conducts_scanUnlockEstimate (network : Network) (clock : ClockRead h t) :
    Conducts S q (fun g scanned => h <+: g ∧ FreeSince h g ∧
      ∀ est, scanned = .ok est → Scanned g r t est) (scanUnlockEstimate S r network) h := by
  have failed : ∀ e : BlockingErr, Conducts S q (fun g scanned => h <+: g ∧ FreeSince h g ∧
      ∀ est, scanned = .ok est → Scanned g r t est)
      (.done (.error e) : Prog (Except BlockingErr UnlockEstimate)) h := fun e =>
    .done ⟨List.prefix_refl h, .refl, by rintro est ⟨⟩⟩
  unfold scanUnlockEstimate
  split
  · exact failed _
  · dsimp only
    split
    · exact failed _
    · split
      · exact failed _
      · refine .ask trivial fun answer => ?_
        cases answer with
        | error e => exact .done ⟨List.prefix_append h _, .snoc rfl, by rintro est ⟨⟩⟩
        | ok scan =>
          dsimp only
          split
          · exact .done ⟨List.prefix_append h _, .snoc rfl, by rintro est ⟨⟩⟩
          · refine .done ⟨List.prefix_append h _, .snoc rfl, ?_⟩
            rintro est ⟨⟩
            exact ⟨h, [], _, scan, rfl, clock, rfl⟩

/-- A handler that estimates goes by the fresh cache or by its own scan, and caches
nothing else. -/
theorem conducts_unlockEstimateWithCache (seen : Seen h r) (clock : ClockRead h t) :
    Conducts S q (fun g est => h <+: g ∧ FreeSince h g ∧
      ∀ e, est = .ok e → Estimated g r t e) (unlockEstimateWithCache S r t) h := by
  -- a fresh cache, a pause, a scan that fails or one that is cached
  unfold unlockEstimateWithCache
  split
  · next est cached =>
    refine .done ⟨List.prefix_refl h, .refl, ?_⟩
    rintro e ⟨⟩
    exact .inl cached
  · split
    · exact .done ⟨List.prefix_refl h, .refl, by rintro e ⟨⟩⟩
    · refine .perform trivial fun pause => ?_
      have paused : FreeSince h (h ++ [⟨.explorerPause t, pause⟩]) := .snoc rfl
      cases pause with
      | some secs => exact .done ⟨List.prefix_append h _, paused, by rintro e ⟨⟩⟩
      | none =>
        refine .bind (conducts_scanUnlockEstimate _ clock.later) fun g scanned _ since => ?_
        obtain ⟨grown, since, scan⟩ := since
        have grown := (List.prefix_append h _).trans grown
        have since := paused.trans since
        cases scanned with
        | error e =>
          dsimp only
          split
          · exact .perform trivial fun _ => .done ⟨grown.trans (List.prefix_append g _),
              since.trans (.snoc rfl), by rintro e ⟨⟩⟩
          · exact .done ⟨grown, since, by rintro e ⟨⟩⟩
        | ok est =>
          refine .perform trivial fun answered => .act ?_ fun cached => ?_
          · have later : g <+: g ++ [⟨.explorerAnswered, answered⟩] := List.prefix_append g _
            exact ⟨r, t, est, rfl, seen.mono (grown.trans later).subset,
              (scan est rfl).mono later, rfl⟩
          · -- whether the cache was written or not, the estimate stands
            have ended : ∀ k : Hist, g <+: k → FreeSince g k →
                Conducts S q (fun g est => h <+: g ∧ FreeSince h g ∧
                  ∀ e, est = .ok e → Estimated g r t e)
                  (.done (.ok est) : Prog (Except BlockingErr UnlockEstimate)) k := by
              refine fun k more free => .done ⟨grown.trans more, since.trans free, ?_⟩
              rintro e ⟨⟩
              exact .inr ((scan est rfl).mono more)
            cases cached <;>
              exact ended _ (by simp) ((FreeSince.snoc rfl).trans (FreeSince.snoc rfl))

theorem conducts_heirContactReady (seen : Seen h r) (clock : ClockRead h t) :
    Conducts S q (fun g gate => h <+: g ∧ (gate = .ready → GatePassed S g r) ∧
      (gate = .empty → FoundEmpty g r.id)) (heirContactReady S r t) h := by
  unfold heirContactReady
  split
  · next off =>
    refine .done ⟨List.prefix_refl h, fun _ => .inl ?_, by rintro ⟨⟩⟩
    simpa using off
  · refine .bind (conducts_unlockEstimateWithCache seen clock) fun g est _ since => ?_
    obtain ⟨grown, -, estimated⟩ := since
    cases est with
    | error e => exact .done ⟨grown, by rintro ⟨⟩, by rintro ⟨⟩⟩
    | ok est =>
      have here := estimated est rfl
      have clock := clock.mono grown.subset
      refine .done ⟨grown, fun ready => .inr ⟨t, est, clock, here, ready⟩, fun empty => ?_⟩
      refine ⟨r, t, est, rfl, seen.mono grown.subset, clock, here, ?_⟩
      unfold heirContactGate at empty
      split at empty
      · next nothing => simpa using nothing
      · split at empty <;> cases empty

theorem conducts_onchainFundsReady (seen : Seen h r) (clock : ClockRead h t) :
    Conducts S q (fun _ _ => True) (onchainFundsReady S r t) h := by
  unfold onchainFundsReady
  split
  · exact .done trivial
  · refine .bind (conducts_unlockEstimateWithCache seen clock) fun g est _ _ => ?_
    cases est <;> exact .done trivial

theorem conducts_requireMatured (seen : Seen h r) :
    Conducts S q (fun g _ => h <+: g ∧ FreeSince h g) (requireMatured S r) h := by
  refine .now fun t => .bind (conducts_unlockEstimateWithCache (seen.mono (by simp)) ClockRead.here)
    fun g est _ since => ?_
  have grown : h <+: g := (List.prefix_append h _).trans since.1
  have free : FreeSince h g := (FreeSince.snoc rfl).trans since.2.1
  cases est with
  | error e => exact .fail
  | ok est =>
    dsimp only
    split
    · exact .fail
    · exact .done ⟨grown, free⟩

end Estimates

/-! ## §3 Requests and their refusals -/

theorem free_oncePerPeriod (r : VaultRow) (t : Instant) : Free (oncePerPeriod S r t) := by
  unfold oncePerPeriod
  split
  · trivial
  · dsimp only; split <;> trivial

theorem free_storedNetwork (r : VaultRow) : Free (storedNetwork r) := by
  unfold storedNetwork
  split <;> trivial

theorem free_parseDestination (destination : String) (network : Network) (wrong : String) :
    Free (parseDestination S destination network wrong) := by
  refine .bind (free_validated _ _) fun dest => ?_
  split <;> trivial

theorem free_parseXpriv (field raw : String) (network : Network) :
    Free (parseXpriv S field raw network) := by
  refine .bind (free_validated _ _) fun key => ?_
  split <;> trivial

/-! ## §4 Invoices -/

theorem free_insertInvoice (id : VaultId) (invoice : CreatedInvoice) (type : InvoiceType) :
    Free (insertInvoice id invoice type) :=
  .bind free_now fun _ => .bind (free_exec rfl) fun _ => trivial

theorem free_createCheckinInvoice (id : VaultId) : Free (createCheckinInvoice S id) := by
  have mint : Free (mintCheckinInvoice S id) := by
    refine .bind (free_ask rfl) fun answer => ?_
    cases answer with
    | error e => trivial
    | ok invoice =>
      exact .bind (free_insertInvoice id invoice .checkin) fun _ =>
        .bind (free_recordEvent (by decide)) fun _ => trivial
  refine .bind (free_query rfl) fun cad => ?_
  split
  · trivial
  · split
    · trivial
    · split
      · trivial
      · cases cad with
        | none => exact mint
        | some r =>
          dsimp only
          split
          · exact mint
          · exact .bind free_now fun t => .bind (free_oncePerPeriod S r t) fun _ => mint

theorem free_verifyCheckinLinkToken (id : VaultId) (token : Token) :
    Free (verifyCheckinLinkToken S id token) := by
  refine .bind (free_query rfl) fun row => .bind (free_okOr _ _) fun r =>
    .bind (free_okOr _ _) fun storedHash => ?_
  split
  · trivial
  · split <;> trivial

theorem free_createInvoiceFromLink (id : VaultId) (token : Token) :
    Free (createInvoiceFromLink S id token) :=
  .bind (free_verifyCheckinLinkToken S id token) fun _ => free_createCheckinInvoice S id

theorem free_readInvoiceStatus (id : VaultId) (paymentHash : String) :
    Free (readInvoiceStatus id paymentHash) := by
  refine .bind (free_query rfl) fun row => .bind (free_okOr _ _) fun i => ?_
  split <;> trivial

theorem free_invoiceStatusFromLink (id : VaultId) (token : Token) (paymentHash : String) :
    Free (invoiceStatusFromLink S id token paymentHash) :=
  .bind (free_verifyCheckinLinkToken S id token) fun _ => free_readInvoiceStatus id paymentHash

theorem free_lnurlpCallback (id : VaultId) (amountMsat : Option Nat) (isPanic : Bool) :
    Free (lnurlpCallback S id amountMsat isPanic) := by
  refine .bind ((free_query rfl).attempt) fun found => ?_
  dsimp only
  split
  · trivial
  · trivial
  · split
    · trivial
    · split
      · trivial
      · split
        · trivial
        · split
          · trivial
          · refine .bind free_now fun t =>
              .bind ((free_query rfl).attempt) fun existing => ?_
            split
            · trivial
            · trivial
            · refine .bind (free_ask rfl) fun answer => ?_
              split
              · trivial
              · refine .bind ((free_insertInvoice id _ _).attempt) fun inserted => ?_
                split
                · trivial
                · exact .bind (free_logged (free_recordEvent (by decide))) fun _ => trivial

/-! ## §5 Reminders, notices and the ledger -/

theorem free_enqueuePreDeadlineReminder (r : VaultRow) (nowIso : Instant) :
    Free (enqueuePreDeadlineReminder S r nowIso) := by
  refine .bind (free_crypto _) fun contact => .bind (free_query rfl) fun pushes => ?_
  split
  · trivial
  · refine .bind (free_mintOrReuseOneTapToken S r.id nowIso) fun token => ?_
    cases token with
    | none => trivial
    | some token =>
      exact .bind (free_enqueueOwnerMessage S r.id _ _ _ _ (by decide)) fun _ =>
        .bind (free_exec rfl) fun _ => trivial

theorem free_enqueueAlarmOwner (r : VaultRow) (nowIso : Instant) :
    Free (enqueueAlarmOwner S r nowIso) := by
  refine .bind (free_crypto _) fun contact => .bind (free_query rfl) fun pushes => ?_
  split
  · trivial
  · exact .bind (free_mintOrReuseOneTapToken S r.id nowIso) fun token =>
      free_enqueueOwnerMessage S r.id _ _ _ _ (by decide)

theorem free_escalateVault (nowIso : Instant) (r : VaultRow) :
    Free (escalateVault S nowIso r) := by
  refine .bind (.attempt (.bind (free_crypto _) fun contact => ?_)) fun sent => ?_
  · cases contact with
    | none => trivial
    | some c =>
      exact .bind (free_mintOrReuseOneTapToken S r.id nowIso) fun token =>
        free_enqueue (by decide)
  · cases sent with
    | error e => trivial
    | ok _ => exact .bind (free_exec rfl) fun _ => trivial

theorem conducts_sendClaimReadyNotice {q : Request} {h : Hist} (t : Instant) (r : VaultRow)
    (openedAt : Instant) (seen : Seen h r) (clock : ClockRead h t) :
    Conducts S q (fun _ _ => True) (sendClaimReadyNotice S t r openedAt) h := by
  unfold sendClaimReadyNotice
  split
  · exact .done trivial
  · refine .bind (conducts_onchainFundsReady seen clock) fun g ready _ _ => ?_
    split
    · exact .done trivial
    · refine .free (.bind (free_exec rfl) fun rows => ?_)
      split
      · trivial
      · refine .bind (free_crypto _) fun contact => ?_
        cases contact with
        | none => trivial
        | some c =>
          dsimp only
          split
          · trivial
          · split
            · trivial
            · split
              · exact free_logged (free_enqueue (by decide))
              · exact .bind (free_crypto _) fun _ => free_logged (free_enqueue (by decide))

theorem free_insertDeposits (id : VaultId) (t : Instant) :
    ∀ (deposits : List ConfirmedDeposit) (recorded : Nat),
      Free (insertDeposits id t deposits recorded)
  | [], _ => trivial
  | d :: rest, recorded => by
    refine .bind ((free_exec rfl).attempt) fun inserted => ?_
    split
    · exact .bind (free_logged (free_recordEvent (by decide))) fun _ =>
        free_insertDeposits id t rest (recorded + 1)
    · exact free_insertDeposits id t rest recorded

theorem free_recordNewDeposits (id : VaultId) (deposits : List ConfirmedDeposit) (t : Instant) :
    Free (recordNewDeposits S id deposits t) := by
  refine .bind ((free_query rfl).attempt) fun prior =>
    .bind (free_insertDeposits id t deposits 0) fun recorded => ?_
  split
  · split
    · exact free_logged (free_enqueueOwnerEmail S id (by decide))
    · trivial
  · trivial

theorem free_recordSpentDeposits (id : VaultId) (stillUnspent : List String) (t : Instant) :
    Free (recordSpentDeposits id stillUnspent t) := by
  refine .bind ((free_query rfl).attempt) fun read => ?_
  split
  · trivial
  · trivial
  · refine .bind ((free_query rfl).attempt) fun spend => .forEach (fun d => ?_) _
    refine .bind ((free_exec rfl).attempt) fun stamped => ?_
    split
    · split
      · trivial
      · exact free_logged (free_recordEvent (by decide))
    · trivial

theorem free_getVaultBalance (id : VaultId) : Free (getVaultBalance S id) := by
  refine .bind (free_query rfl) fun row => .bind (free_okOr _ _) fun r =>
    .bind (free_storedNetwork r) fun network => .bind (free_validated _ _) fun _ =>
    .bind (free_validated _ _) fun urls => .bind (free_validated _ _) fun wallet =>
    .bind (free_ask rfl) fun answer => ?_
  cases answer with
  | error e => trivial
  | ok scan =>
    exact .bind (free_validated _ _) fun _ => .bind free_now fun t =>
      .bind (free_recordNewDeposits S id _ t) fun _ =>
      .bind (free_recordSpentDeposits id _ t) fun _ => trivial

end GhostKey

import GhostKey.Conduct.Free

/-!
# Conduct of the Scheduler

Every UPDATE of a tick is about a row of a batch the tick has read, and every
link it mails follows the UPDATE that opens the claim, whatever that one's result.
-/

namespace GhostKey

open Foundation Program Prog

variable {S : Server} {q : Request} {h : Hist}

/-! ## §1 Freezes and funding -/

theorem conducts_unfreezeExpiredPanics (nowIso : Instant) (clock : ClockRead h nowIso) :
    Conducts S .schedulerTick (fun _ _ => True) (unfreezeExpiredPanics nowIso) h := by
  refine .query trivial fun rows => .forEach fun r mem g grown => ?_
  have read : Read g (.expiredPanics nowIso) rows := Read.here.mono grown.subset
  refine .update ⟨rfl, nowIso, rows, r, clock.later.mono grown.subset, read, mem, rfl⟩ fun _ => ?_
  exact .free (free_recordEvent (by decide))

theorem free_holdActivation (id : VaultId) : Free (holdActivation id) := by
  refine .bind (free_query rfl) fun already => ?_
  split
  · trivial
  · exact free_recordEvent (by decide)

theorem conducts_activateFunded {rows : List VaultRow} {r : VaultRow} {t : Instant}
    {est : UnlockEstimate} (batch : Read h .unfundedVaults rows) (mem : r ∈ rows)
    (clock : ClockRead h t) (confirmed : ownerEmailUnconfirmed r.contacts = false)
    (estimated : Estimated h r t est) (funded : est.hasUnspent = true) :
    Conducts S .schedulerTick (fun _ _ => True) (activateFunded S r t) h := by
  refine .update ⟨rfl, rows, r, t, batch, mem, rfl, clock, rfl, rfl, confirmed, est, estimated,
    funded⟩ fun n => ?_
  split
  · exact .done trivial
  · exact .free (.bind (free_recordEvent (by decide)) fun _ =>
      free_logged (free_enqueueOwnerEmail S r.id (by decide)))

theorem conducts_activateFundedVaults :
    Conducts S .schedulerTick (fun _ _ => True) (activateFundedVaults S) h := by
  refine .query trivial fun rows => .now fun t => .forEach fun r mem g grown => ?_
  have batch : Read g .unfundedVaults rows := Read.here.later.mono grown.subset
  refine .bind (conducts_unlockEstimateWithCache ⟨_, rows, batch, mem⟩
    (ClockRead.here.mono grown.subset)) fun g' est _ since => ?_
  obtain ⟨grown', -, estimated⟩ := since
  have whole := (grown.trans grown').subset
  split
  · exact .done trivial
  · next est =>
    split
    · exact .done trivial
    · next funded =>
      split
      · exact .free (free_holdActivation r.id)
      · next confirmed =>
        exact conducts_activateFunded (batch.mono grown'.subset) mem (ClockRead.here.mono whole)
          (by simpa using confirmed) (estimated est rfl) (by simpa using funded)

theorem conducts_returnEmptyVaultToUnfunded (id : VaultId) (fromStatus : Status) (record : Bool)
    (warranted : Warranted S q h id (.returnEmpty fromStatus)) :
    Conducts S q (fun _ _ => True) (returnEmptyVaultToUnfunded id fromStatus record) h := by
  refine .update warranted fun n => ?_
  dsimp only
  split
  · exact .done trivial
  · split
    · exact .skip (free_recordEvent (by decide)) fun _ _ _ _ => .done trivial
    · exact .done trivial

theorem conducts_retireIfEmpty {r : VaultRow} {fromStatus : Status} {record : Bool} {t : Instant}
    (seen : Seen h r) (clock : ClockRead h t)
    (expected : ∀ g, h <+: g → FoundEmpty g r.id → Warranted S q g r.id (.returnEmpty fromStatus)) :
    Conducts S q (fun _ _ => True) (retireIfEmpty S r fromStatus record t) h := by
  refine .bind (conducts_unlockEstimateWithCache seen clock) fun g est _ since => ?_
  obtain ⟨grown, -, estimated⟩ := since
  split
  · exact .done trivial
  · next est =>
    split
    · exact .done trivial
    · next empty =>
      refine .bind (conducts_returnEmptyVaultToUnfunded r.id fromStatus record
        (expected g grown ?_)) fun _ _ _ _ => .done trivial
      exact ⟨r, t, est, rfl, seen.mono grown.subset, clock.mono grown.subset, estimated est rfl,
        by simpa using empty⟩

theorem conducts_retireDrainedVaults :
    Conducts S q (fun _ _ => True) (retireDrainedVaults S) h :=
  .query trivial fun rows => .now fun _ => .forEach fun _ mem _ grown =>
    conducts_retireIfEmpty ⟨_, rows, Read.here.later.mono grown.subset, mem⟩
      (ClockRead.here.mono grown.subset) fun _ _ empty => ⟨empty, .inl rfl⟩

theorem conducts_standDownNeverFundedVaults :
    Conducts S q (fun _ _ => True) (standDownNeverFundedVaults S) h :=
  .query trivial fun rows => .now fun _ => .forEach fun r mem _ grown =>
    conducts_retireIfEmpty ⟨_, rows, Read.here.later.mono grown.subset, mem⟩
      (ClockRead.here.mono grown.subset) fun _ grown' empty =>
        ⟨empty, .inr (.inr ⟨rows, r, Read.here.later.mono (grown.trans grown').subset, mem, rfl⟩)⟩

/-! ## §2 Reminders and alarms -/

theorem conducts_issuePreDeadlineReminders (nowIso : Instant) :
    Conducts S q (fun _ _ => True) (issuePreDeadlineReminders S nowIso) h :=
  .query trivial fun _ => .forEach fun r _ _ _ =>
    .free (free_logged (free_enqueuePreDeadlineReminder S r nowIso))

theorem conducts_transitionOkToAlarmed (nowIso : Instant) (clock : ClockRead h nowIso) :
    Conducts S .schedulerTick (fun _ _ => True) (transitionOkToAlarmed S nowIso) h := by
  refine .query clock fun due => .forEach fun d mem g grown => ?_
  refine .update ⟨rfl, nowIso, due, d, Read.here.mono grown.subset, mem, rfl⟩ fun _ => ?_
  exact .free (.bind (free_recordEvent (by decide)) fun _ =>
    free_logged (free_enqueueAlarmOwner S d.1 nowIso))

theorem conducts_sendAlarmEscalations (nowIso : Instant) :
    Conducts S q (fun _ _ => True) (sendAlarmEscalations S nowIso) h :=
  .query trivial fun _ => .forEach fun d _ _ _ => .free (free_escalateVault S nowIso d.1)

/-! ## §3 The trigger -/

theorem conducts_triggerToken (r : VaultRow) :
    Conducts S q (fun _ a => TriggerToken S r a.1 a.2.1 a.2.2) (triggerToken S r) h := by
  unfold triggerToken
  split
  · next stored atRest =>
    exact .crypto fun token opened => .done ⟨stored, atRest, opened, rfl⟩
  · next missing => exact .ask trivial fun token => .done ⟨missing, rfl⟩

/-- Enqueueing a claim link for a claim this tick has tried to open. -/
theorem conducts_claimLink {r : VaultRow} {token own : Token} {hash : Hash} {n : Nat}
    {channel : Channel} {recipient : String}
    (opened : OpenedClaim S h r token hash n)
    (link : ClaimLinkFor S h r.id token (some (S.claimUrl own))) :
    Conducts S .schedulerTick (fun _ _ => True)
      (enqueue S r.id .claimLink channel recipient (some (S.claimUrl own))) h := by
  refine .crypto fun _ _ => .now fun t => .exec (fun _ => ⟨rfl, r, token, hash, n, rfl, ?_, ?_⟩)
    fun _ => .done trivial
  · exact opened.mono (List.prefix_append h _)
  · exact link.mono (List.subset_append_left h _)

theorem conducts_enqueueClaimLink {r : VaultRow} {token : Token} {hash : Hash} {n : Nat}
    (opened : OpenedClaim S h r token hash n) :
    Conducts S .schedulerTick (fun _ _ => True) (enqueueClaimLink S r token) h := by
  refine .crypto fun contact _ => ?_
  split
  · exact .done trivial
  · split
    · exact conducts_claimLink opened (.inl rfl)
    · exact .done trivial

theorem conducts_enqueueGuardianClaimLinks {r : VaultRow} {token : Token} {hash : Hash} {n : Nat}
    (opened : OpenedClaim S h r token hash n) :
    Conducts S .schedulerTick (fun _ _ => True) (enqueueGuardianClaimLinks S r.id) h := by
  refine .query trivial fun rows => .forEach fun gu mem g grown => ?_
  unfold enqueueGuardianClaimLink
  split
  · exact .done trivial
  · next stored atRest =>
    refine .crypto fun own own_opened => .crypto fun contact _ => ?_
    split
    · exact .done trivial
    · refine conducts_claimLink (opened.mono ((List.prefix_append h _).trans grown)) ?_
      exact .inr ⟨rows, gu, stored, own, Read.here.mono grown.subset, mem, atRest, own_opened, rfl⟩

theorem conducts_openClaim {nowIso : Instant} {r : VaultRow} (due : DueClaim h nowIso r)
    (passed : GatePassed S h r) :
    Conducts S .schedulerTick (fun _ _ => True) (openClaim S nowIso r) h := by
  refine .bind (conducts_triggerToken r) fun g a grown trigger => ?_
  obtain ⟨token, hash, reused⟩ := a
  have due' := due.mono grown.subset
  refine .update ?_ fun n => ?_
  · cases reused with
    | true => exact ⟨rfl, r, token, due', rfl, trigger, passed.mono grown⟩
    | false => exact ⟨rfl, r, token, due', rfl, trigger, passed.mono grown⟩
  · have opened : OpenedClaim S
        (g ++ [⟨.exec (.updateVault r.id (triggerUpdate hash reused nowIso)), .ok n⟩])
        r token hash n :=
      ⟨g, [], nowIso, reused, rfl, due', trigger⟩
    refine .bind (P := fun _ _ => True) (.now fun t => .exec (fun _ => .inr ⟨rfl, r, token, hash, n,
      rfl, opened.mono (List.prefix_append _ _), List.mem_cons_self⟩) fun _ => .done trivial)
      fun g₁ _ grown₁ _ => ?_
    refine .logged (conducts_enqueueClaimLink (opened.mono grown₁)) fun g₂ grown₂ => ?_
    have opened₂ := opened.mono (grown₁.trans grown₂)
    exact .bind (P := fun _ _ => True) (Meets.attempt (conducts_enqueueGuardianClaimLinks opened₂)
      fun _ _ _ _ _ => trivial) fun _ _ _ _ => .done trivial

theorem conducts_triggerVault {nowIso : Instant} {r : VaultRow} (due : DueClaim h nowIso r) :
    Conducts S .schedulerTick (fun _ _ => True) (triggerVault S nowIso r) h := by
  have seen : Seen h r := by
    obtain ⟨rows, read, mem⟩ := due
    exact ⟨.claimEligible nowIso, rows, read, mem⟩
  refine .now fun t => .bind (conducts_heirContactReady (seen.mono (by simp)) ClockRead.here)
    fun g gate _ since => ?_
  obtain ⟨grown, passed, empty⟩ := since
  split
  · exact .done trivial
  · exact .bind (conducts_returnEmptyVaultToUnfunded r.id .alarmed true
      ⟨empty rfl, .inr (.inl rfl)⟩) fun _ _ _ _ => .done trivial
  · exact conducts_openClaim (due.mono ((List.prefix_append h _).trans grown).subset) (passed rfl)

theorem conducts_transitionAlarmedToClaimable (nowIso : Instant) (clock : ClockRead h nowIso) :
    Conducts S .schedulerTick (fun _ _ => True) (transitionAlarmedToClaimable S nowIso) h :=
  .query clock fun due => .forEach fun _ mem _ grown =>
    conducts_triggerVault ⟨due, Read.here.mono grown.subset, mem⟩

/-! ## §4 The tick -/

theorem conducts_sendClaimReadyNotices :
    Conducts S q (fun _ _ => True) (sendClaimReadyNotices S) h := by
  unfold sendClaimReadyNotices
  split
  · exact .done trivial
  · exact .query trivial fun rows => .now fun t => .forEach fun d mem _ grown =>
      conducts_sendClaimReadyNotice S t d.1 d.2
        ⟨_, rows, Read.here.later.mono grown.subset, List.mem_map_of_mem mem⟩
        (ClockRead.here.mono grown.subset)

theorem conducts_tickOwnerSteps (nowIso : Instant) (clock : ClockRead h nowIso) :
    Conducts S .schedulerTick (fun _ _ => True) (tickOwnerSteps S nowIso) h := by
  refine .bind (conducts_unfreezeExpiredPanics nowIso clock) fun g₁ _ grown₁ _ => ?_
  refine .bind conducts_activateFundedVaults fun g₂ _ grown₂ _ => ?_
  refine .bind conducts_retireDrainedVaults fun g₃ _ grown₃ _ => ?_
  refine .bind conducts_standDownNeverFundedVaults fun g₄ _ grown₄ _ => ?_
  refine .bind (conducts_issuePreDeadlineReminders nowIso) fun g₅ _ grown₅ _ => ?_
  have grown := (((grown₁.trans grown₂).trans grown₃).trans grown₄).trans grown₅
  refine .bind (conducts_transitionOkToAlarmed nowIso (clock.mono grown.subset))
    fun g₆ _ _ _ => ?_
  exact conducts_sendAlarmEscalations nowIso

theorem free_probeLightning : Free (probeLightning S) := by
  unfold probeLightning
  cases S.lightningEnabled with
  | true => exact free_ask rfl
  | false => trivial

theorem conducts_tickOnce : Conducts S .schedulerTick (fun _ _ => True) (tickOnce S) h := by
  refine .now fun nowIso => ?_
  refine .bind (conducts_tickOwnerSteps nowIso ClockRead.here) fun g₁ _ grown₁ _ => ?_
  refine .skip free_probeLightning fun g₂ lnHealthy grown₂ _ => .now fun t => ?_
  refine .skip (.perform rfl) fun g₃ suppressHeirContact grown₃ _ => ?_
  split
  · exact .done trivial
  · have grown := ((grown₁.trans grown₂).trans (List.prefix_append g₂ _)).trans grown₃
    exact .bind (conducts_transitionAlarmedToClaimable nowIso
      (ClockRead.here.mono grown.subset)) fun _ _ _ _ => conducts_sendClaimReadyNotices

end GhostKey

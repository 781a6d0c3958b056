import GhostKey.Conduct.Claim
import GhostKey.Conduct.Owner
import GhostKey.Conduct.Scheduler

/-!
# Conduct of Every Request

The handlers together: whatever a thread of a run does next was justified by its
own history, and whatever key material it releases it was admitted to.

Main results:
- `conduct`: every request conducts itself.
- `Runs.justified`, `Runs.admitted`: the same at a position of a run.
-/

namespace GhostKey

open Foundation Program Prog

/-- The vault whose key material or spend a reply hands out. -/
def Reply.releases : Reply → Option VaultId
  | sealedHeir v => some v.vaultId
  | sealedGuardian v => some v.vaultId
  | derivationParams v => some v.vaultId
  | claimPsbt r => some r.vaultId
  | _ => none

/-- What a handler has seen when it answers. -/
def Answered (S : Server) (h : Hist) (r : Except ApiError Reply) : Prop :=
  ∀ reply v, r = .ok reply → reply.releases = some v → Loaded h v ∧ WindowPassed S v h

section Reply

variable {S : Server} {q : Request} {h : Hist} {α : Type} {P : Hist → α → Prop} {p : Prog α}
  {wrap : α → Reply}

theorem answered_reply (meets : Conducts S q P p h)
    (releases : ∀ g a v, P g a → (wrap a).releases = some v → Loaded g v ∧ WindowPassed S v g) :
    Meets (fun h e => Justified S q h e.action) (fun g r => Answered S g r) (p.reply wrap) h := by
  refine Meets.bind meets (fun g a _ yields => ?_) ?_
  · rintro reply v ⟨⟩ hands
    exact releases g a v (yields a rfl) hands
  · rintro g e - - reply v ⟨⟩

/-- A reply that hands nothing out. -/
theorem answered_plain (meets : Conducts S q P p h) (plain : ∀ a, (wrap a).releases = none) :
    Meets (fun h e => Justified S q h e.action) (fun g r => Answered S g r) (p.reply wrap) h :=
  answered_reply meets fun g a v _ hands => by
    rw [plain] at hands
    cases hands

end Reply

/-- Every request conducts itself. -/
theorem conduct (S : Server) (q : Request) :
    Meets (fun h e => Justified S q h e.action) (fun g r => Answered S g r) (q.program S) [] := by
  -- one case per request, each settled where its handler is modelled
  cases q with
  | createVault req => exact answered_plain (conducts_createVault S _ _ req) fun _ => rfl
  | createVaultFromXpub req =>
    exact answered_plain (conducts_createVaultFromXpub S _ _ req) fun _ => rfl
  | createVaultGuardian req =>
    exact answered_plain (conducts_createVaultGuardian S _ _ req) fun _ => rfl
  | checkin id => exact answered_plain (conducts_checkin S _ _ id) fun _ => rfl
  | checkinFromLink id token =>
    exact answered_plain (conducts_checkinFromLink S _ _ id token) fun _ => rfl
  | issueClaim id => exact answered_plain (conducts_issueClaim S _ id) fun _ => rfl
  | deleteVault id => exact answered_plain (conducts_deleteVault S _ _ id) fun _ => rfl
  | createInvoice id =>
    exact answered_plain (.free (free_createCheckinInvoice S id)) fun _ => rfl
  | createInvoiceFromLink id token =>
    exact answered_plain (.free (free_createInvoiceFromLink S id token)) fun _ => rfl
  | invoiceStatusFromLink id token paymentHash =>
    exact answered_plain (.free (free_invoiceStatusFromLink S id token paymentHash)) fun _ => rfl
  | lnurlpCallback id amount isPanic =>
    exact answered_plain (.free (free_lnurlpCallback S id amount isPanic)) fun _ => rfl
  | resolveClaim token =>
    exact answered_plain (conducts_resolveClaim S _ _ token rfl .nil) fun _ => rfl
  | claimUnlockEstimate token =>
    exact answered_plain (conducts_claimUnlockEstimate S _ _ token rfl .nil) fun _ => rfl
  -- the answers that show a vault also say what was asked before
  | sealedHeir token =>
    refine answered_reply (conducts_getSealedHeirXprv S _ _ token rfl .nil) ?_
    rintro g a v admitted ⟨⟩
    exact ⟨admitted.loaded, admitted.passed⟩
  | sealedGuardian token =>
    refine answered_reply (conducts_getSealedGuardianXprv S _ _ token rfl .nil) ?_
    rintro g a v admitted ⟨⟩
    exact ⟨admitted.loaded, admitted.passed⟩
  | heirDerivationParams token =>
    refine answered_reply (conducts_getHeirDerivationParams S _ _ token rfl .nil) ?_
    rintro g a v admitted ⟨⟩
    exact ⟨admitted.loaded, admitted.passed⟩
  | buildClaimPsbt token destination fee =>
    refine answered_reply (conducts_buildClaimPsbt S _ _ token destination fee rfl .nil) ?_
    rintro g a v admitted ⟨⟩
    exact ⟨admitted.loaded, admitted.passed⟩
  | broadcastClaim token psbt =>
    exact answered_plain (conducts_broadcastClaim S _ _ token psbt rfl rfl .nil) fun _ => rfl
  | heirClaim token destination fee key =>
    exact answered_plain (conducts_heirClaim S _ _ token destination fee key rfl rfl .nil)
      fun _ => rfl
  | guardianClaim token destination fee heirKey guardianKey =>
    exact answered_plain
      (conducts_guardianClaim S _ _ token destination fee heirKey guardianKey rfl rfl .nil)
      fun _ => rfl
  | ownerSend id destination amount fee key =>
    exact answered_plain (conducts_ownerSend S _ _ id destination amount fee key rfl .nil)
      fun _ => rfl
  | vaultBalance id => exact answered_plain (.free (free_getVaultBalance S id)) fun _ => rfl
  | schedulerTick => exact answered_plain conducts_tickOnce fun _ => rfl
  | pollerTick => exact answered_plain (conducts_pollerTick S _ _) fun _ => rfl

/-! ## At a position of a run -/

section Positions

variable {S : Server} {t₀ : Instant} {tr : Trace} {s : SrvStep} {i k : Nat}

theorem Runs.explains_at (runs : Runs S t₀ tr) (at_k : tr[k]? = some s) :
    (server S).Explains s := by
  obtain ⟨c, run⟩ := runs
  exact run.explains_at at_k

theorem Runs.justified (runs : Runs S t₀ tr) (at_k : tr[k]? = some s) {a : Action}
    {r : a.Response} (did : Did i a r s) :
    ∃ q, Started i q (tr.take k) ∧ Justified S q (history i k tr) a := by
  obtain ⟨c, run⟩ := runs
  exact run.acted_at (S := server S) (I := fun q h e => Justified S q h e.action)
    (F := fun _ g r => Answered S g r) (conduct S) at_k did

theorem Runs.admitted (runs : Runs S t₀ tr) (at_k : tr[k]? = some s) {reply : Reply}
    {v : VaultId} (returned : s.label = .returned i (.ok reply))
    (releases : reply.releases = some v) :
    Loaded (history i k tr) v ∧ WindowPassed S v (history i k tr) := by
  obtain ⟨c, run⟩ := runs
  obtain ⟨q, -, answered⟩ := run.returned_at (S := server S)
    (I := fun q h e => Justified S q h e.action) (F := fun _ g r => Answered S g r) (conduct S)
    at_k returned
  exact answered reply v rfl releases

end Positions

end GhostKey

import GhostKey.Alone
import GhostKey.Conduct.Requests
import GhostKey.Foundation.Obligation

/-!
# The Alert of an Opened Window

The first claim request of a cycle stamps the challenge window. It then records the
opening and sets about alerting the owner, and it does so before it returns: every
request that has returned has alerted the owner of each window it stamped, unless the
event was refused.

Main results:
- `alerts_ensureClaimChallenge`: the window check completes what it opens.
- `Runs.alerted`: what a request that has stamped a window has done when it returns.
-/

namespace GhostKey

open Foundation Program Prog Obligation

/-! ## §1 Alerts and what is owed -/

/-- The UPDATE that stamps the window of `v`, with the row hit. -/
def stamped (v : VaultId) (opened : Instant) : Ev :=
  ⟨.exec (.updateVault v (.stampClaimOpened opened)), .ok 1⟩

/-- The opening of `v` was recorded, and then `notify_claim_opened` asked for the row
that holds the owner's contact. -/
def Alerted (v : VaultId) (h : Hist) : Prop :=
  ∃ h₁ h₂ ev n res, h = h₁ ++ ⟨.exec (.insertEvent ev), .ok n⟩ :: h₂ ∧ ev.vaultId = v ∧
    ev.kind = .claimOpened ∧ (⟨.query (.vault v), res⟩ : Ev) ∈ h₂

/-- The database refused the event of an opening. -/
def OpeningRefused (h : Hist) : Prop :=
  ∃ ev e, ev.kind = .claimOpened ∧ (⟨.exec (.insertEvent ev), .error e⟩ : Ev) ∈ h

theorem Alerted.append {v : VaultId} {h : Hist} (alerted : Alerted v h) (more : Hist) :
    Alerted v (h ++ more) := by
  obtain ⟨h₁, h₂, ev, n, res, rfl, id, kind, mem⟩ := alerted
  exact ⟨h₁, h₂ ++ more, ev, n, res, by simp, id, kind, List.mem_append_left more mem⟩

theorem OpeningRefused.append {h : Hist} (refused : OpeningRefused h) (more : Hist) :
    OpeningRefused (h ++ more) := by
  obtain ⟨ev, e, kind, mem⟩ := refused
  exact ⟨ev, e, kind, List.mem_append_left more mem⟩

/-- Every stamp is to be followed by its alert, unless its event is refused. -/
def openingObligation : Obligation Action Action.Response where
  owes e := ∃ v opened, e = stamped v opened
  settles _ e after := ∃ v opened, e = stamped v opened ∧ (Alerted v after ∨ OpeningRefused after)
  later := by
    rintro before e after more ⟨v, opened, same, done⟩
    exact ⟨v, opened, same, done.imp (·.append more) (·.append more)⟩

/-- Whatever the responses, `p` alerts the owner of every window it stamps. -/
abbrev Alerts {α : Type} (p : Prog α) (h : Hist) : Prop :=
  openingObligation.Settles (fun _ _ => True) p h

/-- The action stamps a window. -/
def Action.stamps : Action → Bool
  | exec (.updateVault _ (.stampClaimOpened _)) => true
  | _ => false

theorem not_owes_of_not_stamps (a : Action) (r : a.Response) (other : a.stamps = false) :
    ¬ openingObligation.owes ⟨a, r⟩ := by
  rintro ⟨v, opened, same⟩
  cases same
  cases other

/-! ## §2 Parts without a stamp -/

/-- Programs that stamp no window. -/
abbrev Stampless {α : Type} (p : Prog α) : Prop := p.Only fun a => a.stamps = false

theorem Alerts.stampless {α : Type} {p : Prog α} {h : Hist} (only : Stampless p) : Alerts p h :=
  .free only not_owes_of_not_stamps fun _ _ _ _ => trivial

theorem free_of_stampless {h : Hist} (stampless : ∀ e ∈ h, e.action.stamps = false) :
    ∀ e ∈ h, ¬ openingObligation.owes e := fun e mem =>
  not_owes_of_not_stamps e.action e.response (stampless e mem)

theorem stampless_of_free {α : Type} {p : Prog α} (free : Free p) : Stampless p := by
  refine free.mono fun a free => ?_
  unfold Action.stamps
  split
  · cases free
  · rfl

section Parts

variable (S : Server) (v : VaultId)

theorem stampless_unlockEstimateWithCache (r : VaultRow) (t : Instant) :
    Stampless (unlockEstimateWithCache S r t) := by
  refine (sure_unlockEstimateWithCache S r t).only.mono fun a estimates => ?_
  unfold Action.stamps
  split
  · cases estimates
  · rfl

theorem stampless_requireMatured (r : VaultRow) : Stampless (requireMatured S r) := by
  refine .bind (.perform rfl) fun t => .bind (stampless_unlockEstimateWithCache S r t) fun est => ?_
  cases est with
  | error e => trivial
  | ok est =>
    dsimp only
    split <;> trivial

theorem stampless_heirRow (token : Token) : Stampless (heirRow S token) := by
  refine .bind (only_query rfl) fun row => .bind (only_okOr _ _) fun r =>
    .bind (only_okOr _ _) fun storedHash => ?_
  split <;> trivial

theorem stampless_unusedHeirRow (token : Token) : Stampless (unusedHeirRow S token) := by
  refine .bind (stampless_heirRow S token) fun r => ?_
  split <;> trivial

theorem stampless_consumeClaimToken : Stampless (consumeClaimToken v) := by
  refine .bind (.perform rfl) fun t => .bind (only_exec rfl) fun rows => ?_
  split <;> trivial

theorem stampless_releaseAndFail {α : Type} (e : ApiError) :
    Stampless (releaseAndFail v e : Prog α) :=
  .bind (.bind (.attempt (only_exec rfl)) fun _ => trivial) fun _ => trivial

theorem stampless_spendAndPromote (setup : Except ApiError Unit) {plan : SpendPlan}
    (only : Stampless plan) (detail : Tx → Detail) :
    Stampless (spendAndPromote v setup plan detail) := by
  unfold spendAndPromote
  split
  · exact stampless_releaseAndFail v _
  · refine .bind only fun planned => ?_
    split
    · exact stampless_releaseAndFail v _
    · refine .bind (.perform rfl) fun sent => ?_
      split
      · exact stampless_releaseAndFail v _
      · exact .bind (only_exec rfl) fun _ =>
          .bind (stampless_of_free (free_recordEvent (by decide))) fun _ => trivial

end Parts

/-! ## §3 The window check -/

section Window

variable {S : Server} {v : VaultId} {h : Hist}

/-- From `h` to `g` the owner's row was asked for, and no window was stamped. -/
def Asked (v : VaultId) (h g : Hist) : Prop :=
  ∃ more res, g = h ++ more ∧ (∀ e ∈ more, e.action.stamps = false) ∧
    (⟨.query (.vault v), res⟩ : Ev) ∈ more

theorem asks_notifyClaimOpened :
    Meets (fun _ _ => True) (fun g _ => Asked v h g) (logged (notifyClaimOpened S v)) h := by
  have asks : Meets (fun _ _ => True) (fun g _ => Asked v h g) (notifyClaimOpened S v) h := by
    -- the read comes first, and whatever follows it is free
    intro res
    refine ⟨trivial, ?_⟩
    have only : Stampless (notifyClaimOpened S v) := stampless_of_free (free_notifyClaimOpened S v)
    refine Meets.mono (Only.adds (only.2 res) _) (fun _ _ _ => trivial) ?_
    rintro g r ⟨more, rfl, rest⟩
    refine ⟨⟨.query (.vault v), res⟩ :: more, res, by simp, ?_, List.mem_cons_self⟩
    intro e mem
    rcases List.mem_cons.1 mem with rfl | later
    · rfl
    · exact rest e later
  have attempted : Meets (fun _ _ => True) (fun g _ => Asked v h g)
      ((notifyClaimOpened S v).attempt : Prog (Except ApiError Unit)) h :=
    Meets.attempt asks fun _ _ asked => asked
  exact Meets.bind attempted (fun _ _ _ asked => asked) fun _ _ _ asked => asked

/-- What follows the stamp records the opening and alerts the owner. -/
theorem settled_after_stamp {detail : Detail} {opened available : Instant}
    (settled : openingObligation.Settled h) :
    Meets (fun _ _ => True) (fun g _ => openingObligation.Settled g)
      ((recordEvent v .claimOpened detail).bind fun _ =>
        (logged (notifyClaimOpened S v)).bind fun _ => (.done (some available) : Prog (Option Instant)))
      (h ++ [stamped v opened]) := by
  intro t
  refine ⟨trivial, fun res => ⟨trivial, ?_⟩⟩
  cases res with
  | error e =>
    -- the refused event ends the request
    have refused : OpeningRefused [⟨.now, t⟩,
        ⟨.exec (.insertEvent ⟨v, .claimOpened, detail, t⟩), .error e⟩] :=
      ⟨_, e, rfl, List.mem_cons_of_mem _ List.mem_cons_self⟩
    have done := settled.round (e := stamped v opened) ⟨v, opened, rfl, .inr refused⟩
      (free_of_stampless (by simp [Action.stamps]))
    show openingObligation.Settled _
    simpa using done
  | ok n =>
    show Meets _ _ ((logged (notifyClaimOpened S v)).bind fun _ =>
      (.done (some available) : Prog (Option Instant))) _
    have alerts : Meets (fun _ _ => True) (fun g _ => openingObligation.Settled g)
        (logged (notifyClaimOpened S v)) (h ++ [stamped v opened] ++ [⟨.now, t⟩] ++
          [⟨.exec (.insertEvent ⟨v, .claimOpened, detail, t⟩), .ok n⟩]) := by
      refine Meets.mono asks_notifyClaimOpened (fun _ _ _ => trivial) ?_
      rintro g _ ⟨more, res, rfl, stampless, asked⟩
      have alerted : Alerted v (⟨.now, t⟩ ::
          ⟨.exec (.insertEvent ⟨v, .claimOpened, detail, t⟩), .ok n⟩ :: more) :=
        ⟨[⟨.now, t⟩], more, _, n, res, rfl, rfl, rfl, asked⟩
      have done := settled.round (e := stamped v opened) ⟨v, opened, rfl, .inl alerted⟩
        (free_of_stampless (by simpa [Action.stamps] using stampless))
      simpa using done
    exact Meets.bind alerts (fun _ _ _ now => now) fun _ _ _ now => now

/-- The check that stamps the window alerts the owner before it answers. -/
theorem alerts_ensureClaimChallenge : Alerts (ensureClaimChallenge S v) h := by
  unfold ensureClaimChallenge
  split
  · exact Alerts.stampless trivial
  · apply Settles.bind (Alerts.stampless (.perform rfl))
    intro g t _
    apply Settles.bind (Alerts.stampless (only_query rfl))
    intro g row _
    apply Settles.bind (Alerts.stampless (only_okOr _ _))
    intro g r _
    cases r.life.claimOpenedAt with
    | some opened => exact Alerts.stampless trivial
    | none =>
      intro settled res
      refine ⟨trivial, ?_⟩
      cases res with
      | error e =>
        apply settled.snoc
        rintro ⟨v, opened, ⟨⟩⟩
      | ok rows =>
        by_cases one : rows = 1
        · subst one
          exact settled_after_stamp settled
        · -- another request has stamped the window, and alerts the owner
          show Meets _ _ (if rows = 1 then _ else _) _
          rw [if_neg one]
          apply settled.snoc
          rintro ⟨v, opened, ⟨⟩⟩
          exact one rfl

theorem alerts_requireWindowElapsed : Alerts (requireWindowElapsed S v) h := by
  apply Settles.bind alerts_ensureClaimChallenge
  intro g available _
  cases available <;> exact Alerts.stampless trivial

end Window

/-! ## §4 The requests by token -/

section Requests

variable (S : Server) (token : Token) (h : Hist)

theorem alerts_loadVaultForClaimToken : Alerts (loadVaultForClaimToken S token) h := by
  apply Settles.bind (Alerts.stampless (stampless_unusedHeirRow S token))
  intro g r _
  apply Settles.bind alerts_requireWindowElapsed
  intro g _ _
  exact Alerts.stampless (.bind (stampless_of_free (free_storedNetwork r)) fun _ => trivial)

theorem alerts_resolveMatched (r : VaultRow) (slot : Option Nat) :
    Alerts (resolveMatched S r slot) h := by
  have shown : ∀ (available : Option Instant) (claimedTxid : Option String),
      Stampless (matchedView S r slot available claimedTxid) := by
    intro available claimedTxid
    unfold matchedView
    split
    · exact .bind (only_crypto _) fun _ => trivial
    · trivial
  unfold resolveMatched
  dsimp only
  split
  · split
    · exact Alerts.stampless trivial
    · exact Alerts.stampless (.bind (.bind (only_query rfl) fun _ => trivial) fun claimedTxid =>
        shown none claimedTxid)
  · apply Settles.bind (Alerts.stampless (.done none))
    intro g claimedTxid _
    apply Settles.bind alerts_ensureClaimChallenge
    intro g available _
    exact Alerts.stampless (shown available claimedTxid)

theorem alerts_resolveClaim : Alerts (resolveClaim S token) h := by
  apply Settles.bind (Alerts.stampless (only_query rfl))
  intro g row _
  cases row with
  | some r =>
    apply Settles.bind (Alerts.stampless (only_okOr _ _))
    intro g storedHash _
    split
    · exact Alerts.stampless trivial
    · exact alerts_resolveMatched S g r none
  | none =>
    apply Settles.bind (Alerts.stampless (only_query rfl))
    intro g pair _
    apply Settles.bind (Alerts.stampless (only_okOr _ _))
    intro g found _
    apply Settles.bind (Alerts.stampless (only_okOr _ _))
    intro g storedHash _
    split
    · exact Alerts.stampless trivial
    · exact alerts_resolveMatched S g found.2 _

theorem alerts_getSealedHeirXprv : Alerts (getSealedHeirXprv S token) h := by
  apply Settles.bind (Alerts.stampless (stampless_unusedHeirRow S token))
  intro g r _
  apply Settles.bind alerts_requireWindowElapsed
  intro g _ _
  exact Alerts.stampless (.bind (stampless_requireMatured S r) fun _ =>
    .bind (only_okOr _ _) fun _ => .bind (only_okOr _ _) fun _ => trivial)

theorem alerts_getSealedGuardianXprv : Alerts (getSealedGuardianXprv S token) h := by
  apply Settles.bind (Alerts.stampless (only_query rfl))
  intro g pair _
  apply Settles.bind (Alerts.stampless (only_okOr _ _))
  intro g found _
  apply Settles.bind (Alerts.stampless (only_okOr _ _))
  intro g storedHash _
  split
  · exact Alerts.stampless trivial
  · split
    · exact Alerts.stampless trivial
    · apply Settles.bind alerts_requireWindowElapsed
      intro g _ _
      exact Alerts.stampless trivial

theorem alerts_getHeirDerivationParams : Alerts (getHeirDerivationParams S token) h := by
  apply Settles.bind (Alerts.stampless (stampless_unusedHeirRow S token))
  intro g r _
  split
  · exact Alerts.stampless trivial
  · apply Settles.bind alerts_requireWindowElapsed
    intro g _ _
    exact Alerts.stampless (.bind (only_crypto _) fun _ => .bind (only_okOr _ _) fun _ =>
      .bind (only_okOr _ _) fun _ => .bind (only_validated _ _) fun _ => trivial)

theorem alerts_buildClaimPsbt (destination : String) (satPerVb : Option Nat) :
    Alerts (buildClaimPsbt S token destination satPerVb) h := by
  apply Settles.bind (alerts_loadVaultForClaimToken S token h)
  intro g loaded _
  apply Alerts.stampless
  refine .bind (stampless_of_free (free_parseDestination S _ _ _)) fun dest =>
    .bind (only_validated _ _) fun _ => .bind (only_validated _ _) fun urls =>
    .bind (only_validated _ _) fun wallet => .bind (.perform rfl) fun answer => ?_
  split
  · trivial
  · refine .bind (only_validated _ _) fun wallet => ?_
    split
    · trivial
    · exact .bind (only_validated _ _) fun built =>
        .bind (stampless_of_free (free_recordEvent (by decide))) fun _ => trivial

theorem alerts_broadcastClaim (signedPsbt : String) :
    Alerts (broadcastClaim S token signedPsbt) h := by
  apply Settles.bind (alerts_loadVaultForClaimToken S token h)
  intro g loaded _
  exact Alerts.stampless (.bind (only_validated _ _) fun _ => .bind (only_validated _ _) fun _ =>
    .bind (stampless_consumeClaimToken _) fun _ => stampless_spendAndPromote _ _ (.done _) _)

theorem alerts_heirClaim (destination : String) (satPerVb : Option Nat) (heirXprv : String) :
    Alerts (heirClaim S token destination satPerVb heirXprv) h := by
  apply Settles.bind (alerts_loadVaultForClaimToken S token h)
  intro g loaded _
  exact Alerts.stampless (.bind (stampless_of_free (free_parseDestination S _ _ _)) fun _ =>
    .bind (stampless_of_free (free_parseXpriv S _ _ _)) fun _ =>
    .bind (stampless_consumeClaimToken _) fun _ =>
      stampless_spendAndPromote _ _ (stampless_of_free (free_drainPlan S _ _ _)) _)

theorem alerts_guardianClaim (destination : String) (satPerVb : Option Nat)
    (heirXprv guardianXprv : String) :
    Alerts (guardianClaim S token destination satPerVb heirXprv guardianXprv) h := by
  apply Settles.bind (alerts_loadVaultForClaimToken S token h)
  intro g loaded _
  exact Alerts.stampless (.bind (stampless_of_free (free_parseDestination S _ _ _)) fun _ =>
    .bind (stampless_of_free (free_parseXpriv S _ _ _)) fun _ =>
    .bind (stampless_of_free (free_parseXpriv S _ _ _)) fun _ =>
    .bind (stampless_consumeClaimToken _) fun _ =>
      stampless_spendAndPromote _ _ (stampless_of_free (free_drainPlan S _ _ _)) _)

end Requests

/-- A request by token has alerted the owner of every window it stamped. -/
theorem alerts_program (S : Server) (q : Request) (byToken : q.byToken = true) :
    Alerts (q.program S) [] := by
  have wrapped : ∀ {α : Type} {p : Prog α} (wrap : α → Reply), Alerts p [] →
      Alerts (p.reply wrap) [] := fun wrap alerts =>
    .bind alerts fun _ _ _ => Alerts.stampless trivial
  cases q with
  | resolveClaim token => exact wrapped _ (alerts_resolveClaim S token [])
  | claimUnlockEstimate token =>
    refine wrapped _ (Alerts.stampless (.bind (stampless_unusedHeirRow S token) fun r =>
      .bind (.perform rfl) fun t => .bind (stampless_unlockEstimateWithCache S r t) fun est => ?_))
    cases est <;> trivial
  | sealedHeir token => exact wrapped _ (alerts_getSealedHeirXprv S token [])
  | sealedGuardian token => exact wrapped _ (alerts_getSealedGuardianXprv S token [])
  | heirDerivationParams token => exact wrapped _ (alerts_getHeirDerivationParams S token [])
  | buildClaimPsbt token destination fee =>
    exact wrapped _ (alerts_buildClaimPsbt S token [] destination fee)
  | broadcastClaim token psbt => exact wrapped _ (alerts_broadcastClaim S token [] psbt)
  | heirClaim token destination fee key =>
    exact wrapped _ (alerts_heirClaim S token [] destination fee key)
  | guardianClaim token destination fee heirKey guardianKey =>
    exact wrapped _ (alerts_guardianClaim S token [] destination fee heirKey guardianKey)
  | _ => cases byToken

/-! ## §5 In a run -/

section Positions

variable {S : Server} {t₀ : Instant} {tr : Trace} {s u : SrvStep} {v : VaultId} {i j k : Nat}
  {opened : Instant}

/-- Who has looked a vault up by a token came with one. -/
theorem Runs.byToken_of_loaded (runs : Runs S t₀ tr) {q : Request} (started : Started i q (tr.take k))
    (loaded : Loaded (history i k tr) v) : q.byToken = true := by
  obtain ⟨e, mem, found⟩ := loaded
  obtain ⟨j, s, before, at_j, label⟩ := mem_history.1 mem
  obtain ⟨c, run⟩ := id runs
  obtain ⟨c', first⟩ := run.take k
  cases found with
  | heir | guardian =>
    obtain ⟨q', started', just⟩ := runs.justified at_j label
    rw [first.started_unique started (started'.later (Nat.le_of_lt before))]
    exact just

/-- A request that has stamped a window and returned has alerted the owner in between. -/
theorem Runs.alerted (runs : Runs S t₀ tr) (at_j : tr[j]? = some u)
    (stamps : Did i (.exec (.updateVault v (.stampClaimOpened opened))) (.ok 1) u) (lt : j < k)
    (at_k : tr[k]? = some s) {r : Except ApiError Reply} (returned : s.label = .returned i r) :
    ∃ after, history i k tr = history i (j + 1) tr ++ after ∧
      (Alerted v after ∨ OpeningRefused after) := by
  obtain ⟨q, started, loaded, -⟩ := runs.justified at_j stamps
  have byToken := runs.byToken_of_loaded started loaded
  obtain ⟨c, run⟩ := id runs
  obtain ⟨c', first⟩ := run.take k
  have program : ∀ q : Request, Meets (fun _ _ => True)
      (fun g _ => q.byToken = true → openingObligation.Settled g) (q.program S) [] := by
    intro q
    by_cases byToken : q.byToken = true
    · exact Meets.mono (alerts_program S q byToken .nil) (fun _ _ _ => trivial) fun _ _ now _ => now
    · exact Meets.mono (Meets.grows _ _) (fun _ _ _ => trivial) fun _ _ _ same => absurd same byToken
  obtain ⟨q', started', settled⟩ := run.returned_at (S := server S)
    (I := fun _ _ _ => True) program at_k returned
  rw [first.started_unique started' (started.later (Nat.le_of_lt lt))] at settled
  obtain ⟨after, grown⟩ : history i (j + 1) tr <+: history i k tr := history_mono lt
  have whole : history i k tr = history i j tr ++ stamped v opened :: after := by
    rw [← grown, history_succ at_j stamps]
    simp [stamped]
  obtain ⟨v', opened', same, done⟩ := settled byToken _ _ _ whole ⟨v, opened, rfl⟩
  cases same
  exact ⟨after, grown.symm, done⟩

end Positions

end GhostKey

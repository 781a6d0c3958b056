import GhostKey.Alone
import GhostKey.Conduct.Requests
import GhostKey.Foundation.Obligation

/-!
# The Rounds of a Tick

What a tick has done by the time it ends, beyond what warrants each of its actions:
every vault it has put into alarm has its event, and its owner's notification has been
attempted, unless the event was refused; the time it selects missed deadlines and due
claims by is the one it read first of all; it alarms before it selects claims; and if it
ends without an error, every missed deadline it listed has been put into alarm.

Main results:
- `plain_triggerVault` and its like: the parts that neither alarm nor select.
- `rounds_alarmVault`: one round of the alarm step.
- `inTurn_tickOnce`, `secures_tickOnce`: the order of a tick, and its sweep.
- `Runs.alarmsComplete`, `Runs.selected_at_start`, `Runs.alarms_first`, `Runs.swept`: what
  this says of a run.
-/

namespace GhostKey

open Foundation Program Prog Obligation

/-! ## §1 Completed alarms -/

/-- `enqueue_alarm_owner` went as far as the owner's contact, which does not open, or
asked for the subscriptions of the vault. -/
def Attempted (S : Server) (r : VaultRow) (h : Hist) : Prop :=
  deliverableOwner S r = .error () ∨ ∃ res, (⟨.query (.pushSubscriptionCount r.id), res⟩ : Ev) ∈ h

/-- The alarm of the row was recorded, and then the owner's notification attempted. -/
def AlarmRecorded (S : Server) (r : VaultRow) (h : Hist) : Prop :=
  ∃ h₁ h₂ ev n, h = h₁ ++ ⟨.exec (.insertEvent ev), .ok n⟩ :: h₂ ∧ ev.vaultId = r.id ∧
    ev.kind = .alarm ∧ Attempted S r h₂

/-- The database refused an alarm event. -/
def AlarmRefused (h : Hist) : Prop :=
  ∃ ev e, ev.kind = .alarm ∧ (⟨.exec (.insertEvent ev), .error e⟩ : Ev) ∈ h

/-- The UPDATE that puts `v` into alarm, answered. -/
def alarmed (v : VaultId) (n : Nat) : Ev := ⟨.exec (.updateVault v .alarm), .ok n⟩

/-- Neither a move into alarm, nor a selection of missed deadlines or of due claims. -/
def Action.isPlain : Action → Bool
  | exec (.updateVault _ .alarm) => false
  | exec (.updateVault _ .unfreeze) => false
  | query (.deadlineMissed _) => false
  | query (.claimEligible _) => false
  | _ => true

/-- Missed deadlines and due claims are selected by the time that was read first. -/
def SelectsAtStart (h : Hist) (e : Ev) : Prop :=
  ∀ t, e.action = .query (.deadlineMissed t) ∨ e.action = .query (.claimEligible t) →
    h.head? = some ⟨.now, t⟩

section Histories

variable {S : Server} {h : Hist} {r : VaultRow}

theorem Attempted.append (attempted : Attempted S r h) (more : Hist) : Attempted S r (h ++ more) :=
  attempted.imp_right fun ⟨res, mem⟩ => ⟨res, List.mem_append_left more mem⟩

theorem AlarmRecorded.append (recorded : AlarmRecorded S r h) (more : Hist) :
    AlarmRecorded S r (h ++ more) := by
  obtain ⟨h₁, h₂, ev, n, rfl, id, kind, attempted⟩ := recorded
  exact ⟨h₁, h₂ ++ more, ev, n, by simp, id, kind, attempted.append more⟩

theorem AlarmRefused.append (refused : AlarmRefused h) (more : Hist) : AlarmRefused (h ++ more) := by
  obtain ⟨ev, e, kind, mem⟩ := refused
  exact ⟨ev, e, kind, List.mem_append_left more mem⟩

end Histories

/-- Every alarm is to be recorded, unless its event is refused. -/
def alarmObligation (S : Server) : Obligation Action Action.Response where
  owes e := ∃ v n, e = alarmed v n
  settles before e after := ∃ r n, e = alarmed r.id n ∧ Seen before r ∧
    (AlarmRecorded S r after ∨ AlarmRefused after)
  later := by
    rintro before e after more ⟨r, n, same, seen, done⟩
    exact ⟨r, n, same, seen, done.imp (·.append more) (·.append more)⟩

/-- Every alarm of the history was recorded, or its event refused, later in it. -/
abbrev AlarmsComplete (S : Server) (h : Hist) : Prop := (alarmObligation S).Settled h

theorem not_owes_of_plain {S : Server} (a : Action) (r : a.Response) (plain : a.isPlain = true) :
    ¬ (alarmObligation S).owes ⟨a, r⟩ := by
  rintro ⟨v, n, same⟩
  cases same
  cases plain

theorem selectsAtStart_of_plain (h : Hist) (a : Action) (r : a.Response) (plain : a.isPlain = true) :
    SelectsAtStart h ⟨a, r⟩ := by
  rintro t (rfl | rfl) <;> cases plain

/-- An UPDATE selects nothing. -/
theorem selectsAtStart_update (h : Hist) (v : VaultId) (u : VaultUpdate)
    (r : (Action.exec (.updateVault v u)).Response) : SelectsAtStart h ⟨.exec (.updateVault v u), r⟩ := by
  rintro t (same | same) <;> cases same

/-! ## §2 The rules -/

/-- From complete alarms on, `p` selects by the first reading and completes its own. -/
abbrev Rounds {α : Type} (S : Server) (p : Prog α) (h : Hist) : Prop :=
  (alarmObligation S).Settles SelectsAtStart p h

theorem Rounds.plain {S : Server} {α : Type} {p : Prog α} {h : Hist}
    (only : p.Only fun a => a.isPlain = true) : Rounds S p h :=
  .free only not_owes_of_plain selectsAtStart_of_plain

/-! ## §3 The parts of a tick -/

theorem Action.plain_of_free {a : Action} (free : a.isFree = true) : a.isPlain = true := by
  unfold isPlain
  split
  · cases free
  · cases free
  · cases free
  · cases free
  · rfl

theorem Action.plain_of_estimates {v : VaultId} {a : Action} (estimates : a.estimates v = true) :
    a.isPlain = true := by
  unfold isPlain
  split
  · cases estimates
  · cases estimates
  · cases estimates
  · cases estimates
  · rfl

/-- Programs without an alarm and a selection of due claims. -/
abbrev Plain {α : Type} (p : Prog α) : Prop := p.Only fun a => a.isPlain = true

/-- What such a program adds to its history. -/
theorem Plain.adds {α : Type} {p : Prog α} (plain : Plain p) (h : Hist) :
    Meets (fun _ e => e.action.isPlain = true)
      (fun g _ => ∃ more, g = h ++ more ∧ ∀ e ∈ more, e.action.isPlain = true) p h :=
  Only.adds plain h

theorem plain_of_free {α : Type} {p : Prog α} (free : Free p) : Plain p :=
  free.mono fun _ => Action.plain_of_free

theorem Action.plain_of_mails {a : Action} (mails : a.mails = true) : a.isPlain = true := by
  unfold isPlain
  split
  · cases mails
  · cases mails
  · cases mails
  · cases mails
  · rfl

theorem plain_query {q : Query} (plain : (Action.query q).isPlain = true) : Plain (query q) :=
  only_query plain

theorem plain_exec {st : Stmt} (plain : (Action.exec st).isPlain = true) : Plain (exec st) :=
  only_exec plain

section Parts

variable (S : Server) (r : VaultRow) (t nowIso : Instant)

theorem plain_unlockEstimateWithCache : Plain (unlockEstimateWithCache S r t) :=
  (sure_unlockEstimateWithCache S r t).only.mono fun _ => Action.plain_of_estimates

theorem plain_recordEvent (id : VaultId) (kind : EventKind) (detail : Detail) :
    Plain (recordEvent id kind detail) :=
  .bind (.perform rfl) fun _ => .bind (plain_exec rfl) fun _ => trivial

theorem plain_activateFunded : Plain (activateFunded S r t) := by
  refine .bind (plain_exec rfl) fun rows => ?_
  split
  · trivial
  · exact .bind (plain_recordEvent ..) fun _ =>
      plain_of_free (free_logged (free_enqueueOwnerEmail S r.id (by decide)))

theorem plain_activateFundedVaults : Plain (activateFundedVaults S) := by
  refine .bind (plain_query rfl) fun rows => .bind (.perform rfl) fun t => .forEach (fun r => ?_) rows
  refine .bind (plain_unlockEstimateWithCache S r t) fun est => ?_
  cases est with
  | error e => trivial
  | ok est =>
    dsimp only
    split
    · trivial
    · split
      · exact plain_of_free (free_holdActivation r.id)
      · exact plain_activateFunded S r t

theorem plain_returnEmptyVaultToUnfunded (id : VaultId) (fromStatus : Status) (record : Bool) :
    Plain (returnEmptyVaultToUnfunded id fromStatus record) := by
  refine .bind (plain_exec rfl) fun rows => ?_
  dsimp only
  split
  · trivial
  · cases record with
    | true => exact .bind (plain_recordEvent ..) fun _ => trivial
    | false => trivial

theorem plain_retireIfEmpty (fromStatus : Status) (record : Bool) :
    Plain (retireIfEmpty S r fromStatus record t) := by
  refine .bind (plain_unlockEstimateWithCache S r t) fun est => ?_
  cases est with
  | error e => trivial
  | ok est =>
    dsimp only
    split
    · trivial
    · exact .bind (plain_returnEmptyVaultToUnfunded ..) fun _ => trivial

theorem plain_retireDrainedVaults : Plain (retireDrainedVaults S) :=
  .bind (plain_query rfl) fun rows => .bind (.perform rfl) fun t =>
    .forEach (fun r => plain_retireIfEmpty S r t .ok true) rows

theorem plain_standDownNeverFundedVaults : Plain (standDownNeverFundedVaults S) :=
  .bind (plain_query rfl) fun rows => .bind (.perform rfl) fun t =>
    .forEach (fun r => plain_retireIfEmpty S r t r.life.status false) rows

theorem plain_issuePreDeadlineReminders : Plain (issuePreDeadlineReminders S nowIso) :=
  .bind (plain_query rfl) fun due => .forEach (fun r =>
    plain_of_free (free_logged (free_enqueuePreDeadlineReminder S r nowIso))) due

theorem plain_alarmMessage (contact : Option OwnerContact) (pushes : Nat) :
    Plain (if contact.isNone ∧ pushes = 0 then (pure () : Prog Unit) else do
      let token ← mintOrReuseOneTapToken S r.id nowIso
      let url := token.map (S.checkinLinkUrl r.id)
      enqueueOwnerMessage S r.id .alarmOwner contact (0 < pushes) url
        (some (url.getD S.checkinUrl))) := by
  split
  · trivial
  · exact plain_of_free (.bind (free_mintOrReuseOneTapToken S r.id nowIso) fun token =>
      free_enqueueOwnerMessage S r.id _ _ _ _ (by decide))

theorem plain_sendAlarmEscalations : Plain (sendAlarmEscalations S nowIso) :=
  .bind (plain_query rfl) fun due => .forEach (fun d =>
    plain_of_free (free_escalateVault S nowIso d.1)) due

theorem plain_heirContactReady : Plain (heirContactReady S r t) :=
  (sure_heirContactReady S r t).only.mono fun _ => Action.plain_of_estimates

theorem plain_openClaim : Plain (openClaim S nowIso r) := by
  refine .bind ?_ fun token => .bind (plain_exec ?_) fun _ => .bind (plain_recordEvent ..) fun _ => ?_
  · unfold triggerToken
    split
    · exact .bind (only_crypto _) fun _ => trivial
    · exact .bind (.perform rfl) fun _ => trivial
  · obtain ⟨token, hash, reused⟩ := token
    cases reused <;> rfl
  · have links : Plain (enqueueGuardianClaimLinks S r.id) :=
      (only_enqueueGuardianClaimLinks r.id).mono fun _ => Action.plain_of_mails
    have link : Plain (enqueueClaimLink S r token.1) :=
      (only_enqueueClaimLink token.1).mono fun _ => Action.plain_of_mails
    exact .bind (sure_logged link).only fun _ => (sure_logged links).only

theorem plain_triggerVault : Plain (triggerVault S nowIso r) := by
  refine .bind (.perform rfl) fun t => .bind (plain_heirContactReady S r t) fun gate => ?_
  cases gate with
  | waiting => trivial
  | empty => exact .bind (plain_returnEmptyVaultToUnfunded ..) fun _ => trivial
  | ready => exact plain_openClaim S r nowIso

theorem plain_sendClaimReadyNotice (openedAt : Instant) :
    Plain (sendClaimReadyNotice S t r openedAt) := by
  have ready : Plain (onchainFundsReady S r t) := by
    unfold onchainFundsReady
    split
    · trivial
    · exact .bind (plain_unlockEstimateWithCache S r t) fun est => by cases est <;> trivial
  have notice : ∀ recipient link, Plain (logged (enqueue S r.id .claimReady .email recipient link)) :=
    fun _ _ => plain_of_free (free_logged (free_enqueue (by decide)))
  -- each check that fails ends it
  unfold sendClaimReadyNotice
  split
  · trivial
  · refine .bind ready fun ready => ?_
    split
    · trivial
    · refine .bind (plain_exec rfl) fun rows => ?_
      split
      · trivial
      · refine .bind (only_crypto _) fun contact => ?_
        cases contact with
        | none => trivial
        | some c =>
          dsimp only
          split
          · trivial
          · split
            · trivial
            · split
              · exact notice _ _
              · exact .bind (only_crypto _) fun _ => notice _ _

theorem plain_sendClaimReadyNotices : Plain (sendClaimReadyNotices S) := by
  unfold sendClaimReadyNotices
  split
  · trivial
  · exact .bind (plain_query rfl) fun rows => .bind (.perform rfl) fun t =>
      .forEach (fun d => plain_sendClaimReadyNotice S d.1 t d.2) rows

end Parts

/-! ## §4 The alarm step and the tick -/

section Tick

variable {S : Server} {r : VaultRow} {h : Hist} {nowIso : Instant}

/-- From `h` to `g` the owner's notification was attempted. -/
def Notified (S : Server) (r : VaultRow) (h g : Hist) : Prop :=
  ∃ more, g = h ++ more ∧ (∀ e ∈ more, e.action.isPlain = true) ∧ Attempted S r more

/-- Whatever the responses, `p` attempts the owner's notification. -/
def Notifies (S : Server) (r : VaultRow) {α : Type} (p : Prog α) (h : Hist) : Prop :=
  Meets (fun _ e => e.action.isPlain = true) (fun g _ => Notified S r h g) p h

theorem notifies_enqueueAlarmOwner : Notifies S r (enqueueAlarmOwner S r nowIso) h := by
  unfold enqueueAlarmOwner
  cases opened : deliverableOwner S r with
  | error e =>
    cases e
    exact ⟨[], (List.append_nil h).symm, by simp, .inl opened⟩
  | ok contact =>
    intro res
    refine ⟨rfl, ?_⟩
    have asked : ∀ more : Hist, (∀ e ∈ more, e.action.isPlain = true) →
        Notified S r h (h ++ [⟨.query (.pushSubscriptionCount r.id), res⟩] ++ more) := by
      intro more plain
      refine ⟨⟨.query (.pushSubscriptionCount r.id), res⟩ :: more, by simp, ?_, .inr ⟨res, by simp⟩⟩
      intro e mem
      rcases List.mem_cons.1 mem with rfl | later
      · rfl
      · exact plain e later
    cases res with
    | error e =>
      have none_left := asked [] (by simp)
      rwa [List.append_nil] at none_left
    | ok pushes =>
      refine Meets.mono (Plain.adds (plain_alarmMessage S r nowIso contact pushes) _)
        (fun _ _ plain => plain) ?_
      rintro g _ ⟨more, rfl, plain⟩
      exact asked more plain

theorem Notifies.logged {α : Type} {p : Prog α} (notifies : Notifies S r p h) :
    Notifies S r (logged p) h := by
  have attempted : Meets (fun _ e => e.action.isPlain = true) (fun g _ => Notified S r h g)
      (p.attempt : Prog (Except ApiError α)) h := Meets.attempt notifies fun _ _ now => now
  exact Meets.bind attempted (fun _ _ _ now => now) fun _ _ _ now => now

/-- One round of the alarm step completes its alarm, or its event is refused. -/
theorem rounds_alarmVault (seen : Seen h r) : Rounds S (alarmVault S nowIso r) h := by
  intro complete res
  refine ⟨selectsAtStart_update _ _ _ res, ?_⟩
  cases res with
  | error e =>
    apply complete.snoc
    rintro ⟨v, n, ⟨⟩⟩
  | ok n =>
    intro t
    refine ⟨selectsAtStart_of_plain _ _ t rfl, ?_⟩
    intro res
    refine ⟨selectsAtStart_of_plain _ _ res rfl, ?_⟩
    have free : ∀ more : Hist, (∀ e ∈ more, e.action.isPlain = true) →
        ∀ e ∈ more, ¬ (alarmObligation S).owes e := fun more plain e mem =>
      not_owes_of_plain e.action e.response (plain e mem)
    -- the event's INSERT has been answered
    cases res with
    | error e =>
      have refused : AlarmRefused [⟨.now, t⟩,
          ⟨.exec (.insertEvent ⟨r.id, .alarm, [("reason", .str "checkin_missed")], t⟩), .error e⟩] :=
        ⟨_, e, rfl, List.mem_cons_of_mem _ List.mem_cons_self⟩
      have done := complete.round ⟨r, n, rfl, seen, .inr refused⟩
        (free _ (by simp [Action.isPlain]))
      show AlarmsComplete S _
      simpa [alarmed] using done
    | ok m =>
      refine Meets.mono notifies_enqueueAlarmOwner.logged ?_ ?_
      · intro g e plain
        exact selectsAtStart_of_plain g e.action e.response plain
      · rintro g _ ⟨more, rfl, plain, attempted⟩
        have recorded : AlarmRecorded S r (⟨.now, t⟩ ::
            ⟨.exec (.insertEvent ⟨r.id, .alarm, [("reason", .str "checkin_missed")], t⟩), .ok m⟩ ::
              more) :=
          ⟨[⟨.now, t⟩], more, _, m, rfl, rfl, rfl, attempted⟩
        have done := complete.round ⟨r, n, rfl, seen, .inl recorded⟩
          (free _ (by simpa [Action.isPlain] using plain))
        simpa [alarmed] using done

theorem rounds_unfreezeExpiredPanics : Rounds S (unfreezeExpiredPanics nowIso) h := by
  refine .bind (Rounds.plain (plain_query rfl)) fun _ expired _ => .forEach fun id _ g _ =>
    .bind (.act ?_ (selectsAtStart_update _ _ _) fun res => ?_) fun _ _ _ =>
      Rounds.plain (plain_recordEvent ..)
  · rintro res ⟨v, n, ⟨⟩⟩
  · cases res <;> exact Rounds.plain trivial

theorem rounds_transitionOkToAlarmed (start : h.head? = some ⟨.now, nowIso⟩) :
    Rounds S (transitionOkToAlarmed S nowIso) h := by
  apply Settles.act
  · rintro res ⟨v, n, ⟨⟩⟩
  · rintro res t (same | same) <;> cases same
    exact start
  · intro res
    cases res with
    | error e => exact Rounds.plain trivial
    | ok due =>
      apply Settles.forEach
      intro d mem g grown
      have read : Read g (.deadlineMissed nowIso) due := Read.mono grown.subset .here
      exact rounds_alarmVault ⟨_, due, read, List.mem_map_of_mem mem⟩

/-- What a history starts with stays its start. -/
theorem head_of_grown {g : Hist} {e : Ev} (start : h.head? = some e) (grown : h <+: g) :
    g.head? = some e := by
  obtain ⟨more, rfl⟩ := grown
  rw [List.head?_append, start]
  rfl

theorem rounds_tickOwnerSteps (start : h.head? = some ⟨.now, nowIso⟩) :
    Rounds S (tickOwnerSteps S nowIso) h :=
  .bind rounds_unfreezeExpiredPanics fun _ _ first =>
    .bind (Rounds.plain (plain_activateFundedVaults S)) fun _ _ second =>
    .bind (Rounds.plain (plain_retireDrainedVaults S)) fun _ _ third =>
    .bind (Rounds.plain (plain_standDownNeverFundedVaults S)) fun _ _ fourth =>
    .bind (Rounds.plain (plain_issuePreDeadlineReminders S nowIso)) fun _ _ fifth =>
    .bind (rounds_transitionOkToAlarmed (head_of_grown start
      ((((first.trans second).trans third).trans fourth).trans fifth))) fun _ _ _ =>
    Rounds.plain (plain_sendAlarmEscalations S nowIso)

theorem rounds_transitionAlarmedToClaimable (start : h.head? = some ⟨.now, nowIso⟩) :
    Rounds S (transitionAlarmedToClaimable S nowIso) h := by
  apply Settles.act
  · rintro res ⟨v, n, ⟨⟩⟩
  · rintro res t (same | same) <;> cases same
    exact start
  · intro res
    cases res with
    | error e => exact Rounds.plain trivial
    | ok due => exact Rounds.plain (.forEach (fun r => plain_triggerVault S r nowIso) due)

theorem rounds_tickOnce : Rounds S (tickOnce S) [] := by
  apply Settles.act
  · rintro t ⟨v, n, ⟨⟩⟩
  · exact fun t => selectsAtStart_of_plain _ _ t rfl
  · intro nowIso
    have start : ([] ++ [⟨.now, nowIso⟩] : Hist).head? = some ⟨.now, nowIso⟩ := rfl
    apply Settles.bind (rounds_tickOwnerSteps start)
    intro g _ grown
    apply Settles.bind (Rounds.plain (plain_of_free free_probeLightning))
    intro g' healthy grown'
    apply Settles.bind (Rounds.plain (.perform rfl))
    intro g'' t grown''
    apply Settles.bind (Rounds.plain (.perform rfl))
    intro g₃ suppressed grown₃
    split
    · exact Rounds.plain trivial
    · have whole := ((grown.trans grown').trans grown'').trans grown₃
      exact .bind (rounds_transitionAlarmedToClaimable (head_of_grown start whole)) fun _ _ _ =>
        Rounds.plain (plain_sendClaimReadyNotices S)

end Tick

/-! ## §5 The order of a tick, and its sweep -/

/-- A move into alarm. -/
def Action.alarms : Action → Bool
  | exec (.updateVault _ .alarm) => true
  | exec (.updateVault _ .unfreeze) => true
  | _ => false

/-- A selection of due claims. -/
def Action.selectsClaims : Action → Bool
  | query (.claimEligible _) => true
  | _ => false

/-- What was listed as missed by the time `t` has been put into alarm. -/
def Swept (t : Instant) (h : Hist) : Prop :=
  ∃ due : List (VaultRow × Instant), Read h (.deadlineMissed t) due ∧
    ∀ d ∈ due, ∃ n, alarmed d.1.id n ∈ h

section Order

variable {S : Server} {r : VaultRow} {h : Hist} {nowIso : Instant}

theorem Action.alarms_of_plain {a : Action} (plain : a.isPlain = true) : a.alarms = false := by
  unfold alarms
  split
  · cases plain
  · cases plain
  · rfl

theorem Action.selectsClaims_of_plain {a : Action} (plain : a.isPlain = true) :
    a.selectsClaims = false := by
  unfold selectsClaims
  split
  · cases plain
  · rfl

/-- Programs that select no claims. -/
abbrev Owners {α : Type} (p : Prog α) : Prop := p.Only fun a => a.selectsClaims = false

theorem Plain.owners {α : Type} {p : Prog α} (plain : Plain p) : Owners p :=
  plain.mono fun _ => Action.selectsClaims_of_plain

theorem owners_update (v : VaultId) (u : VaultUpdate) : Owners (update v u) := ⟨rfl, fun res => by
  cases res <;> trivial⟩

theorem owners_alarmVault : Owners (alarmVault S nowIso r) :=
  .bind (owners_update ..) fun _ => .bind (plain_recordEvent ..).owners fun _ =>
    (plain_of_free (free_logged (free_enqueueAlarmOwner S r nowIso))).owners

theorem owners_tickOwnerSteps : Owners (tickOwnerSteps S nowIso) :=
  .bind (.bind (only_query rfl) fun expired => .forEach (fun _ => .bind (owners_update ..) fun _ =>
      (plain_recordEvent ..).owners) expired) fun _ =>
    .bind (plain_activateFundedVaults S).owners fun _ =>
    .bind (plain_retireDrainedVaults S).owners fun _ =>
    .bind (plain_standDownNeverFundedVaults S).owners fun _ =>
    .bind (plain_issuePreDeadlineReminders S nowIso).owners fun _ =>
    .bind (.bind (only_query rfl) fun due => .forEach (fun _ => owners_alarmVault) due) fun _ =>
    (plain_sendAlarmEscalations S nowIso).owners

/-- A tick has put everything into alarm that it will before it selects the due claims. -/
theorem inTurn_tickOnce :
    Meets (fun h e => e.action.alarms = false ∨ ∀ x ∈ h, x.action.selectsClaims = false)
      (fun _ _ => True) (tickOnce S) [] := by
  intro nowIso
  refine ⟨.inl rfl, ?_⟩
  change Meets _ _ (Program.bind (tickOwnerSteps S nowIso) _) _
  refine @Only.inTurn _ _ _ _ _ (Action.selectsClaims · = false) (Action.alarms · = false) _ _ _
    owners_tickOwnerSteps (fun _ => ?_) ?_
  · have calm : ∀ {α : Type} {p : Prog α}, Plain p → p.Only fun a => a.alarms = false :=
      fun plain => plain.mono fun _ => Action.alarms_of_plain
    refine .bind (calm (plain_of_free free_probeLightning)) fun _ => .bind (.perform rfl) fun _ =>
      .bind (.perform rfl) fun suppressed => ?_
    split
    · trivial
    · exact .bind (.bind (only_query rfl) fun due =>
        .forEach (fun r => calm (plain_triggerVault S r nowIso)) due) fun _ =>
          calm (plain_sendClaimReadyNotices S)
  · intro x mem
    rw [List.mem_singleton.1 mem]
    rfl

/-- Whatever the responses, `p` ensures `P` if it succeeds. -/
abbrev Secures {α : Type} (P : Hist → Prop) (p : Prog α) (h : Hist) : Prop :=
  Program.Ensures (fun _ _ => True) (fun g _ => P g) p h

/-- What holds of longer histories too is secured by any program. -/
theorem Secures.kept {α : Type} {P : Hist → Prop} {p : Prog α} (later : ∀ g, h <+: g → P g) :
    Secures P p h :=
  Meets.mono (Meets.grows p h) (fun _ _ _ => trivial) fun g _ grown _ _ => later g grown

theorem Swept.grown {g : Hist} (swept : Swept nowIso h) (grown : h <+: g) : Swept nowIso g := by
  obtain ⟨due, read, each⟩ := swept
  refine ⟨due, read.mono grown.subset, fun d mem => ?_⟩
  obtain ⟨n, here⟩ := each d mem
  exact ⟨n, grown.subset here⟩

/-- One round leaves its UPDATE behind. -/
theorem secures_alarmVault : Secures (fun g => h <+: g ∧ ∃ n, alarmed r.id n ∈ g)
    (alarmVault S nowIso r) h := by
  intro res
  refine ⟨trivial, ?_⟩
  cases res with
  | error e => rintro _ ⟨⟩
  | ok n =>
    have here : alarmed r.id n ∈ h ++ [alarmed r.id n] :=
      List.mem_append_right _ (List.mem_singleton.2 rfl)
    exact Secures.kept fun g grown => ⟨(List.prefix_append h _).trans grown, n, grown.subset here⟩

theorem secures_transitionOkToAlarmed : Secures (Swept nowIso) (transitionOkToAlarmed S nowIso) h := by
  intro res
  refine ⟨trivial, ?_⟩
  cases res with
  | error e => rintro _ ⟨⟩
  | ok due =>
    -- before each round the rows of the rounds before it are in alarm
    refine Meets.forEachDone (L := fun past g => Read g (.deadlineMissed nowIso) due ∧
      ∀ d ∈ past, ∃ n, alarmed d.1.id n ∈ g) ⟨.here, fun d mem => by cases mem⟩ ?_ ?_
    · rintro past d rest g - ⟨read, each⟩
      refine Meets.mono secures_alarmVault (fun _ _ _ => trivial) fun g' res left => ⟨?_, ?_⟩
      · rintro rfl
        obtain ⟨grown, last⟩ := left () rfl
        refine ⟨read.mono grown.subset, fun d' mem => ?_⟩
        rcases List.mem_append.1 mem with old | new
        · obtain ⟨n', here⟩ := each d' old
          exact ⟨n', grown.subset here⟩
        · rw [List.mem_singleton.1 new]
          exact last
      · rintro e rfl _ ⟨⟩
    · rintro g ⟨read, each⟩ _ -
      exact ⟨due, read, each⟩

/-- A tick that succeeds has swept the deadlines missed by its time. -/
theorem secures_tickOnce :
    Secures (fun g => ∃ t, g.head? = some ⟨.now, t⟩ ∧ Swept t g) (tickOnce S) [] := by
  refine fun nowIso => ⟨trivial, ?_⟩
  have swept : Secures (Swept nowIso) (tickOwnerSteps S nowIso) ([] ++ [⟨.now, nowIso⟩]) := by
    have any : ∀ {α : Type} (p : Prog α) h, Secures (fun _ => True) p h := fun _ _ =>
      Secures.kept fun _ _ => trivial
    refine .bind (any _ _) fun _ _ _ _ => .bind (any _ _) fun _ _ _ _ =>
      .bind (any _ _) fun _ _ _ _ => .bind (any _ _) fun _ _ _ _ => .bind (any _ _) fun _ _ _ _ =>
      .bind secures_transitionOkToAlarmed fun _ _ _ now => Secures.kept fun _ => now.grown
  change Program.Ensures _ _ (Program.bind (tickOwnerSteps S nowIso) _) _
  refine Ensures.bind swept fun g _ grown now => ?_
  have whole : ∀ g', g <+: g' → ∃ t, g'.head? = some ⟨.now, t⟩ ∧ Swept t g' := fun g' grown' =>
    ⟨nowIso, head_of_grown (h := [] ++ [⟨.now, nowIso⟩]) rfl (grown.trans grown'), now.grown grown'⟩
  exact Secures.kept whole

end Order

/-! ## §6 In a run -/

/-- What is shown of a tick, said of whatever request. -/
theorem tick_program {S : Server} {I : Hist → Ev → Prop} {F : Hist → Except ApiError Reply → Prop}
    (meets : Meets I F (Request.schedulerTick.program S) []) (q : Request) :
    Meets (fun h e => q = .schedulerTick → I h e) (fun g r => q = .schedulerTick → F g r)
      (q.program S) [] := by
  by_cases tick : q = .schedulerTick
  · subst tick
    exact Meets.mono meets (fun _ _ good _ => good) fun _ _ good _ => good
  · exact Meets.mono (Meets.grows _ _) (fun _ _ _ same => absurd same tick)
      fun _ _ _ same => absurd same tick

section Positions

variable {S : Server} {t₀ : Instant} {tr : Trace} {s : SrvStep} {i k : Nat}

/-- What a tick is at when it acts. -/
theorem Runs.tick_acted (runs : Runs S t₀ tr) {I : Hist → Ev → Prop}
    {F : Hist → Except ApiError Reply → Prop} (meets : Meets I F (Request.schedulerTick.program S) [])
    (at_k : tr[k]? = some s) {e : Ev} (label : s.label = .acted i e)
    (tick : Started i .schedulerTick (tr.take k)) : I (history i k tr) e := by
  obtain ⟨c, run⟩ := runs
  obtain ⟨c', before⟩ := run.take k
  obtain ⟨q, started, good⟩ := run.acted_at (S := server S) (tick_program meets) at_k label
  exact good (before.started_unique started tick)

/-- What a tick has done when it returns. -/
theorem Runs.tick_returned (runs : Runs S t₀ tr) {I : Hist → Ev → Prop}
    {F : Hist → Except ApiError Reply → Prop} (meets : Meets I F (Request.schedulerTick.program S) [])
    (at_k : tr[k]? = some s) {r : Except ApiError Reply} (label : s.label = .returned i r)
    (tick : Started i .schedulerTick (tr.take k)) : F (history i k tr) r := by
  obtain ⟨c, run⟩ := runs
  obtain ⟨c', before⟩ := run.take k
  obtain ⟨q, started, good⟩ := run.returned_at (S := server S) (tick_program meets) at_k label
  exact good (before.started_unique started tick)

theorem rounds_tick (S : Server) :
    Meets SelectsAtStart (fun g _ => AlarmsComplete S g) (Request.schedulerTick.program S) [] := by
  have whole : Rounds S (Request.schedulerTick.program S) [] :=
    .bind rounds_tickOnce fun _ _ _ => Rounds.plain trivial
  exact whole .nil

theorem inTurn_tick (S : Server) :
    Meets (fun h e => e.action.alarms = false ∨ ∀ x ∈ h, x.action.selectsClaims = false)
      (fun _ _ => True) (Request.schedulerTick.program S) [] := by
  change Meets _ _ (Program.bind (tickOnce S) _) _
  exact Meets.bind inTurn_tickOnce (fun _ _ _ _ => trivial) fun _ _ _ _ => trivial

theorem secures_tick (S : Server) :
    Secures (fun g => ∃ t, g.head? = some ⟨.now, t⟩ ∧ Swept t g) (Request.schedulerTick.program S)
      [] := by
  change Program.Ensures _ _ (Program.bind (tickOnce S) _) _
  exact .bind secures_tickOnce fun g _ _ now => .done now

/-- A tick that has returned has completed its alarms. -/
theorem Runs.alarmsComplete (runs : Runs S t₀ tr) (at_k : tr[k]? = some s)
    {r : Except ApiError Reply} (returned : s.label = .returned i r)
    (tick : Started i .schedulerTick (tr.take k)) : AlarmsComplete S (history i k tr) :=
  runs.tick_returned (rounds_tick S) at_k returned tick

/-- A tick selects the missed deadlines and the due claims by what it read first. -/
theorem Runs.selected_at_start (runs : Runs S t₀ tr) (at_k : tr[k]? = some s) {t : Instant}
    {e : Ev} (did : s.label = .acted i e)
    (selects : e.action = .query (.deadlineMissed t) ∨ e.action = .query (.claimEligible t))
    (tick : Started i .schedulerTick (tr.take k)) : (history i k tr).head? = some ⟨.now, t⟩ :=
  runs.tick_acted (rounds_tick S) at_k did tick t selects

/-- What a tick moves into alarm, it moves there before it selects the due claims. -/
theorem Runs.alarms_first (runs : Runs S t₀ tr) (at_k : tr[k]? = some s) {e : Ev}
    (did : s.label = .acted i e) (alarms : e.action.alarms = true)
    (tick : Started i .schedulerTick (tr.take k)) :
    ∀ x ∈ history i k tr, x.action.selectsClaims = false := by
  rcases runs.tick_acted (inTurn_tick S) at_k did tick with calm | before
  · rw [alarms] at calm
    cases calm
  · exact before

/-- A tick that has returned well has swept the deadlines missed by what it read first. -/
theorem Runs.swept (runs : Runs S t₀ tr) (at_k : tr[k]? = some s) {rep : Reply}
    (returned : s.label = .returned i (.ok rep)) (tick : Started i .schedulerTick (tr.take k)) :
    ∃ t, (history i k tr).head? = some ⟨.now, t⟩ ∧ Swept t (history i k tr) := by
  exact runs.tick_returned (secures_tick S) at_k returned tick rep rfl

end Positions

end GhostKey

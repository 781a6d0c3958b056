import GhostKey.System

/-!
# Who Writes What

A few columns and tables are written in one place only: the rows of guardians by their
creation handler, the marks of the scheduler's messages and these messages by the
scheduler, and a one-tap token right after it was drawn. `Tidy ok p` says that `p` keeps
to the actions `ok` allows, and mints one-tap tokens as `mintOrReuseOneTapToken` does.

Main results:
- `tidy_request`: a request that is neither a guardian creation nor a tick of the scheduler
  writes none of these; by `tidy_everyday` few of them write an invoice.
- `tidy_tickOnce`, `tidy_createVaultGuardian`: these two write their own.
- `Runs.entitled`: the same at a position of a run.
-/

namespace GhostKey

open Foundation Program Prog

/-! ## §1 Tame actions -/

def VaultUpdate.isTame : VaultUpdate → Bool
  | mintOneTapToken _ _ => false
  | preDeadlineReminded _ => false
  | escalated _ => false
  | claimReadyNotified _ => false
  | _ => true

/-- The entries of the feed that practice makes. -/
def EventKind.isDrill : EventKind → Bool
  | drillStarted => true
  | drillOpened => true
  | drillCompleted => true
  | _ => false

/-- The messages that practice queues. -/
def NotificationKind.isDrill : NotificationKind → Bool
  | drillInvite => true
  | drillCompleted => true
  | _ => false

def NotificationKind.isTame : NotificationKind → Bool
  | alarmOwner => false
  | preDeadlineReminder => false
  | alarmEscalation => false
  | claimReady => false
  | kind => !kind.isDrill

def Action.isTame : Action → Bool
  | exec (.updateVault _ u) => u.isTame
  | exec (.insertGuardian _) => false
  | exec (.insertEvent e) => !e.kind.isDrill
  | exec (.insertNotification n) => n.kind.isTame
  | _ => true

/-- What the scheduler may do beside: everything but mint, insert guardians and practise. -/
def Action.isTick : Action → Bool
  | exec (.updateVault _ (.mintOneTapToken _ _)) => false
  | exec (.insertGuardian _) => false
  | exec (.insertEvent e) => !e.kind.isDrill
  | exec (.insertNotification n) => !n.kind.isDrill
  | _ => true

/-- What the creation of a guardian vault may do beside: a vault has two guardians. -/
def Action.isGuardian : Action → Bool
  | exec (.insertGuardian g) => g.slot = 1 ∨ g.slot = 2
  | a => a.isTame

/-- The UPDATE of a one-tap token right after the token was drawn. -/
def Minted (S : Server) (h : Hist) (a : Action) : Prop :=
  ∃ v token t g, a = .exec (.updateVault v (.mintOneTapToken (S.hashClaimToken token) t)) ∧
    h = g ++ [(⟨.ask .bearerToken, token⟩ : Ev)]

/-- Only actions from `ok`, and freshly drawn one-tap tokens. -/
structure Tidy (S : Server) (ok : Action → Bool) {α : Type} (p : Prog α) : Prop where
  meets : ∀ h, Meets (fun g e => ok e.action = true ∨ Minted S g e.action) (fun _ _ => True) p h

section Rules

variable {S : Server} {ok : Action → Bool} {α β : Type}

theorem Tidy.of_only {p : Prog α} (only : p.Only fun a => ok a = true) : Tidy S ok p :=
  ⟨fun h => Meets.mono (only.meets h) (fun _ _ good => .inl good) fun _ _ _ => trivial⟩

theorem tidy_bind {p : Prog α} {f : α → Prog β} (first : Tidy S ok p)
    (rest : ∀ a, Tidy S ok (f a)) : Tidy S ok (p >>= f) :=
  ⟨fun h => Meets.bind (first.meets h) (fun g a _ _ => (rest a).meets g) fun _ _ _ _ => trivial⟩

theorem tidy_attempt {p : Prog α} (tidy : Tidy S ok p) :
    Tidy S ok (p.attempt : Prog (Except ApiError α)) :=
  ⟨fun h => Meets.attempt (tidy.meets h) fun _ _ _ => trivial⟩

theorem tidy_pure (a : α) : Tidy S ok (pure a : Prog α) := ⟨fun _ => trivial⟩

theorem tidy_fail (e : ApiError) : Tidy S ok (.fail e : Prog α) := ⟨fun _ => trivial⟩

theorem tidy_logged {p : Prog α} (tidy : Tidy S ok p) : Tidy S ok (logged p) :=
  tidy_bind (tidy_attempt tidy) fun _ => tidy_pure ()

theorem tidy_forEach {σ : Type} {body : σ → Prog Unit} (each : ∀ x, Tidy S ok (body x))
    (xs : List σ) : Tidy S ok (Program.forEach xs body) := by
  induction xs with
  | nil => exact ⟨fun _ => trivial⟩
  | cons x xs ih => exact tidy_bind (each x) fun _ => ih

theorem tidy_perform {a : Action} (good : ok a = true) :
    Tidy S ok (Program.perform a : Prog a.Response) :=
  .of_only (.perform good)

theorem tidy_ite {c : Prop} [Decidable c] {p p' : Prog α} (yes : Tidy S ok p)
    (no : Tidy S ok p') : Tidy S ok (if c then p else p') := by
  split
  · exact yes
  · exact no

theorem tidy_okOr (e : ApiError) (x : Option α) : Tidy S ok (okOr e x) := by
  cases x <;> exact ⟨fun _ => trivial⟩

theorem tidy_validated (pre : String) (x : Except String α) : Tidy S ok (validated pre x) := by
  cases x <;> exact ⟨fun _ => trivial⟩

theorem tidy_crypto (x : Except Unit α) : Tidy S ok (crypto x) := by
  cases x <;> exact ⟨fun _ => trivial⟩

theorem tidy_query {q : Query} (good : ok (.query q) = true) : Tidy S ok (query q) := by
  refine .of_only ⟨good, fun r => ?_⟩
  cases r <;> trivial

theorem tidy_exec {st : Stmt} (good : ok (.exec st) = true) : Tidy S ok (exec st) := by
  refine .of_only ⟨good, fun r => ?_⟩
  cases r <;> trivial

end Rules

/-- A table that allows whatever is tame. -/
class Lenient (ok : Action → Bool) : Prop where
  tame : ∀ a, a.isTame = true → ok a = true

instance : Lenient Action.isTame := ⟨fun _ tame => tame⟩

theorem NotificationKind.own_of_tame {kind : NotificationKind} (tame : kind.isTame = true) :
    kind.isDrill = false := by
  cases kind <;> first | rfl | cases tame

instance : Lenient Action.isTick := ⟨fun a tame => by
  cases a with
  | exec st =>
    cases st with
    | updateVault v u => cases u <;> first | rfl | cases tame
    | insertGuardian g => cases tame
    | insertEvent e => exact tame
    | insertNotification n => exact congrArg Bool.not (NotificationKind.own_of_tame tame)
    | _ => rfl
  | _ => rfl⟩

instance : Lenient Action.isGuardian := ⟨fun a tame => by
  cases a with
  | exec st =>
    cases st with
    | insertGuardian g => cases tame
    | _ => exact tame
  | _ => exact tame⟩

/-- Tame, and nothing that writes an invoice. -/
def Action.isEveryday : Action → Bool
  | exec (.insertInvoice _) => false
  | exec (.expireInvoices _) => false
  | exec (.invoicePolled _ _) => false
  | exec (.invoiceExpired _) => false
  | exec (.invoiceFailed _ _) => false
  | payCheckin _ _ => false
  | payPanic _ _ => false
  | a => a.isTame

/-- A table that allows whatever is everyday. -/
class Everyday (ok : Action → Bool) : Prop where
  everyday : ∀ a, a.isEveryday = true → ok a = true

theorem tame_of_everyday {a : Action} (everyday : a.isEveryday = true) : a.isTame = true := by
  cases a with
  | exec st => cases st <;> first | exact everyday | rfl
  | payCheckin paymentHash t => cases everyday
  | payPanic paymentHash t => cases everyday
  | _ => exact everyday

instance {ok : Action → Bool} [Lenient ok] : Everyday ok :=
  ⟨fun a everyday => Lenient.tame a (tame_of_everyday everyday)⟩

/-- The requests that write invoices. -/
def Request.writesInvoices : Request → Bool
  | createInvoice _ => true
  | createInvoiceFromLink _ _ => true
  | lnurlpCallback _ _ _ => true
  | pollerTick => true
  | _ => false

/-! ## §2 The parts -/

section Parts

variable {S : Server} {ok : Action → Bool} [Everyday ok]

theorem tidy_now : Tidy S ok now := tidy_perform (Everyday.everyday _ rfl)

theorem tidy_ask (x : External) : Tidy S ok (ask x) := tidy_perform (Everyday.everyday _ rfl)

theorem tidy_read (q : Query) : Tidy S ok (query q) := tidy_query (Everyday.everyday _ rfl)

theorem tidy_update {v : VaultId} {u : VaultUpdate} (tame : u.isTame = true) :
    Tidy S ok (update v u) :=
  tidy_exec (Everyday.everyday _ tame)

theorem tidy_write {st : Stmt} (everyday : (Action.exec st).isEveryday = true) :
    Tidy S ok (exec st) :=
  tidy_exec (Everyday.everyday _ everyday)

theorem tidy_recordEvent {id : VaultId} {kind : EventKind} {detail : Detail}
    (own : kind.isDrill = false) : Tidy S ok (recordEvent id kind detail) :=
  tidy_bind tidy_now fun _ => tidy_bind (tidy_write (congrArg Bool.not own)) fun _ => tidy_pure ()

theorem tidy_enqueue {id : VaultId} {kind : NotificationKind} {channel : Channel}
    {recipient : String} {link : Option String} (tame : kind.isTame = true) :
    Tidy S ok (enqueue S id kind channel recipient link) :=
  tidy_bind (tidy_crypto _) fun _ => tidy_bind tidy_now fun _ =>
    tidy_bind (tidy_write tame) fun _ => tidy_pure ()

end Parts

section Handlers

variable {S : Server} {ok : Action → Bool} [Everyday ok]

/-- The one place where a token is minted. -/
theorem tidy_mintOrReuseOneTapToken (id : VaultId) (nowIso : Instant) :
    Tidy S ok (mintOrReuseOneTapToken S id nowIso) := by
  refine tidy_bind (tidy_read _) fun row => ?_
  cases row with
  | none => exact tidy_pure _
  | some r =>
    have answer : ∀ token (n : Nat),
        Tidy S ok (if n = 0 then pure none else pure (some token) : Prog (Option Token)) := by
      intro token n
      split <;> exact tidy_pure _
    by_cases live : r.life.checkinLinkTokenHash.isSome && r.life.checkinLinkTokenUsedAt.isNone
    · simp only [live, if_true]
      exact tidy_pure _
    · simp only [live]
      refine ⟨fun h token => ⟨.inl (Everyday.everyday _ rfl), fun rows => ?_⟩⟩
      refine ⟨.inr ⟨id, token, nowIso, h, rfl, rfl⟩, ?_⟩
      cases rows with
      | ok n => exact (answer token n).meets _
      | error e => trivial

/-! ### Contacts and estimates -/

theorem tidy_enqueueOwnerEmail (id : VaultId) {kind : NotificationKind}
    (tame : kind.isTame = true) : Tidy S ok (enqueueOwnerEmail S id kind) := by
  refine tidy_bind (tidy_read _) fun row => ?_
  cases row with
  | none => exact tidy_pure _
  | some r =>
    dsimp only
    split
    · exact tidy_pure _
    · refine tidy_bind (tidy_crypto _) fun contact => ?_
      cases contact with
      | none => exact tidy_pure _
      | some contact =>
        dsimp only
        split
        · exact tidy_pure _
        · exact tidy_bind (tidy_enqueue tame) fun _ => tidy_pure _

theorem tidy_notifyClaimOpened (id : VaultId) : Tidy S ok (notifyClaimOpened S id) := by
  refine tidy_bind (tidy_read _) fun row => ?_
  cases row with
  | none => exact tidy_pure _
  | some r =>
    have trustedPart : Tidy S ok (notifyTrusted S id r) := by
      refine tidy_bind (tidy_crypto _) fun trusted => ?_
      cases trusted with
      | none => exact tidy_pure _
      | some trusted => exact tidy_enqueue rfl
    refine tidy_bind (tidy_crypto _) fun owner => ?_
    cases owner with
    | none => exact trustedPart
    | some owner =>
      exact tidy_bind tidy_now fun t => tidy_bind (tidy_mintOrReuseOneTapToken id t) fun token =>
        tidy_bind (tidy_enqueue rfl) fun _ => trustedPart

theorem tidy_notifyTrustedContactOfPanic (id : VaultId) :
    Tidy S ok (notifyTrustedContactOfPanic S id) := by
  refine tidy_bind (tidy_read _) fun row => ?_
  cases row with
  | none => exact tidy_pure _
  | some r =>
    refine tidy_bind (tidy_crypto _) fun contact => ?_
    cases contact with
    | none => exact tidy_pure _
    | some trusted => exact tidy_enqueue rfl

theorem tidy_scanUnlockEstimate (r : VaultRow) (network : Network) :
    Tidy S ok (scanUnlockEstimate S r network) := by
  unfold scanUnlockEstimate
  split
  · exact tidy_pure _
  · dsimp only
    split
    · exact tidy_pure _
    · split
      · exact tidy_pure _
      · refine tidy_bind (tidy_ask _) fun answer => ?_
        cases answer with
        | error e => exact tidy_pure _
        | ok scan => dsimp only; split <;> exact tidy_pure _

theorem tidy_unlockEstimateWithCache (r : VaultRow) (t : Instant) :
    Tidy S ok (unlockEstimateWithCache S r t) := by
  unfold unlockEstimateWithCache
  split
  · exact tidy_pure _
  · split
    · exact tidy_pure _
    · refine tidy_bind (tidy_perform (Everyday.everyday _ rfl)) fun pause => ?_
      split
      · exact tidy_pure _
      · refine tidy_bind (tidy_scanUnlockEstimate r _) fun scanned => ?_
        cases scanned with
        | error e =>
          dsimp only
          split
          · exact tidy_bind (tidy_perform (Everyday.everyday _ rfl)) fun _ => tidy_pure _
          · exact tidy_pure _
        | ok est =>
          exact tidy_bind (tidy_perform (Everyday.everyday _ rfl)) fun _ =>
            tidy_bind (tidy_logged (tidy_update rfl)) fun _ => tidy_pure _

/-! ### Check-ins and invoices -/

omit [Everyday ok] in
theorem tidy_oncePerPeriod (r : VaultRow) (t : Instant) : Tidy S ok (oncePerPeriod S r t) := by
  unfold oncePerPeriod
  split
  · exact tidy_pure _
  · dsimp only
    split
    · exact tidy_fail _
    · exact tidy_pure _

theorem tidy_checkin (id : VaultId) : Tidy S ok (checkin S id) := by
  refine tidy_bind (tidy_read _) fun row => tidy_bind (tidy_okOr _ _) fun r => ?_
  split
  · exact tidy_fail _
  · split
    · exact tidy_fail _
    · refine tidy_bind tidy_now fun t => tidy_bind (tidy_oncePerPeriod r t) fun _ => ?_
      split
      · exact tidy_fail _
      · exact tidy_bind (tidy_update rfl) fun _ =>
          tidy_bind (tidy_recordEvent rfl) fun _ => tidy_pure _

theorem tidy_checkinFromLink (id : VaultId) (token : Token) :
    Tidy S ok (checkinFromLink S id token) := by
  refine tidy_bind (tidy_read _) fun row => tidy_bind (tidy_okOr _ _) fun r =>
    tidy_bind (tidy_okOr _ _) fun storedHash => ?_
  split
  · exact tidy_fail _
  · split
    · exact tidy_fail _
    · split
      · exact tidy_fail _
      · refine tidy_bind tidy_now fun tGate => ?_
        split
        · exact tidy_fail _
        · refine tidy_bind tidy_now fun tPeriod => tidy_bind (tidy_oncePerPeriod r tPeriod)
            fun _ => tidy_bind tidy_now fun t => tidy_bind (tidy_update rfl) fun rows => ?_
          split
          · exact tidy_fail _
          · exact tidy_bind (tidy_recordEvent rfl) fun _ => tidy_pure _

theorem tidy_issueClaim (id : VaultId) : Tidy S ok (issueClaim S id) :=
  tidy_bind (tidy_read _) fun _ => tidy_bind (tidy_okOr _ _) fun _ =>
    tidy_bind (tidy_ask _) fun _ => tidy_bind tidy_now fun _ =>
    tidy_bind (tidy_update rfl) fun _ => tidy_bind (tidy_recordEvent rfl) fun _ => tidy_pure _

theorem tidy_deleteVault (id : VaultId) : Tidy S ok (deleteVault id) := by
  refine tidy_bind (tidy_read _) fun row => tidy_bind (tidy_okOr _ _) fun r => ?_
  split
  · exact tidy_fail _
  · refine tidy_bind (tidy_write rfl) fun rows => ?_
    split
    · exact tidy_fail _
    · exact tidy_pure _

omit [Everyday ok] in
theorem tidy_insertInvoice [Lenient ok] (id : VaultId) (invoice : CreatedInvoice)
    (type : InvoiceType) : Tidy S ok (insertInvoice id invoice type) :=
  tidy_bind tidy_now fun _ => tidy_bind (tidy_exec (Lenient.tame _ rfl)) fun _ => tidy_pure _

omit [Everyday ok] in
theorem tidy_createCheckinInvoice [Lenient ok] (id : VaultId) :
    Tidy S ok (createCheckinInvoice S id) := by
  have mint : Tidy S ok (mintCheckinInvoice S id) := by
    refine tidy_bind (tidy_ask _) fun answer => ?_
    cases answer with
    | error e => exact tidy_fail _
    | ok invoice =>
      exact tidy_bind (tidy_insertInvoice id invoice .checkin) fun _ =>
        tidy_bind (tidy_recordEvent rfl) fun _ => tidy_pure _
  refine tidy_bind (tidy_read _) fun cad => ?_
  split
  · exact tidy_fail _
  · split
    · exact tidy_fail _
    · split
      · exact tidy_fail _
      · cases cad with
        | none => exact mint
        | some r =>
          dsimp only
          split
          · exact mint
          · exact tidy_bind tidy_now fun t => tidy_bind (tidy_oncePerPeriod r t) fun _ => mint

theorem tidy_verifyCheckinLinkToken (id : VaultId) (token : Token) :
    Tidy S ok (verifyCheckinLinkToken S id token) := by
  refine tidy_bind (tidy_read _) fun row => tidy_bind (tidy_okOr _ _) fun r =>
    tidy_bind (tidy_okOr _ _) fun storedHash => ?_
  split
  · exact tidy_fail _
  · split
    · exact tidy_fail _
    · exact tidy_pure _

omit [Everyday ok] in
theorem tidy_createInvoiceFromLink [Lenient ok] (id : VaultId) (token : Token) :
    Tidy S ok (createInvoiceFromLink S id token) :=
  tidy_bind (tidy_verifyCheckinLinkToken id token) fun _ => tidy_createCheckinInvoice id

theorem tidy_invoiceStatusFromLink (id : VaultId) (token : Token) (paymentHash : String) :
    Tidy S ok (invoiceStatusFromLink S id token paymentHash) := by
  refine tidy_bind (tidy_verifyCheckinLinkToken id token) fun _ => tidy_bind (tidy_read _) fun row =>
    tidy_bind (tidy_okOr _ _) fun i => ?_
  split
  · exact tidy_fail _
  · exact tidy_pure _

omit [Everyday ok] in
theorem tidy_lnurlpCallback [Lenient ok] (id : VaultId) (amountMsat : Option Nat) (isPanic : Bool) :
    Tidy S ok (lnurlpCallback S id amountMsat isPanic) := by
  refine tidy_bind (tidy_attempt (tidy_read _)) fun found => ?_
  dsimp only
  split
  · exact tidy_pure _
  · exact tidy_pure _
  · split
    · exact tidy_pure _
    · split
      · exact tidy_pure _
      · split
        · exact tidy_pure _
        · split
          · exact tidy_pure _
          · refine tidy_bind tidy_now fun t =>
              tidy_bind (tidy_attempt (tidy_read _)) fun existing => ?_
            split
            · exact tidy_pure _
            · exact tidy_pure _
            · refine tidy_bind (tidy_ask _) fun answer => ?_
              split
              · exact tidy_pure _
              · refine tidy_bind (tidy_attempt (tidy_insertInvoice id _ _)) fun inserted => ?_
                split
                · exact tidy_pure _
                · exact tidy_bind (tidy_logged (tidy_recordEvent rfl)) fun _ => tidy_pure _

omit [Everyday ok] in
theorem tidy_payCheckin [Lenient ok] (paymentHash : String) (t : Instant) :
    Tidy S ok (payCheckin paymentHash t) :=
  ⟨fun h r => ⟨.inl (Lenient.tame _ rfl), by cases r <;> trivial⟩⟩

omit [Everyday ok] in
theorem tidy_payPanic [Lenient ok] (paymentHash : String) (t : Instant) :
    Tidy S ok (payPanic paymentHash t) :=
  ⟨fun h r => ⟨.inl (Lenient.tame _ rfl), by cases r <;> trivial⟩⟩

omit [Everyday ok] in
theorem tidy_markPaidAndCheckin [Lenient ok] (paymentHash : String) :
    Tidy S ok (markPaidAndCheckin paymentHash) := by
  refine tidy_bind tidy_now fun t => tidy_bind (tidy_payCheckin paymentHash t) fun outcome => ?_
  cases outcome with
  | alreadyProcessed => exact tidy_pure _
  | noVaultRow => exact tidy_fail _
  | paid vaultId reset siblings =>
    have rest : Tidy S ok (Program.forEach siblings fun sibling =>
        recordEvent sibling .checkin
          [("source", .str "lightning_group"), ("payment_hash", .str paymentHash),
            ("paid_vault_id", .str vaultId)]) :=
      tidy_forEach (fun _ => tidy_recordEvent rfl) siblings
    dsimp only
    split
    · exact tidy_bind (tidy_recordEvent rfl) fun _ => rest
    · exact rest

omit [Everyday ok] in
theorem tidy_markPanicPaid [Lenient ok] (paymentHash : String) :
    Tidy S ok (markPanicPaid S paymentHash) := by
  refine tidy_bind tidy_now fun t => tidy_bind (tidy_payPanic paymentHash t) fun outcome => ?_
  cases outcome with
  | alreadyProcessed => exact tidy_pure _
  | noVaultRow => exact tidy_fail _
  | paid vaultId frozen =>
    dsimp only
    split
    · exact tidy_pure _
    · exact tidy_bind (tidy_recordEvent rfl) fun _ =>
        tidy_logged (tidy_notifyTrustedContactOfPanic vaultId)

omit [Everyday ok] in
theorem tidy_pollInvoices [Lenient ok] (t : Instant) :
    ∀ rows : List InvoiceRow, Tidy S ok (pollInvoices S t rows)
  | [] => tidy_pure _
  | i :: rest => by
    have ih := tidy_pollInvoices t rest
    refine tidy_bind (tidy_exec (Lenient.tame _ rfl)) fun _ =>
      tidy_bind (tidy_ask _) fun status => ?_
    split
    · split
      · exact tidy_bind (tidy_logged (tidy_markPanicPaid _)) fun _ => ih
      · exact tidy_bind (tidy_logged (tidy_markPaidAndCheckin _)) fun _ => ih
    · exact tidy_bind (tidy_logged (tidy_exec (Lenient.tame _ rfl))) fun _ => ih
    · exact tidy_bind (tidy_logged (tidy_exec (Lenient.tame _ rfl))) fun _ => ih
    · exact ih
    · exact tidy_pure _
    · exact ih

omit [Everyday ok] in
theorem tidy_pollerTick [Lenient ok] : Tidy S ok (pollerTick S) := by
  unfold pollerTick
  split
  · exact tidy_pure _
  · exact tidy_bind tidy_now fun t => tidy_bind (tidy_exec (Lenient.tame _ rfl)) fun _ =>
      tidy_bind (tidy_read _) fun rows => tidy_pollInvoices t rows

/-! ### Claims -/

theorem tidy_ensureClaimChallenge (id : VaultId) : Tidy S ok (ensureClaimChallenge S id) := by
  unfold ensureClaimChallenge
  split
  · exact tidy_pure _
  · refine tidy_bind tidy_now fun t => tidy_bind (tidy_read _) fun row =>
      tidy_bind (tidy_okOr _ _) fun r => ?_
    split
    · exact tidy_pure _
    · refine tidy_bind (tidy_update rfl) fun rows => ?_
      dsimp only
      split
      · exact tidy_bind (tidy_recordEvent rfl) fun _ =>
          tidy_bind (tidy_logged (tidy_notifyClaimOpened id)) fun _ => tidy_pure _
      · exact tidy_pure _

theorem tidy_requireWindowElapsed (id : VaultId) : Tidy S ok (requireWindowElapsed S id) := by
  refine tidy_bind (tidy_ensureClaimChallenge id) fun available => ?_
  cases available with
  | none => exact tidy_pure _
  | some available => exact tidy_fail _

theorem tidy_heirRow (token : Token) : Tidy S ok (heirRow S token) := by
  refine tidy_bind (tidy_read _) fun row => tidy_bind (tidy_okOr _ _) fun r =>
    tidy_bind (tidy_okOr _ _) fun storedHash => ?_
  split
  · exact tidy_pure _
  · exact tidy_fail _

theorem tidy_unusedHeirRow (token : Token) : Tidy S ok (unusedHeirRow S token) := by
  refine tidy_bind (tidy_heirRow token) fun r => ?_
  split
  · exact tidy_fail _
  · exact tidy_pure _

omit [Everyday ok] in
theorem tidy_storedNetwork (r : VaultRow) : Tidy S ok (storedNetwork r) := by
  unfold storedNetwork
  split
  · exact tidy_pure _
  · exact tidy_fail _

theorem tidy_loadVaultForClaimToken (token : Token) :
    Tidy S ok (loadVaultForClaimToken S token) :=
  tidy_bind (tidy_unusedHeirRow token) fun r => tidy_bind (tidy_requireWindowElapsed r.id)
    fun _ => tidy_bind (tidy_storedNetwork r) fun _ => tidy_pure _

theorem tidy_latestClaimBroadcastTxid (id : VaultId) :
    Tidy S ok (latestClaimBroadcastTxid id) :=
  tidy_bind (tidy_read _) fun _ => tidy_pure _

theorem tidy_resolveMatched (r : VaultRow) (guardianSlot : Option Nat) :
    Tidy S ok (resolveMatched S r guardianSlot) := by
  have view : ∀ claimedTxid claimAvailableAt,
      Tidy S ok (matchedView S r guardianSlot claimAvailableAt claimedTxid) := by
    intro claimedTxid claimAvailableAt
    unfold matchedView
    split
    · exact tidy_bind (tidy_crypto _) fun _ => tidy_pure _
    · exact tidy_pure _
  unfold resolveMatched
  dsimp only
  split
  · split
    · exact tidy_fail _
    · exact tidy_bind (tidy_latestClaimBroadcastTxid r.id) fun _ =>
        tidy_bind (tidy_pure none) fun _ => view _ _
  · exact tidy_bind (tidy_pure none) fun _ =>
      tidy_bind (tidy_ensureClaimChallenge r.id) fun _ => view _ _

theorem tidy_resolveClaim (token : Token) : Tidy S ok (resolveClaim S token) := by
  refine tidy_bind (tidy_read _) fun row => ?_
  cases row with
  | some r =>
    refine tidy_bind (tidy_okOr _ _) fun storedHash => ?_
    split
    · exact tidy_fail _
    · exact tidy_resolveMatched r none
  | none =>
    refine tidy_bind (tidy_read _) fun pair => tidy_bind (tidy_okOr _ _) fun found =>
      tidy_bind (tidy_okOr _ _) fun storedHash => ?_
    split
    · exact tidy_fail _
    · exact tidy_resolveMatched _ _

theorem tidy_claimUnlockEstimate (token : Token) : Tidy S ok (claimUnlockEstimate S token) := by
  refine tidy_bind (tidy_unusedHeirRow token) fun r => tidy_bind tidy_now fun t =>
    tidy_bind (tidy_unlockEstimateWithCache r t) fun est => ?_
  cases est with
  | error e => exact tidy_fail _
  | ok est => exact tidy_pure _

theorem tidy_requireMatured (r : VaultRow) : Tidy S ok (requireMatured S r) := by
  refine tidy_bind tidy_now fun t => tidy_bind (tidy_unlockEstimateWithCache r t) fun est => ?_
  cases est with
  | error e => exact tidy_fail _
  | ok est =>
    dsimp only
    split
    · exact tidy_fail _
    · exact tidy_pure _

theorem tidy_getSealedHeirXprv (token : Token) : Tidy S ok (getSealedHeirXprv S token) :=
  tidy_bind (tidy_unusedHeirRow token) fun r => tidy_bind (tidy_requireWindowElapsed r.id)
    fun _ => tidy_bind (tidy_requireMatured r) fun _ => tidy_bind (tidy_okOr _ _) fun _ =>
    tidy_bind (tidy_okOr _ _) fun _ => tidy_pure _

theorem tidy_getSealedGuardianXprv (token : Token) :
    Tidy S ok (getSealedGuardianXprv S token) := by
  refine tidy_bind (tidy_read _) fun pair => tidy_bind (tidy_okOr _ _) fun found =>
    tidy_bind (tidy_okOr _ _) fun storedHash => ?_
  split
  · exact tidy_fail _
  · split
    · exact tidy_fail _
    · exact tidy_bind (tidy_requireWindowElapsed _) fun _ => tidy_pure _

theorem tidy_getHeirDerivationParams (token : Token) :
    Tidy S ok (getHeirDerivationParams S token) := by
  refine tidy_bind (tidy_unusedHeirRow token) fun r => ?_
  split
  · exact tidy_fail _
  · exact tidy_bind (tidy_requireWindowElapsed r.id) fun _ => tidy_bind (tidy_crypto _) fun _ =>
      tidy_bind (tidy_okOr _ _) fun _ => tidy_bind (tidy_okOr _ _) fun _ =>
      tidy_bind (tidy_validated _ _) fun _ => tidy_pure _

omit [Everyday ok] in
theorem tidy_parseDestination (destination : String) (network : Network) (wrong : String) :
    Tidy S ok (parseDestination S destination network wrong) := by
  refine tidy_bind (tidy_validated _ _) fun dest => ?_
  split
  · exact tidy_pure _
  · exact tidy_fail _

omit [Everyday ok] in
theorem tidy_parseXpriv (field raw : String) (network : Network) :
    Tidy S ok (parseXpriv S field raw network) := by
  refine tidy_bind (tidy_validated _ _) fun key => ?_
  split
  · exact tidy_pure _
  · exact tidy_fail _

theorem tidy_consumeClaimToken (id : VaultId) : Tidy S ok (consumeClaimToken id) := by
  refine tidy_bind tidy_now fun t => tidy_bind (tidy_update rfl) fun rows => ?_
  split
  · exact tidy_fail _
  · exact tidy_pure _

theorem tidy_releaseAndFail {α : Type} (id : VaultId) (e : ApiError) :
    Tidy S ok (releaseAndFail id e : Prog α) :=
  tidy_bind (tidy_logged (tidy_update rfl)) fun _ => tidy_fail e

theorem tidy_spendAndPromote (id : VaultId) (setup : Except ApiError Unit) {plan : SpendPlan}
    (detail : Tx → Detail) (tidy : Tidy S ok plan) :
    Tidy S ok (spendAndPromote id setup plan detail) := by
  unfold spendAndPromote
  split
  · exact tidy_releaseAndFail id _
  · refine tidy_bind tidy fun planned => ?_
    split
    · exact tidy_releaseAndFail id _
    · refine tidy_bind (tidy_ask _) fun sent => ?_
      split
      · exact tidy_releaseAndFail id _
      · exact tidy_bind (tidy_update rfl) fun _ =>
          tidy_bind (tidy_recordEvent rfl) fun _ => tidy_pure _

theorem tidy_drainPlan (config : VaultConfig) (wallet : Except String Wallet)
    (build : Wallet → Except String BuiltPsbt) : Tidy S ok (drainPlan S config wallet build) := by
  unfold drainPlan
  split
  · exact tidy_pure _
  · refine tidy_bind (tidy_ask _) fun answer => ?_
    split
    · exact tidy_pure _
    · split
      · exact tidy_pure _
      · split
        · exact tidy_pure _
        · split <;> exact tidy_pure _

theorem tidy_broadcastClaim (token : Token) (signedPsbt : String) :
    Tidy S ok (broadcastClaim S token signedPsbt) :=
  tidy_bind (tidy_loadVaultForClaimToken token) fun _ => tidy_bind (tidy_validated _ _) fun _ =>
    tidy_bind (tidy_validated _ _) fun _ => tidy_bind (tidy_consumeClaimToken _) fun _ =>
    tidy_spendAndPromote _ _ _ (tidy_pure _)

theorem tidy_heirClaim (token : Token) (destination : String) (satPerVb : Option Nat)
    (heirXprv : String) : Tidy S ok (heirClaim S token destination satPerVb heirXprv) :=
  tidy_bind (tidy_loadVaultForClaimToken token) fun _ =>
    tidy_bind (tidy_parseDestination _ _ _) fun _ => tidy_bind (tidy_parseXpriv _ _ _) fun _ =>
    tidy_bind (tidy_consumeClaimToken _) fun _ =>
    tidy_spendAndPromote _ _ _ (tidy_drainPlan _ _ _)

theorem tidy_guardianClaim (token : Token) (destination : String) (satPerVb : Option Nat)
    (heirXprv guardianXprv : String) :
    Tidy S ok (guardianClaim S token destination satPerVb heirXprv guardianXprv) :=
  tidy_bind (tidy_loadVaultForClaimToken token) fun _ =>
    tidy_bind (tidy_parseDestination _ _ _) fun _ => tidy_bind (tidy_parseXpriv _ _ _) fun _ =>
    tidy_bind (tidy_parseXpriv _ _ _) fun _ => tidy_bind (tidy_consumeClaimToken _) fun _ =>
    tidy_spendAndPromote _ _ _ (tidy_drainPlan _ _ _)

theorem tidy_buildClaimPsbt (token : Token) (destination : String) (satPerVb : Option Nat) :
    Tidy S ok (buildClaimPsbt S token destination satPerVb) := by
  refine tidy_bind (tidy_loadVaultForClaimToken token) fun found =>
    tidy_bind (tidy_parseDestination _ _ _) fun _ => tidy_bind (tidy_validated _ _) fun _ =>
    tidy_bind (tidy_validated _ _) fun _ => tidy_bind (tidy_validated _ _) fun _ =>
    tidy_bind (tidy_ask _) fun answer => ?_
  split
  · exact tidy_fail _
  · refine tidy_bind (tidy_validated _ _) fun wallet => ?_
    split
    · exact tidy_fail _
    · exact tidy_bind (tidy_validated _ _) fun _ =>
        tidy_bind (tidy_recordEvent rfl) fun _ => tidy_pure _

/-! ### Creations -/

theorem tidy_holdClock (id : VaultId) (detail : Detail) : Tidy S ok (holdClock id detail) :=
  tidy_bind (tidy_update rfl) fun _ => tidy_recordEvent rfl

theorem tidy_rejectConflictingOwnerEmail (hash : Hash) (ownerXpub : String) :
    Tidy S ok (rejectConflictingOwnerEmail hash ownerXpub) := by
  refine tidy_bind (tidy_read _) fun conflict => ?_
  split
  · exact tidy_fail _
  · exact tidy_pure _

theorem tidy_inheritVerification (r : VaultRow) (t : Instant) :
    Tidy S ok (inheritVerification r t) := by
  unfold inheritVerification
  split
  · split
    · exact tidy_pure _
    · refine tidy_bind (tidy_read _) fun verified => ?_
      split
      · exact tidy_bind (tidy_update rfl) fun _ =>
          tidy_bind (tidy_recordEvent rfl) fun _ => tidy_pure _
      · exact tidy_pure _
  · exact tidy_pure _

theorem tidy_createVault (req : CreateVaultRequest) : Tidy S ok (createVault S req) :=
  tidy_bind (tidy_validated _ _) fun _ => tidy_bind (tidy_validated _ _) fun _ =>
    tidy_bind (tidy_validated _ _) fun _ => tidy_bind (tidy_validated _ _) fun _ =>
    tidy_bind (tidy_validated _ _) fun _ => tidy_bind (tidy_validated _ _) fun _ =>
    tidy_bind (tidy_validated _ _) fun _ => tidy_bind (tidy_ask _) fun _ =>
    tidy_bind tidy_now fun _ => tidy_bind (tidy_ask _) fun _ => tidy_bind (tidy_write rfl) fun _ =>
    tidy_bind (tidy_holdClock _ _) fun _ => tidy_pure _

theorem tidy_resolveHeir (req : CreateVaultFromXpubRequest) (network : Network) :
    Tidy S ok (resolveHeir S req network) := by
  unfold resolveHeir
  split
  · refine tidy_bind (tidy_ask _) fun id => ?_
    dsimp only
    split
    · exact tidy_fail _
    · exact tidy_bind (tidy_validated _ _) fun _ => tidy_bind (tidy_validated _ _) fun _ =>
        tidy_pure _
  · exact tidy_bind (tidy_validated _ _) fun _ => tidy_bind (tidy_ask _) fun _ => tidy_pure _

omit [Everyday ok] in
theorem tidy_sealSetup (id : VaultId) (sealed : Option SealedSetup) :
    Tidy S ok (sealSetup S id sealed) := by
  cases sealed with
  | none => exact tidy_pure _
  | some s =>
    exact tidy_bind (tidy_validated _ _) fun _ => tidy_bind (tidy_validated _ _) fun _ =>
      tidy_crypto _

theorem tidy_rejectConflictingSetup (sealed : Option SealedSetup) (ownerXpub : String) :
    Tidy S ok (rejectConflictingSetup sealed ownerXpub) := by
  cases sealed with
  | none => exact tidy_pure _
  | some s => exact tidy_rejectConflictingOwnerEmail _ _

omit [Everyday ok] in
theorem tidy_checkFromXpub (req : CreateVaultFromXpubRequest) :
    Tidy S ok (checkFromXpub S req) :=
  tidy_bind (tidy_validated _ _) fun _ => tidy_bind (tidy_validated _ _) fun _ =>
    tidy_bind (tidy_validated _ _) fun _ => tidy_bind (tidy_validated _ _) fun _ =>
    tidy_bind (tidy_validated _ _) fun _ => tidy_bind (tidy_validated _ _) fun _ => tidy_pure _

omit [Everyday ok] in
theorem tidy_buildPair (ownerKey heirKey : String × String) (timelockBlocks : Nat) :
    Tidy S ok (buildPair S ownerKey heirKey timelockBlocks) :=
  tidy_bind (tidy_validated _ _) fun _ => tidy_bind (tidy_validated _ _) fun _ =>
    tidy_bind (tidy_validated _ _) fun _ => tidy_pure _

omit [Everyday ok] in
theorem tidy_sealParties (id : VaultId) (req : CreateVaultFromXpubRequest) :
    Tidy S ok (sealParties S id req) :=
  tidy_bind (tidy_validated _ _) fun _ => tidy_bind (tidy_validated _ _) fun _ =>
    tidy_bind (tidy_crypto _) fun _ => tidy_bind (tidy_crypto _) fun _ =>
    tidy_bind (tidy_validated _ _) fun _ => tidy_bind (tidy_crypto _) fun _ =>
    tidy_bind (tidy_crypto _) fun _ => tidy_pure _

theorem tidy_createVaultFromXpub (req : CreateVaultFromXpubRequest) :
    Tidy S ok (createVaultFromXpub S req) := by
  refine tidy_bind (tidy_validated _ _) fun _ => tidy_bind (tidy_checkFromXpub req) fun network =>
    tidy_bind (tidy_validated _ _) fun owner => tidy_bind (tidy_resolveHeir req network)
    fun resolved => ?_
  dsimp only
  split
  · exact tidy_fail _
  · exact tidy_bind (tidy_buildPair _ _ _) fun _ => tidy_bind tidy_now fun _ =>
      tidy_bind (tidy_sealParties _ req) fun _ => tidy_bind (tidy_ask _) fun _ =>
      tidy_bind (tidy_sealSetup _ _) fun _ => tidy_bind (tidy_rejectConflictingSetup _ _) fun _ =>
      tidy_bind (tidy_write rfl) fun _ => tidy_bind (tidy_holdClock _ _) fun _ =>
      tidy_bind (tidy_inheritVerification _ _) fun _ => tidy_pure _

/-! ### Sends and balances -/

theorem tidy_sendPlan (config : VaultConfig) (urls : List String) (key dest : String)
    (amountSat satPerVb : Option Nat) :
    Tidy S ok (sendPlan S config urls key dest amountSat satPerVb) := by
  unfold sendPlan
  split
  · exact tidy_pure _
  · refine tidy_bind (tidy_ask _) fun answer => ?_
    split
    · exact tidy_pure _
    · split
      · exact tidy_pure _
      · split
        · exact tidy_pure _
        · split
          · exact tidy_pure _
          · split
            · exact tidy_pure _
            · refine tidy_bind (tidy_ask _) fun sent => ?_
              split <;> exact tidy_pure _

theorem tidy_recordFullDrain (id : VaultId) : Tidy S ok (recordFullDrain id) := by
  refine tidy_bind (tidy_update rfl) fun rows => ?_
  split
  · exact tidy_recordEvent rfl
  · exact tidy_pure _

theorem tidy_ownerSend (id : VaultId) (destination : String) (amountSat satPerVb : Option Nat)
    (ownerXprv : String) :
    Tidy S ok (ownerSend S id destination amountSat satPerVb ownerXprv) := by
  refine tidy_bind (tidy_read _) fun row => tidy_bind (tidy_okOr _ _) fun r =>
    tidy_bind (tidy_storedNetwork r) fun network => tidy_bind (tidy_parseDestination _ _ _)
    fun dest => ?_
  split
  · exact tidy_fail _
  · refine tidy_bind (tidy_parseXpriv _ _ _) fun key => tidy_bind (tidy_validated _ _) fun _ =>
      tidy_bind (tidy_validated _ _) fun urls => tidy_bind (tidy_sendPlan _ _ _ _ _ _)
      fun sent => ?_
    cases sent with
    | error e => exact tidy_fail _
    | ok s =>
      have told : Tidy S ok (do
          logged (enqueueOwnerEmail S id .ownerSend)
          pure ⟨s.tx.txid, s.sentSat, s.feeSat, s.remainingSat⟩ : Prog OwnerSendResponse) :=
        tidy_bind (tidy_logged (tidy_enqueueOwnerEmail id rfl)) fun _ => tidy_pure _
      refine tidy_bind (tidy_recordEvent rfl) fun _ => ?_
      dsimp only
      split
      · exact tidy_bind (tidy_recordFullDrain id) fun _ => told
      · exact told

theorem tidy_insertDeposits (id : VaultId) (t : Instant) :
    ∀ (deposits : List ConfirmedDeposit) (recorded : Nat),
      Tidy S ok (insertDeposits id t deposits recorded)
  | [], _ => tidy_pure _
  | d :: rest, recorded => by
    refine tidy_bind (tidy_attempt (tidy_write rfl)) fun inserted => ?_
    split
    · exact tidy_bind (tidy_logged (tidy_recordEvent rfl)) fun _ =>
        tidy_insertDeposits id t rest (recorded + 1)
    · exact tidy_insertDeposits id t rest recorded

theorem tidy_recordNewDeposits (id : VaultId) (deposits : List ConfirmedDeposit) (t : Instant) :
    Tidy S ok (recordNewDeposits S id deposits t) := by
  refine tidy_bind (tidy_attempt (tidy_read _)) fun prior =>
    tidy_bind (tidy_insertDeposits id t deposits 0) fun recorded => ?_
  split
  · split
    · exact tidy_logged (tidy_enqueueOwnerEmail id rfl)
    · exact tidy_pure _
  · exact tidy_pure _

theorem tidy_recordSpentDeposits (id : VaultId) (stillUnspent : List String) (t : Instant) :
    Tidy S ok (recordSpentDeposits id stillUnspent t) := by
  refine tidy_bind (tidy_attempt (tidy_read _)) fun read => ?_
  split
  · exact tidy_pure _
  · exact tidy_pure _
  · refine tidy_bind (tidy_attempt (tidy_read _)) fun spend => tidy_forEach (fun d => ?_) _
    refine tidy_bind (tidy_attempt (tidy_write rfl)) fun stamped => ?_
    split
    · split
      · exact tidy_pure _
      · exact tidy_logged (tidy_recordEvent rfl)
    · exact tidy_pure _

theorem tidy_getVaultBalance (id : VaultId) : Tidy S ok (getVaultBalance S id) := by
  refine tidy_bind (tidy_read _) fun row => tidy_bind (tidy_okOr _ _) fun r =>
    tidy_bind (tidy_storedNetwork r) fun network => tidy_bind (tidy_validated _ _) fun _ =>
    tidy_bind (tidy_validated _ _) fun urls => tidy_bind (tidy_validated _ _) fun wallet =>
    tidy_bind (tidy_ask _) fun answer => ?_
  cases answer with
  | error e => exact tidy_fail _
  | ok scan =>
    exact tidy_bind (tidy_validated _ _) fun _ => tidy_bind tidy_now fun t =>
      tidy_bind (tidy_recordNewDeposits id _ t) fun _ =>
      tidy_bind (tidy_recordSpentDeposits id _ t) fun _ => tidy_pure _

omit [Everyday ok] in
theorem tidy_reply {α : Type} {p : Prog α} (wrap : α → Reply) (tidy : Tidy S ok p) :
    Tidy S ok (p.reply wrap) :=
  tidy_bind tidy fun _ => tidy_pure _

theorem tidy_everyday {q : Request} (other : q ≠ .schedulerTick)
    (plain : ∀ req, q ≠ .createVaultGuardian req) (aside : q.writesInvoices = false) :
    Tidy S ok (q.program S) := by
  cases q with
  | createVault req => exact tidy_reply _ (tidy_createVault req)
  | createVaultFromXpub req => exact tidy_reply _ (tidy_createVaultFromXpub req)
  | createVaultGuardian req => exact absurd rfl (plain req)
  | checkin id => exact tidy_reply _ (tidy_checkin id)
  | checkinFromLink id token => exact tidy_reply _ (tidy_checkinFromLink id token)
  | issueClaim id => exact tidy_reply _ (tidy_issueClaim id)
  | deleteVault id => exact tidy_reply _ (tidy_deleteVault id)
  | invoiceStatusFromLink id token paymentHash =>
    exact tidy_reply _ (tidy_invoiceStatusFromLink id token paymentHash)
  | resolveClaim token => exact tidy_reply _ (tidy_resolveClaim token)
  | claimUnlockEstimate token => exact tidy_reply _ (tidy_claimUnlockEstimate token)
  | sealedHeir token => exact tidy_reply _ (tidy_getSealedHeirXprv token)
  | sealedGuardian token => exact tidy_reply _ (tidy_getSealedGuardianXprv token)
  | heirDerivationParams token => exact tidy_reply _ (tidy_getHeirDerivationParams token)
  | buildClaimPsbt token destination fee =>
    exact tidy_reply _ (tidy_buildClaimPsbt token destination fee)
  | broadcastClaim token psbt => exact tidy_reply _ (tidy_broadcastClaim token psbt)
  | heirClaim token destination fee key =>
    exact tidy_reply _ (tidy_heirClaim token destination fee key)
  | guardianClaim token destination fee heirKey guardianKey =>
    exact tidy_reply _ (tidy_guardianClaim token destination fee heirKey guardianKey)
  | ownerSend id destination amount fee key =>
    exact tidy_reply _ (tidy_ownerSend id destination amount fee key)
  | vaultBalance id => exact tidy_reply _ (tidy_getVaultBalance id)
  | schedulerTick => exact absurd rfl other
  | createInvoice id => cases aside
  | createInvoiceFromLink id token => cases aside
  | lnurlpCallback id amount isPanic => cases aside
  | pollerTick => cases aside

omit [Everyday ok] in
theorem tidy_request [Lenient ok] {q : Request} (other : q ≠ .schedulerTick)
    (plain : ∀ req, q ≠ .createVaultGuardian req) : Tidy S ok (q.program S) := by
  cases q with
  | createInvoice id => exact tidy_reply _ (tidy_createCheckinInvoice id)
  | createInvoiceFromLink id token => exact tidy_reply _ (tidy_createInvoiceFromLink id token)
  | lnurlpCallback id amount isPanic => exact tidy_reply _ (tidy_lnurlpCallback id amount isPanic)
  | pollerTick => exact tidy_reply _ tidy_pollerTick
  | _ => exact tidy_everyday other plain rfl

end Handlers

/-! ## §3 The creation of a guardian vault -/

section Guardian

variable {S : Server} {ok : Action → Bool} [Everyday ok]

/-- The table allows the two guardians of a vault. -/
abbrev Guards (ok : Action → Bool) : Prop :=
  ∀ g : GuardianRow, g.slot = 1 ∨ g.slot = 2 → ok (.exec (.insertGuardian g)) = true

omit [Everyday ok] in
theorem tidy_insertGuardian (guards : Guards ok) (id : VaultId) (t : Instant) {slot : Nat}
    (g : GuardianParty) (two : slot = 1 ∨ slot = 2) : Tidy S ok (insertGuardian S id t slot g) :=
  tidy_bind (tidy_crypto _) fun _ => tidy_bind (tidy_crypto _) fun _ =>
    tidy_bind (tidy_exec (guards _ two)) fun _ => tidy_pure _

omit [Everyday ok] in
theorem tidy_checkGuardian (req : CreateGuardianVaultRequest) :
    Tidy S ok (checkGuardian S req) := by
  refine tidy_bind (tidy_validated _ _) fun _ => tidy_bind (tidy_validated _ _) fun _ => ?_
  refine tidy_bind (tidy_validated _ _) fun _ => tidy_bind (tidy_validated _ _) fun _ => ?_
  refine tidy_bind (tidy_validated _ _) fun _ => tidy_bind (tidy_validated _ _) fun _ => ?_
  exact tidy_bind (tidy_validated _ _) fun _ => tidy_pure _

omit [Everyday ok] in
theorem tidy_resolveFour (req : CreateGuardianVaultRequest) :
    Tidy S ok (resolveFour S req) := by
  refine tidy_bind (tidy_validated _ _) fun _ => tidy_bind (tidy_validated _ _) fun _ => ?_
  refine tidy_bind (tidy_validated _ _) fun _ => tidy_bind (tidy_validated _ _) fun _ => ?_
  exact tidy_ite (tidy_fail _) (tidy_pure _)

omit [Everyday ok] in
theorem tidy_sealGuardianContacts (id : VaultId) (req : CreateGuardianVaultRequest) :
    Tidy S ok (sealGuardianContacts S id req) := by
  refine tidy_bind (tidy_crypto _) fun _ => tidy_bind (tidy_crypto _) fun _ => ?_
  exact tidy_bind (tidy_validated _ _) fun _ => tidy_bind (tidy_crypto _) fun _ => tidy_pure _

theorem tidy_createVaultGuardian (guards : Guards ok) (req : CreateGuardianVaultRequest) :
    Tidy S ok (createVaultGuardian S req) := by
  refine tidy_bind (tidy_validated _ _) fun _ => tidy_bind (tidy_checkGuardian req) fun network =>
    ?_
  refine tidy_bind (tidy_resolveFour req) fun parties => tidy_bind (tidy_validated _ _) fun pair =>
    tidy_bind (tidy_validated _ _) fun _ => ?_
  split
  · exact tidy_bind (tidy_ask _) fun id => tidy_bind tidy_now fun t =>
      tidy_bind (tidy_rejectConflictingOwnerEmail _ _) fun _ => tidy_bind (tidy_crypto _) fun _ =>
      tidy_bind (tidy_sealGuardianContacts id req) fun _ => tidy_bind (tidy_ask _) fun _ => tidy_bind (tidy_write rfl)
      fun _ => tidy_bind (tidy_insertGuardian guards id t _ (.inl rfl)) fun _ =>
      tidy_bind (tidy_insertGuardian guards id t _ (.inr rfl)) fun _ =>
      tidy_bind (tidy_holdClock _ _) fun _ =>
      tidy_bind (tidy_inheritVerification _ _) fun _ => tidy_pure _
  · exact tidy_fail _

end Guardian

/-! ## §4 The tick of the scheduler -/

section Tick

variable {S : Server} {ok : Action → Bool} [Everyday ok]

/-- The table allows the messages of this kind. -/
abbrev Sends (ok : Action → Bool) (kind : NotificationKind) : Prop :=
  ∀ n : NotificationRow, n.kind = kind → ok (.exec (.insertNotification n)) = true

/-- The table allows the messages of this kind, and the mark that goes with them. -/
structure Owns (ok : Action → Bool) (kind : NotificationKind) (mark : Instant → VaultUpdate) :
    Prop where
  sends : Sends ok kind
  marks : ∀ v t, ok (.exec (.updateVault v (mark t))) = true

theorem tidy_send {id : VaultId} {kind : NotificationKind} {channel : Channel}
    {recipient : String} {link : Option String} (sends : Sends ok kind) :
    Tidy S ok (enqueue S id kind channel recipient link) :=
  tidy_bind (tidy_crypto _) fun _ => tidy_bind tidy_now fun _ =>
    tidy_bind (tidy_exec (sends _ rfl)) fun _ => tidy_pure ()

theorem tidy_unfreezeExpiredPanics (nowIso : Instant) :
    Tidy S ok (unfreezeExpiredPanics nowIso) :=
  tidy_bind (tidy_read _) fun expired => tidy_forEach (fun _ => tidy_bind (tidy_update rfl)
    fun _ => tidy_recordEvent rfl) expired

theorem tidy_holdActivation (id : VaultId) : Tidy S ok (holdActivation id) := by
  refine tidy_bind (tidy_read _) fun already => ?_
  split
  · exact tidy_pure _
  · exact tidy_recordEvent rfl

theorem tidy_activateFunded (r : VaultRow) (t : Instant) :
    Tidy S ok (activateFunded S r t) := by
  refine tidy_bind (tidy_update rfl) fun rows => ?_
  split
  · exact tidy_pure _
  · exact tidy_bind (tidy_recordEvent rfl) fun _ => tidy_logged (tidy_enqueueOwnerEmail _ rfl)

theorem tidy_activateFundedVaults : Tidy S ok (activateFundedVaults S) := by
  refine tidy_bind (tidy_read _) fun rows => tidy_bind tidy_now fun t => tidy_forEach (fun r => ?_) _
  refine tidy_bind (tidy_unlockEstimateWithCache r t) fun est => ?_
  cases est with
  | error e => exact tidy_pure _
  | ok est =>
    dsimp only
    split
    · exact tidy_pure _
    · split
      · exact tidy_holdActivation r.id
      · exact tidy_activateFunded r t

theorem tidy_returnEmptyVaultToUnfunded (id : VaultId) (fromStatus : Status) (record : Bool) :
    Tidy S ok (returnEmptyVaultToUnfunded id fromStatus record) := by
  refine tidy_bind (tidy_update rfl) fun rows => ?_
  split
  · exact tidy_pure _
  · dsimp only
    split
    · exact tidy_bind (tidy_recordEvent rfl) fun _ => tidy_pure _
    · exact tidy_pure _

theorem tidy_retireIfEmpty (r : VaultRow) (fromStatus : Status) (record : Bool) (t : Instant) :
    Tidy S ok (retireIfEmpty S r fromStatus record t) := by
  refine tidy_bind (tidy_unlockEstimateWithCache r t) fun est => ?_
  cases est with
  | error e => exact tidy_pure _
  | ok est =>
    dsimp only
    split
    · exact tidy_pure _
    · exact tidy_bind (tidy_returnEmptyVaultToUnfunded _ _ _) fun _ => tidy_pure _

theorem tidy_enqueueOwnerMessage (id : VaultId) {kind : NotificationKind}
    (contact : Option OwnerContact) (hasPush : Bool) (mailLink pushLink : Option String)
    (sends : Sends ok kind) :
    Tidy S ok (enqueueOwnerMessage S id kind contact hasPush mailLink pushLink) := by
  have push : Tidy S ok
      (if hasPush then enqueue S id kind .webPush "webpush" pushLink else pure ()) := by
    split
    · exact tidy_send sends
    · exact tidy_pure _
  cases contact with
  | none => exact push
  | some c => exact tidy_bind (tidy_send sends) fun _ => push

theorem tidy_enqueuePreDeadlineReminder
    (owns : Owns ok .preDeadlineReminder .preDeadlineReminded) (r : VaultRow) (nowIso : Instant) :
    Tidy S ok (enqueuePreDeadlineReminder S r nowIso) := by
  refine tidy_bind (tidy_crypto _) fun contact => tidy_bind (tidy_read _) fun pushes => ?_
  split
  · exact tidy_pure _
  · refine tidy_bind (tidy_mintOrReuseOneTapToken r.id nowIso) fun token => ?_
    cases token with
    | none => exact tidy_pure _
    | some token =>
      exact tidy_bind (tidy_enqueueOwnerMessage _ _ _ _ _ owns.sends) fun _ =>
        tidy_bind (tidy_exec (owns.marks _ _)) fun _ => tidy_pure _

theorem tidy_enqueueAlarmOwner (sends : Sends ok .alarmOwner) (r : VaultRow) (nowIso : Instant) :
    Tidy S ok (enqueueAlarmOwner S r nowIso) := by
  refine tidy_bind (tidy_crypto _) fun contact => tidy_bind (tidy_read _) fun pushes => ?_
  split
  · exact tidy_pure _
  · exact tidy_bind (tidy_mintOrReuseOneTapToken r.id nowIso) fun token =>
      tidy_enqueueOwnerMessage _ _ _ _ _ sends

theorem tidy_alarmVault (sends : Sends ok .alarmOwner) (nowIso : Instant) (r : VaultRow) :
    Tidy S ok (alarmVault S nowIso r) :=
  tidy_bind (tidy_update rfl) fun _ => tidy_bind (tidy_recordEvent rfl) fun _ =>
    tidy_logged (tidy_enqueueAlarmOwner sends r nowIso)

theorem tidy_escalateVault (owns : Owns ok .alarmEscalation .escalated) (nowIso : Instant)
    (r : VaultRow) :
    Tidy S ok (escalateVault S nowIso r) := by
  refine tidy_bind (tidy_attempt (tidy_bind (tidy_crypto _) fun contact => ?_)) fun sent => ?_
  · cases contact with
    | none => exact tidy_pure _
    | some c =>
      exact tidy_bind (tidy_mintOrReuseOneTapToken r.id nowIso) fun token =>
        tidy_send owns.sends
  · cases sent with
    | error e => exact tidy_pure _
    | ok _ => exact tidy_bind (tidy_exec (owns.marks _ _)) fun _ => tidy_pure _

theorem tidy_heirContactReady (r : VaultRow) (t : Instant) :
    Tidy S ok (heirContactReady S r t) := by
  unfold heirContactReady
  split
  · exact tidy_pure _
  · refine tidy_bind (tidy_unlockEstimateWithCache r t) fun est => ?_
    cases est <;> exact tidy_pure _

theorem tidy_onchainFundsReady (r : VaultRow) (t : Instant) :
    Tidy S ok (onchainFundsReady S r t) := by
  unfold onchainFundsReady
  split
  · exact tidy_pure _
  · refine tidy_bind (tidy_unlockEstimateWithCache r t) fun est => ?_
    cases est <;> exact tidy_pure _

theorem tidy_enqueueClaimLink (r : VaultRow) (token : Token) :
    Tidy S ok (enqueueClaimLink S r token) := by
  refine tidy_bind (tidy_crypto _) fun contact => ?_
  cases contact with
  | none => exact tidy_pure _
  | some c =>
    dsimp only
    split
    · exact tidy_enqueue rfl
    · exact tidy_pure _

theorem tidy_enqueueGuardianClaimLink (id : VaultId) (g : GuardianRow) :
    Tidy S ok (enqueueGuardianClaimLink S id g) := by
  unfold enqueueGuardianClaimLink
  split
  · exact tidy_pure _
  · refine tidy_bind (tidy_crypto _) fun token => tidy_bind (tidy_crypto _) fun contact => ?_
    cases contact with
    | none => exact tidy_pure _
    | some c => exact tidy_enqueue rfl

theorem tidy_triggerToken (r : VaultRow) : Tidy S ok (triggerToken S r) := by
  unfold triggerToken
  split
  · exact tidy_bind (tidy_crypto _) fun _ => tidy_pure _
  · exact tidy_bind (tidy_ask _) fun _ => tidy_pure _

theorem tidy_openClaim (nowIso : Instant) (r : VaultRow) :
    Tidy S ok (openClaim S nowIso r) := by
  refine tidy_bind (tidy_triggerToken r) fun found => tidy_bind (tidy_update ?_) fun _ =>
    tidy_bind (tidy_recordEvent rfl) fun _ =>
    tidy_bind (tidy_logged (tidy_enqueueClaimLink r _)) fun _ =>
    tidy_logged (tidy_bind (tidy_read _) fun rows =>
      tidy_forEach (tidy_enqueueGuardianClaimLink r.id) rows)
  unfold triggerUpdate
  split <;> rfl

theorem tidy_triggerVault (nowIso : Instant) (r : VaultRow) :
    Tidy S ok (triggerVault S nowIso r) := by
  refine tidy_bind tidy_now fun t => tidy_bind (tidy_heirContactReady r t) fun gate => ?_
  cases gate with
  | waiting => exact tidy_pure _
  | empty => exact tidy_bind (tidy_returnEmptyVaultToUnfunded _ _ _) fun _ => tidy_pure _
  | ready => exact tidy_openClaim nowIso r

theorem tidy_sendClaimReadyNotice (owns : Owns ok .claimReady .claimReadyNotified) (t : Instant)
    (r : VaultRow) (openedAt : Instant) :
    Tidy S ok (sendClaimReadyNotice S t r openedAt) := by
  unfold sendClaimReadyNotice
  split
  · exact tidy_pure _
  · refine tidy_bind (tidy_onchainFundsReady r t) fun ready => ?_
    split
    · exact tidy_pure _
    · refine tidy_bind (tidy_exec (owns.marks _ _)) fun rows => ?_
      split
      · exact tidy_pure _
      · refine tidy_bind (tidy_crypto _) fun contact => ?_
        cases contact with
        | none => exact tidy_pure _
        | some c =>
          dsimp only
          split
          · exact tidy_pure _
          · split
            · exact tidy_pure _
            · split
              · exact tidy_bind (tidy_pure none) fun _ => tidy_logged (tidy_send owns.sends)
              · exact tidy_bind (tidy_crypto _) fun _ => tidy_logged (tidy_send owns.sends)

theorem tidy_sendClaimReadyNotices (owns : Owns ok .claimReady .claimReadyNotified) :
    Tidy S ok (sendClaimReadyNotices S) := by
  unfold sendClaimReadyNotices
  split
  · exact tidy_pure _
  · exact tidy_bind (tidy_read _) fun rows => tidy_bind tidy_now fun t =>
      tidy_forEach (fun d => tidy_sendClaimReadyNotice owns t d.1 d.2) rows

theorem tidy_tickOwnerSteps (reminders : Owns ok .preDeadlineReminder .preDeadlineReminded)
    (alarms : Sends ok .alarmOwner) (escalations : Owns ok .alarmEscalation .escalated) (nowIso : Instant) :
    Tidy S ok (tickOwnerSteps S nowIso) :=
  tidy_bind (tidy_unfreezeExpiredPanics nowIso) fun _ =>
    tidy_bind tidy_activateFundedVaults fun _ =>
    tidy_bind (tidy_bind (tidy_read _) fun rows => tidy_bind tidy_now fun t =>
      tidy_forEach (fun r => tidy_retireIfEmpty r .ok true t) rows) fun _ =>
    tidy_bind (tidy_bind (tidy_read _) fun rows => tidy_bind tidy_now fun t =>
      tidy_forEach (fun r => tidy_retireIfEmpty r r.life.status false t) rows) fun _ =>
    tidy_bind (tidy_bind (tidy_read _) fun due =>
      tidy_forEach (fun r => tidy_logged (tidy_enqueuePreDeadlineReminder reminders r nowIso)) due) fun _ =>
    tidy_bind (tidy_bind (tidy_read _) fun due =>
      tidy_forEach (fun d => tidy_alarmVault alarms nowIso d.1) due) fun _ =>
    tidy_bind (tidy_read _) fun due => tidy_forEach (fun d => tidy_escalateVault escalations nowIso d.1) due

theorem tidy_probeLightning : Tidy S ok (probeLightning S) := by
  unfold probeLightning
  cases S.lightningEnabled with
  | true => exact tidy_ask _
  | false => exact tidy_pure _

theorem tidy_transitionAlarmedToClaimable (nowIso : Instant) :
    Tidy S ok (transitionAlarmedToClaimable S nowIso) :=
  tidy_bind (tidy_read _) fun due => tidy_forEach (tidy_triggerVault nowIso) due

/-- The table allows the scheduler's messages and marks. -/
structure Ticks (ok : Action → Bool) : Prop where
  reminders : Owns ok .preDeadlineReminder .preDeadlineReminded
  alarms : Sends ok .alarmOwner
  escalations : Owns ok .alarmEscalation .escalated
  notices : Owns ok .claimReady .claimReadyNotified
  gate : ∀ lnHealthy t, ok (.updateLnGate lnHealthy t) = true

theorem tidy_tickOnce (ticks : Ticks ok) : Tidy S ok (tickOnce S) := by
  refine tidy_bind tidy_now fun nowIso =>
    tidy_bind (tidy_tickOwnerSteps ticks.reminders ticks.alarms ticks.escalations nowIso) fun _ =>
    tidy_bind tidy_probeLightning fun lnHealthy => tidy_bind tidy_now fun t =>
    tidy_bind (tidy_perform (ticks.gate _ _)) fun suppress => ?_
  split
  · exact tidy_pure _
  · exact tidy_bind (tidy_transitionAlarmedToClaimable nowIso) fun _ =>
      tidy_sendClaimReadyNotices ticks.notices

end Tick

/-! ## §5 At a position of a run -/

/-- Who may do what. -/
def Entitled (S : Server) (q : Request) (h : Hist) (a : Action) : Prop :=
  a.isTame = true ∨ Minted S h a ∨ (q = .schedulerTick ∧ a.isTick = true) ∨
    ((∃ req, q = .createVaultGuardian req) ∧ a.isGuardian = true)

theorem sends_isTick {kind : NotificationKind} (own : kind.isDrill = false) :
    Sends Action.isTick kind := fun n same => by
  rw [Action.isTick, same, own, Bool.not_false]

theorem ticks_isTick : Ticks Action.isTick where
  reminders := ⟨sends_isTick rfl, fun _ _ => rfl⟩
  alarms := sends_isTick rfl
  escalations := ⟨sends_isTick rfl, fun _ _ => rfl⟩
  notices := ⟨sends_isTick rfl, fun _ _ => rfl⟩
  gate _ _ := rfl

theorem guards_isGuardian : Guards Action.isGuardian := fun _ two => decide_eq_true two

theorem tidiness (S : Server) (q : Request) :
    Meets (fun h e => Entitled S q h e.action) (fun _ _ => True) (q.program S) [] := by
  by_cases tick : q = .schedulerTick
  · subst tick
    refine Meets.bind (Meets.mono ((tidy_tickOnce ticks_isTick).meets []) (fun g e good => ?_)
      fun _ _ _ => trivial) (fun _ _ _ _ => trivial) fun _ _ _ _ => trivial
    rcases good with allowed | minted
    · exact .inr (.inr (.inl ⟨rfl, allowed⟩))
    · exact .inr (.inl minted)
  by_cases guardian : ∃ req, q = .createVaultGuardian req
  · obtain ⟨req, rfl⟩ := guardian
    refine Meets.bind (Meets.mono ((tidy_createVaultGuardian guards_isGuardian req).meets [])
      (fun g e good => ?_) fun _ _ _ => trivial) (fun _ _ _ _ => trivial) fun _ _ _ _ => trivial
    rcases good with allowed | minted
    · exact .inr (.inr (.inr ⟨⟨req, rfl⟩, allowed⟩))
    · exact .inr (.inl minted)
  have tidy : Tidy S Action.isTame (q.program S) :=
    tidy_request tick fun req same => guardian ⟨req, same⟩
  refine Meets.mono (tidy.meets []) (fun g e good => ?_) fun _ _ _ => trivial
  rcases good with tame | minted
  · exact .inl tame
  · exact .inr (.inl minted)

/-- Whatever a thread does it is entitled to. -/
theorem Runs.entitled {S : Server} {t₀ : Instant} {tr : Trace} {s : SrvStep} {i k : Nat}
    (runs : Runs S t₀ tr) (at_k : tr[k]? = some s) {a : Action} {r : a.Response}
    (did : Did i a r s) :
    ∃ q, Started i q (tr.take k) ∧ Entitled S q (history i k tr) a := by
  obtain ⟨c, run⟩ := runs
  exact run.acted_at (S := server S) (I := fun q h e => Entitled S q h e.action)
    (F := fun _ _ _ => True) (tidiness S) at_k did

end GhostKey

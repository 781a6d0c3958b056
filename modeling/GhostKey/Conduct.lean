import GhostKey.System

/-!
# How the Handlers Conduct Themselves

What may be said of a handler's next action from its history alone, whatever the
answers were. Most actions are free: they read, log or queue, and nothing below
depends on them. The others need a warrant: `Justified` says, for each of them,
what the handler has seen and done before it.

Layers:
1. Histories: what a handler has read, run and looked up.
2. `Action.isFree` and `Justified`.
3. The rules: a step, a free part, a part with a postcondition.
-/

namespace GhostKey

open Foundation Program Prog

/-! ## §1 Histories -/

/-- The query was answered with `r`. -/
def Read (h : Hist) (q : Query) (r : q.Result) : Prop := (⟨.query q, .ok r⟩ : Ev) ∈ h

def ClockRead (h : Hist) (t : Instant) : Prop := (⟨.now, t⟩ : Ev) ∈ h

/-- The statement succeeded and affected `n` rows. -/
def Ran (h : Hist) (st : Stmt) (n : Nat) : Prop := (⟨.exec st, .ok n⟩ : Ev) ∈ h

/-- A lookup by bearer token that found the vault `v`. -/
inductive FoundByToken (v : VaultId) : Ev → Prop
  | heir {hash : Hash} {r : VaultRow} (id : r.id = v) :
      FoundByToken v ⟨.query (.vaultByClaimToken hash), .ok (some r)⟩
  | guardian {hash : Hash} {g : GuardianRow} {r : VaultRow} (id : r.id = v) :
      FoundByToken v ⟨.query (.guardianByClaimToken hash), .ok (some (g, r))⟩

/-- The handler has found the vault by a bearer token. -/
def Loaded (h : Hist) (v : VaultId) : Prop := ∃ e ∈ h, FoundByToken v e

/-- The handler's window check of `v` has let it through: the row it read then
carried a stamp that was a whole window old at a time it had read before. -/
def WindowPassed (S : Server) (v : VaultId) (h : Hist) : Prop :=
  S.challengeWindowSecs = 0 ∨
    ∃ h₁ h₂ r opened t, h = h₁ ++ (⟨.query (.vault v), .ok (some r)⟩ : Ev) :: h₂ ∧
      ClockRead h₁ t ∧ r.life.claimOpenedAt = some opened ∧ opened + S.window ≤ t

/-- The handler's compare-and-swap on the claim token of `v` succeeded. -/
def Consumed (h : Hist) (v : VaultId) : Prop :=
  ∃ t, Ran h (.updateVault v (.consumeClaimToken t)) 1

def IsBroadcast (e : Ev) : Prop := ∃ urls tx, e.action = .ask (.broadcast urls tx)

/-- The vault rows an answer consists of. -/
def Query.rows : (q : Query) → q.Result → List VaultRow
  | .vault _, row => row.toList
  | .vaultByCheckinLink _ _, row => row.toList
  | .vaultByClaimToken _, row => row.toList
  | .guardianByClaimToken _, pair => (pair.map Prod.snd).toList
  | .expiredPanics _, rows => rows
  | .unfundedVaults, rows => rows
  | .okVaultsWithDeposit, rows => rows
  | .neverFundedVaults, rows => rows
  | .preDeadlineDue _ _, rows => rows
  | .deadlineMissed _, rows => rows.map Prod.fst
  | .escalationDue _ _, rows => rows.map Prod.fst
  | .claimEligible _, rows => rows
  | .claimReady, rows => rows.map Prod.fst
  | _, _ => []

/-- The handler has read the row. -/
def Seen (h : Hist) (r : VaultRow) : Prop := ∃ q res, Read h q res ∧ r ∈ q.rows res

/-- An explorer's scan of the vault of `r`, asked after the clock was read at `t`,
amounts to `est`. -/
def Scanned (h : Hist) (r : VaultRow) (t : Instant) (est : UnlockEstimate) : Prop :=
  ∃ h₁ h₂ urls scan, h = h₁ ++ (⟨.ask (.fullScan urls r.settings.descriptorExternal
      r.settings.descriptorInternal), .ok scan⟩ : Ev) :: h₂ ∧
    ClockRead h₁ t ∧ est = scan.estimate r.settings.timelockBlocks

/-- What the handler takes for the state of the chain at `t`: the cached estimate of
the row, while it is fresh, or a scan. -/
def Estimated (h : Hist) (r : VaultRow) (t : Instant) (est : UnlockEstimate) : Prop :=
  cachedEstimate r t = some est ∨ Scanned h r t est

/-- The chain gate of `r`, where there is one, was found ready. -/
def GatePassed (S : Server) (h : Hist) (r : VaultRow) : Prop :=
  (S.onchainGateEnabled = false ∨ S.demoMode = true) ∨
    ∃ t est, ClockRead h t ∧ Estimated h r t est ∧ heirContactGate est (leadBlocks S) = .ready

/-- The vault was found to hold nothing. -/
def FoundEmpty (h : Hist) (v : VaultId) : Prop :=
  ∃ r t est, r.id = v ∧ Seen h r ∧ ClockRead h t ∧ Estimated h r t est ∧ est.hasUnspent = false

/-- The columns a scan is remembered in. -/
def UnlockEstimate.cache (est : UnlockEstimate) (t : Instant) : ChainCache :=
  ⟨est.unlockHeight, some est.tipHeight, some t, some est.hasUnspent⟩

/-- Nothing has been broadcast yet. -/
def Quiet (h : Hist) : Prop := ∀ e ∈ h, ¬ IsBroadcast e

theorem Loaded.mono {h g : Hist} {v : VaultId} (sub : h ⊆ g) (loaded : Loaded h v) :
    Loaded g v := by
  obtain ⟨e, mem, found⟩ := loaded
  exact ⟨e, sub mem, found⟩

theorem WindowPassed.mono {S : Server} {h g : Hist} {v : VaultId} (grown : h <+: g)
    (passed : WindowPassed S v h) : WindowPassed S v g := by
  rcases passed with zero | ⟨h₁, h₂, r, opened, t, rfl, rest⟩
  · exact .inl zero
  · obtain ⟨more, rfl⟩ := grown
    exact .inr ⟨h₁, h₂ ++ more, r, opened, t, by simp, rest⟩

section Membership

variable {h g : Hist} {qu : Query} {r : qu.Result} {t : Instant} {st : Stmt} {n : Nat} {v : VaultId}

theorem Read.here : Read (h ++ [⟨.query qu, .ok r⟩]) qu r :=
  List.mem_append_right h (List.mem_singleton_self _)

theorem Read.mono (sub : h ⊆ g) (read : Read h qu r) : Read g qu r := sub read

theorem Read.later {e : Ev} (read : Read h qu r) : Read (h ++ [e]) qu r :=
  List.mem_append_left _ read

theorem ClockRead.here : ClockRead (h ++ [⟨.now, t⟩]) t :=
  List.mem_append_right h (List.mem_singleton_self _)

theorem ClockRead.mono (sub : h ⊆ g) (read : ClockRead h t) : ClockRead g t := sub read

theorem ClockRead.later {e : Ev} (read : ClockRead h t) : ClockRead (h ++ [e]) t :=
  List.mem_append_left _ read

theorem Ran.here : Ran (h ++ [⟨.exec st, .ok n⟩]) st n :=
  List.mem_append_right h (List.mem_singleton_self _)

theorem Ran.mono (sub : h ⊆ g) (ran : Ran h st n) : Ran g st n := sub ran

theorem Seen.here {row : VaultRow} (mem : row ∈ qu.rows r) : Seen (h ++ [⟨.query qu, .ok r⟩]) row :=
  ⟨qu, r, .here, mem⟩

theorem Seen.mono {row : VaultRow} (sub : h ⊆ g) (seen : Seen h row) : Seen g row := by
  obtain ⟨q, res, read, mem⟩ := seen
  exact ⟨q, res, read.mono sub, mem⟩

theorem Scanned.mono {row : VaultRow} {est : UnlockEstimate} (grown : h <+: g)
    (scanned : Scanned h row t est) : Scanned g row t est := by
  obtain ⟨h₁, h₂, urls, scan, rfl, rest⟩ := scanned
  obtain ⟨more, rfl⟩ := grown
  exact ⟨h₁, h₂ ++ more, urls, scan, by simp, rest⟩

theorem Estimated.mono {row : VaultRow} {est : UnlockEstimate} (grown : h <+: g)
    (estimated : Estimated h row t est) : Estimated g row t est :=
  estimated.imp_right (Scanned.mono grown)

theorem GatePassed.mono {S : Server} {row : VaultRow} (grown : h <+: g)
    (passed : GatePassed S h row) : GatePassed S g row := by
  rcases passed with off | ⟨t, est, clock, estimated, ready⟩
  · exact .inl off
  · exact .inr ⟨t, est, clock.mono grown.subset, estimated.mono grown, ready⟩

end Membership

/-! ## §2 Free actions and warrants -/

def VaultUpdate.isFree : VaultUpdate → Bool
  | ownerContactVerified _ => true
  | mintOneTapToken _ _ => true
  | preDeadlineReminded _ => true
  | escalated _ => true
  | claimReadyNotified _ => true
  | _ => false

def Stmt.isFree : Stmt → Bool
  | updateVault _ u => u.isFree
  | insertVault _ => false
  | deleteVault _ => false
  | insertEvent e => e.kind ≠ .claimIssued
  | insertNotification n => n.kind ≠ .claimLink
  | _ => true

def Query.isFree : Query → Bool
  | vaultByClaimToken _ => false
  | guardianByClaimToken _ => false
  | deadlineMissed _ => false
  | claimEligible _ => false
  | _ => true

def External.isFree : External → Bool
  | broadcast _ _ => false
  | _ => true

def Action.isFree : Action → Bool
  | query q => q.isFree
  | exec st => st.isFree
  | ask x => x.isFree
  | payCheckin _ _ => false
  | payPanic _ _ => false
  | _ => true

/-- The requests that spend with a claim token. -/
def Request.spends : Request → Bool
  | broadcastClaim .. => true
  | heirClaim .. => true
  | guardianClaim .. => true
  | _ => false

/-- The requests that come with a claim token. -/
def Request.byToken : Request → Bool
  | resolveClaim _ => true
  | claimUnlockEstimate _ => true
  | sealedHeir _ => true
  | sealedGuardian _ => true
  | heirDerivationParams _ => true
  | buildClaimPsbt .. => true
  | q => q.spends

/-- The token a trigger opens the claim of `r` with, its hash, and whether it is
the one kept at rest. -/
def TriggerToken (S : Server) (r : VaultRow) (token : Token) (hash : Hash) (reused : Bool) : Prop :=
  match reused with
  | true => ∃ stored, r.keys.claimTokenAtRest = some stored ∧
      S.openClaimTokenAtRest r.id stored = .ok token ∧
      hash = r.life.claimTokenHash.getD (S.hashClaimToken token)
  | false => r.keys.claimTokenAtRest = none ∧ hash = S.hashClaimToken token

/-- The row is in a batch of claims that are due. -/
def DueClaim (h : Hist) (nowIso : Instant) (r : VaultRow) : Prop :=
  ∃ rows : List VaultRow, Read h (.claimEligible nowIso) rows ∧ r ∈ rows

/-- The tick has run its UPDATE that opens the claim of `r`, a row of a batch it had
read by then, with `n` rows affected. -/
def OpenedClaim (S : Server) (h : Hist) (r : VaultRow) (token : Token) (hash : Hash) (n : Nat) :
    Prop :=
  ∃ h₁ h₂ nowIso reused, h = h₁ ++ (⟨.exec (.updateVault r.id (triggerUpdate hash reused nowIso)),
      .ok n⟩ : Ev) :: h₂ ∧ DueClaim h₁ nowIso r ∧ TriggerToken S r token hash reused

/-- The link goes to the heir, or to a guardian of the vault. -/
def ClaimLinkFor (S : Server) (h : Hist) (v : VaultId) (token : Token) (link : Option String) :
    Prop :=
  link = some (S.claimUrl token) ∨
    ∃ (rows : List GuardianRow) (g : GuardianRow) (stored : String) (own : Token),
      Read h (.guardians v) rows ∧ g ∈ rows ∧ g.claimTokenAtRest = some stored ∧
        S.openClaimTokenAtRest v stored = .ok own ∧ link = some (S.claimUrl own)

theorem DueClaim.mono {h g : Hist} {nowIso : Instant} {r : VaultRow} (due : DueClaim h nowIso r)
    (sub : h ⊆ g) : DueClaim g nowIso r := by
  obtain ⟨rows, read, mem⟩ := due
  exact ⟨rows, read.mono sub, mem⟩

theorem OpenedClaim.mono {S : Server} {h g : Hist} {r : VaultRow} {token : Token} {hash : Hash}
    {n : Nat} (opened : OpenedClaim S h r token hash n) (grown : h <+: g) :
    OpenedClaim S g r token hash n := by
  obtain ⟨h₁, h₂, nowIso, reused, rfl, rest⟩ := opened
  obtain ⟨more, rfl⟩ := grown
  exact ⟨h₁, h₂ ++ more, nowIso, reused, by simp, rest⟩

theorem ClaimLinkFor.mono {S : Server} {h g : Hist} {v : VaultId} {token : Token}
    {link : Option String} (for_ : ClaimLinkFor S h v token link) (sub : h ⊆ g) :
    ClaimLinkFor S g v token link := by
  rcases for_ with heir | ⟨rows, gu, stored, own, read, rest⟩
  · exact .inl heir
  · exact .inr ⟨rows, gu, stored, own, read.mono sub, rest⟩

/-- What a handler has seen before it runs `u` over the row of `v`. -/
def Warranted (S : Server) (q : Request) (h : Hist) (v : VaultId) : VaultUpdate → Prop
  | .setInitialStatus status => status = initialVaultStatus
  | .checkin t next claimEligible =>
      ∃ r, Read h (.vault v) (some r) ∧ ClockRead h t ∧ r.life.status ≠ .unfunded ∧
        r.life.status ≠ .claimed ∧ next = t + r.settings.cycle ∧
        claimEligible = next + r.settings.grace
  | .checkinFromLink storedHash t next claimEligible =>
      ∃ hash r, Read h (.vaultByCheckinLink v hash) (some r) ∧ ClockRead h t ∧
        r.life.checkinLinkTokenHash = some storedHash ∧ r.life.status ≠ .claimed ∧
        next = t + r.settings.cycle ∧ claimEligible = next + r.settings.grace
  | .resetVaultClock .. => False
  | .panicFreeze _ => False
  | .issueClaim hash t =>
      q = .issueClaim v ∧ ClockRead h t ∧ ∃ token, hash = S.hashClaimToken token
  | .stampClaimOpened t => Loaded h v ∧ ClockRead h t
  | .consumeClaimToken _ =>
      q.spends = true ∧ Loaded h v ∧ WindowPassed S v h ∧ Quiet h
  | .releaseClaimToken => Consumed h v
  | .promoteClaimed => Consumed h v ∧ ∃ urls tx, (⟨.ask (.broadcast urls tx), .ok ()⟩ : Ev) ∈ h
  | .activate next claimEligible =>
      q = .schedulerTick ∧ ∃ (rows : List VaultRow) (r : VaultRow) (t : Instant), Read h .unfundedVaults rows ∧
        r ∈ rows ∧ r.id = v ∧ ClockRead h t ∧ next = t + r.settings.cycle ∧
        claimEligible = next + r.settings.grace ∧ ownerEmailUnconfirmed r.contacts = false ∧
        ∃ est, Estimated h r t est ∧ est.hasUnspent = true
  | .cacheEstimate cache =>
      ∃ r t est, r.id = v ∧ Seen h r ∧ Scanned h r t est ∧ cache = est.cache t
  | .returnEmpty fromStatus =>
      FoundEmpty h v ∧ (fromStatus = .ok ∨ fromStatus = .alarmed ∨
        ∃ (rows : List VaultRow) (r : VaultRow), Read h .neverFundedVaults rows ∧ r ∈ rows ∧
          fromStatus = r.life.status)
  | .unfreeze =>
      q = .schedulerTick ∧ ∃ (nowIso : Instant) (rows : List VaultRow) (r : VaultRow),
        ClockRead h nowIso ∧ Read h (.expiredPanics nowIso) rows ∧ r ∈ rows ∧ r.id = v
  | .alarm =>
      q = .schedulerTick ∧ ∃ (nowIso : Instant) (rows : List (VaultRow × Instant))
        (d : VaultRow × Instant), Read h (.deadlineMissed nowIso) rows ∧ d ∈ rows ∧ d.1.id = v
  | .openReused hash nowIso =>
      q = .schedulerTick ∧ ∃ r token, DueClaim h nowIso r ∧ r.id = v ∧
        TriggerToken S r token hash true ∧ GatePassed S h r
  | .openFresh hash nowIso =>
      q = .schedulerTick ∧ ∃ r token, DueClaim h nowIso r ∧ r.id = v ∧
        TriggerToken S r token hash false ∧ GatePassed S h r
  | _ => True

/-- The row a creation handler inserts. -/
def NewRow (S : Server) (h : Hist) (r : VaultRow) : Prop :=
  ∃ t token, ClockRead h t ∧ r.life = newLife r.settings t (Option.map S.hashClaimToken token) ∧
    0 < r.settings.checkinPeriodSecs ∧ 0 < r.settings.gracePeriodSecs ∧
    (r.keys.claimTokenAtRest.isSome = token.isSome) ∧
    (∀ tok, token = some tok → ∃ stored, r.keys.claimTokenAtRest = some stored ∧
      S.sealClaimTokenAtRest r.id tok = .ok stored) ∧ r.chain = .unscanned

/-- What warrants a handler's next action. -/
def Justified (S : Server) (q : Request) (h : Hist) : Action → Prop
  | .exec (.updateVault v u) => Warranted S q h v u
  | .exec (.insertVault r) => NewRow S h r
  | .exec (.deleteVault v) =>
      ∃ r, Read h (.vault v) (some r) ∧ claimIsLive r.life.status = false
  | .exec (.insertEvent ev) =>
      ev.kind = .claimIssued → q = .issueClaim ev.vaultId ∨
        q = .schedulerTick ∧ ∃ r token hash n, r.id = ev.vaultId ∧ OpenedClaim S h r token hash n ∧
          ("token_hash", .str hash) ∈ ev.detail
  | .exec (.insertNotification nt) =>
      nt.kind = .claimLink → q = .schedulerTick ∧
        ∃ r token hash n, r.id = nt.vaultId ∧ OpenedClaim S h r token hash n ∧
          ClaimLinkFor S h r.id token nt.link
  | .query (.vaultByClaimToken _) => q.byToken = true
  | .query (.guardianByClaimToken _) => q.byToken = true
  | .query (.deadlineMissed t) => ClockRead h t
  | .query (.claimEligible t) => ClockRead h t
  | .ask (.broadcast _ _) =>
      Quiet h ∧ (∀ v, Loaded h v → WindowPassed S v h ∧ Consumed h v) ∧
        (q.spends = true → ∃ v, Loaded h v)
  | .payCheckin _ t => ClockRead h t
  | .payPanic _ t => ClockRead h t
  | _ => True

theorem justified_of_free {S : Server} {q : Request} {h : Hist} {a : Action}
    (free : a.isFree = true) : Justified S q h a := by
  cases a with
  | exec st =>
    cases st with
    | updateVault v u => cases u <;> trivial
    | insertEvent ev =>
      intro issued
      simp [Action.isFree, Stmt.isFree, issued] at free
    | insertNotification nt =>
      intro link
      simp [Action.isFree, Stmt.isFree, link] at free
    | insertVault r => cases free
    | deleteVault v => cases free
    | _ => trivial
  | query qu => cases qu <;> trivial
  | ask x => cases x <;> trivial
  | payCheckin paymentHash t => cases free
  | payPanic paymentHash t => cases free
  | _ => trivial

/-! ## §3 Free programs -/

/-- Only free actions, whatever the answers. -/
abbrev Free {α : Type} (p : Prog α) : Prop := p.Only fun a => a.isFree = true

/-- An action that neither looks a token up nor broadcasts. -/
def Action.isMild : Action → Bool
  | query q => q.isFree
  | ask x => x.isFree
  | _ => true

theorem Action.mild_of_free {a : Action} (free : a.isFree = true) : a.isMild = true := by
  cases a <;> first | exact free | rfl

/-- What a free program, or one that estimates, adds to a history. -/
def FreeSince (h g : Hist) : Prop := ∀ e ∈ g, e ∈ h ∨ e.action.isMild = true

/-- Nothing has been broadcast and no token has been looked up. -/
def Idle (h : Hist) : Prop := Quiet h ∧ ∀ v, ¬ Loaded h v

section Since

variable {h g k : Hist} {v : VaultId}

theorem FreeSince.refl : FreeSince h h := fun _ mem => .inl mem

theorem FreeSince.trans (first : FreeSince h g) (second : FreeSince g k) : FreeSince h k := by
  intro e mem
  rcases second e mem with old | free
  · exact first e old
  · exact .inr free

theorem FreeSince.snoc {a : Action} {r : a.Response} (mild : a.isMild = true) :
    FreeSince h (h ++ [⟨a, r⟩]) := by
  intro e mem
  rcases List.mem_append.1 mem with old | new
  · exact .inl old
  · rw [List.mem_singleton] at new
    subst new
    exact .inr mild

theorem not_isBroadcast_of_mild {e : Ev} (mild : e.action.isMild = true) : ¬ IsBroadcast e := by
  rintro ⟨urls, tx, same⟩
  rw [same] at mild
  cases mild

theorem not_foundByToken_of_mild {e : Ev} (mild : e.action.isMild = true) :
    ¬ FoundByToken v e := by
  rintro (_ | _) <;> cases mild

theorem FreeSince.quiet (since : FreeSince h g) (quiet : Quiet h) : Quiet g := fun e mem =>
  (since e mem).elim (quiet e) not_isBroadcast_of_mild

theorem FreeSince.loaded (since : FreeSince h g) (loaded : Loaded g v) : Loaded h v := by
  obtain ⟨e, mem, found⟩ := loaded
  rcases since e mem with old | free
  · exact ⟨e, old, found⟩
  · exact absurd found (not_foundByToken_of_mild free)

theorem FreeSince.idle (since : FreeSince h g) (idle : Idle h) : Idle g :=
  ⟨since.quiet idle.1, fun v loaded => idle.2 v (since.loaded loaded)⟩

theorem Idle.nil : Idle [] := by
  refine ⟨fun e mem => ?_, fun v loaded => ?_⟩
  · cases mem
  · obtain ⟨e, mem, -⟩ := loaded
    cases mem

end Since

section Free

variable {α : Type}

theorem free_logged {p : Prog α} (free : Free p) : Free (logged p) :=
  .bind free.attempt fun _ => trivial

@[simp] theorem free_now : Free Prog.now := Program.Only.perform rfl

theorem free_ask {x : External} (free : x.isFree = true) : Free (ask x) := .perform free

theorem free_query {q : Query} (free : q.isFree = true) : Free (query q) := by
  refine ⟨free, fun r => ?_⟩
  cases r <;> trivial

theorem free_exec {st : Stmt} (free : st.isFree = true) : Free (exec st) := by
  refine ⟨free, fun r => ?_⟩
  cases r <;> trivial

@[simp] theorem free_okOr (e : ApiError) (x : Option α) : Free (okOr e x) := by
  cases x <;> trivial

@[simp] theorem free_validated (pre : String) (x : Except String α) : Free (validated pre x) := by
  cases x <;> trivial

@[simp] theorem free_crypto (x : Except Unit α) : Free (crypto x) := by
  cases x <;> trivial

theorem free_recordEvent {id : VaultId} {kind : EventKind} {detail : Detail}
    (other : kind ≠ .claimIssued) : Free (recordEvent id kind detail) :=
  .bind free_now fun _ =>
    .bind (free_exec (by simpa [Stmt.isFree] using other)) fun _ => trivial

theorem free_enqueue {S : Server} {id : VaultId} {kind : NotificationKind} {channel : Channel}
    {recipient : String} {link : Option String} (other : kind ≠ .claimLink) :
    Free (enqueue S id kind channel recipient link) :=
  .bind (free_crypto _) fun _ => .bind free_now fun _ =>
    .bind (free_exec (by simpa [Stmt.isFree] using other)) fun _ => trivial

end Free

/-! ## §4 The rules -/

section Rules

variable {S : Server} {q : Request} {α β : Type} {h : Hist}
variable {P : Hist → α → Prop} {P' : Hist → β → Prop}

/-- Every action of `p` is justified, and if `p` succeeds it yields `P`. -/
def Conducts (S : Server) (q : Request) (P : Hist → α → Prop) (p : Prog α) (h : Hist) : Prop :=
  Meets (fun h e => Justified S q h e.action) (fun g r => ∀ a, r = .ok a → P g a) p h

namespace Conducts

theorem done {a : α} (yields : P h a) : Conducts S q P (.done a) h := by
  rintro _ ⟨⟩
  exact yields

theorem fail {e : ApiError} : Conducts S q P (.fail e) h := by
  rintro _ ⟨⟩

theorem weaken {Q : Hist → α → Prop} {p : Prog α} (meets : Conducts S q P p h)
    (weaker : ∀ g a, P g a → Q g a) : Conducts S q Q p h :=
  Meets.mono meets (fun _ _ e => e) fun _ _ yields a same => weaker _ _ (yields a same)

theorem bind {p : Prog α} {f : α → Prog β} (first : Conducts S q P p h)
    (next : ∀ g a, h <+: g → P g a → Conducts S q P' (f a) g) :
    Conducts S q P' (p.bind f) h :=
  Meets.bind first (fun g a grown yields => next g a grown (yields a rfl))
    (by rintro g e - - a ⟨⟩)

theorem act {a : Action} {next : a.Response → Prog α} (just : Justified S q h a)
    (rest : ∀ r, Conducts S q P (next r) (h ++ [⟨a, r⟩])) : Conducts S q P (.act a next) h :=
  fun r => ⟨just, rest r⟩

theorem perform {a : Action} {f : a.Response → Prog β} (just : Justified S q h a)
    (rest : ∀ r, Conducts S q P' (f r) (h ++ [⟨a, r⟩])) :
    Conducts S q P' ((Program.perform a).bind f) h :=
  act just rest

theorem of_free {p : Prog α} (free : Free p) :
    Conducts S q (fun g _ => h <+: g ∧ FreeSince h g) p h := by
  have both := (Meets.grows p h).and (free.meets h)
  refine Meets.mono both (fun g e free => justified_of_free free.2) ?_
  rintro g _ ⟨grown, since⟩ a rfl
  exact ⟨grown, fun e mem => (since e mem).imp_right Action.mild_of_free⟩

/-- A free part may be passed over. -/
theorem skip {p : Prog α} {f : α → Prog β} (free : Free p)
    (next : ∀ g a, h <+: g → FreeSince h g → Conducts S q P' (f a) g) :
    Conducts S q P' (p.bind f) h :=
  bind (of_free free) fun g a _ since => next g a since.1 since.2

theorem query {qu : Query} {f : qu.Result → Prog β} (just : Justified S q h (.query qu))
    (next : ∀ r, Conducts S q P' (f r) (h ++ [⟨.query qu, .ok r⟩])) :
    Conducts S q P' ((Prog.query qu).bind f) h := by
  refine act just fun r => ?_
  cases r with
  | ok r => exact next r
  | error e => exact fail

theorem now {f : Instant → Prog β}
    (next : ∀ t, Conducts S q P' (f t) (h ++ [⟨.now, t⟩])) :
    Conducts S q P' (Prog.now.bind f) h :=
  act trivial next

theorem ask {x : External} {f : x.Answer → Prog β} (just : Justified S q h (.ask x))
    (next : ∀ a, Conducts S q P' (f a) (h ++ [⟨.ask x, a⟩])) :
    Conducts S q P' ((Prog.ask x).bind f) h :=
  act just next

theorem exec {st : Stmt} {f : Nat → Prog β} (just : Justified S q h (.exec st))
    (next : ∀ n, Conducts S q P' (f n) (h ++ [⟨.exec st, .ok n⟩])) :
    Conducts S q P' ((Prog.exec st).bind f) h := by
  refine act just fun r => ?_
  cases r with
  | ok n => exact next n
  | error e => exact fail

theorem run {st : Stmt} {P : Hist → Nat → Prop} (just : Justified S q h (.exec st))
    (yields : ∀ n, P (h ++ [⟨.exec st, .ok n⟩]) n) : Conducts S q P (Prog.exec st) h := by
  refine act just fun r => ?_
  cases r with
  | ok n => exact done (yields n)
  | error e => exact fail

theorem update {v : VaultId} {u : VaultUpdate} {f : Nat → Prog β} (just : Warranted S q h v u)
    (next : ∀ n, Conducts S q P' (f n) (h ++ [⟨.exec (.updateVault v u), .ok n⟩])) :
    Conducts S q P' ((Prog.update v u).bind f) h :=
  exec just next

theorem payCheckin {paymentHash : String} {t : Instant} {f : PaidOutcome → Prog β}
    (clock : ClockRead h t)
    (next : ∀ paid, Conducts S q P' (f paid) (h ++ [⟨.payCheckin paymentHash t, .ok paid⟩])) :
    Conducts S q P' ((GhostKey.payCheckin paymentHash t).bind f) h := by
  refine act clock fun r => ?_
  cases r with
  | ok paid => exact next paid
  | error e => exact fail

theorem payPanic {paymentHash : String} {t : Instant} {f : PanicOutcome → Prog β}
    (clock : ClockRead h t)
    (next : ∀ paid, Conducts S q P' (f paid) (h ++ [⟨.payPanic paymentHash t, .ok paid⟩])) :
    Conducts S q P' ((GhostKey.payPanic paymentHash t).bind f) h := by
  refine act clock fun r => ?_
  cases r with
  | ok paid => exact next paid
  | error e => exact fail

theorem okOr {e : ApiError} {x : Option α} {f : α → Prog β}
    (next : ∀ a, x = some a → Conducts S q P' (f a) h) :
    Conducts S q P' ((Prog.okOr e x).bind f) h := by
  cases x with
  | none => exact fail
  | some a => exact next a rfl

theorem validated {pre : String} {x : Except String α} {f : α → Prog β}
    (next : ∀ a, x = .ok a → Conducts S q P' (f a) h) :
    Conducts S q P' ((Prog.validated pre x).bind f) h := by
  cases x with
  | ok a => exact next a rfl
  | error e => exact fail

theorem crypto {x : Except Unit α} {f : α → Prog β}
    (next : ∀ a, x = .ok a → Conducts S q P' (f a) h) :
    Conducts S q P' ((Prog.crypto x).bind f) h := by
  cases x with
  | ok a => exact next a rfl
  | error e => exact fail

/-- A logged part is as good as done, whether it succeeded or not. -/
theorem logged {p : Prog α} {f : Unit → Prog β} (meets : Conducts S q (fun _ _ => True) p h)
    (next : ∀ g, h <+: g → Conducts S q P' (f ()) g) :
    Conducts S q P' ((Prog.logged p).bind f) h := by
  have attempted : Conducts S q (fun _ _ => True) (p.attempt : Prog (Except ApiError α)) h :=
    Meets.attempt meets fun _ _ _ _ _ => trivial
  have whole : Conducts S q (fun _ _ => True) (Prog.logged p) h :=
    bind attempted fun _ _ _ _ => done trivial
  exact bind whole fun g _ grown _ => next g grown

/-- A loop conducts itself if each round does, on whatever the rounds before it left. -/
theorem forEach {σ : Type} {body : σ → Prog Unit} {xs : List σ}
    (round : ∀ x ∈ xs, ∀ g, h <+: g → Conducts S q (fun _ _ => True) (body x) g) :
    Conducts S q (fun _ _ => True) (Program.forEach xs body) h :=
  Meets.forEach (L := fun _ => True) trivial
    (fun x mem g grown _ => Meets.mono (round x mem g grown) (fun _ _ e => e) fun g r _ => by
      cases r with
      | ok a => trivial
      | error e => exact fun a same => trivial)
    fun _ _ _ _ => trivial

/-- A free part on its own. -/
theorem free {p : Prog α} (free : Free p) : Conducts S q (fun _ _ => True) p h :=
  weaken (of_free free) fun _ _ _ => trivial

end Conducts

end Rules

end GhostKey

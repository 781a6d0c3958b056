import GhostKey.Deployment
import GhostKey.Foundation.Extension
import GhostKey.Undrilled

/-!
# Practice Claims

The owner starts a practice run and the heir walks through the claim pages with a practice
token, which is stored in a column of its own. Opening its link and finishing the walk stamp
two more columns; nothing else is for practice.

The routes are an `Extension` of the server: they read the vaults, write the practice
columns, and make entries of their own kinds in the server's feed and queue.

Main result:
- `inert`: without its practice requests, its entries, and without what a practice token
  makes `resolve_claim` do, a run is a run of the server over the same worlds.
-/

namespace GhostKey

namespace Practice

open Foundation Program

/-! ## §1 Rows and statements -/

/-- The `drill_*` columns of a row of `vaults`. -/
structure DrillColumns where
  tokenHash : Option Hash
  startedAt : Option Instant
  openedAt : Option Instant
  completedAt : Option Instant
  deriving DecidableEq

/-- As an INSERT of the vault leaves them. -/
def DrillColumns.null : DrillColumns := ⟨none, none, none, none⟩

/-- The entries of `events` that practice runs make. -/
inductive DrillEventKind where
  | drillStarted
  | drillOpened
  | drillCompleted
  deriving DecidableEq

def DrillEventKind.kind : DrillEventKind → EventKind
  | drillStarted => .drillStarted
  | drillOpened => .drillOpened
  | drillCompleted => .drillCompleted

structure DrillEvent where
  vaultId : VaultId
  kind : DrillEventKind
  createdAt : Instant
  deriving DecidableEq

/-- Practice entries have no detail. -/
def DrillEvent.row (e : DrillEvent) : EventRow := ⟨e.vaultId, e.kind.kind, [], e.createdAt⟩

/-- `NotificationKind`, as far as practice goes. -/
inductive DrillNoticeKind where
  | drillInvite
  | drillCompleted
  deriving DecidableEq

def DrillNoticeKind.kind : DrillNoticeKind → NotificationKind
  | drillInvite => .drillInvite
  | drillCompleted => .drillCompleted

/-- A message to be queued; of its text only the link is kept. -/
structure DrillNotice where
  vaultId : VaultId
  kind : DrillNoticeKind
  channel : Channel
  recipient : String
  link : Option String
  createdAt : Instant
  deriving DecidableEq

def DrillNotice.row (n : DrillNotice) : NotificationRow :=
  ⟨n.vaultId, n.kind.kind, n.channel, n.recipient, n.link, n.createdAt⟩

/-- The columns of practice, of every vault. -/
structure Drills where
  columns : VaultId → DrillColumns

namespace Drills

def empty : Drills := ⟨fun _ => .null⟩

/-- What is left where vaults have been deleted. -/
def settle (w : World) (d : Drills) : Drills where
  columns id := if w.db.hasVault id then d.columns id else .null

def set (d : Drills) (id : VaultId) (c : DrillColumns) : Drills :=
  ⟨fun k => if k = id then c else d.columns k⟩

@[simp] theorem set_columns (d : Drills) (id k : VaultId) (c : DrillColumns) :
    (d.set id c).columns k = if k = id then c else d.columns k := rfl

/-- `WHERE drill_token_hash = ?`. -/
def byToken (w : World) (d : Drills) (hash : Hash) : Option (VaultRow × DrillColumns) :=
  (w.db.vaults.rows.find? fun r => (d.columns r.id).tokenHash = some hash).map
    fun r => (r, d.columns r.id)

end Drills

inductive DrillStmt where
  | start (id : VaultId) (hash : Hash) (now : Instant)
  | markOpened (id : VaultId) (now : Instant)
  | markCompleted (id : VaultId) (now : Instant)
  | insertEvent (e : DrillEvent)
  | insertNotice (n : DrillNotice)
  deriving DecidableEq

/-- Run one statement: what it leaves, and the rows affected. -/
def DrillStmt.run (w : World) (d : Drills) : DrillStmt → Except DbError ((World × Drills) × Nat)
  | .start id hash now =>
      if w.db.hasVault id then .ok ((w, d.set id ⟨some hash, some now, none, none⟩), 1)
      else .ok ((w, d), 0)
  | .markOpened id now =>
      if w.db.hasVault id && (d.columns id).openedAt.isNone then
        .ok ((w, d.set id { d.columns id with openedAt := some now }), 1)
      else .ok ((w, d), 0)
  | .markCompleted id now =>
      if w.db.hasVault id && (d.columns id).completedAt.isNone then
        .ok ((w, d.set id { d.columns id with completedAt := some now }), 1)
      else .ok ((w, d), 0)
  | .insertEvent e =>
      if w.db.hasVault e.vaultId then
        .ok (({ w with db := { w.db with events := w.db.events ++ [e.row] } }, d), 1)
      else .error .foreignKeyViolation
  | .insertNotice n =>
      if w.db.hasVault n.vaultId then
        .ok (({ w with db := { w.db with notifications := w.db.notifications ++ [n.row] } }, d), 1)
      else .error .foreignKeyViolation

/-! ## §2 The routes -/

inductive DrillAction where
  | now
  | issueToken
  | vault (id : VaultId)
  | byToken (hash : Hash)
  | exec (st : DrillStmt)

def DrillAction.Response : DrillAction → Type
  | .now => Instant
  | .issueToken => Token
  | .vault _ => Except DbError (Option VaultRow)
  | .byToken _ => Except DbError (Option (VaultRow × DrillColumns))
  | .exec _ => Except DbError Nat

/-- Perform one action: the answer, and what it leaves. -/
def DrillAction.perform :
    (x : DrillAction) → Oracle → World × Drills → x.Response × (World × Drills)
  | .now, _, (w, d) => (w.clock, (w, d))
  | .issueToken, o, (w, d) => (o.answer .bearerToken, (w, d))
  | .vault id, o, (w, d) => (if o.dbFails then .error .unavailable else .ok (w.vault? id), (w, d))
  | .byToken hash, o, (w, d) =>
      (if o.dbFails then .error .unavailable else .ok (Drills.byToken w d hash), (w, d))
  | .exec st, o, (w, d) =>
      if o.dbFails then (.error .unavailable, (w, d))
      else
        match st.run w d with
        | .ok (left, n) => (.ok n, left)
        | .error e => (.error e, (w, d))

abbrev DrillProg (α : Type) := Program DrillAction DrillAction.Response ApiError α

def now : DrillProg Instant := .act .now .done

def issueToken : DrillProg Token := .act .issueToken .done

def vault (id : VaultId) : DrillProg (Option VaultRow) :=
  .act (.vault id) fun
    | .ok row => .done row
    | .error e => .fail (.db e)

def byToken (hash : Hash) : DrillProg (Option (VaultRow × DrillColumns)) :=
  .act (.byToken hash) fun
    | .ok row => .done row
    | .error e => .fail (.db e)

def exec (st : DrillStmt) : DrillProg Nat :=
  .act (.exec st) fun
    | .ok n => .done n
    | .error e => .fail (.db e)

/-- `?` on a sealing or opening. -/
def crypto {α : Type} : Except Unit α → DrillProg α
  | .ok a => .done a
  | .error _ => .fail .crypto

/-- `routes::record_event`. -/
def recordEvent (id : VaultId) (kind : DrillEventKind) : DrillProg Unit := do
  let t ← now
  let _ ← exec (.insertEvent ⟨id, kind, t⟩)
  return ()

section Routes

variable (S : Server)

/-- `notifier::enqueue`. -/
def enqueue (id : VaultId) (kind : DrillNoticeKind) (channel : Channel) (recipient : String)
    (link : Option String) : DrillProg Unit := do
  let _ ← crypto (S.sealForVault id recipient)
  let t ← now
  let _ ← exec (.insertNotice ⟨id, kind, channel, recipient, link, t⟩)
  return ()

/-- The channels an invitation may take. -/
def inviteChannel : Option String → Option Channel
  | some "email" => some .email
  | some "sms" => some .sms
  | some "whatsapp" => some .whatsapp
  | _ => none

/-- `load_heir_intro`, whose failures count as no intro; it names the sender only. -/
def loadHeirIntro (id : VaultId) : DrillProg Unit := do
  let _ ← ((vault id).attempt : DrillProg (Except ApiError (Option VaultRow)))
  return ()

/-- `enqueue_drill_invite`; `deliverable` is `notifier::channel_deliverable`. -/
def enqueueDrillInvite (deliverable : Channel → Bool) (id : VaultId) (heir : SealedContact)
    (claimUrl : String) : DrillProg Bool := do
  let contact ← crypto (parseHeirContact S id heir)
  match contact with
  | none => return false
  | some contact =>
    match inviteChannel contact.channel, contact.contact.filter (· ≠ "") with
    | some channel, some recipient =>
      if !deliverable channel then return false
      else do
        loadHeirIntro id
        enqueue S id .drillInvite channel recipient (some claimUrl)
        return true
    | _, _ => return false

/-- `DrillStartResponse`. -/
structure DrillStartResponse where
  vaultId : VaultId
  startedAt : Instant
  heirNotified : Bool
  claimUrl : String
  deriving DecidableEq

/-- `POST /vaults/:id/drill`, by the owner. -/
def startDrill (deliverable : Channel → Bool) (id : VaultId) : DrillProg DrillStartResponse := do
  let row ← vault id
  match row with
  | none => .fail .notFound
  | some r =>
    if r.life.status = .claiming || r.life.status = .claimed then
      .fail (.conflict "a real claim is already underway on this vault")
    else do
      let token ← issueToken
      let t ← now
      let _ ← exec (.start id (S.hashClaimToken token) t)
      recordEvent id .drillStarted
      let heirNotified ←
        enqueueDrillInvite S deliverable id r.contacts.heir (S.claimUrl token)
      return ⟨id, t, heirNotified, S.claimUrl token⟩

/-- The `ClaimView` of a practice run. -/
structure DrillView where
  vaultId : VaultId
  label : Option String
  network : String
  status : Status
  timelockBlocks : Nat
  nextDeadlineAt : Instant
  heirChannel : Option String
  heirDisplayName : Option String
  vaultKind : VaultKind
  deriving DecidableEq

/-- What is found under the hash is compared once more. -/
def matchedRow (token : Token) : Option (VaultRow × DrillColumns) →
    DrillProg (VaultRow × DrillColumns)
  | none => .fail .notFound
  | some (r, d) =>
    match d.tokenHash with
    | none => .fail .notFound
    | some stored => if S.claimTokenMatches token stored then .done (r, d) else .fail .notFound

/-- The lookup of both routes of the practice token. -/
def drillRow (token : Token) : DrillProg (VaultRow × DrillColumns) := do
  let row ← byToken (S.hashClaimToken token)
  matchedRow S token row

/-- The mark of the first opening, which a refresh finds made. -/
def markFirstOpening (id : VaultId) (d : DrillColumns) : DrillProg Unit :=
  if d.openedAt.isNone then do
    let t ← now
    let marked ← exec (.markOpened id t)
    if marked > 0 then recordEvent id .drillOpened else return ()
  else return ()

/-- `resolve_drill_claim`. -/
def resolveDrillClaim (token : Token) : DrillProg DrillView := do
  let (r, d) ← drillRow S token
  markFirstOpening r.id d
  let contact ← crypto (parseHeirContact S r.id r.contacts.heir)
  return ⟨r.id, r.settings.label, r.settings.network, r.life.status, r.settings.timelockBlocks,
    r.life.nextDeadlineAt, r.contacts.heir.channel, contact.bind HeirContact.name,
    r.settings.vaultKind⟩

/-- `notify_owner_drill_completed`: a failure is only logged. -/
def notifyOwnerDrillCompleted (r : VaultRow) : DrillProg Unit :=
  match parseOwnerContact S r.id r.contacts.owner with
  | .ok (some contact) => do
    let _ ← ((enqueue S r.id .drillCompleted contact.channel contact.address none).attempt :
      DrillProg (Except ApiError Unit))
    return ()
  | _ => return ()

/-- The first completion, and what is told of it. -/
def markCompletion (r : VaultRow) (t : Instant) : DrillProg Unit := do
  let marked ← exec (.markCompleted r.id t)
  if marked > 0 then do
    recordEvent r.id .drillCompleted
    notifyOwnerDrillCompleted S r
  else return ()

/-- The time of the completion, by what the lookup has read. -/
def completionTime (r : VaultRow) : Option Instant → DrillProg Instant
  | some finished => return finished
  | none => do
    let t ← now
    markCompletion S r t
    return t

/-- `POST /claim/:token/drill-complete`: when the walk was finished. -/
def completeDrill (token : Token) : DrillProg Instant := do
  let (r, d) ← drillRow S token
  completionTime S r d.completedAt

end Routes

/-! ## §3 The server with practice runs -/

inductive DrillRequest where
  | startDrill (id : VaultId)
  | completeDrill (token : Token)
  deriving DecidableEq

inductive DrillReply where
  | started (r : DrillStartResponse)
  | view (v : DrillView)
  | completed (t : Instant)
  deriving DecidableEq

abbrev AnyProg (α : Type) :=
  Program (Action ⊕ DrillAction) (Sum.elim Action.Response DrillAction.Response) ApiError α

section Program

variable (S : Server) (deliverable : Channel → Bool)

/-- The end of `resolve_claim` for the heir's token. -/
def heirMatched (token : Token) (r : VaultRow) : Prog ClaimView := do
  let storedHash ← Prog.okOr .notFound r.life.claimTokenHash
  if !S.claimTokenMatches token storedHash then .fail .notFound
  else resolveMatched S r none

/-- The same for a guardian's. -/
def guardianMatched (token : Token) (g : GuardianRow) (r : VaultRow) : Prog ClaimView := do
  let storedHash ← Prog.okOr .notFound g.claimTokenHash
  if !S.claimTokenMatches token storedHash then .fail .notFound
  else resolveMatched S r (some g.slot)

/-- `resolve_claim` with its last lookup: a token that is neither the heir's nor a guardian's
may be a practice token. -/
def resolveClaim (token : Token) : AnyProg (Reply ⊕ DrillReply) := do
  let row ← (Prog.query (.vaultByClaimToken (S.hashClaimToken token))).liftOld
  match row with
  | some r =>
    let v ← (heirMatched S token r).liftOld
    return .inl (.claimView v)
  | none =>
    let pair ← (Prog.query (.guardianByClaimToken (S.hashClaimToken token))).liftOld
    match pair with
    | some (g, r) =>
      let v ← (guardianMatched S token g r).liftOld
      return .inl (.claimView v)
    | none =>
      let v ← (resolveDrillClaim S token).liftNew
      return .inr (.view v)

def anyProgram : Request ⊕ DrillRequest → AnyProg (Reply ⊕ DrillReply)
  | .inl (.resolveClaim token) => resolveClaim S token
  | .inl q => (q.program S).liftOld.bind fun r => .done (.inl r)
  | .inr (.startDrill id) => (startDrill S deliverable id).liftNew.bind fun r =>
      .done (.inr (.started r))
  | .inr (.completeDrill token) => (completeDrill S token).liftNew.bind fun t =>
      .done (.inr (.completed t))

end Program

section Inert

variable (S : Server) (deliverable : Channel → Bool)

/-- What the lookup of the practice token found, and the outcome it makes of `resolve_claim`:
the failure of the lookup, or the practice run of this token, shown or failing on the way. -/
inductive Known (token : Token) :
    Except DbError (Option (VaultRow × DrillColumns)) → Except ApiError (Reply ⊕ DrillReply) → Prop
  | failed (e : DbError) : Known token (.error e) (.error (.db e))
  | broken {r : VaultRow} {d : DrillColumns} {stored : Hash} (hash : d.tokenHash = some stored)
      (same : S.claimTokenMatches token stored = true) (e : ApiError) :
      Known token (.ok (some (r, d))) (.error e)
  | shown {r : VaultRow} {d : DrillColumns} {stored : Hash} (hash : d.tokenHash = some stored)
      (same : S.claimTokenMatches token stored = true) {v : DrillView} (vault : v.vaultId = r.id) :
      Known token (.ok (some (r, d))) (.ok (.inr (.view v)))

/-- Where the two systems' outcomes of an old request differ, after the practice actions `g`:
the server answers 404, and the practice lookup has failed or found the token's practice run. -/
def Agrees (q : Request) (g : History DrillAction DrillAction.Response)
    (r' : Except ApiError (Reply ⊕ DrillReply)) (r : Except ApiError Reply) : Prop :=
  r' = r.map Sum.inl ∨ ∃ token found, q = .resolveClaim token ∧ r = .error .notFound ∧
    ⟨.byToken (S.hashClaimToken token), found⟩ ∈ g ∧ Known S token found r'

/-- What is found under a practice token is this token's, or it is not looked at. -/
theorem matchedRow_cases (token : Token) (r : VaultRow) (d : DrillColumns) :
    matchedRow S token (some (r, d)) = .fail .notFound ∨
      ∃ stored, d.tokenHash = some stored ∧ S.claimTokenMatches token stored = true ∧
        matchedRow S token (some (r, d)) = .done (r, d) := by
  cases hash : d.tokenHash with
  | none => exact .inl (by simp only [matchedRow, hash])
  | some stored =>
    cases same : S.claimTokenMatches token stored with
    | false => exact .inl (by simp [matchedRow, hash, same])
    | true => exact .inr ⟨stored, rfl, same, by simp [matchedRow, hash, same]⟩

/-- The practice lookup ends in a 404, as the server does, or in what it has found. -/
theorem meets_practiceLookup (token : Token) :
    Meets (fun _ _ => True)
      (fun g r' => Agrees S (.resolveClaim token) g (r'.map fun v => .inr (.view v))
        (.error .notFound)) (resolveDrillClaim S token) [] := by
  intro found
  refine ⟨trivial, ?_⟩
  cases found with
  | error e => exact .inr ⟨token, _, rfl, rfl, List.mem_cons_self, .failed e⟩
  | ok row =>
    change Meets _ _ (Program.bind (matchedRow S token row) _) _
    cases row with
    | none => exact .inl rfl
    | some row =>
      obtain ⟨r, d⟩ := row
      rcases matchedRow_cases S token r d with missed | ⟨stored, hash, same, found⟩
      · rw [missed]
        exact .inl rfl
      · rw [found]
        -- the run is this token's, whatever becomes of the mark
        have later : ∀ {g r'},
            [(⟨.byToken (S.hashClaimToken token), .ok (some (r, d))⟩ :
              Event DrillAction DrillAction.Response)] <+: g →
            Known S token (.ok (some (r, d))) r' →
              Agrees S (.resolveClaim token) g r' (.error .notFound) := fun grown known =>
          .inr ⟨token, _, rfl, rfl, grown.subset List.mem_cons_self, known⟩
        change Meets _ _ (Program.bind (markFirstOpening r.id d) _) _
        refine Meets.bind (Q := fun _ _ => True)
          (Meets.mono (Meets.grows (markFirstOpening r.id d) _) (fun _ _ _ => trivial)
            fun _ _ _ => trivial) ?_ fun g e grown _ => later grown (.broken hash same e)
        rintro g - grown -
        change Meets _ _ (Program.bind (crypto (parseHeirContact S r.id r.contacts.heir)) _) _
        cases parseHeirContact S r.id r.contacts.heir with
        | ok contact => exact later grown (.shown hash same rfl)
        | error e => exact later grown (.broken hash same .crypto)

theorem masks_resolveClaim (token : Token) :
    Masks (Agrees S (.resolveClaim token)) (resolveClaim S token)
      ((Request.resolveClaim token).program S) [] := by
  have failed : ∀ e, Agrees S (.resolveClaim token) [] (.error e) (.error e) := fun e => .inl rfl
  change Masks _ (Program.bind _ _) (Program.bind (Program.bind _ _) _) _
  rw [bind_assoc]
  refine Masks.lift_bind (fun row => ?_) failed
  cases row with
  | some r => exact Masks.lift_bind (fun v => ⟨.ok (.claimView v), rfl, .inl rfl⟩) failed
  | none =>
    change Masks _ (Program.bind _ _) (Program.bind (Program.bind _ _) _) _
    rw [bind_assoc]
    refine Masks.lift_bind (fun pair => ?_) failed
    cases pair with
    | some p => exact Masks.lift_bind (fun v => ⟨.ok (.claimView v), rfl, .inl rfl⟩) failed
    | none => exact Masks.of_new (r := .error .notFound) rfl (meets_practiceLookup S token)

/-- The server's actions over the wider world: the columns of the vaults they delete go. -/
def anyPerform : (a : Action ⊕ DrillAction) → Oracle → World × Drills →
    Sum.elim Action.Response DrillAction.Response a × (World × Drills)
  | .inl a, o, (w, d) =>
      let r := a.perform o w
      (r.1, (r.2, d.settle r.2))
  | .inr x, o, w => x.perform o w

/-- The entries of practice are all that is not the server's own. -/
theorem DrillStmt.undrilled_run {st : DrillStmt} {w : World} {d : Drills} {left : World × Drills}
    {n : Nat} (ran : st.run w d = .ok (left, n)) : left.1.undrilled = w.undrilled := by
  cases st with
  | insertEvent e =>
    simp only [run] at ran
    split at ran
    · cases ran
      have drill : e.row.kind.isDrill = true := by
        cases e with | mk id kind t => cases kind <;> rfl
      simp [World.undrilled, Db.undrilled, drill]
    · cases ran
  | insertNotice n =>
    simp only [run] at ran
    split at ran
    · cases ran
      have drill : n.row.kind.isDrill = true := by
        cases n with | mk id kind _ _ _ _ => cases kind <;> rfl
      simp [World.undrilled, Db.undrilled, drill]
    · cases ran
  | _ =>
    simp only [run] at ran
    split at ran <;> cases ran <;> rfl

theorem DrillAction.undrilled_perform (x : DrillAction) (o : Oracle) (w : World × Drills) :
    (x.perform o w).2.1.undrilled = w.1.undrilled := by
  cases x with
  | exec st =>
    simp only [perform]
    split
    · rfl
    · split
      · next left n ran => exact DrillStmt.undrilled_run ran
      · rfl
  | _ => rfl

theorem drift_undrilled (d : Drift) (w : World) : (d.apply w).undrilled = d.apply w.undrilled := by
  cases d <;> rfl

/-- The server with practice runs. -/
def extension : Extension (server S) DrillAction DrillAction.Response (Reply ⊕ DrillReply)
    (World × Drills) DrillRequest where
  program := anyProgram S deliverable
  perform := anyPerform
  drift d w := (d.apply w.1, w.2.settle (d.apply w.1))
  restart w := (w.1.restart, w.2)
  view w := w.1.undrilled
  acts a := a.isOwn = true
  agrees := Agrees S
  masks q := by
    cases q with
    | resolveClaim token => exact masks_resolveClaim S token
    | _ => exact Masks.lift_map (fun r => .inl rfl) fun e => .inl rfl
  old q := Meets.mono (tidiness S q) (fun _ _ entitled => isOwn_of_entitled entitled)
    fun _ _ _ => trivial
  new n := by
    cases n with
    | startDrill id => exact Only.bind (only_liftNew _) fun _ => trivial
    | completeDrill token => exact Only.bind (only_liftNew _) fun _ => trivial
  views a o w own := Action.perform_undrilled own o w.1
  frame x o w := x.undrilled_perform o w
  drifts d w := drift_undrilled d w.1
  restarts _ := rfl

end Inert

/-- One step of a run with practice. -/
abbrev AnyStep := Step (Action ⊕ DrillAction) (Sum.elim Action.Response DrillAction.Response)
  ApiError (Reply ⊕ DrillReply) (World × Drills) Drift (Request ⊕ DrillRequest)

/-- The runs of the server with practice from its first start. -/
def PracticeRuns (S : Server) (deliverable : Channel → Bool) (t₀ : Instant)
    (tr : List AnyStep) : Prop :=
  ∃ c, Run (extension S deliverable).system (System.boot (World.start t₀, Drills.empty)) tr c

/-- Practice is inert: with its requests and its actions left out, a run is a run of the
server, step by step over the same worlds. -/
theorem inert {S : Server} {deliverable : Channel → Bool} {t₀ : Instant} {tr : List AnyStep}
    (runs : PracticeRuns S deliverable t₀ tr) :
    ∃ qs tr₀, Runs S t₀ tr₀ ∧ (extension S deliverable).Shadows qs tr tr₀ := by
  obtain ⟨c', run⟩ := runs
  obtain ⟨qs, tr₀, c, run₀, shadows, -⟩ := (extension S deliverable).hides run
  exact ⟨qs, tr₀, ⟨c, run₀⟩, shadows⟩

/-! ## §4 A practice run -/

section Practised

open Deployment

/-- `n` steps of thread `i`. -/
def walk (i n : Nat) (o : Oracle) : List (Move Oracle Drift (Request ⊕ DrillRequest)) :=
  List.replicate n (.step i o)

/-- The heir opens the practice link, and two of the heir's tabs finish it: the first to look
the token up is a second late with its mark. -/
def practised : List (Move Oracle Drift (Request ⊕ DrillRequest)) :=
  [.start (.inl (.createVaultFromXpub doorA))] ++ walk 0 9 (oracle "v" []) ++
    [.start (.inr (.startDrill "v"))] ++ walk 1 10 (oracle "practice" []) ++
    [.start (.inl (.resolveClaim "practice"))] ++ walk 2 8 (oracle "" []) ++
    [.start (.inr (.completeDrill "practice"))] ++ walk 3 1 (oracle "" []) ++
    [.start (.inr (.completeDrill "practice"))] ++ walk 4 6 (oracle "" []) ++
    [.drift (.pass 1000000000)] ++ walk 3 3 (oracle "" [])

/-- A played run with a property the kernel computes is a run with practice. -/
theorem practiceRuns_of_play (P : List AnyStep → Bool)
    (check : (((extension (host 0) fun _ => true).system.play practised
      (System.boot (World.start 0, Drills.empty))).any fun r => P r.1) = true) :
    ∃ tr, PracticeRuns (host 0) (fun _ => true) 0 tr ∧ P tr = true := by
  obtain ⟨tr, c, run, holds⟩ := Run.exists_of_play (P := fun tr _ => P tr) check
  exact ⟨tr, ⟨c, run⟩, holds⟩

/-- Whether the step is one of practice. -/
def practises (s : AnyStep) : Bool :=
  match s.label with
  | .acted _ ⟨.inr _, _⟩ => true
  | _ => false

theorem inert_practised : ∃ tr, PracticeRuns (host 0) (fun _ => true) 0 tr ∧
    tr.countP practises = 22 ∧
      ∃ qs tr₀, Runs (host 0) 0 tr₀ ∧ (extension (host 0) fun _ => true).Shadows qs tr tr₀ := by
  obtain ⟨tr, runs, check⟩ := practiceRuns_of_play (fun tr => tr.countP practises = 22)
    (by decide +kernel)
  exact ⟨tr, runs, of_decide_eq_true check, inert runs⟩

end Practised

end Practice

end GhostKey

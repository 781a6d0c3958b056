import GhostKey.Conduct.Tidy
import GhostKey.Deployment
import GhostKey.Foundation.Obligation
import GhostKey.Overtaking

/-!
# The Notice That a Wait Is Over

Once the window of a claim has passed and its coins are mature, a tick tells the heir. It
takes the marker first, with an UPDATE that asks only whether the marker is out, and queues
the notice after it. A scan of the chain lies between the batch that lists the vault and the
marker, and a failed INSERT leaves the marker taken.

Layers:
1. one tick: what it has read before it takes a marker, and what it does after: `Noticing`,
   `markObligation`;
2. marks and notices by their positions in a run, and the claim cycles they fall into;
3. an open claim stays open, and a marker stays taken, until the cycle ends;
4. `noticesKept`: one notice a cycle at most, each for a claim its batch has seen open, and
   none forgotten by a tick that returns.
-/

namespace GhostKey

open Foundation Program Prog Obligation


/-- Neither a marker of a claim window nor the notice that goes with it. -/
def Action.isBeside : Action → Bool
  | exec (.updateVault _ (.claimReadyNotified _)) => false
  | exec (.insertNotification n) => n.kind ≠ .claimReady
  | _ => true

instance : Lenient Action.isBeside := ⟨fun a tame => by
  cases a with
  | exec st =>
    cases st with
    | updateVault v u => cases u <;> first | rfl | cases tame
    | insertNotification n =>
      simp only [Action.isBeside, ne_eq, decide_not, Bool.not_eq_eq_eq_not, Bool.not_true,
        decide_eq_false_iff_not]
      intro ready
      rw [Action.isTame, ready] at tame
      cases tame
    | _ => rfl
  | _ => rfl⟩

theorem Action.beside_of_minted {S : Server} {h : Hist} {a : Action} (minted : Minted S h a) :
    a.isBeside = true := by
  obtain ⟨v, token, t, g, rfl, -⟩ := minted
  rfl

namespace ReadyNotice

/-! ## §1 One tick -/

/-- The marker of `v`, taken by an UPDATE that hit `n` rows. -/
def marked (v : VaultId) (t : Instant) (n : Nat) : Ev :=
  ⟨.exec (.updateVault v (.claimReadyNotified t)), .ok n⟩

/-- The batch that was read lists this row, with the time its window was opened. -/
def Batched (h : Hist) (d : VaultRow × Instant) : Prop :=
  ∃ rows : List (VaultRow × Instant), Read h .claimReady rows ∧ d ∈ rows

/-- A marker is taken for a row of the batch, a notice queued right after a marker. -/
structure Noticing (h : Hist) (e : Ev) : Prop where
  mark : ∀ v t, e.action = .exec (.updateVault v (.claimReadyNotified t)) →
    ∃ d, Batched h d ∧ d.1.id = v
  notice : ∀ n, e.action = .exec (.insertNotification n) → n.kind = .claimReady →
    ∃ h₁ h₂ t m, h = h₁ ++ marked n.vaultId t m :: h₂ ∧ m ≠ 0 ∧
      ∀ x ∈ h₂, x.action.isBeside = true

/-- The heir's contact opens and is this email address. -/
def EmailHeir (S : Server) (r : VaultRow) (recipient : String) : Prop :=
  ∃ c, parseHeirContact S r.id r.contacts.heir = .ok (some c) ∧ c.channel = some "email" ∧
    c.contact.filter (· ≠ "") = some recipient

/-- The claim token at rest, if there is one, opens. -/
def TokenOpens (S : Server) (r : VaultRow) : Prop :=
  ∀ stored, r.keys.claimTokenAtRest = some stored →
    ∃ token, S.openClaimTokenAtRest r.id stored = .ok token

/-- The INSERT of a notice for `v` was run. -/
def Tried (v : VaultId) (h : Hist) : Prop :=
  ∃ n res, (⟨.exec (.insertNotification n), res⟩ : Ev) ∈ h ∧ n.kind = .claimReady ∧ n.vaultId = v

/-- The notice of the row was tried, unless there is no address, or sealing or opening fails. -/
def Served (S : Server) (r : VaultRow) (h : Hist) : Prop :=
  ∀ recipient sealed, EmailHeir S r recipient → TokenOpens S r →
    S.sealForVault r.id recipient = .ok sealed → Tried r.id h

theorem Tried.append {v : VaultId} {h : Hist} (tried : Tried v h) (more : Hist) :
    Tried v (h ++ more) := by
  obtain ⟨n, res, mem, rest⟩ := tried
  exact ⟨n, res, List.mem_append_left more mem, rest⟩

/-- Every marker that was taken is to be followed by its notice. -/
def markObligation (S : Server) : Obligation Action Action.Response where
  owes e := ∃ v t n, e = marked v t n ∧ n ≠ 0
  settles before e after := ∃ d t n, e = marked d.1.id t n ∧ Batched before d ∧ Served S d.1 after
  later := by
    rintro before e after more ⟨d, t, n, same, batched, served⟩
    exact ⟨d, t, n, same, batched, fun recipient sealed email opens seals =>
      (served recipient sealed email opens seals).append more⟩

abbrev AllServed (S : Server) (h : Hist) : Prop := (markObligation S).Settled h

/-- With all markers served, `p` goes on as it should and serves its own. -/
abbrev Serves {α : Type} (S : Server) (p : Prog α) (h : Hist) : Prop :=
  (markObligation S).Settles Noticing p h

section Tick

variable {S : Server} {h : Hist} {α : Type}

theorem Noticing.of_beside {a : Action} {r : a.Response} (beside : a.isBeside = true) :
    Noticing h ⟨a, r⟩ := by
  constructor
  · rintro v t rfl
    cases beside
  · rintro n rfl ready
    simp [Action.isBeside, ready] at beside

theorem not_owes_of_beside {a : Action} {r : a.Response} (beside : a.isBeside = true) :
    ¬ (markObligation S).owes ⟨a, r⟩ := by
  rintro ⟨v, t, n, same, -⟩
  cases same
  cases beside

theorem Serves.beside {p : Prog α} (tidy : Tidy S Action.isBeside p) : Serves S p h := by
  intro settled
  have only : Meets (fun _ e => e.action.isBeside = true) (fun _ _ => True) p h :=
    Meets.mono (tidy.meets h) (fun g e good => good.elim id Action.beside_of_minted)
      fun _ _ _ => trivial
  refine Meets.mono (Meets.adds only) (fun g e good => Noticing.of_beside good) ?_
  rintro g r ⟨more, rfl, good⟩
  exact settled.append fun e mem => not_owes_of_beside (good e mem)

/-- From a marker on, the notice of the row is tried. -/
def Attends (S : Server) (r : VaultRow) (p : Prog Unit) (h : Hist) : Prop :=
  Meets Noticing (fun g _ => ∃ more, g = h ++ more ∧ (∀ e ∈ more, ¬ (markObligation S).owes e) ∧
    Served S r more) p h

/-- Where the row has no notice to send, its round ends. -/
theorem attends_done {r : VaultRow} (none : ∀ recipient, EmailHeir S r recipient → ¬ TokenOpens S r) :
    Attends S r (pure ()) h :=
  ⟨[], by simp, by simp, fun recipient _ email opens _ => absurd opens (none recipient email)⟩

theorem attends_fail {r : VaultRow} {e : ApiError}
    (none : ∀ recipient, EmailHeir S r recipient → ¬ TokenOpens S r) : Attends S r (.fail e) h :=
  ⟨[], by simp, by simp, fun recipient _ email opens _ => absurd opens (none recipient email)⟩

theorem attends_enqueue {r : VaultRow} {recipient : String} {link : Option String} {t : Instant}
    {n : Nat} (hit : n ≠ 0) (address : ∀ other, EmailHeir S r other → other = recipient) :
    Attends S r (logged (enqueue S r.id .claimReady .email recipient link))
      (h ++ [marked r.id t n]) := by
  -- an address that cannot be sealed is nobody's to serve
  cases seals : S.sealForVault r.id recipient with
  | error e =>
    simp only [logged, enqueue, seals, crypto, bind_eq, fail_bind, attempt, done_bind]
    refine ⟨[], by simp, by simp, fun other sealed email _ ok => ?_⟩
    rw [address other email, seals] at ok
    cases ok
  | ok sealed =>
    simp only [logged, enqueue, seals, crypto, bind_eq, done_bind]
    intro now
    refine ⟨.of_beside rfl, fun res => ?_⟩
    -- the notice goes to the heir the marker was taken for
    have queued : Noticing (h ++ [marked r.id t n] ++ [⟨.now, now⟩])
        ⟨.exec (.insertNotification ⟨r.id, .claimReady, .email, recipient, link, now⟩), res⟩ := by
      refine ⟨by rintro v t' ⟨⟩, ?_⟩
      rintro x ⟨⟩ -
      exact ⟨h, [⟨.now, now⟩], t, n, by simp, hit, by simp [Action.isBeside]⟩
    refine ⟨queued, ?_⟩
    have done : ∃ more, h ++ [marked r.id t n] ++ [⟨.now, now⟩] ++
        [⟨.exec (.insertNotification ⟨r.id, .claimReady, .email, recipient, link, now⟩), res⟩] =
          h ++ [marked r.id t n] ++ more ∧ (∀ e ∈ more, ¬ (markObligation S).owes e) ∧
            Served S r more := by
      refine ⟨[⟨.now, now⟩, ⟨.exec (.insertNotification
        ⟨r.id, .claimReady, .email, recipient, link, now⟩), res⟩], by simp, ?_, ?_⟩
      · intro e mem
        rcases List.mem_cons.1 mem with rfl | mem
        · exact not_owes_of_beside rfl
        · rw [List.mem_singleton.1 mem]
          rintro ⟨v, t', m, same, -⟩
          cases same
      · intro other sealed' _ _ _
        exact ⟨_, res, List.mem_cons_of_mem _ List.mem_cons_self, rfl, rfl⟩
    cases res <;> exact done

/-- One round of the notices: a marker is taken for a row of the batch, and served. -/
theorem serves_sendClaimReadyNotice {t : Instant} {d : VaultRow × Instant} (batched : Batched h d) :
    Serves S (sendClaimReadyNotice S t d.1 d.2) h := by
  unfold sendClaimReadyNotice
  split
  · exact Serves.beside (tidy_pure _)
  -- the funds check comes first and takes no marker
  apply Settles.bind (Serves.beside (tidy_onchainFundsReady d.1 t))
  intro g ready grown
  split
  · exact Serves.beside (tidy_pure _)
  obtain ⟨rows, read, mem⟩ := batched
  have listed : Batched g d := ⟨rows, read.mono grown.subset, mem⟩
  -- the UPDATE that takes the marker, for a row the batch listed
  intro settled res
  refine ⟨⟨?_, by rintro n ⟨⟩⟩, ?_⟩
  · rintro v t' ⟨⟩
    exact ⟨d, listed, rfl⟩
  cases res with
  | error e =>
    apply settled.snoc
    -- a failed UPDATE takes nothing, so nothing is owed
    rintro ⟨v, t', n, same, -⟩
    cases same
  | ok n =>
    simp only [done_bind, bind_eq]
    split
    -- another statement took the marker before
    · next zero =>
      apply settled.snoc
      rintro ⟨v, t', m, same, hit⟩
      cases same
      exact hit zero
    · next hit =>
      -- once it is taken, the heir of this row is to be attended to
      suffices attends : Attends S d.1 _ (g ++ [marked d.1.id t n]) by
        refine Meets.mono attends (fun _ _ e => e) ?_
        rintro g' _ ⟨more, rfl, free, served⟩
        have done := settled.round ⟨d, t, n, rfl, listed, served⟩ free
        simpa [marked] using done
      -- an heir with an e-mail address is mailed; any other contact excuses the round
      cases opened : parseHeirContact S d.1.id d.1.contacts.heir with
      | error e =>
        refine attends_fail ?_
        rintro recipient ⟨c, parsed, -⟩
        rw [opened] at parsed
        cases parsed
      | ok contact =>
        cases contact with
        | none =>
          refine attends_done ?_
          rintro recipient ⟨c, parsed, -⟩
          rw [opened] at parsed
          cases parsed
        | some c =>
          have same : ∀ recipient, EmailHeir S d.1 recipient →
              c.channel = some "email" ∧ c.contact.filter (· ≠ "") = some recipient := by
            rintro recipient ⟨c', parsed, email⟩
            rw [opened] at parsed
            cases parsed
            exact email
          simp only [crypto, done_bind]
          split
          · next other =>
            exact attends_done fun recipient email => absurd (same recipient email).1 other
          · split
            · next missing =>
              refine attends_done fun recipient email => ?_
              have address := (same recipient email).2
              rw [missing] at address
              cases address
            · next recipient address =>
              -- the contact opens to one address only
              have only : ∀ other, EmailHeir S d.1 other → other = recipient := by
                intro other email
                have address' := (same other email).2
                rw [address] at address'
                exact (Option.some.inj address').symm
              split
              · exact attends_enqueue hit only
              -- a stored token that does not open fails the round, which the last clause excuses
              · next stored here =>
                cases token : S.openClaimTokenAtRest d.1.id stored with
                | ok tok => exact attends_enqueue hit only
                | error e =>
                  refine attends_fail fun _ _ opens => ?_
                  obtain ⟨tok, ok⟩ := opens stored (Option.filter_eq_some_iff.1 here).1
                  rw [token] at ok
                  cases ok

theorem serves_sendClaimReadyNotices : Serves S (sendClaimReadyNotices S) h := by
  unfold sendClaimReadyNotices
  split
  · exact Serves.beside (tidy_pure _)
  apply Settles.act
  · rintro res ⟨v, t, n, ⟨⟩, -⟩
  · exact fun res => .of_beside rfl
  · intro res
    cases res with
    | error e => exact Serves.beside (tidy_fail _)
    | ok rows =>
      apply Settles.bind (Serves.beside tidy_now)
      intro g t grown
      apply Settles.forEach
      intro d mem g' grown'
      exact serves_sendClaimReadyNotice
        ⟨rows, Read.mono (grown.trans grown').subset .here, mem⟩

/-- A tick takes its markers in its last step only. -/
theorem serves_tickOnce : Serves S (tickOnce S) h := by
  have sends : ∀ kind : NotificationKind, kind ≠ .claimReady → Sends Action.isBeside kind :=
    fun kind other n same => by simp [Action.isBeside, same, other]
  refine Settles.bind (Serves.beside tidy_now) fun _ nowIso _ =>
    Settles.bind (Serves.beside (tidy_tickOwnerSteps ⟨sends _ (by decide), fun _ _ => rfl⟩
      (sends _ (by decide)) ⟨sends _ (by decide), fun _ _ => rfl⟩ nowIso)) fun _ _ _ =>
    Settles.bind (Serves.beside tidy_probeLightning) fun _ _ _ =>
    Settles.bind (Serves.beside tidy_now) fun _ _ _ =>
    Settles.bind (Serves.beside (tidy_perform rfl)) fun _ _ _ => ?_
  split
  · exact Serves.beside (tidy_pure _)
  · exact .bind (Serves.beside (tidy_transitionAlarmedToClaimable nowIso)) fun _ _ _ =>
      serves_sendClaimReadyNotices

end Tick

/-! ## §2 Marks, notices and cycles -/

/-- The UPDATEs that end a claim cycle: the stops, and a token that is issued anew. -/
def endsClaim : VaultUpdate → Bool
  | .issueClaim _ _ => true
  | u => u.stops

/-- At `j` the batch of thread `i` lists the row. -/
def PickedAt (tr : Trace) (j i : Nat) (d : VaultRow × Instant) : Prop :=
  ∃ (s : SrvStep) (rows : List (VaultRow × Instant)),
    tr[j]? = some s ∧ Did i (.query .claimReady) (.ok rows) s ∧ d ∈ rows

/-- At `m` thread `i` takes the marker of `v`. -/
def MarkedAt (tr : Trace) (m i : Nat) (v : VaultId) : Prop :=
  ∃ s t, tr[m]? = some s ∧ Did i (.exec (.updateVault v (.claimReadyNotified t))) (.ok 1) s

/-- At `k` thread `i` queues a notice for `v`. -/
def NoticedAt (tr : Trace) (k i : Nat) (v : VaultId) : Prop :=
  ∃ s n c, tr[k]? = some s ∧ Did i (.exec (.insertNotification n)) (.ok c) s ∧
    n.kind = .claimReady ∧ n.vaultId = v

/-- The notice queued at `k` goes with the marker taken at `m`. -/
structure NoticeOf (tr : Trace) (m k i : Nat) (v : VaultId) : Prop where
  before : m < k
  mark : MarkedAt tr m i v
  queued : NoticedAt tr k i v
  between : ∀ n s e, m < n → n < k → tr[n]? = some s → s.label = .acted i e →
    e.action.isBeside = true

/-- From `j` to `k` no claim cycle of `v` ends. -/
def SameCycle (tr : Trace) (v : VaultId) (j k : Nat) : Prop :=
  ∀ n s u, j ≤ n → n < k → tr[n]? = some s → Commits s v u → endsClaim u = false

/-- The claim of the row is open since then, with an unused token. -/
structure OpenClaim (r : VaultRow) (opened : Instant) : Prop where
  opened : r.life.claimOpenedAt = some opened
  token : r.life.claimTokenHash ≠ none
  unused : r.life.claimTokenUsedAt = none

def Unmarked (r : VaultRow) : Prop := r.life.claimReadyNotifiedAt = none

/-- The claim that the batch read at `j` has stayed open, and a token that is used has not been
released since. -/
structure OpenSince (tr : Trace) (j : Nat) (d : VaultRow × Instant) (k : Nat) (r : VaultRow) :
    Prop where
  opened : r.life.claimOpenedAt = some d.2
  token : r.life.claimTokenHash ≠ none
  used : r.life.claimTokenUsedAt = none ∨ ∃ n s t, j < n ∧ n < k ∧ tr[n]? = some s ∧
    Commits s d.1.id (.consumeClaimToken t) ∧
      ∀ n' s', n < n' → n' < k → tr[n']? = some s' → ¬ Commits s' d.1.id .releaseClaimToken

/-- Between `m` and `k` thread `i` ran the INSERT of a notice for `v`. -/
def TriedAt (tr : Trace) (m k i : Nat) (v : VaultId) : Prop :=
  ∃ p s n res, m < p ∧ p < k ∧ tr[p]? = some s ∧ Did i (.exec (.insertNotification n)) res s ∧
    n.kind = .claimReady ∧ n.vaultId = v

/-- What the notices keep. -/
structure NoticesKept (S : Server) (tr : Trace) : Prop where
  /-- No two notices of one claim cycle. -/
  once : ∀ m k i m' k' i' v, NoticeOf tr m k i v → NoticeOf tr m' k' i' v → k < k' →
    m < m' ∧ ¬ SameCycle tr v m m'
  /-- A notice goes with a marker its tick has taken, for an unmarked vault whose claim the
  batch has seen open. In one cycle, the claim is then open since, and a token that is used
  was used meanwhile. -/
  inCycle : ∀ k i v, NoticedAt tr k i v → ∃ j m d s r, j < m ∧ PickedAt tr j i d ∧ d.1.id = v ∧
    OpenClaim d.1 d.2 ∧ NoticeOf tr m k i v ∧ tr[m]? = some s ∧ s.before.vault? v = some r ∧
      Unmarked r ∧ (SameCycle tr v j m → OpenSince tr j d m r)
  /-- After a stop that is no payment, only a later UPDATE of a tick marks the vault. -/
  fresh : ∀ k s v u k' s' r, tr[k]? = some s → Commits s v u → u.stops = true →
    (∀ t next eligible, u ≠ .resetVaultClock t next eligible) → k ≤ k' → tr[k']? = some s' →
      s'.after.vault? v = some r → ¬ Unmarked r →
        ∃ j m i d, j < m ∧ k < m ∧ m ≤ k' ∧ PickedAt tr j i d ∧ d.1.id = v ∧ MarkedAt tr m i v
  /-- A tick that returns has tried the notice of every vault it has marked, where the batch
  has the heir's address and the address can be sealed. -/
  tried : ∀ m k i v s res, MarkedAt tr m i v → tr[k]? = some s → s.label = .returned i res →
    ∃ j d, j < m ∧ PickedAt tr j i d ∧ d.1.id = v ∧ ∀ recipient sealed,
      EmailHeir S d.1 recipient → S.sealForVault v recipient = .ok sealed → TriedAt tr m k i v

/-! ## §3 What one UPDATE does to a claim -/

section Updates

variable {u : VaultUpdate} {r : VaultRow} {t : Instant}

/-- An open claim stays open but for its token, which is used, released or replaced. -/
theorem open_set (goes_on : endsClaim u = false) (guard : u.guard r = true)
    (opened : r.life.claimOpenedAt = some t) (token : r.life.claimTokenHash ≠ none) :
    (u.set r).life.claimOpenedAt = some t ∧ (u.set r).life.claimTokenHash ≠ none ∧
      ((u.set r).life.claimTokenUsedAt = none ∨
        (u.set r).life.claimTokenUsedAt = r.life.claimTokenUsedAt ∧ u ≠ .releaseClaimToken ∨
          ∃ t', u = .consumeClaimToken t') := by
  cases u with
  | checkin | checkinFromLink | resetVaultClock | panicFreeze | issueClaim => cases goes_on
  | stampClaimOpened t' =>
    have out : r.life.claimOpenedAt = none := of_decide_eq_true guard
    rw [opened] at out
    cases out
  | consumeClaimToken t' => exact ⟨opened, token, .inr (.inr ⟨t', rfl⟩)⟩
  | releaseClaimToken => exact ⟨opened, token, .inl rfl⟩
  | openReused hash t' | openFresh hash t' => exact ⟨opened, nofun, .inl rfl⟩
  | _ => exact ⟨opened, token, .inr (.inl ⟨rfl, nofun⟩)⟩

/-- A marker stays taken until the cycle ends. -/
theorem marked_set (goes_on : endsClaim u = false) (marked : ¬ Unmarked r) : ¬ Unmarked (u.set r) := by
  cases u with
  | checkin | checkinFromLink | resetVaultClock | panicFreeze | issueClaim => cases goes_on
  | claimReadyNotified t' => exact nofun
  | _ => exact marked

/-- Only the marker's own UPDATE takes it. -/
theorem of_marked_set (marked : ¬ Unmarked (u.set r)) :
    ¬ Unmarked r ∨ ∃ t, u = .claimReadyNotified t := by
  cases u with
  | checkin | checkinFromLink | panicFreeze | issueClaim => exact absurd rfl marked
  | claimReadyNotified t' => exact .inr ⟨t', rfl⟩
  | _ => exact .inl marked

/-- A stop leaves the marker out, if it is no payment. -/
theorem unmarked_stop (stops : u.stops = true) :
    Unmarked (u.set r) ∨ ∃ t next eligible, u = .resetVaultClock t next eligible := by
  cases u with
  | checkin | checkinFromLink | panicFreeze => exact .inl rfl
  | resetVaultClock t next eligible => exact .inr ⟨t, next, eligible, rfl⟩
  | _ => cases stops

end Updates

/-! ## §4 Ticks and their steps -/

/-- Whatever the request, if it is a tick. -/
theorem noticing_program (S : Server) (q : Request) :
    Meets (fun h e => q = .schedulerTick → Noticing h e)
      (fun g _ => q = .schedulerTick → AllServed S g) (q.program S) [] := by
  by_cases tick : q = .schedulerTick
  · subst tick
    have whole : Serves S (Request.schedulerTick.program S) [] :=
      .bind serves_tickOnce fun _ _ _ => Serves.beside (tidy_pure _)
    exact Meets.mono (whole .nil) (fun _ _ noticing _ => noticing) fun _ _ served _ => served
  · exact Meets.mono (Meets.grows _ _) (fun _ _ _ same => absurd same tick)
      fun _ _ _ same => absurd same tick

theorem beside_of_guardian {a : Action} (guardian : a.isGuardian = true) : a.isBeside = true := by
  unfold Action.isGuardian at guardian
  split at guardian
  · rfl
  · exact Lenient.tame _ guardian

section Runs

variable {S : Server} {t₀ : Instant} {tr : Trace} {s : SrvStep} {i j k m : Nat} {v : VaultId}
variable {d : VaultRow × Instant}

/-- Markers and notices are for ticks only. -/
theorem ticks (runs : Runs S t₀ tr) (at_k : tr[k]? = some s) {a : Action} {r : a.Response}
    (did : Did i a r s) (other : a.isBeside = false) : Started i .schedulerTick (tr.take k) := by
  have not_beside : ¬ a.isBeside = true := by simp [other]
  obtain ⟨q, started, entitled⟩ := runs.entitled at_k did
  rcases entitled with tame | minted | ⟨rfl, -⟩ | ⟨-, guardian⟩
  · exact absurd (Lenient.tame a tame) not_beside
  · exact absurd (Action.beside_of_minted minted) not_beside
  · exact started
  · exact absurd (beside_of_guardian guardian) not_beside

theorem noticing (runs : Runs S t₀ tr) (at_k : tr[k]? = some s) {a : Action} {r : a.Response}
    (did : Did i a r s) (other : a.isBeside = false) : Noticing (history i k tr) ⟨a, r⟩ := by
  have tick := ticks runs at_k did other
  obtain ⟨c, run⟩ := runs
  obtain ⟨c', before⟩ := run.take k
  obtain ⟨q, started, good⟩ := run.acted_at (S := server S) (noticing_program S) at_k did
  exact good (before.started_unique started tick)

theorem MarkedAt.tick (runs : Runs S t₀ tr) (mark : MarkedAt tr m i v) :
    Started i .schedulerTick (tr.take m) := by
  obtain ⟨s, t, at_m, did⟩ := mark
  exact ticks runs at_m did rfl

theorem NoticedAt.tick (runs : Runs S t₀ tr) (queued : NoticedAt tr k i v) :
    Started i .schedulerTick (tr.take k) := by
  obtain ⟨s, n, c, at_k, did, kind, -⟩ := queued
  exact ticks runs at_k did (by simp [Action.isBeside, kind])

/-- A row that a thread has found in its batch. -/
theorem picked_of_batched (batched : Batched (history i k tr) d) : ∃ j, j < k ∧ PickedAt tr j i d := by
  obtain ⟨rows, read, mem⟩ := batched
  obtain ⟨j, s, lt, at_j, did⟩ := mem_history.1 read
  exact ⟨j, lt, s, rows, at_j, did, mem⟩

theorem MarkedAt.picked (runs : Runs S t₀ tr) (mark : MarkedAt tr m i v) :
    ∃ j d, j < m ∧ PickedAt tr j i d ∧ d.1.id = v := by
  obtain ⟨s, t, at_m, did⟩ := mark
  obtain ⟨d, batched, same⟩ := (noticing runs at_m did rfl).mark v t rfl
  obtain ⟨j, lt, picked⟩ := picked_of_batched batched
  exact ⟨j, d, lt, picked, same⟩

/-- The batch lists open claims whose marker is out. -/
theorem PickedAt.row (runs : Runs S t₀ tr) (picked : PickedAt tr j i d) :
    ∃ s, tr[j]? = some s ∧ (∀ u, ¬ Commits s d.1.id u) ∧ s.before.vault? d.1.id = some d.1 ∧
      OpenClaim d.1 d.2 := by
  obtain ⟨s, rows, at_j, did, mem⟩ := picked
  refine ⟨s, at_j, fun u commits => commits.not_query did, ?_⟩
  obtain ⟨row, opened⟩ := Db.mem_decodeColumn (did_query (runs.explains_at at_j) did).1 mem
  obtain ⟨here, where_⟩ := KeyedTable.mem_select.1 row
  simp only [ne_eq, Bool.decide_and, decide_not, Bool.and_eq_true, Bool.not_eq_eq_eq_not,
    Bool.not_true, decide_eq_false_iff_not, decide_eq_true_eq] at where_
  exact ⟨here, opened, where_.2.2.1, where_.2.2.2⟩

theorem MarkedAt.commits (runs : Runs S t₀ tr) (mark : MarkedAt tr m i v) :
    ∃ s t r, tr[m]? = some s ∧ Commits s v (.claimReadyNotified t) ∧
      s.before.vault? v = some r ∧ Unmarked r ∧ s.after.vault? v = some ((VaultUpdate.claimReadyNotified t).set r) := by
  obtain ⟨s, t, at_m, did⟩ := mark
  rcases did_update (runs.explains_at at_m) did with ⟨-, r, row, guard, after⟩ | ⟨none, -⟩
  · have out : r.life.claimReadyNotifiedAt = none := of_decide_eq_true guard
    exact ⟨s, t, r, at_m, ⟨.exec did, r, row, guard⟩, row, out, after⟩
  · cases none

/-- Every notice goes with a marker of its tick. -/
theorem NoticedAt.noticeOf (runs : Runs S t₀ tr) (queued : NoticedAt tr k i v) :
    ∃ m, NoticeOf tr m k i v := by
  obtain ⟨s, n, c, at_k, did, kind, rfl⟩ := id queued
  obtain ⟨h₁, h₂, t, hits, whole, hit, beside⟩ :=
    (noticing runs at_k did (by simp [Action.isBeside, kind])).notice n rfl kind
  obtain ⟨m, s', lt, at_m, label, same⟩ := history_split whole
  have one : hits = 1 := by
    rcases did_update (runs.explains_at at_m) label with ⟨one, -⟩ | ⟨none, -⟩
    · exact one
    · exact absurd none hit
  subst one
  refine ⟨m, lt, ⟨s', t, at_m, label⟩, queued, fun p s e after before at_p acted => ?_⟩
  obtain ⟨rest, since, mem⟩ := history_since at_m label lt
  rw [whole, ← same] at since
  obtain ⟨-, rfl⟩ := List.cons.inj (List.append_cancel_left since)
  exact beside e ((mem e).2 ⟨p, s, after, before, at_p, acted⟩)

/-! ## §5 Open claims and taken markers -/

theorem OpenSince.succ {r r' : VaultRow} (since : OpenSince tr j d k r) (at_k : tr[k]? = some s)
    (kept : ¬ Commits s d.1.id .releaseClaimToken) (same : r'.life = r.life) :
    OpenSince tr j d (k + 1) r' := by
  obtain ⟨opened, token, used⟩ := since
  refine ⟨same ▸ opened, same ▸ token, ?_⟩
  rw [same]
  refine used.imp_right ?_
  rintro ⟨n, s', t, after, before, at_n, commits, unreleased⟩
  refine ⟨n, s', t, after, Nat.lt_succ_of_lt before, at_n, commits, ?_⟩
  intro n' s'' after' before' at_n'
  rcases Nat.lt_or_eq_of_le (Nat.le_of_lt_succ before') with earlier | rfl
  · exact unreleased n' s'' after' earlier at_n'
  · rw [at_k] at at_n'
    cases at_n'
    exact kept

/-- What an UPDATE within the cycle leaves of an open claim. -/
theorem OpenSince.set {u : VaultUpdate} {r : VaultRow} (since : OpenSince tr j d k r)
    (after : j < k) (at_k : tr[k]? = some s) (commits : Commits s d.1.id u)
    (goes_on : endsClaim u = false) (guard : u.guard r = true) : OpenSince tr j d (k + 1) (u.set r) := by
  obtain ⟨opened, token, kept⟩ := open_set goes_on guard since.opened since.token
  rcases kept with unused | ⟨same, other⟩ | ⟨t, rfl⟩
  · exact ⟨opened, token, .inl unused⟩
  · have kept : ¬ Commits s d.1.id .releaseClaimToken := fun releases =>
      other (commits.1.unique releases.1)
    obtain ⟨-, -, used⟩ := since.succ at_k kept rfl
    exact ⟨opened, token, by rwa [same]⟩
  · refine ⟨opened, token, .inr ⟨k, s, t, after, Nat.lt_succ_self k, at_k, commits, ?_⟩⟩
    intro n' s' later early
    omega

/-- A claim that a batch lists is still open at the end of the stretch, within its cycle. -/
theorem PickedAt.openSince (runs : Runs S t₀ tr) (fresh : FreshIds tr) (picked : PickedAt tr j i d)
    (lt : j < m) (same : SameCycle tr d.1.id j m) (at_m : tr[m]? = some s) {r : VaultRow}
    (row : s.before.vault? d.1.id = some r) : OpenSince tr j d m r := by
  obtain ⟨s₀, at_j, quiet, here, claim⟩ := picked.row runs
  have untouched : ∀ k s r r', tr[k]? = some s → (∀ u, ¬ Commits s d.1.id u) →
      s.before.vault? d.1.id = some r → r'.life = r.life → (j < k → k ≤ m → OpenSince tr j d k r) →
        j < k + 1 → k + 1 ≤ m → OpenSince tr j d (k + 1) r' := by
    intro k s r r' at_k silent before life ih after le
    rcases Nat.lt_or_eq_of_le (Nat.le_of_lt_succ after) with later | rfl
    · exact (ih later (Nat.le_of_succ_le le)).succ at_k (silent _) life
    · rw [at_j] at at_k
      cases at_k
      rw [here] at before
      cases before
      exact ⟨life ▸ claim.opened, life ▸ claim.token, .inl (life ▸ claim.unused)⟩
  -- along the stretch the row only changes by what its cycle allows
  refine (runs.row_invariant (v := d.1.id) (P := fun k r => j < k → k ≤ m → OpenSince tr j d k r)
    ⟨?_, ?_, ?_, ?_⟩ at_m).1 r row lt (Nat.le_refl m)
  · exact fun k s r at_k silent before _ => untouched k s r r at_k silent before rfl
  · exact fun k s r c at_k silent before _ => untouched k s r _ at_k silent before rfl
  · intro k s i' r n at_k did id after _
    exact absurd id (runs.not_inserted_again fresh at_j here (Nat.le_of_lt_succ after) at_k did)
  · intro k s u r at_k applies before guard ih after le
    rcases Nat.lt_or_eq_of_le (Nat.le_of_lt_succ after) with later | rfl
    · have commits : Commits s d.1.id u := ⟨applies, r, before, guard⟩
      exact (ih later (Nat.le_of_succ_le le)).set later at_k commits
        (same k s u (Nat.le_of_lt later) le at_k commits) guard
    · rw [at_j] at at_k
      cases at_k
      exact absurd ⟨applies, r, before, guard⟩ (quiet u)

/-- A marker that was taken stays taken within its cycle. -/
theorem MarkedAt.stays (runs : Runs S t₀ tr) (fresh : FreshIds tr) (mark : MarkedAt tr m i v)
    (lt : m < k) (same : SameCycle tr v m k) (at_k : tr[k]? = some s) {r : VaultRow}
    (row : s.before.vault? v = some r) : ¬ Unmarked r := by
  obtain ⟨s₀, t, r₀, at_m, -, here, -, after⟩ := mark.commits runs
  obtain ⟨c, run⟩ := id runs
  refine run.since (P := fun w => ∀ r, w.vault? v = some r → ¬ Unmarked r) at_m ?_ ?_ lt at_k r row
  · intro r row
    rw [after] at row
    cases row
    exact nofun
  · intro n u after' before at_n marked r row
    cases rowChange (runs.explains_at at_n) v with
    | kept unchanged => exact marked r (unchanged ▸ row)
    | contacts r' c before' after' =>
      rw [after'] at row
      cases row
      exact marked r' before'
    | inserted i' r' n' did id =>
      exact absurd id (runs.not_inserted_again fresh at_m here (Nat.le_of_lt after') at_n did)
    | deleted i' n' did gone =>
      rw [gone] at row
      cases row
    | applied u' r' applies before' guard after'' =>
      rw [after''] at row
      cases row
      exact marked_set (same n u u' (Nat.le_of_lt after') before at_n ⟨applies, r', before', guard⟩)
        (marked r' before')

/-! ## §6 The promises -/

/-- No two notices of one cycle, in any run. -/
theorem once (runs : Runs S t₀ tr) (fresh : FreshIds tr) {i' k' m' : Nat}
    (first : NoticeOf tr m k i v) (second : NoticeOf tr m' k' i' v) (lt : k < k') :
    m < m' ∧ ¬ SameCycle tr v m m' := by
  have order : m < m' := by
    obtain ⟨s, n, c, at_k, did, kind, -⟩ := first.queued
    obtain ⟨s', n', c', at_k', did', -, -⟩ := second.queued
    obtain ⟨s'', t, at_m', did''⟩ := second.mark
    by_cases one : i = i'
    · subst one
      -- between a marker and its notice the tick does neither
      have after : ¬ m' < k := fun early => by
        have beside := second.between k s _ early lt at_k did
        simp [Action.isBeside, kind] at beside
      have other : m' ≠ k := by
        rintro rfl
        rw [at_k] at at_m'
        cases at_m'
        have label := did.symm.trans did''
        cases label
      have before := first.before
      omega
    · exact first.before.trans (runs.tick_order at_k did (first.queued.tick runs) at_k' did' lt
        at_m' did'' (second.mark.tick runs) one)
  refine ⟨order, fun same => ?_⟩
  obtain ⟨s, t, r, at_m', -, row, out, -⟩ := second.mark.commits runs
  exact first.mark.stays runs fresh order same at_m' row out

/-- A notice is for a claim that its batch has seen open. -/
theorem inCycle (runs : Runs S t₀ tr) (fresh : FreshIds tr) (queued : NoticedAt tr k i v) :
    ∃ j m d s r, j < m ∧ PickedAt tr j i d ∧ d.1.id = v ∧ OpenClaim d.1 d.2 ∧
      NoticeOf tr m k i v ∧ tr[m]? = some s ∧ s.before.vault? v = some r ∧ Unmarked r ∧
        (SameCycle tr v j m → OpenSince tr j d m r) := by
  obtain ⟨m, notice⟩ := queued.noticeOf runs
  obtain ⟨j, d, lt, picked, rfl⟩ := notice.mark.picked runs
  obtain ⟨s, t, r, at_m, -, row, out, -⟩ := notice.mark.commits runs
  obtain ⟨-, -, -, -, claim⟩ := picked.row runs
  exact ⟨j, m, d, s, r, lt, picked, rfl, claim, notice, at_m, row, out,
    fun same => picked.openSince runs fresh lt same at_m row⟩

/-- A stop that is no payment leaves the vault unmarked, until a tick marks it again. -/
theorem marked_since (runs : Runs S t₀ tr) (fresh : FreshIds tr) (at_k : tr[k]? = some s)
    {u : VaultUpdate} (commits : Commits s v u) (stops : u.stops = true)
    (free : ∀ t next eligible, u ≠ .resetVaultClock t next eligible) {k' : Nat} {s' : SrvStep}
    {r : VaultRow} (le : k ≤ k') (at_k' : tr[k']? = some s') (row : s'.after.vault? v = some r)
    (marked : ¬ Unmarked r) : ∃ m i, k < m ∧ m ≤ k' ∧ MarkedAt tr m i v := by
  obtain ⟨applies, r₀, row₀, -⟩ := id commits
  -- whatever keeps the marker out or in does so of a row that was there before
  have later : ∀ n t r' r'', tr[n]? = some t → (∀ u, ¬ Commits t v u) → r''.life = r'.life →
      (k < n → ¬ Unmarked r' → ∃ m i, k < m ∧ m < n ∧ MarkedAt tr m i v) →
        k < n + 1 → ¬ Unmarked r'' → ∃ m i, k < m ∧ m < n + 1 ∧ MarkedAt tr m i v := by
    intro n t r' r'' at_n silent life ih after marked
    rcases Nat.lt_or_eq_of_le (Nat.le_of_lt_succ after) with earlier | rfl
    · obtain ⟨m, i, after, before, mark⟩ := ih earlier fun out => marked (by rwa [Unmarked, life])
      exact ⟨m, i, after, Nat.lt_succ_of_lt before, mark⟩
    · rw [at_k] at at_n
      cases at_n
      exact absurd commits (silent u)
  have since := (runs.row_invariant (v := v) (P := fun n r => k < n → ¬ Unmarked r →
    ∃ m i, k < m ∧ m < n ∧ MarkedAt tr m i v) ⟨?_, ?_, ?_, ?_⟩ at_k').2 r row
      (Nat.lt_succ_of_le le) marked
  · obtain ⟨m, i, after, before, mark⟩ := since
    exact ⟨m, i, after, Nat.le_of_lt_succ before, mark⟩
  · exact fun n t r' at_n silent _ _ => later n t r' r' at_n silent rfl
  · exact fun n t r' c at_n silent _ _ => later n t r' _ at_n silent rfl
  · intro n t i r' c at_n did id after _
    exact absurd id (runs.not_inserted_again fresh at_k row₀ (Nat.le_of_lt_succ after) at_n did)
  · intro n t u' r' at_n applies' row' guard ih after marked
    rcases Nat.lt_or_eq_of_le (Nat.le_of_lt_succ after) with earlier | rfl
    · rcases of_marked_set marked with old | ⟨t', rfl⟩
      · obtain ⟨m, i, after, before, mark⟩ := ih earlier old
        exact ⟨m, i, after, Nat.lt_succ_of_lt before, mark⟩
      · cases applies' with
        | exec did =>
          rcases did_update_hit (runs.explains_at at_n) did row' guard with ⟨rfl, -⟩
          exact ⟨n, _, earlier, Nat.lt_succ_self n, t, t', at_n, did⟩
    · rw [at_k] at at_n
      cases at_n
      rw [applies.unique applies'] at stops free
      rcases unmarked_stop stops with out | ⟨t', next, eligible, same⟩
      · exact absurd out marked
      · exact absurd same (free t' next eligible)

/-- A tick that has returned has tried the notices of the vaults it has marked. -/
theorem tried (lawful : S.Lawful) (runs : Runs S t₀ tr) (mark : MarkedAt tr m i v)
    (at_k : tr[k]? = some s) {res : Except ApiError Reply} (ret : s.label = .returned i res) :
    ∃ j d, j < m ∧ PickedAt tr j i d ∧ d.1.id = v ∧ ∀ recipient sealed,
      EmailHeir S d.1 recipient → S.sealForVault v recipient = .ok sealed → TriedAt tr m k i v := by
  have tick := mark.tick runs
  obtain ⟨s₁, t, at_m, did⟩ := id mark
  obtain ⟨c, run⟩ := id runs
  -- the tick takes its markers before it returns
  have lt : m < k := by
    by_contra late
    rcases Nat.eq_or_lt_of_le (Nat.not_lt.1 late) with rfl | after
    · rw [at_k] at at_m
      cases at_m
      cases ret.symm.trans did
    · have ended : Ended i (tr.take (k + 1)) :=
        ⟨tr.take k, s, [], take_succ_at at_k, .inl ⟨res, ret⟩⟩
      exact (run.silent_at at_m after ended).1 _ did
  obtain ⟨q, started, served⟩ := run.returned_at (S := server S) (noticing_program S) at_k ret
  obtain ⟨c', before⟩ := run.take k
  have all := served (before.started_unique started (tick.later (Nat.le_of_lt lt)))
  obtain ⟨rest, whole, mem⟩ := history_since at_m did lt
  obtain ⟨d, t', n, same, batched, sends⟩ := all _ _ _ whole ⟨v, t, 1, rfl, Nat.one_ne_zero⟩
  obtain rfl : v = d.1.id := by
    cases same
    rfl
  obtain ⟨j, before_m, picked⟩ := picked_of_batched batched
  refine ⟨j, d, before_m, picked, rfl, fun recipient sealed email seals => ?_⟩
  obtain ⟨s₂, at_j, -, row, -⟩ := picked.row runs
  have opens : TokenOpens S d.1 := fun stored atRest => by
    obtain ⟨token, -, opens⟩ := runs.keys_sealed lawful at_j row atRest
    exact ⟨token, opens⟩
  obtain ⟨x, res', listed, kind, id⟩ := sends recipient sealed email opens seals
  obtain ⟨p, s₃, after, before_k, at_p, acted⟩ := (mem _).1 listed
  exact ⟨p, s₃, x, res', after, before_k, at_p, acted, kind, id⟩

/-- What the notices keep, in every run. -/
theorem noticesKept (lawful : S.Lawful) (runs : Runs S t₀ tr) (fresh : FreshIds tr) :
    NoticesKept S tr where
  once _ _ _ _ _ _ _ first second lt := once runs fresh first second lt
  inCycle _ _ _ queued := inCycle runs fresh queued
  fresh k s v u k' s' r at_k commits stops free le at_k' row marked := by
    obtain ⟨m, i, after, before, mark⟩ :=
      marked_since runs fresh at_k commits stops free le at_k' row marked
    obtain ⟨j, d, lt, picked, id⟩ := mark.picked runs
    exact ⟨j, m, i, d, lt, after, before, picked, id, mark⟩
  tried _ _ _ _ _ _ mark at_k ret := tried lawful runs mark at_k ret

end Runs

/-! ## §7 A notice -/

section Noticed

open Deployment

/-- The heir opens the claim, and a day later a tick finds the window passed. -/
def openedAndNoticed : List (Move Oracle Drift Request) :=
  [.start (.createVaultFromXpub doorA)] ++ steps 0 9 (oracle "v" []) ++
    [.start (.resolveClaim "sealed")] ++ steps 1 8 (oracle "" []) ++ wait 86400 ++
    [.start .schedulerTick] ++ steps 2 29 (oracle "" [coin])

/-- Whether thread `i` queues a notice for `v` in this step. -/
def notices (i : Nat) (v : VaultId) (s : SrvStep) : Bool :=
  match s.label with
  | .acted j ⟨.exec (.insertNotification n), .ok _⟩ => j = i && n.kind = .claimReady && n.vaultId = v
  | _ => false

theorem noticesKept_opened : ∃ tr, Runs (host 86400) 0 tr ∧ tr.any (notices 2 "v") = true ∧
    NoticesKept (host 86400) tr := by
  obtain ⟨tr, runs, check⟩ := runs_of_play (host 86400) openedAndNoticed
    (fun tr => tr.any (notices 2 "v") && tr.zipIdx.all fun p => !inserts p.1 || p.2 = 5)
    (by decide +kernel)
  simp only [Bool.and_eq_true] at check
  exact ⟨tr, runs, check.1, noticesKept (lawful _) runs (freshIds_of_inserts check.2)⟩

end Noticed

end ReadyNotice

end GhostKey

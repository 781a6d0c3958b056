import GhostKey.OneTap

/-!
# One Round of Links

Three messages of the scheduler carry a check-in link: the reminder ahead of a deadline, the
alarm, and the escalations after it. The raw token of a link is known to nobody but the round
that has drawn it, so the link goes out in that round or not at all, and no other round has
one to send until a check-in or a panic has taken the token off file.

Layers:
1. one round: what lies between a mint and a message, `RoundOpen`, `Linked`;
2. messages and their mints by positions in a run, `LinkMail`;
3. `linksKept`: every link goes with its mint, and one round of links to a cycle.
-/

namespace GhostKey

open Foundation Program Prog

/-! ## §1 One round -/

/-- The messages of the scheduler that may carry a check-in link. -/
def NotificationKind.mailsLinks : NotificationKind → Bool
  | alarmOwner => true
  | preDeadlineReminder => true
  | alarmEscalation => true
  | _ => false

/-- Neither a mint nor a message that may carry a link. -/
def Action.isLinkless : Action → Bool
  | exec (.updateVault _ (.mintOneTapToken _ _)) => false
  | exec (.insertNotification n) => !n.kind.mailsLinks
  | _ => true

theorem NotificationKind.linkless_of_tame {kind : NotificationKind} (tame : kind.isTame = true) :
    kind.mailsLinks = false := by
  cases kind <;> first | rfl | cases tame

instance : Lenient Action.isLinkless := ⟨fun a tame => by
  cases a with
  | exec st =>
    cases st with
    | updateVault v u => cases u <;> first | rfl | cases tame
    | insertNotification n =>
      rw [Action.isLinkless, NotificationKind.linkless_of_tame tame]
      rfl
    | _ => rfl
  | _ => rfl⟩

namespace LinkRounds

/-- No mint, and messages that may carry links on these channels only. -/
def staysOn (sent : List Channel) : Action → Bool
  | .exec (.updateVault _ (.mintOneTapToken _ _)) => false
  | .exec (.insertNotification n) => !n.kind.mailsLinks || sent.contains n.channel
  | _ => true

/-- The token was put on file for `v`, and since then its round has sent on these channels. -/
def RoundOpen (S : Server) (v : VaultId) (token : Token) (sent : List Channel) (h : Hist) : Prop :=
  ∃ h₁ h₂ t m, h = h₁ ++
      (⟨.exec (.updateVault v (.mintOneTapToken (S.hashClaimToken token) t)), .ok m⟩ : Ev) :: h₂ ∧
    m ≠ 0 ∧ ∀ x ∈ h₂, staysOn sent x.action = true

/-- The message carries no token. -/
def Plain (S : Server) (n : NotificationRow) : Prop :=
  (n.link = none ∨ n.link = some S.checkinUrl) ∧ n.kind ≠ .preDeadlineReminder

/-- A message with a token comes in the round of its mint, the first on its channel. -/
def Linked (S : Server) (h : Hist) (e : Ev) : Prop :=
  ∀ n, e.action = .exec (.insertNotification n) → n.kind.mailsLinks = true → Plain S n ∨
    ∃ token sent, n.link = some (S.checkinLinkUrl n.vaultId token) ∧
      RoundOpen S n.vaultId token sent h ∧ n.channel ∉ sent

/-- All the messages of `p` are linked so. -/
abbrev Linking {α : Type} (S : Server) (p : Prog α) (h : Hist) : Prop :=
  Meets (Linked S) (fun _ _ => True) p h

section Rounds

variable {S : Server} {h : Hist} {α β : Type} {v : VaultId} {token : Token} {sent : List Channel}
variable {kind : NotificationKind} {channel : Channel} {recipient : String} {nowIso : Instant}

theorem Linked.of_linkless {a : Action} {r : a.Response} (linkless : a.isLinkless = true) :
    Linked S h ⟨a, r⟩ := by
  rintro n rfl mails
  simp [Action.isLinkless, mails] at linkless

theorem linking_of_tidy {p : Prog α} (tidy : Tidy S Action.isLinkless p) : Linking S p h := by
  refine Meets.mono (tidy.meets h) (fun g e good => ?_) fun _ _ _ => trivial
  rcases good with linkless | ⟨v, token, t, g', same, -⟩
  · exact .of_linkless linkless
  · rintro n mails
    rw [same] at mails
    cases mails

theorem linking_bind {p : Prog α} {f : α → Prog β} (first : Linking S p h)
    (next : ∀ g a, Linking S (f a) g) : Linking S (p.bind f) h :=
  Meets.bind first (fun g a _ _ => next g a) fun _ _ _ _ => trivial

theorem linking_forEach {σ : Type} {body : σ → Prog Unit} (round : ∀ x g, Linking S (body x) g)
    (xs : List σ) : Linking S (Program.forEach xs body) h :=
  Meets.forEach (L := fun _ => True) trivial
    (fun x _ g _ _ => Meets.mono (round x g) (fun _ _ e => e) fun _ r _ => by cases r <;> trivial)
    fun _ _ => trivial

theorem linking_logged {p : Prog Unit} (linking : Linking S p h) : Linking S (logged p) h :=
  linking_bind (Meets.attempt linking fun _ _ _ => trivial) fun _ _ => trivial

theorem linking_crypto (x : Except Unit α) : Linking S (crypto x) h := by
  cases x <;> trivial

theorem ensures_of_linking {p : Prog α} (linking : Linking S p h) :
    Ensures (Linked S) (fun _ _ => True) p h :=
  Meets.mono linking (fun _ _ e => e) fun _ _ _ _ _ => trivial

/-- What comes of a mint. -/
theorem ensures_mint :
    Ensures (Linked S) (fun g token => ∀ raw, token = some raw → RoundOpen S v raw [] g)
      (mintOrReuseOneTapToken S v nowIso) h := by
  refine .bind (ensures_of_linking (linking_of_tidy (tidy_read _))) fun g row _ _ => ?_
  cases row with
  | none => exact .done nofun
  | some r =>
    dsimp only
    split
    · exact .done nofun
    · refine .act fun token => ⟨.of_linkless rfl, .act fun rows => ⟨nofun, ?_⟩⟩
      cases rows with
      | error e => exact .fail
      | ok m =>
        by_cases hit : m = 0
        · subst hit
          exact .done nofun
        · simp only [done_bind, hit]
          refine .done ?_
          rintro raw ⟨⟩
          exact ⟨_, [], nowIso, m, rfl, hit, by simp⟩

theorem staysOn_cons {a : Action} (stays : staysOn sent a = true) :
    staysOn (channel :: sent) a = true := by
  cases a with
  | exec st =>
    cases st with
    | updateVault w u => cases u <;> first | rfl | cases stays
    | insertNotification n =>
      simp only [staysOn, List.contains_cons, Bool.or_eq_true] at stays ⊢
      exact stays.imp_right .inr
    | _ => rfl
  | _ => rfl

/-- A round goes on with one more channel. -/
theorem RoundOpen.send (opened : RoundOpen S v token sent h) {more : Hist}
    (stays : ∀ x ∈ more, staysOn (channel :: sent) x.action = true) :
    RoundOpen S v token (channel :: sent) (h ++ more) := by
  obtain ⟨h₁, h₂, t, m, rfl, hit, before⟩ := opened
  refine ⟨h₁, h₂ ++ more, t, m, by simp, hit, fun x mem => ?_⟩
  rcases List.mem_append.1 mem with old | new
  · exact staysOn_cons (before x old)
  · exact stays x new

/-- A message with the token of the round, on a channel that has had none. -/
theorem ensures_send (opened : RoundOpen S v token sent h) (other : channel ∉ sent) :
    Ensures (Linked S) (fun g _ => RoundOpen S v token (channel :: sent) g)
      (enqueue S v kind channel recipient (some (S.checkinLinkUrl v token))) h := by
  unfold enqueue
  cases S.sealForVault v recipient with
  | error e => exact .fail
  | ok sealed =>
    refine .act fun now => ⟨.of_linkless rfl, .act fun res => ⟨?_, ?_⟩⟩
    · rintro n ⟨⟩ -
      refine .inr ⟨token, sent, rfl, ?_, other⟩
      obtain ⟨h₁, h₂, t, m, rfl, hit, before⟩ := opened
      refine ⟨h₁, h₂ ++ [⟨.now, now⟩], t, m, by simp, hit, fun x mem => ?_⟩
      rcases List.mem_append.1 mem with old | new
      · exact before x old
      · rw [List.mem_singleton.1 new]
        rfl
    · cases res with
      | error e => exact .fail
      | ok n =>
        refine .done ?_
        rw [List.append_assoc]
        refine opened.send fun x mem => ?_
        rcases List.mem_cons.1 mem with rfl | mem
        · rfl
        · rw [List.mem_singleton.1 mem]
          simp [staysOn]

/-- A message without a token. -/
theorem linking_send {link : Option String} (plain : link = none ∨ link = some S.checkinUrl)
    (free : kind ≠ .preDeadlineReminder) :
    Linking S (enqueue S v kind channel recipient link) h := by
  refine linking_bind (linking_crypto _) fun g _ now => ⟨.of_linkless rfl, fun res => ⟨?_, ?_⟩⟩
  · rintro n ⟨⟩ -
    exact .inl ⟨plain, free⟩
  · cases res <;> trivial

/-- The messages of one round, on the owner's channel and by push. -/
theorem linking_enqueueOwnerMessage (opened : RoundOpen S v token [] h)
    {contact : Option OwnerContact} (reachable : ∀ c, contact = some c → c.channel ≠ .webPush)
    (hasPush : Bool) :
    Linking S (enqueueOwnerMessage S v kind contact hasPush (some (S.checkinLinkUrl v token))
      (some (S.checkinLinkUrl v token))) h := by
  have push : ∀ g sent, RoundOpen S v token sent g → Channel.webPush ∉ sent → Linking S
      (if hasPush then enqueue S v kind .webPush "webpush" (some (S.checkinLinkUrl v token))
        else pure ()) g := by
    intro g sent opened other
    split
    · exact Meets.mono (ensures_send opened other) (fun _ _ e => e) fun _ _ _ => trivial
    · trivial
  cases contact with
  | none => exact push h [] opened List.not_mem_nil
  | some c =>
    refine Meets.bind (ensures_send opened List.not_mem_nil) (fun g _ _ sent => ?_)
      fun _ _ _ _ => trivial
    refine push g _ (sent () rfl) fun mem => ?_
    exact reachable c rfl (List.mem_singleton.1 mem).symm

/-- A deliverable owner is reached by something else than push. -/
theorem not_webPush_of_deliverable {r : VaultRow} {contact : Option OwnerContact}
    (found : deliverableOwner S r = .ok contact) :
    ∀ c, contact = some c → c.channel ≠ .webPush := by
  rintro c rfl push
  unfold deliverableOwner at found
  cases parsed : parseOwnerContact S r.id r.contacts.owner with
  | error e =>
    rw [parsed] at found
    cases found
  | ok owner =>
    rw [parsed] at found
    have here : owner.filter (fun c => ownerChannelIsDeliverable c.channel) = some c :=
      Except.ok.inj found
    have deliverable := (Option.filter_eq_some_iff.1 here).2
    rw [push] at deliverable
    cases deliverable

theorem linking_enqueuePreDeadlineReminder (r : VaultRow) :
    Linking S (enqueuePreDeadlineReminder S r nowIso) h := by
  unfold enqueuePreDeadlineReminder
  cases found : deliverableOwner S r with
  | error e => trivial
  | ok contact =>
    simp only [crypto, bind_eq, done_bind]
    refine linking_bind (linking_of_tidy (tidy_read _)) fun g pushes => ?_
    split
    · trivial
    · refine Meets.bind ensures_mint (fun g' token _ minted => ?_) fun _ _ _ _ => trivial
      cases token with
      | none => trivial
      | some token =>
        exact linking_bind (linking_enqueueOwnerMessage (minted _ rfl token rfl)
          (not_webPush_of_deliverable found) _) fun _ _ =>
            linking_of_tidy (tidy_bind (tidy_exec rfl) fun _ => tidy_pure _)

theorem linking_enqueueAlarmOwner (r : VaultRow) :
    Linking S (enqueueAlarmOwner S r nowIso) h := by
  unfold enqueueAlarmOwner
  cases found : deliverableOwner S r with
  | error e => trivial
  | ok contact =>
    simp only [crypto, bind_eq, done_bind]
    refine linking_bind (linking_of_tidy (tidy_read _)) fun g pushes => ?_
    split
    · trivial
    · refine Meets.bind ensures_mint (fun g' token _ minted => ?_) fun _ _ _ _ => trivial
      cases token with
      | none =>
        have push : ∀ g, Linking S (if decide (0 < pushes) = true then
            enqueue S r.id .alarmOwner .webPush "webpush" (some S.checkinUrl) else pure ()) g := by
          intro g
          split
          · exact linking_send (.inr rfl) (by decide)
          · trivial
        cases contact with
        | none => exact push _
        | some c => exact linking_bind (linking_send (.inl rfl) (by decide)) fun _ _ => push _
      | some token =>
        exact linking_enqueueOwnerMessage (minted _ rfl token rfl)
          (not_webPush_of_deliverable found) _

theorem linking_enqueueAlarmEscalation (r : VaultRow) :
    Linking S (enqueueAlarmEscalation S r nowIso) h := by
  unfold enqueueAlarmEscalation
  refine linking_bind (linking_crypto _) fun g contact => ?_
  cases contact with
  | none => trivial
  | some c =>
    refine Meets.bind ensures_mint (fun g' token _ minted => ?_) fun _ _ _ _ => trivial
    cases token with
    | none => exact linking_send (.inl rfl) (by decide)
    | some token =>
      exact Meets.mono (ensures_send (minted _ rfl token rfl) List.not_mem_nil)
        (fun _ _ e => e) fun _ _ _ => trivial

/-- Every message of a tick. -/
theorem linking_tickOnce : Linking S (tickOnce S) h := by
  -- the steps in their order; only reminders, alarms and escalations carry links
  refine linking_bind (linking_of_tidy tidy_now) fun _ nowIso => linking_bind ?_ fun _ _ =>
    linking_bind (linking_of_tidy tidy_probeLightning) fun _ _ =>
    linking_bind (linking_of_tidy tidy_now) fun _ _ =>
    linking_bind (linking_of_tidy (tidy_perform rfl)) fun _ _ => ?_
  · refine linking_bind (linking_of_tidy (tidy_unfreezeExpiredPanics _)) fun _ _ =>
      linking_bind (linking_of_tidy tidy_activateFundedVaults) fun _ _ =>
      linking_bind (linking_of_tidy (tidy_bind (tidy_read _) fun rows => tidy_bind tidy_now fun t =>
        tidy_forEach (fun r => tidy_retireIfEmpty r .ok true t) rows)) fun _ _ =>
      linking_bind (linking_of_tidy (tidy_bind (tidy_read _) fun rows => tidy_bind tidy_now fun t =>
        tidy_forEach (fun r => tidy_retireIfEmpty r r.life.status false t) rows)) fun _ _ =>
      linking_bind (linking_bind (linking_of_tidy (tidy_read _)) fun _ due =>
        linking_forEach (fun r _ => linking_logged (linking_enqueuePreDeadlineReminder r)) due)
        fun _ _ =>
      linking_bind (linking_bind (linking_of_tidy (tidy_read _)) fun _ due =>
        linking_forEach (fun d _ => ?_) due) fun _ _ =>
      linking_bind (linking_of_tidy (tidy_read _)) fun _ due => linking_forEach (fun d _ => ?_) due
    · exact linking_bind (linking_of_tidy (tidy_update rfl)) fun _ _ =>
        linking_bind (linking_of_tidy (tidy_recordEvent rfl)) fun _ _ =>
          linking_logged (linking_enqueueAlarmOwner d.1)
    · refine linking_bind (Meets.attempt (linking_enqueueAlarmEscalation d.1) fun _ _ _ => trivial)
        fun _ sent => ?_
      cases sent with
      | error e => trivial
      | ok _ => exact linking_of_tidy (tidy_bind (tidy_exec rfl) fun _ => tidy_pure _)
  · split
    · trivial
    · exact linking_of_tidy (tidy_bind (tidy_transitionAlarmedToClaimable nowIso) fun _ =>
        tidy_sendClaimReadyNotices ⟨fun n same => by simp [Action.isLinkless, same]; rfl,
          fun _ _ => rfl⟩)

end Rounds

/-! ## §2 Links by their positions -/

/-- At `k` thread `i` queues this message. -/
def QueuedAt (tr : Trace) (k i : Nat) (n : NotificationRow) : Prop :=
  ∃ s c, tr[k]? = some s ∧ Did i (.exec (.insertNotification n)) (.ok c) s

/-- The message queued at `k` carries the token that its thread put on file at `m`. Between the
two the thread mints nothing, and sends no link on the same channel. -/
structure LinkMail (S : Server) (tr : Trace) (m k i : Nat) (n : NotificationRow) (token : Token) :
    Prop where
  before : m < k
  mint : MintedAt tr m i n.vaultId (S.hashClaimToken token)
  queued : QueuedAt tr k i n
  kind : n.kind.mailsLinks = true
  link : n.link = some (S.checkinLinkUrl n.vaultId token)
  round : ∃ sent, n.channel ∉ sent ∧ ∀ p s e, m < p → p < k → tr[p]? = some s →
    s.label = .acted i e → staysOn sent e.action = true

/-- What the links in the scheduler's messages keep. -/
structure LinksKept (S : Server) (tr : Trace) : Prop where
  /-- A message either carries no token, which a reminder never does, or one that its thread has
  put on file for the same vault. -/
  minted : ∀ k i n, QueuedAt tr k i n → n.kind.mailsLinks = true →
    Plain S n ∨ ∃ m token, LinkMail S tr m k i n token
  /-- Between the mints of two links to one vault, on one channel, a check-in or a panic of the
  vault is accepted. -/
  once : ∀ m k i n token m' k' i' n' token', LinkMail S tr m k i n token →
    LinkMail S tr m' k' i' n' token' → n'.vaultId = n.vaultId → n'.channel = n.channel →
      k < k' → m < m' ∧ ∃ c, m < c ∧ c < m' ∧ ClosedAt tr c n.vaultId

section Runs

variable {S : Server} {t₀ : Instant} {tr : Trace} {s : SrvStep} {i k m : Nat} {v : VaultId}
variable {n : NotificationRow} {token : Token} {hash : Hash}

theorem linking_program (S : Server) (q : Request) :
    Meets (fun h e => q = .schedulerTick → Linked S h e) (fun _ _ => True) (q.program S) [] := by
  by_cases tick : q = .schedulerTick
  · subst tick
    have whole : Linking S (Request.schedulerTick.program S) [] :=
      linking_bind linking_tickOnce fun _ _ => trivial
    exact Meets.mono whole (fun _ _ linked _ => linked) fun _ _ _ => trivial
  · exact Meets.mono (Meets.grows _ _) (fun _ _ _ same => absurd same tick) fun _ _ _ => trivial

/-- These messages are for ticks only. -/
theorem QueuedAt.tick (runs : Runs S t₀ tr) (queued : QueuedAt tr k i n)
    (mails : n.kind.mailsLinks = true) : Started i .schedulerTick (tr.take k) := by
  obtain ⟨s, c, at_k, did⟩ := queued
  have untame : ∀ kind : NotificationKind, kind.mailsLinks = true → ¬ kind.isTame = true :=
    fun kind mails tame => by simp [NotificationKind.linkless_of_tame tame] at mails
  obtain ⟨q, started, entitled⟩ := runs.entitled at_k did
  rcases entitled with tame | ⟨v, token, t, g, same, -⟩ | ⟨rfl, -⟩ | ⟨-, guardian⟩
  · exact absurd tame (untame _ mails)
  · cases same
  · exact started
  · exact absurd guardian (untame _ mails)

/-- Every token that is sent was put on file in the same round. -/
theorem minted (runs : Runs S t₀ tr) (queued : QueuedAt tr k i n) (mails : n.kind.mailsLinks = true) :
    Plain S n ∨ ∃ m token, LinkMail S tr m k i n token := by
  have tick := queued.tick runs mails
  obtain ⟨s, c, at_k, did⟩ := id queued
  obtain ⟨c', run⟩ := id runs
  obtain ⟨c'', before⟩ := run.take k
  obtain ⟨q, started, good⟩ := run.acted_at (S := server S) (linking_program S) at_k did
  refine (good (before.started_unique started tick) n rfl mails).imp_right ?_
  rintro ⟨token, sent, link, ⟨h₁, h₂, t, hits, whole, hit, stays⟩, first⟩
  obtain ⟨m, u, lt, at_m, label, past⟩ := history_split whole
  have one : hits = 1 := by
    rcases did_update (runs.explains_at at_m) label with ⟨one, -⟩ | ⟨none, -⟩
    · exact one
    · exact absurd none hit
  subst one
  refine ⟨m, token, lt, ⟨u, t, at_m, label⟩, queued, mails, link, sent, first, ?_⟩
  intro p s' e after until_k at_p acted
  obtain ⟨rest, since, mem⟩ := history_since at_m label lt
  rw [whole, ← past] at since
  obtain ⟨-, rfl⟩ := List.cons.inj (List.append_cancel_left since)
  exact stays e ((mem e).2 ⟨p, s', after, until_k, at_p, acted⟩)

/-- A link stays on file until a check-in or a panic. -/
theorem live_set {u : VaultUpdate} {r : VaultRow} (guard : u.guard r = true)
    (goes_on : u.closesLinks = false) (stored : r.life.checkinLinkTokenHash = some hash)
    (unused : r.life.checkinLinkTokenUsedAt = none) :
    (u.set r).life.checkinLinkTokenHash = some hash ∧
      (u.set r).life.checkinLinkTokenUsedAt = none := by
  cases u with
  | checkin | checkinFromLink | resetVaultClock | panicFreeze => cases goes_on
  | mintOneTapToken hash' t =>
    have free : r.life.checkinLinkTokenHash = none ∨ r.life.checkinLinkTokenUsedAt ≠ none :=
      of_decide_eq_true guard
    rw [stored, unused] at free
    rcases free with absent | used
    · cases absent
    · exact absurd rfl used
  | _ => exact ⟨stored, unused⟩

/-- Between two mints for a vault its link is closed. -/
theorem closed_between (runs : Runs S t₀ tr) (fresh : FreshIds tr) {i' m' : Nat} {hash' : Hash}
    (first : MintedAt tr m i v hash) (second : MintedAt tr m' i' v hash') (lt : m < m') :
    ∃ c, m < c ∧ c < m' ∧ ClosedAt tr c v := by
  by_contra open_
  obtain ⟨s, t, at_m, did⟩ := first
  obtain ⟨s', t', at_m', did'⟩ := second
  obtain ⟨-, r, row, -, after⟩ | ⟨none, -⟩ := did_update (runs.explains_at at_m) did
  swap
  · cases none
  obtain ⟨-, r', row', guard', -⟩ | ⟨none, -⟩ := did_update (runs.explains_at at_m') did'
  swap
  · cases none
  obtain ⟨c, run⟩ := id runs
  -- the token of the first mint is on file, unused, up to the second
  have live := run.since (P := fun w => ∀ r, w.vault? v = some r →
    r.life.checkinLinkTokenHash = some hash ∧ r.life.checkinLinkTokenUsedAt = none) at_m ?_ ?_ lt
      at_m' r' row'
  · have free : r'.life.checkinLinkTokenHash = none ∨ r'.life.checkinLinkTokenUsedAt ≠ none :=
      of_decide_eq_true guard'
    rw [live.1] at free
    rcases free with absent | used
    · cases absent
    · exact used live.2
  · intro r' row'
    rw [after] at row'
    cases row'
    exact ⟨rfl, rfl⟩
  · intro n u after' before at_n live r' row'
    cases rowChange (runs.explains_at at_n) v with
    | kept unchanged => exact live r' (unchanged ▸ row')
    | contacts r₁ c before' after'' =>
      rw [after''] at row'
      cases row'
      exact live r₁ before'
    | inserted i₁ r₁ n₁ did₁ id =>
      exact absurd id (runs.not_inserted_again fresh at_m row (Nat.le_of_lt after') at_n did₁)
    | deleted i₁ n₁ did₁ gone =>
      rw [gone] at row'
      cases row'
    | applied u₁ r₁ applies before' guard after'' =>
      rw [after''] at row'
      cases row'
      obtain ⟨stored, unused⟩ := live r₁ before'
      refine live_set guard ?_ stored unused
      cases closes : u₁.closesLinks with
      | false => rfl
      | true => exact absurd ⟨n, after', before, u, u₁, at_n, ⟨applies, r₁, before', guard⟩, closes⟩ open_

/-- One round of links to a cycle. -/
theorem once (runs : Runs S t₀ tr) (fresh : FreshIds tr) {i' k' m' : Nat} {n' : NotificationRow}
    {token' : Token} (first : LinkMail S tr m k i n token)
    (second : LinkMail S tr m' k' i' n' token') (same : n'.vaultId = n.vaultId)
    (channel : n'.channel = n.channel) (lt : k < k') :
    m < m' ∧ ∃ c, m < c ∧ c < m' ∧ ClosedAt tr c n.vaultId := by
  obtain ⟨s, c, at_k, did⟩ := id first.queued
  obtain ⟨s', c', at_k', did'⟩ := id second.queued
  obtain ⟨u, t, at_m, minted⟩ := id first.mint
  obtain ⟨u', t', at_m', minted'⟩ := id second.mint
  have order : m < m' := by
    by_cases one : i = i'
    · subst one
      rcases Nat.lt_trichotomy m m' with before | here | after
      · exact before
      · -- one mint, so the two messages are of one round, on different channels
        subst here
        obtain ⟨sent, other, stays⟩ := second.round
        have kept := stays k s _ first.before lt at_k did
        simp only [staysOn, first.kind, Bool.not_true, Bool.false_or, List.contains_iff_mem] at kept
        exact absurd (channel ▸ kept) other
      · obtain ⟨sent, -, stays⟩ := second.round
        have kept := stays m u _ after (first.before.trans lt) at_m minted
        cases kept
    · have tick := first.queued.tick runs first.kind
      have tick' := second.queued.tick runs second.kind
      -- the second thread is a tick already when it mints
      obtain ⟨c₀, run⟩ := id runs
      exact first.before.trans (runs.tick_order at_k did tick at_k' did' lt at_m' minted'
        (run.started_before at_m' minted' (Nat.le_of_lt second.before) tick') one)
  refine ⟨order, closed_between runs fresh first.mint (same ▸ second.mint) order⟩

theorem linksKept (runs : Runs S t₀ tr) (fresh : FreshIds tr) : LinksKept S tr where
  minted _ _ _ queued mails := minted runs queued mails
  once _ _ _ _ _ _ _ _ _ _ first second same channel lt :=
    once runs fresh first second same channel lt

end Runs

/-! ## §3 A link -/

section Linked

open Deployment

/-- Whether thread `i` queues a message with the token's link in this step. -/
def mails (S : Server) (i : Nat) (v : VaultId) (token : Token) (s : SrvStep) : Bool :=
  match s.label with
  | .acted j ⟨.exec (.insertNotification n), .ok _⟩ =>
    j = i && n.vaultId = v && n.link = some (S.checkinLinkUrl v token)
  | _ => false

/-- A reminder, the tap on its link, and the reminder of the next cycle. -/
def remindedTwice : List (Move Oracle Drift Request) :=
  linked ++ steps 1 9 (oracle "" [coin]) ++ [.start (.checkinFromLink "v" "t")] ++
    steps 2 7 (oracle "" []) ++ [.start .schedulerTick] ++ steps 3 15 (oracle "u" [coin])

theorem linksKept_remindedTwice : ∃ tr, Runs (host 86400) 0 tr ∧
    tr.any (mails (host 86400) 1 "v" "t") = true ∧ tr.any (mails (host 86400) 3 "v" "u") = true ∧
      LinksKept (host 86400) tr := by
  obtain ⟨tr, runs, check⟩ := runs_of_play (host 86400) remindedTwice
    (fun tr => tr.any (mails (host 86400) 1 "v" "t") && tr.any (mails (host 86400) 3 "v" "u") &&
      tr.zipIdx.all fun p => !inserts p.1 || p.2 = 5) (by decide +kernel)
  simp only [Bool.and_eq_true] at check
  exact ⟨tr, runs, check.1.1, check.1.2, linksKept runs (freshIds_of_inserts check.2)⟩

end Linked

end LinkRounds

end GhostKey

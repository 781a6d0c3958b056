import GhostKey.OneTap

/-!
# Escalations

While a vault is in alarm a tick writes to its owner once a day. The batch lists the vaults
whose last message is a day old; for each of them the message is queued first, and then one
UPDATE stamps it and counts it. A check-in or a panic clears both columns.

Layers:
1. one tick: a vault is marked once for each row of the batch, after its message,
   `Escalating`;
2. marks by their positions in a run, and the two columns as their ledger, `Counted`;
3. `escalationsKept`: the count is right, the marks are a day apart, and none is silent.
-/

namespace GhostKey

open Foundation Program Prog

namespace Escalation

/-! ## §1 One tick -/

/-- The vault that an event marks. -/
def mark? (e : Ev) : Option VaultId :=
  match e.action with
  | .exec (.updateVault v (.escalated _)) => some v
  | _ => none

/-- The vaults that are marked in a history, in order. -/
def marks (h : Hist) : List VaultId := h.filterMap mark?

/-- The batch of the escalations, by the time of the tick. -/
def batch (t : Instant) : Query := .escalationDue t (t - seconds alarmEscalationIntervalSecs)

/-- The owner of the row was told, or has no contact that a message reaches. -/
def Told (S : Server) (r : VaultRow) (h : Hist) : Prop :=
  deliverableOwner S r = .ok none ∨ ∃ n c,
    (⟨.exec (.insertNotification n), .ok c⟩ : Ev) ∈ h ∧ n.kind = .alarmEscalation ∧ n.vaultId = r.id

/-- A mark is for a row of the batch, one to each, and its owner has been told. -/
def Escalating (S : Server) (h : Hist) (e : Ev) : Prop :=
  ∀ v t, e.action = .exec (.updateVault v (.escalated t)) →
    ∃ (rows : List (VaultRow × Instant)) (d : VaultRow × Instant) (h₁ h₂ : Hist),
      h = h₁ ++ (⟨.query (batch t), .ok rows⟩ : Ev) :: h₂ ∧ d ∈ rows ∧ d.1.id = v ∧
        List.Sublist (marks h ++ [v]) (rows.map fun d => d.1.id) ∧ Told S d.1 h₂

/-- No mark of an escalation. -/
def isUnmarked : Action → Bool
  | .exec (.updateVault _ (.escalated _)) => false
  | _ => true

instance : Lenient isUnmarked := ⟨fun a tame => by
  cases a with
  | exec st =>
    cases st with
    | updateVault v u => cases u <;> first | rfl | cases tame
    | _ => rfl
  | _ => rfl⟩

section Rounds

variable {S : Server} {h g : Hist} {α β : Type} {r : VaultRow} {t : Instant}

@[simp] theorem marks_append (h g : Hist) : marks (h ++ g) = marks h ++ marks g :=
  List.filterMap_append

theorem marks_of_unmarked {more : Hist} (unmarked : ∀ e ∈ more, isUnmarked e.action = true) :
    marks more = [] := by
  refine List.filterMap_eq_nil_iff.2 fun e mem => ?_
  have here := unmarked e mem
  unfold mark?
  split
  · next v t same =>
    rw [same] at here
    cases here
  · rfl

theorem Escalating.of_unmarked {e : Ev} (unmarked : isUnmarked e.action = true) :
    Escalating S h e := by
  rintro v t same
  rw [same] at unmarked
  cases unmarked

/-- Programs without marks leave them as they are. -/
theorem unmarked_adds {p : Prog α} (tidy : Tidy S isUnmarked p) :
    Meets (fun _ e => isUnmarked e.action = true)
      (fun g _ => ∃ more, g = h ++ more ∧ ∀ e ∈ more, isUnmarked e.action = true) p h := by
  refine Meets.adds (Meets.mono (tidy.meets h) (fun g e good => ?_) fun _ _ _ => trivial)
  rcases good with unmarked | ⟨v, token, t, g', same, -⟩
  · exact unmarked
  · rw [same]
    rfl

/-- A message that is queued is the last of its history. -/
theorem meets_enqueue {id : VaultId} {kind : NotificationKind} {channel : Channel}
    {recipient : String} {link : Option String} :
    Meets (fun _ _ => True) (fun g r => r = .ok () → ∃ t c, g = h ++ [⟨.now, t⟩,
      ⟨.exec (.insertNotification ⟨id, kind, channel, recipient, link, t⟩), .ok c⟩])
      (enqueue S id kind channel recipient link) h := by
  unfold enqueue
  cases S.sealForVault id recipient with
  | error e => exact nofun
  | ok sealed =>
    refine fun now => ⟨trivial, fun res => ⟨trivial, ?_⟩⟩
    cases res with
    | error e => exact nofun
    | ok c => exact fun _ => ⟨now, c, by simp⟩

/-- A round that goes through has told the owner, and marked nothing. -/
theorem meets_enqueueAlarmEscalation :
    Meets (fun _ e => isUnmarked e.action = true)
      (fun g res => ∃ more, g = h ++ more ∧ marks more = [] ∧ (res = .ok () → Told S r more))
      (enqueueAlarmEscalation S r t) h := by
  -- two facts of the same round: whom it tells, and that it marks nothing
  have told : Meets (fun _ _ => True)
      (fun g res => res = .ok () → ∃ more, g = h ++ more ∧ Told S r more)
      (enqueueAlarmEscalation S r t) h := by
    unfold enqueueAlarmEscalation
    cases contact : deliverableOwner S r with
    | error e => exact nofun
    | ok found =>
      cases found with
      | none => exact fun _ => ⟨[], by simp, .inl contact⟩
      | some c =>
        simp only [crypto, bind_eq, done_bind]
        refine Meets.bind (Meets.grows _ h |>.mono (fun _ _ _ => trivial) fun _ _ e => e)
          (fun g token grown _ => ?_) fun _ _ _ _ => nofun
        refine Meets.mono meets_enqueue (fun _ _ e => e) ?_
        rintro g' res last through
        obtain ⟨more, rfl⟩ := grown
        obtain ⟨now, n, rfl⟩ := last through
        refine ⟨_, List.append_assoc _ _ _, .inr ⟨_, n, List.mem_append_right more
          (List.mem_cons_of_mem _ List.mem_cons_self), rfl, rfl⟩⟩
  have tidy : Tidy S isUnmarked (enqueueAlarmEscalation S r t) := by
    refine tidy_bind (tidy_crypto _) fun contact => ?_
    cases contact with
    | none => exact tidy_pure _
    | some c => exact tidy_bind (tidy_mintOrReuseOneTapToken _ _) fun _ => tidy_send fun _ _ => rfl
  refine Meets.mono (Meets.and (unmarked_adds tidy) told) (fun _ _ both => both.1) ?_
  rintro g res ⟨⟨more, rfl, unmarked⟩, through⟩
  refine ⟨more, rfl, marks_of_unmarked unmarked, fun ok => ?_⟩
  obtain ⟨more', same, told⟩ := through ok
  rwa [List.append_cancel_left same]

theorem Told.append_left (told : Told S r h) (before : Hist) : Told S r (before ++ h) :=
  told.imp_right fun ⟨n, c, mem, rest⟩ => ⟨n, c, List.mem_append_right before mem, rest⟩

/-- All marks of `p` are good ones. -/
abbrev Escalates (S : Server) (p : Prog α) (h : Hist) : Prop :=
  Meets (Escalating S) (fun _ _ => True) p h

theorem escalates_of_tidy {p : Prog α} (tidy : Tidy S isUnmarked p) : Escalates S p h :=
  Meets.mono (unmarked_adds tidy) (fun _ _ unmarked => .of_unmarked unmarked) fun _ _ _ => trivial

/-- The batch has been read, and of its rows those that are done are marked at most. -/
def AtWork (t : Instant) (h : Hist) (rows done : List (VaultRow × Instant)) (g : Hist) : Prop :=
  ∃ more, g = h ++ (⟨.query (batch t), .ok rows⟩ : Ev) :: more ∧
    List.Sublist (marks g) (done.map fun d => d.1.id)

/-- One round of the escalations. -/
theorem meets_escalateVault {rows done rest : List (VaultRow × Instant)} {d : VaultRow × Instant}
    (whole : rows = done ++ d :: rest) (now : AtWork t h rows done g) :
    Meets (Escalating S) (fun g res => res = .ok () → AtWork t h rows (done ++ [d]) g)
      (escalateVault S t d.1) g := by
  have grown : List.Sublist (done.map fun d => d.1.id) ((done ++ [d]).map fun d => d.1.id) := by
    simp
  -- the message comes before the marker and marks nothing
  have asked : Meets (Escalating S)
      (fun g' sent => ∀ res, sent = .ok res → ∃ more', g' = g ++ more' ∧ marks more' = [] ∧
        (res = .ok () → Told S d.1 more'))
      ((enqueueAlarmEscalation S d.1 t).attempt : Prog (Except ApiError Unit)) g :=
    Meets.attempt (Meets.mono meets_enqueueAlarmEscalation
      (fun _ _ unmarked => .of_unmarked unmarked) fun _ _ e => e) fun g' res here res' same => by
        cases same
        exact here
  obtain ⟨more, whole_g, sub⟩ := now
  refine Meets.bind asked (fun g' sent _ here => ?_) fun _ _ _ _ => nofun
  obtain ⟨more', rfl, calm, through⟩ := here sent rfl
  have kept : marks (g ++ more') = marks g := by simp [calm]
  -- a failed message leaves the marker alone
  cases sent with
  | error e =>
    exact fun _ => ⟨more ++ more', by simp [whole_g], kept ▸ sub.trans grown⟩
  | ok _ =>
    refine fun res => ⟨?_, ?_⟩
    · rintro v t' ⟨⟩
      refine ⟨rows, d, h, more ++ more', by simp [whole_g], ?_, rfl, ?_, ?_⟩
      · simp [whole]
      · rw [kept, whole, List.map_append, List.map_cons]
        exact List.Sublist.append sub (by simp)
      · exact (through rfl).append_left more
    · cases res with
      | error e => exact nofun
      | ok n =>
        refine fun _ => ⟨more ++ more' ++
          [⟨.exec (.updateVault d.1.id (.escalated t)), .ok n⟩], by simp [whole_g], ?_⟩
        rw [marks_append, kept, List.map_append]
        exact List.Sublist.append sub (List.Sublist.refl _)

theorem escalates_bind {p : Prog α} {f : α → Prog β} (first : Escalates S p h)
    (next : ∀ g a, Escalates S (f a) g) : Escalates S (p.bind f) h :=
  Meets.bind first (fun g a _ _ => next g a) fun _ _ _ _ => trivial

theorem escalates_sendAlarmEscalations (unmarked : marks h = []) :
    Escalates S (sendAlarmEscalations S t) h := by
  refine fun res => ⟨.of_unmarked rfl, ?_⟩
  cases res with
  | error e => trivial
  | ok rows =>
    refine Meets.forEachDone (L := AtWork t h rows) ⟨[], rfl, ?_⟩ ?_ fun _ _ => trivial
    · rw [marks_append, unmarked]
      exact List.nil_sublist _
    · intro done d rest g whole now
      exact Meets.mono (meets_escalateVault whole now) (fun _ _ e => e)
        fun g res here => ⟨here, fun _ _ => trivial⟩

/-- A part without marks, ahead of the escalations. -/
theorem escalates_after {p : Prog α} {f : α → Prog β} (tidy : Tidy S isUnmarked p)
    (unmarked : marks h = []) (next : ∀ g a, marks g = [] → Escalates S (f a) g) :
    Escalates S (p.bind f) h := by
  refine Meets.bind (Meets.mono (unmarked_adds tidy) (fun _ _ good => .of_unmarked good)
    fun _ _ e => e) ?_ fun _ _ _ _ => trivial
  rintro g a - ⟨more, rfl, good⟩
  exact next _ a (by rw [marks_append, unmarked, marks_of_unmarked good]; rfl)

/-- A tick takes its escalations in one step, and no mark comes before it. -/
theorem escalates_tickOnce : Escalates S (tickOnce S) [] := by
  have sends : ∀ kind, Sends isUnmarked kind := fun _ _ _ => rfl
  refine escalates_after tidy_now rfl fun g nowIso unmarked => escalates_bind ?_ fun _ _ =>
    escalates_of_tidy (tidy_bind tidy_probeLightning fun _ => tidy_bind tidy_now fun _ =>
      tidy_bind (tidy_perform rfl) fun _ => ?_)
  · refine escalates_after (tidy_unfreezeExpiredPanics nowIso) unmarked fun _ _ unmarked =>
      escalates_after tidy_activateFundedVaults unmarked fun _ _ unmarked =>
      escalates_after (tidy_bind (tidy_read _) fun rows => tidy_bind tidy_now fun t =>
        tidy_forEach (fun r => tidy_retireIfEmpty r .ok true t) rows) unmarked fun _ _ unmarked =>
      escalates_after (tidy_bind (tidy_read _) fun rows => tidy_bind tidy_now fun t =>
        tidy_forEach (fun r => tidy_retireIfEmpty r r.life.status false t) rows) unmarked
        fun _ _ unmarked =>
      escalates_after (tidy_bind (tidy_read _) fun due => tidy_forEach
        (fun r => tidy_logged (tidy_enqueuePreDeadlineReminder ⟨sends _, fun _ _ => rfl⟩ r nowIso))
        due) unmarked fun _ _ unmarked =>
      escalates_after (tidy_bind (tidy_read _) fun due =>
        tidy_forEach (fun d => tidy_alarmVault (sends _) nowIso d.1) due) unmarked fun _ _ unmarked =>
      escalates_sendAlarmEscalations unmarked
  · split
    · exact tidy_pure _
    · exact tidy_bind (tidy_transitionAlarmedToClaimable nowIso) fun _ =>
        tidy_sendClaimReadyNotices ⟨sends _, fun _ _ => rfl⟩

end Rounds

/-! ## §2 Marks and their ledger -/

/-- At `k` thread `i` marks the vault, at the tick's time `t`. -/
def EscalatedAt (tr : Trace) (k i : Nat) (v : VaultId) (t : Instant) : Prop :=
  ∃ s, tr[k]? = some s ∧ Did i (.exec (.updateVault v (.escalated t))) (.ok 1) s

/-- At `j` the batch of thread `i` lists the row. -/
def ListedAt (tr : Trace) (j i : Nat) (t : Instant) (d : VaultRow × Instant) : Prop :=
  ∃ (s : SrvStep) (rows : List (VaultRow × Instant)),
    tr[j]? = some s ∧ Did i (.query (batch t)) (.ok rows) s ∧ d ∈ rows

/-- Between `j` and `k` thread `i` queued an escalation to the owner of `v`. -/
def ToldAt (tr : Trace) (j k i : Nat) (v : VaultId) : Prop :=
  ∃ p s n c, j < p ∧ p < k ∧ tr[p]? = some s ∧ Did i (.exec (.insertNotification n)) (.ok c) s ∧
    n.kind = .alarmEscalation ∧ n.vaultId = v

/-- At `k` the vault is inserted, or a check-in or a panic of it accepted. -/
def RestartedAt (tr : Trace) (k : Nat) (v : VaultId) : Prop :=
  ClosedAt tr k v ∨ ∃ s i r n, tr[k]? = some s ∧ Did i (.exec (.insertVault r)) (.ok n) s ∧ r.id = v

/-- The two columns are the ledger of the marks since the last restart. -/
def Counted (tr : Trace) (v : VaultId) (k : Nat) (r : VaultRow) : Prop :=
  ∃ (j : Nat) (ledger : List (Nat × Instant)), j < k ∧ RestartedAt tr j v ∧
    (∀ n, j < n → n < k → ¬ RestartedAt tr n v) ∧
    ledger.Pairwise (fun a b => a.1 < b.1) ∧
    (∀ e, e ∈ ledger ↔ j < e.1 ∧ e.1 < k ∧ ∃ i, EscalatedAt tr e.1 i v e.2) ∧
    r.life.alarmReminderCount = ledger.length ∧
    r.life.lastAlarmReminderSentAt = ledger.getLast?.map Prod.snd

/-- What the escalations keep. -/
structure EscalationsKept (S : Server) (tr : Trace) : Prop where
  /-- The count is that of the marks since the last check-in or panic. -/
  counted : ∀ k s v r, tr[k]? = some s → s.before.vault? v = some r → Counted tr v k r
  /-- Two marks without a check-in or a panic in between are a day apart. -/
  spaced : ∀ m k i i' v t t', EscalatedAt tr m i v t → EscalatedAt tr k i' v t' → m < k →
    (∀ n, m < n → n < k → ¬ ClosedAt tr n v) → t + seconds alarmEscalationIntervalSecs ≤ t'
  /-- A mark is for a row of its tick's batch, in alarm and ahead of its claim date, whose owner
  was told since, or has no contact that a message reaches. -/
  told : ∀ k i v t, EscalatedAt tr k i v t → ∃ j d, j < k ∧ ListedAt tr j i t d ∧ d.1.id = v ∧
    d.1.life.status = .alarmed ∧ t < d.2 ∧
      (deliverableOwner S d.1 = .ok none ∨ ToldAt tr j k i v)

section Runs

variable {S : Server} {t₀ : Instant} {tr : Trace} {s : SrvStep} {i k m : Nat} {v : VaultId}
variable {t : Instant}

theorem escalating_program (S : Server) (q : Request) :
    Meets (fun h e => q = .schedulerTick → Escalating S h e) (fun _ _ => True) (q.program S) [] := by
  by_cases tick : q = .schedulerTick
  · subst tick
    have whole : Escalates S (Request.schedulerTick.program S) [] :=
      escalates_bind escalates_tickOnce fun _ _ => trivial
    exact Meets.mono whole (fun _ _ good _ => good) fun _ _ _ => trivial
  · exact Meets.mono (Meets.grows _ _) (fun _ _ _ same => absurd same tick) fun _ _ _ => trivial

/-- Marks are for ticks only. -/
theorem EscalatedAt.tick (runs : Runs S t₀ tr) (mark : EscalatedAt tr k i v t) :
    Started i .schedulerTick (tr.take k) := by
  obtain ⟨s, at_k, did⟩ := mark
  obtain ⟨q, started, entitled⟩ := runs.entitled at_k did
  rcases entitled with tame | ⟨w, token, t, g, same, -⟩ | ⟨rfl, -⟩ | ⟨-, guardian⟩
  · cases tame
  · cases same
  · exact started
  · cases guardian

theorem EscalatedAt.escalating (runs : Runs S t₀ tr) (mark : EscalatedAt tr k i v t) :
    ∃ (rows : List (VaultRow × Instant)) (d : VaultRow × Instant) (h₁ h₂ : Hist),
      history i k tr = h₁ ++ (⟨.query (batch t), .ok rows⟩ : Ev) :: h₂ ∧ d ∈ rows ∧ d.1.id = v ∧
        List.Sublist (marks (history i k tr) ++ [v]) (rows.map fun d => d.1.id) ∧ Told S d.1 h₂ := by
  have tick := mark.tick runs
  obtain ⟨s, at_k, did⟩ := mark
  obtain ⟨c, run⟩ := id runs
  obtain ⟨c', before⟩ := run.take k
  obtain ⟨q, started, good⟩ := run.acted_at (S := server S) (escalating_program S) at_k did
  exact good (before.started_unique started tick) v t rfl

theorem EscalatedAt.commits (runs : Runs S t₀ tr) (mark : EscalatedAt tr k i v t) :
    ∃ s, tr[k]? = some s ∧ Commits s v (.escalated t) := by
  obtain ⟨s, at_k, did⟩ := mark
  rcases did_update (runs.explains_at at_k) did with ⟨-, r, row, guard, -⟩ | ⟨none, -⟩
  · exact ⟨s, at_k, .exec did, r, row, guard⟩
  · cases none

theorem escalatedAt_of_applies (runs : Runs S t₀ tr) (at_k : tr[k]? = some s) {r : VaultRow}
    (applies : Applies s v (.escalated t)) (row : s.before.vault? v = some r)
    (guard : (VaultUpdate.escalated t).guard r = true) : ∃ i, EscalatedAt tr k i v t := by
  cases applies with
  | @exec i _ n did =>
    obtain ⟨rfl, -⟩ := did_update_hit (runs.explains_at at_k) did row guard
    exact ⟨i, s, at_k, did⟩

/-- Nothing restarts the columns of a row but an UPDATE that says so. -/
theorem not_restarted (runs : Runs S t₀ tr) (at_k : tr[k]? = some s) {r : VaultRow}
    (row : s.before.vault? v = some r)
    (none : ∀ u, Commits s v u → u.closesLinks = false) : ¬ RestartedAt tr k v := by
  rintro (⟨s', u, at_k', commits, closes⟩ | ⟨s', i, r', n, at_k', did, rfl⟩)
  · rw [at_k] at at_k'
    cases at_k'
    rw [none u commits] at closes
    cases closes
  · rw [at_k] at at_k'
    cases at_k'
    rw [(did_insertVault (runs.explains_at at_k) did).1] at row
    cases row

theorem unmarked_of_silent (runs : Runs S t₀ tr) (at_k : tr[k]? = some s)
    (silent : ∀ u, ¬ Commits s v u) : ¬ EscalatedAt tr k i v t := by
  intro mark
  obtain ⟨s', at_k', commits⟩ := mark.commits runs
  rw [at_k] at at_k'
  cases at_k'
  exact silent _ commits

/-- A step that neither restarts the columns nor marks the vault leaves the ledger. -/
theorem Counted.kept {r r' : VaultRow} (counted : Counted tr v k r)
    (goes_on : ¬ RestartedAt tr k v) (unmarked : ∀ i t, ¬ EscalatedAt tr k i v t)
    (count : r'.life.alarmReminderCount = r.life.alarmReminderCount)
    (last : r'.life.lastAlarmReminderSentAt = r.life.lastAlarmReminderSentAt) :
    Counted tr v (k + 1) r' := by
  obtain ⟨j, ledger, lt, started, since, sorted, mem, size, latest⟩ := counted
  refine ⟨j, ledger, Nat.lt_succ_of_lt lt, started, ?_, sorted, ?_, count.trans size,
    last.trans latest⟩
  · intro n after before
    rcases Nat.lt_or_eq_of_le (Nat.le_of_lt_succ before) with earlier | rfl
    · exact since n after earlier
    · exact goes_on
  · intro e
    rw [mem e]
    constructor
    · rintro ⟨after, before, mark⟩
      exact ⟨after, Nat.lt_succ_of_lt before, mark⟩
    · rintro ⟨after, before, i, mark⟩
      rcases Nat.lt_or_eq_of_le (Nat.le_of_lt_succ before) with earlier | same
      · exact ⟨after, earlier, i, mark⟩
      · exact absurd (same ▸ mark) (unmarked i e.2)

/-- A mark is the next entry of the ledger. -/
theorem Counted.mark {r : VaultRow} (counted : Counted tr v k r) (goes_on : ¬ RestartedAt tr k v)
    (mark : EscalatedAt tr k i v t) : Counted tr v (k + 1) ((VaultUpdate.escalated t).set r) := by
  obtain ⟨j, ledger, lt, started, since, sorted, mem, size, latest⟩ := counted
  refine ⟨j, ledger ++ [(k, t)], Nat.lt_succ_of_lt lt, started, ?_, ?_, ?_, ?_, ?_⟩
  · intro n after before
    rcases Nat.lt_or_eq_of_le (Nat.le_of_lt_succ before) with earlier | rfl
    · exact since n after earlier
    · exact goes_on
  · refine List.pairwise_append.2 ⟨sorted, List.pairwise_singleton _ _, ?_⟩
    intro a listed b last
    rw [List.mem_singleton.1 last]
    exact ((mem a).1 listed).2.1
  · rintro ⟨n, t'⟩
    rw [List.mem_append, mem, List.mem_singleton]
    constructor
    · rintro (⟨after, before, old⟩ | same)
      · exact ⟨after, Nat.lt_succ_of_lt before, old⟩
      · cases same
        exact ⟨lt, Nat.lt_succ_self k, i, mark⟩
    · rintro ⟨after, before, i', other⟩
      rcases Nat.lt_or_eq_of_le (Nat.le_of_lt_succ before) with earlier | same
      · exact .inl ⟨after, earlier, i', other⟩
      · obtain rfl : n = k := same
        -- one step marks at one time
        obtain ⟨s, at_k, did⟩ := mark
        obtain ⟨s', at_k', did'⟩ := other
        rw [at_k] at at_k'
        cases at_k'
        cases did.symm.trans did'
        exact .inr rfl
  · rw [List.length_append, ← size]
    rfl
  · rw [List.getLast?_append]
    rfl

/-- The columns are the ledger, all along. -/
theorem counted (runs : Runs S t₀ tr) (at_k : tr[k]? = some s) {r : VaultRow}
    (row : s.before.vault? v = some r) : Counted tr v k r := by
  refine (runs.row_invariant (v := v) (P := Counted tr v) ⟨?_, ?_, ?_, ?_⟩ at_k).1 r row
  -- the row is untouched, so is the ledger
  · intro k s r at_k silent row _ ih
    refine ih.kept (not_restarted runs at_k row fun u commits => absurd commits (silent u)) ?_ rfl rfl
    exact fun i t mark => unmarked_of_silent runs at_k silent mark
  · intro k s r c at_k silent row _ ih
    refine ih.kept (not_restarted runs at_k row fun u commits => absurd commits (silent u)) ?_ rfl rfl
    exact fun i t mark => unmarked_of_silent runs at_k silent mark
  -- an inserted row starts with an empty ledger
  · intro k s i r n at_k did id
    obtain ⟨q, -, t, token, -, life, -⟩ := runs.justified at_k did
    refine ⟨k, [], Nat.lt_succ_self k, .inr ⟨s, i, r, n, at_k, did, id⟩, ?_, .nil, ?_, ?_, ?_⟩
    · intro n after before
      omega
    · rintro ⟨n, t'⟩
      simp only [List.not_mem_nil, false_iff]
      omega
    · rw [life]
      rfl
    · rw [life]
      rfl
  -- an update restarts the ledger, enters a mark, or leaves it alone
  · intro k s u r at_k applies row guard ih
    have commits : Commits s v u := ⟨applies, r, row, guard⟩
    cases closes : u.closesLinks with
    | true =>
      refine ⟨k, [], Nat.lt_succ_self k, .inl ⟨s, u, at_k, commits, closes⟩, ?_, .nil, ?_, ?_⟩
      · intro n after before
        omega
      · rintro ⟨n, t'⟩
        simp only [List.not_mem_nil, false_iff]
        omega
      · cases u with
        | checkin | checkinFromLink | resetVaultClock | panicFreeze => exact ⟨rfl, rfl⟩
        | _ => cases closes
    | false =>
      have goes_on : ¬ RestartedAt tr k v := not_restarted runs at_k row fun u' commits' => by
        rw [commits'.1.unique applies]
        exact closes
      -- of the others only `escalated` writes the columns
      by_cases marks : ∃ t, u = .escalated t
      · obtain ⟨t, rfl⟩ := marks
        obtain ⟨i, mark⟩ := escalatedAt_of_applies runs at_k applies row guard
        exact ih.mark goes_on mark
      · have unmarked : ∀ i t, ¬ EscalatedAt tr k i v t := by
          intro i t mark
          obtain ⟨s', at_k', commits'⟩ := mark.commits runs
          rw [at_k] at at_k'
          cases at_k'
          exact marks ⟨t, applies.unique commits'.1⟩
        refine ih.kept goes_on unmarked ?_ ?_
        · cases u with
          | checkin | checkinFromLink | resetVaultClock | panicFreeze => cases closes
          | escalated t => exact absurd ⟨t, rfl⟩ marks
          | _ => rfl
        · cases u with
          | checkin | checkinFromLink | resetVaultClock | panicFreeze => cases closes
          | escalated t => exact absurd ⟨t, rfl⟩ marks
          | _ => rfl

/-- What the batch lists. -/
structure Due (r : VaultRow) (eligible t : Instant) : Prop where
  status : r.life.status = .alarmed
  ahead : t < eligible
  last : r.life.lastAlarmReminderSentAt = none ∨
    ∃ l, r.life.lastAlarmReminderSentAt = some l ∧ l + seconds alarmEscalationIntervalSecs ≤ t

/-- The batch lists rows on file that are due, no vault twice. -/
theorem batch_rows (runs : Runs S t₀ tr) (at_k : tr[k]? = some s)
    {rows : List (VaultRow × Instant)} (did : Did i (.query (batch t)) (.ok rows) s) :
    (rows.map fun d => d.1.id).Nodup ∧
      ∀ d ∈ rows, s.before.vault? d.1.id = some d.1 ∧ Due d.1 d.2 t := by
  have found := (did_query (runs.explains_at at_k) did).1
  refine ⟨?_, fun d mem => ?_⟩
  · have ids : rows.map (fun d => d.1.id) = (rows.map Prod.fst).map VaultRow.id := by simp
    rw [ids, Db.map_decodeColumn found]
    exact KeyedTable.nodup_select _ _
  · obtain ⟨row, eligible⟩ := Db.mem_decodeColumn found mem
    obtain ⟨here, where_⟩ := KeyedTable.mem_select.1 row
    simp only [Bool.decide_and, Bool.decide_or, Bool.and_eq_true, Bool.or_eq_true,
      decide_eq_true_eq] at where_
    obtain ⟨status, ahead, -, last⟩ := where_
    refine ⟨here, status, ?_, ?_⟩
    · rw [eligible] at ahead
      simpa using ahead
    · refine last.imp_right fun old => ?_
      obtain ⟨l, stamped, le⟩ := (Option.any_eq_true _ _).1 old
      exact ⟨l, stamped, Int.add_le_of_le_sub_right (of_decide_eq_true le)⟩

/-- A mark follows its batch, which no mark of the vault of the same tick does. -/
theorem EscalatedAt.listed (runs : Runs S t₀ tr) (mark : EscalatedAt tr k i v t) :
    ∃ j d s, j < k ∧ ListedAt tr j i t d ∧ tr[j]? = some s ∧ s.before.vault? v = some d.1 ∧
      d.1.id = v ∧ Due d.1 d.2 t ∧ (∀ m t', m < k → ¬ EscalatedAt tr m i v t') ∧
        (deliverableOwner S d.1 = .ok none ∨ ToldAt tr j k i v) := by
  obtain ⟨rows, d, h₁, h₂, whole, mem, rfl, sub, told⟩ := mark.escalating runs
  obtain ⟨j, s, lt, at_j, label, past⟩ := history_split whole
  obtain ⟨distinct, due⟩ := batch_rows runs at_j label
  refine ⟨j, d, s, lt, ⟨s, rows, at_j, label, mem⟩, at_j, (due d mem).1, rfl, (due d mem).2, ?_, ?_⟩
  · rintro m t' before ⟨s', at_m, did⟩
    have marked : d.1.id ∈ marks (history i k tr) :=
      List.mem_filterMap.2 ⟨_, mem_history.2 ⟨m, s', before, at_m, did⟩, rfl⟩
    have twice := distinct.sublist sub
    rw [List.nodup_append] at twice
    exact twice.2.2 _ marked _ (List.mem_singleton_self _) rfl
  · refine told.imp_right ?_
    rintro ⟨n, c, queued, kind, id⟩
    obtain ⟨rest, since, mem'⟩ := history_since at_j label lt
    rw [whole, ← past] at since
    obtain ⟨-, rfl⟩ := List.cons.inj (List.append_cancel_left since)
    obtain ⟨p, u, after, before, at_p, did⟩ := (mem' _).1 queued
    exact ⟨p, u, n, c, after, before, at_p, did, kind, id⟩

/-- Marks are a day apart. -/
theorem spaced (runs : Runs S t₀ tr) (fresh : FreshIds tr) {i' : Nat} {t' : Instant}
    (first : EscalatedAt tr m i v t) (second : EscalatedAt tr k i' v t') (lt : m < k)
    (goes_on : ∀ n, m < n → n < k → ¬ ClosedAt tr n v) :
    t + seconds alarmEscalationIntervalSecs ≤ t' := by
  induction k using Nat.strong_induction_on generalizing i' t' with
  | _ k ih =>
    obtain ⟨j, d, s, before, ⟨s', rows, at_j', label, -⟩, at_j, row, -, due, alone, -⟩ :=
      second.listed runs
    -- the batch of the later mark was read after the first
    have after : m < j := by
      by_cases one : i = i'
      · subst one
        exact absurd first (alone m t lt)
      · obtain ⟨u, at_m, did⟩ := id first
        obtain ⟨u', at_k, did'⟩ := id second
        obtain ⟨c, run⟩ := id runs
        exact runs.tick_order at_m did (first.tick runs) at_k did' lt at_j' label
          (run.started_before at_j' label (Nat.le_of_lt before) (second.tick runs)) one
    obtain ⟨j₀, ledger, lt₀, started, since, sorted, mem, -, latest⟩ := counted runs at_j row
    -- so the first mark is in the ledger of the row that the batch has read
    have inside : (m, t) ∈ ledger := by
      refine (mem (m, t)).2 ⟨?_, after, i, first⟩
      obtain ⟨u, at_m, commits⟩ := first.commits runs
      obtain ⟨-, r, row₀, -⟩ := id commits
      by_contra late
      rcases started with closed | ⟨u', i₀, r', n, at_j₀, did, same⟩
      · rcases Nat.eq_or_lt_of_le (Nat.not_lt.1 late) with rfl | later
        · obtain ⟨u', w, at_m', commits', closes⟩ := closed
          rw [at_m] at at_m'
          cases at_m'
          rw [commits'.1.unique commits.1] at closes
          cases closes
        · exact goes_on j₀ later (lt₀.trans before) closed
      · exact runs.not_inserted_again fresh at_m row₀ (Nat.not_lt.1 late) at_j₀ did same
    obtain ⟨earlier, ⟨p, t₂⟩, rfl⟩ := List.eq_nil_or_concat' ledger |>.resolve_left
      (List.ne_nil_of_mem inside)
    have stamped : t₂ + seconds alarmEscalationIntervalSecs ≤ t' := by
      rw [List.getLast?_concat] at latest
      rcases due.last with out | ⟨l, old, le⟩
      · rw [out] at latest
        cases latest
      · rw [old] at latest
        cases latest
        exact le
    obtain ⟨-, p_lt, i₂, mark⟩ := (mem (p, t₂)).1 (List.mem_append_right _ List.mem_cons_self)
    rcases List.mem_append.1 inside with old | same
    · -- the last mark in the ledger is a later one, a day after the first
      have later : m < p := (List.pairwise_append.1 sorted).2.2 _ old _ List.mem_cons_self
      have gap := ih p (p_lt.trans before) mark later fun n after' before' =>
        goes_on n after' (before'.trans (p_lt.trans before))
      have day : (0 : Int) ≤ seconds alarmEscalationIntervalSecs := by decide
      exact gap.trans ((Int.le_add_of_nonneg_right day).trans stamped)
    · cases List.mem_singleton.1 same
      exact stamped

/-- What the escalations keep, in every run. -/
theorem escalationsKept (runs : Runs S t₀ tr) (fresh : FreshIds tr) : EscalationsKept S tr where
  counted _ _ _ _ at_k row := counted runs at_k row
  spaced _ _ _ _ _ _ _ first second lt goes_on := spaced runs fresh first second lt goes_on
  told _ _ _ _ mark := by
    obtain ⟨j, d, s, lt, listed, -, -, id, due, -, told⟩ := mark.listed runs
    exact ⟨j, d, lt, listed, id, due.status, due.ahead, told⟩

end Runs

/-! ## §3 Two escalations -/

section Escalated

open Deployment

/-- A vault with a grace period of more than two days, and an owner to tell. -/
def patient : CreateVaultFromXpubRequest :=
  { doorA with
    ownerContact := some "+15550100"
    ownerContactChannel := some "sms"
    gracePeriodSecs := 200000 }

/-- The alarm, the first escalation with it, and the second a day later. -/
def escalatedTwice : List (Move Oracle Drift Request) :=
  [.start (.createVaultFromXpub patient)] ++ steps 0 9 (oracle "v" []) ++
    [.start .schedulerTick] ++ steps 1 26 (oracle "t" [coin]) ++ wait 203600 ++
    [.start .schedulerTick] ++ steps 2 35 (oracle "t" [coin]) ++ wait 86400 ++
    [.start .schedulerTick] ++ steps 3 20 (oracle "t" [coin])

theorem escalationsKept_escalatedTwice : ∃ tr, Runs (host 86400) 0 tr ∧
    tr.any (updated 2 "v" (.escalated 203600000000000)) = true ∧
      tr.any (updated 3 "v" (.escalated 290000000000000)) = true ∧
        EscalationsKept (host 86400) tr := by
  obtain ⟨tr, runs, check⟩ := runs_of_play (host 86400) escalatedTwice
    (fun tr => tr.any (updated 2 "v" (.escalated 203600000000000)) &&
      tr.any (updated 3 "v" (.escalated 290000000000000)) &&
        tr.zipIdx.all fun p => !inserts p.1 || p.2 = 5) (by decide +kernel)
  simp only [Bool.and_eq_true] at check
  exact ⟨tr, runs, check.1.1, check.1.2, escalationsKept runs (freshIds_of_inserts check.2)⟩

end Escalated

end Escalation

end GhostKey

import GhostKey.Delivery

/-!
# The Verdict on a Message

Whatever the order of a message's callbacks, the verdict recorded at the end is the
strongest one, and a negative one is told in the owner's feed once. The handler enters a
callback's id before it acts, compares ranks against a row read earlier and writes without
a guard, so this is so of runs in which nothing comes between: `verdict_of_smooth`.

Layers:
1. ranks;
2. what callbacks came, were entered and were told, and the steps that do no harm;
3. the recorded rank only rises: `Moves.rank_lt`;
4. every callback that was entered is accounted for: `accounted`;
5. the verdict, and a run in which a bounce is lost.
-/

namespace GhostKey

namespace Delivery

open Foundation

/-! ## §1 Ranks -/

theorem deliveryRank_pos (status : String) : 0 < deliveryRank status := by
  unfold deliveryRank
  repeat' split
  all_goals simp

theorem deliveryRank_le (status : String) : deliveryRank status ≤ 5 := by
  unfold deliveryRank
  repeat' split
  all_goals simp

/-- The negative verdicts are the strongest ones, all alike. -/
theorem deliveryRank_eq_five_iff (status : String) :
    deliveryRank status = 5 ↔ isNegativeVerdict status = true := by
  constructor
  · unfold deliveryRank
    repeat' split
    all_goals simp_all
  · intro negative
    simp only [isNegativeVerdict, decide_eq_true_eq, List.mem_cons, List.not_mem_nil, or_false]
      at negative
    rcases negative with rfl | rfl | rfl | rfl | rfl <;> decide

/-! ## §2 Callbacks of one message -/

section Message

variable {S : Server} {clock : Instant} {tr : PostTrace} {s t : PostStep} {i j k : Nat}
variable {c : Config PostAction PostAction.Response ApiError (Option Recorded) Post PostRequest}
variable {p : String} {ev ev' : DeliveryEvent} {m m' : Mail}

/-- A callback about the message `p` has come. -/
def Came (tr : PostTrace) (p : String) (ev : DeliveryEvent) : Prop :=
  ev.providerMessageId = p ∧ ∃ i, Started i (.callback ev) tr

/-- Providers repeat a callback verbatim, and give other callbacks other ids. -/
def Verbatim (tr : PostTrace) : Prop :=
  ∀ p p' ev ev', Came tr p ev → Came tr p' ev' → ev.key = ev'.key → ev = ev'

/-- At position `k` the owner's feed is told that `p` was not delivered. -/
def Tells (tr : PostTrace) (p : String) (k : Nat) : Prop :=
  ∃ s i ev e n, tr[k]? = some s ∧ Started i (.callback ev) (tr.take k) ∧
    ev.providerMessageId = p ∧ e.isUndelivered ∧
    s.label = .acted i ⟨.exec (.insertEvent e), .ok n⟩

/-- Every callback about `p` has been handled, and repeated until it was accepted. -/
structure Quiet (tr : PostTrace) (p : String) : Prop where
  ended : ∀ i ev, Started i (.callback ev) tr → ev.providerMessageId = p → Ended i tr
  accepted : ∀ ev, Came tr p ev → ∃ i s x, Started i (.callback ev) tr ∧ s ∈ tr ∧
    s.label = .returned i (.ok x)

/-- No callback about `p` is stronger than `ev`, nor as strong and entered earlier. -/
structure Strongest (tr : PostTrace) (p : String) (ev : DeliveryEvent) : Prop where
  came : Came tr p ev
  strongest : ∀ ev', Came tr p ev' → deliveryRank ev'.status ≤ deliveryRank ev.status
  first : ∀ ev' k k', Came tr p ev' → deliveryRank ev'.status = deliveryRank ev.status →
    EnteredAt tr k ev.key → EnteredAt tr k' ev'.key → k ≤ k'

/-- What the records say of `p` in the end. -/
structure VerdictHolds (tr : PostTrace) (p : String) (w : Post) : Prop where
  verdict : (w.verdict p = none ∧ ∀ ev, ¬ Came tr p ev) ∨
    ∃ ev, Strongest tr p ev ∧ w.verdict p = some ev.status
  told : ∀ ev, Came tr p ev → isNegativeVerdict ev.status = true → ∃ k, Tells tr p k

/-- The steps of a run that do the callbacks about `p` no harm. -/
structure Smooth (tr : PostTrace) (p : String) : Prop where
  /-- no callback is entered by a handler that has found no message -/
  known : ∀ i k ev, Started i (.callback ev) tr → ev.providerMessageId = p →
    Entered (history i k tr) ev → ¬ Found (history i k tr) ev none
  /-- the verdict, and what the owner is told of it, do not fail -/
  written : ∀ s ∈ tr, ∀ i ev id status detail t e, Started i (.callback ev) tr →
    ev.providerMessageId = p →
      s.label ≠ .acted i ⟨.exec (.updateVerdict id status detail t), .error e⟩
  told : ∀ s ∈ tr, ∀ i ev entry e, Started i (.callback ev) tr → ev.providerMessageId = p →
    entry.isUndelivered → s.label ≠ .acted i ⟨.exec (.insertEvent entry), .error e⟩
  /-- the process does not halt between a callback's entry and the end of its handler -/
  unbroken : ∀ k s i ev, tr[k]? = some s → s.label = .halted →
    Started i (.callback ev) (tr.take k) → ev.providerMessageId = p →
      Entered (history i k tr) ev → Ended i (tr.take k)
  /-- a verdict is written over a weaker one -/
  forward : ∀ k s i ev m, tr[k]? = some s → Moves tr k i ev m → ev.providerMessageId = p →
    previousRank (s.before.verdict p) < deliveryRank ev.status

/-! ## §3 The recorded rank -/

theorem rank_le_after (run : PostRun S clock tr c) (smooth : Smooth tr p)
    (at_k : tr[k]? = some s) :
    previousRank (s.before.verdict p) ≤ previousRank (s.after.verdict p) := by
  rcases verdict_after run at_k p with same | ⟨i, ev, m, moves, mine⟩
  · rw [same]
  · have wrote := moves.verdict run at_k
    rw [mine] at wrote
    rw [wrote]
    exact Nat.le_of_lt (smooth.forward k s i ev m at_k moves mine)

/-- Of two verdicts written the later one is the stronger. -/
theorem Moves.rank_lt {i' : Nat} (first : Moves tr j i ev m) (second : Moves tr k i' ev' m')
    (run : PostRun S clock tr c) (smooth : Smooth tr p) (mine : ev.providerMessageId = p)
    (mine' : ev'.providerMessageId = p) (lt : j < k) :
    deliveryRank ev.status < deliveryRank ev'.status := by
  obtain ⟨s, -, -, at_j, -⟩ := first.writes
  obtain ⟨s', -, -, at_k, -⟩ := second.writes
  have wrote := first.verdict run at_j
  rw [mine] at wrote
  have since := run.since (P := fun w => deliveryRank ev.status ≤ previousRank (w.verdict p)) at_j
    (by rw [wrote]; exact Nat.le_refl _)
    (fun n u _ _ at_n before => Nat.le_trans before (rank_le_after run smooth at_n)) lt at_k
  exact Nat.lt_of_le_of_lt since (smooth.forward k s' i' ev' m' at_k second mine')

theorem Moves.rank_le_end (moves : Moves tr k i ev m) (run : PostRun S clock tr c)
    (smooth : Smooth tr p) (mine : ev.providerMessageId = p) :
    deliveryRank ev.status ≤ previousRank (c.world.verdict p) := by
  obtain ⟨s, -, -, at_k, -⟩ := moves.writes
  have wrote := moves.verdict run at_k
  rw [mine] at wrote
  exact run.since_end (P := fun w => deliveryRank ev.status ≤ previousRank (w.verdict p)) at_k
    (by rw [wrote]; exact Nat.le_refl _)
    fun n u _ at_n before => Nat.le_trans before (rank_le_after run smooth at_n)

/-- One handler writes at a position. -/
theorem Moves.same {i' : Nat} (one : Moves tr k i ev m) (other : Moves tr k i' ev' m')
    (run : PostRun S clock tr c) : i = i' ∧ ev = ev' := by
  obtain ⟨s, t, n, at_k, label⟩ := one.writes
  obtain ⟨s', t', n', at_k', label'⟩ := other.writes
  rw [at_k] at at_k'
  cases at_k'
  rw [label] at label'
  have same : i = i' := (Label.acted.inj label').1
  subst same
  have same := run.started_unique one.started.of_take other.started.of_take
  cases same
  exact ⟨rfl, rfl⟩

/-- A handler that writes a verdict has entered its callback. -/
theorem Moves.entered (moves : Moves tr k i ev m) (run : PostRun S clock tr c) :
    ∃ j s r n, j < k ∧ tr[j]? = some s ∧ s.label = .acted i ⟨.exec (.claimEvent r), .ok n⟩ ∧
      n ≠ 0 ∧ r.key = ev.key := by
  obtain ⟨s, t, n, at_k, label⟩ := moves.writes
  obtain ⟨q, began, conduct⟩ := conduct_at run at_k label
  have same := run.started_unique moves.started.of_take began.of_take
  subst same
  obtain ⟨-, -, -, ⟨nid, t', n', mem, new⟩, -⟩ := conduct
  obtain ⟨j, u, lt, at_j, claimed⟩ := mem_history.1 mem
  exact ⟨j, u, _, n', lt, at_j, claimed, new, rfl⟩

/-- The handler of a callback about `p` has written the status before position `n`. -/
def Wrote (tr : PostTrace) (p : String) (n : Nat) (status : String) : Prop :=
  ∃ j i ev m, j < n ∧ Moves tr j i ev m ∧ ev.providerMessageId = p ∧ ev.status = status

/-- What is recorded was written by a callback's handler. -/
theorem wrote_of_verdict (run : PostRun S clock tr c) (p : String) :
    (∀ k s, tr[k]? = some s → ∀ status, s.before.verdict p = some status → Wrote tr p k status) ∧
      ∀ status, c.world.verdict p = some status → Wrote tr p tr.length status := by
  have all := run.invariant_at (P := fun n w => ∀ status, w.verdict p = some status →
    Wrote tr p n status) (fun status held => by cases held) fun k s at_k _ before status held => ?_
  · exact ⟨fun k s at_k => (all.1 k s at_k).1, all.2⟩
  · rcases verdict_after run at_k p with same | ⟨i, ev, m, moves, mine⟩
    · obtain ⟨j, i, ev, m, lt, rest⟩ := before status (same ▸ held)
      exact ⟨j, i, ev, m, Nat.lt_succ_of_lt lt, rest⟩
    · have wrote := moves.verdict run at_k
      rw [mine, held, Option.some.injEq] at wrote
      exact ⟨k, i, ev, m, Nat.lt_succ_self k, moves, mine, wrote.symm⟩

/-! ## §4 What became of a callback -/

/-- A thread that has entered its callback's id returns, unless a halt breaks it off. -/
theorem returns_of_unbroken (run : PostRun S clock tr c) (smooth : Smooth tr p)
    (mine : ev.providerMessageId = p) (at_k : tr[k]? = some s) {e : PostEv}
    (label : s.label = .acted i e) (entered : Entered (history i (k + 1) tr) ev)
    (began : Started i (.callback ev) (tr.take k)) :
    ∀ n, Ended i (tr.take n) → ∃ j t r, k < j ∧ tr[j]? = some t ∧ t.label = .returned i r := by
  intro n
  induction n using Nat.strong_induction_on with
  | _ n ih =>
    intro ended
    obtain ⟨j, t, after, before, at_j, ⟨r, returned⟩ | halted⟩ := run.ended_since at_k label ended
    · exact ⟨j, t, r, after, at_j, returned⟩
    · -- before a halt it has ended already
      refine ih j before (smooth.unbroken j t i ev at_j halted ?_ mine ?_)
      · exact began.later (Nat.le_of_lt after)
      · obtain ⟨nid, u, m, mem, new⟩ := entered
        exact ⟨nid, u, m, history_subset after mem, new⟩

/-- A handler that has entered its callback's id has closed it by the end. -/
theorem closed_of_quiet (run : PostRun S clock tr c) (smooth : Smooth tr p) (quiet : Quiet tr p)
    (started : Started i (.callback ev) tr) (mine : ev.providerMessageId = p)
    (at_k : tr[k]? = some s) {r : Receipt} {n : Nat}
    (label : s.label = .acted i ⟨.exec (.claimEvent r), .ok n⟩) (new : n ≠ 0) :
    ∃ j, Closed ev (history i j tr) ∧ Entered (history i j tr) ev ∧
      ∀ l u e, tr[l]? = some u → u.label = .acted i e → l < j := by
  obtain ⟨q, began, conduct⟩ := conduct_at run at_k label
  have same := run.started_unique started began.of_take
  subst same
  have entered : Entered (history i (k + 1) tr) ev := by
    obtain ⟨key, status, -⟩ := conduct
    obtain ⟨key, id⟩ := Prod.mk.inj key
    refine ⟨r.notificationId, r.receivedAt, n, mem_history.2 ⟨k, s, Nat.lt_succ_self k, at_k, ?_⟩,
      new⟩
    rw [label, ← key, ← id, ← status]
  -- nothing unbroken is left open, so its thread has returned
  have ended := quiet.ended i ev started mine
  rw [← List.take_length (l := tr)] at ended
  obtain ⟨j, t, result, after, at_j, returned⟩ :=
    returns_of_unbroken run smooth mine at_k label entered began tr.length ended
  have entered : Entered (history i j tr) ev := by
    obtain ⟨nid, u, m, mem, new⟩ := entered
    exact ⟨nid, u, m, history_subset after mem, new⟩
  refine ⟨j, ?_, entered, fun l u e at_l acted => ?_⟩
  · obtain ⟨q', began', ends⟩ := run.returned_at
      (I := fun q h e => Conduct q h e.action) (F := Ends) (meets_program S) at_j returned
    have same := run.started_unique started began'.of_take
    subst same
    exact ends.1 entered
  -- what has returned makes no further step
  · by_contra late
    rcases Nat.eq_or_lt_of_le (Nat.not_lt.1 late) with here | later
    · rw [← here, at_j] at at_l
      cases at_l
      rw [returned] at acted
      cases acted
    · have over_ : Ended i (tr.take (j + 1)) := by
        rw [take_succ_at at_j]
        exact ⟨tr.take j, t, [], rfl, .inl ⟨result, returned⟩⟩
      exact (run.silent_at at_l later over_).1 e acted

/-- Every callback that was entered is accounted for: a verdict as strong was written
before, or by its own handler. -/
theorem accounted (run : PostRun S clock tr c) (verbatim : Verbatim tr) (smooth : Smooth tr p)
    (quiet : Quiet tr p) (came : Came tr p ev) (entered : EnteredAt tr k ev.key) :
    ∃ j i' ev' m, Moves tr j i' ev' m ∧ ev'.providerMessageId = p ∧
      deliveryRank ev.status ≤ deliveryRank ev'.status ∧ (j < k ∨ ev' = ev) := by
  obtain ⟨s, i, r, n, at_k, label, new, key⟩ := entered
  obtain ⟨q, began, conduct⟩ := conduct_at run at_k label
  cases q with
  | updateVaultHeir id req => exact conduct.elim
  | callback ev₀ =>
    have same : ev₀ = ev := by
      refine verbatim _ p ev₀ ev ⟨rfl, i, began.of_take⟩ came ?_
      rw [← key]
      exact conduct.1.symm
    subst same
    have mine := came.1
    have started := began.of_take
    obtain ⟨n', closed, entered, last⟩ := closed_of_quiet run smooth quiet started mine at_k label new
    cases closed with
    | unknown found unmoved => exact absurd found (smooth.known i n' ev₀ started mine entered)
    | stale m found stronger unmoved =>
      -- what the handler has found was written before it entered the id
      obtain ⟨j, t, -, at_j, asked⟩ := mem_history.1 found
      have before : j < k := by
        by_contra late
        obtain ⟨q, began', conduct'⟩ := conduct_at run at_j asked
        have same := run.started_unique started began'.of_take
        subst same
        rcases Nat.eq_or_lt_of_le (Nat.not_lt.1 late) with here | later
        · rw [here, at_j] at at_k
          cases at_k
          rw [asked] at label
          cases label
        · exact conduct'.2 r (.ok n) (mem_history.2 ⟨k, s, later, at_k, label⟩)
      obtain ⟨row, -⟩ := queried (run.explains_at at_j) asked
      have recorded : t.before.verdict p = m.deliveryStatus := by
        unfold Post.verdict
        rw [← mine, show t.before.byProviderId ev₀.providerMessageId = some m from row.symm]
        rfl
      cases status : m.deliveryStatus with
      | none =>
        rw [status] at stronger
        exact absurd stronger (Nat.not_le.2 (deliveryRank_pos _))
      | some status' =>
        obtain ⟨j', i', ev', m', earlier, moves, mine', rfl⟩ :=
          (wrote_of_verdict run p).1 j t at_j status' (recorded.trans status)
        rw [status] at stronger
        exact ⟨j', i', ev', m', moves, mine', stronger, .inl (Nat.lt_trans earlier before)⟩
    | failed id t e lost =>
      obtain ⟨j, u, -, at_j, failed⟩ := mem_history.1 lost
      exact absurd failed (smooth.written u (List.mem_of_getElem? at_j) i ev₀ id _ _ t e started mine)
    | finished finished =>
      obtain ⟨m, ⟨found, t, n₁, moved⟩, -⟩ := finished
      obtain ⟨j, u, -, at_j, wrote⟩ := mem_history.1 moved
      obtain ⟨ev', m', moves, -, -⟩ := moves_of_judged run at_j wrote
      have same := run.started_unique started moves.started.of_take
      cases same
      exact ⟨j, i, ev₀, m', moves, mine, Nat.le_refl _, .inr rfl⟩

/-- Every callback that has come is entered. -/
theorem entered_of_came (run : PostRun S clock tr c) (quiet : Quiet tr p) (came : Came tr p ev) :
    ∃ k, EnteredAt tr k ev.key := by
  obtain ⟨i, s, x, started, mem, returned⟩ := quiet.accepted ev came
  obtain ⟨j, inside, here⟩ := List.mem_iff_getElem.1 mem
  have at_j : tr[j]? = some s := by rw [← here]; exact List.getElem?_eq_getElem inside
  obtain ⟨q, began, ends⟩ := run.returned_at
    (I := fun q h e => Conduct q h e.action) (F := Ends) (meets_program S) at_j returned
  have same := run.started_unique started began.of_take
  subst same
  obtain ⟨nid, t, n, tried⟩ := ends.2 x rfl
  obtain ⟨k, u, -, at_k, label⟩ := mem_history.1 tried
  cases n with
  | zero =>
    obtain ⟨k', -, entered⟩ := entered_before run at_k label
    exact ⟨k', entered⟩
  | succ n => exact ⟨k, u, i, _, n + 1, at_k, label, Nat.succ_ne_zero n, rfl⟩

/-! ## §5 The verdict -/

/-- The owner is told of a message once. -/
theorem tells_once (run : PostRun S clock tr c) (smooth : Smooth tr p) (first : Tells tr p j)
    (second : Tells tr p k) : j = k := by
  have undelivered : ∀ {n : Nat}, Tells tr p n → ∃ s i ev e r l m, tr[n]? = some s ∧
      Started i (.callback ev) tr ∧ s.label = .acted i ⟨.exec (.insertEvent e), .ok r⟩ ∧
      e.isUndelivered ∧ Moves tr l i ev m ∧ ev.providerMessageId = p ∧
      deliveryRank ev.status = 5 ∧ ∀ e' x, e'.isUndelivered →
        (⟨.exec (.insertEvent e'), x⟩ : PostEv) ∉ history i n tr := by
    rintro n ⟨s, i, ev, e, r, at_n, started, mine, kind, label⟩
    obtain ⟨q, began, conduct⟩ := conduct_at run at_n label
    have same := run.started_unique started.of_take began.of_take
    subst same
    obtain ⟨negative, ⟨m, found, t, n₁, moved⟩, untold⟩ := conduct kind
    obtain ⟨l, u, -, at_l, wrote⟩ := mem_history.1 moved
    obtain ⟨ev', m', moves, -, -⟩ := moves_of_judged run at_l wrote
    have same := run.started_unique started.of_take moves.started.of_take
    cases same
    exact ⟨s, i, ev, e, r, l, m', at_n, started.of_take, label, kind, moves, mine,
      (deliveryRank_eq_five_iff _).2 negative, untold⟩
  obtain ⟨s, i, ev, e, r, l, m, at_j, started, label, kind, moves, mine, five, untold⟩ :=
    undelivered first
  obtain ⟨s', i', ev', e', r', l', m', at_k, started', label', kind', moves', mine', five',
    untold'⟩ := undelivered second
  -- both have written the strongest verdict, so they are one handler
  have once : l = l' := by
    rcases Nat.lt_trichotomy l l' with before | same | after
    · have lt := moves.rank_lt moves' run smooth mine mine' before
      rw [five, five'] at lt
      exact absurd lt (Nat.lt_irrefl 5)
    · exact same
    · have lt := moves'.rank_lt moves run smooth mine' mine after
      rw [five, five'] at lt
      exact absurd lt (Nat.lt_irrefl 5)
  subst once
  obtain ⟨rfl, rfl⟩ := moves.same moves' run
  rcases Nat.lt_trichotomy j k with before | same | after
  · exact absurd (mem_history.2 ⟨j, s, before, at_j, label⟩) (untold' e (.ok r) kind)
  · exact same
  · exact absurd (mem_history.2 ⟨k, s', after, at_k, label'⟩) (untold e' (.ok r') kind')

/-- Of a negative verdict the owner is told. -/
theorem tells_of_negative (run : PostRun S clock tr c) (verbatim : Verbatim tr)
    (smooth : Smooth tr p) (quiet : Quiet tr p) (came : Came tr p ev)
    (negative : isNegativeVerdict ev.status = true) : ∃ k, Tells tr p k := by
  obtain ⟨k, entered⟩ := entered_of_came run quiet came
  obtain ⟨j, i, ev', m, moves, mine, stronger, -⟩ := accounted run verbatim smooth quiet came entered
  have negative' : isNegativeVerdict ev'.status = true := by
    rw [← deliveryRank_eq_five_iff] at negative ⊢
    exact Nat.le_antisymm (deliveryRank_le _) (negative ▸ stronger)
  obtain ⟨u, t, n, at_j, wrote⟩ := moves.writes
  have started := moves.started.of_take
  -- the handler that has written it has entered its callback, and has ended
  obtain ⟨k', s', r', n', -, at_k', label', new, -⟩ := moves.entered run
  obtain ⟨n₂, closed, -, last⟩ := closed_of_quiet run smooth quiet started mine at_k' label' new
  have moved := mem_history.2 ⟨j, u, last j u _ at_j wrote, at_j, wrote⟩
  cases closed with
  | unknown found unmoved => exact absurd moved (unmoved _ _ _ _ _)
  | stale m' found stronger unmoved => exact absurd moved (unmoved _ _ _ _ _)
  | failed id t e lost =>
    obtain ⟨l, v, -, at_l, failed⟩ := mem_history.1 lost
    exact absurd failed (smooth.written v (List.mem_of_getElem? at_l) i ev' id _ _ t e started mine)
  | finished finished =>
    obtain ⟨m', -, told, -⟩ := finished
    obtain ⟨e, r, kind, inserted⟩ := told negative'
    obtain ⟨l, v, -, at_l, label⟩ := mem_history.1 inserted
    cases r with
    | error e' =>
      exact absurd label
        (smooth.told v (List.mem_of_getElem? at_l) i ev' e e' started mine kind)
    | ok r =>
      obtain ⟨q, began, -⟩ := conduct_at run at_l label
      have same := run.started_unique started began.of_take
      subst same
      exact ⟨l, v, i, ev', e, r, at_l, began, mine, kind, label⟩

/-- The recorded verdict is the strongest one. -/
theorem verdict_strongest (run : PostRun S clock tr c) (verbatim : Verbatim tr)
    (smooth : Smooth tr p) (quiet : Quiet tr p) :
    (c.world.verdict p = none ∧ ∀ ev, ¬ Came tr p ev) ∨
      ∃ ev, Strongest tr p ev ∧ c.world.verdict p = some ev.status := by
  cases held : c.world.verdict p with
  | none =>
    refine .inl ⟨rfl, fun ev came => ?_⟩
    obtain ⟨k, entered⟩ := entered_of_came run quiet came
    obtain ⟨j, i, ev', m, moves, mine, -⟩ := accounted run verbatim smooth quiet came entered
    have recorded := moves.rank_le_end run smooth mine
    rw [held] at recorded
    exact absurd recorded (Nat.not_le.2 (deliveryRank_pos _))
  | some status =>
    obtain ⟨l, i, ev, m, -, moves, mine, rfl⟩ := (wrote_of_verdict run p).2 status held
    have started := moves.started.of_take
    refine .inr ⟨ev, ⟨⟨mine, i, started⟩, fun ev' came' => ?_, ?_⟩, rfl⟩
    · obtain ⟨k', entered'⟩ := entered_of_came run quiet came'
      obtain ⟨j, i', ev'', m', moves', mine', le, -⟩ :=
        accounted run verbatim smooth quiet came' entered'
      have recorded := moves'.rank_le_end run smooth mine'
      rw [held] at recorded
      exact Nat.le_trans le recorded
    · intro ev' k k' came' rank entered entered'
      obtain ⟨j, i', ev'', m', moves', mine', le, before⟩ :=
        accounted run verbatim smooth quiet came' entered'
      have recorded := moves'.rank_le_end run smooth mine'
      rw [held] at recorded
      have equal : deliveryRank ev''.status = deliveryRank ev.status :=
        Nat.le_antisymm recorded (rank ▸ le)
      -- it was written where the recorded verdict was
      have here : j = l := by
        rcases Nat.lt_trichotomy j l with earlier | same | later
        · exact absurd (moves'.rank_lt moves run smooth mine' mine earlier) (by omega)
        · exact same
        · exact absurd (moves.rank_lt moves' run smooth mine mine' later) (by omega)
      subst here
      obtain ⟨rfl, rfl⟩ := moves.same moves' run
      rcases before with earlier | rfl
      · obtain ⟨k₀, u, r, n, lt, at_k₀, claimed, new, key⟩ := moves.entered run
        rw [entered_once run entered ⟨u, i, r, n, at_k₀, claimed, new, key⟩]
        exact Nat.le_of_lt (Nat.lt_trans lt earlier)
      · exact Nat.le_of_eq (entered_once run entered entered')

/-- In a run whose steps do the callbacks about `p` no harm, the owner is told of `p` at
most once, and once every callback is handled the recorded verdict is the strongest one, the
first of its rank, and the owner has been told if it is negative. -/
theorem verdict_of_smooth (run : PostRun S clock tr c) (verbatim : Verbatim tr)
    (smooth : Smooth tr p) :
    (∀ j k, Tells tr p j → Tells tr p k → j = k) ∧
      (Quiet tr p → VerdictHolds tr p c.world) :=
  ⟨fun _ _ first second => tells_once run smooth first second, fun quiet =>
    ⟨verdict_strongest run verbatim smooth quiet,
      fun _ came negative => tells_of_negative run verbatim smooth quiet came negative⟩⟩

end Message

/-! ## §6 A bounce that is lost -/

section Lost

def bounced : DeliveryEvent := ⟨"resend", "msg_2", "re_1", "bounced", none⟩

def sentOn : DeliveryEvent := ⟨"resend", "msg_1", "re_1", "sent", none⟩

abbrev PostMove := Move Luck PostDrift PostRequest

/-- A vault, and a link queued for its heir. -/
def queuedLink : List PostMove :=
  [.drift (.createVault "v" false none (some "heir@mail") (some "email") (some "owner@mail")),
    .drift (.enqueue "v" "claim_link" "email" "heir@mail")]

/-- `n` steps of thread `i`, none of which fails. -/
def work (i n : Nat) : List PostMove := List.replicate n (.step i ⟨false⟩)

/-- The provider's id is stored, the message bounces, and an older callback comes late. The
bounce is repeated. -/
def bounceFirst : List PostMove :=
  queuedLink ++
    [.drift (.accepted 1 "re_1"), .start (.callback bounced), .start (.callback sentOn)] ++
    work 0 10 ++ work 1 4 ++ [.start (.callback bounced)] ++ work 2 4

/-- The bounce comes before the provider's id is stored, and is repeated after it. -/
def earlyBounce : List PostMove :=
  queuedLink ++ [.start (.callback bounced)] ++ work 0 4 ++
    [.drift (.accepted 1 "re_1"), .start (.callback bounced)] ++ work 1 4

/-- The callbacks a step may start. -/
def starts (evs : List DeliveryEvent) (s : PostStep) : Bool :=
  match s.label with
  | .started _ (.callback ev) => ev ∈ evs
  | .started _ _ => false
  | _ => true

/-- No step that could do harm: nothing fails, halts or is unknown, and a verdict is written
over a weaker one. -/
def harmless (p : String) (s : PostStep) : Bool :=
  match s.label with
  | .acted _ ⟨.query (.byProviderId _), .ok m⟩ => (m : Option Mail).isSome
  | .acted _ ⟨.exec _, .error _⟩ => false
  | .acted _ ⟨.exec (.updateVerdict _ status _ _), _⟩ =>
      previousRank (s.before.verdict p) < deliveryRank status
  | .halted => false
  | _ => true

def accepts (i : Nat) (s : PostStep) : Bool :=
  match s.label with
  | .returned j (.ok _) => j = i
  | _ => false

theorem exists_played (S : Server) (ms : List PostMove)
    (P : PostTrace → Config PostAction PostAction.Response ApiError (Option Recorded) Post
      PostRequest → Bool)
    (check : ((postroom S).play ms (System.boot (Post.start 0))).any (fun r => P r.1 r.2) = true) :
    ∃ tr c, PostRun S 0 tr c ∧ P tr c = true :=
  Run.exists_of_play check

variable {tr : PostTrace} {p : String} {ev : DeliveryEvent} {evs : List DeliveryEvent}

theorem mem_of_starts (only : tr.all (starts evs) = true) (came : Came tr p ev) : ev ∈ evs := by
  obtain ⟨-, i, s, mem, label⟩ := came
  have here := List.all_eq_true.1 only s mem
  simpa [starts, label] using here

theorem verbatim_of_starts (only : tr.all (starts evs) = true)
    (keys : (evs.map DeliveryEvent.key).Nodup) : Verbatim tr := by
  intro p p' ev ev' came came' same
  exact List.inj_on_of_nodup_map keys (mem_of_starts only came) (mem_of_starts only came') same

theorem smooth_of_harmless (harmless : tr.all (harmless p) = true) : Smooth tr p := by
  have each : ∀ s ∈ tr, Delivery.harmless p s = true := List.all_eq_true.1 harmless
  refine ⟨fun i k ev _ _ _ found => ?_, fun s mem i ev id status detail t e _ _ label => ?_,
    fun s mem i ev entry e _ _ _ label => ?_, fun k s i ev at_k label => ?_,
    fun k s i ev m at_k moves _ => ?_⟩
  · obtain ⟨j, s, -, at_j, label⟩ := mem_history.1 found
    have here := each s (List.mem_of_getElem? at_j)
    simp [Delivery.harmless, label] at here
  · have here := each s mem
    simp [Delivery.harmless, label] at here
  · have here := each s mem
    simp [Delivery.harmless, label] at here
  · have here := each s (List.mem_of_getElem? at_k)
    simp [Delivery.harmless, label] at here
  · obtain ⟨s', t, n, at_k', label⟩ := moves.writes
    rw [at_k] at at_k'
    cases at_k'
    have here := each s (List.mem_of_getElem? at_k)
    simpa [Delivery.harmless, label] using here

/-- Thread `i` was started for the callback `ev`. -/
def startedFor (i : Nat) (ev : DeliveryEvent) (s : PostStep) : Bool :=
  match s.label with
  | .started j (.callback ev') => decide (j = i) && decide (ev' = ev)
  | _ => false

theorem started_of_any {i : Nat} (any : tr.any (startedFor i ev) = true) :
    Started i (.callback ev) tr := by
  obtain ⟨s, mem, label⟩ := List.any_eq_true.1 any
  unfold startedFor at label
  split at label
  · next j ev' here =>
    simp only [Bool.and_eq_true, decide_eq_true_eq] at label
    exact ⟨s, mem, by rw [here, label.1, label.2]⟩
  · cases label

/-- Every callback of `evs` has a thread below `n` that has accepted it. -/
def allAccepted (evs : List DeliveryEvent) (n : Nat) (tr : PostTrace) : Bool :=
  evs.all fun ev => (List.range n).any fun i => tr.any (startedFor i ev) && tr.any (accepts i)

theorem quiet_of_idle {S : Server} {n : Nat}
    {c : Config PostAction PostAction.Response ApiError (Option Recorded) Post PostRequest}
    (run : PostRun S 0 tr c) (only : tr.all (starts evs) = true)
    (idle : c.threads.all (fun t => t.rest.isNone) = true)
    (accepted : allAccepted evs n tr = true) : Quiet tr p := by
  refine ⟨fun i ev started _ => run.ended_of_idle (fun t mem => ?_) started, fun ev came => ?_⟩
  · simpa using List.all_eq_true.1 idle t mem
  · have found := List.all_eq_true.1 accepted ev (mem_of_starts only came)
    simp only [List.any_eq_true, Bool.and_eq_true] at found
    obtain ⟨i, -, started, s, mem, label⟩ := found
    have started := started_of_any (List.any_eq_true.2 started)
    unfold accepts at label
    split at label
    · next j x here =>
      rw [decide_eq_true_eq] at label
      exact ⟨i, s, x, started, mem, by rw [here, label]⟩
    · cases label

/-- The bounce stands against the late callback, and the owner has been told. -/
theorem verdict_of_smooth_bounced : ∃ tr c, PostRun jsonHost 0 tr c ∧ Quiet tr "re_1" ∧
    c.world.verdict "re_1" = some "bounced" ∧ VerdictHolds tr "re_1" c.world := by
  obtain ⟨tr, c, run, check⟩ := exists_played jsonHost bounceFirst
    (fun tr c => tr.all (starts [bounced, sentOn]) && tr.all (harmless "re_1") &&
      c.threads.all (fun t => t.rest.isNone) && allAccepted [bounced, sentOn] 3 tr &&
      decide (c.world.verdict "re_1" = some "bounced"))
    (by decide +kernel)
  simp only [Bool.and_eq_true, decide_eq_true_eq] at check
  obtain ⟨⟨⟨⟨only, harmless⟩, idle⟩, accepted⟩, verdict⟩ := check
  have quiet : Quiet tr "re_1" := quiet_of_idle run only idle accepted
  exact ⟨tr, c, run, quiet, verdict, (verdict_of_smooth run
    (verbatim_of_starts only (by decide)) (smooth_of_harmless harmless)).2 quiet⟩

/-- A callback that comes before the provider's id is stored is spent on a message nobody
knows, and its repetition is a duplicate. -/
theorem not_verdictHolds : ¬ ∀ (S : Server) (clock : Instant) (tr : PostTrace)
    (c : Config PostAction PostAction.Response ApiError (Option Recorded) Post PostRequest)
    (p : String), PostRun S clock tr c → Verbatim tr →
      (∀ j k, Tells tr p j → Tells tr p k → j = k) ∧
        (Quiet tr p → VerdictHolds tr p c.world) := by
  intro holds
  obtain ⟨tr, c, run, check⟩ := exists_played jsonHost earlyBounce
    (fun tr c => tr.all (starts [bounced]) && c.threads.all (fun t => t.rest.isNone) &&
      allAccepted [bounced] 2 tr && tr.any (startedFor 0 bounced) &&
      decide (c.world.verdict "re_1" = none))
    (by decide +kernel)
  simp only [Bool.and_eq_true, decide_eq_true_eq] at check
  obtain ⟨⟨⟨⟨only, idle⟩, accepted⟩, started⟩, lost⟩ := check
  have right := (holds jsonHost 0 tr c "re_1" run (verbatim_of_starts only (by decide))).2
    (quiet_of_idle run only idle accepted)
  rcases right.verdict with ⟨-, none_came⟩ | ⟨ev, -, recorded⟩
  · exact none_came bounced ⟨rfl, 0, started_of_any started⟩
  · rw [lost] at recorded
    cases recorded

end Lost

end Delivery

end GhostKey

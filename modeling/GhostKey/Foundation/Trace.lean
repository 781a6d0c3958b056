import GhostKey.Foundation.Interleaving

/-!
# Steps by Position

A fact about an interleaving is a fact about the order of its steps, so the rules
of runs are restated here with positions in the trace: what the step at position
`k` is, given the steps before it, `tr.take k`.

Main results:
- `Run.acted_at`, `Run.returned_at`, `Run.silent_at`: what a thread does at a
  position, given its history up to there.
- `Run.invariant_at`: the induction principle for facts about the world that may
  speak of the position reached.
- `Run.since`: the same from one position on.
- `mem_history`, `history_split`: a thread's history by positions.
-/

namespace GhostKey.Foundation

open Program

variable {A : Type} {R : A → Type} {ε ρ W O D Q : Type}
variable {S : System A R ε ρ W O D Q} {w : W} {c₀ c : Config A R ε ρ W Q}
variable {tr : List (Step A R ε ρ W D Q)} {s : Step A R ε ρ W D Q} {i j k : Nat}

/-- What the thread `i` has done before position `k`. -/
def history (i k : Nat) (tr : List (Step A R ε ρ W D Q)) : History A R := eventsOf i (tr.take k)

theorem split_at (at_k : tr[k]? = some s) : tr = tr.take k ++ s :: tr.drop (k + 1) := by
  obtain ⟨inside, here⟩ := List.getElem?_eq_some_iff.1 at_k
  rw [← here, ← List.drop_eq_getElem_cons inside, List.take_append_drop]

/-- Where no two entries of a list give the same, what two positions give tells them apart. -/
theorem position_unique {α β γ : Type} {f : α → Option β} {g : β → γ} {l : List α} {a b : α}
    {x y : β} (once : ((l.filterMap f).map g).Nodup) (at_j : l[j]? = some a)
    (at_k : l[k]? = some b) (gives : f a = some x) (gives' : f b = some y) (same : g x = g y) :
    j = k := by
  have distinct := List.pairwise_filterMap.1 (List.pairwise_map.1 once)
  obtain ⟨inside, rfl⟩ := List.getElem?_eq_some_iff.1 at_j
  obtain ⟨inside', rfl⟩ := List.getElem?_eq_some_iff.1 at_k
  rcases Nat.lt_trichotomy j k with earlier | here | later
  · exact absurd same
      (List.pairwise_iff_getElem.1 distinct j k inside inside' earlier x gives y gives')
  · exact here
  · exact absurd same.symm
      (List.pairwise_iff_getElem.1 distinct k j inside' inside later y gives' x gives)

theorem take_succ_at (at_k : tr[k]? = some s) : tr.take (k + 1) = tr.take k ++ [s] := by
  rw [List.take_add_one, at_k]
  rfl

/-- An event of a thread's history is a step at an earlier position. -/
theorem mem_history {e : Event A R} :
    e ∈ history i k tr ↔ ∃ j s, j < k ∧ tr[j]? = some s ∧ s.label = .acted i e := by
  unfold history
  rw [mem_eventsOf]
  constructor
  · rintro ⟨s, mem, label⟩
    obtain ⟨j, inside, here⟩ := List.mem_iff_getElem.1 mem
    have small : j < k := Nat.lt_of_lt_of_le inside (List.length_take_le k tr)
    refine ⟨j, s, small, ?_, label⟩
    rw [← List.getElem?_take_of_lt small, ← here]
    exact List.getElem?_eq_getElem inside
  · rintro ⟨j, s, small, at_j, label⟩
    refine ⟨s, ?_, label⟩
    rw [← List.getElem?_take_of_lt small] at at_j
    exact List.mem_of_getElem? at_j

theorem history_mono (le : j ≤ k) : history i j tr <+: history i k tr := by
  unfold history
  have pre : tr.take j <+: tr.take k := List.take_prefix_take_left le
  exact pre.filterMap _

theorem history_subset (le : j ≤ k) : history i j tr ⊆ history i k tr :=
  (history_mono le).subset

/-- A place in a thread's history is a position of the trace. -/
theorem history_split {h₁ h₂ : History A R} {e : Event A R}
    (whole : history i k tr = h₁ ++ e :: h₂) :
    ∃ j s, j < k ∧ tr[j]? = some s ∧ s.label = .acted i e ∧ history i j tr = h₁ := by
  unfold history at whole
  -- induction on the position: the place is in the last step or before it
  induction k generalizing h₂ with
  | zero => simp [eventsOf] at whole
  | succ k ih =>
    cases at_k : tr[k]? with
    | none =>
      have short : tr.take (k + 1) = tr.take k := by
        rw [List.take_add_one, at_k]
        simp
      rw [short] at whole
      obtain ⟨j, s, small, rest⟩ := ih whole
      exact ⟨j, s, Nat.lt_succ_of_lt small, rest⟩
    | some s =>
      rw [take_succ_at at_k, eventsOf_append] at whole
      by_cases label : ∃ e', s.label = .acted i e'
      · obtain ⟨e', label⟩ := label
        have one : eventsOf i [s] = [e'] := by simp [eventsOf, label]
        rw [one] at whole
        rcases List.eq_nil_or_concat' h₂ with rfl | ⟨front, last, rfl⟩
        · obtain ⟨before, same⟩ := List.append_inj' whole rfl
          cases same
          exact ⟨k, s, Nat.lt_succ_self k, at_k, label, before⟩
        · rw [← List.cons_append, ← List.append_assoc] at whole
          obtain ⟨before, -⟩ := List.append_inj' whole rfl
          obtain ⟨j, s', small, rest⟩ := ih before
          exact ⟨j, s', Nat.lt_succ_of_lt small, rest⟩
      -- the last step is none of the thread's
      · have nothing : eventsOf i [s] = [] := by
          unfold eventsOf
          rw [List.filterMap_cons, List.filterMap_nil]
          split
          · rfl
          · next e' got =>
            exfalso
            split at got
            · next j' e'' label' =>
              split at got
              · next same => exact label ⟨e'', same ▸ label'⟩
              · cases got
            · cases got
        rw [nothing, List.append_nil] at whole
        obtain ⟨j, s', small, rest⟩ := ih whole
        exact ⟨j, s', Nat.lt_succ_of_lt small, rest⟩

/-- The history of a thread after one of its own steps. -/
theorem history_succ {e : Event A R} (at_k : tr[k]? = some s) (label : s.label = .acted i e) :
    history i (k + 1) tr = history i k tr ++ [e] := by
  unfold history
  rw [take_succ_at at_k, eventsOf_append]
  simp [eventsOf, label]

/-- What a thread has done since one of its steps. -/
theorem history_since {m : Nat} {e : Event A R} (at_m : tr[m]? = some s) (label : s.label = .acted i e)
    (lt : m < k) : ∃ rest, history i k tr = history i m tr ++ e :: rest ∧
      ∀ x, x ∈ rest ↔ ∃ p t, m < p ∧ p < k ∧ tr[p]? = some t ∧ t.label = .acted i x := by
  have whole : tr.take k = tr.take (m + 1) ++ (tr.drop (m + 1)).take (k - (m + 1)) := by
    rw [← List.take_add, Nat.add_sub_cancel' lt]
  refine ⟨eventsOf i ((tr.drop (m + 1)).take (k - (m + 1))), ?_, fun x => ?_⟩
  · have grown := history_succ at_m label
    unfold history at grown ⊢
    rw [whole, eventsOf_append, grown, List.append_assoc, List.singleton_append]
  · rw [mem_eventsOf]
    constructor
    · rintro ⟨t, mem, acted⟩
      obtain ⟨p, at_p⟩ := List.mem_iff_getElem?.1 mem
      rw [List.getElem?_take, List.getElem?_drop] at at_p
      split at at_p
      · exact ⟨m + 1 + p, t, by omega, by omega, at_p, acted⟩
      · cases at_p
    · rintro ⟨p, t, after, before, at_p, acted⟩
      refine ⟨t, List.mem_iff_getElem?.2 ⟨p - (m + 1), ?_⟩, acted⟩
      rw [List.getElem?_take, if_pos (by omega), List.getElem?_drop, Nat.add_sub_cancel' after]
      exact at_p

theorem Started.of_take {q : Q} (h : Started i q (tr.take k)) : Started i q tr := by
  obtain ⟨s, mem, label⟩ := h
  exact ⟨s, List.mem_of_mem_take mem, label⟩

theorem Ended.later (ended : Ended i (tr.take j)) (le : j ≤ k) : Ended i (tr.take k) := by
  obtain ⟨pre, t, post, whole, ends⟩ := ended
  obtain ⟨more, grown⟩ : tr.take j <+: tr.take k := List.take_prefix_take_left le
  exact ⟨pre, t, post ++ more, by rw [← grown, whole]; simp, ends⟩

theorem started_at {q : Q} : Started i q (tr.take k) ↔
    ∃ j s, j < k ∧ tr[j]? = some s ∧ s.label = .started i q := by
  constructor
  · rintro ⟨s, mem, label⟩
    obtain ⟨j, inside, here⟩ := List.mem_iff_getElem.1 mem
    have small : j < k := Nat.lt_of_lt_of_le inside (List.length_take_le k tr)
    refine ⟨j, s, small, ?_, label⟩
    rw [← List.getElem?_take_of_lt small, ← here]
    exact List.getElem?_eq_getElem inside
  · rintro ⟨j, s, small, at_j, label⟩
    rw [← List.getElem?_take_of_lt small] at at_j
    exact ⟨s, List.mem_of_getElem? at_j, label⟩

theorem Started.later {q : Q} (started : Started i q (tr.take j)) (le : j ≤ k) :
    Started i q (tr.take k) := by
  obtain ⟨n, s, small, rest⟩ := started_at.1 started
  exact started_at.2 ⟨n, s, Nat.lt_of_lt_of_le small le, rest⟩

namespace Run

/-- The steps before a position are a run too. -/
theorem take (run : Run S c₀ tr c) (k : Nat) : ∃ c', Run S c₀ (tr.take k) c' := by
  rw [← List.take_append_drop k tr] at run
  obtain ⟨c', first, -⟩ := exists_prefix run
  exact ⟨c', first⟩

theorem explains_at (run : Run S c₀ tr c) (at_k : tr[k]? = some s) : S.Explains s := by
  rw [split_at at_k] at run
  exact explains run

/-- Neighbouring steps share the world between them. -/
theorem after_at (run : Run S c₀ tr c) {t : Step A R ε ρ W D Q} (at_k : tr[k]? = some s)
    (next : tr[k + 1]? = some t) : s.after = t.before := by
  have whole := split_at at_k
  have rest : tr.drop (k + 1) = t :: tr.drop (k + 2) := by
    obtain ⟨inside, here⟩ := List.getElem?_eq_some_iff.1 next
    rw [← here, ← List.drop_eq_getElem_cons inside]
  rw [rest] at whole
  rw [whole] at run
  exact after_eq_before run

theorem before_zero (run : Run S c₀ tr c) (at_zero : tr[0]? = some s) :
    s.before = c₀.world := by
  rw [split_at at_zero] at run
  obtain ⟨c₁, c₂, m, first, -, before, -, -⟩ := split run
  rw [List.take_zero] at first
  rw [before, of_nil first]

theorem acted_at {I : Q → History A R → Event A R → Prop}
    {F : Q → History A R → Except ε ρ → Prop}
    (meets : ∀ q, Meets (I q) (F q) (S.program q) []) (run : Run S (System.boot w) tr c)
    (at_k : tr[k]? = some s) {e : Event A R} (label : s.label = .acted i e) :
    ∃ q, Started i q (tr.take k) ∧ I q (history i k tr) e := by
  rw [split_at at_k] at run
  exact acted meets run label

theorem returned_at {I : Q → History A R → Event A R → Prop}
    {F : Q → History A R → Except ε ρ → Prop}
    (meets : ∀ q, Meets (I q) (F q) (S.program q) []) (run : Run S (System.boot w) tr c)
    (at_k : tr[k]? = some s) {r : Except ε ρ} (label : s.label = .returned i r) :
    ∃ q, Started i q (tr.take k) ∧ F q (history i k tr) r := by
  rw [split_at at_k] at run
  exact returned meets run label

/-- A thread that acts was started before. -/
theorem started_acted (run : Run S (System.boot w) tr c) (at_j : tr[j]? = some s)
    {e : Event A R} (label : s.label = .acted i e) : ∃ q, Started i q (tr.take j) := by
  obtain ⟨q, started, -⟩ := run.acted_at (I := fun _ _ _ => True) (F := fun _ _ _ => True)
    (fun q => Meets.mono (Meets.grows _ _) (fun _ _ _ => trivial) fun _ _ _ => trivial) at_j label
  exact ⟨q, started⟩

/-- Its request is the one it is known by later. -/
theorem started_before {q : Q} (run : Run S (System.boot w) tr c) (at_j : tr[j]? = some s)
    {e : Event A R} (label : s.label = .acted i e) (le : j ≤ k)
    (started : Started i q (tr.take k)) : Started i q (tr.take j) := by
  obtain ⟨q', started'⟩ := run.started_acted at_j label
  obtain ⟨c', until_⟩ := run.take k
  exact until_.started_unique (started'.later le) started ▸ started'

/-- A thread that has ended does nothing at a later position. -/
theorem silent_at (run : Run S (System.boot w) tr c) (at_k : tr[k]? = some s) (le : j ≤ k)
    (ended : Ended i (tr.take j)) :
    (∀ e, s.label ≠ .acted i e) ∧ ∀ r, s.label ≠ .returned i r := by
  rw [split_at at_k] at run
  exact silent run (ended.later le)

/-- A thread returns after all that it does. -/
theorem acted_before_return (run : Run S (System.boot w) tr c) (at_k : tr[k]? = some s) {r : Except ε ρ}
    (returned : s.label = .returned i r) {t : Step A R ε ρ W D Q} (at_j : tr[j]? = some t)
    {e : Event A R} (label : t.label = .acted i e) : j < k := by
  by_contra late
  rcases Nat.eq_or_lt_of_le (Nat.le_of_not_lt late) with rfl | after
  · rw [at_k] at at_j
    cases at_j
    rw [returned] at label
    cases label
  · have ended : Ended i (tr.take (k + 1)) := ⟨_, s, [], take_succ_at at_k, .inl ⟨r, returned⟩⟩
    exact (run.silent_at at_j after ended).1 e label

/-- A thread that has acted ends by a later step. -/
theorem ended_since (run : Run S (System.boot w) tr c) (at_j : tr[j]? = some s) {e : Event A R}
    (label : s.label = .acted i e) (ended : Ended i (tr.take k)) :
    ∃ n t, j < n ∧ n < k ∧ tr[n]? = some t ∧
      ((∃ r, t.label = .returned i r) ∨ t.label = .halted) := by
  obtain ⟨pre, t, post, whole, ends⟩ := ended
  have inside : pre.length < k := by
    have size := List.length_take_le k tr
    rw [whole] at size
    simp at size
    omega
  have at_n : tr[pre.length]? = some t := by
    rw [← List.getElem?_take_of_lt inside, whole]
    simp
  refine ⟨pre.length, t, ?_, inside, at_n, ends.imp_right And.left⟩
  -- had it ended before, it could not have acted
  by_contra early
  rcases Nat.eq_or_lt_of_le (Nat.not_lt.1 early) with same | before
  · rw [same, at_j] at at_n
    cases at_n
    rcases ends with ⟨r, ret⟩ | ⟨halt, -⟩
    · rw [label] at ret
      cases ret
    · rw [label] at halt
      cases halt
  · have here : tr.take (pre.length + 1) = pre ++ [t] := by
      rw [take_succ_at at_n]
      congr 1
      have short := congrArg (List.take pre.length) whole
      rwa [List.take_take, Nat.min_eq_left (Nat.le_of_lt inside), List.take_left'] at short
      rfl
    exact (run.silent_at at_j before ⟨pre, t, [], here, ends⟩).1 e label

/-- Of two threads for a request that may not run beside itself, the one that acts first
has ended before the other one acts. -/
theorem ended_before {q : Q} {i' : Nat} {t : Step A R ε ρ W D Q} {e : Event A R}
    (alone : ∀ running, q ∈ running → S.mayStart q running = false)
    (run : Run S (System.boot w) tr c) (lt : j < k) (at_k : tr[k]? = some t)
    (label : t.label = .acted i' e) (started : Started i q (tr.take j))
    (started' : Started i' q (tr.take k)) (other : i ≠ i') : Ended i (tr.take k) := by
  obtain ⟨a, u, a_lt, at_a, start⟩ := started_at.1 started
  obtain ⟨b, u', b_lt, at_b, start'⟩ := started_at.1 started'
  rcases Nat.lt_trichotomy a b with first | same | second
  · have run' := run
    rw [split_at at_b] at run'
    exact (Run.ended_of_started alone run' start' (started_at.2 ⟨a, u, first, at_a, start⟩)).later
      (Nat.le_of_lt b_lt)
  · rw [same, at_b] at at_a
    cases at_a
    rw [start'] at start
    cases start
    exact absurd rfl other
  · have run' := run
    rw [split_at at_a] at run'
    have over_ := Run.ended_of_started alone run' start (started_at.2 ⟨b, u', second, at_b, start'⟩)
    exact absurd label ((run.silent_at at_k (Nat.le_of_lt (Nat.lt_trans a_lt lt)) over_).1 e)

/-- What every step preserves from one position to the next holds all along. -/
theorem invariant_at {P : Nat → W → Prop} (run : Run S c₀ tr c) (init : P 0 c₀.world)
    (preserved : ∀ k s, tr[k]? = some s → S.Explains s → P k s.before → P (k + 1) s.after) :
    (∀ k s, tr[k]? = some s → P k s.before ∧ P (k + 1) s.after) ∧ P tr.length c.world := by
  induction run with
  | nil => exact ⟨fun k s at_k => by simp at at_k, init⟩
  | @snoc tr c₁ c₂ m l run move ih =>
    obtain ⟨past, now⟩ := ih fun k s at_k => by
      have inside := (List.getElem?_eq_some_iff.1 at_k).1
      exact preserved k s (by rw [List.getElem?_append_left inside]; exact at_k)
    have last := preserved tr.length ⟨c₁.world, l, c₂.world⟩ List.getElem?_concat_length
      (explained move rfl rfl) now
    refine ⟨fun k s at_k => ?_, by simpa using last⟩
    rcases Nat.lt_trichotomy k tr.length with old | new | beyond
    · rw [List.getElem?_append_left old] at at_k
      exact past k s at_k
    · subst new
      rw [List.getElem?_concat_length] at at_k
      cases at_k
      exact ⟨now, last⟩
    · rw [List.getElem?_eq_none (by simpa using Nat.succ_le_of_lt beyond)] at at_k
      cases at_k

/-- What holds after the step at `j` and is kept by every step since holds before
the step at `k`. -/
theorem since {P : W → Prop} (run : Run S c₀ tr c) {t : Step A R ε ρ W D Q}
    (at_j : tr[j]? = some t) (start : P t.after)
    (kept : ∀ n u, j < n → n < k → tr[n]? = some u → P u.before → P u.after)
    (lt : j < k) (at_k : tr[k]? = some s) : P s.before := by
  induction lt generalizing s with
  | refl =>
    rw [← run.after_at at_j at_k]
    exact start
  | @step k le ih =>
    have inside := (List.getElem?_eq_some_iff.1 at_k).1
    have at_prev : tr[k]? = some tr[k] := List.getElem?_eq_getElem (Nat.lt_of_succ_lt inside)
    rw [← run.after_at at_prev at_k]
    refine kept k _ le (Nat.lt_succ_self k) at_prev (ih ?_ at_prev)
    exact fun n u after before at_n => kept n u after (Nat.lt_succ_of_lt before) at_n

/-- What holds after the step at `j` and is kept by every later step holds at the end. -/
theorem since_end {P : W → Prop} (run : Run S c₀ tr c) {t : Step A R ε ρ W D Q}
    (at_j : tr[j]? = some t) (start : P t.after)
    (kept : ∀ n u, j < n → tr[n]? = some u → P u.before → P u.after) : P c.world := by
  refine (run.invariant_at (P := fun n w => j < n → P w) (fun none => absurd none (by simp))
    fun k s at_k _ before after => ?_).2 (List.getElem?_eq_some_iff.1 at_j).1
  rcases Nat.lt_or_eq_of_le (Nat.le_of_lt_succ after) with later | same
  · exact kept k s later at_k (before later)
  · subst same
    rw [at_j] at at_k
    cases at_k
    exact start

/-- What does not hold before the step at `j` and holds before the step at `k` was brought
about by a step in between, and has held ever since. -/
theorem turned {P : W → Prop} (run : Run S c₀ tr c) {t : Step A R ε ρ W D Q}
    (at_j : tr[j]? = some t) (at_k : tr[k]? = some s) (le : j ≤ k) (was : ¬ P t.before)
    (now : P s.before) :
    ∃ n u, j ≤ n ∧ n < k ∧ tr[n]? = some u ∧ ¬ P u.before ∧
      ∀ m u', n ≤ m → m < k → tr[m]? = some u' → P u'.after := by
  -- by induction on the steps in between: the last one turned it, or an earlier one
  induction le generalizing s with
  | refl =>
    rw [at_j] at at_k
    cases at_k
    exact absurd now was
  | @step k le ih =>
    have inside := (List.getElem?_eq_some_iff.1 at_k).1
    have at_prev : tr[k]? = some tr[k] := List.getElem?_eq_getElem (Nat.lt_of_succ_lt inside)
    have last : P tr[k].after := by
      rw [run.after_at at_prev at_k]
      exact now
    by_cases already : P tr[k].before
    · obtain ⟨n, u, from_j, lt, at_n, turn, since⟩ := ih at_prev already
      refine ⟨n, u, from_j, Nat.lt_succ_of_lt lt, at_n, turn, fun m u' after before at_m => ?_⟩
      rcases Nat.lt_or_eq_of_le (Nat.le_of_lt_succ before) with earlier | same
      · exact since m u' after earlier at_m
      · subst same
        rw [at_prev] at at_m
        cases at_m
        exact last
    · refine ⟨k, _, le, Nat.lt_succ_self k, at_prev, already, fun m u' after before at_m => ?_⟩
      rw [Nat.le_antisymm (Nat.le_of_lt_succ before) after, at_prev] at at_m
      cases at_m
      exact last

end Run

end GhostKey.Foundation

import GhostKey.Foundation.Sequential

/-!
# One Program Among Others

What a program does while others run beside it, when all that is known of the
others is a relation `rely` between the worlds before and after their steps: before
each of its actions the world may first move along `rely`.

Main results:
- `Yields.later`: what is promised here is promised wherever the others lead.
- `Run.yields`: what `Yields` promises amid `rely`, a thread of an interleaved run
  keeps, if the steps beside it are in `rely`.
-/

namespace GhostKey.Foundation

variable {A : Type} {R : A → Type} {ε ρ W O D Q α : Type}

/-- Answer after the others have moved. -/
def Amid (rely : W → W → Prop) (can : (a : A) → W → R a → W → Prop) :
    (a : A) → W → R a → W → Prop :=
  fun a w r w' => ∃ w₁, rely w w₁ ∧ can a w₁ r w'

namespace Program.Yields

variable {rely : W → W → Prop} {can : (a : A) → W → R a → W → Prop}
  {P : W → History A R → Except ε α → Prop} {w w' : W} {h : History A R}

/-- The others may move before the program goes on. -/
theorem later {p : Program A R ε α} (trans : ∀ w₁ w₂ w₃, rely w₁ w₂ → rely w₂ w₃ → rely w₁ w₃)
    (stable : ∀ w w' h r, rely w w' → P w h r → P w' h r) (yields : Yields (Amid rely can) P p w h)
    (moved : rely w w') : Yields (Amid rely can) P p w' h := by
  cases p with
  | done a => exact stable w w' h _ moved yields
  | fail e => exact stable w w' h _ moved yields
  | act a next =>
    intro r w'' step
    obtain ⟨w₁, moved', answer⟩ := step
    exact yields r w'' ⟨w₁, trans w w' w₁ moved moved', answer⟩

end Program.Yields

open Program

section Runs

variable {S : System A R ε ρ W O D Q} {c c' : Config A R ε ρ W Q}
  {tr : List (Step A R ε ρ W D Q)} {q : Q} {i : Nat} {h : History A R}
  {rely : W → W → Prop} {can : (a : A) → W → R a → W → Prop}
  {P : W → History A R → Except ε ρ → Prop}

/-- The thread `i` goes on as promised, or has come to its end as promised, or the
process was halted. -/
def Goes (rely : W → W → Prop) (can : (a : A) → W → R a → W → Prop)
    (P : W → History A R → Except ε ρ → Prop) (q : Q) (i : Nat) (h : History A R)
    (tr : List (Step A R ε ρ W D Q)) (c : Config A R ε ρ W Q) : Prop :=
  (∃ p, c.threads[i]? = some ⟨q, some p⟩ ∧
      Yields (Amid rely can) P p c.world (h ++ eventsOf i tr)) ∨
    (∃ pre s post r, tr = pre ++ s :: post ∧ s.label = .returned i r ∧
      P s.before (h ++ eventsOf i pre) r) ∨
    ∃ s ∈ tr, s.label = .halted

theorem Goes.snoc {s : Step A R ε ρ W D Q} (ended : (∃ pre s post r, tr = pre ++ s :: post ∧
      s.label = .returned i r ∧ P s.before (h ++ eventsOf i pre) r) ∨ ∃ s ∈ tr, s.label = .halted) :
    Goes rely can P q i h (tr ++ [s]) c := by
  rcases ended with ⟨pre, t, post, r, rfl, label, holds⟩ | ⟨t, mem, label⟩
  · exact .inr (.inl ⟨pre, t, post ++ [s], r, by simp, label, holds⟩)
  · exact .inr (.inr ⟨t, List.mem_append_left [s] mem, label⟩)

/-- A step beside the thread. -/
theorem Goes.beside {s : Step A R ε ρ W D Q} {p : Program A R ε ρ} {c₂ : Config A R ε ρ W Q}
    (trans : ∀ w₁ w₂ w₃, rely w₁ w₂ → rely w₂ w₃ → rely w₁ w₃)
    (stable : ∀ w w' h r, rely w w' → P w h r → P w' h r)
    (yields : Yields (Amid rely can) P p s.before (h ++ eventsOf i tr))
    (moved : rely s.before s.after) (other : ∀ e, s.label ≠ .acted i e) (world : c₂.world = s.after)
    (here : c₂.threads[i]? = some ⟨q, some p⟩) : Goes rely can P q i h (tr ++ [s]) c₂ := by
  have silent : eventsOf i (tr ++ [s]) = eventsOf i tr := by
    rw [eventsOf_append]
    have none : eventsOf i [s] = [] := by
      rw [List.eq_nil_iff_forall_not_mem]
      intro e mem
      obtain ⟨t, ht, label⟩ := mem_eventsOf.1 mem
      rw [List.mem_singleton] at ht
      exact other e (ht ▸ label)
    rw [none, List.append_nil]
  refine .inl ⟨p, here, ?_⟩
  rw [silent, world]
  exact yields.later trans stable moved

/-- Along a run, with the steps beside the thread in `rely` and its own in `can`. -/
theorem Run.goes {p : Program A R ε ρ} (run : Run S c tr c')
    (trans : ∀ w₁ w₂ w₃, rely w₁ w₂ → rely w₂ w₃ → rely w₁ w₃) (refl : ∀ w, rely w w)
    (stable : ∀ w w' h r, rely w w' → P w h r → P w' h r)
    (here : c.threads[i]? = some ⟨q, some p⟩) (yields : Yields (Amid rely can) P p c.world h)
    (beside : ∀ s ∈ tr, (∀ e, s.label ≠ .acted i e) → rely s.before s.after)
    (own : ∀ s ∈ tr, ∀ e : Event A R, s.label = .acted i e → can e.action s.before e.response s.after) :
    Goes rely can P q i h tr c' := by
  -- induction on the run: the last step is the thread's own or beside it
  induction run with
  | nil => exact .inl ⟨p, here, by simpa [eventsOf] using yields⟩
  | @snoc tr c₁ c₂ m l run move ih =>
    have past := ih (fun s mem => beside s (List.mem_append_left _ mem))
      fun s mem => own s (List.mem_append_left _ mem)
    have moved := beside ⟨c₁.world, l, c₂.world⟩ (by simp)
    rcases past with ⟨p₁, at_i, yields₁⟩ | ended
    · have inside : i < c₁.threads.length := (List.getElem?_eq_some_iff.1 at_i).1
      cases m with
      -- moves that leave the threads alone are beside it
      | drift d =>
        cases move
        exact .beside trans stable yields₁ (moved (by simp)) (by simp) rfl at_i
      -- a halt ends every thread
      | halt =>
        cases move
        exact .inr (.inr ⟨_, List.mem_append_right tr (List.mem_singleton_self _), rfl⟩)
      | start q' =>
        simp only [System.next] at move
        split at move
        · cases move
          refine .beside trans stable yields₁ (moved (by simp)) (by simp) rfl ?_
          rw [List.getElem?_append_left inside]
          exact at_i
        · cases move
      | step j o =>
        by_cases same : j = i
        · subst same
          simp only [System.next, System.advance, at_i] at move
          -- its own step: return, fail, or one action answered
          cases p₁ with
          | done a =>
            cases move
            exact .inr (.inl ⟨tr, _, [], .ok a, rfl, rfl, yields₁⟩)
          | fail e =>
            cases move
            exact .inr (.inl ⟨tr, _, [], .error e, rfl, rfl, yields₁⟩)
          | act a next =>
            cases move
            refine .inl ⟨_, List.getElem?_set_self inside, ?_⟩
            have answer := own ⟨c₁.world, .acted j ⟨a, (S.perform a o c₁.world).1⟩,
              (S.perform a o c₁.world).2⟩ (by simp) _ rfl
            rw [eventsOf_append, ← List.append_assoc]
            have one : eventsOf j [(⟨c₁.world, .acted j ⟨a, (S.perform a o c₁.world).1⟩,
                (S.perform a o c₁.world).2⟩ : Step A R ε ρ W D Q)] =
                  [⟨a, (S.perform a o c₁.world).1⟩] := by
              simp [eventsOf]
            rw [one]
            exact yields₁ _ _ ⟨c₁.world, refl _, answer⟩
        -- a step of another thread is beside it
        · simp only [System.next, System.advance] at move
          split at move
          all_goals cases move
          all_goals
            refine .beside trans stable yields₁ (moved (by simp [same])) (by simp [same]) rfl ?_
            rw [List.getElem?_set_ne same]
            exact at_i
    -- an ended thread stays ended
    · exact .snoc ended

/-- What is promised of a request amid `rely` holds when it returns in a run whose
steps beside it are in `rely`. -/
theorem Run.yields {w : W} {pre mid post : List (Step A R ε ρ W D Q)} {s t : Step A R ε ρ W D Q}
    {r : Except ε ρ} (run : Run S (System.boot w) (pre ++ s :: (mid ++ t :: post)) c)
    (trans : ∀ w₁ w₂ w₃, rely w₁ w₂ → rely w₂ w₃ → rely w₁ w₃) (refl : ∀ w, rely w w)
    (stable : ∀ w w' h r, rely w w' → P w h r → P w' h r) (starts : s.label = .started i q)
    (yields : Yields (Amid rely can) P (S.program q) s.before [])
    (returns : t.label = .returned i r)
    (beside : ∀ u ∈ mid, (∀ e, u.label ≠ .acted i e) → rely u.before u.after)
    (own : ∀ u ∈ mid, ∀ e : Event A R, u.label = .acted i e → can e.action u.before e.response u.after) :
    P t.before (eventsOf i mid) r := by
  obtain ⟨c₁, c₂, m, before, move, at_s, -, rest⟩ := Run.split run
  obtain ⟨c₃, mid_run, tail⟩ := Run.exists_prefix rest
  -- the request's thread is the one that `started` pushed
  have here : c₂.threads[i]? = some ⟨q, some (S.program q)⟩ ∧ c₂.world = s.before := by
    rw [starts] at move
    cases m with
    | start q' =>
      simp only [System.next] at move
      split at move
      · simp only [Option.some.injEq, Prod.mk.injEq, Label.started.injEq] at move
        obtain ⟨⟨rfl, rfl⟩, rfl⟩ := move
        exact ⟨List.getElem?_concat_length, at_s.symm⟩
      · cases move
    | drift d => simp [System.next] at move
    | halt => simp [System.next] at move
    | step j o =>
      simp only [System.next, System.advance] at move
      split at move <;> simp at move
  have whole : Run S (System.boot w) ((pre ++ s :: mid) ++ t :: post) c := by
    simpa using run
  have goes := mid_run.goes trans refl stable here.1 (by rw [here.2]; exact yields) beside own
  -- the thread goes on up to the return, or it has ended before
  rcases goes with ⟨p, at_i, yields'⟩ | ⟨a, u, b, r', split, ret, -⟩ | ⟨u, mem, halted⟩
  -- of the moves only a step of this thread returns it
  · obtain ⟨c₄, c₅, m', first, move', at_t, -, -⟩ :=
      Run.split (show Run S c₃ ([] ++ t :: post) c from tail)
    rw [Run.of_nil first] at move' at_t
    rw [returns] at move'
    cases m' with
    | start q' => simp only [System.next] at move'; split at move' <;> simp at move'
    | drift d => simp [System.next] at move'
    | halt => simp [System.next] at move'
    | step j o =>
      simp only [System.next, System.advance] at move'
      split at move'
      · next q₀ a at_j =>
        simp only [Option.some.injEq, Prod.mk.injEq, Label.returned.injEq] at move'
        obtain ⟨⟨rfl, rfl⟩, -⟩ := move'
        rw [at_i] at at_j
        cases at_j
        rw [at_t]
        rw [List.nil_append] at yields'
        exact yields'
      · next q₀ e at_j =>
        simp only [Option.some.injEq, Prod.mk.injEq, Label.returned.injEq] at move'
        obtain ⟨⟨rfl, rfl⟩, -⟩ := move'
        rw [at_i] at at_j
        cases at_j
        rw [at_t]
        rw [List.nil_append] at yields'
        exact yields'
      · simp at move'
      · cases move'
  -- an ended thread is silent, so it cannot return once more
  · have ended : Ended i (pre ++ s :: mid) := by
      refine ⟨pre ++ s :: a, u, b, by rw [split]; simp, .inl ⟨r', ret⟩⟩
    exact absurd returns ((Run.silent whole ended).2 r)
  · have ended : Ended i (pre ++ s :: mid) := by
      obtain ⟨a, b, rfl⟩ := List.append_of_mem mem
      refine ⟨pre ++ s :: a, u, b, by simp, .inr ⟨halted, q, s, by simp, starts⟩⟩
    exact absurd returns ((Run.silent whole ended).2 r)

end Runs

end GhostKey.Foundation

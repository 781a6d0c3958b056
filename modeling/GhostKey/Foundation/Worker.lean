import GhostKey.Foundation.Trace

/-!
# A Worker that Runs Alone and May Die

Where a request may start only while none is running, one program at a time works on
the world. Beside it the environment moves, and the process may halt between any two
of its actions, which leaves the world as the last action left it.

`Safe` is the weakest precondition for such a worker: at every moment of its run the
invariant holds, before every action what the worker owes, and at the end the
postcondition, whatever the environment does in between and whatever the answers are.

Main results:
- `Safe.bind`, `Safe.forEach`: the rules of the program constructors, the loop with an
  assertion about the rounds still to come; `Safe.drift`: safety outlasts the
  environment's moves.
- `Run.solo`: from programs that are safe whenever the world is at rest to the worlds
  of every run, `Run.solo_acted` and `Run.solo_returned` to its steps.
-/

namespace GhostKey.Foundation

open Program

variable {A : Type} {R : A → Type} {ε ρ W O D Q α β σ : Type}

/-! ## §1 The terms of work -/

/-- What a worker reckons with and what it answers for. -/
structure Terms (A : Type) (R : A → Type) (W : Type) where
  /-- What the environment may have made of the world. -/
  rely : W → W → Prop
  /-- What is granted about an answered action. -/
  grant : W → Event A R → W → Prop
  /-- What holds at every moment of the work. -/
  inv : W → Prop
  /-- What the worker owes before an action, after what it has heard. -/
  owes : W → History A R → A → Prop
  rely_refl : ∀ w, rely w w
  rely_trans : ∀ {u v w}, rely u v → rely v w → rely u w

namespace Program

/-- From `w`, the program keeps to the terms and ends in `post`. -/
def Safe (T : Terms A R W) (perform : (a : A) → O → W → R a × W)
    (post : W → History A R → Except ε α → Prop) : Program A R ε α → W → History A R → Prop
  | done a, w, h => ∀ w', T.rely w w' → T.inv w' ∧ post w' h (.ok a)
  | fail e, w, h => ∀ w', T.rely w w' → T.inv w' ∧ post w' h (.error e)
  | act a next, w, h => ∀ w', T.rely w w' → T.inv w' ∧ T.owes w' h a ∧
      ∀ o r w'', perform a o w' = (r, w'') → T.grant w' ⟨a, r⟩ w'' →
        Safe T perform post (next r) w'' (h ++ [⟨a, r⟩])

namespace Safe

variable {T : Terms A R W} {perform : (a : A) → O → W → R a × W}
variable {post : W → History A R → Except ε α → Prop}
variable {post' : W → History A R → Except ε β → Prop} {w : W} {h : History A R}

/-- The environment does not make a program unsafe. -/
theorem drift {p : Program A R ε α} {w' : W} (safe : Safe T perform post p w h)
    (moved : T.rely w w') : Safe T perform post p w' h := by
  cases p with
  | done a => exact fun w'' later => safe w'' (T.rely_trans moved later)
  | fail e => exact fun w'' later => safe w'' (T.rely_trans moved later)
  | act a next => exact fun w'' later => safe w'' (T.rely_trans moved later)

theorem inv {p : Program A R ε α} (safe : Safe T perform post p w h) : T.inv w := by
  cases p with
  | done a => exact (safe w (T.rely_refl w)).1
  | fail e => exact (safe w (T.rely_refl w)).1
  | act a next => exact (safe w (T.rely_refl w)).1

theorem weaken {p : Program A R ε α} {post₁ : W → History A R → Except ε α → Prop}
    (safe : Safe T perform post p w h) (weaker : ∀ w h r, post w h r → post₁ w h r) :
    Safe T perform post₁ p w h := by
  induction p generalizing w h with
  | done a => exact fun w' moved => (safe w' moved).imp_right (weaker w' h _)
  | fail e => exact fun w' moved => (safe w' moved).imp_right (weaker w' h _)
  | act a next ih =>
    intro w' moved
    obtain ⟨inv, owed, rest⟩ := safe w' moved
    exact ⟨inv, owed, fun o r w'' answer granted => ih r (rest o r w'' answer granted)⟩

/-- The rule of sequencing. -/
theorem bind {p : Program A R ε α} {f : α → Program A R ε β}
    (first : Safe T perform post p w h)
    (second : ∀ w g a, post w g (.ok a) → Safe T perform post' (f a) w g)
    (failed : ∀ w g e, post w g (.error e) → post' w g (.error e)) :
    Safe T perform post' (p.bind f) w h := by
  induction p generalizing w h with
  | done a => exact second w h a (first w (T.rely_refl w)).2
  | fail e =>
    intro w' moved
    obtain ⟨inv, ended⟩ := first w' moved
    exact ⟨inv, failed w' h e ended⟩
  | act a next ih =>
    intro w' moved
    obtain ⟨inv, owed, rest⟩ := first w' moved
    exact ⟨inv, owed, fun o r w'' answer granted => ih r (rest o r w'' answer granted)⟩

/-- The rule of loops: `L` speaks of the rounds still to come. -/
theorem forEach {L : List σ → W → History A R → Prop}
    {post : W → History A R → Except ε Unit → Prop} {body : σ → Program A R ε Unit}
    (round : ∀ x xs w h, L (x :: xs) w h →
      Safe T perform (fun w h r => match r with
        | .ok _ => L xs w h
        | .error e => post w h (.error e)) (body x) w h)
    (finish : ∀ w h, L [] w h → ∀ w', T.rely w w' → T.inv w' ∧ post w' h (.ok ())) :
    ∀ (xs : List σ) (w : W) (h : History A R), L xs w h →
      Safe T perform post (Program.forEach xs body) w h
  | [], w, h, start => finish w h start
  | x :: xs, w, h, start =>
    bind (round x xs w h start) (fun w h _ again => forEach round finish xs w h again)
      fun _ _ _ failed => failed

end Safe

end Program

/-! ## §2 Runs of a lone worker -/

/-- Nothing is running. -/
def Config.Idle (c : Config A R ε ρ W Q) : Prop :=
  ∀ (i : Nat) (q : Q) (p : Program A R ε ρ), c.threads[i]? ≠ some ⟨q, some p⟩

/-- How a lone worker works: in a world at rest its programs are safe and leave the world
at rest, and so do a halt that meets `C` and the environment. -/
structure Solo (S : System A R ε ρ W O D Q) (T : Terms A R W) (rest : W → Prop)
    (C : Step A R ε ρ W D Q → Prop) (post : W → History A R → Except ε ρ → Prop) : Prop where
  alone : ∀ q running, S.mayStart q running = true → running = []
  starts : ∀ q w, rest w → Program.Safe T S.perform post (S.program q) w []
  ends : ∀ w h r, post w h r → rest w
  inv : ∀ w, rest w → T.inv w
  grants : ∀ s i e, C s → s.label = .acted i e → T.grant s.before e s.after
  drifts : ∀ d w, T.rely w (S.drift d w)
  rests : ∀ d w, rest w → rest (S.drift d w)
  halts : ∀ s, C s → s.label = .halted → T.inv s.before → rest (S.restart s.before)

section Solo

variable {S : System A R ε ρ W O D Q} {T : Terms A R W} {rest : W → Prop}
variable {C : Step A R ε ρ W D Q → Prop} {post : W → History A R → Except ε ρ → Prop}
variable {c₀ c : Config A R ε ρ W Q} {tr pre tail : List (Step A R ε ρ W D Q)}
variable {s : Step A R ε ρ W D Q} {i : Nat}

/-- One thread is at work and safe, or none is and the world is at rest. -/
private def AtWork (T : Terms A R W) (S : System A R ε ρ W O D Q) (rest : W → Prop)
    (post : W → History A R → Except ε ρ → Prop) (tr : List (Step A R ε ρ W D Q))
    (c : Config A R ε ρ W Q) : Prop :=
  (∃ i q p, c.threads[i]? = some ⟨q, some p⟩ ∧
    Program.Safe T S.perform post p c.world (eventsOf i tr) ∧
    ∀ j q' p', c.threads[j]? = some ⟨q', some p'⟩ → j = i) ∨
  c.Idle ∧ rest c.world

/-- Nothing has been heard of the threads still to be started. -/
private def Unheard (tr : List (Step A R ε ρ W D Q)) (c : Config A R ε ρ W Q) : Prop :=
  ∀ i, c.threads.length ≤ i → eventsOf i tr = []

private theorem eventsOf_other (tr : List (Step A R ε ρ W D Q)) (s : Step A R ε ρ W D Q)
    (other : ∀ e, s.label ≠ .acted i e) : eventsOf i (tr ++ [s]) = eventsOf i tr := by
  have nothing : eventsOf i [s] = [] := by
    rw [List.eq_nil_iff_forall_not_mem]
    intro e mem
    obtain ⟨t, listed, label⟩ := mem_eventsOf.1 mem
    rw [List.mem_singleton] at listed
    exact other e (listed ▸ label)
  rw [eventsOf_append, nothing, List.append_nil]

/-- The one thread at work is the thread of the step. -/
private theorem AtWork.here (work : AtWork T S rest post tr c) {q : Q} {p : Program A R ε ρ}
    (at_i : c.threads[i]? = some ⟨q, some p⟩) :
    Program.Safe T S.perform post p c.world (eventsOf i tr) ∧
      ∀ j q' p', c.threads[j]? = some ⟨q', some p'⟩ → j = i := by
  rcases work with ⟨j, q', p', at_j, safe, only⟩ | ⟨idle, -⟩
  · cases only i q p at_i
    rw [at_i] at at_j
    cases at_j
    exact ⟨safe, only⟩
  · exact absurd at_i (idle i q p)

/-- The thread at work has stopped there. -/
private theorem AtWork.stop {q : Q} {w : W} (inside : i < c.threads.length)
    (only : ∀ j q' p', c.threads[j]? = some ⟨q', some p'⟩ → j = i) (settled : rest w) :
    AtWork T S rest post tr ⟨w, c.threads.set i ⟨q, none⟩⟩ := by
  refine .inr ⟨fun j q' p' at_j => ?_, settled⟩
  by_cases same : i = j
  · subst same
    rw [List.getElem?_set_self inside] at at_j
    cases at_j
  · rw [List.getElem?_set_ne same] at at_j
    exact same (only j q' p' at_j).symm

private theorem Run.atWork (solo : Solo S T rest C post) (idle : c₀.Idle) (start : rest c₀.world)
    (run : Run S c₀ tr c) (cond : ∀ s ∈ tr, C s) :
    AtWork T S rest post tr c ∧ Unheard tr c := by
  induction run with
  | nil => exact ⟨.inr ⟨idle, start⟩, fun _ _ => rfl⟩
  | @snoc tr c₁ c₂ m l run move ih =>
    obtain ⟨work, unheard⟩ := ih fun s mem => cond s (List.mem_append_left _ mem)
    have last := cond ⟨c₁.world, l, c₂.world⟩ (by simp)
    cases m with
    | start q =>
      simp only [System.next] at move
      split at move
      · next allowed =>
        cases move
        -- a thread starts only alone, and it has heard nothing yet
        have none_running := solo.alone q _ allowed
        have silent : ∀ j, eventsOf j (tr ++ [_]) = eventsOf j tr := fun j =>
          eventsOf_other tr ⟨c₁.world, .started c₁.threads.length q, c₁.world⟩ (by simp)
        -- nothing was running, so the world was at rest
        have idle : c₁.Idle := by
          intro j q' p at_j
          have running : q' ∈ (c₁.threads.filter Thread.running).map Thread.request :=
            List.mem_map.2 ⟨⟨q', some p⟩,
              List.mem_filter.2 ⟨List.mem_of_getElem? at_j, rfl⟩, rfl⟩
          rw [none_running] at running
          cases running
        have settled : rest c₁.world := by
          rcases work with ⟨j, q', p, at_j, -, -⟩ | ⟨-, settled⟩
          · exact absurd at_j (idle j q' p)
          · exact settled
        refine ⟨.inl ⟨c₁.threads.length, q, _, List.getElem?_concat_length, ?_, ?_⟩, ?_⟩
        · rw [silent, unheard _ (Nat.le_refl _)]
          exact solo.starts q c₁.world settled
        · intro j q' p' at_j
          rcases Nat.lt_trichotomy j c₁.threads.length with old | new | beyond
          · rw [List.getElem?_append_left old] at at_j
            exact absurd at_j (idle j q' p')
          · exact new
          · rw [List.getElem?_eq_none (by rw [List.length_append]; exact beyond)] at at_j
            cases at_j
        · intro j beyond
          rw [silent]
          rw [List.length_append] at beyond
          exact unheard j (Nat.le_of_lt beyond)
      · cases move
    | drift d =>
      -- safety and rest outlast the environment's moves
      cases move
      have silent : ∀ j, eventsOf j (tr ++ [_]) = eventsOf j tr := fun j =>
        eventsOf_other tr ⟨c₁.world, .drifted d, S.drift d c₁.world⟩ (by simp)
      refine ⟨?_, fun j beyond => by rw [silent]; exact unheard j beyond⟩
      rcases work with ⟨j, q, p, at_j, safe, only⟩ | ⟨idle, settled⟩
      · exact .inl ⟨j, q, p, at_j, by rw [silent]; exact safe.drift (solo.drifts d _), only⟩
      · exact .inr ⟨idle, solo.rests d _ settled⟩
    | halt =>
      -- the invariant of the thread at work is all a halt leaves
      cases move
      have silent : ∀ j, eventsOf j (tr ++ [_]) = eventsOf j tr := fun j =>
        eventsOf_other tr ⟨c₁.world, .halted, S.restart c₁.world⟩ (by simp)
      refine ⟨.inr ⟨fun j q p at_j => ?_, ?_⟩, fun j beyond => ?_⟩
      · rw [List.getElem?_map, Option.map_eq_some_iff] at at_j
        obtain ⟨t, -, killed⟩ := at_j
        cases killed
      · refine solo.halts _ last rfl ?_
        rcases work with ⟨j, q, p, -, safe, -⟩ | ⟨-, settled⟩
        · exact safe.inv
        · exact solo.inv _ settled
      · rw [silent]
        rw [List.length_map] at beyond
        exact unheard j beyond
    | step j o =>
      simp only [System.next, System.advance] at move
      split at move
      -- the thread returns, fails, or performs its next action
      · next q a at_j =>
        cases move
        obtain ⟨safe, only⟩ := work.here at_j
        have inside := (List.getElem?_eq_some_iff.1 at_j).1
        refine ⟨.stop inside only (solo.ends _ _ _ (safe _ (T.rely_refl _)).2), fun n beyond => ?_⟩
        rw [eventsOf_other tr _ (by simp)]
        exact unheard n (by simpa using beyond)
      · next q e at_j =>
        cases move
        obtain ⟨safe, only⟩ := work.here at_j
        have inside := (List.getElem?_eq_some_iff.1 at_j).1
        refine ⟨.stop inside only (solo.ends _ _ _ (safe _ (T.rely_refl _)).2), fun n beyond => ?_⟩
        rw [eventsOf_other tr _ (by simp)]
        exact unheard n (by simpa using beyond)
      · next q a go at_j =>
        cases move
        obtain ⟨safe, only⟩ := work.here at_j
        have inside := (List.getElem?_eq_some_iff.1 at_j).1
        obtain ⟨-, -, goes_on⟩ := safe _ (T.rely_refl _)
        refine ⟨.inl ⟨j, q, _, List.getElem?_set_self inside, ?_, ?_⟩, ?_⟩
        · have mine : eventsOf j [(⟨c₁.world, .acted j ⟨a, (S.perform a o c₁.world).1⟩,
              (S.perform a o c₁.world).2⟩ : Step A R ε ρ W D Q)] =
              [⟨a, (S.perform a o c₁.world).1⟩] := by simp [eventsOf]
          rw [eventsOf_append, mine]
          exact goes_on o _ _ rfl (solo.grants _ j _ last rfl)
        · intro n q' p' at_n
          by_cases same : n = j
          · exact same
          · rw [List.getElem?_set_ne (Ne.symm same)] at at_n
            exact only n q' p' at_n
        · intro n beyond
          rw [List.length_set] at beyond
          have other : n ≠ j := by omega
          rw [eventsOf_other tr _ (by simpa using fun same => absurd same.symm other)]
          exact unheard n beyond
      · cases move

/-- The invariant holds in every world of the run, and rest in those in which nothing runs. -/
theorem Run.solo (solo : Solo S T rest C post) (idle : c₀.Idle) (start : rest c₀.world)
    (run : Run S c₀ tr c) (cond : ∀ s ∈ tr, C s) :
    T.inv c.world ∧ (c.Idle → rest c.world) := by
  rcases (run.atWork solo idle start cond).1 with ⟨i, q, p, at_i, safe, -⟩ | ⟨-, settled⟩
  · exact ⟨safe.inv, fun idle => absurd at_i (idle i q p)⟩
  · exact ⟨solo.inv _ settled, fun _ => settled⟩

/-- Before each of its actions the worker has done what it owes. -/
theorem Run.solo_acted (solo : Solo S T rest C post) (idle : c₀.Idle) (start : rest c₀.world)
    (run : Run S c₀ (pre ++ s :: tail) c) (cond : ∀ s ∈ pre ++ s :: tail, C s)
    {e : Event A R} (label : s.label = .acted i e) :
    T.owes s.before (eventsOf i pre) e.action := by
  obtain ⟨c₁, c₂, m, before, move, world, -, -⟩ := run.split
  have past : ∀ t ∈ pre, C t := fun t mem => cond t (List.mem_append_left _ mem)
  have work := (before.atWork solo idle start past).1
  rw [label] at move
  cases m with
  | start q => simp only [System.next] at move; split at move <;> simp at move
  | drift d => simp [System.next] at move
  | halt => simp [System.next] at move
  | step j o =>
    simp only [System.next, System.advance] at move
    split at move
    · simp at move
    · simp at move
    · next q a go at_j =>
      simp only [Option.some.injEq, Prod.mk.injEq, Label.acted.injEq] at move
      obtain ⟨⟨rfl, rfl⟩, -⟩ := move
      rw [world]
      exact ((work.here at_j).1 _ (T.rely_refl _)).2.1
    · cases move

/-- What the worker returns with meets the postcondition. -/
theorem Run.solo_returned (solo : Solo S T rest C post) (idle : c₀.Idle)
    (start : rest c₀.world) (run : Run S c₀ (pre ++ s :: tail) c)
    (cond : ∀ s ∈ pre ++ s :: tail, C s) {r : Except ε ρ} (label : s.label = .returned i r) :
    post s.before (eventsOf i pre) r := by
  obtain ⟨c₁, c₂, m, before, move, world, -, -⟩ := run.split
  have past : ∀ t ∈ pre, C t := fun t mem => cond t (List.mem_append_left _ mem)
  have work := (before.atWork solo idle start past).1
  rw [label] at move
  cases m with
  | start q => simp only [System.next] at move; split at move <;> simp at move
  | drift d => simp [System.next] at move
  | halt => simp [System.next] at move
  | step j o =>
    simp only [System.next, System.advance] at move
    split at move
    · next q a at_j =>
      simp only [Option.some.injEq, Prod.mk.injEq, Label.returned.injEq] at move
      obtain ⟨⟨rfl, rfl⟩, -⟩ := move
      rw [world]
      exact ((work.here at_j).1 _ (T.rely_refl _)).2
    · next q e at_j =>
      simp only [Option.some.injEq, Prod.mk.injEq, Label.returned.injEq] at move
      obtain ⟨⟨rfl, rfl⟩, -⟩ := move
      rw [world]
      exact ((work.here at_j).1 _ (T.rely_refl _)).2
    · simp at move
    · cases move

end Solo

end GhostKey.Foundation

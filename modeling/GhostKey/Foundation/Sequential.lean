import GhostKey.Foundation.Interleaving

/-!
# One Program Alone

What a program does when nothing else runs. `alone` computes it for a stream of
oracles; `Yields` is the weakest precondition over every answer a relation `can`
allows, so a deployment with a reliable or an honest service is a choice of `can`.

Main results:
- `Yields.bind`, `Yields.attempt`, `Yields.forEach`: the rules of the program
  constructors.
- `Yields.of_meets`: a program that keeps to a kind of action keeps what those
  actions keep.
- `Yields.alone`: what `Yields` promises, `alone` computes.
- `Run.of_alone`: what a request does alone, it does in an interleaved run.
- `atOnce_bind`, `atOnce_attempt`: the outcome at one moment, `atOnce`, by the program
  constructors; `alone_eq_atOnce` says it is what `alone` computes.
-/

namespace GhostKey.Foundation

variable {A : Type} {R : A → Type} {ε ε' ρ W O D Q α β σ : Type}

/-- How a program that ran alone came out, and what it has done. -/
structure Outcome (A : Type) (R : A → Type) (ε α W : Type) where
  result : Except ε α
  world : W
  history : History A R

namespace Program

/-- Run to the end, the `n`-th action answered with the help of `os n`. -/
def alone (perform : (a : A) → O → W → R a × W) :
    Program A R ε α → (Nat → O) → W → History A R → Outcome A R ε α W
  | done a, _, w, h => ⟨.ok a, w, h⟩
  | fail e, _, w, h => ⟨.error e, w, h⟩
  | act a next, os, w, h =>
      (next (perform a (os 0) w).1).alone perform (fun n => os (n + 1)) (perform a (os 0) w).2
        (h ++ [⟨a, (perform a (os 0) w).1⟩])

/-- The outcome and the world it leaves, every action answered with the help of one `o`. -/
def atOnce (perform : (a : A) → O → W → R a × W) (o : O) :
    Program A R ε α → W → Except ε α × W
  | done a, w => (.ok a, w)
  | fail e, w => (.error e, w)
  | act a next, w => (next (perform a o w).1).atOnce perform o (perform a o w).2

section AtOnce

variable {perform : (a : A) → O → W → R a × W} {o : O}

@[simp] theorem atOnce_done (a : α) (w : W) :
    (done a : Program A R ε α).atOnce perform o w = (.ok a, w) := rfl

@[simp] theorem atOnce_fail (e : ε) (w : W) :
    (fail e : Program A R ε α).atOnce perform o w = (.error e, w) := rfl

theorem atOnce_bind (p : Program A R ε α) (f : α → Program A R ε β) (w : W) :
    (p.bind f).atOnce perform o w =
      match p.atOnce perform o w with
      | (.ok a, w') => (f a).atOnce perform o w'
      | (.error e, w') => (.error e, w') := by
  induction p generalizing w with
  | done a => rfl
  | fail e => rfl
  | act a next ih => exact ih _ _

/-- A sequence succeeds when its parts do, one after the other. -/
theorem atOnce_bind_eq_ok {p : Program A R ε α} {f : α → Program A R ε β} {w w' : W} {b : β} :
    (p.bind f).atOnce perform o w = (.ok b, w') ↔
      ∃ a w₁, p.atOnce perform o w = (.ok a, w₁) ∧ (f a).atOnce perform o w₁ = (.ok b, w') := by
  rw [atOnce_bind]
  constructor
  · intro came
    split at came
    · next a w₁ first => exact ⟨a, w₁, first, came⟩
    · cases came
  · rintro ⟨a, w₁, first, rest⟩
    rw [first]
    exact rest

/-- What every action keeps, the program keeps. -/
theorem atOnce_keeps {I : W → Prop} {ok : A → Prop} {p : Program A R ε α} (only : p.Only ok)
    (kept : ∀ a w, ok a → I w → I (perform a o w).2) {w : W} (init : I w) :
    I (p.atOnce perform o w).2 := by
  induction p generalizing w with
  | done a => exact init
  | fail e => exact init
  | act a next ih => exact ih _ (only.2 _) (kept a w only.1 init)

theorem atOnce_attempt (p : Program A R ε α) (w : W) :
    (p.attempt : Program A R ε' (Except ε α)).atOnce perform o w =
      (.ok (p.atOnce perform o w).1, (p.atOnce perform o w).2) := by
  induction p generalizing w with
  | done a => rfl
  | fail e => rfl
  | act a next ih => exact ih _ _

theorem alone_eq_atOnce (p : Program A R ε α) (w : W) (h : History A R) :
    ((p.alone perform (fun _ => o) w h).result, (p.alone perform (fun _ => o) w h).world) =
      p.atOnce perform o w := by
  induction p generalizing w h with
  | done a => rfl
  | fail e => rfl
  | act a next ih => exact ih _ _ _

end AtOnce

/-- However the actions are answered within `can`, the program ends in a world,
with a history and with an outcome that satisfy `P`. -/
def Yields (can : (a : A) → W → R a → W → Prop) (P : W → History A R → Except ε α → Prop) :
    Program A R ε α → W → History A R → Prop
  | done a, w, h => P w h (.ok a)
  | fail e, w, h => P w h (.error e)
  | act a next, w, h => ∀ r w', can a w r w' → Yields can P (next r) w' (h ++ [⟨a, r⟩])

namespace Yields

variable {can : (a : A) → W → R a → W → Prop} {P : W → History A R → Except ε α → Prop}
  {P' : W → History A R → Except ε β → Prop} {w : W} {h : History A R}

theorem mono {P' : W → History A R → Except ε α → Prop} {p : Program A R ε α}
    (yields : Yields can P p w h) (weaker : ∀ w h r, P w h r → P' w h r) :
    Yields can P' p w h := by
  induction p generalizing w h with
  | done a => exact weaker w h _ yields
  | fail e => exact weaker w h _ yields
  | act a next ih => exact fun r w' step => ih r (yields r w' step)

/-- The rule of sequencing. -/
theorem bind {p : Program A R ε α} {f : α → Program A R ε β} (first : Yields can P p w h)
    (next : ∀ w h a, P w h (.ok a) → Yields can P' (f a) w h)
    (failed : ∀ w h e, P w h (.error e) → P' w h (.error e)) :
    Yields can P' (p.bind f) w h := by
  induction p generalizing w h with
  | done a => exact next w h a first
  | fail e => exact failed w h e first
  | act a rest ih => exact fun r w' step => ih r (first r w' step)

theorem attempt {P' : W → History A R → Except ε' (Except ε α) → Prop} {p : Program A R ε α}
    (yields : Yields can P p w h) (outcomes : ∀ w h r, P w h r → P' w h (.ok r)) :
    Yields can P' (p.attempt : Program A R ε' (Except ε α)) w h := by
  induction p generalizing w h with
  | done a => exact outcomes w h _ yields
  | fail e => exact outcomes w h _ yields
  | act a rest ih => exact fun r w' step => ih r (yields r w' step)

/-- The rule of loops: `L` speaks of the elements still to come. -/
theorem forEach {L : List σ → W → History A R → Prop}
    {P : W → History A R → Except ε Unit → Prop} {body : σ → Program A R ε Unit}
    (round : ∀ x xs w h, L (x :: xs) w h →
      Yields can (fun w h r => match r with | .ok _ => L xs w h | .error e => P w h (.error e))
        (body x) w h)
    (finish : ∀ w h, L [] w h → P w h (.ok ())) :
    ∀ (xs : List σ) (w : W) (h : History A R), L xs w h → Yields can P (Program.forEach xs body) w h
  | [], w, h, start => finish w h start
  | x :: xs, w, h, start =>
    bind (round x xs w h start) (fun w h _ again => forEach round finish xs w h again)
      fun _ _ _ failed => failed

/-- What the actions of a kind keep, a program of that kind keeps. -/
theorem of_meets {I : W → Prop} {K : A → Prop} {F : History A R → Except ε α → Prop}
    {p : Program A R ε α} (meets : p.Meets (fun _ e => K e.action) F h)
    (kept : ∀ a w r w', K a → can a w r w' → I w → I w') (init : I w) :
    Yields can (fun w h r => I w ∧ F h r) p w h := by
  induction p generalizing w h with
  | done a => exact ⟨init, meets⟩
  | fail e => exact ⟨init, meets⟩
  | act a next ih =>
    intro r w' step
    obtain ⟨kind, rest⟩ := meets r
    exact ih r rest (kept a w r w' kind step init)

/-- What the actions of a kind keep, a program that is sure to keep to them keeps,
and it succeeds. -/
theorem of_sure {I : W → Prop} {ok : A → Prop} {p : Program A R ε α} (sure : p.Sure ok)
    (kept : ∀ a w r w', ok a → can a w r w' → I w → I w') (init : I w) :
    Yields can (fun w _ r => I w ∧ ∃ a, r = .ok a) p w h := by
  induction p generalizing w h with
  | done a => exact ⟨init, a, rfl⟩
  | fail e => exact sure.elim
  | act a next ih =>
    exact fun r w' step => ih r (sure.2 r) (kept a w r w' sure.1 step init)

theorem and {P' : W → History A R → Except ε α → Prop} {p : Program A R ε α}
    (left : Yields can P p w h) (right : Yields can P' p w h) :
    Yields can (fun w h r => P w h r ∧ P' w h r) p w h := by
  induction p generalizing w h with
  | done a => exact ⟨left, right⟩
  | fail e => exact ⟨left, right⟩
  | act a next ih => exact fun r w' step => ih r (left r w' step) (right r w' step)

/-- What is promised for every answer holds of the computed outcome. -/
theorem alone {perform : (a : A) → O → W → R a × W} {p : Program A R ε α}
    (yields : Yields can P p w h) {os : Nat → O}
    (answers : ∀ n a w, can a w (perform a (os n) w).1 (perform a (os n) w).2) :
    P (p.alone perform os w h).world (p.alone perform os w h).history
      (p.alone perform os w h).result := by
  induction p generalizing os w h with
  | done a => exact yields
  | fail e => exact yields
  | act a next ih =>
    exact ih _ (yields _ _ (answers 0 a w)) fun n a w => answers (n + 1) a w

end Yields

end Program

/-- A request that runs alone from here is a run: it ends with the same outcome
and leaves the same world. -/
theorem Run.of_alone {S : System A R ε ρ W O D Q} {q : Q} {i : Nat} (p : Program A R ε ρ)
    (os : Nat → O) (c : Config A R ε ρ W Q) (h : History A R)
    (here : c.threads[i]? = some ⟨q, some p⟩) :
    ∃ tr c', Run S c tr c' ∧ c'.world = (p.alone S.perform os c.world h).world ∧
      ∃ s ∈ tr, s.label = .returned i (p.alone S.perform os c.world h).result := by
  -- by induction on what is left of the program
  induction p generalizing os c h with
  | done a =>
    have move : S.next (.step i (os 0)) c =
        some (.returned i (.ok a), { c with threads := c.threads.set i ⟨q, none⟩ }) := by
      simp [System.next, System.advance, here]
    exact ⟨_, _, .snoc .nil move, rfl, _, List.mem_singleton_self _, rfl⟩
  | fail e =>
    have move : S.next (.step i (os 0)) c =
        some (.returned i (.error e), { c with threads := c.threads.set i ⟨q, none⟩ }) := by
      simp [System.next, System.advance, here]
    exact ⟨_, _, .snoc .nil move, rfl, _, List.mem_singleton_self _, rfl⟩
  | act a next ih =>
    have move : S.next (.step i (os 0)) c =
        some (.acted i ⟨a, (S.perform a (os 0) c.world).1⟩,
          ⟨(S.perform a (os 0) c.world).2,
            c.threads.set i ⟨q, some (next (S.perform a (os 0) c.world).1)⟩⟩) := by
      simp [System.next, System.advance, here]
    have inside := (List.getElem?_eq_some_iff.1 here).1
    obtain ⟨tr, c', rest, world, s, mem, label⟩ :=
      ih (S.perform a (os 0) c.world).1 (fun n => os (n + 1))
        ⟨(S.perform a (os 0) c.world).2,
          c.threads.set i ⟨q, some (next (S.perform a (os 0) c.world).1)⟩⟩
        (h ++ [⟨a, (S.perform a (os 0) c.world).1⟩]) (List.getElem?_set_self inside)
    have one : Run S c [_] _ := .snoc .nil move
    exact ⟨_, c', one.trans rest, world, s, List.mem_append_right _ mem, label⟩

end GhostKey.Foundation

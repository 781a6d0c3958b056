import GhostKey.Foundation.Program
import Mathlib.Data.List.Induction

/-!
# Interleaved Runs of Programs over One World

A `System` runs any number of programs against one shared world. A step starts
a new request, performs the next action of one running request, lets a request
that is at its end return, lets the environment change the world, or halts the
process, which ends every running request where it stands. Every order of steps
is a run, so a statement about all runs is a statement about all interleavings.

Layers:
1. `System`, `Config`, `Move`: the executable step function `System.next`.
2. `Run`: the runs from a configuration, with the trace of their steps.
3. The rules: `Run.acted` and `Run.returned` carry what a program `Meets` over
   to the trace of a run; `Run.silent` says that a thread that has ended is heard
   of no more.
-/

namespace GhostKey.Foundation

open Program

/-! ## §1 Systems and their step function -/

/-- How requests are turned into programs and how the world answers actions.
`O` is what an action's answer depends on beside the world, `D` what the
environment may do by itself, `restart` what is lost when the process halts. -/
structure System (A : Type) (R : A → Type) (ε ρ W O D Q : Type) where
  program : Q → Program A R ε ρ
  mayStart : Q → List Q → Bool
  perform : (a : A) → O → W → R a × W
  drift : D → W → W
  restart : W → W

/-- A request and what is left of its program; `none` once it has returned. -/
structure Thread (A : Type) (R : A → Type) (ε ρ Q : Type) where
  request : Q
  rest : Option (Program A R ε ρ)

structure Config (A : Type) (R : A → Type) (ε ρ W Q : Type) where
  world : W
  threads : List (Thread A R ε ρ Q)

inductive Move (O D Q : Type) where
  | start (q : Q)
  | step (i : Nat) (o : O)
  | drift (d : D)
  | halt

/-- What a step did. Threads are named by their starting order. -/
inductive Label (A : Type) (R : A → Type) (ε ρ D Q : Type) where
  | started (i : Nat) (q : Q)
  | acted (i : Nat) (e : Event A R)
  | returned (i : Nat) (r : Except ε ρ)
  | drifted (d : D)
  | halted

/-- One entry of a trace: the world on both sides of a step. -/
structure Step (A : Type) (R : A → Type) (ε ρ W D Q : Type) where
  before : W
  label : Label A R ε ρ D Q
  after : W

variable {A : Type} {R : A → Type} {ε ρ W O D Q : Type}

namespace Thread

def running (t : Thread A R ε ρ Q) : Bool := t.rest.isSome

/-- The thread as the halt of the process leaves it. -/
def killed (t : Thread A R ε ρ Q) : Thread A R ε ρ Q := ⟨t.request, none⟩

end Thread

namespace System

variable (S : System A R ε ρ W O D Q)

/-- No request has been made yet. -/
def boot (w : W) : Config A R ε ρ W Q := ⟨w, []⟩

/-- The next step of thread `i`. -/
def advance (i : Nat) (o : O) (c : Config A R ε ρ W Q) :
    Option (Label A R ε ρ D Q × Config A R ε ρ W Q) :=
  match c.threads[i]? with
  | some ⟨q, some (.done a)⟩ =>
      some (.returned i (.ok a), { c with threads := c.threads.set i ⟨q, none⟩ })
  | some ⟨q, some (.fail e)⟩ =>
      some (.returned i (.error e), { c with threads := c.threads.set i ⟨q, none⟩ })
  | some ⟨q, some (.act a next)⟩ =>
      let answer := S.perform a o c.world
      some (.acted i ⟨a, answer.1⟩,
        ⟨answer.2, c.threads.set i ⟨q, some (next answer.1)⟩⟩)
  | _ => none

/-- The configuration a move leads to; `none` when it is not enabled. -/
def next (m : Move O D Q) (c : Config A R ε ρ W Q) :
    Option (Label A R ε ρ D Q × Config A R ε ρ W Q) :=
  match m with
  | .start q =>
      if S.mayStart q ((c.threads.filter Thread.running).map Thread.request) then
        some (.started c.threads.length q,
          { c with threads := c.threads ++ [⟨q, some (S.program q)⟩] })
      else none
  | .step i o => S.advance i o c
  | .drift d => some (.drifted d, { c with world := S.drift d c.world })
  | .halt => some (.halted, ⟨S.restart c.world, c.threads.map Thread.killed⟩)

end System

/-! ## §2 Runs -/

/-- The runs from `c₀`, with their traces. -/
inductive Run (S : System A R ε ρ W O D Q) (c₀ : Config A R ε ρ W Q) :
    List (Step A R ε ρ W D Q) → Config A R ε ρ W Q → Prop
  | nil : Run S c₀ [] c₀
  | snoc {tr : List (Step A R ε ρ W D Q)} {c c' : Config A R ε ρ W Q} {m : Move O D Q}
      {l : Label A R ε ρ D Q} :
      Run S c₀ tr c → S.next m c = some (l, c') →
        Run S c₀ (tr ++ [⟨c.world, l, c'.world⟩]) c'

/-- What a label says about the worlds on both sides of a step. -/
def System.Explains (S : System A R ε ρ W O D Q) (s : Step A R ε ρ W D Q) : Prop :=
  match s.label with
  | .acted _ e => ∃ o, S.perform e.action o s.before = (e.response, s.after)
  | .drifted d => s.after = S.drift d s.before
  | .halted => s.after = S.restart s.before
  | _ => s.after = s.before

/-- The events of thread `i` in a trace. -/
def eventsOf (i : Nat) (tr : List (Step A R ε ρ W D Q)) : History A R :=
  tr.filterMap fun s => match s.label with
    | .acted j e => if j = i then some e else none
    | _ => none

/-- The thread `i` was started for the request `q`. -/
def Started (i : Nat) (q : Q) (tr : List (Step A R ε ρ W D Q)) : Prop :=
  ∃ s ∈ tr, s.label = .started i q

/-- The thread `i` has returned, or the process was halted while it was there. -/
def Ended (i : Nat) (tr : List (Step A R ε ρ W D Q)) : Prop :=
  ∃ pre s post, tr = pre ++ s :: post ∧
    ((∃ r, s.label = .returned i r) ∨ s.label = .halted ∧ ∃ q, Started i q pre)

/-- Perform a list of moves; `none` when one of them is not enabled. -/
def System.play (S : System A R ε ρ W O D Q) :
    List (Move O D Q) → Config A R ε ρ W Q →
      Option (List (Step A R ε ρ W D Q) × Config A R ε ρ W Q)
  | [], c => some ([], c)
  | m :: ms, c =>
      match S.next m c with
      | none => none
      | some (l, c') =>
          match S.play ms c' with
          | none => none
          | some (tr, c'') => some (⟨c.world, l, c'.world⟩ :: tr, c'')

namespace Run

variable {S : System A R ε ρ W O D Q} {c₀ c : Config A R ε ρ W Q}
variable {tr : List (Step A R ε ρ W D Q)}

theorem trans {c' : Config A R ε ρ W Q} {tr' : List (Step A R ε ρ W D Q)}
    (first : Run S c₀ tr c) (second : Run S c tr' c') : Run S c₀ (tr ++ tr') c' := by
  induction second with
  | nil => rw [List.append_nil]; exact first
  | snoc _ move ih =>
    rw [← List.append_assoc]
    exact snoc ih move

/-- What `play` computes is a run. -/
theorem of_play {ms : List (Move O D Q)} (played : S.play ms c₀ = some (tr, c)) :
    Run S c₀ tr c := by
  induction ms generalizing c₀ tr with
  | nil =>
    simp only [System.play, Option.some.injEq, Prod.mk.injEq] at played
    obtain ⟨rfl, rfl⟩ := played
    exact nil
  | cons m ms ih =>
    unfold System.play at played
    split at played
    · cases played
    · next l c' move =>
      split at played
      · cases played
      · next rest c'' tail =>
        simp only [Option.some.injEq, Prod.mk.injEq] at played
        obtain ⟨rfl, rfl⟩ := played
        have one : Run S c₀ [⟨c₀.world, l, c'.world⟩] c' := snoc nil move
        exact one.trans (ih tail)

/-- A played run with a property the kernel can compute. -/
theorem exists_of_play {ms : List (Move O D Q)}
    {P : List (Step A R ε ρ W D Q) → Config A R ε ρ W Q → Bool}
    (check : (S.play ms c₀).any (fun r => P r.1 r.2) = true) :
    ∃ tr c, Run S c₀ tr c ∧ P tr c = true := by
  cases played : S.play ms c₀ with
  | none => rw [played] at check; cases check
  | some r =>
    rw [played] at check
    exact ⟨r.1, r.2, of_play played, check⟩

/-! ## §3 Where a step stands in its run -/

/-- An empty trace leads nowhere. -/
theorem of_nil (run : Run S c₀ [] c) : c = c₀ := by
  generalize empty : ([] : List (Step A R ε ρ W D Q)) = tr at run
  cases run with
  | nil => rfl
  | snoc => simp at empty

/-- A step of a run is a move between the worlds before and after it. -/
theorem split {pre post : List (Step A R ε ρ W D Q)} {s : Step A R ε ρ W D Q}
    (run : Run S c₀ (pre ++ s :: post) c) :
    ∃ c₁ c₂ m, Run S c₀ pre c₁ ∧ S.next m c₁ = some (s.label, c₂) ∧
      s.before = c₁.world ∧ s.after = c₂.world ∧ Run S c₂ post c := by
  generalize whole : pre ++ s :: post = tr at run
  induction run generalizing post with
  | nil => simp at whole
  | @snoc tr c₁ c₂ m l run move ih =>
    rcases List.eq_nil_or_concat' post with rfl | ⟨front, last, rfl⟩
    · obtain ⟨rfl, step⟩ := List.append_inj' whole rfl
      simp only [List.cons.injEq, and_true] at step
      subst step
      exact ⟨c₁, c₂, m, run, move, rfl, rfl, nil⟩
    · rw [← List.cons_append, ← List.append_assoc] at whole
      obtain ⟨body, step⟩ := List.append_inj' whole rfl
      obtain ⟨d₁, d₂, m', before, here, hb, ha, rest⟩ := ih body
      simp only [List.cons.injEq, and_true] at step
      subst step
      exact ⟨d₁, d₂, m', before, here, hb, ha, snoc rest move⟩

/-- A prefix of a run is a run. -/
theorem exists_prefix {pre post : List (Step A R ε ρ W D Q)} (run : Run S c₀ (pre ++ post) c) :
    ∃ c', Run S c₀ pre c' ∧ Run S c' post c := by
  cases post with
  | nil =>
    rw [List.append_nil] at run
    exact ⟨c, run, nil⟩
  | cons s post =>
    obtain ⟨c₁, c₂, m, before, here, hb, ha, rest⟩ := split run
    have one : Run S c₁ [⟨c₁.world, s.label, c₂.world⟩] c₂ := snoc nil here
    have same : s = ⟨c₁.world, s.label, c₂.world⟩ := by
      rw [← hb, ← ha]
    rw [same]
    exact ⟨c₁, before, one.trans rest⟩

theorem explained {s : Step A R ε ρ W D Q} {m : Move O D Q} {c₁ c₂ : Config A R ε ρ W Q}
    (step : S.next m c₁ = some (s.label, c₂)) (hb : s.before = c₁.world)
    (ha : s.after = c₂.world) : S.Explains s := by
  obtain ⟨before, label, after⟩ := s
  simp only at step hb ha
  subst hb ha
  -- one case per move, read off its definition
  cases m with
  | start q =>
    simp only [System.next] at step
    split at step
    · simp only [Option.some.injEq, Prod.mk.injEq] at step
      obtain ⟨rfl, rfl⟩ := step
      rfl
    · cases step
  | step i o =>
    simp only [System.next, System.advance] at step
    split at step
    · simp only [Option.some.injEq, Prod.mk.injEq] at step
      obtain ⟨rfl, rfl⟩ := step
      rfl
    · simp only [Option.some.injEq, Prod.mk.injEq] at step
      obtain ⟨rfl, rfl⟩ := step
      rfl
    · simp only [Option.some.injEq, Prod.mk.injEq] at step
      obtain ⟨rfl, rfl⟩ := step
      exact ⟨o, rfl⟩
    · cases step
  | drift d =>
    simp only [System.next, Option.some.injEq, Prod.mk.injEq] at step
    obtain ⟨rfl, rfl⟩ := step
    rfl
  | halt =>
    simp only [System.next, Option.some.injEq, Prod.mk.injEq] at step
    obtain ⟨rfl, rfl⟩ := step
    rfl

theorem explains {pre post : List (Step A R ε ρ W D Q)} {s : Step A R ε ρ W D Q}
    (run : Run S c₀ (pre ++ s :: post) c) : S.Explains s := by
  obtain ⟨c₁, c₂, m, _, step, hb, ha, _⟩ := split run
  exact explained step hb ha

/-- Two neighbouring steps share the world between them. -/
theorem after_eq_before {pre post : List (Step A R ε ρ W D Q)} {s t : Step A R ε ρ W D Q}
    (run : Run S c₀ (pre ++ s :: t :: post) c) : s.after = t.before := by
  obtain ⟨c₁, c₂, m, _, _, _, ha, rest⟩ := split run
  obtain ⟨d₁, d₂, m', at_start, _, hb, _, _⟩ :=
    split (show Run S c₂ ([] ++ t :: post) c from rest)
  rw [hb, of_nil at_start]
  exact ha

end Run

/-! ## §4 From programs to runs -/

theorem eventsOf_append (i : Nat) (tr tr' : List (Step A R ε ρ W D Q)) :
    eventsOf i (tr ++ tr') = eventsOf i tr ++ eventsOf i tr' :=
  List.filterMap_append

/-- An event of a thread is an entry of the trace. -/
theorem mem_eventsOf {i : Nat} {tr : List (Step A R ε ρ W D Q)} {e : Event A R} :
    e ∈ eventsOf i tr ↔ ∃ s ∈ tr, s.label = .acted i e := by
  simp only [eventsOf, List.mem_filterMap]
  constructor
  · rintro ⟨s, mem, got⟩
    refine ⟨s, mem, ?_⟩
    split at got
    · next j e' label =>
      split at got
      · next same => cases got; rw [label, same]
      · cases got
    · cases got
  · rintro ⟨s, mem, label⟩
    exact ⟨s, mem, by simp [label]⟩

/-- What every thread of a configuration is about to do, given its history. -/
private def ThreadsMeet (I : Q → History A R → Event A R → Prop)
    (F : Q → History A R → Except ε ρ → Prop)
    (tr : List (Step A R ε ρ W D Q)) (c : Config A R ε ρ W Q) : Prop :=
  (∀ i, c.threads.length ≤ i → eventsOf i tr = []) ∧
  ∀ i q rest, c.threads[i]? = some ⟨q, rest⟩ →
    Started i q tr ∧ ∀ p, rest = some p → Meets (I q) (F q) p (eventsOf i tr)

private theorem eventsOf_snoc_silent (i : Nat) (tr : List (Step A R ε ρ W D Q))
    (s : Step A R ε ρ W D Q) (silent : ∀ e, s.label ≠ .acted i e) :
    eventsOf i (tr ++ [s]) = eventsOf i tr := by
  have none_new : eventsOf i [s] = [] := by
    rw [List.eq_nil_iff_forall_not_mem]
    intro e mem
    obtain ⟨t, ht, label⟩ := mem_eventsOf.1 mem
    rw [List.mem_singleton] at ht
    exact silent e (ht ▸ label)
  rw [eventsOf_append, none_new, List.append_nil]

private theorem eventsOf_snoc_acted (i : Nat) (tr : List (Step A R ε ρ W D Q))
    (s : Step A R ε ρ W D Q) {e : Event A R} (label : s.label = .acted i e) :
    eventsOf i (tr ++ [s]) = eventsOf i tr ++ [e] := by
  rw [eventsOf_append]
  congr 1
  simp [eventsOf, label]

private theorem Started.mono {i : Nat} {q : Q} {tr tr' : List (Step A R ε ρ W D Q)}
    (h : Started i q tr) : Started i q (tr ++ tr') := by
  obtain ⟨s, mem, label⟩ := h
  exact ⟨s, List.mem_append_left _ mem, label⟩

section Threads

variable {S : System A R ε ρ W O D Q} {I : Q → History A R → Event A R → Prop}
variable {F : Q → History A R → Except ε ρ → Prop}

private theorem threadsMeet_set {tr : List (Step A R ε ρ W D Q)} {c : Config A R ε ρ W Q}
    {i : Nat} {q : Q} {rest rest' : Option (Program A R ε ρ)} {s : Step A R ε ρ W D Q} {w : W}
    (inv : ThreadsMeet I F tr c) (here : c.threads[i]? = some ⟨q, rest⟩)
    (others : ∀ j, j ≠ i → ∀ e, s.label ≠ .acted j e)
    (goes_on : ∀ p, rest' = some p → Meets (I q) (F q) p (eventsOf i (tr ++ [s]))) :
    ThreadsMeet I F (tr ++ [s]) ⟨w, c.threads.set i ⟨q, rest'⟩⟩ := by
  obtain ⟨fresh, meet⟩ := inv
  have inside : i < c.threads.length := (List.getElem?_eq_some_iff.1 here).1
  refine ⟨fun j beyond => ?_, fun j q' r' found => ?_⟩
  · rw [List.length_set] at beyond
    rw [eventsOf_snoc_silent j tr s (others j (by omega))]
    exact fresh j beyond
  · by_cases same : j = i
    · subst same
      rw [List.getElem?_set_self inside] at found
      cases found
      exact ⟨(meet j q rest here).1.mono, goes_on⟩
    · rw [List.getElem?_set_ne (Ne.symm same)] at found
      rw [eventsOf_snoc_silent j tr s (others j same)]
      exact ⟨(meet j q' r' found).1.mono, (meet j q' r' found).2⟩

private theorem threadsMeet_start {tr : List (Step A R ε ρ W D Q)} {c : Config A R ε ρ W Q}
    {q : Q} {s : Step A R ε ρ W D Q} (inv : ThreadsMeet I F tr c)
    (label : s.label = .started c.threads.length q)
    (meets : Meets (I q) (F q) (S.program q) []) :
    ThreadsMeet I F (tr ++ [s]) ⟨c.world, c.threads ++ [⟨q, some (S.program q)⟩]⟩ := by
  obtain ⟨fresh, meet⟩ := inv
  have silent : ∀ j, eventsOf j (tr ++ [s]) = eventsOf j tr := fun j =>
    eventsOf_snoc_silent j tr s (by simp [label])
  refine ⟨fun j beyond => ?_, fun j q' rest found => ?_⟩
  · rw [silent]
    rw [List.length_append] at beyond
    exact fresh j (Nat.le_of_lt beyond)
  · rw [silent]
    rcases Nat.lt_trichotomy j c.threads.length with old | new | beyond
    · rw [List.getElem?_append_left old] at found
      exact ⟨(meet j q' rest found).1.mono, (meet j q' rest found).2⟩
    · subst new
      rw [List.getElem?_concat_length] at found
      cases found
      refine ⟨⟨s, by simp, label⟩, fun p rest => ?_⟩
      cases rest
      rw [fresh _ (Nat.le_refl _)]
      exact meets
    · rw [List.getElem?_eq_none (by rw [List.length_append]; exact beyond)] at found
      cases found

private theorem Run.threadsMeet {w : W} {tr : List (Step A R ε ρ W D Q)}
    {c : Config A R ε ρ W Q} (meets : ∀ q, Meets (I q) (F q) (S.program q) [])
    (run : Run S (System.boot w) tr c) : ThreadsMeet I F tr c := by
  -- induction on the run, with one case per move
  induction run with
  | nil => exact ⟨fun _ _ => rfl, fun i q rest found => by simp [System.boot] at found⟩
  | @snoc tr c₁ c₂ m l run move inv =>
    cases m with
    | start q =>
      simp only [System.next] at move
      split at move
      · cases move
        exact threadsMeet_start inv rfl (meets q)
      · cases move
    | drift d =>
      cases move
      refine ⟨fun j beyond => ?_, fun j q rest found => ?_⟩
      · rw [eventsOf_snoc_silent j tr _ (by simp)]
        exact inv.1 j beyond
      · rw [eventsOf_snoc_silent j tr _ (by simp)]
        exact ⟨(inv.2 j q rest found).1.mono, (inv.2 j q rest found).2⟩
    -- halted threads have nothing left to meet
    | halt =>
      cases move
      refine ⟨fun j beyond => ?_, fun j q rest found => ?_⟩
      · rw [List.length_map] at beyond
        rw [eventsOf_snoc_silent j tr _ (by simp)]
        exact inv.1 j beyond
      · rw [List.getElem?_map, Option.map_eq_some_iff] at found
        obtain ⟨t, here, killed⟩ := found
        cases killed
        exact ⟨(inv.2 j _ _ here).1.mono, by simp⟩
    | step i o =>
      simp only [System.next, System.advance] at move
      split at move
      · next q a here =>
        cases move
        exact threadsMeet_set inv here (by simp) (by simp)
      · next q e here =>
        cases move
        exact threadsMeet_set inv here (by simp) (by simp)
      -- an action: the thread goes on with what its program asks next
      · next q a go here =>
        cases move
        refine threadsMeet_set inv here (fun j other e => ?_) fun p rest => ?_
        · simp only [ne_eq, Label.acted.injEq, not_and]
          exact fun same => absurd same.symm other
        · cases rest
          rw [eventsOf_snoc_acted i tr _ rfl]
          exact ((inv.2 i q _ here).2 _ rfl _).2
      · cases move

variable {w : W} {c : Config A R ε ρ W Q} {pre post : List (Step A R ε ρ W D Q)}
variable {s : Step A R ε ρ W D Q} {i : Nat}

/-- Every event in a run is one its program meets, at its place in the history
of the thread. -/
theorem Run.acted (meets : ∀ q, Meets (I q) (F q) (S.program q) [])
    (run : Run S (System.boot w) (pre ++ s :: post) c) {e : Event A R}
    (label : s.label = .acted i e) :
    ∃ q, Started i q pre ∧ I q (eventsOf i pre) e := by
  obtain ⟨c₁, c₂, m, before, move, _, _, _⟩ := Run.split run
  obtain ⟨_, meet⟩ := Run.threadsMeet meets before
  rw [label] at move
  cases m with
  | start q => simp only [System.next] at move; split at move <;> simp at move
  | drift d => simp [System.next] at move
  | halt => simp [System.next] at move
  | step j o =>
    simp only [System.next, System.advance] at move
    split at move
    · simp at move
    · simp at move
    · next q a go here =>
      simp only [Option.some.injEq, Prod.mk.injEq, Label.acted.injEq] at move
      obtain ⟨⟨rfl, rfl⟩, _⟩ := move
      exact ⟨q, (meet j q _ here).1, ((meet j q _ here).2 _ rfl _).1⟩
    · cases move

/-- Every outcome in a run is one its program meets after the whole history of
the thread. -/
theorem Run.returned (meets : ∀ q, Meets (I q) (F q) (S.program q) [])
    (run : Run S (System.boot w) (pre ++ s :: post) c) {r : Except ε ρ}
    (label : s.label = .returned i r) :
    ∃ q, Started i q pre ∧ F q (eventsOf i pre) r := by
  obtain ⟨c₁, c₂, m, before, move, _, _, _⟩ := Run.split run
  obtain ⟨_, meet⟩ := Run.threadsMeet meets before
  rw [label] at move
  cases m with
  | start q => simp only [System.next] at move; split at move <;> simp at move
  | drift d => simp [System.next] at move
  | halt => simp [System.next] at move
  | step j o =>
    simp only [System.next, System.advance] at move
    split at move
    · next q a here =>
      simp only [Option.some.injEq, Prod.mk.injEq, Label.returned.injEq] at move
      obtain ⟨⟨rfl, rfl⟩, _⟩ := move
      exact ⟨q, (meet j q _ here).1, (meet j q _ here).2 _ rfl⟩
    · next q e here =>
      simp only [Option.some.injEq, Prod.mk.injEq, Label.returned.injEq] at move
      obtain ⟨⟨rfl, rfl⟩, _⟩ := move
      exact ⟨q, (meet j q _ here).1, (meet j q _ here).2 _ rfl⟩
    · simp at move
    · cases move

end Threads

/-! ## §5 The life of a thread -/

section Lives

variable {S : System A R ε ρ W O D Q} {w : W} {c : Config A R ε ρ W Q}
variable {tr pre post : List (Step A R ε ρ W D Q)} {s : Step A R ε ρ W D Q} {i : Nat}

private theorem Started.snoc {q : Q} (h : Started i q (tr ++ [s])) :
    Started i q tr ∨ s.label = .started i q := by
  obtain ⟨t, mem, label⟩ := h
  rcases List.mem_append.1 mem with old | new
  · exact .inl ⟨t, old, label⟩
  · rw [List.mem_singleton] at new
    exact .inr (new ▸ label)

theorem Ended.snoc (h : Ended i (tr ++ [s])) :
    Ended i tr ∨ (∃ r, s.label = .returned i r) ∨ s.label = .halted ∧ ∃ q, Started i q tr := by
  obtain ⟨a, t, b, whole, ends⟩ := h
  rcases List.eq_nil_or_concat' b with rfl | ⟨front, last, rfl⟩
  · obtain ⟨rfl, step⟩ := List.append_inj' whole rfl
    simp only [List.cons.injEq, and_true] at step
    exact .inr (step ▸ ends)
  · rw [← List.cons_append, ← List.append_assoc] at whole
    obtain ⟨body, -⟩ := List.append_inj' whole rfl
    exact .inl ⟨a, t, front, body, ends⟩

/-- A place in the configuration holds one thread of the trace, done if it has
ended; beyond the last place nothing has happened. -/
private def Lives (tr : List (Step A R ε ρ W D Q)) (c : Config A R ε ρ W Q) : Prop :=
  ∀ i, (∃ q rest, c.threads[i]? = some ⟨q, rest⟩ ∧ Started i q tr ∧
      (∀ q', Started i q' tr → q' = q) ∧ (Ended i tr → rest = none)) ∨
    (c.threads.length ≤ i ∧ (∀ q, ¬ Started i q tr) ∧ ¬ Ended i tr)

/-- A step that starts no thread, and that ends a thread only as it says. -/
private theorem Lives.goes_on {c' : Config A R ε ρ W Q} (lives : Lives tr c)
    (size : c'.threads.length = c.threads.length) (no_start : ∀ i q, s.label ≠ .started i q)
    (at_place : ∀ i q rest, c.threads[i]? = some ⟨q, rest⟩ →
      ∃ rest', c'.threads[i]? = some ⟨q, rest'⟩ ∧ (rest = none → rest' = none) ∧
        ((∃ r, s.label = .returned i r) ∨ s.label = .halted → rest' = none))
    (inside : ∀ i r, s.label = .returned i r → i < c.threads.length) :
    Lives (tr ++ [s]) c' := by
  have started : ∀ i q, Started i q (tr ++ [s]) → Started i q tr := fun i q h =>
    h.snoc.resolve_right (no_start i q)
  intro i
  rcases lives i with ⟨q, rest, at_i, was, only, finished⟩ | ⟨beyond, fresh, open_⟩
  · obtain ⟨rest', at_i', kept, ends⟩ := at_place i q rest at_i
    refine .inl ⟨q, rest', at_i', was.mono, fun q' h => only q' (started i q' h), fun e => ?_⟩
    rcases e.snoc with past | ret | ⟨halt, -⟩
    · exact kept (finished past)
    · exact ends (.inl ret)
    · exact ends (.inr halt)
  · refine .inr ⟨size ▸ beyond, fun q h => fresh q (started i q h), fun e => ?_⟩
    rcases e.snoc with past | ⟨r, ret⟩ | ⟨-, q, was⟩
    · exact open_ past
    · exact absurd (inside i r ret) (Nat.not_lt.2 beyond)
    · exact fresh q was

/-- The next step of the thread `j`. -/
private theorem Lives.set (lives : Lives tr c) {w' : W} {j : Nat} {q : Q}
    {p : Program A R ε ρ} {rest' : Option (Program A R ε ρ)}
    (at_j : c.threads[j]? = some ⟨q, some p⟩) (no_start : ∀ i q, s.label ≠ .started i q)
    (returns : ∀ i r, s.label = .returned i r → i = j ∧ rest' = none)
    (no_halt : s.label ≠ .halted) : Lives (tr ++ [s]) ⟨w', c.threads.set j ⟨q, rest'⟩⟩ := by
  have inside_j : j < c.threads.length := (List.getElem?_eq_some_iff.1 at_j).1
  refine lives.goes_on (by simp) no_start (fun i q₀ rest at_i => ?_) fun i r ret => ?_
  · by_cases same : i = j
    · subst same
      rw [at_j] at at_i
      cases at_i
      refine ⟨rest', List.getElem?_set_self inside_j, by simp, ?_⟩
      rintro (⟨r, ret⟩ | halt)
      · exact (returns i r ret).2
      · exact absurd halt no_halt
    · refine ⟨rest, by rw [List.getElem?_set_ne (Ne.symm same)]; exact at_i, id, ?_⟩
      rintro (⟨r, ret⟩ | halt)
      · exact absurd (returns i r ret).1 same
      · exact absurd halt no_halt
  · exact (returns i r ret).1 ▸ inside_j

private theorem Lives.start (lives : Lives tr c) {w' : W} {q : Q} {p : Program A R ε ρ}
    (label : s.label = .started c.threads.length q) :
    Lives (tr ++ [s]) ⟨w', c.threads ++ [⟨q, some p⟩]⟩ := by
  have started : ∀ i q', i ≠ c.threads.length → Started i q' (tr ++ [s]) → Started i q' tr := by
    intro i q' other h
    refine h.snoc.resolve_right fun new => other ?_
    rw [label, Label.started.injEq] at new
    exact new.1.symm
  have ended : ∀ i, Ended i (tr ++ [s]) → Ended i tr := fun i e =>
    e.snoc.resolve_right (by simp [label])
  intro i
  rcases lives i with ⟨q₀, rest, at_i, was, only, finished⟩ | ⟨beyond, fresh, open_⟩
  · have inside : i < c.threads.length := (List.getElem?_eq_some_iff.1 at_i).1
    refine .inl ⟨q₀, rest, by rw [List.getElem?_append_left inside]; exact at_i, was.mono,
      fun q' h => only q' (started i q' (Nat.ne_of_lt inside) h), fun e => finished (ended i e)⟩
  · rcases Nat.lt_or_eq_of_le beyond with later | rfl
    · refine .inr ⟨by simpa using Nat.succ_le_of_lt later, fun q' h => ?_,
        fun e => open_ (ended i e)⟩
      exact fresh q' (started i q' (Nat.ne_of_gt later) h)
    · refine .inl ⟨q, _, List.getElem?_concat_length, ⟨s, by simp, label⟩, fun q' h => ?_,
        fun e => absurd (ended _ e) open_⟩
      rcases h.snoc with old | new
      · exact absurd old (fresh q')
      · rw [label, Label.started.injEq] at new
        exact new.2.symm

private theorem Run.lives (run : Run S (System.boot w) tr c) : Lives tr c := by
  -- induction on the run, with one case per move
  induction run with
  | nil =>
    refine fun i => .inr ⟨Nat.zero_le i, ?_, ?_⟩
    · rintro q ⟨t, mem, -⟩
      simp at mem
    · rintro ⟨a, t, b, whole, -⟩
      simp at whole
  | @snoc tr c₁ c₂ m l run move lives =>
    cases m with
    | drift d =>
      cases move
      exact lives.goes_on rfl (by simp) (fun i q rest at_i => ⟨rest, at_i, id, by simp⟩) (by simp)
    | halt =>
      cases move
      refine lives.goes_on (by simp) (by simp) (fun i q rest at_i => ?_) (by simp)
      exact ⟨none, by simp [at_i, Thread.killed], fun _ => rfl, fun _ => rfl⟩
    | start q =>
      simp only [System.next] at move
      split at move
      · cases move
        exact lives.start rfl
      · cases move
    | step j o =>
      simp only [System.next, System.advance] at move
      split at move
      · next q a at_j =>
        cases move
        exact lives.set at_j (by simp) (by rintro i r ⟨⟩; exact ⟨rfl, rfl⟩) (by simp)
      · next q e at_j =>
        cases move
        exact lives.set at_j (by simp) (by rintro i r ⟨⟩; exact ⟨rfl, rfl⟩) (by simp)
      · next q a go at_j =>
        cases move
        exact lives.set at_j (by simp) (by simp) (by simp)
      · cases move

/-- A thread works for one request. -/
theorem Run.started_unique {q q' : Q} (run : Run S (System.boot w) tr c)
    (first : Started i q tr) (second : Started i q' tr) : q = q' := by
  rcases Run.lives run i with ⟨q₀, rest, -, -, only, -⟩ | ⟨-, fresh, -⟩
  · rw [only q first, only q' second]
  · exact absurd first (fresh q)

/-- A thread that has ended is heard of no more. -/
theorem Run.silent (run : Run S (System.boot w) (pre ++ s :: post) c) (ended : Ended i pre) :
    (∀ e, s.label ≠ .acted i e) ∧ ∀ r, s.label ≠ .returned i r := by
  obtain ⟨c₁, c₂, m, before, move, -, -, -⟩ := Run.split run
  -- an ended thread has no program left to step
  have idle : ∀ q p, c₁.threads[i]? ≠ some ⟨q, some p⟩ := by
    intro q p at_i
    rcases Run.lives before i with ⟨q₀, rest, at_i', -, -, finished⟩ | ⟨-, -, open_⟩
    · rw [at_i, finished ended] at at_i'
      cases at_i'
    · exact open_ ended
  cases m with
  | drift d =>
    simp only [System.next, Option.some.injEq, Prod.mk.injEq] at move
    rw [← move.1]
    exact ⟨by simp, by simp⟩
  | halt =>
    simp only [System.next, Option.some.injEq, Prod.mk.injEq] at move
    rw [← move.1]
    exact ⟨by simp, by simp⟩
  | start q =>
    simp only [System.next] at move
    split at move
    · simp only [Option.some.injEq, Prod.mk.injEq] at move
      rw [← move.1]
      exact ⟨by simp, by simp⟩
    · cases move
  | step j o =>
    simp only [System.next, System.advance] at move
    split at move <;> simp only [Option.some.injEq, Prod.mk.injEq, reduceCtorEq] at move
    all_goals
      rw [← move.1]
      refine ⟨fun e same => ?_, fun r same => ?_⟩ <;> cases same
      exact idle _ _ ‹_›

private theorem Ended.mono (ended : Ended i tr) : Ended i (tr ++ [s]) := by
  obtain ⟨a, t, b, whole, ends⟩ := ended
  exact ⟨a, t, b ++ [s], by rw [whole]; simp, ends⟩

/-- A thread that was started and is no longer running has ended. -/
private theorem Run.ended (run : Run S (System.boot w) tr c) :
    ∀ i q, c.threads[i]? = some ⟨q, none⟩ → Ended i tr := by
  induction run with
  | nil =>
    intro i q at_i
    simp [System.boot] at at_i
  | @snoc tr c₁ c₂ m l run move ih =>
    -- all threads but the one of this step are as they were
    have others : ∀ {j : Nat} {q₀ : Q} {rest : Option (Program A R ε ρ)} (i : Nat) (q : Q),
        i ≠ j → (c₁.threads.set j ⟨q₀, rest⟩)[i]? = some ⟨q, none⟩ →
          Ended i (tr ++ [⟨c₁.world, l, c₂.world⟩]) := by
      intro j q₀ rest i q other at_i
      rw [List.getElem?_set_ne (Ne.symm other)] at at_i
      exact (ih i q at_i).mono
    intro i q at_i
    cases m with
    | drift d =>
      cases move
      exact (ih i q at_i).mono
    | halt =>
      cases move
      rw [List.getElem?_map, Option.map_eq_some_iff] at at_i
      obtain ⟨t, here, -⟩ := at_i
      rcases Run.lives run i with ⟨q₀, rest, -, was, -⟩ | ⟨beyond, -⟩
      · exact ⟨tr, _, [], rfl, .inr ⟨rfl, q₀, was⟩⟩
      · exact absurd (List.getElem?_eq_some_iff.1 here).1 (Nat.not_lt.2 beyond)
    | start q₀ =>
      simp only [System.next] at move
      split at move
      · cases move
        rcases Nat.lt_or_ge i c₁.threads.length with old | new
        · rw [List.getElem?_append_left old] at at_i
          exact (ih i q at_i).mono
        · rw [List.getElem?_append_right new] at at_i
          have fresh := List.mem_of_getElem? at_i
          simp at fresh
      · cases move
    | step j o =>
      simp only [System.next, System.advance] at move
      split at move
      · next q₀ a at_j =>
        cases move
        by_cases same : i = j
        · exact ⟨tr, _, [], rfl, .inl ⟨.ok a, by rw [same]⟩⟩
        · exact others i q same at_i
      · next q₀ e at_j =>
        cases move
        by_cases same : i = j
        · exact ⟨tr, _, [], rfl, .inl ⟨.error e, by rw [same]⟩⟩
        · exact others i q same at_i
      · next q₀ a go at_j =>
        cases move
        by_cases same : i = j
        · subst same
          rw [List.getElem?_set_self (List.getElem?_eq_some_iff.1 at_j).1] at at_i
          cases at_i
        · exact others i q same at_i
      · cases move

/-- Where nothing is running, whatever was started has ended. -/
theorem Run.ended_of_idle {q : Q} (run : Run S (System.boot w) tr c)
    (idle : ∀ t ∈ c.threads, t.rest = none) (started : Started i q tr) : Ended i tr := by
  rcases Run.lives run i with ⟨q₀, rest, at_i, -, -, -⟩ | ⟨-, fresh, -⟩
  · have done := idle _ (List.mem_of_getElem? at_i)
    exact Run.ended run i q₀ (by rw [at_i, show rest = none from done])
  · exact absurd started (fresh q)

/-- Where a request may not start while another like it is running, the earlier ones
have ended by the time one starts. -/
theorem Run.ended_of_started {q : Q} {j : Nat}
    (alone : ∀ running, q ∈ running → S.mayStart q running = false)
    (run : Run S (System.boot w) (pre ++ s :: post) c) (label : s.label = .started i q)
    (started : Started j q pre) : Ended j pre := by
  obtain ⟨c₁, c₂, m, before, move, -, -, -⟩ := Run.split run
  rcases Run.lives before j with ⟨q₀, rest, at_j, -, only, -⟩ | ⟨-, fresh, -⟩
  · cases rest with
    | none => exact Run.ended before j q₀ at_j
    | some p =>
      rw [← only q started] at at_j
      rw [label] at move
      cases m with
      | start q' =>
        simp only [System.next] at move
        split at move
        · next allowed =>
          simp only [Option.some.injEq, Prod.mk.injEq, Label.started.injEq] at move
          obtain ⟨⟨-, rfl⟩, -⟩ := move
          have running : q' ∈ (c₁.threads.filter Thread.running).map Thread.request :=
            List.mem_map.2 ⟨⟨q', some p⟩,
              List.mem_filter.2 ⟨List.mem_of_getElem? at_j, rfl⟩, rfl⟩
          rw [alone _ running] at allowed
          cases allowed
        · cases move
      | drift d => simp [System.next] at move
      | halt => simp [System.next] at move
      | step j o => simp only [System.next, System.advance] at move; split at move <;> simp at move
  · exact absurd started (fresh q)

end Lives

end GhostKey.Foundation

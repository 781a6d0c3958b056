import GhostKey.Foundation.Program

/-!
# Events that Owe Something

Some actions of a program are only half of what is to be done: an UPDATE that is to be
recorded, an alarm that somebody is to be told of. An `Obligation` says which events owe
something and what settles them in the history that follows. A program `Settles` it when,
started from a settled history, it ends in one.

Main results:
- `Settled.append`, `Settled.round`: histories that go on with nothing owing, or with one
  event that is settled by what follows it.
- `Settles.bind`, `Settles.forEach`, `Settles.act`, `Settles.free`: the rules of programs.
-/

namespace GhostKey.Foundation

open Program

variable {A : Type} {R : A → Type} {ε ε' α β σ : Type}

/-- Events that owe something, and what settles one: the history before it and the
history after it, which may go on. -/
structure Obligation (A : Type) (R : A → Type) where
  owes : Event A R → Prop
  settles : History A R → Event A R → History A R → Prop
  later : ∀ {before e after} (more : History A R), settles before e after →
    settles before e (after ++ more)

namespace Obligation

variable {O : Obligation A R} {I : History A R → Event A R → Prop} {h more : History A R}

/-- Whatever owes something is settled by what follows it. -/
def Settled (O : Obligation A R) (h : History A R) : Prop :=
  ∀ before e after, h = before ++ e :: after → O.owes e → O.settles before e after

/-- From a settled history on, `p` goes by `I` and ends in a settled history. -/
def Settles (O : Obligation A R) (I : History A R → Event A R → Prop) (p : Program A R ε α)
    (h : History A R) : Prop :=
  O.Settled h → Meets I (fun g _ => O.Settled g) p h

/-- An entry that does not come from the end of a list comes from its start. -/
theorem split_of_not_mem {α : Type} {l m l₁ l₂ : List α} {x : α}
    (whole : l ++ m = l₁ ++ x :: l₂) (other : x ∉ m) : ∃ rest, l = l₁ ++ x :: rest ∧ l₂ = rest ++ m := by
  rcases List.append_eq_append_iff.1 whole with ⟨rest, rfl, late⟩ | ⟨rest, early, late⟩
  · exact absurd (late ▸ by simp) other
  · cases rest with
    | nil =>
      rw [List.nil_append] at late
      exact absurd (late ▸ by simp) other
    | cons y rest =>
      rw [List.cons_append, List.cons.injEq] at late
      obtain ⟨rfl, rfl⟩ := late
      exact ⟨rest, early, rfl⟩

namespace Settled

theorem nil : O.Settled [] := by
  intro before e after whole
  simp at whole

theorem append (settled : O.Settled h) (free : ∀ e ∈ more, ¬ O.owes e) : O.Settled (h ++ more) := by
  intro before e after whole owes
  obtain ⟨rest, early, rfl⟩ := split_of_not_mem whole fun mem => free e mem owes
  exact O.later more (settled before e rest early owes)

theorem snoc {e : Event A R} (settled : O.Settled h) (free : ¬ O.owes e) : O.Settled (h ++ [e]) := by
  apply settled.append
  intro e' mem
  rwa [List.mem_singleton.1 mem]

/-- One more event, settled by what follows it. -/
theorem round {e : Event A R} (settled : O.Settled h) (now : O.settles h e more)
    (free : ∀ e ∈ more, ¬ O.owes e) : O.Settled (h ++ e :: more) := by
  intro before e' after whole owes
  have regrouped : (h ++ [e]) ++ more = before ++ e' :: after := by simpa using whole
  obtain ⟨rest, early, rfl⟩ := split_of_not_mem regrouped fun mem => free e' mem owes
  rcases List.eq_nil_or_concat' rest with rfl | ⟨front, last, rfl⟩
  · obtain ⟨rfl, same⟩ := List.append_inj' early rfl
    cases same
    exact now
  · rw [← List.cons_append, ← List.append_assoc] at early
    obtain ⟨here, same⟩ := List.append_inj' early rfl
    cases same
    rw [List.append_assoc]
    exact O.later _ (settled before e' front here owes)

end Settled

namespace Settles

/-- Nothing owing, and nothing that `I` would not have. -/
theorem free {p : Program A R ε α} {ok : A → Prop} (only : p.Only ok)
    (clear : ∀ a r, ok a → ¬ O.owes ⟨a, r⟩) (fine : ∀ g a r, ok a → I g ⟨a, r⟩) :
    O.Settles I p h := by
  intro settled
  refine Meets.mono (only.adds h) ?_ ?_
  · intro g e good
    exact fine g e.action e.response good
  · rintro g r ⟨more, rfl, good⟩
    exact settled.append fun e mem => clear e.action e.response (good e mem)

theorem bind {p : Program A R ε α} {f : α → Program A R ε β} (first : O.Settles I p h)
    (next : ∀ g a, h <+: g → O.Settles I (f a) g) : O.Settles I (p.bind f) h := fun settled =>
  Meets.bind (first settled) (fun g a grown now => next g a grown now) fun _ _ _ now => now

theorem forEach {body : σ → Program A R ε Unit} {xs : List σ}
    (round : ∀ x ∈ xs, ∀ g, h <+: g → O.Settles I (body x) g) :
    O.Settles I (Program.forEach xs body) h := fun settled =>
  Meets.forEach (L := O.Settled) settled
    (fun x mem g grown now => Meets.mono (round x mem g grown now) (fun _ _ e => e)
      fun g r now => by cases r <;> exact now)
    fun _ now => now

/-- An action that owes nothing, first. -/
theorem act {a : A} {f : R a → Program A R ε β} (clear : ∀ r, ¬ O.owes ⟨a, r⟩)
    (fine : ∀ r, I h ⟨a, r⟩) (next : ∀ r, O.Settles I (f r) (h ++ [⟨a, r⟩])) :
    O.Settles I (.act a f) h := by
  intro settled r
  exact ⟨fine r, next r (settled.snoc (clear r))⟩

theorem attempt {p : Program A R ε α} (settles : O.Settles I p h) :
    O.Settles I (p.attempt : Program A R ε' (Except ε α)) h := fun settled =>
  Meets.attempt (settles settled) fun _ _ now => now

end Settles

end Obligation

end GhostKey.Foundation

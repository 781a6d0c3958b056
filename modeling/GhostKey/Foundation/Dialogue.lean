import GhostKey.Foundation.Program

/-!
# Programs and a Sequence of Replies

A program that is run against a sequence of replies: each action takes the next one.

Main results:
- `Only.heard`: what keeps to one kind of action performs actions of that kind.
- `heard_bind_silent`: what a program does is not changed by what is made of its outcome.
-/

namespace GhostKey.Foundation.Program

variable {A : Type} {R : A → Type} {ε ε' α β : Type}

/-- What is left of a sequence after its first. -/
def later {ρ : Type} (replies : ℕ → ρ) : ℕ → ρ := fun n => replies (n + 1)

/-- The actions a program performs, each with its reply. -/
def heard : (ℕ → ∀ a, R a) → Program A R ε α → History A R
  | _, done _ => []
  | _, fail _ => []
  | replies, act a next => ⟨a, replies 0 a⟩ :: heard (later replies) (next (replies 0 a))

/-- What it comes to. -/
def outcome : (ℕ → ∀ a, R a) → Program A R ε α → Except ε α
  | _, done a => .ok a
  | _, fail e => .error e
  | replies, act a next => outcome (later replies) (next (replies 0 a))

theorem Only.heard {ok : A → Prop} {p : Program A R ε α} (only : Only ok p)
    (replies : ℕ → ∀ a, R a) : ∀ e ∈ p.heard replies, ok e.action := by
  induction p generalizing replies with
  | done a =>
    intro e mem
    cases mem
  | fail e =>
    intro e mem
    cases mem
  | act a next ih =>
    intro e mem
    rcases List.mem_cons.1 mem with rfl | inside
    · exact only.1
    · exact ih _ (only.2 _) _ e inside

theorem heard_attempt (p : Program A R ε α) (replies : ℕ → ∀ a, R a) :
    (p.attempt : Program A R ε' (Except ε α)).heard replies = p.heard replies := by
  induction p generalizing replies with
  | done a => rfl
  | fail e => rfl
  | act a next ih => exact congrArg (List.cons _) (ih _ _)

/-- What only looks at the outcome adds no action. -/
theorem heard_bind_silent {p : Program A R ε α} {f : α → Program A R ε β}
    (silent : ∀ a replies, (f a).heard replies = []) (replies : ℕ → ∀ a, R a) :
    (p.bind f).heard replies = p.heard replies := by
  induction p generalizing replies with
  | done a => exact silent a replies
  | fail e => rfl
  | act a next ih => exact congrArg (List.cons _) (ih _ _)

end GhostKey.Foundation.Program

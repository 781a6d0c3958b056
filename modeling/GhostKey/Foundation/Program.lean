import Mathlib.Data.List.Basic

/-!
# Programs as Trees of Atomic Actions

A program is a tree: it is done, it has failed, or it performs one atomic
action and goes on with the response. Nothing is said here about what an action
does; that is left to whoever runs the tree, so between two actions of one
program any number of actions of other programs may run.

`Meets I Q p h` is the reasoning principle: whatever the responses are, when `p`
goes on from the history `h`, every event it adds satisfies `I` against the
history before it, and the outcome satisfies `Q` against the final history.

Main results:
- `Meets.bind`, `Meets.forEach`, `Meets.attempt`: the rules of the program
  constructors, the loop with an invariant.
- `Meets.mono`, `Meets.and`, `Meets.grows`: weakening, conjunction, and the fact
  that histories only grow.
- `Only.bind`, `Only.meets`: programs that keep to one kind of action; `Sure` adds
  that they do not fail, `Does` what they come to.
-/

namespace GhostKey.Foundation

/-- Finite trees of actions from `A`, where action `a` answers with an `R a`. -/
inductive Program (A : Type) (R : A → Type) (ε α : Type) : Type where
  | done (a : α)
  | fail (e : ε)
  | act (a : A) (next : R a → Program A R ε α)

/-- One performed action together with its response. -/
structure Event (A : Type) (R : A → Type) where
  action : A
  response : R action

/-- The events a program has performed so far, oldest first. -/
abbrev History (A : Type) (R : A → Type) := List (Event A R)

/-! ## Outcomes -/

theorem bind_eq_ok {ε α β : Type} {x : Except ε α} {f : α → Except ε β} {b : β}
    (bound : (x >>= f) = .ok b) : ∃ a, x = .ok a ∧ f a = .ok b := by
  cases x with
  | error e => cases bound
  | ok a => exact ⟨a, rfl, bound⟩

theorem mapError_eq_ok {ε ε' α : Type} {x : Except ε α} {f : ε → ε'} {a : α}
    (mapped : x.mapError f = .ok a) : x = .ok a := by
  cases x with
  | error e => cases mapped
  | ok b => exact congrArg Except.ok (Except.ok.inj mapped)

theorem map_eq_ok {ε α β : Type} {x : Except ε α} {f : α → β} {b : β}
    (mapped : x.map f = .ok b) : ∃ a, x = .ok a ∧ b = f a := by
  cases x with
  | error e => cases mapped
  | ok a => exact ⟨a, rfl, (Except.ok.inj mapped).symm⟩

/-- A loop over a list ends where every one of its rounds does. -/
theorem exists_mapM_eq_ok_iff {ε α β : Type} {f : α → Except ε β} {l : List α} :
    (∃ bs, l.mapM f = .ok bs) ↔ ∀ x ∈ l, ∃ b, f x = .ok b := by
  induction l with
  | nil => simp [pure, Except.pure]
  | cons x xs ih =>
    rw [List.forall_mem_cons, ← ih]
    simp only [List.mapM_cons]
    constructor
    · rintro ⟨bs, done⟩
      obtain ⟨b, here, done⟩ := bind_eq_ok done
      obtain ⟨rest, later, -⟩ := bind_eq_ok done
      exact ⟨⟨b, here⟩, rest, later⟩
    · rintro ⟨⟨b, here⟩, rest, later⟩
      exact ⟨b :: rest, by rw [here, later]; rfl⟩

namespace Program

variable {A : Type} {R : A → Type} {ε ε' α β σ : Type}

/-! ## Constructors -/

def bind : Program A R ε α → (α → Program A R ε β) → Program A R ε β
  | done a, f => f a
  | fail e, _ => fail e
  | act a next, f => act a fun r => (next r).bind f

instance : Monad (Program A R ε) where
  pure := done
  bind := bind

/-- Perform one action and hand its response on. -/
def perform (a : A) : Program A R ε (R a) := act a done

/-- Run to the end and hand the outcome on, a failure included. -/
def attempt : Program A R ε α → Program A R ε' (Except ε α)
  | done a => done (.ok a)
  | fail e => done (.error e)
  | act a next => act a fun r => (next r).attempt

/-- Run a body for each element in turn; the first failure ends the loop. -/
def forEach : List σ → (σ → Program A R ε Unit) → Program A R ε Unit
  | [], _ => done ()
  | x :: xs, body => (body x).bind fun _ => forEach xs body

@[simp] theorem pure_eq (a : α) : (pure a : Program A R ε α) = done a := rfl

@[simp] theorem bind_eq (p : Program A R ε α) (f : α → Program A R ε β) :
    (p >>= f) = p.bind f := rfl

@[simp] theorem done_bind (a : α) (f : α → Program A R ε β) : (done a).bind f = f a := rfl

@[simp] theorem fail_bind (e : ε) (f : α → Program A R ε β) :
    (fail e : Program A R ε α).bind f = fail e := rfl

@[simp] theorem act_bind (a : A) (next : R a → Program A R ε α) (f : α → Program A R ε β) :
    (act a next).bind f = act a fun r => (next r).bind f := rfl

theorem bind_assoc {γ : Type} (p : Program A R ε α) (f : α → Program A R ε β)
    (g : β → Program A R ε γ) : (p.bind f).bind g = p.bind fun a => (f a).bind g := by
  induction p with
  | done a => rfl
  | fail e => rfl
  | act a next ih =>
    simp only [act_bind]
    congr 1
    funext r
    exact ih r

/-! ## What a program may do, whatever the responses -/

/-- Every event `p` adds to `h` satisfies `I`, and its outcome satisfies `Q`. -/
def Meets (I : History A R → Event A R → Prop) (Q : History A R → Except ε α → Prop) :
    Program A R ε α → History A R → Prop
  | done a, h => Q h (.ok a)
  | fail e, h => Q h (.error e)
  | act a next, h => ∀ r, I h ⟨a, r⟩ ∧ Meets I Q (next r) (h ++ [⟨a, r⟩])

namespace Meets

variable {I J : History A R → Event A R → Prop}
variable {Q : History A R → Except ε α → Prop}

theorem mono {Q' : History A R → Except ε α → Prop} {p : Program A R ε α} {h : History A R}
    (meets : Meets I Q p h) (events : ∀ h e, I h e → J h e)
    (outcomes : ∀ h r, Q h r → Q' h r) : Meets J Q' p h := by
  induction p generalizing h with
  | done a => exact outcomes h _ meets
  | fail e => exact outcomes h _ meets
  | act a next ih =>
    intro r
    obtain ⟨event, rest⟩ := meets r
    exact ⟨events _ _ event, ih r rest⟩

theorem and {Q' : History A R → Except ε α → Prop} {p : Program A R ε α} {h : History A R}
    (left : Meets I Q p h) (right : Meets J Q' p h) :
    Meets (fun h e => I h e ∧ J h e) (fun h r => Q h r ∧ Q' h r) p h := by
  induction p generalizing h with
  | done a => exact ⟨left, right⟩
  | fail e => exact ⟨left, right⟩
  | act a next ih =>
    intro r
    obtain ⟨event, rest⟩ := left r
    obtain ⟨event', rest'⟩ := right r
    exact ⟨⟨event, event'⟩, ih r rest rest'⟩

/-- Histories only grow. -/
theorem grows (p : Program A R ε α) (h : History A R) :
    Meets (fun h' _ => h <+: h') (fun h' _ => h <+: h') p h := by
  suffices ∀ g, h <+: g → Meets (fun h' _ => h <+: h') (fun h' _ => h <+: h') p g from
    this h (List.prefix_refl h)
  induction p with
  | done a => intro g grown; exact grown
  | fail e => intro g grown; exact grown
  | act a next ih =>
    intro g grown r
    exact ⟨grown, ih r _ (grown.trans (List.prefix_append g _))⟩

/-- The rule of sequencing. The second program starts from a longer history. -/
theorem bind {Q' : History A R → Except ε β → Prop} {p : Program A R ε α}
    {f : α → Program A R ε β} {h : History A R} (first : Meets I Q p h)
    (second : ∀ g a, h <+: g → Q g (.ok a) → Meets I Q' (f a) g)
    (failed : ∀ g e, h <+: g → Q g (.error e) → Q' g (.error e)) :
    Meets I Q' (p.bind f) h := by
  have both := first.and (grows p h)
  clear first
  revert both
  suffices ∀ g, Meets (fun g e => I g e ∧ h <+: g) (fun g r => Q g r ∧ h <+: g) p g →
      Meets I Q' (p.bind f) g from this h
  induction p with
  | done a => intro g both; exact second g a both.2 both.1
  | fail e => intro g both; exact failed g e both.2 both.1
  | act a next ih =>
    intro g both r
    obtain ⟨event, rest⟩ := both r
    exact ⟨event.1, ih r _ rest⟩

theorem attempt {Q' : History A R → Except ε' (Except ε α) → Prop} {p : Program A R ε α}
    {h : History A R} (meets : Meets I Q p h)
    (outcomes : ∀ g r, Q g r → Q' g (.ok r)) :
    Meets I Q' (p.attempt : Program A R ε' (Except ε α)) h := by
  induction p generalizing h with
  | done a => exact outcomes h _ meets
  | fail e => exact outcomes h _ meets
  | act a next ih =>
    intro r
    obtain ⟨event, rest⟩ := meets r
    exact ⟨event, ih r rest⟩

/-- The rule of loops: `L` holds before every round, and a failed round ends the
loop with the loop's own postcondition. -/
theorem forEach {L : History A R → Prop} {Q : History A R → Except ε Unit → Prop}
    {body : σ → Program A R ε Unit} :
    ∀ {xs : List σ} {h : History A R}, L h →
      (∀ x ∈ xs, ∀ g, h <+: g → L g →
        Meets I (fun g r => match r with | .ok _ => L g | .error e => Q g (.error e)) (body x) g) →
      (∀ g, L g → Q g (.ok ())) → Meets I Q (forEach xs body) h
  | [], h, start, _, finish => finish h start
  | x :: xs, h, start, round, finish => by
    refine bind (round x List.mem_cons_self h (List.prefix_refl h) start) ?_ ?_
    · intro g _ grown again
      exact forEach again
        (fun y mem g' grown' => round y (List.mem_cons_of_mem x mem) g' (grown.trans grown'))
        finish
    · intro g e _ failed
      exact failed

/-- The same with the rounds that are done. -/
theorem forEachDone {L : List σ → History A R → Prop} {Q : History A R → Except ε Unit → Prop}
    {body : σ → Program A R ε Unit} {xs : List σ} {h : History A R} (start : L [] h)
    (round : ∀ done x rest g, xs = done ++ x :: rest → L done g →
      Meets I (fun g r => (r = .ok () → L (done ++ [x]) g) ∧ ∀ e, r = .error e → Q g (.error e))
        (body x) g)
    (finish : ∀ g, L xs g → Q g (.ok ())) : Meets I Q (Program.forEach xs body) h := by
  suffices ∀ rest done g, xs = done ++ rest → L done g →
      Meets I Q (Program.forEach rest body) g from this xs [] h rfl start
  intro rest
  induction rest with
  | nil =>
    intro done g whole now
    rw [List.append_nil] at whole
    exact finish g (whole ▸ now)
  | cons x rest ih =>
    intro done g whole now
    refine bind (round done x rest g whole now) (fun g' _ _ next => ?_)
      fun g' e _ failed => failed.2 e rfl
    exact ih (done ++ [x]) g' (by simpa using whole) (next.1 rfl)

/-- Whatever the responses, what `p` adds is of one kind. -/
theorem adds {K : Event A R → Prop} {p : Program A R ε α} {h : History A R}
    (meets : Meets (fun _ e => K e) (fun _ _ => True) p h) :
    Meets (fun _ e => K e) (fun g _ => ∃ more, g = h ++ more ∧ ∀ e ∈ more, K e) p h := by
  suffices ∀ more : History A R, (∀ e ∈ more, K e) →
      Meets (fun _ e => K e) (fun _ _ => True) p (h ++ more) →
        Meets (fun _ e => K e) (fun g _ => ∃ more, g = h ++ more ∧ ∀ e ∈ more, K e) p
          (h ++ more) by
    have start := this [] fun e mem => absurd mem List.not_mem_nil
    rw [List.append_nil] at start
    exact start meets
  clear meets
  induction p with
  | done a => exact fun more good _ => ⟨more, rfl, good⟩
  | fail e => exact fun more good _ => ⟨more, rfl, good⟩
  | act a next ih =>
    intro more good meets r
    obtain ⟨here, later⟩ := meets r
    refine ⟨here, ?_⟩
    rw [List.append_assoc] at later ⊢
    refine ih r _ (fun e mem => ?_) later
    rcases List.mem_append.1 mem with old | new
    · exact good e old
    · rw [List.mem_singleton.1 new]
      exact here

end Meets

/-! ## Programs of one kind of action -/

/-- Only actions from `ok`, whatever the responses. -/
def Only (ok : A → Prop) : Program A R ε α → Prop
  | done _ => True
  | fail _ => True
  | act a next => ok a ∧ ∀ r, Only ok (next r)

namespace Only

variable {ok ok' : A → Prop}

@[simp] theorem done (a : α) : Only ok (.done a : Program A R ε α) := trivial

@[simp] theorem fail (e : ε) : Only ok (.fail e : Program A R ε α) := trivial

theorem perform {a : A} (good : ok a) : Only ok (Program.perform a : Program A R ε (R a)) :=
  ⟨good, fun _ => trivial⟩

theorem mono {p : Program A R ε α} (only : Only ok p) (wider : ∀ a, ok a → ok' a) :
    Only ok' p := by
  induction p with
  | done a => trivial
  | fail e => trivial
  | act a next ih => exact ⟨wider a only.1, fun r => ih r (only.2 r)⟩

theorem bind {p : Program A R ε α} {f : α → Program A R ε β} (first : Only ok p)
    (rest : ∀ a, Only ok (f a)) : Only ok (p.bind f) := by
  induction p with
  | done a => exact rest a
  | fail e => trivial
  | act a next ih => exact ⟨first.1, fun r => ih r (first.2 r)⟩

theorem attempt {p : Program A R ε α} (only : Only ok p) :
    Only ok (p.attempt : Program A R ε' (Except ε α)) := by
  induction p with
  | done a => trivial
  | fail e => trivial
  | act a next ih => exact ⟨only.1, fun r => ih r (only.2 r)⟩

theorem forEach {body : σ → Program A R ε Unit} (only : ∀ x, Only ok (body x)) :
    ∀ xs : List σ, Only ok (Program.forEach xs body)
  | [] => trivial
  | x :: xs => bind (only x) fun _ => forEach only xs

/-- Every action such a program runs comes from `ok`. -/
theorem events {p : Program A R ε α} (only : Only ok p) (h : History A R) :
    Meets (fun _ e => ok e.action) (fun _ _ => True) p h := by
  induction p generalizing h with
  | done a => trivial
  | fail e => trivial
  | act a next ih => exact fun r => ⟨only.1, ih r (only.2 r) _⟩

/-- At each of its actions, all that such a program has added by then comes from `ok`. -/
theorem along {p : Program A R ε α} (only : Only ok p) (h : History A R) :
    Meets (fun g e => ok e.action ∧ ∃ more, g = h ++ more ∧ ∀ x ∈ more, ok x.action)
      (fun g _ => ∃ more, g = h ++ more ∧ ∀ x ∈ more, ok x.action) p h := by
  suffices ∀ more : History A R, (∀ x ∈ more, ok x.action) →
      Meets (fun g e => ok e.action ∧ ∃ more, g = h ++ more ∧ ∀ x ∈ more, ok x.action)
        (fun g _ => ∃ more, g = h ++ more ∧ ∀ x ∈ more, ok x.action) p (h ++ more) by
    have start := this [] fun x mem => absurd mem List.not_mem_nil
    rwa [List.append_nil] at start
  induction p with
  | done a => exact fun more good => ⟨more, rfl, good⟩
  | fail e => exact fun more good => ⟨more, rfl, good⟩
  | act a next ih =>
    intro more good r
    refine ⟨⟨only.1, more, rfl, good⟩, ?_⟩
    rw [List.append_assoc]
    refine ih r (only.2 r) _ fun x mem => ?_
    rcases List.mem_append.1 mem with old | new
    · exact good x old
    · rw [List.mem_singleton.1 new]
      exact only.1

/-- Of two programs in turn, nothing of the second comes before anything of the first. -/
theorem inTurn {p : Program A R ε α} {f : α → Program A R ε β} {h : History A R} (first : Only ok p)
    (second : ∀ a, Only ok' (f a)) (before : ∀ x ∈ h, ok x.action) :
    Meets (fun g e => ok' e.action ∨ ∀ x ∈ g, ok x.action) (fun _ _ => True) (p.bind f) h := by
  refine Meets.bind (Meets.mono (first.along h) (fun g e here => .inr fun x mem => ?_)
    fun _ _ _ => trivial) (fun g a _ _ => ?_) fun _ _ _ _ => trivial
  · obtain ⟨-, more, rfl, good⟩ := here
    exact (List.mem_append.1 mem).elim (before x) (good x)
  · exact Meets.mono ((second a).events g) (fun _ _ good => .inl good) fun _ _ _ => trivial

/-- What such a program adds to its history comes from `ok`. -/
theorem adds {p : Program A R ε α} (only : Only ok p) (h : History A R) :
    Meets (fun _ e => ok e.action) (fun g _ => ∃ more, g = h ++ more ∧ ∀ e ∈ more, ok e.action)
      p h :=
  (only.events h).adds

/-- The same, without singling out the events it adds. -/
theorem meets {p : Program A R ε α} (only : Only ok p) (h : History A R) :
    Meets (fun _ e => ok e.action) (fun g _ => ∀ e ∈ g, e ∈ h ∨ ok e.action) p h := by
  refine (only.adds h).mono (fun _ _ good => good) ?_
  rintro g r ⟨more, rfl, good⟩ e mem
  exact (List.mem_append.1 mem).imp_right (good e)

end Only

/-! ## What a program that succeeds ensures -/

/-- Every event `p` adds to `h` satisfies `I`, and if `p` succeeds it ensures `P`. -/
def Ensures (I : History A R → Event A R → Prop) (P : History A R → α → Prop)
    (p : Program A R ε α) (h : History A R) : Prop :=
  Meets I (fun g r => ∀ a, r = .ok a → P g a) p h

namespace Ensures

variable {I : History A R → Event A R → Prop} {P : History A R → α → Prop}
variable {P' : History A R → β → Prop} {h : History A R}

theorem done {a : α} (here : P h a) : Ensures I P (.done a : Program A R ε α) h := by
  rintro _ ⟨⟩
  exact here

theorem fail {e : ε} : Ensures I P (.fail e : Program A R ε α) h := by
  rintro _ ⟨⟩

theorem act {a : A} {next : R a → Program A R ε α}
    (step : ∀ r, I h ⟨a, r⟩ ∧ Ensures I P (next r) (h ++ [⟨a, r⟩])) :
    Ensures I P (.act a next) h := step

theorem weaken {Q : History A R → α → Prop} {p : Program A R ε α} (ensures : Ensures I P p h)
    (weaker : ∀ g a, P g a → Q g a) : Ensures I Q p h :=
  Meets.mono ensures (fun _ _ e => e) fun _ _ here a same => weaker _ _ (here a same)

theorem bind {p : Program A R ε α} {f : α → Program A R ε β} (first : Ensures I P p h)
    (second : ∀ g a, h <+: g → P g a → Ensures I P' (f a) g) : Ensures I P' (p.bind f) h :=
  Meets.bind first (fun g a grown ensured => second g a grown (ensured a rfl))
    (by rintro g e - - a ⟨⟩)

/-- A program that keeps to `ok` lengthens its history by actions from `ok` only. -/
theorem of_only {ok : A → Prop} {p : Program A R ε α} (only : Only ok p)
    (good : ∀ g e, ok e.action → I g e) :
    Ensures I (fun g _ => ∃ more, g = h ++ more ∧ ∀ e ∈ more, ok e.action) p h :=
  Meets.mono (only.adds h) (fun g e kept => good g e kept) fun _ _ more _ _ => more

/-- The rule of loops, with what holds before every round. -/
theorem forEach {L : History A R → Prop} {body : σ → Program A R ε Unit} {xs : List σ}
    (start : L h) (round : ∀ x ∈ xs, ∀ g, h <+: g → L g → Ensures I (fun g _ => L g) (body x) g) :
    Ensures I (fun g _ => L g) (Program.forEach xs body) h :=
  Meets.forEach (L := L) start
    (fun x mem g grown here => Meets.mono (round x mem g grown here) (fun _ _ e => e)
      fun g r ensured => by
        cases r with
        | ok a => exact ensured a rfl
        | error e => exact fun a same => by cases same)
    fun _ here _ _ => here

end Ensures

/-- Only actions from `ok` and no failure, whatever the responses. -/
def Sure (ok : A → Prop) : Program A R ε α → Prop
  | done _ => True
  | fail _ => False
  | act a next => ok a ∧ ∀ r, Sure ok (next r)

namespace Sure

variable {ok : A → Prop}

@[simp] theorem done (a : α) : Sure ok (.done a : Program A R ε α) := trivial

theorem perform {a : A} (good : ok a) : Sure ok (Program.perform a : Program A R ε (R a)) :=
  ⟨good, fun _ => trivial⟩

theorem bind {p : Program A R ε α} {f : α → Program A R ε β} (first : Sure ok p)
    (rest : ∀ a, Sure ok (f a)) : Sure ok (p.bind f) := by
  induction p with
  | done a => exact rest a
  | fail e => exact first.elim
  | act a next ih => exact ⟨first.1, fun r => ih r (first.2 r)⟩

theorem mono {ok' : A → Prop} {p : Program A R ε α} (sure : Sure ok p)
    (wider : ∀ a, ok a → ok' a) : Sure ok' p := by
  induction p with
  | done a => trivial
  | fail e => exact sure.elim
  | act a next ih => exact ⟨wider a sure.1, fun r => ih r (sure.2 r)⟩

theorem only {p : Program A R ε α} (sure : Sure ok p) : Only ok p := by
  induction p with
  | done a => trivial
  | fail e => exact sure.elim
  | act a next ih => exact ⟨sure.1, fun r => ih r (sure.2 r)⟩

/-- What is attempted may fail. -/
theorem attempt {p : Program A R ε α} (only : Only ok p) :
    Sure ok (p.attempt : Program A R ε' (Except ε α)) := by
  induction p with
  | done a => trivial
  | fail e => trivial
  | act a next ih => exact ⟨only.1, fun r => ih r (only.2 r)⟩

end Sure

/-- Only actions from `ok`, and `post` of the result, whatever the responses. -/
def Does (ok : A → Prop) (post : α → Prop) : Program A R ε α → Prop
  | done a => post a
  | fail _ => True
  | act a next => ok a ∧ ∀ r, Does ok post (next r)

namespace Does

variable {ok : A → Prop} {post : α → Prop} {post' : β → Prop}

theorem bind {p : Program A R ε α} {f : α → Program A R ε β} (first : Does ok post p)
    (rest : ∀ a, post a → Does ok post' (f a)) : Does ok post' (p.bind f) := by
  induction p with
  | done a => exact rest a first
  | fail e => trivial
  | act a next ih => exact ⟨first.1, fun r => ih r (first.2 r)⟩

theorem mono {post₁ : α → Prop} {p : Program A R ε α} (does : Does ok post p)
    (weaker : ∀ a, post a → post₁ a) : Does ok post₁ p := by
  induction p with
  | done a => exact weaker a does
  | fail e => trivial
  | act a next ih => exact ⟨does.1, fun r => ih r (does.2 r)⟩

theorem widen {ok' : A → Prop} {p : Program A R ε α} (does : Does ok post p)
    (wider : ∀ a, ok a → ok' a) : Does ok' post p := by
  induction p with
  | done a => exact does
  | fail e => trivial
  | act a next ih => exact ⟨wider a does.1, fun r => ih r (does.2 r)⟩

theorem of_only {p : Program A R ε α} (only : Only ok p) : Does ok (fun _ => True) p := by
  induction p with
  | done a => trivial
  | fail e => trivial
  | act a next ih => exact ⟨only.1, fun r => ih r (only.2 r)⟩

end Does

end Program

end GhostKey.Foundation

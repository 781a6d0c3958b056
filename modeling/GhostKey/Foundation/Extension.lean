import GhostKey.Foundation.Interleaving

/-!
# Extending a System

A system is given new requests, with actions of their own, over a wider world of
which the old one is a view. The old requests may run new actions too, among their
own steps or after the last of them.

The old actions see no more of the wider world than its view, and the new ones
leave the view as it is. `Extension.hides` is the frame theorem: with the new
requests and the new actions left out, a run of the extended system is a run of the
old one, over the views of the same worlds and with outcomes that agree as the
extension says, given the new actions the thread has performed.

Layers:
1. `Program.lift`, `Masks`: a program with new actions in it, and the old program
   that is left when they are taken out.
2. `Extension`, `Extension.system`: the extended system.
3. `Shadows`: what is left of a trace; the threads keep their order.
4. The simulation, thread by thread, and `Extension.hides`.
-/

namespace GhostKey.Foundation

open Program

variable {A : Type} {R : A → Type} {X : Type} {T : X → Type}
variable {ε α β γ ρ ρ' W V O D Q N : Type}

/-! ## §1 Programs with new actions -/

namespace Program

/-- A program of old actions among the new ones. -/
def liftOld : Program A R ε α → Program (A ⊕ X) (Sum.elim R T) ε α
  | done a => done a
  | fail e => fail e
  | act a next => act (.inl a) fun r => liftOld (next r)

/-- A program of new actions among the old ones. -/
def liftNew : Program X T ε α → Program (A ⊕ X) (Sum.elim R T) ε α
  | done a => done a
  | fail e => fail e
  | act x next => act (.inr x) fun t => liftNew (next t)

/-- Where a program stands at its end. -/
def atEnd : Program A R ε α → Option (Except ε α)
  | done a => some (.ok a)
  | fail e => some (.error e)
  | act _ _ => none

/-- After the new actions `h`, `p` is what is left of `p'` without those to come, up to
outcomes that agree. -/
def Masks (agrees : History X T → Except ε β → Except ε α → Prop) :
    Program (A ⊕ X) (Sum.elim R T) ε β → Program A R ε α → History X T → Prop
  | done b, p, h => ∃ r, p.atEnd = some r ∧ agrees h (.ok b) r
  | fail e, p, h => ∃ r, p.atEnd = some r ∧ agrees h (.error e) r
  | act (.inl a) next, p, h => ∃ n, p = act a n ∧ ∀ r, Masks agrees (next r) (n r) h
  | act (.inr x) next, p, h => ∀ t, Masks agrees (next t) p (h ++ [⟨x, t⟩])

theorem bind_done (p : Program A R ε α) : p.bind done = p := by
  induction p with
  | done a => rfl
  | fail e => rfl
  | act a next ih =>
    simp only [act_bind]
    congr 1
    funext r
    exact ih r

namespace Masks

variable {agrees : History X T → Except ε γ → Except ε β → Prop} {h : History X T}

/-- Sequencing after an old program. -/
theorem lift_bind {p : Program A R ε α}
    {f' : α → Program (A ⊕ X) (Sum.elim R T) ε γ} {f : α → Program A R ε β}
    (rest : ∀ a, Masks agrees (f' a) (f a) h) (failed : ∀ e, agrees h (.error e) (.error e)) :
    Masks agrees (p.liftOld.bind f') (p.bind f) h := by
  induction p with
  | done a => exact rest a
  | fail e => exact ⟨.error e, rfl, failed e⟩
  | act a next ih => exact ⟨_, rfl, ih⟩

/-- An old program whose outcome is renamed. -/
theorem lift_map {p : Program A R ε β} {wrap : β → γ}
    (same : ∀ b, agrees h (.ok (wrap b)) (.ok b)) (failed : ∀ e, agrees h (.error e) (.error e)) :
    Masks agrees ((p.liftOld : Program (A ⊕ X) (Sum.elim R T) ε β).bind fun b => done (wrap b)) p
      h := by
  have whole : Masks agrees
      ((p.liftOld : Program (A ⊕ X) (Sum.elim R T) ε β).bind fun b => done (wrap b)) (p.bind done)
        h :=
    lift_bind (fun b => ⟨.ok b, rfl, same b⟩) failed
  rwa [bind_done] at whole

/-- A program of new actions behind the end of an old program, by what it meets. -/
theorem of_new {p' : Program X T ε α} {wrap : α → γ} {p : Program A R ε β} {r : Except ε β}
    {I : History X T → Event X T → Prop} (ended : p.atEnd = some r)
    (meets : Meets I (fun g r' => agrees g (r'.map wrap) r) p' h) :
    Masks agrees
      ((p'.liftNew : Program (A ⊕ X) (Sum.elim R T) ε α).bind fun a => done (wrap a)) p h := by
  induction p' generalizing h with
  | done a => exact ⟨r, ended, meets⟩
  | fail e => exact ⟨r, ended, meets⟩
  | act x next ih => exact fun t => ih t (meets t).2

end Masks

theorem only_liftNew (p : Program X T ε α) :
    Only (fun a => a.isRight = true) (p.liftNew : Program (A ⊕ X) (Sum.elim R T) ε α) := by
  induction p with
  | done a => trivial
  | fail e => trivial
  | act x next ih => exact ⟨rfl, ih⟩

/-- The new action of an event. -/
def newEvent? : Event (A ⊕ X) (Sum.elim R T) → Option (Event X T)
  | ⟨.inl _, _⟩ => none
  | ⟨.inr x, t⟩ => some ⟨x, t⟩

/-- What there is of new actions in a history. -/
def newPart (h : History (A ⊕ X) (Sum.elim R T)) : History X T := h.filterMap newEvent?

theorem mem_newPart {h : History (A ⊕ X) (Sum.elim R T)} {x : X} {t : T x} :
    (⟨x, t⟩ : Event X T) ∈ newPart h ↔ (⟨.inr x, t⟩ : Event (A ⊕ X) (Sum.elim R T)) ∈ h := by
  simp only [newPart, List.mem_filterMap]
  constructor
  · rintro ⟨⟨a, r⟩, mem, same⟩
    cases a with
    | inl a => cases same
    | inr y =>
      cases same
      exact mem
  · exact fun mem => ⟨_, mem, rfl⟩

/-- What a program of new actions meets, it meets among the old ones. -/
theorem Meets.liftNew {I : History X T → Event X T → Prop} {F : History X T → Except ε α → Prop}
    {p : Program X T ε α} {g : History (A ⊕ X) (Sum.elim R T)} (meets : Meets I F p (newPart g)) :
    Meets (fun g e => ∀ e', newEvent? e = some e' → I (newPart g) e') (fun g r => F (newPart g) r)
      p.liftNew g := by
  induction p generalizing g with
  | done a => exact meets
  | fail e => exact meets
  | act x next ih =>
    intro t
    obtain ⟨here, later⟩ := meets t
    refine ⟨fun e' same => by cases same; exact here, ih t ?_⟩
    simpa [newPart, newEvent?] using later

/-- A program of old actions adds no new ones. -/
theorem Meets.liftOld {p : Program A R ε α} {g : History (A ⊕ X) (Sum.elim R T)} :
    Meets (fun _ e => newEvent? e = none) (fun g' _ => newPart g' = newPart g) p.liftOld g := by
  induction p generalizing g with
  | done a => rfl
  | fail e => rfl
  | act a next ih =>
    refine fun r => ⟨rfl, Meets.mono (ih r) (fun _ _ e => e) fun g' _ same => ?_⟩
    rw [same]
    simp [newPart, newEvent?]

end Program

/-! ## §2 The extended system -/

/-- What is added to `S`: the requests of `N` and the actions of `X`, over the worlds `V`. -/
structure Extension (S : System A R ε ρ W O D Q) (X : Type) (T : X → Type) (ρ' V N : Type) where
  program : Q ⊕ N → Program (A ⊕ X) (Sum.elim R T) ε ρ'
  perform : (a : A ⊕ X) → O → V → Sum.elim R T a × V
  drift : D → V → V
  restart : V → V
  /-- What the old system knows of the world. -/
  view : V → W
  /-- The actions of the old requests. -/
  acts : A → Prop
  /-- Which outcomes of an old request agree, after the new actions it has performed. -/
  agrees : Q → History X T → Except ε ρ' → Except ε ρ → Prop
  masks : ∀ q, Masks (agrees q) (program (.inl q)) (S.program q) []
  old : ∀ q, Meets (fun _ e => acts e.action) (fun _ _ => True) (S.program q) []
  /-- The new requests keep to the new actions. -/
  new : ∀ n, Only (fun a => a.isRight = true) (program (.inr n))
  views : ∀ a o v, acts a →
    S.perform a o (view v) = ((perform (.inl a) o v).1, view (perform (.inl a) o v).2)
  frame : ∀ x o v, view (perform (.inr x) o v).2 = view v
  drifts : ∀ d v, view (drift d v) = S.drift d (view v)
  restarts : ∀ v, view (restart v) = S.restart (view v)

namespace Extension

variable {S : System A R ε ρ W O D Q}

def system (E : Extension S X T ρ' V N) :
    System (A ⊕ X) (Sum.elim R T) ε ρ' V O D (Q ⊕ N) where
  program := E.program
  mayStart q running := match q with
    | .inl q => S.mayStart q (running.filterMap Sum.getLeft?)
    | .inr _ => true
  perform := E.perform
  drift := E.drift
  restart := E.restart

/-! ## §3 What is left of a trace -/

/-- The place of thread `i` among the old requests. -/
def place (qs : List (Q ⊕ N)) (i : Nat) : Nat := (qs.take i).countP Sum.isLeft

/-- The new actions each thread has performed. -/
def newEvents (tr' : List (Step (A ⊕ X) (Sum.elim R T) ε ρ' V D (Q ⊕ N))) (i : Nat) :
    History X T :=
  newPart (eventsOf i tr')

/-- A step both systems take, by what their labels say; `H` are the new actions before it. -/
inductive Matches (E : Extension S X T ρ' V N) (qs : List (Q ⊕ N)) (H : Nat → History X T) :
    Label (A ⊕ X) (Sum.elim R T) ε ρ' D (Q ⊕ N) → Label A R ε ρ D Q → Prop
  | started (q : Q) :
      Matches E qs H (.started qs.length (.inl q)) (.started (place qs qs.length) q)
  | acted {i : Nat} {q : Q} (old : qs[i]? = some (.inl q)) (a : A) (r : R a) :
      Matches E qs H (.acted i ⟨.inl a, r⟩) (.acted (place qs i) ⟨a, r⟩)
  | returned {i : Nat} {q : Q} (old : qs[i]? = some (.inl q)) {r' : Except ε ρ'}
      {r : Except ε ρ} (agree : E.agrees q (H i) r' r) :
      Matches E qs H (.returned i r') (.returned (place qs i) r)
  | drifted (d : D) : Matches E qs H (.drifted d) (.drifted d)
  | halted : Matches E qs H .halted .halted

/-- A step only the extended system takes. -/
inductive Unseen (qs : List (Q ⊕ N)) :
    Label (A ⊕ X) (Sum.elim R T) ε ρ' D (Q ⊕ N) → Prop
  | started (n : N) : Unseen qs (.started qs.length (.inr n))
  | acted (i : Nat) (x : X) (t : T x) : Unseen qs (.acted i ⟨.inr x, t⟩)
  | returned {i : Nat} {n : N} (new : qs[i]? = some (.inr n)) (r' : Except ε ρ') :
      Unseen qs (.returned i r')

/-- The requests of the threads there are after a step. -/
def joined (qs : List (Q ⊕ N)) :
    Label (A ⊕ X) (Sum.elim R T) ε ρ' D (Q ⊕ N) → List (Q ⊕ N)
  | .started _ q => qs ++ [q]
  | _ => qs

/-- The second trace is the first one without what is new; `qs` are the requests made. -/
inductive Shadows (E : Extension S X T ρ' V N) : List (Q ⊕ N) →
    List (Step (A ⊕ X) (Sum.elim R T) ε ρ' V D (Q ⊕ N)) →
      List (Step A R ε ρ W D Q) → Prop
  | nil : Shadows E [] [] []
  | kept {qs : List (Q ⊕ N)} {tr' : List (Step (A ⊕ X) (Sum.elim R T) ε ρ' V D (Q ⊕ N))}
      {tr : List (Step A R ε ρ W D Q)}
      {t : Step (A ⊕ X) (Sum.elim R T) ε ρ' V D (Q ⊕ N)} {l : Label A R ε ρ D Q}
      (past : Shadows E qs tr' tr) (label : Matches E qs (newEvents tr') t.label l) :
      Shadows E (joined qs t.label) (tr' ++ [t]) (tr ++ [⟨E.view t.before, l, E.view t.after⟩])
  | dropped {qs : List (Q ⊕ N)}
      {tr' : List (Step (A ⊕ X) (Sum.elim R T) ε ρ' V D (Q ⊕ N))}
      {tr : List (Step A R ε ρ W D Q)}
      {t : Step (A ⊕ X) (Sum.elim R T) ε ρ' V D (Q ⊕ N)}
      (past : Shadows E qs tr' tr) (unseen : Unseen qs t.label)
      (frame : E.view t.after = E.view t.before) :
      Shadows E (joined qs t.label) (tr' ++ [t]) tr

/-! ## §4 The simulation -/

/-- The new actions after a step. -/
def heardAfter (H : Nat → History X T) :
    Label (A ⊕ X) (Sum.elim R T) ε ρ' D (Q ⊕ N) → Nat → History X T
  | .acted i ⟨.inr x, t⟩, j => if j = i then H j ++ [⟨x, t⟩] else H j
  | _, j => H j

/-- What is left of a thread of the old request `q`, on both sides, after the new actions `h`. -/
def RestMasks (E : Extension S X T ρ' V N) (q : Q) (h : History X T) :
    Option (Program (A ⊕ X) (Sum.elim R T) ε ρ') → Option (Program A R ε ρ) → Prop
  | none, none => True
  | some p', some p => Masks (E.agrees q) p' p h ∧
      ∃ g, Meets (fun _ e => E.acts e.action) (fun _ _ => True) p g
  | _, _ => False

/-- What is left of a thread of a new request. -/
def RestNew (_ : Extension S X T ρ' V N) (rest' : Option (Program (A ⊕ X) (Sum.elim R T) ε ρ')) :
    Prop :=
  ∀ p, rest' = some p → Only (fun a => a.isRight = true) p

/-- The threads of the old requests, in their order; `H` are the new actions of each thread. -/
inductive Covers (E : Extension S X T ρ' V N) : (Nat → History X T) →
    List (Thread (A ⊕ X) (Sum.elim R T) ε ρ' (Q ⊕ N)) → List (Thread A R ε ρ Q) → Prop
  | nil {H : Nat → History X T} : Covers E H [] []
  | old {H : Nat → History X T} {q : Q} {rest' : Option (Program (A ⊕ X) (Sum.elim R T) ε ρ')}
      {rest : Option (Program A R ε ρ)} {ts' : List (Thread (A ⊕ X) (Sum.elim R T) ε ρ' (Q ⊕ N))}
      {ts : List (Thread A R ε ρ Q)} (here : E.RestMasks q (H 0) rest' rest)
      (later : Covers E (fun i => H (i + 1)) ts' ts) :
      Covers E H (⟨.inl q, rest'⟩ :: ts') (⟨q, rest⟩ :: ts)
  | new {H : Nat → History X T} {n : N} {rest' : Option (Program (A ⊕ X) (Sum.elim R T) ε ρ')}
      {ts' : List (Thread (A ⊕ X) (Sum.elim R T) ε ρ' (Q ⊕ N))} {ts : List (Thread A R ε ρ Q)}
      (here : E.RestNew rest') (later : Covers E (fun i => H (i + 1)) ts' ts) :
      Covers E H (⟨.inr n, rest'⟩ :: ts') ts

section Covers

variable {E : Extension S X T ρ' V N} {H : Nat → History X T}
variable {ts' : List (Thread (A ⊕ X) (Sum.elim R T) ε ρ' (Q ⊕ N))} {ts : List (Thread A R ε ρ Q)}

private theorem place_cons (q : Q ⊕ N) (qs : List (Q ⊕ N)) (i : Nat) :
    place (q :: qs) (i + 1) = place qs i + if q.isLeft then 1 else 0 := by
  simp [place, List.countP_cons]

/-- The old thread at its place, and what may be put there once it has done more. -/
theorem Covers.old_at (covers : Covers E H ts' ts) {i : Nat} {q : Q}
    {rest' : Option (Program (A ⊕ X) (Sum.elim R T) ε ρ')}
    (at_i : ts'[i]? = some ⟨.inl q, rest'⟩) :
    ∃ rest, ts[place (ts'.map Thread.request) i]? = some ⟨q, rest⟩ ∧
      E.RestMasks q (H i) rest' rest ∧
      ∀ (H' : Nat → History X T) more' more, (∀ j, j ≠ i → H' j = H j) →
        E.RestMasks q (H' i) more' more →
          Covers E H' (ts'.set i ⟨.inl q, more'⟩)
            (ts.set (place (ts'.map Thread.request) i) ⟨q, more⟩) := by
  -- induction on the cover: the place counts the old threads before this one
  induction covers generalizing i with
  | nil => simp at at_i
  | @old H q₀ rest₀' rest₀ ts' ts here later ih =>
    cases i with
    | zero =>
      simp only [List.getElem?_cons_zero, Option.some.injEq, Thread.mk.injEq] at at_i
      obtain ⟨same, rfl⟩ := at_i
      cases same
      refine ⟨rest₀, by simp [place], here, fun H' more' more others masks => ?_⟩
      have behind : (fun j => H' (j + 1)) = fun j => H (j + 1) :=
        funext fun j => others (j + 1) (Nat.succ_ne_zero j)
      simpa [place] using Covers.old masks (behind ▸ later)
    | succ i =>
      rw [List.getElem?_cons_succ] at at_i
      obtain ⟨rest, found, masks, put⟩ := ih at_i
      rw [List.map_cons, place_cons]
      refine ⟨rest, by simpa using found, masks, fun H' more' more others masks => ?_⟩
      have first : E.RestMasks q₀ (H' 0) rest₀' rest₀ := others 0 (Nat.zero_ne_add_one i) ▸ here
      simpa using Covers.old first (put (fun j => H' (j + 1)) more' more
        (fun j other => others (j + 1) fun same => other (Nat.succ.inj same)) masks)
  | @new H n rest₀' ts' ts here later ih =>
    cases i with
    | zero => simp at at_i
    | succ i =>
      rw [List.getElem?_cons_succ] at at_i
      obtain ⟨rest, found, masks, put⟩ := ih at_i
      rw [List.map_cons, place_cons]
      refine ⟨rest, by simpa using found, masks, fun H' more' more others masks => ?_⟩
      simpa using Covers.new here (put (fun j => H' (j + 1)) more' more
        (fun j other => others (j + 1) fun same => other (Nat.succ.inj same)) masks)

/-- A new thread goes on without the old system. -/
theorem Covers.new_at (covers : Covers E H ts' ts) {i : Nat} {n : N}
    {rest' : Option (Program (A ⊕ X) (Sum.elim R T) ε ρ')}
    (at_i : ts'[i]? = some ⟨.inr n, rest'⟩) :
    E.RestNew rest' ∧ ∀ (H' : Nat → History X T) more', (∀ j, j ≠ i → H' j = H j) →
      E.RestNew more' → Covers E H' (ts'.set i ⟨.inr n, more'⟩) ts := by
  -- by induction on the threads before it
  induction covers generalizing i with
  | nil => simp at at_i
  | @old H q₀ rest₀' rest₀ ts' ts here later ih =>
    cases i with
    | zero => simp at at_i
    | succ i =>
      obtain ⟨now, put⟩ := ih at_i
      refine ⟨now, fun H' more' others new => ?_⟩
      have first : E.RestMasks q₀ (H' 0) rest₀' rest₀ := others 0 (Nat.zero_ne_add_one i) ▸ here
      exact Covers.old first (put (fun j => H' (j + 1)) more'
        (fun j other => others (j + 1) fun same => other (Nat.succ.inj same)) new)
  | @new H n₀ rest₀' ts' ts here later ih =>
    cases i with
    | zero =>
      simp only [List.getElem?_cons_zero, Option.some.injEq, Thread.mk.injEq] at at_i
      obtain ⟨same, rfl⟩ := at_i
      refine ⟨here, fun H' more' others new => ?_⟩
      have behind : (fun j => H' (j + 1)) = fun j => H (j + 1) :=
        funext fun j => others (j + 1) (Nat.succ_ne_zero j)
      cases same
      exact Covers.new new (behind ▸ later)
    | succ i =>
      obtain ⟨now, put⟩ := ih at_i
      refine ⟨now, fun H' more' others new => ?_⟩
      exact Covers.new here (put (fun j => H' (j + 1)) more'
        (fun j other => others (j + 1) fun same => other (Nat.succ.inj same)) new)

theorem Covers.append_old (covers : Covers E H ts' ts) {q : Q}
    {rest' : Option (Program (A ⊕ X) (Sum.elim R T) ε ρ')} {rest : Option (Program A R ε ρ)}
    (masks : E.RestMasks q (H ts'.length) rest' rest) :
    Covers E H (ts' ++ [⟨.inl q, rest'⟩]) (ts ++ [⟨q, rest⟩]) := by
  induction covers with
  | nil => exact Covers.old masks Covers.nil
  | old here later ih => exact Covers.old here (ih masks)
  | new here later ih => exact Covers.new here (ih masks)

theorem Covers.append_new (covers : Covers E H ts' ts) {n : N}
    {rest' : Option (Program (A ⊕ X) (Sum.elim R T) ε ρ')} (new : E.RestNew rest') :
    Covers E H (ts' ++ [⟨.inr n, rest'⟩]) ts := by
  induction covers with
  | nil => exact Covers.new new Covers.nil
  | old here later ih => exact Covers.old here ih
  | new here later ih => exact Covers.new here ih

theorem Covers.killed (covers : Covers E H ts' ts) :
    Covers E H (ts'.map Thread.killed) (ts.map Thread.killed) := by
  induction covers with
  | nil => exact Covers.nil
  | old here later ih => exact Covers.old trivial ih
  | new here later ih => exact Covers.new (fun p none => by cases none) ih

/-- The old requests running are the same on both sides. -/
theorem Covers.running (covers : Covers E H ts' ts) :
    ((ts'.filter Thread.running).map Thread.request).filterMap Sum.getLeft? =
      (ts.filter Thread.running).map Thread.request := by
  induction covers with
  | nil => rfl
  | @old H q rest' rest ts' ts here later ih =>
    cases rest' with
    | none =>
      cases rest with
      | none => simpa [Thread.running] using ih
      | some p => exact here.elim
    | some p' =>
      cases rest with
      | none => exact here.elim
      | some p =>
        rw [List.filter_cons_of_pos rfl, List.filter_cons_of_pos rfl]
        simpa using ih
  | @new H n rest' ts' ts here later ih =>
    cases rest' with
    | none => simpa [Thread.running] using ih
    | some p' =>
      rw [List.filter_cons_of_pos rfl, List.map_cons, List.filterMap_cons_none rfl, ih]

theorem Covers.length (covers : Covers E H ts' ts) :
    ts.length = (ts'.map Thread.request).countP Sum.isLeft := by
  induction covers with
  | nil => rfl
  | old here later ih =>
    rw [List.map_cons, List.countP_cons_of_pos rfl, List.length_cons, ih]
  | new here later ih =>
    rw [List.map_cons, List.countP_cons_of_neg Bool.false_ne_true, ih]

end Covers

/-- The two configurations of the simulation. -/
structure Hides (E : Extension S X T ρ' V N) (H : Nat → History X T) (qs : List (Q ⊕ N))
    (c' : Config (A ⊕ X) (Sum.elim R T) ε ρ' V (Q ⊕ N)) (c : Config A R ε ρ W Q) : Prop where
  world : c.world = E.view c'.world
  requests : c'.threads.map Thread.request = qs
  threads : Covers E H c'.threads c.threads
  /-- Nothing was heard of the threads still to be started. -/
  unheard : ∀ i, c'.threads.length ≤ i → H i = []

section Simulation

variable {E : Extension S X T ρ' V N} {H : Nat → History X T} {qs : List (Q ⊕ N)}
variable {c₁ c₂ : Config (A ⊕ X) (Sum.elim R T) ε ρ' V (Q ⊕ N)} {c : Config A R ε ρ W Q}
variable {l' : Label (A ⊕ X) (Sum.elim R T) ε ρ' D (Q ⊕ N)}

private theorem set_same {α : Type} {l : List α} {i : Nat} {a : α} (at_i : l[i]? = some a) :
    l.set i a = l := by
  obtain ⟨inside, here⟩ := List.getElem?_eq_some_iff.1 at_i
  rw [← here]
  exact List.set_getElem_self inside

/-- Requests stay what they are. -/
private theorem requests_set {ts' : List (Thread (A ⊕ X) (Sum.elim R T) ε ρ' (Q ⊕ N))} {i : Nat}
    {q : Q ⊕ N} {rest' more' : Option (Program (A ⊕ X) (Sum.elim R T) ε ρ')}
    (at_i : ts'[i]? = some ⟨q, rest'⟩) :
    (ts'.set i ⟨q, more'⟩).map Thread.request = ts'.map Thread.request := by
  rw [List.map_set]
  exact set_same (by rw [List.getElem?_map, at_i]; rfl)

/-- A thread at its end returns. -/
private theorem advance_atEnd {j : Nat} {q : Q} {p : Program A R ε ρ} {r : Except ε ρ} (o : O)
    (at_j : c.threads[j]? = some ⟨q, some p⟩) (ended : p.atEnd = some r) :
    S.advance j o c = some (.returned j r, { c with threads := c.threads.set j ⟨q, none⟩ }) := by
  cases p with
  | done a =>
    cases ended
    simp [System.advance, at_j]
  | fail e =>
    cases ended
    simp [System.advance, at_j]
  | act a next => cases ended

/-- An old thread that returns does so in both systems. -/
private theorem Hides.return_old (hides : Hides E H qs c₁ c) {i : Nat} {q : Q} (o : O)
    {p' : Program (A ⊕ X) (Sum.elim R T) ε ρ'} {r' : Except ε ρ'}
    (at_i : c₁.threads[i]? = some ⟨.inl q, some p'⟩)
    (ends : ∀ p, Masks (E.agrees q) p' p (H i) → ∃ r, p.atEnd = some r ∧ E.agrees q (H i) r' r) :
    ∃ l d, S.next (.step (place qs i) o) c = some (l, d) ∧ Matches E qs H (.returned i r') l ∧
      Hides E H qs { c₁ with threads := c₁.threads.set i ⟨.inl q, none⟩ } d := by
  obtain ⟨world, requests, threads, unheard⟩ := hides
  obtain ⟨rest, found, masks, put⟩ := threads.old_at at_i
  rw [requests] at found put
  cases rest with
  | none => exact masks.elim
  | some p =>
    obtain ⟨r, ended, agree⟩ := ends p masks.1
    have old : qs[i]? = some (.inl q) := by
      rw [← requests, List.getElem?_map, at_i]
      rfl
    exact ⟨_, _, advance_atEnd o found ended, .returned old agree, world,
      (requests_set at_i).trans requests, put H none none (fun _ _ => rfl) trivial,
      fun j beyond => unheard j (by simpa using beyond)⟩

/-- A new action is heard of the thread that performs it. -/
private theorem heardAfter_other {i j : Nat} {x : X} {t : T x} (other : j ≠ i) :
    heardAfter H (.acted i ⟨.inr x, t⟩ : Label (A ⊕ X) (Sum.elim R T) ε ρ' D (Q ⊕ N)) j = H j :=
  if_neg other

private theorem heardAfter_self {i : Nat} {x : X} {t : T x} :
    heardAfter H (.acted i ⟨.inr x, t⟩ : Label (A ⊕ X) (Sum.elim R T) ε ρ' D (Q ⊕ N)) i =
      H i ++ [⟨x, t⟩] :=
  if_pos rfl

/-- One step of the extended system is one of the old system or is not seen there. -/
theorem Hides.next {m : Move O D (Q ⊕ N)} (hides : Hides E H qs c₁ c)
    (step : E.system.next m c₁ = some (l', c₂)) :
    (∃ m' l d, S.next m' c = some (l, d) ∧ Matches E qs H l' l ∧
        Hides E (heardAfter H l') (joined qs l') c₂ d) ∨
      (Unseen qs l' ∧ E.view c₂.world = E.view c₁.world ∧
        Hides E (heardAfter H l') (joined qs l') c₂ c) := by
  have whole := hides
  obtain ⟨world, requests, threads, unheard⟩ := hides
  have size : c₁.threads.length = qs.length := by rw [← requests, List.length_map]
  -- a thread that was there before is heard of where it was
  have later : ∀ {j n : Nat} {t : Thread (A ⊕ X) (Sum.elim R T) ε ρ' (Q ⊕ N)},
      (c₁.threads.set j t).length ≤ n → H n = [] := fun beyond => unheard _ (by simpa using beyond)
  cases m with
  | start q =>
    simp only [System.next] at step
    split at step
    · next may =>
      cases step
      have more : ∀ (t : Thread (A ⊕ X) (Sum.elim R T) ε ρ' (Q ⊕ N)) n,
          (c₁.threads ++ [t]).length ≤ n → H n = [] := fun t n beyond => by
        rw [List.length_append] at beyond
        exact unheard n (Nat.le_of_add_right_le beyond)
      cases q with
      | inl q =>
        left
        have old_may :
            S.mayStart q ((c.threads.filter Thread.running).map Thread.request) = true := by
          rw [← threads.running]
          exact may
        have here : c.threads.length = place qs qs.length := by
          rw [threads.length, requests, place, List.take_length]
        have masks : E.RestMasks q (H c₁.threads.length) (some (E.program (.inl q)))
            (some (S.program q)) := by
          rw [unheard _ (Nat.le_refl _)]
          exact ⟨E.masks q, [], E.old q⟩
        refine ⟨.start q, .started c.threads.length q,
          { c with threads := c.threads ++ [⟨q, some (S.program q)⟩] },
          by rw [System.next, if_pos old_may], ?_, world, by simp [joined, requests],
          threads.append_old masks, more _⟩
        rw [here, size]
        exact .started q
      | inr n =>
        rw [size]
        refine .inr ⟨.started n, rfl, world, by simp [joined, requests],
          threads.append_new fun p same => ?_, more _⟩
        cases same
        exact E.new n
    · cases step
  | drift d =>
    cases step
    exact .inl ⟨.drift d, _, _, rfl, .drifted d, by rw [world]; exact (E.drifts d _).symm,
      requests, threads, unheard⟩
  | halt =>
    cases step
    refine .inl ⟨.halt, _, _, rfl, .halted, by rw [world]; exact (E.restarts _).symm, ?_,
      threads.killed, fun i beyond => unheard i (by simpa using beyond)⟩
    rw [List.map_map]
    exact requests
  | step i o =>
    simp only [System.next, System.advance] at step
    have named : ∀ {q rest'}, c₁.threads[i]? = some ⟨q, rest'⟩ → qs[i]? = some q := fun at_i => by
      rw [← requests, List.getElem?_map, at_i]
      rfl
    split at step
    · next q b at_i =>
      cases step
      cases q with
      | inl q => exact .inl ⟨_, whole.return_old o at_i fun p masks => masks⟩
      | inr n =>
        exact .inr ⟨.returned (named at_i) _, rfl, world, (requests_set at_i).trans requests,
          (threads.new_at at_i).2 H none (fun _ _ => rfl) (by simp [RestNew]), fun _ => later⟩
    · next q e at_i =>
      cases step
      cases q with
      | inl q => exact .inl ⟨_, whole.return_old o at_i fun p masks => masks⟩
      | inr n =>
        exact .inr ⟨.returned (named at_i) _, rfl, world, (requests_set at_i).trans requests,
          (threads.new_at at_i).2 H none (fun _ _ => rfl) (by simp [RestNew]), fun _ => later⟩
    · next q a next' at_i =>
      cases step
      have inside := (List.getElem?_eq_some_iff.1 at_i).1
      cases a with
      | inr x =>
        -- a new action leaves the view alone, whoever runs it
        have fresh : ∀ t n, (c₁.threads.set i t).length ≤ n →
            heardAfter H (.acted i ⟨.inr x, (E.perform (.inr x) o c₁.world).1⟩ :
              Label (A ⊕ X) (Sum.elim R T) ε ρ' D (Q ⊕ N)) n = [] := by
          intro t n beyond
          rw [List.length_set] at beyond
          have other : n ≠ i := by omega
          exact (heardAfter_other other).trans (unheard n beyond)
        have frame := E.frame x o c₁.world
        refine .inr ⟨.acted i x _, frame, world.trans frame.symm,
          (requests_set at_i).trans requests, ?_, fresh _⟩
        cases q with
        | inl q =>
          obtain ⟨rest, found, masks, put⟩ := threads.old_at at_i
          cases rest with
          | none => exact masks.elim
          | some p =>
            rw [← set_same found]
            refine put _ (some (next' _)) (some p) (fun j other => heardAfter_other other) ?_
            exact (heardAfter_self (H := H) (t := (E.perform (.inr x) o c₁.world).1)).symm ▸
              ⟨masks.1 _, masks.2⟩
        | inr n =>
          obtain ⟨new, put⟩ := threads.new_at at_i
          refine put _ _ (fun j other => heardAfter_other other) fun p same => ?_
          cases same
          exact (new _ rfl).2 _
      | inl a =>
        cases q with
        | inr n =>
          have new := ((threads.new_at at_i).1 _ rfl).1
          simp at new
        | inl q =>
          obtain ⟨rest, found, masks, put⟩ := threads.old_at at_i
          cases rest with
          | none => exact masks.elim
          | some p =>
            obtain ⟨⟨next, rfl, masks⟩, g, keeps⟩ := masks
            obtain ⟨acts, keeps⟩ := keeps (S.perform a o c.world).1
            have seen := E.views a o c₁.world acts
            rw [← world] at seen
            rw [requests] at found put
            refine .inl ⟨.step (place qs i) o, .acted (place qs i) ⟨a, (S.perform a o c.world).1⟩,
              ⟨(S.perform a o c.world).2, c.threads.set (place qs i)
                ⟨q, some (next (S.perform a o c.world).1)⟩⟩,
              by simp [System.next, System.advance, found], ?_⟩
            rw [seen] at keeps ⊢
            exact ⟨.acted (named at_i) a _, rfl, (requests_set at_i).trans requests,
              put H _ _ (fun _ _ => rfl) ⟨masks _, _, keeps⟩, fun _ => later⟩
    · cases step

/-- What is heard of the threads after one more step. -/
private theorem newEvents_snoc (tr' : List (Step (A ⊕ X) (Sum.elim R T) ε ρ' V D (Q ⊕ N)))
    (t : Step (A ⊕ X) (Sum.elim R T) ε ρ' V D (Q ⊕ N)) :
    newEvents (tr' ++ [t]) = heardAfter (newEvents tr') t.label := by
  funext j
  obtain ⟨before, l, after⟩ := t
  unfold newEvents
  rw [eventsOf_append, newPart, List.filterMap_append]
  -- the rest is what the step itself adds
  cases l with
  | acted i e =>
    obtain ⟨a, r⟩ := e
    by_cases here : j = i
    · subst here
      cases a with
      | inl a => simp [eventsOf, newEvent?, heardAfter, newPart]
      | inr x => simp [eventsOf, newEvent?, heardAfter, newPart]
    · have other : ¬ i = j := fun same => here same.symm
      cases a with
      | inl a => simp [eventsOf, heardAfter, newPart, other]
      | inr x => simp [eventsOf, heardAfter, newPart, here, other]
  | started i q => simp [eventsOf, heardAfter, newPart]
  | returned i r => simp [eventsOf, heardAfter, newPart]
  | drifted d => simp [eventsOf, heardAfter, newPart]
  | halted => simp [eventsOf, heardAfter, newPart]

/-- The frame theorem: without what is new, a run of the extended system is a run of the
old one. -/
theorem hides (E : Extension S X T ρ' V N) {v : V}
    {tr' : List (Step (A ⊕ X) (Sum.elim R T) ε ρ' V D (Q ⊕ N))}
    {c' : Config (A ⊕ X) (Sum.elim R T) ε ρ' V (Q ⊕ N)}
    (run : Run E.system (System.boot v) tr' c') :
    ∃ qs tr c, Run S (System.boot (E.view v)) tr c ∧ Shadows E qs tr' tr ∧
      Hides E (newEvents tr') qs c' c := by
  induction run with
  | nil => exact ⟨[], [], _, Run.nil, .nil, rfl, rfl, .nil, fun _ _ => rfl⟩
  | @snoc tr' c₁ c₂ m l' run' step ih =>
    obtain ⟨qs, tr, c, run, shadows, hides⟩ := ih
    rw [newEvents_snoc]
    rcases hides.next step with ⟨m', l, d, step', label, hides'⟩ | ⟨unseen, frame, hides'⟩
    · refine ⟨_, _, d, Run.snoc run step', ?_, hides'⟩
      rw [hides.world, hides'.world]
      exact .kept (t := ⟨c₁.world, l', c₂.world⟩) shadows label
    · exact ⟨_, tr, c, run, .dropped (t := ⟨c₁.world, l', c₂.world⟩) shadows unseen frame, hides'⟩

end Simulation

end Extension

end GhostKey.Foundation

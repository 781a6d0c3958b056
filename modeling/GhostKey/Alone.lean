import GhostKey.Conduct

/-!
# Handlers That Run Alone

What a handler comes to when nothing else runs and the database answers. The
services may still answer anything; `can` says what is allowed of them.

Main results:
- `Reliable.now_bind`, `Reliable.query_bind`, `Reliable.update_bind`,
  `Reliable.recordEvent_bind`: one action and what follows it.
- `Yields.calm_bind`: a part that touches neither the vaults nor the chain.
- `atOnce_query_bind`, `atOnce_update_bind`, `atOnce_recordEvent_bind`,
  `atOnce_logged_bind`: the same for what a handler comes to at one moment.
-/

namespace GhostKey

open Foundation Program Prog

/-- What an action may be answered, and the world it leaves. -/
abbrev Answers := (a : Action) → World → a.Response → World → Prop

/-- What the server's world may answer while its database does. -/
def answering : Answers := fun a w r w' => ∃ o : Oracle, o.dbFails = false ∧ a.perform o w = (r, w')

/-- The database answers; the services may be promised to do so too. -/
def Reliable (can : Answers) : Prop := ∀ a w r w', can a w r w' → answering a w r w'

theorem reliable_answering : Reliable answering := fun _ _ _ _ step => step

/-! ## §1 Frames -/

/-- The vaults and the chain are as they were. -/
structure World.Frame (w w' : World) : Prop where
  vaults : w'.db.vaults = w.db.vaults
  coins : w'.coins = w.coins

namespace World.Frame

variable {w w' w'' : World}

theorem refl (w : World) : w.Frame w := ⟨rfl, rfl⟩

theorem trans (first : w.Frame w') (second : w'.Frame w'') : w.Frame w'' :=
  ⟨second.vaults.trans first.vaults, second.coins.trans first.coins⟩

theorem vault? (frame : w.Frame w') (v : VaultId) : w'.vault? v = w.vault? v := by
  unfold World.vault? Db.vault?
  rw [frame.vaults]

end World.Frame

/-- A statement on another table. -/
def Stmt.isCalm : Stmt → Bool
  | updateVault _ _ => false
  | insertVault _ => false
  | deleteVault _ => false
  | _ => true

/-- An action that touches neither the vaults nor the chain. -/
def Action.isCalm : Action → Bool
  | exec st => st.isCalm
  | ask x => x.isFree
  | payCheckin _ _ => false
  | payPanic _ _ => false
  | _ => true

theorem Stmt.vaults_of_calm {st : Stmt} {db db' : Db} {n : Nat} (calm : st.isCalm = true)
    (ran : st.run db = .ok (db', n)) : db'.vaults = db.vaults := by
  cases st with
  | updateVault | insertVault | deleteVault => cases calm
  | insertGuardian g =>
    simp only [run] at ran
    split at ran
    · split at ran <;> cases ran
      rfl
    · cases ran
  | insertEvent e => simp only [run] at ran; split at ran <;> cases ran; rfl
  | insertNotification e => simp only [run] at ran; split at ran <;> cases ran; rfl
  | insertInvoice i =>
    simp only [run] at ran
    split at ran
    · split at ran
      · split at ran <;> cases ran
        rfl
      · cases ran
    · cases ran
  | insertDeposit d => simp only [run] at ran; split at ran <;> cases ran <;> rfl
  | _ => cases ran; rfl

theorem Action.frame_of_calm {a : Action} {o : Oracle} {w w' : World} {r : a.Response}
    (calm : a.isCalm = true) (performed : a.perform o w = (r, w')) : w.Frame w' := by
  cases a with
  | exec st =>
    simp only [Action.perform] at performed
    split at performed
    · cases performed
      exact .refl w
    · split at performed
      · next db n ran =>
        cases performed
        exact ⟨Stmt.vaults_of_calm calm ran, rfl⟩
      · cases performed
        exact .refl w
  | ask x =>
    cases performed
    cases x <;> first | exact .refl w | cases calm
  | payCheckin | payPanic => cases calm
  | _ =>
    cases performed
    exact ⟨rfl, rfl⟩

/-- The world after an UPDATE of one vault. -/
def World.update (w : World) (v : VaultId) (u : VaultUpdate) : World :=
  { w with db := w.db.updateVault v u }

theorem World.vault?_update (w : World) (v : VaultId) (u : VaultUpdate) (k : VaultId) :
    (w.update v u).vault? k = (w.vault? k).map fun r => if k = v then u.onRow r else r :=
  Db.vault?_updateVault w.db v u k

theorem World.vault?_update_here {w : World} {v : VaultId} {u : VaultUpdate} {r : VaultRow}
    (row : w.vault? v = some r) : (w.update v u).vault? v = some (u.onRow r) := by
  rw [vault?_update, row]
  simp

theorem World.vault?_update_self {w : World} {v : VaultId} {u : VaultUpdate} {r : VaultRow}
    (row : w.vault? v = some r) (guard : u.guard r = true) :
    (w.update v u).vault? v = some (u.set r) := by
  rw [vault?_update_here row, VaultUpdate.onRow, if_pos guard]

theorem World.vault?_update_ne {w : World} {v k : VaultId} {u : VaultUpdate} (other : k ≠ v) :
    (w.update v u).vault? k = w.vault? k := by
  rw [vault?_update]
  simp [other]

/-- The world after an event was recorded. -/
def World.record (w : World) (e : EventRow) : World :=
  { w with db := { w.db with events := w.db.events ++ [e] } }

@[simp] theorem World.vault?_record (w : World) (e : EventRow) (k : VaultId) :
    (w.record e).vault? k = w.vault? k := rfl

/-! ## §2 Rules -/

section Rules

variable {can : Answers} {α β : Type} {P : World → Hist → Except ApiError β → Prop} {w : World}
  {h : Hist}

namespace Reliable

variable (reliable : Reliable can)

include reliable

theorem now_bind {f : Instant → Prog β}
    (next : Yields can P (f w.clock) w (h ++ [⟨.now, w.clock⟩])) :
    Yields can P (Prog.now.bind f) w h := by
  intro r w' step
  obtain ⟨o, -, performed⟩ := reliable _ w r w' step
  cases performed
  exact next

theorem query_bind {q : Query} {r : q.Result} {f : q.Result → Prog β}
    (answer : q.eval w.db = .ok r)
    (next : Yields can P (f r) w (h ++ [⟨.query q, .ok r⟩])) :
    Yields can P ((query q).bind f) w h := by
  intro r' w' step
  obtain ⟨o, answers, performed⟩ := reliable _ w r' w' step
  simp only [Action.perform, answers, Bool.false_eq_true, answer] at performed
  cases performed
  exact next

theorem update_bind {v : VaultId} {u : VaultUpdate} {f : Nat → Prog β}
    (next : Yields can P (f (w.db.affected v u)) (w.update v u)
      (h ++ [⟨.exec (.updateVault v u), .ok (w.db.affected v u)⟩])) :
    Yields can P ((update v u).bind f) w h := by
  intro r' w' step
  obtain ⟨o, answers, performed⟩ := reliable _ w r' w' step
  simp only [Action.perform, answers, Bool.false_eq_true, if_false, Stmt.run] at performed
  cases performed
  exact next

/-- An event of a vault that is there. -/
theorem recordEvent_bind {v : VaultId} {kind : EventKind} {detail : Detail} {r : VaultRow}
    {f : Unit → Prog β} (row : w.vault? v = some r)
    (next : ∀ w' h', w.Frame w' → Yields can P (f ()) w' h') :
    Yields can P ((recordEvent v kind detail).bind f) w h := by
  have present : w.db.hasVault v = true := by
    rw [Db.hasVault, show w.db.vault? v = some r from row]
    rfl
  refine reliable.now_bind (f := fun t => _) ?_
  intro r' w' step
  obtain ⟨o, answers, performed⟩ := reliable _ w r' w' step
  simp only [Action.perform, answers, Bool.false_eq_true, if_false, Stmt.run, present,
    if_true] at performed
  cases performed
  exact next _ _ ⟨rfl, rfl⟩

end Reliable

/-- A part that touches neither the vaults nor the chain, and is sure to end. -/
theorem Yields.calm_bind {p : Prog α} {f : α → Prog β} (reliable : Reliable can)
    (sure : p.Sure fun a => a.isCalm = true)
    (next : ∀ w' h' a, w.Frame w' → Yields can P (f a) w' h') :
    Yields can P (p.bind f) w h := by
  refine Yields.bind (Yields.of_sure (I := w.Frame) sure ?_ (.refl w)) ?_ ?_
  · intro a w₁ r w₂ calm step frame
    obtain ⟨o, -, performed⟩ := reliable a w₁ r w₂ step
    exact frame.trans (Action.frame_of_calm calm performed)
  · rintro w' h' a ⟨frame, -⟩
    exact next w' h' a frame
  · rintro w' h' e ⟨-, a, ⟨⟩⟩

end Rules

/-! ## §3 At one moment -/

/-- What a handler comes to, and the world it leaves, when it runs alone while the
clock stands still and the services answer as `o` says. -/
abbrev atOnce {α : Type} (p : Prog α) (o : Oracle) (w : World) : Except ApiError α × World :=
  Program.atOnce Action.perform o p w

/-- At that moment the handler answers with an error. -/
def Refuses {α : Type} (p : Prog α) (o : Oracle) (w : World) : Prop :=
  ∃ e, (atOnce p o w).1 = .error e

section AtOnce

variable {α β : Type} {o : Oracle} {w : World}

theorem not_refuses_iff {p : Prog α} : ¬ Refuses p o w ↔ ∃ a, (atOnce p o w).1 = .ok a := by
  unfold Refuses
  cases (atOnce p o w).1 <;> simp

theorem Refuses.bind {p : Prog α} (refuses : Refuses p o w) (f : α → Prog β) :
    Refuses (Program.bind p f) o w := by
  obtain ⟨e, refused⟩ := refuses
  unfold Refuses atOnce at *
  rw [atOnce_bind]
  split
  · next a w' came =>
    rw [came] at refused
    cases refused
  · exact ⟨_, rfl⟩

theorem atOnce_ok_bind {p : Prog α} {a : α} {w' : World} (came : atOnce p o w = (.ok a, w'))
    (f : α → Prog β) : atOnce (Program.bind p f) o w = atOnce (f a) o w' := by
  unfold atOnce at *
  rw [atOnce_bind, came]

@[simp] theorem atOnce_now_bind (f : Instant → Prog β) :
    atOnce (Prog.now.bind f) o w = atOnce (f w.clock) o w := rfl

@[simp] theorem atOnce_perform_bind (a : Action) (f : a.Response → Prog β) :
    atOnce ((Program.perform a).bind f) o w =
      atOnce (f (a.perform o w).1) o (a.perform o w).2 := rfl

@[simp] theorem atOnce_ask_bind (x : External) (f : x.Answer → Prog β) :
    atOnce ((Prog.ask x).bind f) o w =
      atOnce (f (o.answer x)) o (x.effect (o.answer x) w) := rfl

theorem atOnce_query_bind (answers : o.dbFails = false) {q : Query} {r : q.Result}
    (answer : q.eval w.db = .ok r) (f : q.Result → Prog β) :
    atOnce ((query q).bind f) o w = atOnce (f r) o w := by
  have performed : ((Action.query q).perform o w) = (.ok r, w) := by
    simp [Action.perform, answers, answer]
  simp only [query, atOnce, act_bind, Program.atOnce, performed, done_bind]

theorem atOnce_vault_bind (answers : o.dbFails = false) {v : VaultId} {r : VaultRow}
    (row : w.vault? v = some r) (f : (Query.vault v).Result → Prog β) :
    atOnce ((query (.vault v)).bind f) o w = atOnce (f (some r)) o w :=
  atOnce_query_bind (q := .vault v) answers (congrArg Except.ok row) f

theorem refuses_query_bind (fails : o.dbFails = true) {q : Query} (f : q.Result → Prog β) :
    Refuses ((query q).bind f) o w := by
  refine ⟨.db .unavailable, ?_⟩
  simp [query, atOnce, Program.atOnce, Action.perform, fails]

theorem atOnce_update_bind (answers : o.dbFails = false) (v : VaultId) (u : VaultUpdate)
    (f : Nat → Prog β) :
    atOnce ((update v u).bind f) o w = atOnce (f (w.db.affected v u)) o (w.update v u) := by
  have performed : ((Action.exec (.updateVault v u)).perform o w) =
      (.ok (w.db.affected v u), w.update v u) := by
    simp [Action.perform, answers, Stmt.run, World.update]
  simp only [update, exec, atOnce, act_bind, Program.atOnce, performed, done_bind]

/-- An event of a vault that is there is recorded. -/
theorem atOnce_recordEvent (answers : o.dbFails = false) {v : VaultId} {r : VaultRow}
    (row : w.vault? v = some r) (kind : EventKind) (detail : Detail) :
    atOnce (recordEvent v kind detail) o w = (.ok (), w.record ⟨v, kind, detail, w.clock⟩) := by
  have present : w.db.hasVault v = true := by
    rw [Db.hasVault, show w.db.vault? v = some r from row]
    rfl
  rw [recordEvent, bind_eq, atOnce_now_bind]
  simp [atOnce, exec, Program.atOnce, Action.perform, answers, Stmt.run, present, World.record]

theorem atOnce_recordEvent_bind (answers : o.dbFails = false) {v : VaultId} {r : VaultRow}
    (row : w.vault? v = some r) (kind : EventKind) (detail : Detail) (f : Unit → Prog β) :
    atOnce ((recordEvent v kind detail).bind f) o w =
      atOnce (f ()) o (w.record ⟨v, kind, detail, w.clock⟩) :=
  atOnce_ok_bind (atOnce_recordEvent answers row kind detail) f

/-- What is attempted hands its outcome on. -/
theorem atOnce_attempt_bind (p : Prog α) (f : Except ApiError α → Prog β) :
    atOnce ((p.attempt : Prog (Except ApiError α)).bind f) o w =
      atOnce (f (atOnce p o w).1) o (atOnce p o w).2 :=
  atOnce_ok_bind (atOnce_attempt p w) f

/-- What is only logged ends, whatever it comes to. -/
theorem atOnce_logged (p : Prog α) : atOnce (logged p) o w = (.ok (), (atOnce p o w).2) := by
  unfold logged atOnce
  rw [bind_eq, atOnce_bind, atOnce_attempt]
  rfl

theorem atOnce_logged_bind (p : Prog α) (f : Unit → Prog β) :
    atOnce ((logged p).bind f) o w = atOnce (f ()) o (atOnce p o w).2 :=
  atOnce_ok_bind (atOnce_logged p) f

/-- A query that is answered was answered by the database. -/
theorem atOnce_query_eq_ok {q : Query} {r : q.Result} {w' : World} :
    atOnce (query q) o w = (.ok r, w') ↔ o.dbFails = false ∧ q.eval w.db = .ok r ∧ w' = w := by
  cases fails : o.dbFails with
  | true => simp [query, atOnce, Program.atOnce, Action.perform, fails]
  | false =>
    cases answer : q.eval w.db <;>
      simp [query, atOnce, Program.atOnce, Action.perform, fails, answer, eq_comm]

/-- A statement that succeeds has run. -/
theorem atOnce_exec_eq_ok {st : Stmt} {n : Nat} {w' : World} :
    atOnce (exec st) o w = (.ok n, w') ↔
      o.dbFails = false ∧ ∃ db, st.run w.db = .ok (db, n) ∧ w' = { w with db := db } := by
  cases fails : o.dbFails with
  | true => simp [exec, atOnce, Program.atOnce, Action.perform, fails]
  | false =>
    cases ran : st.run w.db with
    | error e => simp [exec, atOnce, Program.atOnce, Action.perform, fails, ran]
    | ok done =>
      simp [exec, atOnce, Program.atOnce, Action.perform, fails, ran, Prod.ext_iff, eq_comm,
        and_comm]

/-- No time passes. -/
theorem atOnce_clock (p : Prog α) : (atOnce p o w).2.clock = w.clock := by
  have any : p.Only fun _ => True := by
    induction p with
    | done a => trivial
    | fail e => trivial
    | act a next ih => exact ⟨trivial, ih⟩
  have kept : ∀ a w₁, True → w₁.clock = w.clock → (Action.perform a o w₁).2.clock = w.clock :=
    fun a w₁ _ same => (Action.perform_clock a o w₁).trans same
  exact atOnce_keeps (I := fun w₁ : World => w₁.clock = w.clock) any kept rfl

/-- A part that does nothing leaves the world alone. -/
theorem atOnce_still {p : Prog α} {a : Except ApiError α} {w' : World}
    (only : p.Only fun _ => False) (came : atOnce p o w = (a, w')) : w' = w := by
  have kept : (atOnce p o w).2 = w :=
    atOnce_keeps (I := fun w₁ : World => w₁ = w) only (fun _ _ none => none.elim) rfl
  rw [came] at kept
  exact kept

theorem atOnce_frame {p : Prog α} (only : p.Only fun a => a.isCalm = true) :
    w.Frame (atOnce p o w).2 :=
  atOnce_keeps only (fun _ _ calm frame => frame.trans (Action.frame_of_calm calm rfl)) (.refl w)

end AtOnce

/-! ## §4 Parts of one kind -/

section Parts

variable {γ : Type} {ok : Action → Prop}

theorem only_okOr (e : ApiError) (a : Option γ) : (okOr e a).Only ok := by
  cases a <;> trivial

theorem only_validated (pre : String) (a : Except String γ) : (validated pre a).Only ok := by
  cases a <;> trivial

theorem only_crypto (x : Except Unit γ) : (crypto x).Only ok := by
  cases x <;> trivial

theorem only_query {q : Query} (good : ok (.query q)) : (query q).Only ok :=
  ⟨good, fun r => by cases r <;> trivial⟩

theorem only_exec {st : Stmt} (good : ok (.exec st)) : (exec st).Only ok :=
  ⟨good, fun r => by cases r <;> trivial⟩

end Parts

/-- A part whose failure is only logged is sure to end. -/
theorem sure_logged {α : Type} {ok : Action → Prop} {p : Prog α} (only : p.Only ok) :
    (logged p).Sure ok :=
  .bind (.attempt only) fun _ => trivial

/-- What estimating a vault comes to: a scan, the explorer's pause, the cache. -/
def Action.estimates (v : VaultId) : Action → Bool
  | ask x => x.isFree
  | explorerPause _ => true
  | explorerFailed _ => true
  | explorerAnswered => true
  | exec (.updateVault u (.cacheEstimate _)) => u = v
  | _ => false

section Estimates

variable (S : Server) (r : VaultRow) (t : Instant)

theorem sure_scanUnlockEstimate (network : Network) :
    (scanUnlockEstimate S r network).Sure fun a => a.estimates r.id = true := by
  unfold scanUnlockEstimate
  split
  · trivial
  · dsimp only
    split
    · trivial
    · split
      · trivial
      · refine .bind (.perform rfl) fun answer => ?_
        cases answer with
        | error e => trivial
        | ok scan => dsimp only; split <;> trivial

theorem sure_unlockEstimateWithCache :
    (unlockEstimateWithCache S r t).Sure fun a => a.estimates r.id = true := by
  unfold unlockEstimateWithCache
  split
  · trivial
  · split
    · trivial
    · refine .bind (.perform rfl) fun pause => ?_
      cases pause with
      | some secs => trivial
      | none =>
        refine .bind (sure_scanUnlockEstimate S r _) fun scanned => ?_
        cases scanned with
        | error e =>
          dsimp only
          split
          · exact .bind (.perform rfl) fun _ => trivial
          · trivial
        | ok est =>
          refine .bind (.perform rfl) fun _ => .bind (sure_logged ?_) fun _ => trivial
          refine ⟨decide_eq_true rfl, fun answer => ?_⟩
          cases answer <;> trivial

theorem sure_heirContactReady : (heirContactReady S r t).Sure fun a => a.estimates r.id = true := by
  unfold heirContactReady
  split
  · trivial
  · refine .bind (sure_unlockEstimateWithCache S r t) fun est => ?_
    cases est <;> trivial

end Estimates

/-- What queueing a claim link comes to. -/
def Action.mails : Action → Bool
  | now => true
  | query (.guardians _) => true
  | exec (.insertNotification _) => true
  | _ => false

theorem Action.calm_of_mails {a : Action} (mails : a.mails = true) : a.isCalm = true := by
  unfold Action.mails at mails
  split at mails
  · rfl
  · rfl
  · rfl
  · cases mails

section Links

variable {S : Server} {r : VaultRow}

theorem only_enqueue (id : VaultId) (kind : NotificationKind) (channel : Channel)
    (recipient : String) (link : Option String) :
    (enqueue S id kind channel recipient link).Only fun a => a.mails = true := by
  refine .bind (only_crypto _) fun _ => .bind (.perform rfl) fun _ => .bind ⟨rfl, ?_⟩ fun _ => trivial
  rintro (_ | _) <;> trivial

theorem only_enqueueClaimLink (token : Token) :
    (enqueueClaimLink S r token).Only fun a => a.mails = true := by
  refine .bind (only_crypto _) fun contact => ?_
  cases contact with
  | none => trivial
  | some c =>
    dsimp only
    split
    · exact only_enqueue ..
    · trivial

theorem only_enqueueGuardianClaimLinks (v : VaultId) :
    (enqueueGuardianClaimLinks S v).Only fun a => a.mails = true := by
  refine .bind ⟨rfl, by rintro (_ | _) <;> trivial⟩ fun rows => .forEach (fun g => ?_) rows
  unfold enqueueGuardianClaimLink
  split
  · trivial
  · refine .bind (only_crypto _) fun token => .bind (only_crypto _) fun contact => ?_
    cases contact with
    | none => trivial
    | some c => exact only_enqueue ..

end Links

end GhostKey

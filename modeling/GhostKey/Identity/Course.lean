import GhostKey.Identity.Conduct

/-!
# The Tables of the Owner's Address along a Run

What one step does to a vault's row, to the waiting time of a hash, to a challenge and to
the clock, and from it what a run does. A vault's contact, hash and key are those of its
INSERT for as long as the row is there.

Main results:
- `Runs.sound`: a step of a handler, with what the handler has seen before it.
- `account_after`, `cooldown_after`, `challenge_after`: one step.
- `Runs.inserted`, `Runs.same_file`: the row of a vault along a run.
- `Runs.clock_mono`, `Runs.clocked_le`: no reading of the clock is later than the clock.
-/

namespace GhostKey

namespace Identity

open Foundation Program

/-! ## §1 Runs -/

/-- A run of requests on an empty database. -/
def Runs (S : Server) (tr : DeskTrace) : Prop :=
  ∃ clock c, Run (desk S) (System.boot (Desk.start clock)) tr c

/-- At `k` the thread `i` performs `a` and is answered `x`. -/
def ActedAt (tr : DeskTrace) (k i : Nat) (a : DeskAction) (x : a.Response) : Prop :=
  ∃ s, tr[k]? = some s ∧ s.label = .acted i ⟨a, x⟩

/-- No id is drawn twice. -/
def FreshIds (tr : DeskTrace) : Prop :=
  ∀ j k i i' (id : VaultId), ActedAt tr j i .uuid id → ActedAt tr k i' .uuid id → j = k

variable {S : Server} {tr : DeskTrace} {s t : DeskStep} {i j k : Nat} {id : VaultId}
variable {w w' : Desk}

theorem mem_history_iff {a : DeskAction} {x : a.Response} :
    (⟨a, x⟩ : DeskEv) ∈ history i k tr ↔ ∃ j, j < k ∧ ActedAt tr j i a x := by
  rw [mem_history]
  constructor
  · rintro ⟨j, s, lt, at_j, label⟩
    exact ⟨j, lt, s, at_j, label⟩
  · rintro ⟨j, lt, s, at_j, label⟩
    exact ⟨j, s, lt, at_j, label⟩

/-- Two things done at one step are one. -/
theorem ActedAt.unique {i' : Nat} {a a' : DeskAction} {x : a.Response} {x' : a'.Response}
    (first : ActedAt tr k i a x) (second : ActedAt tr k i' a' x') :
    i = i' ∧ (⟨a, x⟩ : DeskEv) = ⟨a', x'⟩ := by
  obtain ⟨s, at_k, label⟩ := first
  obtain ⟨s', at_k', label'⟩ := second
  rw [at_k] at at_k'
  cases at_k'
  rw [label] at label'
  cases label'
  exact ⟨rfl, rfl⟩

theorem Runs.sound (runs : Runs S tr) {a : DeskAction} {x : a.Response}
    (acted : ActedAt tr k i a x) :
    ∃ q, Started i q (tr.take k) ∧ Sound S q (history i k tr) a := by
  obtain ⟨clock, c, run⟩ := runs
  obtain ⟨s, at_k, label⟩ := acted
  exact run.acted_at (meets_program S) at_k label

/-- A thread that has acted had begun with the request it has later. -/
theorem Runs.began (runs : Runs S tr) {a : DeskAction} {x : a.Response} {q : DeskRequest}
    (started : Started i q (tr.take k)) (lt : j < k) (acted : ActedAt tr j i a x) :
    Started i q (tr.take j) := by
  obtain ⟨q', began, -⟩ := runs.sound acted
  obtain ⟨clock, c, run⟩ := runs
  obtain ⟨c', run'⟩ := run.take k
  rw [run'.started_unique started (began.later (Nat.le_of_lt lt))]
  exact began

/-! ## §2 One step -/

/-- A step that changes the world. -/
inductive StepCase (s : DeskStep) : Prop
  | idle (same : s.after = s.before)
  | ran (i : Nat) (st : DeskStmt) (n : Nat) (label : s.label = .acted i ⟨.exec st, .ok n⟩)
      (ran : s.before.run st = .ok (s.after, n))
  | opened (i : Nat) (c : Challenge) (cooldown retention : Instant) (b : Bool)
      (label : s.label = .acted i ⟨.openChallenge c cooldown retention, .ok b⟩)
      (ran : s.before.openChallenge c cooldown retention = .ok (s.after, b))
  | redeemed (i : Nat) (th : Hash) (t : Instant) (x : Option Hash)
      (label : s.label = .acted i ⟨.redeem th t, .ok x⟩) (ran : s.before.redeem th t = (s.after, x))
  | drifted (d : DeskDrift) (label : s.label = .drifted d) (ran : s.after = d.apply s.before)

/-- A statement that goes through, with a database that may fail first. -/
theorem committed_eq_ok {α : Type} {fails : Bool} {r : Except StoreError (Desk × α)} {a : α}
    (done : committed w (if fails then .error .unavailable else r) = (.ok a, w')) :
    r = .ok (w', a) := by
  cases fails with
  | true => cases done
  | false =>
    cases r with
    | error e => cases done
    | ok pair =>
      obtain ⟨w₁, a₁⟩ := pair
      cases done
      rfl

/-- And one that does not changes nothing. -/
theorem committed_cases {α : Type} {fails : Bool} {r : Except StoreError (Desk × α)}
    {x : Except StoreError α}
    (done : committed w (if fails then .error .unavailable else r) = (x, w')) :
    w' = w ∨ ∃ a, x = .ok a ∧ r = .ok (w', a) := by
  cases x with
  | ok a => exact .inr ⟨a, rfl, committed_eq_ok done⟩
  | error e =>
    cases fails with
    | true =>
      cases done
      exact .inl rfl
    | false =>
      cases r with
      | error e =>
        cases done
        exact .inl rfl
      | ok pair => cases done

theorem step_case (explains : (desk S).Explains s) : StepCase s := by
  obtain ⟨before, label, after⟩ := s
  cases label with
  | started i q => exact .idle explains
  | returned i r => exact .idle explains
  | halted => exact .idle explains
  | drifted d => exact .drifted d rfl explains
  | acted i e =>
    obtain ⟨a, x⟩ := e
    obtain ⟨o, performed⟩ := explains
    cases a with
    | now => exact .idle (congrArg Prod.snd performed).symm
    | uuid => exact .idle (congrArg Prod.snd performed).symm
    | bearerToken => exact .idle (congrArg Prod.snd performed).symm
    | query q => exact .idle (congrArg Prod.snd performed).symm
    | exec st =>
      rcases committed_cases performed with same | ⟨n, rfl, ran⟩
      · exact .idle same
      · exact .ran i st n rfl ran
    | openChallenge c cooldown retention =>
      rcases committed_cases performed with same | ⟨b, rfl, ran⟩
      · exact .idle same
      · exact .opened i c cooldown retention b rfl ran
    | redeem th t =>
      rcases committed_cases performed with same | ⟨h, rfl, ran⟩
      · exact .idle same
      · exact .redeemed i th t h rfl (Except.ok.inj ran)

/-- What a handler is told of a statement is what it did. -/
theorem executed (explains : (desk S).Explains s) {st : DeskStmt} {n : Nat}
    (label : s.label = .acted i ⟨.exec st, .ok n⟩) : s.before.run st = .ok (s.after, n) := by
  unfold System.Explains at explains
  rw [label] at explains
  obtain ⟨o, performed⟩ := explains
  exact committed_eq_ok performed

/-- A read shows the tables as they are. -/
theorem queried (explains : (desk S).Explains s) {q : DeskQuery} {x : q.Result}
    (label : s.label = .acted i ⟨.query q, .ok x⟩) : x = q.eval s.before := by
  unfold System.Explains at explains
  rw [label] at explains
  obtain ⟨o, performed⟩ := explains
  have answer : (if o.dbFails then .error .unavailable else .ok (q.eval s.before) :
      Except StoreError q.Result) = .ok x := congrArg Prod.fst performed
  cases fails : o.dbFails with
  | true =>
    rw [fails] at answer
    cases answer
  | false =>
    rw [fails] at answer
    exact (Except.ok.inj answer).symm

theorem clock_read (explains : (desk S).Explains s) {u : Instant}
    (label : s.label = .acted i ⟨.now, u⟩) : u = s.before.clock := by
  unfold System.Explains at explains
  rw [label] at explains
  obtain ⟨o, performed⟩ := explains
  exact (congrArg Prod.fst performed).symm

theorem opened_ran (explains : (desk S).Explains s) {c : Challenge} {cooldown retention : Instant}
    {b : Bool} (label : s.label = .acted i ⟨.openChallenge c cooldown retention, .ok b⟩) :
    s.before.openChallenge c cooldown retention = .ok (s.after, b) := by
  unfold System.Explains at explains
  rw [label] at explains
  obtain ⟨o, performed⟩ := explains
  exact committed_eq_ok performed

/-! ## §3 One row -/

/-- The row an UPDATE of `vaults` is about. -/
def DeskStmt.target : DeskStmt → Option VaultId
  | .setInitialStatus id => some id
  | .setVerified id _ => some id
  | .setToken id _ _ => some id
  | .reserveToken id _ _ _ => some id
  | .confirm id _ _ => some id
  | .confirmSibling id _ => some id
  | _ => none

/-- The row of `id` as an UPDATE leaves it. -/
def DeskStmt.onFile (st : DeskStmt) (r : Account) : Account := if st.picks r then st.file r else r

/-- What a statement that goes through does to the row of `id`. -/
def DeskStmt.onRow (id : VaultId) (st : DeskStmt) (x : Option Account) : Option Account :=
  match st with
  | .insertVault r => if id = r.id then some r else x
  | .deleteVault id' => if id = id' then none else x
  | st => if st.target = some id then x.map st.onFile else x

/-- The tables after an UPDATE of the row of `id`. -/
def Desk.updated (w : Desk) (id : VaultId) (st : DeskStmt) : Desk :=
  let where_ := fun r : Account => decide (r.id = id) && st.picks r
  { w with accounts := w.accounts.update where_ st.file st.file_id }

/-- The ways a statement goes through. -/
inductive RunCase (w : Desk) : DeskStmt → Desk → Nat → Prop
  | updated {st : DeskStmt} {id : VaultId} (target : st.target = some id)
      (clear : ∀ r, w.account? id = some r → st.picks r = true → r.verifiedAt = none →
        (st.file r).verifiedAt.isSome = true → w.conflicts r = false) :
      RunCase w st (w.updated id st)
        (w.accounts.affected fun r => decide (r.id = id) && st.picks r)
  | inserted {r : Account} {accounts : KeyedTable Account VaultId Account.id}
      (inserted : w.accounts.insert? r = some accounts) :
      RunCase w (.insertVault r) { w with accounts := accounts } 1
  | recorded {id : VaultId} {kind : String} (there : w.hasVault id = true) :
      RunCase w (.insertEvent id kind) { w with events := w.events ++ [(id, kind)] } 1
  | reserved {hash : Hash} {now cutoff : Int} :
      RunCase w (.reserveSend hash now cutoff) (w.reserve hash now cutoff).1
        (w.reserve hash now cutoff).2
  | queued {l : Letter} (there : w.hasVault l.vaultId = true) :
      RunCase w (.enqueue l) { w with letters := w.letters ++ [l] } 1
  | deleted {id : VaultId} :
      RunCase w (.deleteVault id)
        { w with
          accounts := w.accounts.delete fun r => r.id = id
          letters := w.letters.filter fun l => l.vaultId ≠ id
          events := w.events.filter fun e => e.1 ≠ id }
        (w.accounts.affected fun r => r.id = id)

theorem onAccount_case {st : DeskStmt} {n : Nat} (target : st.target = some id)
    (ran : w.onAccount id st = .ok (w', n)) : RunCase w st w' n := by
  unfold Desk.onAccount at ran
  dsimp only at ran
  split at ran
  · cases ran
  · next clear =>
    obtain ⟨rfl, rfl⟩ := Prod.mk.inj (Except.ok.inj ran)
    refine .updated target fun r here picked pending proved => ?_
    rw [here, Option.any_some, picked, pending, proved] at clear
    simpa using clear

theorem run_case {st : DeskStmt} {n : Nat} (ran : w.run st = .ok (w', n)) : RunCase w st w' n := by
  -- one case per statement; the last six change one account
  cases st with
  | insertVault r =>
    unfold Desk.run at ran
    dsimp only at ran
    split at ran
    · cases ran
    · split at ran
      · cases ran
      · next accounts inserted =>
        obtain ⟨rfl, rfl⟩ := Prod.mk.inj (Except.ok.inj ran)
        exact .inserted inserted
  | insertEvent id kind =>
    unfold Desk.run at ran
    dsimp only at ran
    split at ran
    · next there =>
      obtain ⟨rfl, rfl⟩ := Prod.mk.inj (Except.ok.inj ran)
      exact .recorded there
    · cases ran
  | enqueue l =>
    unfold Desk.run at ran
    dsimp only at ran
    split at ran
    · next there =>
      obtain ⟨rfl, rfl⟩ := Prod.mk.inj (Except.ok.inj ran)
      exact .queued there
    · cases ran
  | reserveSend hash now cutoff =>
    have done : w.reserve hash now cutoff = (w', n) := Except.ok.inj ran
    have case : RunCase w (.reserveSend hash now cutoff) _ _ := .reserved
    rwa [done] at case
  | deleteVault id =>
    obtain ⟨rfl, rfl⟩ := Prod.mk.inj (Except.ok.inj ran)
    exact .deleted
  | setInitialStatus id => exact onAccount_case rfl ran
  | setVerified id now => exact onAccount_case rfl ran
  | setToken id tokenHash now => exact onAccount_case rfl ran
  | reserveToken id tokenHash now cutoff => exact onAccount_case rfl ran
  | confirm id stored now => exact onAccount_case rfl ran
  | confirmSibling id now => exact onAccount_case rfl ran

theorem Desk.account?_id {r : Account} (here : w.account? id = some r) : r.id = id :=
  KeyedTable.find?_key here

theorem DeskStmt.onRow_of_target {st : DeskStmt} {id' : VaultId} (target : st.target = some id')
    (x : Option Account) : st.onRow id x = if id' = id then x.map st.onFile else x := by
  have named : (some id' = some id) ↔ id' = id := Option.some_inj
  cases st <;> cases target <;> simp [onRow, DeskStmt.target]

theorem RunCase.account? {st : DeskStmt} {n : Nat} (case : RunCase w st w' n) (id : VaultId) :
    w'.account? id = st.onRow id (w.account? id) := by
  -- one case per outcome of a statement
  cases case with
  | @updated _ id' target clear =>
    rw [DeskStmt.onRow_of_target target]
    refine (KeyedTable.find?_update w.accounts _ st.file st.file_id id).trans ?_
    show (w.account? id).map _ = _
    cases found : w.account? id with
    | none => split <;> rfl
    | some r =>
      have here := Desk.account?_id found
      by_cases same : id' = id
      · rw [if_pos same, Option.map_some, Option.map_some]
        simp [here, same, DeskStmt.onFile]
      · have other : ¬ r.id = id' := fun eq => same (eq.symm.trans here)
        rw [if_neg same, Option.map_some]
        simp [other]
  | inserted inserted => exact KeyedTable.find?_insert? inserted id
  | @deleted id' =>
    refine (KeyedTable.find?_delete w.accounts _ id).trans ?_
    show (w.account? id).filter _ = if id = id' then none else w.account? id
    cases found : w.account? id with
    | none => simp
    | some r =>
      have here := Desk.account?_id found
      by_cases same : id = id' <;> simp [Option.filter, here, same]
  | @reserved hash now cutoff =>
    have same : (w.reserve hash now cutoff).1.accounts = w.accounts := by
      unfold Desk.reserve
      split
      · split <;> rfl
      · rfl
    show (w.reserve hash now cutoff).1.accounts.find? id = w.accounts.find? id
    rw [same]
  | recorded there => rfl
  | queued there => rfl

theorem Desk.openChallenge_accounts {c : Challenge} {cooldown retention : Instant} {b : Bool}
    (ran : w.openChallenge c cooldown retention = .ok (w', b)) : w'.accounts = w.accounts := by
  unfold Desk.openChallenge at ran
  dsimp only at ran
  split at ran
  · obtain ⟨rfl, -⟩ := Prod.mk.inj (Except.ok.inj ran)
    rfl
  · split at ran
    · cases ran
    · obtain ⟨rfl, -⟩ := Prod.mk.inj (Except.ok.inj ran)
      rfl

/-- What becomes of the row of `id` in one step. -/
inductive AccountStep (s : DeskStep) (id : VaultId) : Prop
  | same (same : s.after.account? id = s.before.account? id)
  | ran (i : Nat) (st : DeskStmt) (n : Nat) (label : s.label = .acted i ⟨.exec st, .ok n⟩)
      (row : s.after.account? id = st.onRow id (s.before.account? id))
  | lived (status : Status) (next : Instant) (label : s.label = .drifted (.live id status next))
      (row : s.after.account? id = (s.before.account? id).map fun r =>
        { r with status := status, nextDeadlineAt := next })

theorem account_after (explains : (desk S).Explains s) (id : VaultId) : AccountStep s id := by
  -- the statements, the recovery table, or a drift
  cases step_case explains with
  | idle same => exact .same (by rw [same])
  | ran i st n label ran => exact .ran i st n label ((run_case ran).account? id)
  | opened i c cooldown retention b label ran =>
    refine .same ?_
    unfold Desk.account?
    rw [Desk.openChallenge_accounts ran]
  | redeemed i th u x label ran =>
    have after : s.after = (s.before.redeem th u).1 := (congrArg Prod.fst ran).symm
    refine .same ?_
    rw [after]
    rfl
  | drifted d label ran =>
    cases d with
    | pass d =>
      refine .same ?_
      rw [ran]
      rfl
    | live id' status next =>
      -- the rest of the server moves status and deadline of one row
      have row : s.after.account? id = (s.before.account? id).map fun r =>
          if r.id = id' then { r with status := status, nextDeadlineAt := next } else r := by
        rw [ran]
        have updated := KeyedTable.find?_update s.before.accounts (fun r => decide (r.id = id'))
          (fun r => { r with status := status, nextDeadlineAt := next }) (fun _ => rfl) id
        simp only [decide_eq_true_eq] at updated
        exact updated
      cases found : s.before.account? id with
      | none =>
        refine .same ?_
        rw [row, found]
        rfl
      | some r =>
        have here := Desk.account?_id found
        rw [found, Option.map_some] at row
        by_cases same : id' = id
        · subst same
          refine .lived status next label ?_
          rw [row, found, if_pos here]
          rfl
        · refine .same ?_
          rw [row, found, if_neg fun eq => same (eq.symm.trans here)]

/-! ## §4 The row of a vault along a run -/

/-- What of a row is as it was inserted. -/
structure Account.SameFile (r r' : Account) : Prop where
  id : r'.id = r.id
  createdAt : r'.createdAt = r.createdAt
  contact : r'.contact = r.contact
  password : r'.password = r.password
  ownerXpub : r'.ownerXpub = r.ownerXpub
  ownerEmailHash : r'.ownerEmailHash = r.ownerEmailHash

namespace Account.SameFile

variable {r r' r'' : Account}

theorem refl (r : Account) : r.SameFile r := ⟨rfl, rfl, rfl, rfl, rfl, rfl⟩

theorem symm (same : r.SameFile r') : r'.SameFile r :=
  ⟨same.id.symm, same.createdAt.symm, same.contact.symm, same.password.symm, same.ownerXpub.symm,
    same.ownerEmailHash.symm⟩

theorem trans (first : r.SameFile r') (second : r'.SameFile r'') : r.SameFile r'' :=
  ⟨second.id.trans first.id, second.createdAt.trans first.createdAt,
    second.contact.trans first.contact, second.password.trans first.password,
    second.ownerXpub.trans first.ownerXpub, second.ownerEmailHash.trans first.ownerEmailHash⟩

end Account.SameFile

theorem DeskStmt.file_sameFile (st : DeskStmt) (r : Account) : r.SameFile (st.file r) := by
  cases st <;> exact ⟨rfl, rfl, rfl, rfl, rfl, rfl⟩

theorem DeskStmt.onFile_sameFile (st : DeskStmt) (r : Account) : r.SameFile (st.onFile r) := by
  unfold onFile
  split
  · exact st.file_sameFile r
  · exact .refl r

/-- A row after a statement is the inserted one, or goes on from the one before. -/
theorem DeskStmt.onRow_cases {st : DeskStmt} {x : Option Account} {r : Account}
    (after : st.onRow id x = some r) :
    (∃ r', x = some r' ∧ r'.SameFile r) ∨ st = .insertVault r ∧ r.id = id := by
  unfold onRow at after
  split at after
  · split at after
    · next same =>
      cases after
      exact .inr ⟨rfl, same.symm⟩
    · exact .inl ⟨r, after, .refl r⟩
  · split at after
    · cases after
    · exact .inl ⟨r, after, .refl r⟩
  · split at after
    · obtain ⟨r', here, rfl⟩ := Option.map_eq_some_iff.1 after
      exact .inl ⟨r', here, st.onFile_sameFile r'⟩
    · exact .inl ⟨r, after, .refl r⟩

/-- A row on file after a step was there before it, or is inserted by it. -/
theorem account_before (explains : (desk S).Explains s) {r : Account}
    (after : s.after.account? id = some r) :
    (∃ r', s.before.account? id = some r' ∧ r'.SameFile r) ∨
      ∃ i n, s.label = .acted i ⟨.exec (.insertVault r), .ok n⟩ ∧ r.id = id := by
  cases account_after explains id with
  | same same => exact .inl ⟨r, same ▸ after, .refl r⟩
  | ran i st n label row =>
    rcases DeskStmt.onRow_cases (row.symm.trans after) with old | ⟨rfl, here⟩
    · exact .inl old
    · exact .inr ⟨i, n, label, here⟩
  | lived status next label row =>
    obtain ⟨r', here, rfl⟩ := Option.map_eq_some_iff.1 (row.symm.trans after)
    exact .inl ⟨r', here, ⟨rfl, rfl, rfl, rfl, rfl, rfl⟩⟩

/-- At `k` the thread `i` inserts the vault. -/
def InsertedAt (tr : DeskTrace) (k i : Nat) (r : Account) : Prop :=
  ∃ n, ActedAt tr k i (.exec (.insertVault r)) (.ok n)

/-- A row on file was inserted. -/
theorem Runs.inserted (runs : Runs S tr) (at_k : tr[k]? = some s) {r : Account}
    (here : s.before.account? id = some r) :
    ∃ j i r₀, j < k ∧ InsertedAt tr j i r₀ ∧ r₀.SameFile r ∧ r₀.id = id := by
  obtain ⟨clock, c, run⟩ := runs
  refine ((run.invariant_at (P := fun k w => ∀ id r, w.account? id = some r →
    ∃ j i r₀, j < k ∧ InsertedAt tr j i r₀ ∧ r₀.SameFile r ∧ r₀.id = id) ?_ ?_).1 k s at_k).1
      id r here
  · intro id r absent
    cases absent
  · intro k s at_k explains before id r after
    rcases account_before explains after with ⟨r', old, same⟩ | ⟨i, n, label, here⟩
    · obtain ⟨j, i, r₀, lt, inserted, file, key⟩ := before id r' old
      exact ⟨j, i, r₀, Nat.lt_succ_of_lt lt, inserted, file.trans same, key⟩
    · exact ⟨k, i, r, Nat.lt_succ_self k, ⟨n, s, at_k, label⟩, .refl r, here⟩

/-- Where no id is drawn twice, none is inserted twice. -/
theorem Runs.inserted_once (runs : Runs S tr) (fresh : FreshIds tr) {i' : Nat} {r r' : Account}
    (first : InsertedAt tr j i r) (second : InsertedAt tr k i' r') (same : r.id = r'.id) :
    j = k := by
  obtain ⟨n, first⟩ := first
  obtain ⟨n', second⟩ := second
  obtain ⟨q, -, without, drew, -⟩ := runs.sound first
  obtain ⟨q', -, without', drew', -⟩ := runs.sound second
  obtain ⟨m, lt, drawn⟩ := mem_history_iff.1 drew
  obtain ⟨m', lt', drawn'⟩ := mem_history_iff.1 drew'
  rw [same] at drawn
  have one := fresh m m' i i' r'.id drawn drawn'
  subst one
  have thread : i = i' := (drawn.unique drawn').1
  subst thread
  rcases Nat.lt_trichotomy j k with earlier | here | later
  · cases without' _ (mem_history_iff.2 ⟨j, earlier, first⟩)
  · exact here
  · cases without _ (mem_history_iff.2 ⟨k, later, second⟩)

/-- So a vault is on file with one contact, one hash and one key. -/
theorem Runs.same_file (runs : Runs S tr) (fresh : FreshIds tr) (at_j : tr[j]? = some s)
    (at_k : tr[k]? = some t) {r r' : Account} (here : s.before.account? id = some r)
    (here' : t.before.account? id = some r') : r.SameFile r' := by
  obtain ⟨m, i, r₀, -, inserted, file, key⟩ := runs.inserted at_j here
  obtain ⟨m', i', r₁, -, inserted', file', key'⟩ := runs.inserted at_k here'
  have one := runs.inserted_once fresh inserted inserted' (key.trans key'.symm)
  subst one
  obtain ⟨n, inserted⟩ := inserted
  obtain ⟨n', inserted'⟩ := inserted'
  obtain ⟨rfl, same⟩ := inserted.unique inserted'
  cases same
  exact file.symm.trans file'

theorem Runs.explains (runs : Runs S tr) (at_k : tr[k]? = some s) : (desk S).Explains s := by
  obtain ⟨clock, c, run⟩ := runs
  exact run.explains_at at_k

/-- What a handler has read was so when it read it. -/
theorem Runs.read (runs : Runs S tr) {q : DeskQuery} {x : q.Result}
    (read : Read (history i k tr) q x) :
    ∃ j s, j < k ∧ tr[j]? = some s ∧ s.label = .acted i ⟨.query q, .ok x⟩ ∧ x = q.eval s.before := by
  obtain ⟨j, lt, s, at_j, label⟩ := mem_history_iff.1 read
  exact ⟨j, s, lt, at_j, label, queried (runs.explains at_j) label⟩

/-! ## §5 The other tables -/

/-- The statements leave the challenges and the clock alone. -/
theorem RunCase.rest {st : DeskStmt} {n : Nat} (case : RunCase w st w' n) :
    w'.clock = w.clock ∧ w'.challenges = w.challenges := by
  cases case with
  | reserved =>
    unfold Desk.reserve
    split
    · split <;> exact ⟨rfl, rfl⟩
    · exact ⟨rfl, rfl⟩
  | _ => exact ⟨rfl, rfl⟩

theorem Desk.openChallenge_clock {c : Challenge} {cooldown retention : Instant} {b : Bool}
    (ran : w.openChallenge c cooldown retention = .ok (w', b)) : w'.clock = w.clock := by
  unfold Desk.openChallenge at ran
  dsimp only at ran
  split at ran
  · obtain ⟨rfl, -⟩ := Prod.mk.inj (Except.ok.inj ran)
    rfl
  · split at ran
    · cases ran
    · obtain ⟨rfl, -⟩ := Prod.mk.inj (Except.ok.inj ran)
      rfl

theorem clock_le (explains : (desk S).Explains s) : s.before.clock ≤ s.after.clock := by
  cases step_case explains with
  | idle same => rw [same]
  | ran i st n label ran => rw [(run_case ran).rest.1]
  | opened i c cooldown retention b label ran => rw [Desk.openChallenge_clock ran]
  | redeemed i th u x label ran =>
    have after : s.after = (s.before.redeem th u).1 := (congrArg Prod.fst ran).symm
    rw [after]
    rfl
  | drifted d label ran =>
    rw [ran]
    cases d with
    | pass d => exact Int.le_add_of_nonneg_right (Int.natCast_nonneg d)
    | live id status next => exact Int.le_refl _

/-- The clock does not go back. -/
theorem Runs.clock_mono (runs : Runs S tr) (le : j ≤ k) (at_j : tr[j]? = some s)
    (at_k : tr[k]? = some t) : s.before.clock ≤ t.before.clock := by
  rcases Nat.eq_or_lt_of_le le with rfl | lt
  · rw [at_j] at at_k
    cases at_k
    exact Int.le_refl _
  · have explains := fun {k s} => runs.explains (k := k) (s := s)
    obtain ⟨clock, c, run⟩ := runs
    refine run.since (P := fun w => s.before.clock ≤ w.clock) at_j (clock_le (explains at_j)) ?_ lt
      at_k
    exact fun n u _ _ at_n before => Int.le_trans before (clock_le (explains at_n))

/-- What a handler has read off the clock is past. -/
theorem Runs.clocked_le (runs : Runs S tr) (at_k : tr[k]? = some s) {u : Instant}
    (clocked : Clocked (history i k tr) u) : u ≤ s.before.clock := by
  obtain ⟨j, lt, s', at_j, label⟩ := mem_history_iff.1 clocked
  rw [clock_read (runs.explains at_j) label]
  exact runs.clock_mono (Nat.le_of_lt lt) at_j at_k

theorem Desk.cooldown?_hash {hash : Hash} {c : Cooldown} (here : w.cooldown? hash = some c) :
    c.emailHash = hash :=
  KeyedTable.find?_key here

/-- A reservation is granted where the hash has waited long enough. -/
theorem Desk.reserve_granted {hash : Hash} {now cutoff : Int}
    (granted : (w.reserve hash now cutoff).2 = 1) :
    (∀ c, w.cooldown? hash = some c → c.lastSentAt ≤ cutoff) ∧
      (w.reserve hash now cutoff).1.cooldown? hash = some ⟨hash, now⟩ := by
  unfold Desk.reserve at granted ⊢
  cases found : w.cooldown? hash with
  | none =>
    rw [found] at granted
    dsimp only at granted ⊢
    refine ⟨fun c none => (by cases none), ?_⟩
    split at granted
    · cases granted
    · next cooldowns inserted => exact (KeyedTable.find?_insert? inserted hash).trans (if_pos rfl)
  | some c =>
    rw [found] at granted
    dsimp only at granted ⊢
    obtain ⟨c', here, waited⟩ := (KeyedTable.affected_eq_one_iff w.cooldowns hash _).1 granted
    have same : c' = c := Option.some.inj (here.symm.trans found)
    subst same
    have waited : c'.lastSentAt ≤ cutoff := by simpa using waited
    refine ⟨fun c₁ one => Option.some.inj one ▸ waited, ?_⟩
    have updated := KeyedTable.find?_update w.cooldowns
      (fun c : Cooldown => decide (c.emailHash = hash) && decide (c.lastSentAt ≤ cutoff))
      (fun c => { c with lastSentAt := now }) (fun _ => rfl) hash
    rw [here, Option.map_some] at updated
    refine updated.trans ?_
    simp [waited, Desk.cooldown?_hash found]

/-- A reservation that is not granted leaves the waiting times alone, and one that is, those
of the other hashes. -/
theorem Desk.reserve_cooldown? {hash hash' : Hash} {now cutoff : Int}
    (other : hash' = hash → (w.reserve hash now cutoff).2 ≠ 1) :
    (w.reserve hash now cutoff).1.cooldown? hash' = w.cooldown? hash' := by
  unfold Desk.reserve at other ⊢
  cases found : w.cooldown? hash with
  -- the INSERT is for the hash asked for
  | none =>
    rw [found] at other
    dsimp only at other ⊢
    split at other
    · rfl
    · next cooldowns inserted =>
      refine (KeyedTable.find?_insert? inserted hash').trans (if_neg fun same => ?_)
      exact other same rfl
  | some c =>
    rw [found] at other
    dsimp only at other ⊢
    have updated := KeyedTable.find?_update w.cooldowns
      (fun c : Cooldown => decide (c.emailHash = hash) && decide (c.lastSentAt ≤ cutoff))
      (fun c => { c with lastSentAt := now }) (fun _ => rfl) hash'
    refine updated.trans ?_
    show (w.cooldown? hash').map _ = w.cooldown? hash'
    cases here : w.cooldown? hash' with
    | none => rfl
    | some c' =>
      rw [Option.map_some, if_neg]
      -- a row the UPDATE meets would be the reserved one
      intro picked
      simp only [Bool.and_eq_true, decide_eq_true_eq] at picked
      have same : hash' = hash := (Desk.cooldown?_hash here).symm.trans picked.1
      subst same
      refine other rfl ((KeyedTable.affected_eq_one_iff w.cooldowns hash' _).2 ⟨c', here, ?_⟩)
      simpa using picked.2

/-- A statement that grants no reservation leaves the waiting time of a hash alone. -/
theorem RunCase.cooldown? {st : DeskStmt} {n : Nat} (case : RunCase w st w' n) (hash : Hash)
    (other : ∀ now cutoff, st = .reserveSend hash now cutoff → n ≠ 1) :
    w'.cooldown? hash = w.cooldown? hash := by
  cases case with
  | @reserved hash' now cutoff =>
    exact Desk.reserve_cooldown? fun same => other now cutoff (by rw [same])
  | _ => rfl

/-- At `k` the thread `i` is granted a confirmation mail by the hash. -/
def ReservedHash (tr : DeskTrace) (k i : Nat) (hash : Hash) (secs : Int) : Prop :=
  ∃ cutoff, ActedAt tr k i (.exec (.reserveSend hash secs cutoff)) (.ok 1)

/-- The waiting time of a hash in one step. -/
theorem cooldown_after (explains : (desk S).Explains s) (hash : Hash) :
    s.after.cooldown? hash = s.before.cooldown? hash ∨
      ∃ i now cutoff, s.label = .acted i ⟨.exec (.reserveSend hash now cutoff), .ok 1⟩ := by
  cases step_case explains with
  | idle same => exact .inl (by rw [same])
  | ran i st n label ran =>
    by_cases granted : ∃ now cutoff, st = .reserveSend hash now cutoff ∧ n = 1
    · obtain ⟨now, cutoff, rfl, rfl⟩ := granted
      exact .inr ⟨i, now, cutoff, label⟩
    · refine .inl ((run_case ran).cooldown? hash fun now cutoff same one => granted ?_)
      exact ⟨now, cutoff, same, one⟩
  -- neither of the transactions touches the waiting times
  | opened i c cooldown retention b label ran =>
    refine .inl ?_
    unfold Desk.openChallenge at ran
    dsimp only at ran
    split at ran
    · rw [← (Prod.mk.inj (Except.ok.inj ran)).1]
      rfl
    · split at ran
      · cases ran
      · rw [← (Prod.mk.inj (Except.ok.inj ran)).1]
        rfl
  | redeemed i th u x label ran =>
    have after : s.after = (s.before.redeem th u).1 := (congrArg Prod.fst ran).symm
    rw [after]
    exact .inl rfl
  | drifted d label ran =>
    rw [ran]
    cases d <;> exact .inl rfl

/-- What a reservation finds and leaves. -/
theorem reserved_step (explains : (desk S).Explains s) {hash : Hash} {now cutoff : Int}
    (label : s.label = .acted i ⟨.exec (.reserveSend hash now cutoff), .ok 1⟩) :
    (∀ c, s.before.cooldown? hash = some c → c.lastSentAt ≤ cutoff) ∧
      s.after.cooldown? hash = some ⟨hash, now⟩ := by
  have done : s.before.reserve hash now cutoff = (s.after, 1) :=
    Except.ok.inj (executed explains label)
  have one : (s.before.reserve hash now cutoff).2 = 1 := by rw [done]
  have granted := Desk.reserve_granted one
  rwa [done] at granted

/-! ## §6 Challenges -/

/-- The cleanup of a recovery request drops the challenge. -/
def Challenge.stale (x : Challenge) (now usedRetentionCutoff : Instant) : Bool :=
  decide (x.expiresAt ≤ now) || x.usedAt.any fun used => used < usedRetentionCutoff

/-- A request for the hash replaces the challenge. -/
def Challenge.pending (x : Challenge) (hash : Hash) : Bool :=
  x.emailHash = hash && x.usedAt.isNone

section Challenges

variable {c x : Challenge} {cooldown retention : Instant} {b : Bool} {th : Hash}

/-- A request that is refused only cleans up. -/
theorem Desk.openChallenge_refused (ran : w.openChallenge c cooldown retention = .ok (w', false))
    (th : Hash) : w'.challenge? th =
      (w.challenge? th).filter fun x => !x.stale c.createdAt retention := by
  unfold Desk.openChallenge at ran
  dsimp only at ran
  split at ran
  · obtain ⟨rfl, -⟩ := Prod.mk.inj (Except.ok.inj ran)
    exact KeyedTable.find?_delete w.challenges _ th
  · split at ran
    · cases ran
    · cases (Prod.mk.inj (Except.ok.inj ran)).2

/-- One that is granted puts the new challenge in place of the pending ones, none of which
is recent. -/
theorem Desk.openChallenge_granted (ran : w.openChallenge c cooldown retention = .ok (w', true)) :
    (∀ th x, w.challenge? th = some x → x.stale c.createdAt retention = false →
      x.pending c.emailHash = true → x.createdAt ≤ cooldown) ∧
    ((w.challenge? c.tokenHash).filter fun x => !x.stale c.createdAt retention).filter
      (fun x => !x.pending c.emailHash) = none ∧
    ∀ th, w'.challenge? th = if th = c.tokenHash then some c else
      ((w.challenge? th).filter fun x => !x.stale c.createdAt retention).filter
        fun x => !x.pending c.emailHash := by
  unfold Desk.openChallenge at ran
  dsimp only at ran
  split at ran
  · cases (Prod.mk.inj (Except.ok.inj ran)).2
  · next quiet =>
    split at ran
    · cases ran
    · next challenges inserted =>
      obtain ⟨rfl, -⟩ := Prod.mk.inj (Except.ok.inj ran)
      refine ⟨?_, ?_, ?_⟩
      -- a recent one would have refused the request
      · intro th x here fresh pending
        by_contra recent
        apply quiet
        rw [List.any_eq_true]
        have cleaned : (w.challenges.delete fun x : Challenge =>
            x.stale c.createdAt retention).find? th = some x := by
          rw [KeyedTable.find?_delete, show w.challenges.find? th = some x from here]
          simp [Option.filter, fresh]
        refine ⟨x, KeyedTable.find?_mem cleaned, ?_⟩
        simp only [Challenge.pending, Bool.and_eq_true, decide_eq_true_eq] at pending
        have recent : cooldown < x.createdAt := Int.not_le.1 recent
        simp [pending.1, pending.2, recent]
      -- the token's own place was empty after the cleaning
      · have absent := KeyedTable.find?_eq_none_of_insert? inserted
        rw [KeyedTable.find?_delete, KeyedTable.find?_delete] at absent
        exact absent
      · intro th
        refine (KeyedTable.find?_insert? inserted th).trans ?_
        split
        · rfl
        · rw [KeyedTable.find?_delete, KeyedTable.find?_delete]
          rfl

/-- A challenge that is neither expired nor used outlives a request that is refused, or
that is for another hash. -/
theorem Desk.openChallenge_kept (ran : w.openChallenge c cooldown retention = .ok (w', b))
    (here : w.challenge? th = some x) (unused : x.usedAt = none) (fresh : c.createdAt < x.expiresAt)
    (apart : b = true → x.emailHash ≠ c.emailHash) : w'.challenge? th = some x := by
  have stays : x.stale c.createdAt retention = false := by
    simp [Challenge.stale, unused, fresh]
  cases b with
  | false =>
    rw [Desk.openChallenge_refused ran th, here]
    simp [Option.filter, stays]
  | true =>
    have unasked : x.pending c.emailHash = false := by
      simp [Challenge.pending, apart rfl]
    obtain ⟨-, absent, after⟩ := Desk.openChallenge_granted ran
    have other : th ≠ c.tokenHash := by
      rintro rfl
      rw [here] at absent
      simp [Option.filter, stays, unasked] at absent
    rw [after th, if_neg other, here]
    simp [Option.filter, stays, unasked]

/-- A redemption marks its challenge, if that is unused and in time, and no other. -/
theorem Desk.redeem_challenge? (w : Desk) (th : Hash) (now : Instant) (th' : Hash) :
    (w.redeem th now).1.challenge? th' = (w.challenge? th').map fun x =>
      if th' = th ∧ x.usedAt = none ∧ now < x.expiresAt then { x with usedAt := some now } else x := by
  have updated := KeyedTable.find?_update w.challenges
    (fun c : Challenge => decide (c.tokenHash = th) &&
      (c.usedAt.isNone && decide (now < c.expiresAt)))
    (fun c => { c with usedAt := some now }) (fun _ => rfl) th'
  refine updated.trans ?_
  show (w.challenge? th').map _ = _
  cases here : w.challenge? th' with
  | none => rfl
  | some x =>
    have named : x.tokenHash = th' := KeyedTable.find?_key here
    rw [Option.map_some, Option.map_some]
    simp [named, Option.isNone_iff_eq_none]

end Challenges

end Identity

end GhostKey

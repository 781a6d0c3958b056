import GhostKey.Conduct.Tidy
import GhostKey.KeyGates
import Mathlib.Data.List.Perm.Basic

/-!
# The Founding of a Guardian Vault

`create_vault_guardian` writes four times, and in no transaction: the vault, in the
status `ok`, its first guardian, its second, and then the status `unfunded`. Between
two of them a seal may fail, the database may refuse, or the process may stop.

Main results:
- `guardianChange`: what one step may do to a guardian's row.
- `founding`: the four writes come in this order, and a creation that returns without
  the last one has met a failure.
- `wholeOrNone_of_unbroken`: where no founding is broken off, none is left half done.
-/

namespace GhostKey

open Foundation Program Prog

/-! ## §1 The guardians' table -/

/-- The row of a guardian. -/
def World.guardian? (w : World) (v : VaultId) (slot : Nat) : Option GuardianRow :=
  w.db.guardians.find? (v, slot)

/-- Everything a step may do to the row of one guardian. -/
inductive GuardianChange (s : SrvStep) (v : VaultId) (slot : Nat) : Prop
  | kept (same : s.after.guardian? v slot = s.before.guardian? v slot)
  | inserted (i n : Nat) (g : GuardianRow) (did : Did i (.exec (.insertGuardian g)) (.ok n) s)
      (key : g.key = (v, slot)) (after : s.after.guardian? v slot = some g)
  | deleted (i n : Nat) (did : Did i (.exec (.deleteVault v)) (.ok n) s)
      (after : s.after.guardian? v slot = none)

section Tables

theorem Db.guardians_foldl_resetSibling (now : Instant) (sibs : List VaultRow)
    (acc : Db × List VaultId) :
    (sibs.foldl (Db.resetSibling now) acc).1.guardians = acc.1.guardians := by
  induction sibs generalizing acc with
  | nil => rfl
  | cons s sibs ih =>
    rw [List.foldl_cons, ih]
    unfold Db.resetSibling
    split <;> rfl

theorem Db.guardians_markPaidAndCheckinTx (db : Db) (paymentHash : String) (now : Instant) :
    (db.markPaidAndCheckinTx paymentHash now).1.guardians = db.guardians := by
  unfold Db.markPaidAndCheckinTx
  split
  · dsimp only
    split
    · rfl
    · rw [Db.guardians_foldl_resetSibling]
      unfold Db.resetPaid
      split <;> rfl
  · rfl

theorem Db.guardians_markPanicPaidTx (db : Db) (paymentHash : String) (now : Instant) :
    (db.markPanicPaidTx paymentHash now).1.guardians = db.guardians := by
  unfold Db.markPanicPaidTx
  split
  · dsimp only
    split <;> rfl
  · rfl

variable {S : Server} {s : SrvStep} {i n : Nat} {v : VaultId} {slot : Nat}

/-- An INSERT that succeeds leaves its row. -/
theorem did_insertGuardian {g : GuardianRow} (explains : (server S).Explains s)
    (did : Did i (.exec (.insertGuardian g)) (.ok n) s) :
    ∀ v slot, s.after.guardian? v slot =
      if (v, slot) = g.key then some g else s.before.guardian? v slot := by
  obtain ⟨db, ran, after⟩ := did_exec explains did
  simp only [Stmt.run] at ran
  split at ran
  · split at ran
    · cases ran
    · next guardians inserted =>
      cases ran
      intro v slot
      rw [after]
      exact KeyedTable.find?_insert? inserted (v, slot)
  · cases ran

private theorem guardianChange_exec {st : Stmt} (explains : (server S).Explains s)
    (did : Did i (.exec st) (.ok n) s) : GuardianChange s v slot := by
  have whole := did_exec explains did
  obtain ⟨db, ran, after⟩ := whole
  have kept : db.guardians = s.before.db.guardians → GuardianChange s v slot := fun same =>
    .kept (by rw [after]; exact congrArg (KeyedTable.find? · (v, slot)) same)
  -- two statements reach the table, the others leave it as it is
  cases st with
  | insertGuardian g =>
    have row := did_insertGuardian explains did v slot
    by_cases here : (v, slot) = g.key
    · rw [if_pos here] at row
      exact .inserted i n g did here.symm row
    · rw [if_neg here] at row
      exact .kept row
  | deleteVault id =>
    cases ran
    have row : s.after.guardian? v slot = (s.before.guardian? v slot).filter
        fun g => !decide (g.vaultId = id) := by
      rw [after]
      exact KeyedTable.find?_delete s.before.db.guardians _ (v, slot)
    -- the row goes exactly with its vault
    have kept_iff : s.after.guardian? v slot =
        if v = id then none else s.before.guardian? v slot := by
      rw [row]
      cases found : s.before.guardian? v slot with
      | none => simp
      | some g =>
        have key : g.vaultId = v := congrArg Prod.fst (KeyedTable.find?_key found)
        by_cases same : v = id <;> simp [Option.filter, key, same]
    by_cases same : v = id
    · rw [if_pos same] at kept_iff
      subst same
      exact .deleted i _ did kept_iff
    · rw [if_neg same] at kept_iff
      exact .kept kept_iff
  | insertVault r =>
    simp only [Stmt.run, Db.insertVault] at ran
    split at ran
    · split at ran <;> cases ran
      exact kept rfl
    · cases ran
  | insertInvoice inv =>
    simp only [Stmt.run] at ran
    split at ran
    · split at ran
      · split at ran <;> cases ran
        exact kept rfl
      · cases ran
    · cases ran
  | insertEvent e | insertNotification e =>
    simp only [Stmt.run] at ran
    split at ran <;> cases ran
    exact kept rfl
  | insertDeposit d =>
    simp only [Stmt.run] at ran
    split at ran <;> cases ran <;> exact kept rfl
  | _ => cases ran; exact kept rfl

/-- What one step of a run may do to the row of one guardian. -/
theorem guardianChange (explains : (server S).Explains s) (v : VaultId) (slot : Nat) :
    GuardianChange s v slot := by
  have same : s.after.db.guardians = s.before.db.guardians → GuardianChange s v slot := fun same =>
    .kept (congrArg (KeyedTable.find? · (v, slot)) same)
  have whole := explains
  unfold System.Explains at whole
  split at whole
  · next i e label =>
    obtain ⟨a, r⟩ := e
    have did : Did i a r s := label
    obtain ⟨o, answer, world⟩ := performed explains did
    -- one case per action; the payments leave guardians alone
    cases a with
    | exec st =>
      cases r with
      | ok n => exact guardianChange_exec explains did
      | error e => exact same (by rw [← world, Action.perform_exec_error answer])
    | payCheckin paymentHash t =>
      cases r with
      | ok outcome =>
        have tx := Db.guardians_markPaidAndCheckinTx s.before.db paymentHash t
        rw [did_payCheckin explains did] at tx
        exact same tx
      | error e => exact same (by rw [← world, Action.perform_payCheckin_error answer])
    | payPanic paymentHash t =>
      cases r with
      | ok outcome =>
        have tx := Db.guardians_markPanicPaidTx s.before.db paymentHash t
        rw [did_payPanic explains did] at tx
        exact same tx
      | error e => exact same (by rw [← world, Action.perform_payPanic_error answer])
    | ask x =>
      refine same ?_
      rw [← world]
      change (x.effect (o.answer x) s.before).db.guardians = _
      unfold External.effect
      split <;> rfl
    | _ => exact same (by rw [← world]; rfl)
  · next d label => cases d <;> exact same (by rw [whole]; rfl)
  · exact same (by rw [whole]; rfl)
  · exact same (by rw [whole])

end Tables

/-! ## §2 Whole or none -/

/-- The thread `i`, a guardian creation for `req`, inserted the vault `r` at `j`. -/
structure Founds (tr : Trace) (i j : Nat) (req : CreateGuardianVaultRequest) (r : VaultRow) :
    Prop where
  asked : Started i (.createVaultGuardian req) (tr.take j)
  inserted : ∃ s n, tr[j]? = some s ∧ Did i (.exec (.insertVault r)) (.ok n) s

/-- No DELETE of `v` has been run after `j` and before `k`. -/
def Undeleted (tr : Trace) (v : VaultId) (j k : Nat) : Prop :=
  ∀ n s i m, j < n → n < k → tr[n]? = some s → ¬ Did i (.exec (.deleteVault v)) (.ok m) s

/-- The thread `i` ran the UPDATE that holds the clock of `v` at `m`. -/
def Holds (tr : Trace) (i m : Nat) (v : VaultId) : Prop :=
  ∃ s n, tr[m]? = some s ∧
    Did i (.exec (.updateVault v (.setInitialStatus initialVaultStatus))) (.ok n) s

/-- A vault founded by `i` at `j` is complete before `k`: it has two guardians, and has been
made `unfunded`, which only a later statement has changed. -/
structure Whole (tr : Trace) (i j k : Nat) (v : VaultId) (w : World) : Prop where
  guardians : ((w.db.guardians.select fun g => g.vaultId = v).map GuardianRow.slot).Perm [1, 2]
  unfunded : ∃ m, j < m ∧ m < k ∧ Holds tr i m v ∧
    ((∀ n s u, m < n → n < k → tr[n]? = some s → ¬ Commits s v u) →
      ∃ r, w.vault? v = some r ∧ r.life.status = .unfunded)

/-- However a creation ends, by an answer, an error or a crash, it leaves no vault or a
complete one. -/
def WholeOrNone (tr : Trace) : Prop :=
  ∀ i j k req r s, Founds tr i j req r → j < k → tr[k]? = some s → Ended i (tr.take k) →
    Undeleted tr r.id j k → Whole tr i j k r.id s.before

/-- The token and the contact of a guardian can be sealed. -/
def Seals (S : Server) (id : VaultId) (g : GuardianParty) : Prop :=
  (∃ stored, S.sealClaimTokenAtRest id g.claimToken = .ok stored) ∧
    ∃ contact, sealOpt S id g.contact = .ok contact

/-- The writes that follow the INSERT of the vault. -/
def Stmt.completes (v : VaultId) : Stmt → Prop
  | insertGuardian g => g.vaultId = v
  | updateVault id (.setInitialStatus _) => id = v
  | _ => False

/-- No founding is broken off: the guardians' secrets can be sealed, the database refuses a
write that follows only when the vault is gone, and the process does not stop before the
last of them. -/
structure Unbroken (S : Server) (tr : Trace) : Prop where
  seals : ∀ i j req r, Founds tr i j req r →
    Seals S r.id req.guardian1 ∧ Seals S r.id req.guardian2
  written : ∀ i j k req r s st e, Founds tr i j req r → j < k → tr[k]? = some s →
    st.completes r.id → Did i (.exec st) (.error e) s → s.before.vault? r.id = none
  running : ∀ i j k req r s, Founds tr i j req r → j < k → tr[k]? = some s →
    s.label = .halted → ¬ Ended i (tr.take k) → ∃ m, j < m ∧ m < k ∧ Holds tr i m r.id

/-! ## §3 The four writes -/

/-- The writes of a creation. -/
def Action.founds : Action → Bool
  | exec (.insertVault _) => true
  | exec (.insertGuardian _) => true
  | exec (.updateVault _ (.setInitialStatus _)) => true
  | _ => false

/-- What has gone before each of the writes. -/
def Orderly (h : Hist) (e : Ev) : Prop :=
  match e.action with
  | .exec (.insertVault _) => ∀ r n, ¬ Ran h (.insertVault r) n
  | .exec (.insertGuardian g) => ∃ r n, r.id = g.vaultId ∧ Ran h (.insertVault r) n
  | .exec (.updateVault v (.setInitialStatus _)) => ∀ slot, slot = 1 ∨ slot = 2 →
      ∃ g n, g.key = (v, slot) ∧ Ran h (.insertGuardian g) n
  | _ => True

/-- The thread has inserted the vault `v` and no other. -/
structure Born (h : Hist) (v : VaultId) : Prop where
  vault : ∃ r n, r.id = v ∧ Ran h (.insertVault r) n
  only : ∀ r n, Ran h (.insertVault r) n → r.id = v

/-- A write that follows has been refused, or a secret of `g` cannot be sealed. -/
def BrokenOff (S : Server) (v : VaultId) (g : GuardianParty) (h : Hist) : Prop :=
  (∃ st e, st.completes v ∧ (⟨.exec st, .error e⟩ : Ev) ∈ h) ∨ ¬ Seals S v g

/-- How a creation that has inserted a vault may have ended. -/
def Left (S : Server) (req : CreateGuardianVaultRequest) (h : Hist) : Prop :=
  ∀ r n, Ran h (.insertVault r) n →
    (∃ m, Ran h (.updateVault r.id (.setInitialStatus initialVaultStatus)) m) ∨
      BrokenOff S r.id req.guardian1 h ∨ BrokenOff S r.id req.guardian2 h

/-- Nothing that is one of the four writes. -/
structure Bare {α : Type} (p : Prog α) : Prop where
  only : p.Only fun a => a.founds = false

/-- The writes of `p` come in their order, and what it leaves behind is accounted for. -/
structure Accounts (S : Server) (req : CreateGuardianVaultRequest) {α : Type} (p : Prog α)
    (h : Hist) : Prop where
  meets : Meets Orderly (fun g _ => Left S req g) p h

section Order

variable {S : Server} {req : CreateGuardianVaultRequest} {h g more : Hist} {v : VaultId} {α : Type}

theorem orderly_of_bare {e : Ev} (plain : e.action.founds = false) : Orderly h e := by
  unfold Orderly
  split
  · next same => rw [same] at plain; cases plain
  · next same => rw [same] at plain; cases plain
  · next same => rw [same] at plain; cases plain
  · trivial

theorem BrokenOff.mono {party : GuardianParty} (broken : BrokenOff S v party h) (sub : h ⊆ g) :
    BrokenOff S v party g := by
  rcases broken with ⟨st, e, completes, mem⟩ | unsealed
  · exact .inl ⟨st, e, completes, sub mem⟩
  · exact .inr unsealed

theorem Born.append (born : Born h v)
    (others : ∀ e ∈ more, ∀ r, e.action ≠ .exec (.insertVault r)) : Born (h ++ more) v := by
  obtain ⟨r, n, id, ran⟩ := born.vault
  refine ⟨⟨r, n, id, ran.mono (List.subset_append_left h more)⟩, fun r' n' ran' => ?_⟩
  rcases List.mem_append.1 ran' with old | new
  · exact born.only r' n' old
  · exact absurd rfl (others _ new r')

theorem Born.bare (born : Born h v) (plain : ∀ e ∈ more, e.action.founds = false) :
    Born (h ++ more) v :=
  born.append fun e mem r same => by
    have here := plain e mem
    rw [same] at here
    cases here

theorem bare_meets {p : Prog α} (plain : Bare p) (h : Hist) :
    Meets Orderly (fun g _ => ∃ more, g = h ++ more ∧ ∀ e ∈ more, e.action.founds = false) p h :=
  Meets.mono (plain.only.adds h) (fun _ _ good => orderly_of_bare good) fun _ _ added => added

/-- Before the INSERT nothing is left behind. -/
theorem left_of_unborn (unborn : ∀ r n, ¬ Ran h (.insertVault r) n) : Left S req h :=
  fun r n ran => absurd ran (unborn r n)

/-- A part before the INSERT. -/
theorem before_bind {β : Type} {p : Prog α} {f : α → Prog β} (plain : Bare p)
    (unborn : ∀ r n, ¬ Ran h (.insertVault r) n)
    (rest : ∀ g a, (∀ r n, ¬ Ran g (.insertVault r) n) → Accounts S req (f a) g) :
    Accounts S req (p >>= f) h := by
  have still : ∀ g, (∃ more, g = h ++ more ∧ ∀ e ∈ more, e.action.founds = false) →
      ∀ r n, ¬ Ran g (.insertVault r) n := by
    rintro g ⟨more, rfl, plain⟩ r n ran
    rcases List.mem_append.1 ran with old | new
    · exact unborn r n old
    · cases plain _ new
  exact ⟨Meets.bind (bare_meets plain h) (fun g a _ added => (rest g a (still g added)).meets)
    fun g e _ added => left_of_unborn (still g added)⟩

/-- What the INSERT of a guardian adds. -/
theorem meets_insertGuardian (t : Instant) (slot : Nat) (party : GuardianParty)
    (born : Born h v) :
    Meets Orderly (fun g r => (h <+: g ∧ Born g v) ∧ match r with
      | .ok _ => ∃ row n, row.key = (v, slot) ∧ Ran g (.insertGuardian row) n
      | .error _ => BrokenOff S v party g) (insertGuardian S v t slot party) h := by
  unfold insertGuardian
  -- the token is sealed, then the contact, then the row goes in
  cases atRest : S.sealClaimTokenAtRest v party.claimToken with
  | error e =>
    refine ⟨⟨List.prefix_refl h, born⟩, .inr fun seals => ?_⟩
    obtain ⟨stored, sealed⟩ := seals.1
    rw [atRest] at sealed
    cases sealed
  | ok stored =>
    cases contact : sealOpt S v party.contact with
    | error e =>
      refine ⟨⟨List.prefix_refl h, born⟩, .inr fun seals => ?_⟩
      obtain ⟨sealed, done⟩ := seals.2
      rw [contact] at done
      cases done
    | ok sealed =>
      intro r
      have grown : ∀ e : Ev, (∀ r, e.action ≠ .exec (.insertVault r)) →
          h <+: h ++ [e] ∧ Born (h ++ [e]) v := fun e other =>
        ⟨List.prefix_append h _, born.append fun e' mem => by
          rw [List.mem_singleton] at mem
          exact mem ▸ other⟩
      refine ⟨born.vault, ?_⟩
      cases r with
      | ok n => exact ⟨grown _ (by rintro r ⟨⟩), _, n, rfl, Ran.here⟩
      | error e =>
        refine ⟨grown _ (by rintro r ⟨⟩), .inl ⟨_, e, ?_,
          List.mem_append_right h (List.mem_singleton_self _)⟩⟩
        exact rfl

/-! ### The parts that write none of them -/

theorem bare_bind {β : Type} {p : Prog α} {f : α → Prog β} (first : Bare p)
    (rest : ∀ a, Bare (f a)) : Bare (p >>= f) := ⟨.bind first.only fun a => (rest a).only⟩

theorem bare_pure (a : α) : Bare (pure a : Prog α) := ⟨trivial⟩

theorem bare_fail (e : ApiError) : Bare (.fail e : Prog α) := ⟨trivial⟩

theorem bare_perform {a : Action} (plain : a.founds = false) :
    Bare (Program.perform a : Prog a.Response) := ⟨.perform plain⟩

theorem bare_validated (pre : String) (x : Except String α) : Bare (validated pre x) := by
  cases x <;> exact ⟨trivial⟩

theorem bare_crypto (x : Except Unit α) : Bare (crypto x) := by
  cases x <;> exact ⟨trivial⟩

theorem bare_query (q : Query) : Bare (query q) :=
  ⟨rfl, fun r => by cases r <;> trivial⟩

theorem bare_exec {st : Stmt} (plain : (Action.exec st).founds = false) : Bare (exec st) :=
  ⟨plain, fun r => by cases r <;> trivial⟩

theorem bare_recordEvent (id : VaultId) (kind : EventKind) (detail : Detail) :
    Bare (recordEvent id kind detail) :=
  bare_bind (bare_perform rfl) fun _ => bare_bind (bare_exec rfl) fun _ => bare_pure _

theorem bare_checkGuardian (req : CreateGuardianVaultRequest) : Bare (checkGuardian S req) := by
  refine bare_bind (bare_validated _ _) fun _ => bare_bind (bare_validated _ _) fun _ => ?_
  refine bare_bind (bare_validated _ _) fun _ => bare_bind (bare_validated _ _) fun _ => ?_
  refine bare_bind (bare_validated _ _) fun _ => bare_bind (bare_validated _ _) fun _ => ?_
  exact bare_bind (bare_validated _ _) fun _ => bare_pure _

theorem bare_resolveFour (req : CreateGuardianVaultRequest) : Bare (resolveFour S req) := by
  refine bare_bind (bare_validated _ _) fun _ => bare_bind (bare_validated _ _) fun _ => ?_
  refine bare_bind (bare_validated _ _) fun _ => bare_bind (bare_validated _ _) fun _ => ?_
  split
  · exact bare_fail _
  · exact bare_pure _

theorem bare_sealGuardianContacts (id : VaultId) (req : CreateGuardianVaultRequest) :
    Bare (sealGuardianContacts S id req) := by
  refine bare_bind (bare_crypto _) fun _ => bare_bind (bare_crypto _) fun _ => ?_
  exact bare_bind (bare_validated _ _) fun _ => bare_bind (bare_crypto _) fun _ =>
    bare_pure _

theorem bare_rejectConflictingOwnerEmail (hash : Hash) (ownerXpub : String) :
    Bare (rejectConflictingOwnerEmail hash ownerXpub) := by
  refine bare_bind (bare_query _) fun conflict => ?_
  split
  · exact bare_fail _
  · exact bare_pure _

theorem bare_inheritVerification (r : VaultRow) (t : Instant) :
    Bare (inheritVerification r t) := by
  unfold inheritVerification
  split
  · split
    · exact bare_pure _
    · refine bare_bind (bare_query _) fun verified => ?_
      split
      · exact bare_bind (bare_exec rfl) fun _ =>
          bare_bind (bare_recordEvent _ _ _) fun _ => bare_pure _
      · exact bare_pure _
  · exact bare_pure _

/-! ### The whole creation -/

/-- From the INSERT on. -/
theorem meets_afterInsert (t : Instant) (r : VaultRow) (detail : Detail)
    (answer : Option Bool → CreatedVault) (born : Born h v) :
    Meets Orderly (fun g _ => Left S req g) (do
      insertGuardian S v t 1 req.guardian1
      insertGuardian S v t 2 req.guardian2
      holdClock v detail
      let verified ← inheritVerification r t
      pure (answer verified)) h := by
  have only : ∀ {g r n}, Born g v → Ran g (.insertVault r) n → r.id = v := fun born ran =>
    born.only _ _ ran
  -- the first guardian, the second, then the clock is held
  refine Meets.bind (meets_insertGuardian t 1 req.guardian1 born) (fun g₁ _ _ first => ?_)
    fun g₁ e _ broken r n ran => .inr (.inl ?_)
  swap
  · -- this guardian was refused, and the founding breaks off
    rw [only broken.1.2 ran]
    exact broken.2
  obtain ⟨⟨-, born⟩, row₁, n₁, key₁, ran₁⟩ := first
  refine Meets.bind (meets_insertGuardian t 2 req.guardian2 born) (fun g₂ _ grown second => ?_)
    fun g₂ e _ broken r n ran => .inr (.inr ?_)
  swap
  · rw [only broken.1.2 ran]
    exact broken.2
  obtain ⟨⟨-, born⟩, row₂, n₂, key₂, ran₂⟩ := second
  have ran₁ := ran₁.mono grown.subset
  intro held
  refine ⟨fun slot two => ?_, ?_⟩
  · rcases two with rfl | rfl
    · exact ⟨row₁, n₁, key₁, ran₁⟩
    · exact ⟨row₂, n₂, key₂, ran₂⟩
  have other : ∀ e ∈ [(⟨.exec (.updateVault v (.setInitialStatus initialVaultStatus)), held⟩ : Ev)],
      ∀ r, e.action ≠ .exec (.insertVault r) := by
    rintro e mem r same
    rw [List.mem_singleton] at mem
    rw [mem] at same
    cases same
  have born := born.append other
  cases held with
  | error e =>
    refine fun r n ran => .inr (.inl (.inl ⟨.updateVault v (.setInitialStatus initialVaultStatus),
      e, ?_, List.mem_append_right _ (List.mem_singleton_self _)⟩))
    exact (only born ran).symm
  | ok m =>
    have rest : Bare (do
        recordEvent v .registered detail
        let verified ← inheritVerification r t
        pure (answer verified) : Prog CreatedVault) :=
      bare_bind (bare_recordEvent _ _ _) fun _ =>
        bare_bind (bare_inheritVerification _ _) fun _ => bare_pure _
    refine Meets.mono (bare_meets rest _) (fun _ _ good => good) ?_
    rintro g - ⟨more, rfl, plain⟩ r n ran
    refine .inl ⟨m, ?_⟩
    rw [only (born.bare plain) ran]
    exact Ran.here.mono (List.subset_append_left _ more)

/-- The four writes come in their order, and a creation that leaves a vault and has not held
its clock was broken off. -/
theorem founding (S : Server) (req : CreateGuardianVaultRequest) :
    Accounts S req (createVaultGuardian S req) [] := by
  refine before_bind (bare_validated _ _) (by rintro r n ⟨⟩) fun g₀ _ unborn => ?_
  refine before_bind (bare_checkGuardian req) unborn fun g₁ network unborn => ?_
  refine before_bind (bare_resolveFour req) unborn fun g₂ parties unborn => ?_
  refine before_bind (bare_validated _ _) unborn fun g₃ pair unborn => ?_
  refine before_bind (bare_validated _ _) unborn fun g₄ _ unborn => ?_
  -- still nothing is written before the INSERT of the vault
  split
  · refine before_bind (bare_perform rfl) unborn fun g₅ id unborn => ?_
    refine before_bind (bare_perform rfl) unborn fun g₆ t unborn => ?_
    refine before_bind (bare_rejectConflictingOwnerEmail _ _) unborn fun g₇ _ unborn => ?_
    refine before_bind (bare_crypto _) unborn fun g₈ atRest unborn => ?_
    refine before_bind (bare_sealGuardianContacts id req) unborn fun g₉ sealed unborn => ?_
    refine before_bind (bare_perform rfl) unborn fun g ownerToken unborn => ?_
    refine ⟨fun inserted => ⟨unborn, ?_⟩⟩
    cases inserted with
    | error e =>
      refine left_of_unborn fun r n ran => ?_
      rcases List.mem_append.1 ran with old | new
      · exact unborn r n old
      · cases List.mem_singleton.1 new
    | ok n =>
      refine meets_afterInsert t _ _ _ ⟨⟨_, n, rfl, Ran.here⟩, fun r m ran => ?_⟩
      rcases List.mem_append.1 ran with old | new
      · exact absurd old (unborn r m)
      · cases List.mem_singleton.1 new
        rfl
  · exact ⟨left_of_unborn unborn⟩

end Order

/-! ## §4 Along a run -/

section Positions

variable {S : Server} {t₀ : Instant} {tr : Trace} {s : SrvStep} {i j k : Nat}
variable {req : CreateGuardianVaultRequest} {r : VaultRow} {v : VaultId}

private theorem accounts_request (S : Server) (q : Request) :
    Meets (fun h e => ∀ req, q = .createVaultGuardian req → Orderly h e)
      (fun g _ => ∀ req, q = .createVaultGuardian req → Left S req g) (q.program S) [] := by
  by_cases guardian : ∃ req, q = .createVaultGuardian req
  · obtain ⟨req, rfl⟩ := guardian
    have accounts : Meets (fun h e => ∀ req', Request.createVaultGuardian req =
        .createVaultGuardian req' → Orderly h e) (fun g _ => Left S req g)
        (createVaultGuardian S req) [] :=
      Meets.mono (founding S req).meets (fun _ _ good _ _ => good) fun _ _ left => left
    refine Meets.bind accounts ?_ ?_
    · rintro g a - left req' ⟨⟩
      exact left
    · rintro g e - left req' ⟨⟩
      exact left
  · exact Meets.mono (Meets.grows (q.program S) [])
      (fun _ _ _ req same => absurd ⟨req, same⟩ guardian)
      fun _ _ _ req same => absurd ⟨req, same⟩ guardian

theorem Runs.orderly (runs : Runs S t₀ tr) (at_k : tr[k]? = some s) {a : Action} {x : a.Response}
    (did : Did i a x s) (started : Started i (.createVaultGuardian req) (tr.take k)) :
    Orderly (history i k tr) ⟨a, x⟩ := by
  obtain ⟨c, run⟩ := runs
  obtain ⟨q, started', orderly⟩ := run.acted_at (accounts_request S) at_k did
  obtain ⟨c', before⟩ := run.take k
  exact orderly req (before.started_unique started' started)

theorem Runs.left (runs : Runs S t₀ tr) (at_k : tr[k]? = some s) {x : Except ApiError Reply}
    (label : s.label = .returned i x) (started : Started i (.createVaultGuardian req) (tr.take k)) :
    Left S req (history i k tr) := by
  obtain ⟨c, run⟩ := runs
  obtain ⟨q, started', left⟩ := run.returned_at (accounts_request S) at_k label
  obtain ⟨c', before⟩ := run.take k
  exact left req (before.started_unique started' started)

/-- The creation has inserted its vault before any write that follows. -/
theorem Founds.before (founds : Founds tr i j req r) (runs : Runs S t₀ tr)
    (at_k : tr[k]? = some s) {st : Stmt} {x : Except DbError Nat}
    (did : Did i (.exec st) x s) (completes : st.completes v) : j < k := by
  obtain ⟨s₀, n₀, at_j, inserted⟩ := founds.inserted
  by_contra early
  rcases Nat.eq_or_lt_of_le (Nat.not_lt.1 early) with rfl | before
  · rw [at_j] at at_k
    cases at_k
    cases inserted.symm.trans did
    exact completes
  -- an INSERT of the vault came before it, and one creation inserts one vault
  have first : ∀ r' n', ¬ Ran (history i j tr) (.insertVault r') n' :=
    runs.orderly at_j inserted founds.asked
  have started : ∀ {m s' a x}, m < j → tr[m]? = some s' → Did i a x s' →
      Started i (.createVaultGuardian req) (tr.take m) := by
    intro m s' a x lt at_m did'
    obtain ⟨q, started, -⟩ := runs.entitled at_m did'
    obtain ⟨c, run⟩ := runs
    obtain ⟨c', run'⟩ := run.take j
    have same := run'.started_unique (started.later (Nat.le_of_lt lt)) founds.asked
    exact same ▸ started
  have guardian : ∀ {m s' g y}, m < j → tr[m]? = some s' →
      ¬ Did i (.exec (.insertGuardian g)) y s' := by
    intro m s' g y lt at_m did'
    obtain ⟨r', n', -, ran⟩ := runs.orderly at_m did' (started lt at_m did')
    exact first r' n' (ran.mono (history_subset (Nat.le_of_lt lt)))
  have orderly := runs.orderly at_k did (started before at_k did)
  unfold Stmt.completes at completes
  split at completes
  · exact guardian before at_k did
  · obtain ⟨g, n, -, ran⟩ := orderly 1 (.inl rfl)
    obtain ⟨m, s', lt, at_m, did'⟩ := mem_history.1 ran
    exact guardian (Nat.lt_trans lt before) at_m did'
  · exact completes

/-- While it is not deleted the vault is there. -/
theorem Founds.present (founds : Founds tr i j req r) (runs : Runs S t₀ tr)
    (undeleted : Undeleted tr r.id j k) (lt : j < k) (at_k : tr[k]? = some s) :
    ∃ row, s.before.vault? r.id = some row := by
  obtain ⟨s₀, n₀, at_j, inserted⟩ := founds.inserted
  have start := (did_insertVault (runs.explains_at at_j) inserted).2
  obtain ⟨c, run⟩ := id runs
  refine run.since (P := fun w => ∃ row, w.vault? r.id = some row) at_j ⟨r, start⟩
    (fun n u after before at_n here => ?_) lt at_k
  cases rowChange (runs.explains_at at_n) r.id with
  | kept same => exact same ▸ here
  | contacts row c _ now => exact ⟨_, now⟩
  | inserted _ row _ _ _ _ now => exact ⟨row, now⟩
  | deleted i' m did => exact absurd did (undeleted n u i' m after before at_n)
  | applied _ row _ _ _ now => exact ⟨_, now⟩

/-- A founding that is not broken off holds the clock before it ends. -/
theorem Founds.holds (founds : Founds tr i j req r) (runs : Runs S t₀ tr)
    (unbroken : Unbroken S tr) (undeleted : Undeleted tr r.id j k) (lt : j < k)
    (ended : Ended i (tr.take k)) : ∃ m, j < m ∧ m < k ∧ Holds tr i m r.id := by
  -- by strong induction: a halt that the founding survives is looked at again from there
  induction k using Nat.strong_induction_on with
  | _ k ih =>
    obtain ⟨s₀, n₀, at_j, inserted⟩ := founds.inserted
    obtain ⟨c, run⟩ := id runs
    obtain ⟨n, t, after, before, at_n, ends⟩ := run.ended_since at_j inserted ended
    have undeleted' : Undeleted tr r.id j n := fun m u i' x above below =>
      undeleted m u i' x above (Nat.lt_trans below before)
    rcases ends with ⟨x, label⟩ | halted
    · have started := founds.asked.later (Nat.le_of_lt after)
      have ran : Ran (history i n tr) (.insertVault r) n₀ := mem_history.2 ⟨j, s₀, after, at_j, inserted⟩
      -- it cannot have broken off: its writes and seals went through
      have broken : ∀ g, BrokenOff S r.id g (history i n tr) → Seals S r.id g → False := by
        intro g broken seals
        rcases broken with ⟨st, e, completes, mem⟩ | unsealed
        · obtain ⟨m, u, below, at_m, did⟩ := mem_history.1 mem
          have above := founds.before runs at_m did completes
          have gone := unbroken.written i j m req r u st e founds above at_m completes did
          obtain ⟨row, here⟩ := founds.present runs (k := m)
            (fun m' u' i' x above' below' => undeleted' m' u' i' x above' (Nat.lt_trans below' below))
            above at_m
          rw [gone] at here
          cases here
        · exact unsealed seals
      obtain ⟨seals₁, seals₂⟩ := unbroken.seals i j req r founds
      rcases runs.left at_n label started r n₀ ran with ⟨x, held⟩ | first | second
      · obtain ⟨m, u, below, at_m, did⟩ := mem_history.1 held
        exact ⟨m, founds.before (v := r.id) runs at_m did rfl, Nat.lt_trans below before, u, x, at_m,
          did⟩
      · exact (broken _ first seals₁).elim
      · exact (broken _ second seals₂).elim
    · by_cases already : Ended i (tr.take n)
      · obtain ⟨m, above, below, held⟩ := ih n before undeleted' after already
        exact ⟨m, above, Nat.lt_trans below before, held⟩
      · obtain ⟨m, above, below, held⟩ :=
          unbroken.running i j n req r t founds after at_n halted already
        exact ⟨m, above, Nat.lt_trans below before, held⟩

/-- A guardian of a vault is its first or its second. -/
theorem Runs.guardian_slot (runs : Runs S t₀ tr) (at_k : tr[k]? = some s) {slot : Nat}
    {g : GuardianRow} (row : s.before.guardian? v slot = some g) : slot = 1 ∨ slot = 2 := by
  obtain ⟨c, run⟩ := id runs
  refine ((run.invariant_at (P := fun _ w => ∀ slot g, w.guardian? v slot = some g →
    slot = 1 ∨ slot = 2) (fun slot g none => ?_) fun n u at_n explains here slot g row => ?_).1
    k s at_k).1 slot g row
  · cases none
  · cases guardianChange explains v slot with
    | kept same => exact here slot g (same ▸ row)
    | inserted i m g' did key now =>
      obtain ⟨q, -, entitled⟩ := runs.entitled at_n did
      have slots : g'.slot = 1 ∨ g'.slot = 2 := by
        rcases entitled with tame | ⟨v', token, t, g, minted, -⟩ | ⟨-, tick⟩ | ⟨-, guardian⟩
        · cases tame
        · cases minted
        · cases tick
        · exact of_decide_eq_true guardian
      rwa [show g'.slot = slot from congrArg Prod.snd key] at slots
    | deleted i m did now =>
      rw [now] at row
      cases row

/-- A vault whose guardians are in the two slots has two. -/
theorem guardians_perm {w : World} (both : ∀ slot, (∃ g, w.guardian? v slot = some g) ↔
    slot = 1 ∨ slot = 2) :
    ((w.db.guardians.select fun g => g.vaultId = v).map GuardianRow.slot).Perm [1, 2] := by
  have nodup : ((w.db.guardians.select fun g => g.vaultId = v).map GuardianRow.slot).Nodup := by
    have keys := w.db.guardians.nodup
    refine List.Nodup.map_on (fun g mem g' mem' same => ?_)
      ((List.Nodup.of_map _ keys).filter _)
    obtain ⟨found, here⟩ := KeyedTable.mem_select.1 mem
    obtain ⟨found', here'⟩ := KeyedTable.mem_select.1 mem'
    rw [decide_eq_true_eq] at here here'
    have key : g.key = g'.key := by
      unfold GuardianRow.key
      rw [here, here', same]
    rw [key, found'] at found
    exact (Option.some.inj found).symm
  refine (List.perm_ext_iff_of_nodup nodup (by decide)).2 fun slot => ?_
  rw [List.mem_map, show slot ∈ [1, 2] ↔ slot = 1 ∨ slot = 2 by simp, ← both slot]
  constructor
  · rintro ⟨g, mem, rfl⟩
    obtain ⟨found, here⟩ := KeyedTable.mem_select.1 mem
    rw [decide_eq_true_eq] at here
    rw [show g.key = (v, g.slot) from congrArg (·, g.slot) here] at found
    exact ⟨g, found⟩
  · rintro ⟨g, found⟩
    have key : g.key = (v, slot) := KeyedTable.find?_key found
    refine ⟨g, KeyedTable.mem_select.2 ⟨key.symm ▸ found, ?_⟩, congrArg Prod.snd key⟩
    exact decide_eq_true (congrArg Prod.fst key)

/-- A held clock stays held until another statement comes. -/
theorem Runs.unfunded_since (runs : Runs S t₀ tr) {m : Nat} {w : VaultRow} {u : SrvStep} {n : Nat}
    (at_m : tr[m]? = some u) (did : Did i (.exec (.updateVault v
      (.setInitialStatus initialVaultStatus))) (.ok n) u) (row : u.before.vault? v = some w)
    (lt : m < k) (at_k : tr[k]? = some s)
    (still : ∀ n s u, m < n → n < k → tr[n]? = some s → ¬ Commits s v u)
    (undeleted : Undeleted tr v m k) : ∃ r, s.before.vault? v = some r ∧ r.life.status = .unfunded := by
  have start := (did_update_hit (runs.explains_at at_m) did row rfl).2
  obtain ⟨c, run⟩ := id runs
  refine run.since (P := fun w : World => ∃ r, w.vault? v = some r ∧ r.life.status = .unfunded)
    at_m ⟨_, start, rfl⟩ (fun n u after before at_n here => ?_) lt at_k
  cases rowChange (runs.explains_at at_n) v with
  | kept same => exact same ▸ here
  | contacts row c was now =>
    obtain ⟨r, found, status⟩ := here
    rw [was] at found
    cases found
    exact ⟨_, now, status⟩
  | inserted _ row _ _ _ fresh now =>
    obtain ⟨r, found, -⟩ := here
    rw [fresh] at found
    cases found
  | deleted i' x did => exact absurd did (undeleted n u i' x after before at_n)
  | applied up row applies was guard now =>
    exact absurd ⟨applies, row, was, guard⟩ (still n u up after before at_n)

/-- Where no founding is broken off every creation leaves no vault or a complete one. -/
theorem wholeOrNone_of_unbroken (runs : Runs S t₀ tr) (unbroken : Unbroken S tr) :
    WholeOrNone tr := by
  intro i j k req r s founds lt at_k ended undeleted
  obtain ⟨m, after, before, held⟩ := founds.holds runs unbroken undeleted lt ended
  obtain ⟨u, n, at_m, did⟩ := id held
  have between : ∀ {n}, j < n → Undeleted tr r.id n k := fun later x s i m above below =>
    undeleted x s i m (Nat.lt_trans later above) below
  refine ⟨guardians_perm fun slot => ?_, m, after, before, held, fun still => ?_⟩
  · constructor
    · rintro ⟨g, row⟩
      exact runs.guardian_slot at_k row
    · intro two
      -- the row was inserted before the clock was held, and stays while the vault does
      have orderly := runs.orderly at_m did (founds.asked.later (Nat.le_of_lt after))
      obtain ⟨g, x, key, ran⟩ := orderly slot two
      obtain ⟨a, s', below, at_a, did'⟩ := mem_history.1 ran
      have above := founds.before (v := r.id) runs at_a did' (congrArg Prod.fst key)
      have start := did_insertGuardian (runs.explains_at at_a) did' r.id slot
      rw [if_pos key.symm] at start
      obtain ⟨c, run⟩ := id runs
      refine run.since (P := fun w => ∃ g, w.guardian? r.id slot = some g) at_a ⟨g, start⟩
        (fun n u later earlier at_n here => ?_) (Nat.lt_trans below before) at_k
      cases guardianChange (runs.explains_at at_n) r.id slot with
      | kept same => exact same ▸ here
      | inserted _ _ g' _ _ now => exact ⟨g', now⟩
      | deleted i' y did'' => exact absurd did'' (between above n u i' y later earlier at_n)
  · obtain ⟨row, here⟩ := founds.present runs (k := m)
      (fun x s i y above below => undeleted x s i y above (Nat.lt_trans below before)) after at_m
    exact runs.unfunded_since at_m did here before at_k still (between after)

end Positions

/-! ## §5 A creation that stops half way -/

section HalfWay

open Deployment

variable {tr : Trace} {r : VaultRow}

/-- The row that thread `i` inserts in this step. -/
def insertedBy (i : Nat) (s : SrvStep) : Option VaultRow :=
  match s.label with
  | .acted j ⟨.exec (.insertVault r), .ok _⟩ => if j = i then some r else none
  | _ => none

/-- Thread `0` is started for `guarded` in this step. -/
def startsGuarded (s : SrvStep) : Bool :=
  match s.label with
  | .started 0 q => q = .createVaultGuardian guarded
  | _ => false

/-- The row that thread `0`, started first and for `guarded`, inserts at `5`. -/
def foundsGuarded (tr : Trace) : Option VaultRow :=
  if tr[0]?.any startsGuarded then tr[5]?.bind (insertedBy 0) else none

theorem founds_of_foundsGuarded (founds : foundsGuarded tr = some r) :
    Founds tr 0 5 guarded r := by
  unfold foundsGuarded at founds
  split at founds
  · next starts =>
    obtain ⟨s₀, at_zero, starts⟩ := (Option.any_eq_true _ _).1 starts
    obtain ⟨s, at_five, inserted⟩ := Option.bind_eq_some_iff.1 founds
    have asked : s₀.label = .started 0 (.createVaultGuardian guarded) := by
      unfold startsGuarded at starts
      split at starts
      · next q label =>
        rw [decide_eq_true_eq] at starts
        rw [label, starts]
      · cases starts
    refine ⟨started_at.2 ⟨0, s₀, by decide, at_zero, asked⟩, s, ?_⟩
    unfold insertedBy at inserted
    split at inserted
    · next j r' n label =>
      split at inserted
      · next mine =>
        cases inserted
        subst mine
        exact ⟨n, at_five, label⟩
      · cases inserted
    · cases inserted
  · cases founds

/-- The step neither stops the process, nor deletes a vault, nor has a write refused. -/
def goesOn (s : SrvStep) : Bool :=
  match s.label with
  | .halted => false
  | .acted _ ⟨.exec (.deleteVault _), _⟩ => false
  | .acted _ ⟨.exec _, .error _⟩ => false
  | _ => true

theorem unbroken_of_goesOn (on : tr.all goesOn = true) : Unbroken (host 0) tr := by
  have each : ∀ {k : Nat} {s : SrvStep}, tr[k]? = some s → goesOn s = true := fun at_k =>
    List.all_eq_true.1 on _ (List.mem_of_getElem? at_k)
  have seals : ∀ id g, Seals (host 0) id g := by
    refine fun id g => ⟨⟨_, rfl⟩, ?_⟩
    unfold sealOpt
    split <;> exact ⟨_, rfl⟩
  refine ⟨fun i j req r _ => ⟨seals _ _, seals _ _⟩, fun i j k req r s st e _ _ at_k _ did => ?_,
    fun i j k req r s _ _ at_k halted _ => ?_⟩
  · have here := each at_k
    unfold goesOn at here
    rw [show s.label = _ from did] at here
    split at here
    · cases here
    · cases here
    · cases here
    · next not_refused => exact absurd rfl (not_refused i st e)
  · have here := each at_k
    unfold goesOn at here
    rw [halted] at here
    cases here

/-- The vault of `guarded`, founded. -/
theorem wholeOrNone_of_unbroken_guarded :
    ∃ tr r, Runs (host 0) 0 tr ∧ Founds tr 0 5 guarded r ∧ WholeOrNone tr := by
  obtain ⟨tr, runs, check⟩ := runs_of_play (host 0)
    ([.start (.createVaultGuardian guarded)] ++ steps 0 11 (oracle "v" []) ++ wait 1)
    (fun tr => tr.all goesOn && (foundsGuarded tr).isSome) (by decide +kernel)
  rw [Bool.and_eq_true] at check
  obtain ⟨on, founds⟩ := check
  obtain ⟨r, founds⟩ := Option.isSome_iff_exists.1 founds
  exact ⟨tr, r, runs, founds_of_foundsGuarded founds,
    wholeOrNone_of_unbroken runs (unbroken_of_goesOn on)⟩

/-- The process stops after the vault is inserted, which stays, in the status `ok` and
without guardians. -/
theorem not_wholeOrNone : ¬ ∀ (S : Server) (t₀ : Instant) (tr : Trace), S.Lawful →
    Runs S t₀ tr → WholeOrNone tr := by
  intro whole
  obtain ⟨tr, runs, check⟩ := runs_of_play (host 0)
    ([.start (.createVaultGuardian guarded)] ++ steps 0 5 (oracle "v" []) ++ [.halt] ++ wait 1)
    (fun tr => (foundsGuarded tr).isSome && (tr[6]?.any fun s => s.label matches .halted) &&
      (tr[7]?.any fun s => s.before.db.guardians.rows.isEmpty)) (by decide +kernel)
  simp only [Bool.and_eq_true] at check
  obtain ⟨⟨founds, halted⟩, bare⟩ := check
  obtain ⟨r, founds⟩ := Option.isSome_iff_exists.1 founds
  have founds := founds_of_foundsGuarded founds
  obtain ⟨h, at_six, halted⟩ := (Option.any_eq_true _ _).1 halted
  obtain ⟨s, at_seven, bare⟩ := (Option.any_eq_true _ _).1 bare
  have ended : Ended 0 (tr.take 7) := by
    refine ⟨tr.take 6, h, [], take_succ_at at_six, .inr ⟨?_, _, founds.asked.later (by decide)⟩⟩
    cases label : h.label <;> simp_all
  have left := whole (host 0) 0 tr (lawful 0) runs 0 5 7 guarded r s founds (by decide) at_seven
    ended fun n u i m after before at_n did => by
      have six : n = 6 := by omega
      subst six
      rw [at_six] at at_n
      cases at_n
      rw [show h.label = _ from did] at halted
      cases halted
  -- both guardians would have to be there
  have two := left.guardians.length_eq
  rw [List.length_map] at two
  have none : s.before.db.guardians.rows = [] := List.isEmpty_iff.1 bare
  simp [KeyedTable.select, none] at two

end HalfWay

end GhostKey

import GhostKey.Conduct.Requests

/-!
# One Vault along a Run

The induction every invariant of a vault's row goes by: a row enters with its
INSERT, and after that only the UPDATEs that reach it, and the contact routes,
change it.

Main results:
- `Runs.row_invariant`: the induction.
- `Runs.keys_sealed`, `Runs.periods_positive`: what creation fixed stays.
-/

namespace GhostKey

open Foundation Program Prog

/-- What must be shown of a property of the row of `v` to have it all along. -/
structure KeptBy (tr : Trace) (v : VaultId) (P : Nat → VaultRow → Prop) : Prop where
  still : ∀ k s r, tr[k]? = some s → (∀ u, ¬ Commits s v u) → s.before.vault? v = some r →
    s.after.vault? v = some r → P k r → P (k + 1) r
  contacts : ∀ k s r c, tr[k]? = some s → (∀ u, ¬ Commits s v u) → s.before.vault? v = some r →
    s.after.vault? v = some { r with contacts := c } → P k r → P (k + 1) { r with contacts := c }
  inserted : ∀ k s i r n, tr[k]? = some s → Did i (.exec (.insertVault r)) (.ok n) s →
    r.id = v → P (k + 1) r
  applied : ∀ k s u r, tr[k]? = some s → Applies s v u → s.before.vault? v = some r →
    u.guard r = true → P k r → P (k + 1) (u.set r)

section Runs

variable {S : Server} {t₀ : Instant} {tr : Trace} {s : SrvStep} {v : VaultId} {k : Nat}

/-- What every change of the row of `v` keeps holds of it all along a run. -/
theorem Runs.row_invariant {P : Nat → VaultRow → Prop} (runs : Runs S t₀ tr)
    (kept : KeptBy tr v P) (at_k : tr[k]? = some s) :
    (∀ r, s.before.vault? v = some r → P k r) ∧ ∀ r, s.after.vault? v = some r → P (k + 1) r := by
  obtain ⟨c, run⟩ := runs
  refine (run.invariant_at (P := fun n (w : World) => ∀ r, w.vault? v = some r → P n r)
    (fun r none => by cases none) ?_).1 k s at_k
  intro k s at_k explains here r after
  -- an UPDATE that meets the row, or one of the other changes
  by_cases commits : ∃ u, Commits s v u
  · obtain ⟨u, applies, r', before, guard⟩ := commits
    rw [applies.after explains before guard] at after
    cases after
    exact kept.applied k s u r' at_k applies before guard (here r' before)
  · have silent : ∀ u, ¬ Commits s v u := fun u commits' => commits ⟨u, commits'⟩
    cases rowChange explains v with
    | kept same =>
      have before := after
      rw [same] at before
      exact kept.still k s r at_k silent before after (here r before)
    | contacts r' c before after' =>
      rw [after'] at after
      cases after
      exact kept.contacts k s r' c at_k silent before after' (here r' before)
    | inserted i r' n did id fresh after' =>
      rw [after'] at after
      cases after
      exact kept.inserted k s i r n at_k did id
    | deleted i n did after' =>
      rw [after'] at after
      cases after
    | applied u r' applies before guard after' => exact absurd ⟨applies, r', before, guard⟩ (silent u)

/-- A batch or row that a thread has read was read at an earlier position. -/
theorem Runs.read_at (runs : Runs S t₀ tr) {i : Nat} {qu : Query} {r : qu.Result}
    (read : Read (history i k tr) qu r) :
    ∃ j s, j < k ∧ tr[j]? = some s ∧ Did i (.query qu) (.ok r) s ∧
      qu.eval s.before.db = .ok r := by
  obtain ⟨j, s, before, at_j, did⟩ := mem_history.1 read
  exact ⟨j, s, before, at_j, did, (did_query (runs.explains_at at_j) did).1⟩

/-- What commits is no query. -/
theorem Commits.not_query {i : Nat} {u : VaultUpdate} {q : Query} {res : q.Result} (commits : Commits s v u) :
    ¬ Did i (.query q) (.ok res) s := by
  intro did
  obtain ⟨applies, -⟩ := commits
  cases applies with
  | exec did' | paid did' | panic did' =>
    have label := did.symm.trans did'
    cases label

/-- The clock a thread has read is not ahead of the world's. -/
theorem Runs.clock_at (runs : Runs S t₀ tr) {i : Nat} {t : Instant}
    (read : ClockRead (history i k tr) t) :
    ∃ j s, j < k ∧ tr[j]? = some s ∧ Did i .now t s ∧ t = s.before.clock := by
  obtain ⟨j, s, before, at_j, did⟩ := mem_history.1 read
  exact ⟨j, s, before, at_j, did, (did_now (runs.explains_at at_j) did).1⟩

theorem Runs.clock_mono (runs : Runs S t₀ tr) {j : Nat} {t : SrvStep} (at_j : tr[j]? = some t)
    (le : j ≤ k) (at_k : tr[k]? = some s) : t.before.clock ≤ s.before.clock := by
  rcases Nat.eq_or_lt_of_le le with rfl | lt
  · rw [at_j] at at_k
    cases at_k
    exact le_rfl
  · obtain ⟨c, run⟩ := id runs
    refine run.since (P := fun w => t.before.clock ≤ w.clock) at_j
      (clock_le (runs.explains_at at_j)) (fun n u _ _ at_n past => ?_) lt at_k
    exact past.trans (clock_le (runs.explains_at at_n))

/-- An UPDATE outside the two transactions was warranted by its thread's history. -/
theorem Runs.warranted (runs : Runs S t₀ tr) (at_k : tr[k]? = some s) {u : VaultUpdate}
    (applies : Applies s v u) (own : ∀ t next eligible, u ≠ .resetVaultClock t next eligible)
    (other : ∀ t, u ≠ .panicFreeze t) :
    ∃ i q n, Did i (.exec (.updateVault v u)) (.ok n) s ∧ Started i q (tr.take k) ∧
      Warranted S q (history i k tr) v u := by
  cases applies with
  | exec did =>
    obtain ⟨q, started, just⟩ := runs.justified at_k did
    exact ⟨_, q, _, did, started, just⟩
  | paid => exact absurd rfl (own _ _ _)
  | panic => exact absurd rfl (other _)

theorem Runs.initial_status (runs : Runs S t₀ tr) (at_k : tr[k]? = some s) {st : Status}
    (applies : Applies s v (.setInitialStatus st)) : st = .unfunded := by
  obtain ⟨i, q, n, -, -, warranted⟩ :=
    runs.warranted at_k applies (fun _ _ _ => by simp) fun _ => by simp
  exact warranted

/-- The sweeps compare with the status of a watched vault, never with `claimed`. -/
theorem Runs.returnEmpty_status (runs : Runs S t₀ tr) (at_k : tr[k]? = some s) {st : Status}
    (applies : Applies s v (.returnEmpty st)) : st = .ok ∨ st = .alarmed := by
  obtain ⟨i, q, n, -, -, warranted⟩ :=
    runs.warranted at_k applies (fun _ _ _ => by simp) fun _ => by simp
  rcases warranted.2 with ok | alarmed | ⟨rows, r, read, mem, rfl⟩
  · exact .inl ok
  · exact .inr alarmed
  · obtain ⟨j, t, -, -, -, batch⟩ := runs.read_at read
    cases batch
    have here := (KeyedTable.mem_select.1 mem).2
    simp only [Bool.decide_and, Bool.and_eq_true, decide_eq_true_eq] at here
    exact here.1

/-- No vault id is given out twice: `Uuid::new_v4` does not repeat itself. -/
def FreshIds (tr : Trace) : Prop :=
  ∀ (j k : Nat) s t i i' r r' n n', tr[j]? = some s → tr[k]? = some t →
    Did i (.exec (.insertVault r)) (.ok n) s → Did i' (.exec (.insertVault r')) (.ok n') t →
    r.id = r'.id → j = k

/-- Every row was inserted once, with the settings and keys it still has. -/
theorem Runs.inserted_at (runs : Runs S t₀ tr) (at_k : tr[k]? = some s) {r : VaultRow}
    (row : s.before.vault? v = some r) :
    ∃ j t i r₀ n, j < k ∧ tr[j]? = some t ∧ Did i (.exec (.insertVault r₀)) (.ok n) t ∧
      r₀.id = v ∧ r.settings = r₀.settings ∧ r.keys = r₀.keys := by
  refine (runs.row_invariant (v := v) (P := fun m r => ∃ j t i r₀ n, j < m ∧ tr[j]? = some t ∧
    Did i (.exec (.insertVault r₀)) (.ok n) t ∧ r₀.id = v ∧ r.settings = r₀.settings ∧
      r.keys = r₀.keys) ⟨?_, ?_, ?_, ?_⟩ at_k).1 r row
  · rintro m s r - - - - ⟨j, t, i, r₀, n, before, rest⟩
    exact ⟨j, t, i, r₀, n, Nat.lt_succ_of_lt before, rest⟩
  · rintro m s r c - - - - ⟨j, t, i, r₀, n, before, rest⟩
    exact ⟨j, t, i, r₀, n, Nat.lt_succ_of_lt before, rest⟩
  · intro m s i r n at_m did id
    exact ⟨m, s, i, r, n, Nat.lt_succ_self m, at_m, did, id, rfl, rfl⟩
  · rintro m s u r - - - - ⟨j, t, i, r₀, n, before, at_j, did, id, settings, keys⟩
    exact ⟨j, t, i, r₀, n, Nat.lt_succ_of_lt before, at_j, did, id, by simp [settings], by simp [keys]⟩

/-- A vault that is on file is not inserted again. -/
theorem Runs.not_inserted_again (runs : Runs S t₀ tr) (fresh : FreshIds tr) {j i n : Nat}
    {t : SrvStep} {r r' : VaultRow} (at_j : tr[j]? = some s) (row : s.before.vault? v = some r)
    (le : j ≤ k) (at_k : tr[k]? = some t) (did : Did i (.exec (.insertVault r')) (.ok n) t) :
    r'.id ≠ v := by
  intro same
  obtain ⟨j', u, i', r₀, n', before, at_j', did', id, -⟩ := runs.inserted_at at_j row
  have one := fresh j' k u t i' i r₀ r' n' n at_j' at_k did' did (id.trans same.symm)
  omega

/-- With fresh ids, a vault has the same settings and keys wherever it is seen. -/
theorem Runs.fixed (runs : Runs S t₀ tr) (fresh : FreshIds tr) {j : Nat} {t : SrvStep}
    (at_j : tr[j]? = some t) (at_k : tr[k]? = some s) {r r' : VaultRow}
    (row : t.before.vault? v = some r) (row' : s.before.vault? v = some r') :
    r'.settings = r.settings ∧ r'.keys = r.keys := by
  obtain ⟨m, u, i, r₀, n, -, at_m, did, id, settings, keys⟩ := runs.inserted_at at_j row
  obtain ⟨m', u', i', r₀', n', -, at_m', did', id', settings', keys'⟩ := runs.inserted_at at_k row'
  have same := fresh m m' u u' i i' r₀ r₀' n n' at_m at_m' did did' (id.trans id'.symm)
  subst same
  rw [at_m] at at_m'
  cases at_m'
  have label := did.symm.trans did'
  cases label
  exact ⟨settings'.trans settings.symm, keys'.trans keys.symm⟩

/-- A property of the columns no handler but the contact routes writes outside the
lifecycle: it holds if creation establishes it. -/
theorem Runs.fixed_invariant {P : VaultId → Settings → SealedKeys → Prop}
    (runs : Runs S t₀ tr)
    (created : ∀ h r, NewRow S h r → P r.id r.settings r.keys) (at_k : tr[k]? = some s) :
    (∀ r, s.before.vault? v = some r → P r.id r.settings r.keys) ∧
      ∀ r, s.after.vault? v = some r → P r.id r.settings r.keys := by
  refine runs.row_invariant (P := fun _ r => P r.id r.settings r.keys) (v := v)
    ⟨fun _ _ _ _ _ _ _ holds => holds, fun _ _ _ _ _ _ _ _ holds => holds, ?_, ?_⟩ at_k
  · intro k s i r n at_k did _
    obtain ⟨q, -, new⟩ := runs.justified at_k did
    exact created _ r new
  · intro k s u r _ _ _ _ holds
    simpa using holds

/-- A vault's periods stay positive. -/
theorem Runs.periods_positive (runs : Runs S t₀ tr) (at_k : tr[k]? = some s) {r : VaultRow}
    (row : s.before.vault? v = some r) :
    0 < r.settings.checkinPeriodSecs ∧ 0 < r.settings.gracePeriodSecs := by
  refine (runs.fixed_invariant
    (P := fun _ settings _ => 0 < settings.checkinPeriodSecs ∧ 0 < settings.gracePeriodSecs)
    (fun h r new => ?_) at_k).1 r row
  obtain ⟨t, token, -, -, period, grace, -⟩ := new
  exact ⟨period, grace⟩

/-- The claim token at rest is the one creation sealed, and opening gives it back. -/
theorem Runs.keys_sealed (lawful : S.Lawful) (runs : Runs S t₀ tr) (at_k : tr[k]? = some s)
    {r : VaultRow} (row : s.before.vault? v = some r) {stored : String}
    (atRest : r.keys.claimTokenAtRest = some stored) :
    ∃ token, S.sealClaimTokenAtRest v token = .ok stored ∧
      S.openClaimTokenAtRest v stored = .ok token := by
  have fixed := (runs.fixed_invariant (v := v)
    (P := fun id _ keys => ∀ stored, keys.claimTokenAtRest = some stored →
      ∃ token, S.sealClaimTokenAtRest id token = .ok stored) (fun h r new => ?_) at_k).1 r row
  · obtain ⟨token, sealed⟩ := fixed stored atRest
    rw [Db.vault?_id row] at sealed
    exact ⟨token, sealed, lawful.open_seal v token stored sealed⟩
  · intro stored atRest
    obtain ⟨t, token, -, -, -, -, both, seals, -⟩ := new
    rw [atRest] at both
    cases token with
    | none => cases both
    | some tok =>
      obtain ⟨stored', atRest', sealed⟩ := seals tok rfl
      rw [atRest] at atRest'
      cases atRest'
      exact ⟨tok, sealed⟩

/-- What a second tick does, it does after all that the first has done. -/
theorem Runs.tick_order (runs : Runs S t₀ tr) {i i' k' m : Nat} {s' t : SrvStep} {e e' e'' : Ev}
    (at_k : tr[k]? = some s) (label : s.label = .acted i e)
    (tick : Started i .schedulerTick (tr.take k)) (at_k' : tr[k']? = some s')
    (label' : s'.label = .acted i' e') (lt : k < k') (at_m : tr[m]? = some t)
    (label'' : t.label = .acted i' e'') (tick' : Started i' .schedulerTick (tr.take m))
    (other : i ≠ i') : k < m := by
  obtain ⟨c, run⟩ := runs
  rcases Nat.lt_trichotomy k m with after | same | before
  · exact after
  · subst same
    rw [at_k] at at_m
    cases at_m
    rw [label] at label''
    cases label''
    exact absurd rfl other
  · have ended := run.ended_before (tick_alone S) before at_k label tick' tick (Ne.symm other)
    exact absurd label' ((run.silent_at at_k' (Nat.le_of_lt lt) ended).1 e')

/-! ## §3 Entering a status -/

/-- The row of `v` has the status after the step, and had another one, if it was there. -/
def Enters (s : SrvStep) (v : VaultId) (status : Status) : Prop :=
  (∃ r, s.after.vault? v = some r ∧ r.life.status = status) ∧
    ∀ r, s.before.vault? v = some r → r.life.status ≠ status

/-- A row is inserted as `ok`, so it enters any other status by an UPDATE. -/
theorem Runs.entered (runs : Runs S t₀ tr) (at_k : tr[k]? = some s) {status : Status}
    (enters : Enters s v status) (other : status ≠ .ok) :
    ∃ u r, Applies s v u ∧ s.before.vault? v = some r ∧ u.guard r = true ∧
      s.after.vault? v = some (u.set r) ∧ (u.set r).life.status = status ∧
      r.life.status ≠ status := by
  obtain ⟨⟨r', after, now⟩, before⟩ := enters
  cases rowChange (runs.explains_at at_k) v with
  | kept same =>
    rw [same] at after
    exact absurd now (before r' after)
  | contacts r c row after' =>
    rw [after] at after'
    cases after'
    exact absurd now (before r row)
  | inserted i r n did id fresh after' =>
    rw [after] at after'
    cases after'
    obtain ⟨q, -, t, token, -, life, -⟩ := runs.justified at_k did
    rw [life] at now
    exact absurd now.symm other
  | deleted i n did after' =>
    rw [after] at after'
    cases after'
  | applied u r applies row guard after' =>
    rw [after] at after'
    cases after'
    exact ⟨u, r, applies, row, guard, after, now, before r row⟩

end Runs

end GhostKey

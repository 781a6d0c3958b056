import GhostKey.Window

/-!
# The Claim Phase

A bearer token is to work only between the opening of a claim, by the trigger or by hand,
and whatever ends it: a check-in, a paid panic-stop or a drain. No route asks for the
status of the vault. What stands for the phase is the token's hash, and that hash is there
too early where creation stores it, stays after a drain, and is no part of a guardian's
lookup at all.

Main results:
- `Runs.phase_invariant`: where tokens are used on rows that are in the phase by their
  columns, and drains find no hash issued since creation, the columns tell the phase.
- `phasesKept_of_clear`: then every use of a token falls into an open phase.
-/

namespace GhostKey

open Foundation Program Prog

/-! ## §1 Phases and uses -/

/-- The UPDATEs that open a claim: the trigger in its two branches, and issue-claim. -/
def VaultUpdate.opens : VaultUpdate → Bool
  | openReused _ _ => true
  | openFresh _ _ => true
  | issueClaim _ _ => true
  | _ => false

/-- The drains: the owner sends everything away, or a sweep finds the vault empty. -/
def VaultUpdate.drains : VaultUpdate → Bool
  | ownerFullDrain => true
  | returnEmpty _ => true
  | _ => false

/-- What ends a claim, but for the claim itself. -/
def VaultUpdate.closes (u : VaultUpdate) : Bool := u.stops || u.drains

/-- Between `j` and `k` nothing closes the claim of `v`. -/
def Unclosed (tr : Trace) (v : VaultId) (j k : Nat) : Prop :=
  ∀ m s u, j < m → m < k → tr[m]? = some s → Commits s v u → u.closes = false

/-- Before `k` a claim of `v` was opened, and nothing has closed it since. -/
def PhaseOpen (tr : Trace) (v : VaultId) (k : Nat) : Prop :=
  ∃ j s u, j < k ∧ tr[j]? = some s ∧ Commits s v u ∧ u.opens = true ∧ Unclosed tr v j k

/-- The token yields something of `v` in this step, or opens the window of `v`. -/
def Uses (tr : Trace) (k i : Nat) (v : VaultId) (s : SrvStep) : Prop :=
  Releases tr k i v s ∨
    ∃ opened, Did i (.exec (.updateVault v (.stampClaimOpened opened))) (.ok 1) s

/-- Tokens are used in the phase only. -/
def PhasesKept (tr : Trace) : Prop :=
  ∀ k i v s, tr[k]? = some s → Uses tr k i v s → PhaseOpen tr v k

/-! ## §2 The phase by the columns -/

/-- The stored hash is not the one of the token kept at rest: it was issued since creation. -/
def IssuedSince (S : Server) (r : VaultRow) : Prop :=
  ∃ hash, r.life.claimTokenHash = some hash ∧ ∀ stored token, r.keys.claimTokenAtRest = some stored →
    S.openClaimTokenAtRest r.id stored = .ok token → hash ≠ S.hashClaimToken token

def InPhase (S : Server) (r : VaultRow) : Prop :=
  r.life.status = .timelockStarted ∨ r.life.status = .claiming ∨ IssuedSince S r

/-- The thread `i` finds `v` by a token in this step. -/
def Finds (i : Nat) (v : VaultId) (s : SrvStep) : Prop :=
  ∃ e, s.label = .acted i e ∧ FoundByToken v e

/-- What the tokens of a run can be relied on for. -/
structure TokensClear (S : Server) (tr : Trace) : Prop where
  /-- A request that uses a token, or uses it up, has found the vault in the phase. -/
  found : ∀ k n i v s t r, tr[k]? = some s → Uses tr k i v s ∨ Consumes i v s → n < k →
    tr[n]? = some t → Finds i v t → t.before.vault? v = some r → InPhase S r
  /-- Nothing closes the phase between such a request's lookup and its use of the token. -/
  apart : ∀ k n i v s t, tr[k]? = some s → Uses tr k i v s ∨ Consumes i v s → n < k →
    tr[n]? = some t → Finds i v t → Unclosed tr v n k
  /-- A drain finds no hash issued since creation. -/
  drained : ∀ (k : Nat) s v u r, tr[k]? = some s → Commits s v u → u.drains = true →
    s.before.vault? v = some r → ¬ IssuedSince S r

/-- An UPDATE that does not issue a hash leaves the one there is, or none. -/
theorem issuedSince_set {S : Server} {u : VaultUpdate} {r : VaultRow} (noOpening : u.opens = false)
    (issued : IssuedSince S (u.set r)) : u.stops = false ∧ IssuedSince S r := by
  unfold IssuedSince at issued ⊢
  rw [VaultUpdate.set_life, VaultUpdate.set_keys, VaultUpdate.set_id] at issued
  obtain ⟨hash, stored, other⟩ := issued
  cases u with
  | openReused | openFresh | issueClaim => cases noOpening
  | checkin | checkinFromLink | resetVaultClock | panicFreeze => cases stored
  | _ => exact ⟨rfl, hash, stored, other⟩

/-- What closes a claim takes its vault out of the phase, unless it drains one with a hash
issued since creation. -/
theorem not_inPhase_of_closes {S : Server} {u : VaultUpdate} {r : VaultRow}
    (closes : u.closes = true) (drained : u.drains = true → ¬ IssuedSince S r) :
    ¬ InPhase S (u.set r) := by
  have noOpening : u.opens = false := by
    cases u with
    | openReused | openFresh | issueClaim => cases closes
    | _ => rfl
  have outside : (u.set r).life.status = .ok ∨ (u.set r).life.status = .frozen ∨
      (u.set r).life.status = .unfunded := by
    rw [VaultUpdate.set_life]
    cases u with
    | checkin | checkinFromLink | resetVaultClock => exact .inl rfl
    | panicFreeze => exact .inr (.inl rfl)
    | ownerFullDrain | returnEmpty => exact .inr (.inr rfl)
    | _ => cases closes
  rintro (started | claiming | issued)
  · rw [started] at outside
    simp at outside
  · rw [claiming] at outside
    simp at outside
  · obtain ⟨noStop, before⟩ := issuedSince_set noOpening issued
    have drains : u.drains = true := by simpa [VaultUpdate.closes, noStop] using closes
    exact drained drains before

/-- An UPDATE that neither opens nor closes moves a vault into the phase from within it,
or by using its token up. -/
theorem inPhase_of_set {S : Server} {u : VaultUpdate} {r : VaultRow} (noOpening : u.opens = false)
    (noClosing : u.closes = false) (notUsed : ∀ t, u ≠ .consumeClaimToken t)
    (initial : ∀ status, u = .setInitialStatus status → status = .unfunded)
    (guard : u.guard r = true) (phase : InPhase S (u.set r)) : InPhase S r := by
  have status : (u.set r).life.status = .timelockStarted ∨ (u.set r).life.status = .claiming →
      r.life.status = .timelockStarted ∨ r.life.status = .claiming := by
    rw [VaultUpdate.set_life]
    intro now
    cases u with
    | openReused | openFresh | issueClaim => cases noOpening
    | checkin | checkinFromLink | resetVaultClock | panicFreeze | ownerFullDrain | returnEmpty =>
      cases noClosing
    | consumeClaimToken t => exact absurd rfl (notUsed t)
    | setInitialStatus status =>
      cases initial status rfl
      rcases now with now | now <;> cases now
    | promoteClaimed | unfreeze | activate | alarm => rcases now with now | now <;> cases now
    | releaseClaimToken => exact .inr (by simpa [VaultUpdate.guard] using guard)
    | _ => exact now
  rcases phase with started | claiming | issued
  · exact (status (.inl started)).imp_right .inl
  · exact (status (.inr claiming)).imp_right .inl
  · exact .inr (.inr (issuedSince_set noOpening issued).2)

section Runs

variable {S : Server} {t₀ : Instant} {tr : Trace} {s t : SrvStep} {v : VaultId} {i j k n : Nat}

theorem Unclosed.snoc (unclosed : Unclosed tr v j k) (at_k : tr[k]? = some s)
    (now : ∀ u, Commits s v u → u.closes = false) : Unclosed tr v j (k + 1) := by
  intro m t u after before at_m commits
  rcases Nat.lt_succ_iff_lt_or_eq.1 before with early | rfl
  · exact unclosed m t u after early at_m commits
  · rw [at_k] at at_m
    cases at_m
    exact now u commits

theorem PhaseOpen.snoc (phase : PhaseOpen tr v k) (at_k : tr[k]? = some s)
    (now : ∀ u, Commits s v u → u.closes = false) : PhaseOpen tr v (k + 1) := by
  obtain ⟨j, t, u, before, at_j, commits, opens, unclosed⟩ := phase
  exact ⟨j, t, u, Nat.lt_succ_of_lt before, at_j, commits, opens, unclosed.snoc at_k now⟩

/-- A phase that is open at a lookup is open until something closes it. -/
theorem PhaseOpen.later (phase : PhaseOpen tr v n) (lt : n < k) (at_n : tr[n]? = some t)
    (finds : Finds i v t) (unclosed : Unclosed tr v n k) : PhaseOpen tr v k := by
  obtain ⟨j, w, u, before, at_j, commits, opens, until_n⟩ := phase
  refine ⟨j, w, u, Nat.lt_trans before lt, at_j, commits, opens, fun m x u' after inside at_m closing => ?_⟩
  rcases Nat.lt_trichotomy m n with early | rfl | late
  · exact until_n m x u' after early at_m closing
  · rw [at_n] at at_m
    cases at_m
    obtain ⟨e, label, found⟩ := finds
    cases found with
    | heir | guardian => exact absurd label closing.not_query
  · exact unclosed m x u' late inside at_m closing

/-- What an heir's token finds is in the table. -/
theorem Runs.row_of_heir (runs : Runs S t₀ tr) (at_n : tr[n]? = some t) {hash : Hash} {r : VaultRow}
    (did : Did i (.query (.vaultByClaimToken hash)) (.ok (some r)) t) : t.before.vault? r.id = some r := by
  obtain ⟨read, -⟩ := did_query (runs.explains_at at_n) did
  have row : t.before.db.vaults.rows.find? (fun r => r.life.claimTokenHash = some hash) = some r :=
    Except.ok.inj read
  exact KeyedTable.find?_of_mem (List.mem_of_find?_eq_some row)

/-- So is the vault of what a guardian's token finds. -/
theorem Runs.row_of_guardian (runs : Runs S t₀ tr) (at_n : tr[n]? = some t) {hash : Hash}
    {g : GuardianRow} {r : VaultRow}
    (did : Did i (.query (.guardianByClaimToken hash)) (.ok (some (g, r))) t) :
    t.before.vault? r.id = some r := by
  obtain ⟨read, -⟩ := did_query (runs.explains_at at_n) did
  have pair := List.mem_of_head? (Except.ok.inj read)
  rw [List.mem_filterMap] at pair
  obtain ⟨g', -, same⟩ := pair
  split at same
  · rw [Option.map_eq_some_iff] at same
    obtain ⟨r', row, same⟩ := same
    cases same
    rw [show r.id = g.vaultId from Db.vault?_id row]
    exact row
  · cases same

theorem Runs.row_of_finds (runs : Runs S t₀ tr) (at_n : tr[n]? = some t) (finds : Finds i v t) :
    ∃ r, t.before.vault? v = some r := by
  obtain ⟨e, label, found⟩ := finds
  cases found with
  | heir id => exact ⟨_, id ▸ runs.row_of_heir at_n label⟩
  | guardian id => exact ⟨_, id ▸ runs.row_of_guardian at_n label⟩

/-- A request that has loaded the vault found it at an earlier position. -/
theorem finds_of_loaded (loaded : Loaded (history i k tr) v) :
    ∃ n t, n < k ∧ tr[n]? = some t ∧ Finds i v t := by
  obtain ⟨e, mem, found⟩ := loaded
  obtain ⟨n, t, before, at_n, label⟩ := mem_history.1 mem
  exact ⟨n, t, before, at_n, e, label, found⟩

/-- Who uses a token, or uses it up, has loaded its vault. -/
theorem Runs.loaded_of_uses (runs : Runs S t₀ tr) (at_k : tr[k]? = some s)
    (uses : Uses tr k i v s ∨ Consumes i v s) : Loaded (history i k tr) v := by
  rcases uses with (releases | ⟨opened, stamps⟩) | ⟨t, consumes⟩
  · cases releases with
    | reply returned hands => exact (runs.admitted at_k returned hands).1
    | spend sent loaded => exact loaded
  · obtain ⟨q, -, loaded, -⟩ := runs.justified at_k stamps
    exact loaded
  · obtain ⟨q, -, -, loaded, -⟩ := runs.justified at_k consumes
    exact loaded

/-- Where every lookup so far was in an open phase if its row said so, a use of the token
falls into an open phase. -/
theorem Runs.phase_of_uses (runs : Runs S t₀ tr) (clear : TokensClear S tr) (at_k : tr[k]? = some s)
    (past : ∀ n t r, n < k → tr[n]? = some t → t.before.vault? v = some r → InPhase S r →
      PhaseOpen tr v n) (uses : Uses tr k i v s ∨ Consumes i v s) : PhaseOpen tr v k := by
  obtain ⟨n, t, before, at_n, finds⟩ := finds_of_loaded (runs.loaded_of_uses at_k uses)
  obtain ⟨r, row⟩ := runs.row_of_finds at_n finds
  have phase := past n t r before at_n row (clear.found k n i v s t r at_k uses before at_n finds row)
  exact phase.later before at_n finds (clear.apart k n i v s t at_k uses before at_n finds)

/-- A row that is in the phase by its columns is in an open phase. -/
theorem Runs.phase_invariant (lawful : S.Lawful) (runs : Runs S t₀ tr) (clear : TokensClear S tr) :
    ∀ k s r, tr[k]? = some s → s.before.vault? v = some r → InPhase S r → PhaseOpen tr v k := by
  intro k
  -- a use of a token goes back to its lookup, so the whole past is needed
  induction k using Nat.strong_induction_on with
  | h k past =>
  intro s r at_k row phase
  refine (runs.row_invariant (v := v) (P := fun n r => n ≤ k → InPhase S r → PhaseOpen tr v n)
    ⟨?_, ?_, ?_, ?_⟩ at_k).1 r row le_rfl phase
  · intro n s r at_n silent _ _ kept le phase
    exact (kept (Nat.le_of_succ_le le) phase).snoc at_n fun u commits => absurd commits (silent u)
  · intro n s r c at_n silent _ _ kept le phase
    exact (kept (Nat.le_of_succ_le le) phase).snoc at_n fun u commits => absurd commits (silent u)
  · intro n s i r m at_n did _ _ phase
    exfalso
    obtain ⟨q, -, t, token, -, life, -, -, both, seals, -⟩ := runs.justified at_n did
    unfold InPhase IssuedSince at phase
    rw [life] at phase
    rcases phase with started | claiming | ⟨hash, stored, other⟩
    · cases started
    · cases claiming
    · -- the hash creation stores is the one of the token it keeps at rest
      cases token with
      | none => cases stored
      | some token =>
        cases stored
        obtain ⟨stored, atRest, sealed⟩ := seals token rfl
        exact other stored token atRest (lawful.open_seal r.id token stored sealed) rfl
  · intro n s u r at_n applies row guard kept le phase
    have one : ∀ u', Commits s v u' → u' = u := fun u' commits => commits.1.unique applies
    cases opens : u.opens with
    | true =>
      refine ⟨n, s, u, Nat.lt_succ_self n, at_n, ⟨applies, r, row, guard⟩, opens, ?_⟩
      intro m t u' after before
      exact absurd (Nat.lt_succ_iff.1 before) (Nat.not_le.2 after)
    | false =>
      cases closes : u.closes with
      | true =>
        refine absurd phase (not_inPhase_of_closes closes fun drains => ?_)
        exact clear.drained n s v u r at_n ⟨applies, r, row, guard⟩ drains row
      | false =>
        have before : PhaseOpen tr v n := by
          by_cases used : ∃ t, u = .consumeClaimToken t
          · obtain ⟨t, rfl⟩ := used
            obtain ⟨i, q, m, did, -⟩ :=
              runs.warranted at_n applies (fun _ _ _ => by simp) fun _ => by simp
            obtain ⟨rfl, -⟩ := did_update_hit (runs.explains_at at_n) did row guard
            exact runs.phase_of_uses clear at_n
              (fun m t r lt => past m (Nat.lt_of_lt_of_le lt (Nat.le_of_succ_le le)) t r)
              (.inr ⟨t, did⟩)
          · refine kept (Nat.le_of_succ_le le) (inPhase_of_set opens closes ?_ ?_ guard phase)
            · rintro t rfl
              exact used ⟨t, rfl⟩
            · rintro status rfl
              exact runs.initial_status at_n applies
        exact before.snoc at_n fun u' commits => (one u' commits).symm ▸ closes

/-- In a run whose tokens can be relied on, every use of one falls into an open phase. -/
theorem phasesKept_of_clear (lawful : S.Lawful) (runs : Runs S t₀ tr) (clear : TokensClear S tr) :
    PhasesKept tr := by
  intro k i v s at_k uses
  exact runs.phase_of_uses clear at_k
    (fun n t r _ at_n row phase => runs.phase_invariant lawful clear n t r at_n row phase) (.inl uses)

end Runs

/-! ## §3 A link that works before the first trigger -/

section Early

open Deployment

/-- The heir of a Door A vault opens the link the owner was shown at creation. -/
def resolvedAtOnce : List (Move Oracle Drift Request) :=
  [.start (.createVaultFromXpub doorA)] ++ steps 0 9 (oracle "v" []) ++
    [.start (.resolveClaim "sealed")] ++ steps 1 5 (oracle "" [])

/-- Whether an UPDATE of a kind may run in this step; `paid` says so of a payment. -/
def mayRun (kind : VaultUpdate → Bool) (paid : Bool) (s : SrvStep) : Bool :=
  match s.label with
  | .acted _ ⟨.exec (.updateVault _ u), _⟩ => kind u
  | .acted _ ⟨.payCheckin _ _, _⟩ => paid
  | .acted _ ⟨.payPanic _ _, _⟩ => paid
  | _ => false

theorem mayRun_of_commits {kind : VaultUpdate → Bool} {paid : Bool} {s : SrvStep} {v : VaultId}
    {u : VaultUpdate} (reset : ∀ t next eligible, kind (.resetVaultClock t next eligible) = true →
      paid = true) (freeze : ∀ until_, kind (.panicFreeze until_) = true → paid = true)
    (commits : Commits s v u) (holds : kind u = true) : mayRun kind paid s = true := by
  obtain ⟨applies, -⟩ := commits
  unfold mayRun
  cases applies with
  | exec did =>
    rw [show s.label = _ from did]
    exact holds
  | paid did =>
    rw [show s.label = _ from did]
    exact reset _ _ _ holds
  | panic did =>
    rw [show s.label = _ from did]
    exact freeze _ holds

/-- The window of an unfunded vault opens on the token creation stored. -/
theorem not_phasesKept :
    ¬ ∀ (S : Server) (t₀ : Instant) (tr : Trace), S.Lawful → Runs S t₀ tr → PhasesKept tr := by
  intro kept
  obtain ⟨tr, runs, check⟩ := runs_of_play (host 86400) resolvedAtOnce
    (fun tr => tr[14]?.any (updated 1 "v" (.stampClaimOpened 0)) &&
      tr.all fun s => !mayRun VaultUpdate.opens false s) (by decide +kernel)
  simp only [Bool.and_eq_true, Option.any_eq_true] at check
  obtain ⟨⟨s, at_k, stamps⟩, none⟩ := check
  obtain ⟨j, t, u, -, at_j, commits, opens, -⟩ :=
    kept _ _ _ (lawful _) runs 14 1 "v" s at_k (.inr ⟨0, did_of_updated stamps⟩)
  have silent := List.all_eq_true.1 none t (List.mem_of_getElem? at_j)
  rw [mayRun_of_commits (fun _ _ _ reset => by cases reset) (fun _ freeze => by cases freeze) commits
    opens] at silent
  cases silent

/-! ## §4 A link that is opened in its phase -/

/-- The same vault, triggered after its deadline and grace, and then resolved. -/
def resolvedInPhase : List (Move Oracle Drift Request) :=
  [.start (.createVaultFromXpub doorA)] ++ steps 0 9 (oracle "v" []) ++
    [.start (.lnurlpCallback "v" (some 1000) false)] ++ steps 1 9 (oracle "" []) ++
    [.start .pollerTick] ++ steps 2 10 (oracle "" []) ++ wait 3720 ++
    [.start .schedulerTick] ++ steps 3 33 (oracle "" [coin]) ++
    [.start (.resolveClaim "sealed")] ++ steps 4 8 (oracle "" [])

/-- Whether a vault is found by a token in this step, in a status that `p` holds of. -/
def findsIn (p : Status → Bool) (s : SrvStep) : Bool :=
  match s.label with
  | .acted _ ⟨.query (.vaultByClaimToken _), .ok (some r)⟩ => p r.life.status
  | .acted _ ⟨.query (.guardianByClaimToken _), .ok (some (_, r))⟩ => p r.life.status
  | _ => false

/-- Whether nothing closes a claim from position `a` on, and a vault is found by a token
only then, and in the phase; and there is no drain. -/
def inOrder (a : Nat) (p : SrvStep × Nat) : Bool :=
  (!mayRun VaultUpdate.closes true p.1 || decide (p.2 < a)) &&
    !mayRun VaultUpdate.drains false p.1 && (!findsIn (fun _ => true) p.1 || decide (a ≤ p.2)) &&
    !findsIn (fun status => status ≠ .timelockStarted) p.1

theorem Runs.findsIn_of_finds {S : Server} {t₀ : Instant} {tr : Trace} {s : SrvStep} {v : VaultId}
    {i k : Nat} {r : VaultRow} (runs : Runs S t₀ tr) (at_k : tr[k]? = some s) (finds : Finds i v s)
    (row : s.before.vault? v = some r) (p : Status → Bool) (holds : p r.life.status = true) :
    findsIn p s = true := by
  obtain ⟨e, label, found⟩ := finds
  unfold findsIn
  rw [label]
  cases found with
  | heir id =>
    have here := runs.row_of_heir at_k label
    rw [id, row] at here
    cases here
    exact holds
  | guardian id =>
    have here := runs.row_of_guardian at_k label
    rw [id, row] at here
    cases here
    exact holds

theorem clear_of_inOrder {S : Server} {t₀ : Instant} {tr : Trace} {a : Nat} (runs : Runs S t₀ tr)
    (order : tr.zipIdx.all (inOrder a) = true) : TokensClear S tr := by
  have here : ∀ (k : Nat) s, tr[k]? = some s → inOrder a (s, k) = true := fun k s at_k =>
    List.all_eq_true.1 order (s, k) (List.mk_mem_zipIdx_iff_getElem?.2 at_k)
  refine ⟨?_, ?_, ?_⟩
  -- a token is only found in `timelock_started`
  · intro k n i v s t r _ _ _ at_n finds row
    by_contra outside
    have other : r.life.status ≠ .timelockStarted := fun started => outside (.inl started)
    have elsewhere := runs.findsIn_of_finds at_n finds row (fun status => status ≠ .timelockStarted)
      (by simpa using other)
    have now := here n t at_n
    rw [inOrder, elsewhere] at now
    simp at now
  -- what closes a claim comes before the look-up
  · intro k n i v s t _ _ _ at_n finds m w u after _ at_m commits
    by_contra closing
    obtain ⟨r, row⟩ := runs.row_of_finds at_n finds
    have closes := mayRun_of_commits (fun _ _ _ _ => rfl) (fun _ _ => rfl) commits
      (by simpa using closing)
    have late := here m w at_m
    have early := here n t at_n
    simp only [inOrder, closes, Bool.not_true, Bool.false_or, Bool.and_eq_true,
      decide_eq_true_eq] at late
    simp only [inOrder, runs.findsIn_of_finds at_n finds row (fun _ => true) rfl, Bool.not_true,
      Bool.false_or, Bool.and_eq_true, decide_eq_true_eq] at early
    have since := early.1.2
    have before := late.1.1.1
    omega
  -- nothing drains the vault
  · intro k s v u r at_k commits drains
    have drain : mayRun VaultUpdate.drains false s = true :=
      mayRun_of_commits (fun _ _ _ reset => by cases reset) (fun _ freeze => by cases freeze)
        commits drains
    have now := here k s at_k
    simp [inOrder, drain] at now

/-- The link of `resolvedInPhase` opens its window in the phase of its trigger. -/
theorem phasesKept_of_clear_triggered :
    ∃ tr s, Runs (host 86400) 0 tr ∧ tr[70]? = some s ∧ Uses tr 70 4 "v" s ∧ PhasesKept tr := by
  obtain ⟨tr, runs, check⟩ := runs_of_play (host 86400) resolvedInPhase
    (fun tr => tr[70]?.any (updated 4 "v" (.stampClaimOpened 3720000000000)) &&
      tr.zipIdx.all (inOrder 60)) (by decide +kernel)
  simp only [Bool.and_eq_true, Option.any_eq_true] at check
  obtain ⟨⟨s, at_k, stamps⟩, order⟩ := check
  refine ⟨tr, s, runs, at_k, .inr ⟨_, did_of_updated stamps⟩,
    phasesKept_of_clear (lawful _) runs (clear_of_inOrder runs order)⟩

end Early

end GhostKey

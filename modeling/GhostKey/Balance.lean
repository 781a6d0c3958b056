import GhostKey.Deployment

/-!
# The Deposit Ledger under Concurrent Balance Scans

`GET /vaults/:id/balance` takes a snapshot of the chain and then, statement by statement
and without a lock, records the deposits the snapshot lists and stamps the recorded ones it
does not list as spent. A snapshot that is older than a record lacks the deposit without
saying anything about it.

Layers:
1. the balance requests of a server as a system of their own, in any interleaving;
2. what one request does, given its history: `scans_getVaultBalance`;
3. the ledger along a run: `Runs.inLedger_iff`;
4. `booksHold_of_fresh`: the three promises, where no snapshot is older than a record it
   is held against, and `not_booksHold`: the slow scan.
-/

namespace GhostKey

namespace Balance

open Foundation Program Prog

/-! ## §1 Balance requests -/

/-- Any number of balance requests against one server, and nothing else. -/
def balances (S : Server) :
    System Action Action.Response ApiError Nat World Oracle Drift VaultId where
  program := getVaultBalance S
  mayStart _ _ := true
  perform := Action.perform
  drift := Drift.apply
  restart := World.restart

abbrev BalStep := Step Action Action.Response ApiError Nat World Drift VaultId

abbrev BalTrace := List BalStep

/-- The thread `i` performed `a` in this step and was answered `r`. -/
def Acted (i : Nat) (a : Action) (r : a.Response) (s : BalStep) : Prop :=
  s.label = .acted i ⟨a, r⟩

/-- The runs from a database without deposits. -/
structure Runs (S : Server) (w : World) (tr : BalTrace) : Prop where
  run : ∃ c, Run (balances S) (System.boot w) tr c
  empty : w.db.deposits.rows = []

/-! ## §2 What the ledger promises -/

/-- The explorer's answer to a scan. -/
def Snapshot (h : Hist) (scan : Scan) : Prop :=
  ∃ urls ext int, (⟨.ask (.fullScan urls ext int), .ok scan⟩ : Ev) ∈ h

/-- At `k` the deposit is entered into the ledger. -/
def Recorded (tr : BalTrace) (k : Nat) (v : VaultId) (o : String) : Prop :=
  ∃ s i d, tr[k]? = some s ∧ Acted i (.exec (.insertDeposit d)) (.ok 1) s ∧ d.key = (v, o)

/-- The `received` event of a deposit. -/
def receivedEvent (d : DepositRow) (t : Instant) : EventRow :=
  ⟨d.vaultId, .received, [("amount_sat", .int d.amountSat), ("outpoint", .str d.outpoint),
    ("height", .int d.height)], t⟩

/-- At `k` the owner's feed says that the deposit was received. -/
def ToldReceived (tr : BalTrace) (k : Nat) (v : VaultId) (o : String) : Prop :=
  ∃ s i ev, tr[k]? = some s ∧ Acted i (.exec (.insertEvent ev)) (.ok 1) s ∧ ev.kind = .received ∧
    ev.vaultId = v ∧ ("outpoint", .str o) ∈ ev.detail

/-- At `k` the deposit is stamped as spent. -/
def Stamped (tr : BalTrace) (k : Nat) (v : VaultId) (o : String) : Prop :=
  ∃ s i t, tr[k]? = some s ∧ Acted i (.exec (.stampDepositSpent v o t)) (.ok 1) s

/-- At `k` the owner's feed says that the deposit left the vault. -/
def ToldSpent (tr : BalTrace) (k : Nat) (v : VaultId) (o : String) : Prop :=
  ∃ s i ev n, tr[k]? = some s ∧ Acted i (.exec (.insertEvent ev)) (.ok n) s ∧
    ev.kind = .fundsSpent ∧ ev.vaultId = v ∧ ("outpoint", .str o) ∈ ev.detail

/-- No statement of the history has failed. -/
def Smooth (h : Hist) : Prop := ∀ st e, (⟨.exec st, .error e⟩ : Ev) ∉ h

/-- A deposit is recorded as received exactly once. -/
structure ReceivedOnce (tr : BalTrace) : Prop where
  once : ∀ j k v o, Recorded tr j v o → Recorded tr k v o → j = k
  told_once : ∀ j k v o, ToldReceived tr j v o → ToldReceived tr k v o → j = k
  /-- A scan that goes through leaves every deposit of its snapshot recorded, and tells of
  those it recorded itself. -/
  complete : ∀ (k : Nat) s i v total, tr[k]? = some s → s.label = .returned i (.ok total) →
    Started i v (tr.take k) → Smooth (history i k tr) →
      (∃ scan, Snapshot (history i k tr) scan ∧
        ∀ d ∈ scan.deposits, ∃ j, j < k ∧ Recorded tr j v d.outpoint) ∧
      ∀ d, Ran (history i k tr) (.insertDeposit d) 1 →
        ∃ j, j < k ∧ ToldReceived tr j d.vaultId d.outpoint

/-- A deposit is stamped only if a snapshot taken after it was recorded lacks it. -/
def StampedAfterMiss (tr : BalTrace) : Prop :=
  ∀ k v o, Stamped tr k v o → ∃ (j m : Nat) (s : BalStep) (i : Nat) (urls : List String)
    (ext int : String) (scan : Scan), j < m ∧ m < k ∧ Recorded tr j v o ∧ tr[m]? = some s ∧
      Started i v (tr.take m) ∧ Acted i (.ask (.fullScan urls ext int)) (.ok scan) s ∧
        o ∉ scan.outpoints

/-- The outputs on the chain under a descriptor. -/
def onChain (w : World) (ext : String) : List String :=
  (w.coins.filter fun c => c.descriptorExternal = ext).map Coin.outpoint

/-- No deposit that is still unspent is stamped or reported as spent. -/
def NotReportedEarly (tr : BalTrace) : Prop :=
  ∀ (k : Nat) s v o, tr[k]? = some s → Stamped tr k v o ∨ ToldSpent tr k v o →
    ∀ r, s.before.vault? v = some r → o ∉ s.before.unspent r

structure BooksHold (tr : BalTrace) : Prop where
  received : ReceivedOnce tr
  stamped : StampedAfterMiss tr
  reported : NotReportedEarly tr

/-! ## §3 What is asked of the chain, and of the scans -/

/-- A scan is answered with the outputs that are on the chain at that moment. -/
def Honest (tr : BalTrace) : Prop :=
  ∀ (k : Nat) s i urls ext int scan, tr[k]? = some s →
    Acted i (.ask (.fullScan urls ext int)) (.ok scan) s →
      ∀ o, o ∈ scan.outpoints ↔ o ∈ onChain s.before ext

/-- A spent output stays spent. -/
def SpendsFinal (tr : BalTrace) : Prop :=
  ∀ (a b c : Nat) s t u ext o, a ≤ b → b ≤ c → tr[a]? = some s → tr[b]? = some t →
    tr[c]? = some u → o ∈ onChain s.before ext → o ∉ onChain t.before ext →
      o ∉ onChain u.before ext

/-- What a scan finds in the ledger and not in its snapshot was recorded before its snapshot. -/
def ScansFresh (tr : BalTrace) : Prop :=
  ∀ (m n : Nat) s t i v urls ext int scan (rows : List DepositRow) (d : DepositRow),
    tr[m]? = some s → tr[n]? = some t →
    Acted i (.ask (.fullScan urls ext int)) (.ok scan) s →
      Acted i (.query (.unspentDeposits v)) (.ok rows) t → d ∈ rows →
        d.outpoint ∉ scan.outpoints → ∃ j, j < m ∧ Recorded tr j v d.outpoint

/-! ## §4 One request -/

/-- The handler was just told that `st` affected its row, and has read the clock. -/
def JustRan (h : Hist) (st : Stmt) (t : Instant) : Prop :=
  ∃ g, h = g ++ [(⟨.exec st, .ok 1⟩ : Ev), ⟨.now, t⟩]

/-- What a balance request for `v` has seen before its next action. -/
def Sound (v : VaultId) (h : Hist) : Action → Prop
  | .ask (.fullScan _ ext _) =>
      ∃ r, Read h (.vault v) (some r) ∧ ext = r.settings.descriptorExternal
  | .query (.unspentDeposits id) => id = v
  | .exec (.insertDeposit d) =>
      d.vaultId = v ∧ ∃ scan, Snapshot h scan ∧ d.outpoint ∈ scan.outpoints
  | .exec (.stampDepositSpent id o _) =>
      id = v ∧ ∃ (scan : Scan) (rows : List DepositRow) (d : DepositRow), Snapshot h scan ∧
        Read h (.unspentDeposits v) rows ∧ d ∈ rows ∧ d.outpoint = o ∧ o ∉ scan.outpoints
  | .exec (.insertEvent ev) =>
      (∃ d t, JustRan h (.insertDeposit d) t ∧ d.vaultId = v ∧ ev = receivedEvent d t) ∨
      ev.kind = .fundsSpent ∧ ∃ o t t', JustRan h (.stampDepositSpent v o t) t' ∧ ev.vaultId = v ∧
        ∀ o', ("outpoint", Json.str o') ∈ ev.detail → o' = o
  | .exec (.insertNotification _) => True
  | .exec _ => False
  | .payCheckin _ _ => False
  | .payPanic _ _ => False
  | _ => True

/-- Every action of the request is sound, and if it succeeds it ensures `P`. -/
abbrev Scans {α : Type} (v : VaultId) (P : Hist → α → Prop) (p : Prog α) (h : Hist) : Prop :=
  Ensures (fun h e => Sound v h e.action) P p h

/-- What neither scans nor writes the ledger or the feed. -/
def Aside : Action → Prop
  | .ask (.fullScan _ _ _) => False
  | .query (.unspentDeposits _) => False
  | .exec (.insertNotification _) => True
  | .exec _ => False
  | .payCheckin _ _ => False
  | .payPanic _ _ => False
  | _ => True

theorem sound_of_aside {v : VaultId} {h : Hist} {a : Action} (aside : Aside a) : Sound v h a := by
  cases a with
  | exec st => cases st <;> first | exact aside.elim | trivial
  | ask x => cases x <;> first | exact aside.elim | trivial
  | query q => cases q <;> first | exact aside.elim | trivial
  | payCheckin => exact aside.elim
  | payPanic => exact aside.elim
  | _ => trivial

section Request

variable {S : Server} {v : VaultId} {h g : Hist} {α β : Type}

theorem Snapshot.mono {scan : Scan} (snap : Snapshot h scan) (sub : h ⊆ g) : Snapshot g scan := by
  obtain ⟨urls, ext, int, mem⟩ := snap
  exact ⟨urls, ext, int, sub mem⟩

theorem Scans.aside {p : Prog α} (only : p.Only Aside) :
    Scans v (fun g _ => ∃ more, g = h ++ more ∧ ∀ e ∈ more, Aside e.action) p h :=
  Ensures.of_only only fun _ _ aside => sound_of_aside aside

theorem aside_query {q : Query} (aside : Aside (.query q)) : (Prog.query q).Only Aside := by
  refine ⟨aside, fun r => ?_⟩
  cases r <;> trivial

theorem aside_logged {p : Prog α} (only : p.Only Aside) : (logged p).Only Aside :=
  .bind only.attempt fun _ => trivial

theorem aside_crypto (x : Except Unit α) : (crypto x).Only Aside := by
  cases x <;> trivial

theorem aside_enqueueOwnerEmail (kind : NotificationKind) :
    (enqueueOwnerEmail S v kind).Only Aside := by
  refine .bind (aside_query trivial) fun row => ?_
  cases row with
  | none => trivial
  | some r =>
    dsimp only
    split
    · trivial
    · refine .bind (aside_crypto _) fun contact => ?_
      cases contact with
      | none => trivial
      | some contact =>
        dsimp only
        split
        · trivial
        · refine .bind (.bind (aside_crypto _) fun _ => .bind (.perform trivial) fun t => ?_)
            fun _ => trivial
          exact .bind ⟨trivial, fun r => by cases r <;> trivial⟩ fun _ => trivial

/-- The INSERT of the deposit has been tried. -/
def Tried (h : Hist) (v : VaultId) (o : String) : Prop :=
  ∃ d r, d.key = (v, o) ∧ (⟨.exec (.insertDeposit d), r⟩ : Ev) ∈ h

/-- The event of the deposit has been written, or its INSERT has failed. -/
def Told (h : Hist) (d : DepositRow) : Prop :=
  ∃ t r, (⟨.exec (.insertEvent (receivedEvent d t)), r⟩ : Ev) ∈ h

theorem Tried.mono {o : String} (tried : Tried h v o) (sub : h ⊆ g) : Tried g v o := by
  obtain ⟨d, r, key, mem⟩ := tried
  exact ⟨d, r, key, sub mem⟩

theorem Told.mono {d : DepositRow} (told : Told h d) (sub : h ⊆ g) : Told g d := by
  obtain ⟨t, r, mem⟩ := told
  exact ⟨t, r, sub mem⟩

/-- Every deposit the request has entered into the ledger has been told of. -/
def AllTold (h : Hist) : Prop := ∀ d, Ran h (.insertDeposit d) 1 → Told h d

/-- One event of the feed, whose failure is passed over. -/
theorem scans_tell {kind : EventKind} {detail : Detail}
    (sound : ∀ t, Sound v (h ++ [⟨.now, t⟩]) (.exec (.insertEvent ⟨v, kind, detail, t⟩))) :
    Scans v (fun g _ => ∃ t r, g = h ++ [(⟨.now, t⟩ : Ev),
      ⟨.exec (.insertEvent ⟨v, kind, detail, t⟩), r⟩]) (logged (recordEvent v kind detail)) h := by
  refine .act fun t => ⟨trivial, .act fun r => ⟨sound t, ?_⟩⟩
  rw [List.append_assoc]
  cases r with
  | ok n => exact .done ⟨t, _, rfl⟩
  | error e => exact .done ⟨t, _, rfl⟩

/-- A statement that is not an INSERT of a deposit leaves all told, and so does one that
affects nothing. -/
theorem AllTold.snoc {e : Ev} (told : AllTold h)
    (other : ∀ d, e ≠ ⟨.exec (.insertDeposit d), .ok 1⟩) : AllTold (h ++ [e]) := by
  intro d ran
  rcases List.mem_append.1 ran with old | new
  · exact (told d old).mono (List.subset_append_left h _)
  · rw [List.mem_singleton] at new
    exact absurd new.symm (other d)

theorem AllTold.of_aside {more : Hist} (told : AllTold h) (aside : ∀ e ∈ more, Aside e.action) :
    AllTold (h ++ more) := by
  intro d ran
  rcases List.mem_append.1 ran with old | new
  · exact (told d old).mono (List.subset_append_left h _)
  · exact (aside _ new).elim

/-- A deposit that is told of at once leaves all told. -/
theorem AllTold.told_of {d : DepositRow} {t : Instant} {r : Except DbError Nat}
    (told : AllTold h) :
    AllTold (h ++ [(⟨.exec (.insertDeposit d), .ok 1⟩ : Ev)] ++
      [(⟨.now, t⟩ : Ev), ⟨.exec (.insertEvent (receivedEvent d t)), r⟩]) := by
  intro d' ran
  rcases List.mem_append.1 ran with before | after
  · rcases List.mem_append.1 before with old | new
    · exact (told d' old).mono (by simp)
    · rw [List.mem_singleton] at new
      cases new
      exact ⟨t, r, by simp⟩
  · rcases List.mem_cons.1 after with clock | event
    · cases clock
    · rw [List.mem_singleton] at event
      cases event

/-- The first pass: every deposit is tried, and what is new is told of at once. -/
theorem scans_insertDeposits {scan : Scan} {t : Instant} (ds : List ConfirmedDeposit)
    (listed : ∀ d ∈ ds, d.outpoint ∈ scan.outpoints) (n : Nat) (h : Hist)
    (snap : Snapshot h scan) (told : AllTold h) :
    Scans v (fun g _ => h <+: g ∧ (∀ d ∈ ds, Tried g v d.outpoint) ∧ AllTold g)
      (insertDeposits v t ds n) h := by
  induction ds generalizing n h with
  | nil => exact .done ⟨List.prefix_refl h, by simp, told⟩
  | cons d ds ih =>
    have first := listed d List.mem_cons_self
    have others : ∀ d ∈ ds, d.outpoint ∈ scan.outpoints := fun d mem =>
      listed d (List.mem_cons_of_mem _ mem)
    let row : DepositRow := ⟨v, d.outpoint, d.amountSat, d.height, t, none⟩
    -- the rounds after this one, from the history it leaves
    have rest : ∀ (n : Nat) (g : Hist) (r : Except DbError Nat), h <+: g →
        (⟨.exec (.insertDeposit row), r⟩ : Ev) ∈ g → AllTold g →
        Scans v (fun g _ => h <+: g ∧ (∀ e ∈ d :: ds, Tried g v e.outpoint) ∧ AllTold g)
          (insertDeposits v t ds n) g := by
      intro n g r grown mem told
      refine (ih others n g (snap.mono grown.subset) told).weaken ?_
      rintro g' - ⟨more, tried, told⟩
      refine ⟨grown.trans more, ?_, told⟩
      intro e mem'
      rcases List.mem_cons.1 mem' with rfl | later
      · exact ⟨row, r, rfl, more.subset mem⟩
      · exact tried e later
    refine .act fun r => ⟨⟨rfl, scan, snap, first⟩, ?_⟩
    have grown : h <+: h ++ [(⟨.exec (.insertDeposit row), r⟩ : Ev)] := List.prefix_append _ _
    have mem : (⟨.exec (.insertDeposit row), r⟩ : Ev) ∈
        h ++ [(⟨.exec (.insertDeposit row), r⟩ : Ev)] := by simp
    match r with
    | .error e => exact rest n _ _ grown mem (told.snoc fun d same => by cases same)
    | .ok 0 => exact rest n _ _ grown mem (told.snoc fun d same => by cases same)
    | .ok (k + 2) => exact rest n _ _ grown mem (told.snoc fun d same => by cases same)
    | .ok 1 =>
      show Scans v _ ((logged (recordEvent v .received [("amount_sat", .int d.amountSat),
        ("outpoint", .str d.outpoint), ("height", .int d.height)])).bind fun _ =>
          insertDeposits v t ds (n + 1)) _
      refine .bind (scans_tell fun t' => ?_) ?_
      · refine .inl ⟨row, t', ⟨h, ?_⟩, rfl, rfl⟩
        rw [List.append_assoc]
        rfl
      · rintro g - - ⟨t', r', rfl⟩
        refine rest (n + 1) _ (.ok 1) ?_ ?_ (told.told_of (d := row))
        · exact grown.trans (List.prefix_append _ _)
        · exact List.mem_append_left _ mem

theorem AllTold.steady {more : Hist} (told : AllTold h)
    (other : ∀ d, (⟨.exec (.insertDeposit d), .ok 1⟩ : Ev) ∉ more) : AllTold (h ++ more) := by
  intro d ran
  rcases List.mem_append.1 ran with old | new
  · exact (told d old).mono (List.subset_append_left h _)
  · exact absurd new (other d)

theorem Scan.mem_outpoints_of_deposit {scan : Scan} {d : ConfirmedDeposit}
    (mem : d ∈ scan.deposits) : d.outpoint ∈ scan.outpoints := by
  obtain ⟨u, listed, deposit⟩ := List.mem_filterMap.1 mem
  split at deposit
  · obtain ⟨height, -, rfl⟩ := Option.map_eq_some_iff.1 deposit
    exact List.mem_map_of_mem listed
  · cases deposit

theorem scans_recordNewDeposits {scan : Scan} {t : Instant} (snap : Snapshot h scan)
    (told : AllTold h) :
    Scans v (fun g _ => (∀ d ∈ scan.deposits, Tried g v d.outpoint) ∧ AllTold g)
      (recordNewDeposits S v scan.deposits t) h := by
  refine .bind (Scans.aside (aside_query (q := .depositCount v) trivial).attempt) ?_
  rintro g prior - ⟨more, rfl, aside⟩
  refine .bind (scans_insertDeposits scan.deposits (fun d => Scan.mem_outpoints_of_deposit) 0 _
    (snap.mono (List.subset_append_left h more)) (told.of_aside aside)) ?_
  rintro g recorded - ⟨-, tried, told⟩
  -- the mail touches neither the ledger nor the feed
  have mail : Scans v (fun g _ => (∀ d ∈ scan.deposits, Tried g v d.outpoint) ∧ AllTold g)
      (logged (enqueueOwnerEmail S v .received)) g := by
    refine (Scans.aside (aside_logged (aside_enqueueOwnerEmail .received))).weaken ?_
    rintro g' - ⟨more, rfl, aside⟩
    refine ⟨fun d mem => ?_, told.of_aside aside⟩
    exact (tried d mem).mono (List.subset_append_left g more)
  cases prior with
  | error e => exact .done ⟨tried, told⟩
  | ok count =>
    dsimp only
    split
    · exact mail
    · exact .done ⟨tried, told⟩

/-- The second pass stamps what the snapshot lacks, and tells of what it has stamped. -/
theorem scans_recordSpentDeposits {scan : Scan} {t : Instant} (snap : Snapshot h scan)
    (told : AllTold h) :
    Scans v (fun g _ => AllTold g) (recordSpentDeposits v scan.outpoints t) h := by
  refine .act fun answer => ⟨rfl, ?_⟩
  have told₁ : AllTold (h ++ [⟨.query (.unspentDeposits v), answer⟩]) :=
    told.snoc fun d same => by cases same
  match answer with
  | .error e => exact .done told₁
  | .ok [] => exact .done told₁
  | .ok (first :: others) =>
    show Scans v _ (((query (.lastServerSpend v)).attempt : Prog (Except ApiError _)).bind
      fun spend => _) _
    -- the last spend is read once, then every missing deposit is stamped
    refine .bind (Scans.aside (aside_query (q := .lastServerSpend v) trivial).attempt) ?_
    rintro g spend - ⟨more, rfl, aside⟩
    refine .forEach (told₁.of_aside aside) fun d mem g grown told => ?_
    obtain ⟨listed, lacks⟩ := List.mem_filter.1 mem
    have lacks : d.outpoint ∉ scan.outpoints := by simpa using lacks
    have read : Read g (.unspentDeposits v) (first :: others) :=
      grown.subset (by simp)
    have snap : Snapshot g scan :=
      snap.mono fun e mem => grown.subset (by simp [mem])
    refine .act fun r => ⟨⟨rfl, scan, _, d, snap, read, listed, rfl, lacks⟩, ?_⟩
    have told₂ : AllTold (g ++ [⟨.exec (.stampDepositSpent v d.outpoint t), r⟩]) :=
      told.snoc fun d same => by cases same
    -- only the statement that stamps a row goes on to tell of it
    match r with
    | .error e => exact .done told₂
    | .ok 0 => exact .done told₂
    | .ok (k + 2) => exact .done told₂
    | .ok 1 =>
      show Scans v _ (if spend.toOption.join.any (d.seenAt ≤ ·) then pure ()
        else logged (recordEvent v .fundsSpent
          [("amount_sat", .int d.amountSat), ("outpoint", .str d.outpoint)])) _
      split
      · exact .done told₂
      · refine (scans_tell fun t' => ?_).weaken ?_
        · refine .inr ⟨rfl, d.outpoint, t, t', ⟨g, ?_⟩, rfl, fun o mem => ?_⟩
          · rw [List.append_assoc]
            rfl
          · simpa using mem
        · rintro g' - ⟨t', r', rfl⟩
          refine told₂.steady fun d mem => ?_
          rcases List.mem_cons.1 mem with clock | event
          · cases clock
          · cases List.mem_singleton.1 event

/-- What performs nothing leaves the history as it is. -/
theorem scans_still {P : Hist → β → Prop} {p : Prog α} {f : α → Prog β}
    (still : p.Only fun _ => False) (rest : ∀ a, Scans v P (f a) h) : Scans v P (p.bind f) h := by
  cases p with
  | done a => exact rest a
  | fail e => exact .fail
  | act a next => exact still.1.elim

theorem still_validated (pre : String) (x : Except String α) :
    (validated pre x).Only fun _ => False := by
  cases x <;> trivial

theorem still_storedNetwork (r : VaultRow) : (storedNetwork r).Only fun _ => False := by
  unfold storedNetwork
  split <;> trivial

/-- What a scan that goes through leaves behind. -/
def Settled (v : VaultId) (h : Hist) : Prop :=
  (∃ scan, Snapshot h scan ∧ ∀ d ∈ scan.deposits, Tried h v d.outpoint) ∧ AllTold h

/-- A balance request, from its first statement to its answer. -/
theorem scans_getVaultBalance (S : Server) (v : VaultId) :
    Scans v (fun g _ => Settled v g) (getVaultBalance S v) [] := by
  refine .bind (P := fun g row => Read g (.vault v) row ∧ AllTold g) ?_ ?_
  · refine .act fun answer => ⟨trivial, ?_⟩
    cases answer with
    | error e => exact .fail
    | ok row => exact .done ⟨.here, fun d ran => by cases (List.mem_singleton.1 ran)⟩
  rintro g row - ⟨read, told⟩
  cases row with
  | none => exact .fail
  | some r =>
    show Scans v _ ((storedNetwork r).bind fun network => _) g
    -- the checks before the scan write nothing
    refine scans_still (still_storedNetwork r) fun network => ?_
    refine scans_still (still_validated _ _) fun _ => ?_
    refine scans_still (still_validated _ _) fun urls => ?_
    refine scans_still (still_validated _ _) fun wallet => ?_
    refine .act fun answer => ⟨⟨r, read, rfl⟩, ?_⟩
    have told₁ := told.snoc (e := ⟨.ask (.fullScan urls r.settings.descriptorExternal
      r.settings.descriptorInternal), answer⟩) fun d same => by cases same
    cases answer with
    | error e => exact .fail
    | ok scan =>
      show Scans v _ ((validated _ _).bind fun _ => _) _
      refine scans_still (still_validated _ _) fun _ => ?_
      refine .act fun t => ⟨trivial, ?_⟩
      have told₂ := told₁.snoc (e := ⟨.now, t⟩) fun d same => by cases same
      have asked : Snapshot (g ++ [(⟨.ask (.fullScan urls r.settings.descriptorExternal
          r.settings.descriptorInternal), .ok scan⟩ : Ev)]) scan :=
        ⟨_, _, _, List.mem_append_right g (List.mem_singleton_self _)⟩
      have snap := asked.mono (List.subset_append_left _ [(⟨.now, t⟩ : Ev)])
      show Scans v _ ((recordNewDeposits S v scan.deposits t).bind fun _ => _) _
      -- both passes book the same snapshot
      refine .bind (scans_recordNewDeposits snap told₂) ?_
      rintro g' - grown ⟨tried, told⟩
      have snap := snap.mono grown.subset
      refine .bind (scans_recordSpentDeposits snap told) ?_
      rintro g'' - grown told
      refine .done ⟨⟨scan, snap.mono grown.subset, fun d mem => ?_⟩, told⟩
      exact (tried d mem).mono grown.subset

end Request

/-! ## §5 One step -/

section Steps

variable {S : Server} {w : World} {tr : BalTrace} {s : BalStep} {i k : Nat} {v : VaultId}
  {o : String}

theorem performed {a : Action} {r : a.Response} (explains : (balances S).Explains s)
    (acted : Acted i a r s) :
    ∃ o, (a.perform o s.before).1 = r ∧ (a.perform o s.before).2 = s.after := by
  unfold System.Explains at explains
  rw [show s.label = .acted i ⟨a, r⟩ from acted] at explains
  obtain ⟨o, perform⟩ := explains
  exact ⟨o, congrArg Prod.fst perform, congrArg Prod.snd perform⟩

theorem ran {st : Stmt} {n : Nat} (explains : (balances S).Explains s)
    (acted : Acted i (.exec st) (.ok n) s) :
    ∃ db, st.run s.before.db = .ok (db, n) ∧ s.after = { s.before with db := db } := by
  obtain ⟨o, answer, world⟩ := performed explains acted
  simp only [Action.perform] at answer world
  split at answer
  · cases answer
  · next reliable =>
    simp only [reliable] at world
    cases result : st.run s.before.db with
    | ok done =>
      obtain ⟨db, m⟩ := done
      rw [result] at answer world
      cases answer
      exact ⟨db, rfl, world.symm⟩
    | error e =>
      rw [result] at answer
      cases answer

theorem answered {q : Query} {r : q.Result} (explains : (balances S).Explains s)
    (acted : Acted i (.query q) (.ok r) s) : q.eval s.before.db = .ok r := by
  obtain ⟨o, answer, -⟩ := performed explains acted
  change (if o.dbFails then .error .unavailable else q.eval s.before.db) = _ at answer
  split at answer
  · cases answer
  · exact answer

/-- What one step does to the database. -/
inductive DbChange (s : BalStep) : Prop
  | kept (same : s.after.db = s.before.db)
  | ran (i : Nat) (st : Stmt) (n : Nat) (v : VaultId) (h : Hist)
      (acted : Acted i (.exec st) (.ok n) s) (sound : Sound v h (.exec st))
      (result : st.run s.before.db = .ok (s.after.db, n))
  | drifted (d : Drift) (after : s.after = d.apply s.before)

theorem Runs.sound_at (runs : Runs S w tr) (at_k : tr[k]? = some s) {a : Action} {r : a.Response}
    (acted : Acted i a r s) :
    ∃ v, Started i v (tr.take k) ∧ Sound v (history i k tr) a := by
  obtain ⟨c, run⟩ := runs.run
  refine run.acted_at (I := fun v h e => Sound v h e.action)
    (F := fun v h r => ∀ total, r = .ok total → Settled v h) ?_ at_k acted
  exact fun v => scans_getVaultBalance S v

theorem Runs.explains_at (runs : Runs S w tr) (at_k : tr[k]? = some s) :
    (balances S).Explains s := by
  obtain ⟨c, run⟩ := runs.run
  exact run.explains_at at_k

theorem Runs.dbChange (runs : Runs S w tr) (at_k : tr[k]? = some s) : DbChange s := by
  have explains := runs.explains_at at_k
  have whole := explains
  unfold System.Explains at whole
  split at whole
  · next i e label =>
    obtain ⟨a, r⟩ := e
    have acted : Acted i a r s := label
    obtain ⟨v, -, sound⟩ := runs.sound_at at_k acted
    obtain ⟨o, answer, world⟩ := performed explains acted
    -- the requests of these runs pay nothing
    cases a with
    | exec st =>
      cases r with
      | ok n =>
        obtain ⟨db, result, after⟩ := ran explains acted
        exact .ran i st n v _ acted sound (by rw [after]; exact result)
      | error e => exact .kept (by rw [← world, Action.perform_exec_error answer])
    | payCheckin => exact sound.elim
    | payPanic => exact sound.elim
    | ask x =>
      refine .kept ?_
      rw [← world]
      change (x.effect (o.answer x) s.before).db = _
      unfold External.effect
      split <;> rfl
    | _ => exact .kept (by rw [← world]; rfl)
  · next d label => exact .drifted d whole
  · exact .kept (by rw [whole]; rfl)
  · exact .kept (by rw [whole])

/-- The ledger has a row for the deposit. -/
def InLedger (w : World) (v : VaultId) (o : String) : Prop :=
  (w.db.deposits.find? (v, o)).isSome

/-- The INSERT of a deposit enters it if it is new, and then says so. -/
theorem inserted {d : DepositRow} {n : Nat} (explains : (balances S).Explains s)
    (acted : Acted i (.exec (.insertDeposit d)) (.ok n) s) :
    n = 1 ∧ ¬ InLedger s.before d.vaultId d.outpoint ∧
        (∀ v o, InLedger s.after v o ↔ InLedger s.before v o ∨ d.key = (v, o)) ∨
      n = 0 ∧ InLedger s.before d.vaultId d.outpoint ∧
        s.after.db.deposits = s.before.db.deposits := by
  obtain ⟨db, result, after⟩ := ran explains acted
  rw [after]
  simp only [Stmt.run] at result
  split at result
  -- the key is taken, so the INSERT is ignored
  · next known =>
    cases result
    refine .inr ⟨rfl, ?_, rfl⟩
    unfold InLedger
    by_contra absent
    rw [Option.not_isSome_iff_eq_none] at absent
    obtain ⟨t, fresh, -⟩ := KeyedTable.exists_insert? (r := d) absent
    rw [known] at fresh
    cases fresh
  · next deposits fresh =>
    cases result
    refine .inl ⟨rfl, ?_, fun v o => ?_⟩
    · have absent := KeyedTable.find?_eq_none_of_insert? fresh
      unfold InLedger
      rw [show (d.vaultId, d.outpoint) = d.key from rfl, absent]
      simp
    · unfold InLedger
      rw [KeyedTable.find?_insert? fresh]
      by_cases same : (v, o) = d.key
      · simp [same]
      · have other : d.key ≠ (v, o) := fun eq => same eq.symm
        simp [same, other]

/-- The ledger grows by what is recorded, and by nothing else. -/
theorem Runs.inLedger_after (runs : Runs S w tr) (at_k : tr[k]? = some s) (v : VaultId)
    (o : String) : InLedger s.after v o ↔ InLedger s.before v o ∨ Recorded tr k v o := by
  have explains := runs.explains_at at_k
  -- a step that enters something is an INSERT that said so
  have entered : Recorded tr k v o → InLedger s.after v o := by
    rintro ⟨s', i, d, at_k', acted, key⟩
    rw [at_k] at at_k'
    cases at_k'
    rcases inserted explains acted with ⟨-, -, grown⟩ | ⟨none, -⟩
    · exact (grown v o).2 (.inr key)
    · cases none
  have kept : (InLedger s.after v o ↔ InLedger s.before v o) →
      (InLedger s.after v o ↔ InLedger s.before v o ∨ Recorded tr k v o) := by
    intro same
    constructor
    · exact fun here => .inl (same.1 here)
    · rintro (old | new)
      · exact same.2 old
      · exact entered new
  cases runs.dbChange at_k with
  | kept same => exact kept (by rw [InLedger, InLedger, same])
  | drifted d after =>
    refine kept ?_
    rw [InLedger, InLedger, after]
    cases d <;> rfl
  | ran i st n v' h acted sound result =>
    cases st with
    | insertDeposit d =>
      rcases inserted explains acted with ⟨rfl, -, grown⟩ | ⟨-, -, same⟩
      · constructor
        · intro here
          exact ((grown v o).1 here).imp_right fun key => ⟨s, i, d, at_k, acted, key⟩
        · rintro (old | new)
          · exact (grown v o).2 (.inl old)
          · exact entered new
      · exact kept (by rw [InLedger, InLedger, same])
    | stampDepositSpent id out t =>
      refine kept ?_
      obtain ⟨db, result, after⟩ := ran explains acted
      cases result
      rw [InLedger, InLedger, after]
      have row := KeyedTable.find?_update s.before.db.deposits
        (fun d => decide (d.key = (id, out)) && decide (d.spentAt = none))
        (fun d => { d with spentAt := some t }) (fun _ => rfl) (v, o)
      have known := (congrArg Option.isSome row).trans Option.isSome_map
      exact iff_of_eq (congrArg (· = true) known)
    | insertEvent ev =>
      refine kept ?_
      obtain ⟨db, result, after⟩ := ran explains acted
      rw [InLedger, InLedger, after]
      simp only [Stmt.run] at result
      split at result <;> cases result
      rfl
    | insertNotification m =>
      refine kept ?_
      obtain ⟨db, result, after⟩ := ran explains acted
      rw [InLedger, InLedger, after]
      simp only [Stmt.run] at result
      split at result <;> cases result
      rfl
    | _ => exact sound.elim

/-- The settings of a vault stay as they are. -/
theorem Runs.settings_after (runs : Runs S w tr) (at_k : tr[k]? = some s) (v : VaultId) :
    (s.after.vault? v).map VaultRow.settings = (s.before.vault? v).map VaultRow.settings := by
  cases runs.dbChange at_k with
  | kept same => rw [World.vault?, World.vault?, same]
  | drifted d after =>
    rw [after]
    cases d with
    | contacts id c =>
      simp only [Drift.apply, World.vault?, Db.vault?_updateVaults, Option.map_map]
      congr 1
      funext r
      simp only [Function.comp]
      split <;> rfl
    | _ => rfl
  | ran i st n v' h acted sound result =>
    have row := Stmt.vault?_run result v
    cases st with
    | insertDeposit | stampDepositSpent | insertEvent | insertNotification =>
      rw [World.vault?, World.vault?, row]
      rfl
    | _ => exact sound.elim

end Steps

/-! ## §6 The ledger along a run -/

section Ledger

variable {S : Server} {w : World} {tr : BalTrace} {s : BalStep} {i j k : Nat} {v : VaultId}
  {o : String}

/-- The ledger holds what has been recorded. -/
theorem Runs.inLedger_iff (runs : Runs S w tr) (at_k : tr[k]? = some s) (v : VaultId)
    (o : String) : InLedger s.before v o ↔ ∃ j, j < k ∧ Recorded tr j v o := by
  obtain ⟨c, run⟩ := runs.run
  refine ((run.invariant_at
    (P := fun n w => InLedger w v o ↔ ∃ j, j < n ∧ Recorded tr j v o) ?_ ?_).1 k s at_k).1
  · show InLedger w v o ↔ _
    simp [InLedger, KeyedTable.find?, runs.empty]
  · intro n s at_n _ past
    rw [runs.inLedger_after at_n, past]
    constructor
    · rintro (⟨j, before, recorded⟩ | now)
      · exact ⟨j, Nat.lt_succ_of_lt before, recorded⟩
      · exact ⟨n, Nat.lt_succ_self n, now⟩
    · rintro ⟨j, before, recorded⟩
      rcases Nat.lt_or_eq_of_le (Nat.le_of_lt_succ before) with earlier | rfl
      · exact .inl ⟨j, earlier, recorded⟩
      · exact .inr recorded

/-- What is recorded was not recorded before. -/
theorem Runs.not_recorded_before (runs : Runs S w tr) (recorded : Recorded tr j v o)
    (again : Recorded tr k v o) : ¬ j < k := by
  intro lt
  obtain ⟨s, i, d, at_k, acted, key⟩ := id again
  cases key
  rcases inserted (runs.explains_at at_k) acted with ⟨-, absent, -⟩ | ⟨none, -⟩
  · exact absent ((runs.inLedger_iff at_k _ _).2 ⟨j, lt, recorded⟩)
  · cases none

theorem Runs.recorded_once (runs : Runs S w tr) (first : Recorded tr j v o)
    (second : Recorded tr k v o) : j = k :=
  Nat.le_antisymm (Nat.not_lt.1 (runs.not_recorded_before second first))
    (Nat.not_lt.1 (runs.not_recorded_before first second))

/-- An INSERT that does not fail finds the deposit recorded, or records it. -/
theorem Runs.recorded_of_tried (runs : Runs S w tr) {d : DepositRow} {n : Nat}
    (at_k : tr[k]? = some s) (acted : Acted i (.exec (.insertDeposit d)) (.ok n) s) :
    ∃ j, j ≤ k ∧ Recorded tr j d.vaultId d.outpoint := by
  rcases inserted (runs.explains_at at_k) acted with ⟨rfl, -⟩ | ⟨-, known, -⟩
  · exact ⟨k, Nat.le_refl k, s, i, d, at_k, acted, rfl⟩
  · obtain ⟨j, before, recorded⟩ := (runs.inLedger_iff at_k _ _).1 known
    exact ⟨j, Nat.le_of_lt before, recorded⟩

/-- The settings of a vault at any two positions are those it started with. -/
theorem Runs.settings_at (runs : Runs S w tr) (at_k : tr[k]? = some s) (v : VaultId) :
    (s.before.vault? v).map VaultRow.settings = (w.vault? v).map VaultRow.settings := by
  obtain ⟨c, run⟩ := runs.run
  refine ((run.invariant_at (P := fun _ w' =>
    (w'.vault? v).map VaultRow.settings = (w.vault? v).map VaultRow.settings) rfl ?_).1 k s
      at_k).1
  intro n s at_n _ past
  exact (runs.settings_after at_n v).trans past

end Ledger

/-! ## §7 The three promises -/

section Promises

variable {S : Server} {w : World} {tr : BalTrace} {s : BalStep} {i j k : Nat} {v : VaultId}
  {o : String}

/-- A thread works for one vault. -/
theorem Runs.started_unique (runs : Runs S w tr) {v' : VaultId}
    (first : Started i v (tr.take j)) (second : Started i v' (tr.take k)) : v = v' := by
  obtain ⟨c, run⟩ := runs.run
  exact run.started_unique first.of_take second.of_take

/-- At `m` the explorer answers the thread `i`, which scans the vault with these settings. -/
def SnapshotAt (tr : BalTrace) (m i : Nat) (settings : Settings) (scan : Scan) : Prop :=
  ∃ s urls int, tr[m]? = some s ∧
    Acted i (.ask (.fullScan urls settings.descriptorExternal int)) (.ok scan) s

/-- The moment of a snapshot, in the thread it was taken by. -/
theorem Runs.snapshot_at (runs : Runs S w tr) {scan : Scan} (snap : Snapshot (history i k tr) scan)
    (started : Started i v (tr.take k)) :
    ∃ m settings, m < k ∧ Started i v (tr.take m) ∧ SnapshotAt tr m i settings scan ∧
      (w.vault? v).map VaultRow.settings = some settings := by
  obtain ⟨urls, ext, int, mem⟩ := snap
  obtain ⟨m, s, before, at_m, acted⟩ := mem_history.1 mem
  obtain ⟨v', started', r, read, rfl⟩ := runs.sound_at at_m acted
  cases runs.started_unique started' started
  obtain ⟨n, u, -, at_n, looked⟩ := mem_history.1 read
  have found : u.before.vault? v = some r :=
    Except.ok.inj (answered (runs.explains_at at_n) looked)
  refine ⟨m, r.settings, before, started', ⟨s, urls, int, at_m, acted⟩, ?_⟩
  rw [← runs.settings_at at_n v, found]
  rfl

/-- What is recorded was listed by a snapshot taken before. -/
theorem Runs.listed_of_recorded (runs : Runs S w tr) (recorded : Recorded tr j v o) :
    ∃ m i settings scan, m < j ∧ SnapshotAt tr m i settings scan ∧
      (w.vault? v).map VaultRow.settings = some settings ∧ o ∈ scan.outpoints := by
  obtain ⟨s, i, d, at_j, acted, key⟩ := recorded
  cases key
  obtain ⟨v', started, rfl, scan, snap, listed⟩ := runs.sound_at at_j acted
  obtain ⟨m, settings, before, -, asked, same⟩ := runs.snapshot_at snap started
  exact ⟨m, i, settings, scan, before, asked, same, listed⟩

/-- What is stamped was missing from the snapshot of the thread that stamps it, and had
been recorded when that snapshot was taken. -/
theorem Runs.missed_of_stamped (runs : Runs S w tr) (fresh : ScansFresh tr)
    (stamped : Stamped tr k v o) :
    ∃ j m i settings scan, j < m ∧ m < k ∧ Recorded tr j v o ∧ Started i v (tr.take m) ∧
      SnapshotAt tr m i settings scan ∧ (w.vault? v).map VaultRow.settings = some settings ∧
        o ∉ scan.outpoints := by
  obtain ⟨s, i, t, at_k, acted⟩ := stamped
  obtain ⟨v', started, rfl, scan, rows, d, snap, read, listed, rfl, lacks⟩ :=
    runs.sound_at at_k acted
  obtain ⟨m, settings, before, started', asked, same⟩ := runs.snapshot_at snap started
  obtain ⟨n, u', -, at_n, looked⟩ := mem_history.1 read
  obtain ⟨u, urls, int, at_m, acted⟩ := id asked
  obtain ⟨j, earlier, recorded⟩ := fresh m n u u' i v urls _ int scan rows d at_m at_n acted
    looked listed lacks
  exact ⟨j, m, i, settings, scan, earlier, before, recorded, started', asked, same, lacks⟩

/-- What is stamped has left the chain, and does not come back. -/
theorem Runs.gone_of_stamped (runs : Runs S w tr) (honest : Honest tr) (final : SpendsFinal tr)
    (fresh : ScansFresh tr) (stamped : Stamped tr j v o) (le : j ≤ k) (at_k : tr[k]? = some s)
    {r : VaultRow} (row : s.before.vault? v = some r) : o ∉ s.before.unspent r := by
  obtain ⟨n, m, i, settings, scan, before, earlier, recorded, -, asked, same, lacks⟩ :=
    runs.missed_of_stamped fresh stamped
  obtain ⟨a, i', settings', scan', first, asked', same', listed⟩ :=
    runs.listed_of_recorded recorded
  -- all three look under the vault's one descriptor
  have here : some r.settings = some settings := by
    rw [← same, ← runs.settings_at at_k v, row]
    rfl
  have there : some settings' = some settings := same'.symm.trans same
  cases here
  cases there
  obtain ⟨t, urls, int, at_m, acted⟩ := asked
  obtain ⟨u, urls', int', at_a, acted'⟩ := asked'
  have was := (honest a u i' _ _ _ scan' at_a acted' o).1 listed
  have gone := mt (honest m t i _ _ _ scan at_m acted o).2 lacks
  exact final a m k u t s _ o (by omega) (by omega) at_a at_m at_k was gone

/-- An event of the feed comes right after the statement it tells of, in the same thread. -/
theorem Runs.just_ran_at {st : Stmt} {t : Instant} (just : JustRan (history i k tr) st t) :
    ∃ a s, a < k ∧ tr[a]? = some s ∧ Acted i (.exec st) (.ok 1) s ∧
      (history i k tr).length = (history i a tr).length + 2 := by
  obtain ⟨g, whole⟩ := just
  obtain ⟨a, s, before, at_a, acted, past⟩ := history_split whole
  refine ⟨a, s, before, at_a, acted, ?_⟩
  rw [whole, past]
  simp

/-- What is told as received has been recorded by the same thread, two actions ago. -/
theorem Runs.recorded_of_told (runs : Runs S w tr) (told : ToldReceived tr k v o) :
    ∃ a s u i ev d, a < k ∧ tr[k]? = some s ∧ Acted i (.exec (.insertEvent ev)) (.ok 1) s ∧
      tr[a]? = some u ∧ Acted i (.exec (.insertDeposit d)) (.ok 1) u ∧ d.key = (v, o) ∧
        (history i k tr).length = (history i a tr).length + 2 := by
  obtain ⟨s, i, ev, at_k, acted, kind, vault, detail⟩ := told
  obtain ⟨v', started, sound⟩ := runs.sound_at at_k acted
  rcases sound with ⟨d, t, just, rfl, rfl⟩ | ⟨other, -⟩
  · obtain ⟨a, u, before, at_a, inserted, two⟩ := Runs.just_ran_at just
    have same : o = d.outpoint := by simpa [receivedEvent] using detail
    exact ⟨a, s, u, i, _, d, before, at_k, acted, at_a, inserted, by rw [← vault, same]; rfl, two⟩
  · rw [kind] at other
    cases other

theorem Runs.told_once (runs : Runs S w tr) (first : ToldReceived tr j v o)
    (second : ToldReceived tr k v o) : j = k := by
  obtain ⟨a, s, u, i, ev, d, a_lt, at_j, told, at_a, entered, key, two⟩ :=
    runs.recorded_of_told first
  obtain ⟨b, s', u', i', ev', d', b_lt, at_k, told', at_b, entered', key', two'⟩ :=
    runs.recorded_of_told second
  -- both tell of the one INSERT, so one thread tells of both
  cases runs.recorded_once ⟨u, i, d, at_a, entered, key⟩ ⟨u', i', d', at_b, entered', key'⟩
  rw [at_a] at at_b
  cases at_b
  have label := entered.symm.trans entered'
  cases label
  have later : ∀ {m n : Nat} {t : BalStep} {e : EventRow}, tr[m]? = some t →
      Acted i (.exec (.insertEvent e)) (.ok 1) t →
        (history i m tr).length = (history i n tr).length → ¬ m < n := by
    intro m n t e at_m acted same lt
    have grown : history i (m + 1) tr <+: history i n tr := history_mono (Nat.succ_le_of_lt lt)
    have longer := grown.length_le
    rw [history_succ at_m acted, List.length_append, List.length_singleton] at longer
    omega
  exact Nat.le_antisymm (Nat.not_lt.1 (later at_k told' (two'.trans two.symm)))
    (Nat.not_lt.1 (later at_j told (two.trans two'.symm)))

/-- A scan that goes through, with what it leaves behind. -/
theorem Runs.settled_at (runs : Runs S w tr) (at_k : tr[k]? = some s) {total : Nat}
    (label : s.label = .returned i (.ok total)) (started : Started i v (tr.take k)) :
    Settled v (history i k tr) := by
  obtain ⟨c, run⟩ := id runs.run
  obtain ⟨v', started', settled⟩ := run.returned_at (I := fun v h e => Sound v h e.action)
    (F := fun v h r => ∀ total, r = .ok total → Settled v h)
    (by exact fun v => scans_getVaultBalance S v) at_k label
  cases runs.started_unique started' started
  exact settled total rfl

theorem Runs.receivedOnce (runs : Runs S w tr) : ReceivedOnce tr := by
  refine ⟨fun j k v o => runs.recorded_once, fun j k v o => runs.told_once, ?_⟩
  intro k s i v total at_k label started smooth
  obtain ⟨⟨scan, snap, tried⟩, told⟩ := runs.settled_at at_k label started
  refine ⟨⟨scan, snap, fun d listed => ?_⟩, fun d new => ?_⟩
  · obtain ⟨row, r, key, mem⟩ := tried d listed
    cases r with
    | error e => exact absurd mem (smooth _ e)
    | ok n =>
      obtain ⟨a, u, before, at_a, acted⟩ := mem_history.1 mem
      obtain ⟨j, le, recorded⟩ := runs.recorded_of_tried at_a acted
      obtain ⟨vault, outpoint⟩ := Prod.mk.inj key
      rw [vault, outpoint] at recorded
      exact ⟨j, Nat.lt_of_le_of_lt le before, recorded⟩
  · obtain ⟨t, r, mem⟩ := told d new
    cases r with
    | error e => exact absurd mem (smooth _ e)
    | ok n =>
      obtain ⟨a, u, before, at_a, acted⟩ := mem_history.1 mem
      have one : n = 1 := by
        obtain ⟨db, result, -⟩ := ran (runs.explains_at at_a) acted
        simp only [Stmt.run] at result
        split at result
        · cases result
          rfl
        · cases result
      subst one
      exact ⟨a, before, u, i, _, at_a, acted, rfl, rfl, by simp [receivedEvent]⟩

/-- The promises, in the runs in which no scan holds a snapshot against a deposit that was
recorded after it. -/
theorem booksHold_of_fresh (runs : Runs S w tr) (honest : Honest tr) (final : SpendsFinal tr)
    (fresh : ScansFresh tr) : BooksHold tr := by
  refine ⟨runs.receivedOnce, ?_, ?_⟩
  · intro k v o stamped
    obtain ⟨j, m, i, settings, scan, before, earlier, recorded, started, asked, -, lacks⟩ :=
      runs.missed_of_stamped fresh stamped
    obtain ⟨s, urls, int, at_m, acted⟩ := asked
    exact ⟨j, m, s, i, urls, _, int, scan, before, earlier, recorded, at_m, started, acted, lacks⟩
  · intro k s v o at_k reported r row
    rcases reported with stamped | ⟨s', i, ev, n, at_k', acted, kind, vault, detail⟩
    · exact runs.gone_of_stamped honest final fresh stamped (Nat.le_refl k) at_k row
    · obtain ⟨v', started, sound⟩ := runs.sound_at at_k' acted
      rcases sound with ⟨d, t, -, -, rfl⟩ | ⟨-, o', t, t', just, same, only⟩
      · cases kind
      · cases same.symm.trans vault
        cases only o detail
        obtain ⟨a, u, before, at_a, stamped, -⟩ := Runs.just_ran_at just
        exact runs.gone_of_stamped honest final fresh ⟨u, i, t, at_a, stamped⟩
          (Nat.le_of_lt before) at_k row

end Promises

/-! ## §8 The slow scan -/

section Slow

open Deployment

/-- The vault `v`, with its descriptor `d/0`. -/
def scanned : VaultRow :=
  newVault "v"
    { label := none
      network := "bitcoin"
      descriptorExternal := "d/0"
      descriptorInternal := "d/1"
      timelockBlocks := 144
      checkinPeriodSecs := 3600
      gracePeriodSecs := 60
      createdAt := 0
      ownerXpubFragmentExternal := none
      ownerXpubFragmentInternal := none
      heirXpubFragmentExternal := none
      heirXpubFragmentInternal := none
      ownerTokenHash := none
      ownerEmailHash := none
      heirDerived := false
      vaultKind := .standard }
    0 none ⟨none, none, none, .none⟩
    ⟨.none, .none, .none, .none, none⟩

/-- The server's world with that vault, and these outputs on its chain. -/
def holding (coins : List Coin) : World :=
  { World.start 0 with
    db := { Db.empty with vaults := ⟨[scanned], List.nodup_singleton _⟩ }
    coins := coins }

/-- `n` steps of thread `i`. -/
def scanSteps (i n : Nat) (utxos : List Utxo) : List (Move Oracle Drift VaultId) :=
  List.replicate n (.step i (oracle "" utxos))

/-- An output of the vault on its chain. -/
def arrived : Coin := ⟨"coin", "d/0"⟩

/-- A deposit arrives, a scan records it, it is spent, and the next scan stamps it. -/
def recordedThenSpent : List (Move Oracle Drift VaultId) :=
  [.start "v"] ++ scanSteps 0 10 [coin] ++ [.drift (.chain [])] ++
    [.start "v"] ++ scanSteps 1 10 []

/-- A scan finds nothing, a deposit arrives and another scan records it, the first goes on. -/
def slowScan : List (Move Oracle Drift VaultId) :=
  [.start "v"] ++ scanSteps 0 2 [] ++ [.drift (.chain [arrived])] ++
    [.start "v"] ++ scanSteps 1 10 [coin] ++ scanSteps 0 5 []

/-- Whether a scan in this step is answered with what is on the chain. -/
def honestAt (s : BalStep) : Bool :=
  match s.label with
  | .acted _ ⟨.ask (.fullScan _ ext _), .ok scan⟩ => scan.outpoints = onChain s.before ext
  | _ => true

theorem honest_of_check {tr : BalTrace} (check : tr.all honestAt = true) : Honest tr := by
  intro k s i urls ext int scan at_k acted o
  have here := List.all_eq_true.1 check s (List.mem_of_getElem? at_k)
  unfold honestAt at here
  rw [show s.label = _ from acted] at here
  rw [of_decide_eq_true here]

/-- Whether the chain holds `first` up to the step `turn` and `next` from there on. -/
def turnsAt (turn : Nat) (first next : List Coin) (tr : BalTrace) : Bool :=
  tr.zipIdx.all fun p => p.1.before.coins = if p.2 ≤ turn then first else next

/-- A chain that moves once spends nothing twice. -/
theorem spendsFinal_of_check {tr : BalTrace} {turn : Nat} {first next : List Coin}
    (check : turnsAt turn first next tr = true) : SpendsFinal tr := by
  have coins : ∀ (k : Nat) s, tr[k]? = some s →
      s.before.coins = if k ≤ turn then first else next := by
    intro k s at_k
    have here := List.all_eq_true.1 check (s, k) (List.mk_mem_zipIdx_iff_getElem?.2 at_k)
    simpa using here
  intro a b c s t u ext o le le' at_a at_b at_c was gone
  have coins_a := coins a s at_a
  have coins_b := coins b t at_b
  have coins_c := coins c u at_c
  unfold onChain at was gone ⊢
  rw [coins_a] at was
  rw [coins_b] at gone
  rw [coins_c]
  by_cases early : b ≤ turn
  · rw [if_pos early] at gone
    rw [if_pos (Nat.le_trans le early)] at was
    exact absurd was gone
  · rw [if_neg early] at gone
    rw [if_neg (by omega)]
    exact gone

/-- Whether the step enters the deposit `o` of `v`. -/
def enters (v : VaultId) (o : String) (s : BalStep) : Bool :=
  match s.label with
  | .acted _ ⟨.exec (.insertDeposit d), .ok 1⟩ => d.key = (v, o)
  | _ => false

/-- Whether the step stamps the deposit `o` of `v`. -/
def stamps (v : VaultId) (o : String) (s : BalStep) : Bool :=
  match s.label with
  | .acted _ ⟨.exec (.stampDepositSpent v' o' _), .ok 1⟩ => (v', o') = (v, o)
  | _ => false

theorem recorded_of_enters {tr : BalTrace} {k : Nat} {v : VaultId} {o : String}
    (check : tr[k]?.any (enters v o) = true) : Recorded tr k v o := by
  obtain ⟨s, at_k, here⟩ := (Option.any_eq_true _ _).1 check
  unfold enters at here
  split at here
  · next i d label => exact ⟨s, i, d, at_k, label, of_decide_eq_true here⟩
  · cases here

theorem stamped_of_stamps {tr : BalTrace} {k : Nat} {v : VaultId} {o : String}
    (check : tr[k]?.any (stamps v o) = true) : Stamped tr k v o := by
  obtain ⟨s, at_k, here⟩ := (Option.any_eq_true _ _).1 check
  unfold stamps at here
  split at here
  · next i v' o' t label =>
    cases of_decide_eq_true here
    exact ⟨s, i, t, at_k, label⟩
  · cases here

/-- Whether the ledger lists nothing but `o` of `v`, and whether a scan that lacks it comes
after the step `entry`. -/
def freshAt (entry : Nat) (v : VaultId) (o : String) (p : BalStep × Nat) : Bool :=
  match p.1.label with
  | .acted _ ⟨.ask (.fullScan _ _ _), .ok scan⟩ => o ∈ scan.outpoints || entry < p.2
  | .acted _ ⟨.query (.unspentDeposits v'), .ok rows⟩ =>
      v' = v && rows.all fun d => d.outpoint = o
  | _ => true

theorem scansFresh_of_check {tr : BalTrace} {entry : Nat} {v : VaultId} {o : String}
    (entered : Recorded tr entry v o) (check : tr.zipIdx.all (freshAt entry v o) = true) :
    ScansFresh tr := by
  intro m n s t i v' urls ext int scan rows d at_m at_n asked looked listed lacks
  have scanned := List.all_eq_true.1 check (s, m) (List.mk_mem_zipIdx_iff_getElem?.2 at_m)
  have read := List.all_eq_true.1 check (t, n) (List.mk_mem_zipIdx_iff_getElem?.2 at_n)
  unfold freshAt at scanned read
  rw [show s.label = _ from asked] at scanned
  rw [show t.label = _ from looked] at read
  simp only [Bool.and_eq_true, Bool.or_eq_true, decide_eq_true_eq, List.all_eq_true] at scanned read
  obtain ⟨rfl, only⟩ := read
  cases only d listed
  exact ⟨entry, scanned.resolve_left lacks, entered⟩

/-- A played run with a property the kernel computes is a run of the requests. -/
theorem runs_of_play (S : Server) (w : World) (empty : w.db.deposits.rows = [])
    (ms : List (Move Oracle Drift VaultId)) (P : BalTrace → Bool)
    (check : (((balances S).play ms (System.boot w)).any fun r => P r.1) = true) :
    ∃ tr, Runs S w tr ∧ P tr = true := by
  obtain ⟨tr, c, run, holds⟩ := Run.exists_of_play (P := fun tr _ => P tr) check
  exact ⟨tr, ⟨⟨c, run⟩, empty⟩, holds⟩

/-- The promises hold of a deposit that comes and goes between two scans. -/
theorem booksHold_of_fresh_twice : ∃ tr, Runs (host 0) (holding [arrived]) tr ∧
    Recorded tr 5 "v" "coin" ∧ Stamped tr 19 "v" "coin" ∧ BooksHold tr := by
  obtain ⟨tr, runs, check⟩ := runs_of_play (host 0) (holding [arrived]) rfl recordedThenSpent
    (fun tr => tr[5]?.any (enters "v" "coin") && tr[19]?.any (stamps "v" "coin") &&
      tr.all honestAt && turnsAt 11 [arrived] [] tr && tr.zipIdx.all (freshAt 5 "v" "coin"))
    (by decide +kernel)
  simp only [Bool.and_eq_true] at check
  obtain ⟨⟨⟨⟨entered, stamped⟩, honest⟩, turns⟩, fresh⟩ := check
  have recorded := recorded_of_enters entered
  exact ⟨tr, runs, recorded, stamped_of_stamps stamped,
    booksHold_of_fresh runs (honest_of_check honest) (spendsFinal_of_check turns)
      (scansFresh_of_check recorded fresh)⟩

/-- A slow scan stamps a deposit that has only just arrived. -/
theorem not_booksHold : ¬ ∀ (S : Server) (w : World) (tr : BalTrace), Runs S w tr → Honest tr →
    SpendsFinal tr → BooksHold tr := by
  intro holds
  obtain ⟨tr, runs, check⟩ := runs_of_play (host 0) (holding []) rfl slowScan
    (fun tr => tr[19]?.any (stamps "v" "coin") && tr.all honestAt &&
      turnsAt 3 [] [arrived] tr && tr[19]?.any fun s =>
        (s.before.vault? "v").any fun r => "coin" ∈ s.before.unspent r)
    (by decide +kernel)
  simp only [Bool.and_eq_true, Option.any_eq_true] at check
  obtain ⟨⟨⟨stamped, honest⟩, turns⟩, s, at_k, r, row, unspent⟩ := check
  have books := holds (host 0) (holding []) tr runs (honest_of_check honest)
    (spendsFinal_of_check turns)
  refine books.reported 19 s "v" "coin" at_k ?_ r row (of_decide_eq_true unspent)
  exact .inl (stamped_of_stamps ((Option.any_eq_true _ _).2 stamped))

end Slow

end Balance

end GhostKey

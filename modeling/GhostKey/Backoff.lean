import GhostKey.Balance

/-!
# The Explorer's Pause

Scheduler ticks, sweeps and heir pages ask when a vault's coins mature, each at a time it has read
itself. Where no fresh estimate is cached, the explorer is scanned, and one record of the whole
process keeps how often it has failed in a row: while the pause after the last failure lasts, a
request fails without a scan. The record is looked up before the scan and written after it, so
requests that are under way at once look it up before each other's failures are in it.

Layers:
1. `Paused`: the pause that a row of failures earns;
2. `ofStreak`: the record of such a row;
3. `streak`: the failures that are written down in a run, since the last answer;
4. `Books`: what one request does;
5. `PauseLaw`, `pauseLaw_of_steady`: when every scan keeps to the pause.
-/

namespace GhostKey

open Foundation Foundation.Program

namespace Backoff

/-! ## §1 The pause after a row of failures -/

/-- For how many seconds the explorer is left alone after `k` failures in a row. -/
def pauseSecs (k : Nat) : Nat := min (60 * 2 ^ (k - 1)) 600

theorem pauseSecs_le (k : Nat) : pauseSecs k ≤ 600 := Nat.min_le_right _ _

/-- When the pause is over, counted from the failure at `f` of the row `fs`. -/
def pauseEnd (fs : List Instant) (f : Instant) : Instant := f + seconds (pauseSecs fs.length)

theorem pauseEnd_le (fs : List Instant) (f : Instant) : pauseEnd fs f ≤ f + seconds 600 := by
  have le : (pauseSecs fs.length : Int) ≤ 600 := Int.ofNat_le.2 (pauseSecs_le fs.length)
  unfold pauseEnd seconds
  exact Int.add_le_add_left (Int.mul_le_mul_of_nonneg_right le (by decide)) f

/-- A time within the pause after the failures `fs`, whichever of them came last. -/
def Paused (fs : List Instant) (t : Instant) : Prop := ∃ f ∈ fs, t < pauseEnd fs f

instance (fs : List Instant) (t : Instant) : Decidable (Paused fs t) :=
  inferInstanceAs (Decidable (∃ f ∈ fs, t < pauseEnd fs f))

theorem not_paused_nil (t : Instant) : ¬ Paused [] t := by
  intro ⟨f, mem, _⟩
  cases mem

/-! ## §2 The record of a row of failures -/

/-- The record keeps their number, and the end of the pause as the one written down last has it. -/
def ofStreak (fs : List Instant) : ExplorerBackoff := ⟨fs.length, fs.getLast?.map (pauseEnd fs)⟩

/-- The doublings the code stops at make no difference: the longest pause is reached before. -/
theorem capped_eq_pauseSecs (n : Nat) :
    min (ExplorerBackoff.baseSecs * 2 ^ min n 16) ExplorerBackoff.maxSecs = pauseSecs (n + 1) := by
  unfold ExplorerBackoff.baseSecs ExplorerBackoff.maxSecs pauseSecs
  rw [Nat.add_sub_cancel]
  rcases Nat.le_total n 16 with few | many
  · rw [Nat.min_eq_left few]
  · have more : 2 ^ 16 ≤ 2 ^ n := Nat.pow_le_pow_right (by decide) many
    rw [Nat.min_eq_right many]
    omega

theorem recordFailure_ofStreak (fs : List Instant) (t : Instant) :
    (ofStreak fs).recordFailure t = ofStreak (fs ++ [t]) := by
  have secs := capped_eq_pauseSecs fs.length
  simp only [ExplorerBackoff.recordFailure, ofStreak, Nat.add_sub_cancel, secs,
    List.getLast?_concat, Option.map_some, pauseEnd, List.length_append, List.length_singleton]

section Remaining

variable {fs : List Instant} {t : Instant}

/-- A request that the record lets through may still be in the last second of the pause. -/
theorem lt_of_remainingSecs_eq_none {last : Instant} (free : (ofStreak fs).remainingSecs t = none)
    (here : fs.getLast? = some last) : pauseEnd fs last - seconds 1 < t := by
  unfold ExplorerBackoff.remainingSecs ofStreak at free
  rw [here] at free
  simp only [Option.map_some] at free
  split at free
  · cases free
  · next small =>
    have below : (pauseEnd fs last - t).tdiv 1000000000 < 1 :=
      Int.lt_add_one_of_le (Int.not_lt.1 small)
    have left : pauseEnd fs last - t < seconds 1 := Int.lt_mul_of_tdiv_lt (by decide) below
    exact Int.sub_right_lt_of_lt_add (Int.lt_add_of_sub_left_lt left)

/-- A request that the record refuses is within the pause from the failure written down last. -/
theorem lt_pauseEnd_of_remainingSecs {secs : Int}
    (left : (ofStreak fs).remainingSecs t = some secs) :
    ∃ last, fs.getLast? = some last ∧ t < pauseEnd fs last := by
  unfold ExplorerBackoff.remainingSecs ofStreak at left
  cases here : fs.getLast? with
  | none =>
    rw [here] at left
    cases left
  | some last =>
    refine ⟨last, rfl, ?_⟩
    rw [here] at left
    simp only [Option.map_some] at left
    split at left
    · next more =>
      apply lt_of_not_ge
      intro past
      have none_left : (pauseEnd fs last - t).tdiv 1000000000 ≤ (0 : Int).tdiv 1000000000 :=
        Int.tdiv_le_tdiv (by decide) (Int.sub_nonpos_of_le past)
      exact absurd more (Int.not_lt.2 none_left)
    · cases left

end Remaining

/-! ## §3 The failures of a run -/

/-- A request for the estimate of a vault, with the time its caller goes by. -/
structure MaturityRequest where
  row : VaultRow
  now : Instant

/-- The requests of the process, any number of them under way at once. -/
def scans (S : Server) :
    System Action Action.Response ApiError (Except BlockingErr UnlockEstimate) World Oracle Drift
      MaturityRequest where
  program q := unlockEstimateWithCache S q.row q.now
  mayStart _ _ := true
  perform := Action.perform
  drift := Drift.apply
  restart := World.restart

abbrev ScanStep :=
  Step Action Action.Response ApiError (Except BlockingErr UnlockEstimate) World Drift
    MaturityRequest

abbrev ScanTrace := List ScanStep

/-- What is written down about a scan. -/
inductive Entry where
  | failed (t : Instant)
  | answered
  deriving DecidableEq

def entryOf : Action → Option Entry
  | .explorerFailed t => some (.failed t)
  | .explorerAnswered => some .answered
  | _ => none

/-- What a thread has written down. -/
def entries (h : Hist) : List Entry := h.filterMap fun e => entryOf e.action

/-- The failures in a row, after one more entry: an answer ends the row. -/
def afterEntry (fs : List Instant) : Option Entry → List Instant
  | some (.failed t) => fs ++ [t]
  | some .answered => []
  | none => fs

/-- The same after a step. The record is in memory, so a halt of the process ends the row too. -/
def afterStep (fs : List Instant) (s : ScanStep) : List Instant :=
  match s.label with
  | .acted _ e => afterEntry fs (entryOf e.action)
  | .halted => []
  | _ => fs

/-- The explorer's failures in a row by the end of a trace, in the order they were written down. -/
def streak (tr : ScanTrace) : List Instant := tr.foldl afterStep []

theorem streak_succ {tr : ScanTrace} {k : Nat} {s : ScanStep} (at_k : tr[k]? = some s) :
    streak (tr.take (k + 1)) = afterStep (streak (tr.take k)) s := by
  unfold streak
  rw [take_succ_at at_k, List.foldl_append, List.foldl_cons, List.foldl_nil]

/-- An action leaves the record of the row as it is after the action's entry. -/
theorem backoff_perform {fs : List Instant} {w : World} (a : Action) (o : Oracle)
    (before : w.backoff = ofStreak fs) :
    (a.perform o w).2.backoff = ofStreak (afterEntry fs (entryOf a)) := by
  cases a with
  | explorerFailed t =>
    show w.backoff.recordFailure t = ofStreak (fs ++ [t])
    rw [before, recordFailure_ofStreak]
  | explorerAnswered => rfl
  | exec st =>
    simp only [Action.perform]
    split
    · exact before
    · split <;> exact before
  | payCheckin paymentHash t =>
    simp only [Action.perform]
    split <;> exact before
  | payPanic paymentHash t =>
    simp only [Action.perform]
    split <;> exact before
  | ask x =>
    simp only [Action.perform, External.effect]
    split <;> exact before
  | _ => exact before

section Runs

variable {S : Server} {w : World} {tr : ScanTrace} {k : Nat} {s : ScanStep}
variable {c : Config Action Action.Response ApiError (Except BlockingErr UnlockEstimate) World
  MaturityRequest}

/-- In every run the record is that of the failures in a row. -/
theorem backoff_before (run : Run (scans S) (System.boot w) tr c) (fresh : w.backoff = .default)
    (at_k : tr[k]? = some s) : s.before.backoff = ofStreak (streak (tr.take k)) := by
  refine ((run.invariant_at (P := fun n w => w.backoff = ofStreak (streak (tr.take n))) ?_
    fun n t at_n explained before => ?_).1 k s at_k).1
  · rw [List.take_zero]
    exact fresh
  · rw [streak_succ at_n]
    unfold afterStep
    unfold System.Explains at explained
    split at explained
    · next i e label =>
      obtain ⟨o, answer⟩ := explained
      have after : (e.action.perform o t.before).2 = t.after := congrArg Prod.snd answer
      rw [label, ← after]
      exact backoff_perform e.action o before
    · next d label =>
      rw [label, explained]
      cases d <;> exact before
    · next label =>
      rw [label, explained]
      rfl
    · next acted drifted halted =>
      split
      · next i e label => exact absurd label (acted i e)
      · next label => exact absurd label halted
      · rw [explained]
        exact before

end Runs

/-! ## §4 What one request does -/

/-- The configuration the estimate of a row is scanned with. -/
def scanConfig (r : VaultRow) (network : Network) : VaultConfig :=
  { vaultConfig r network .watchonly with label := none }

/-- The row's network, descriptors and wallet are in order, so that the request, once it is let
through, asks the explorer. -/
def Sends (S : Server) (q : MaturityRequest) : Prop :=
  ∃ network urls wallet,
    parseNetwork q.row.settings.network = .ok network ∧ S.esploraUrls network = .ok urls ∧
      S.wallet.fromConfig (scanConfig q.row network) = .ok () ∧
        S.wallet.buildWatchOnly (scanConfig q.row network) = .ok wallet

/-- The request was let through and has done nothing since. -/
def letThrough (t : Instant) : Hist := [⟨.explorerPause t, none⟩]

/-- The request has asked the explorer and was answered. -/
def scanned (t : Instant) (urls : List String) (ext int : String)
    (answer : Except BlockingErr Scan) : Hist :=
  [⟨.explorerPause t, none⟩, ⟨.ask (.fullScan urls ext int), answer⟩]

/-- The explorer has failed the request: a scan failed, or no explorer is set up for the network. -/
inductive ExplorerFailed (S : Server) (q : MaturityRequest) : Hist → Prop
  | missing {network : Network} {e : String} :
      parseNetwork q.row.settings.network = .ok network → S.esploraUrls network = .error e →
        ExplorerFailed S q (letThrough q.now)
  | scan {urls : List String} {ext int e : String} :
      ExplorerFailed S q (scanned q.now urls ext int (.error (.esplora e)))

/-- What a request does next, by what it has done. -/
inductive Books (S : Server) (q : MaturityRequest) : Hist → Ev → Prop
  | check {r : Option Int} : Books S q [] ⟨.explorerPause q.now, r⟩
  | scan {urls : List String} {ext int : String} {answer : Except BlockingErr Scan} :
      Sends S q → Books S q (letThrough q.now) ⟨.ask (.fullScan urls ext int), answer⟩
  | failed {h : Hist} {r : Unit} : ExplorerFailed S q h → Books S q h ⟨.explorerFailed q.now, r⟩
  | answered {urls : List String} {ext int : String} {scan : Scan} {r : Unit} :
      Books S q (scanned q.now urls ext int (.ok scan)) ⟨.explorerAnswered, r⟩
  | cached {h : Hist} {st : Stmt} {r : Except DbError Nat} : Books S q h ⟨.exec st, r⟩

def asksExplorer : Action → Bool
  | .ask (.fullScan ..) => true
  | _ => false

/-- What a request with that history and result has to write down: the explorer's failure at the
request's own time, a scan that went well, and nothing about anything else. -/
def due (q : MaturityRequest) (h : Hist) : Except BlockingErr UnlockEstimate → List Entry
  | .error (.esplora _) => [.failed q.now]
  | .error _ => []
  | .ok _ => if h.any fun e => asksExplorer e.action then [.answered] else []

/-- A request always comes to a result, and has written down what is due by then. -/
def Settled (q : MaturityRequest) (h : Hist)
    (result : Except ApiError (Except BlockingErr UnlockEstimate)) : Prop :=
  ∃ r, result = .ok r ∧ entries h = due q h r

section Requests

variable {S : Server} {q : MaturityRequest}

/-- What a scan came to, by the history it leaves. -/
inductive CameTo (S : Server) (q : MaturityRequest) : Hist → Except BlockingErr UnlockEstimate → Prop
  | missing {network : Network} {e : String} :
      parseNetwork q.row.settings.network = .ok network → S.esploraUrls network = .error e →
        CameTo S q (letThrough q.now) (.error (.esplora e))
  | unscannable {e : String} : CameTo S q (letThrough q.now) (.error (.vault e))
  | refused {urls : List String} {ext int : String} {e : BlockingErr} :
      CameTo S q (scanned q.now urls ext int (.error e)) (.error e)
  | unusable {urls : List String} {ext int e : String} {scan : Scan} :
      CameTo S q (scanned q.now urls ext int (.ok scan)) (.error (.vault e))
  | estimated {urls : List String} {ext int : String} {scan : Scan} {est : UnlockEstimate} :
      CameTo S q (scanned q.now urls ext int (.ok scan)) (.ok est)

theorem cameTo_scanUnlockEstimate {network : Network}
    (known : parseNetwork q.row.settings.network = .ok network) :
    Meets (Books S q) (fun g result => ∃ r, result = .ok r ∧ CameTo S q g r)
      (scanUnlockEstimate S q.row network) (letThrough q.now) := by
  unfold scanUnlockEstimate
  split
  · next e missing => exact ⟨_, rfl, .missing known missing⟩
  · next urls found =>
    dsimp only
    split
    · exact ⟨_, rfl, .unscannable⟩
    · next config =>
      split
      · exact ⟨_, rfl, .unscannable⟩
      · next wallet built =>
        intro answer
        refine ⟨.scan ⟨network, urls, wallet, known, found, config, built⟩, ?_⟩
        cases answer with
        | error e => exact ⟨_, rfl, .refused⟩
        | ok scan =>
          dsimp only [Program.bind]
          split
          · exact ⟨_, rfl, .unusable⟩
          · exact ⟨_, rfl, .estimated⟩

/-- What one request does, and what it has written down in the end. -/
theorem books (S : Server) (q : MaturityRequest) :
    Meets (Books S q) (Settled q) ((scans S).program q) [] := by
  show Meets _ _ (unlockEstimateWithCache S q.row q.now) []
  unfold unlockEstimateWithCache
  split
  · exact ⟨_, rfl, rfl⟩
  · split
    · exact ⟨_, rfl, rfl⟩
    -- past the cache the pause is asked for, then the scan
    · next network known =>
      intro pause
      refine ⟨.check, ?_⟩
      cases pause with
      | some secs => exact ⟨_, rfl, rfl⟩
      | none =>
        change Meets _ _ ((scanUnlockEstimate S q.row network).bind _) (letThrough q.now)
        refine Meets.bind (cameTo_scanUnlockEstimate known) (fun g r _ came => ?_)
          fun g e _ came => ?_
        rotate_left
        · obtain ⟨r, eq, _⟩ := came
          cases eq
        obtain ⟨r', same, came⟩ := came
        cases same
        cases came with
        | missing known missing =>
          exact fun _ => ⟨.failed (.missing known missing), _, rfl, rfl⟩
        | unscannable => exact ⟨_, rfl, rfl⟩
        | @refused urls ext int e =>
          cases e with
          | esplora e => exact fun _ => ⟨.failed .scan, _, rfl, rfl⟩
          | _ => exact ⟨_, rfl, rfl⟩
        | unusable => exact ⟨_, rfl, rfl⟩
        | estimated =>
          refine fun _ => ⟨.answered, fun cached => ⟨.cached, ?_⟩⟩
          cases cached <;> exact ⟨_, rfl, rfl⟩

end Requests

/-! ## §5 The pause in every run -/

/-- After failures in a row nothing is scanned until the pause is over, which takes ten minutes at
most; only the explorer's own failures make up the row, each at the time of its request, and only a
scan that went well ends it. -/
structure PauseLaw (S : Server) (tr : ScanTrace) : Prop where
  sent : ∀ (k : Nat) s i q urls ext int answer, tr[k]? = some s →
    s.label = .acted i ⟨.ask (.fullScan urls ext int), answer⟩ → Started i q tr →
      ¬ Paused (streak (tr.take k)) q.now
  refused : ∀ (k : Nat) s i t secs, tr[k]? = some s →
    s.label = .acted i ⟨.explorerPause t, some secs⟩ →
      ∃ last, (streak (tr.take k)).getLast? = some last ∧
        t < pauseEnd (streak (tr.take k)) last ∧ t < last + seconds 600
  failed : ∀ (k : Nat) s i t r, tr[k]? = some s → s.label = .acted i ⟨.explorerFailed t, r⟩ →
    ∃ q, Started i q tr ∧ t = q.now ∧ ExplorerFailed S q (history i k tr)
  answered : ∀ (k : Nat) s i r, tr[k]? = some s → s.label = .acted i ⟨.explorerAnswered, r⟩ →
    ∃ q urls ext int scan, Started i q tr ∧
      history i k tr = scanned q.now urls ext int (.ok scan)
  returned : ∀ (k : Nat) s i q result, tr[k]? = some s → s.label = .returned i result →
    Started i q tr → Settled q (history i k tr) result

/-- The thread `j` was let through for `q` before the step `k`, and is about to scan. -/
structure Waiting (S : Server) (tr : ScanTrace) (k j : Nat) (q : MaturityRequest) : Prop where
  started : Started j q (tr.take k)
  idle : history j k tr = letThrough q.now
  running : ¬ Ended j (tr.take k)
  sends : Sends S q

/-- No request falls into what the record leaves out. -/
structure Steady (S : Server) (tr : ScanTrace) : Prop where
  /-- A request that looks the record up later than a second before the end of the pause that was
  written down last is past the pause of every failure of the row. -/
  onTime : ∀ (k : Nat) s i q r last, tr[k]? = some s →
    s.label = .acted i ⟨.explorerPause q.now, r⟩ → Started i q (tr.take k) → Sends S q →
      (streak (tr.take k)).getLast? = some last →
        pauseEnd (streak (tr.take k)) last - seconds 1 < q.now →
          ¬ Paused (streak (tr.take k)) q.now
  /-- When a failure is written down, no other request that was let through before and is still to
  scan is in the pause this makes. -/
  calm : ∀ (k : Nat) s i t r j q, tr[k]? = some s → s.label = .acted i ⟨.explorerFailed t, r⟩ →
    j ≠ i → Waiting S tr k j q → ¬ Paused (streak (tr.take k) ++ [t]) q.now

section Law

variable {S : Server} {w : World} {tr : ScanTrace} {k : Nat} {s : ScanStep} {i : Nat}
variable {q : MaturityRequest}
variable {c : Config Action Action.Response ApiError (Except BlockingErr UnlockEstimate) World
  MaturityRequest}

/-- What a thread writes down, asks or looks up is what its request does next. -/
theorem books_at (run : Run (scans S) (System.boot w) tr c) (at_k : tr[k]? = some s) {e : Ev}
    (label : s.label = .acted i e) :
    ∃ q, Started i q (tr.take k) ∧ Books S q (history i k tr) e :=
  Run.acted_at (I := Books S) (F := Settled) (books S) run at_k label

/-- The record answers a look-up by the failures in a row. -/
theorem looked_up (run : Run (scans S) (System.boot w) tr c) (fresh : w.backoff = .default)
    (at_k : tr[k]? = some s) {t : Instant} {r : Option Int}
    (label : s.label = .acted i ⟨.explorerPause t, r⟩) :
    (ofStreak (streak (tr.take k))).remainingSecs t = r := by
  have explained := run.explains_at at_k
  unfold System.Explains at explained
  rw [label] at explained
  obtain ⟨o, answer⟩ := explained
  rw [← backoff_before run fresh at_k]
  exact congrArg Prod.fst answer

/-- A request that is let through in a steady run is not in the pause then. -/
theorem not_paused_of_letThrough (run : Run (scans S) (System.boot w) tr c)
    (fresh : w.backoff = .default) (steady : Steady S tr) (at_k : tr[k]? = some s)
    (label : s.label = .acted i ⟨.explorerPause q.now, none⟩) (started : Started i q (tr.take k))
    (sends : Sends S q) : ¬ Paused (streak (tr.take k)) q.now := by
  have free := looked_up run fresh at_k label
  cases here : (streak (tr.take k)).getLast? with
  | none =>
    rw [List.getLast?_eq_none_iff] at here
    rw [here]
    exact not_paused_nil q.now
  | some last =>
    exact steady.onTime k s i q none last at_k label started sends here
      (lt_of_remainingSecs_eq_none free here)

/-- One step of a steady run does not bring a request that waits into the pause. -/
theorem not_paused_succ (steady : Steady S tr) (at_k : tr[k]? = some s)
    (waiting : Waiting S tr k i q) (still : history i (k + 1) tr = history i k tr)
    (free : ¬ Paused (streak (tr.take k)) q.now) : ¬ Paused (streak (tr.take (k + 1))) q.now := by
  rw [streak_succ at_k]
  unfold afterStep
  split
  · next j e label =>
    obtain ⟨a, r⟩ := e
    cases a with
    | explorerFailed t =>
      refine steady.calm k s j t r i q at_k label ?_ waiting
      rintro rfl
      rw [history_succ at_k label] at still
      exact absurd still (by simp)
    | explorerAnswered => exact not_paused_nil q.now
    | _ => exact free
  · exact not_paused_nil q.now
  · exact free

/-- A thread that was let through and has done no more by `k` had done no more before. -/
theorem idle_since {m n : Nat} {u : ScanStep} {t : Instant} (at_m : tr[m]? = some u)
    (looked : u.label = .acted i ⟨.explorerPause t, none⟩) (whole : history i k tr = letThrough t)
    (since : m + 1 ≤ n) (le : n ≤ k) : history i n tr = letThrough t := by
  have first : 1 ≤ (history i n tr).length := by
    have grown : (history i (m + 1) tr).length ≤ (history i n tr).length :=
      (history_mono since).length_le
    rw [history_succ at_m looked, List.length_append] at grown
    exact Nat.le_trans (Nat.le_add_left 1 _) grown
  have pre : history i n tr <+: letThrough t := whole ▸ history_mono le
  exact pre.eq_of_length_le first

/-- From the look-up to the scan, a request of a steady run stays out of the pause. -/
theorem not_paused_of_sent (run : Run (scans S) (System.boot w) tr c) (fresh : w.backoff = .default)
    (steady : Steady S tr) {urls : List String} {ext int : String}
    {answer : Except BlockingErr Scan} (at_k : tr[k]? = some s)
    (label : s.label = .acted i ⟨.ask (.fullScan urls ext int), answer⟩)
    (started : Started i q tr) : ¬ Paused (streak (tr.take k)) q.now := by
  obtain ⟨q', started', does⟩ := books_at run at_k label
  have same : q' = q := run.started_unique started'.of_take started
  subst same
  generalize whole : history i k tr = h at does
  cases does with
  | scan sends =>
    have whole' : history i k tr = [] ++ ⟨.explorerPause q'.now, none⟩ :: [] := whole
    obtain ⟨m, u, before, at_m, looked, -⟩ := history_split whole'
    have early : Started i q' (tr.take m) := by
      obtain ⟨q, early, -⟩ := books_at run at_m looked
      exact run.started_unique early.of_take started ▸ early
    -- by induction on the steps since the look-up, at each of which the request waits
    have wait : ∀ n, m + 1 ≤ n → n ≤ k → ¬ Paused (streak (tr.take n)) q'.now := by
      intro n since
      induction n, since using Nat.le_induction with
      | base =>
        intro _
        have free := not_paused_of_letThrough run fresh steady at_m looked early sends
        rw [streak_succ at_m]
        unfold afterStep
        rw [looked]
        exact free
      | succ n since ih =>
        intro le
        have inside : n < tr.length :=
          Nat.lt_trans (Nat.lt_of_succ_le le) (List.getElem?_eq_some_iff.1 at_k).1
        have idle := idle_since at_m looked whole since (Nat.le_of_succ_le le)
        have idle' := idle_since at_m looked whole (Nat.le_succ_of_le since) le
        have running : ¬ Ended i (tr.take n) := fun ended =>
          (run.silent_at at_k (Nat.le_of_succ_le le) ended).1 _ label
        exact not_paused_succ steady (List.getElem?_eq_getElem inside)
          ⟨early.later (Nat.le_of_succ_le since), idle, running, sends⟩ (idle'.trans idle.symm)
          (ih (Nat.le_of_succ_le le))
    exact wait k before (Nat.le_refl k)

/-- In a run whose requests do not fall into what the record leaves out, the pause holds. -/
theorem pauseLaw_of_steady (run : Run (scans S) (System.boot w) tr c) (fresh : w.backoff = .default)
    (steady : Steady S tr) : PauseLaw S tr where
  sent k s i q urls ext int answer at_k label started :=
    not_paused_of_sent run fresh steady at_k label started
  refused k s i t secs at_k label := by
    obtain ⟨last, here, early⟩ :=
      lt_pauseEnd_of_remainingSecs (looked_up run fresh at_k label)
    exact ⟨last, here, early, lt_of_lt_of_le early (pauseEnd_le _ last)⟩
  failed k s i t r at_k label := by
    obtain ⟨q, started, does⟩ := books_at run at_k label
    generalize whole : history i k tr = h at does
    cases does with
    | failed explorer => exact ⟨q, started.of_take, rfl, explorer⟩
  answered k s i r at_k label := by
    obtain ⟨q, started, does⟩ := books_at run at_k label
    generalize whole : history i k tr = h at does
    cases does with
    | answered => exact ⟨q, _, _, _, _, started.of_take, rfl⟩
  returned k s i q result at_k label started := by
    obtain ⟨q', started', settled⟩ :=
      Run.returned_at (I := Books S) (F := Settled) (books S) run at_k label
    exact run.started_unique started'.of_take started ▸ settled

end Law

/-! ## §6 Two requests at once -/

section Burst

open Deployment

/-- A request for the vault `v` at `secs` seconds. -/
def askedAt (secs : Int) : MaturityRequest := ⟨Balance.scanned, seconds secs⟩

/-- The explorer turns every scan away. -/
def limited : Oracle :=
  ⟨false, fun
    | .fullScan .. => .error (.esplora "429")
    | x => (oracle "" []).answer x⟩

def scanSteps (i n : Nat) (o : Oracle) : List (Move Oracle Drift MaturityRequest) :=
  List.replicate n (.step i o)

/-- A scan fails at 0; a request at 30 seconds is refused, and one at a minute scans again. -/
def oneByOne : List (Move Oracle Drift MaturityRequest) :=
  [.start (askedAt 0)] ++ scanSteps 0 4 limited ++ [.start (askedAt 30)] ++ scanSteps 1 2 limited ++
    [.start (askedAt 60)] ++ scanSteps 2 5 (oracle "" [])

/-- Two requests at 0 are let through; the first one's scan fails, and then the second one scans. -/
def burst : List (Move Oracle Drift MaturityRequest) :=
  [.start (askedAt 0), .start (askedAt 0)] ++ scanSteps 0 1 limited ++ scanSteps 1 1 limited ++
    scanSteps 0 2 limited ++ scanSteps 1 1 limited

/-- Whether the step sends the scan of thread `i`. -/
def scansIn (i : Nat) (s : ScanStep) : Bool :=
  match s.label with
  | .acted j ⟨.ask (.fullScan _ _ _), _⟩ => i = j
  | _ => false

/-- Whether thread `i` is started in the step for the time `t`. -/
def startsAt (i : Nat) (t : Instant) (s : ScanStep) : Bool :=
  match s.label with
  | .started j q => i = j && q.now = t
  | _ => false

/-- Whether the step is in order where it stands in `tr`: a look-up late in the pause, or a failure
with no other request around. -/
def steadyAt (tr : ScanTrace) (p : ScanStep × Nat) : Bool :=
  match p.1.label with
  | .acted _ ⟨.explorerPause t, _⟩ => !decide (Paused (streak (tr.take p.2)) t) ||
      (streak (tr.take p.2)).getLast?.all fun last =>
        t ≤ pauseEnd (streak (tr.take p.2)) last - seconds 1
  | .acted i ⟨.explorerFailed _, _⟩ => (tr.take p.2).all fun s =>
      match s.label with
      | .started j _ => i = j
      | _ => true
  | _ => true

theorem steady_of_check {S : Server} {tr : ScanTrace}
    (check : tr.zipIdx.all (steadyAt tr) = true) : Steady S tr := by
  have inOrder : ∀ (k : Nat) s, tr[k]? = some s → steadyAt tr (s, k) = true := fun k s at_k =>
    List.all_eq_true.1 check (s, k) (List.mk_mem_zipIdx_iff_getElem?.2 at_k)
  constructor
  · intro k s i q r last at_k label _ _ here late
    have ok := inOrder k s at_k
    unfold steadyAt at ok
    rw [show s.label = _ from label, here] at ok
    simp only [Option.all_some, Bool.or_eq_true, Bool.not_eq_true', decide_eq_false_iff_not,
      decide_eq_true_eq] at ok
    exact ok.resolve_right (not_le_of_gt late)
  · intro k s i t r j q at_k label other waiting
    have ok := inOrder k s at_k
    unfold steadyAt at ok
    rw [show s.label = _ from label] at ok
    obtain ⟨u, mem, started⟩ := waiting.started
    have alone := List.all_eq_true.1 ok u mem
    rw [show u.label = _ from started] at alone
    exact absurd (of_decide_eq_true alone).symm other

/-- A played run with a property the kernel computes is a run of the requests. -/
theorem exists_played (ms : List (Move Oracle Drift MaturityRequest)) (P : ScanTrace → Bool)
    (check : (((scans (host 0)).play ms (System.boot (Balance.holding []))).any
      fun r => P r.1) = true) :
    ∃ tr c, Run (scans (host 0)) (System.boot (Balance.holding [])) tr c ∧ P tr = true :=
  Run.exists_of_play (P := fun tr _ => P tr) check

/-- The pause holds where one request comes after another. -/
theorem pauseLaw_oneByOne : ∃ tr c, Run (scans (host 0)) (System.boot (Balance.holding [])) tr c ∧
    streak (tr.take 4) = [0] ∧ tr[10]?.any (scansIn 2) = true ∧ PauseLaw (host 0) tr := by
  obtain ⟨tr, c, run, check⟩ := exists_played oneByOne
    (fun tr => decide (streak (tr.take 4) = [0]) && tr[10]?.any (scansIn 2) &&
      tr.zipIdx.all (steadyAt tr)) (by decide +kernel)
  simp only [Bool.and_eq_true, decide_eq_true_eq] at check
  obtain ⟨⟨failed, sent⟩, steady⟩ := check
  exact ⟨tr, c, run, failed, sent, pauseLaw_of_steady run rfl (steady_of_check steady)⟩

/-- The second request of a burst scans right after the first one's failure. -/
theorem not_pauseLaw : ¬ ∀ (S : Server) (w : World) (tr : ScanTrace) c,
    Run (scans S) (System.boot w) tr c → w.backoff = .default → PauseLaw S tr := by
  intro law
  obtain ⟨tr, c, run, check⟩ := exists_played burst
    (fun tr => tr[1]?.any (startsAt 1 0) && tr[6]?.any (scansIn 1) &&
      decide (Paused (streak (tr.take 6)) 0)) (by decide +kernel)
  simp only [Bool.and_eq_true, Option.any_eq_true, decide_eq_true_eq] at check
  obtain ⟨⟨⟨a, at_1, started⟩, s, at_6, sent⟩, paused⟩ := check
  unfold startsAt at started
  unfold scansIn at sent
  split at started
  · next j q start =>
    split at sent
    · next i urls ext int answer asked =>
      simp only [Bool.and_eq_true, decide_eq_true_eq] at started sent
      obtain ⟨rfl, now⟩ := started
      subst sent
      refine (law (host 0) _ tr c run rfl).sent 6 s 1 q urls ext int answer at_6 asked
        ⟨a, List.mem_of_getElem? at_1, start⟩ ?_
      rw [now]
      exact paused
    · cases sent
  · cases started

end Burst

end Backoff

end GhostKey

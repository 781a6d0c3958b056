import GhostKey.Deployment
import GhostKey.Rows

/-!
# The Trigger and Its Links

The trigger opens a claim with a compare-and-swap, then records the opening and
mails the links whatever came of it. The token of a Door A vault is the one at
rest, but the hash it is stored under is the one the batch read, if there was one.

Main results:
- `linksFollowMoves_of_openingsTake`: if every opening UPDATE meets its row and
  carries the hash of its token, every link and event follows a move of this tick.
- `triggersAgree_iff_selectedAgrees`: the stored hash is the hash of the mailed
  token exactly when the SELECTed one was, or was missing.
-/

namespace GhostKey

open Foundation

/-! ## §1 Opening steps -/

/-- The thread `i` runs at `k` the UPDATE that opens the claim of `r`, a row of a
batch it has read, with `n` rows affected. -/
structure TriggerStep (S : Server) (tr : Trace) (i k : Nat) (r : VaultRow) (token : Token)
    (hash : Hash) (reused : Bool) (n : Nat) : Prop where
  due : ∃ nowIso, DueClaim (history i k tr) nowIso r
  trigger : TriggerToken S r token hash reused
  ran : ∃ s nowIso, tr[k]? = some s ∧
    Did i (.exec (.updateVault r.id (triggerUpdate hash reused nowIso))) (.ok n) s

/-- A step of the thread `i` before `k` moved `v` from `alarmed` to
`timelock_started` and stored the hash of `token`. -/
def Moved (S : Server) (tr : Trace) (i k : Nat) (v : VaultId) (token : Token) : Prop :=
  ∃ (j : Nat) (t : SrvStep) (u : VaultUpdate) (r₀ r₁ : VaultRow), j < k ∧ tr[j]? = some t ∧
    Did i (.exec (.updateVault v u)) (.ok 1) t ∧ t.before.vault? v = some r₀ ∧
    r₀.life.status = .alarmed ∧ t.after.vault? v = some r₁ ∧
    r₁.life.status = .timelockStarted ∧ r₁.life.claimTokenHash = some (S.hashClaimToken token)

/-- Every claim link, and every opening a tick records, follows its own move. -/
structure LinksFollowMoves (S : Server) (tr : Trace) : Prop where
  links : ∀ (k : Nat) s i nt n, tr[k]? = some s →
    Did i (.exec (.insertNotification nt)) (.ok n) s → nt.kind = .claimLink →
    ∃ token, Moved S tr i k nt.vaultId token ∧
      ClaimLinkFor S (history i k tr) nt.vaultId token nt.link
  events : ∀ (k : Nat) s i ev n, tr[k]? = some s → Did i (.exec (.insertEvent ev)) (.ok n) s →
    ev.kind = .claimIssued → Started i .schedulerTick (tr.take k) →
    ∃ token, Moved S tr i k ev.vaultId token ∧
      ("token_hash", .str (S.hashClaimToken token)) ∈ ev.detail

/-- The hash the batch read is the one of the token, or there was none. -/
def SelectedAgrees (S : Server) (r : VaultRow) (token : Token) : Prop :=
  r.life.claimTokenHash = none ∨ r.life.claimTokenHash = some (S.hashClaimToken token)

/-- Every opening UPDATE meets its row, and with the hash of its token. -/
def OpeningsTake (S : Server) (tr : Trace) : Prop :=
  ∀ i k r token hash reused n, TriggerStep S tr i k r token hash reused n →
    ∀ s, tr[k]? = some s →
    (∃ r₀, s.before.vault? r.id = some r₀ ∧ r₀.life.status = .alarmed ∧
      (reused = false → r₀.life.claimTokenHash = none)) ∧
    (reused = true → SelectedAgrees S r token)

section Tokens

variable {S : Server} {r r₀ : VaultRow} {token : Token} {hash : Hash} {reused : Bool}
  {nowIso : Instant}

/-- The stored hash is the token's exactly when the SELECTed one does not disagree. -/
theorem hash_eq_iff (trigger : TriggerToken S r token hash true) :
    hash = S.hashClaimToken token ↔ SelectedAgrees S r token := by
  obtain ⟨stored, -, -, rfl⟩ := trigger
  unfold SelectedAgrees
  cases r.life.claimTokenHash with
  | none => simp
  | some h => simp

theorem triggerUpdate_guard (alarmed : r₀.life.status = .alarmed)
    (unused : reused = false → r₀.life.claimTokenHash = none) :
    (triggerUpdate hash reused nowIso).guard r₀ = true := by
  cases reused with
  | true => simp [triggerUpdate, VaultUpdate.guard, alarmed]
  | false => simp [triggerUpdate, VaultUpdate.guard, alarmed, unused rfl]

theorem alarmed_of_guard (guard : (triggerUpdate hash reused nowIso).guard r₀ = true) :
    r₀.life.status = .alarmed := by
  cases reused <;> simp [triggerUpdate, VaultUpdate.guard] at guard
  · exact guard.1
  · exact guard

@[simp] theorem triggerUpdate_setLife (l : Lifecycle) :
    (triggerUpdate hash reused nowIso).setLife l = VaultUpdate.openClaimLife hash nowIso l := by
  cases reused <;> rfl

end Tokens

section Runs

variable {S : Server} {t₀ : Instant} {tr : Trace} {s : SrvStep} {k i : Nat} {r : VaultRow}
  {token : Token} {hash : Hash} {reused : Bool} {n : Nat}

/-- An opening that a thread remembers is a step of it. -/
theorem triggerStep_of_openedClaim (opened : OpenedClaim S (history i k tr) r token hash n) :
    ∃ j reused, j < k ∧ TriggerStep S tr i j r token hash reused n := by
  obtain ⟨h₁, h₂, nowIso, reused, whole, due, trigger⟩ := opened
  obtain ⟨j, s, before, at_j, did, past⟩ := history_split whole
  exact ⟨j, reused, before, ⟨nowIso, past ▸ due⟩, trigger, s, nowIso, at_j, did⟩

/-- An opening UPDATE that meets its row moves it. -/
theorem TriggerStep.moved (runs : Runs S t₀ tr) (take : OpeningsTake S tr) {j : Nat}
    (step : TriggerStep S tr i j r token hash reused n) (lt : j < k) :
    Moved S tr i k r.id token ∧ hash = S.hashClaimToken token := by
  obtain ⟨s, nowIso, at_j, did⟩ := step.ran
  obtain ⟨⟨r₀, row, alarmed, unused⟩, agrees⟩ := take i j r token hash reused n step s at_j
  have own : hash = S.hashClaimToken token := by
    cases reused with
    | true => exact (hash_eq_iff step.trigger).2 (agrees rfl)
    | false => exact step.trigger.2
  have guard : (triggerUpdate hash reused nowIso).guard r₀ = true :=
    triggerUpdate_guard alarmed unused
  obtain ⟨rfl, after⟩ := did_update_hit (runs.explains_at at_j) did row guard
  refine ⟨⟨j, s, _, r₀, _, lt, at_j, did, row, alarmed, after, ?_, ?_⟩, own⟩
  · simp [VaultUpdate.openClaimLife]
  · simp [VaultUpdate.openClaimLife, own]

/-- Links and events follow the tick's own moves, if its openings take. -/
theorem linksFollowMoves_of_openingsTake (runs : Runs S t₀ tr) (take : OpeningsTake S tr) :
    LinksFollowMoves S tr where
  links k s i nt n at_k did link := by
    obtain ⟨q, -, just⟩ := runs.justified at_k did
    obtain ⟨-, r, token, hash, m, id, opened, for_⟩ := just link
    obtain ⟨j, reused, lt, step⟩ := triggerStep_of_openedClaim opened
    rw [id] at for_
    exact ⟨token, id ▸ (step.moved runs take lt).1, for_⟩
  events k s i ev n at_k did issued started := by
    obtain ⟨q, started', just⟩ := runs.justified at_k did
    obtain ⟨c, run⟩ := id runs
    have tick : q = .schedulerTick := by
      obtain ⟨c', first⟩ := run.take k
      exact first.started_unique started' started
    rcases just issued with own | ⟨-, r, token, hash, m, id, opened, detail⟩
    · rw [tick] at own
      cases own
    · obtain ⟨j, reused, lt, step⟩ := triggerStep_of_openedClaim opened
      obtain ⟨moved, same⟩ := step.moved runs take lt
      exact ⟨token, id ▸ moved, same ▸ detail⟩

end Runs

/-! ## §2 The token of a Door A vault -/

/-- Each time a tick moves a Door A vault, its own token is stored, as the hash of
what was sealed at creation, and is what the tick mails for it from then on. -/
def TriggersAgree (S : Server) (tr : Trace) : Prop :=
  ∀ (i k : Nat) r token hash reused stored s r₀, TriggerStep S tr i k r token hash reused 1 →
    tr[k]? = some s → s.before.vault? r.id = some r₀ → r₀.keys.claimTokenAtRest = some stored →
    S.sealClaimTokenAtRest r.id token = .ok stored ∧
      (∃ r₁, s.after.vault? r.id = some r₁ ∧ r₁.life.status = .timelockStarted ∧
        r₁.life.claimTokenHash = some (S.hashClaimToken token)) ∧
      ∀ (m : Nat) t nt n, k < m → tr[m]? = some t →
        Did i (.exec (.insertNotification nt)) (.ok n) t → nt.kind = .claimLink →
        nt.vaultId = r.id → ClaimLinkFor S (history i m tr) r.id token nt.link

/-- Every Door A row a tick moves was selected with no hash, or with that of the
token at rest. -/
def SelectedHashesAgree (S : Server) (tr : Trace) : Prop :=
  ∀ i k r token hash reused, TriggerStep S tr i k r token hash reused 1 →
    r.keys.claimTokenAtRest ≠ none → SelectedAgrees S r token

section DoorA

variable {S : Server} {t₀ : Instant} {tr : Trace} {s : SrvStep} {k i : Nat} {r r₀ : VaultRow}
  {token : Token} {hash : Hash} {reused : Bool} {n : Nat} {stored : String}

/-- A row of a batch was the row of its vault when the batch was read. -/
theorem Runs.due_at (runs : Runs S t₀ tr) {nowIso : Instant}
    (due : DueClaim (history i k tr) nowIso r) :
    ∃ j t, j < k ∧ tr[j]? = some t ∧ t.before.vault? r.id = some r ∧
      Db.claimEligible nowIso r = true := by
  obtain ⟨rows, read, mem⟩ := due
  obtain ⟨j, t, before, at_j, -, batch⟩ := runs.read_at read
  cases batch
  obtain ⟨row, eligible⟩ := KeyedTable.mem_select.1 mem
  exact ⟨j, t, before, at_j, row, eligible⟩

/-- The token of a Door A row is what its ciphertext opens to. -/
theorem TriggerToken.opens (trigger : TriggerToken S r token hash reused)
    (doorA : r.keys.claimTokenAtRest = some stored) :
    reused = true ∧ S.openClaimTokenAtRest r.id stored = .ok token := by
  cases reused with
  | true =>
    obtain ⟨stored', atRest, opened, -⟩ := trigger
    rw [doorA] at atRest
    cases atRest
    exact ⟨rfl, opened⟩
  | false =>
    obtain ⟨missing, -⟩ := trigger
    rw [doorA] at missing
    cases missing

/-- With fresh ids, the row a tick moves has the keys of the row it selected. -/
theorem TriggerStep.keys (runs : Runs S t₀ tr) (fresh : FreshIds tr)
    (step : TriggerStep S tr i k r token hash reused n) (at_k : tr[k]? = some s)
    (row : s.before.vault? r.id = some r₀) : r.keys = r₀.keys := by
  obtain ⟨nowIso, due⟩ := step.due
  obtain ⟨j, t, -, at_j, row', -⟩ := runs.due_at due
  exact (runs.fixed fresh at_k at_j row row').2

/-- A link a tick mails for a Door A vault carries the token at rest, or a guardian's. -/
theorem Runs.link_carries (runs : Runs S t₀ tr) (fresh : FreshIds tr) {j m : Nat}
    {t u : SrvStep} (at_j : tr[j]? = some t) (row : t.before.vault? r.id = some r)
    (doorA : r.keys.claimTokenAtRest = some stored)
    (opened : S.openClaimTokenAtRest r.id stored = .ok token) (at_m : tr[m]? = some u)
    {nt : NotificationRow} (did : Did i (.exec (.insertNotification nt)) (.ok n) u)
    (link : nt.kind = .claimLink) (here : nt.vaultId = r.id) :
    ClaimLinkFor S (history i m tr) r.id token nt.link := by
  obtain ⟨q, -, just⟩ := runs.justified at_m did
  obtain ⟨-, r₂, token₂, hash₂, n₂, id, opened₂, for_⟩ := just link
  obtain ⟨j₂, reused₂, -, step₂⟩ := triggerStep_of_openedClaim opened₂
  obtain ⟨nowIso, due⟩ := step₂.due
  obtain ⟨j₃, t₃, -, at_j₃, row₃, -⟩ := runs.due_at due
  rw [id, here] at row₃ for_
  have same := (runs.fixed fresh at_j at_j₃ row row₃).2
  obtain ⟨-, opens⟩ := step₂.trigger.opens (show r₂.keys.claimTokenAtRest = some stored by rw [same, doorA])
  rw [id, here, opened] at opens
  cases opens
  exact for_

/-- The stored hash is the hash of the mailed token exactly when the SELECTed one
was, or was missing. -/
theorem triggersAgree_iff_selectedAgrees (lawful : S.Lawful) (runs : Runs S t₀ tr)
    (fresh : FreshIds tr) : TriggersAgree S tr ↔ SelectedHashesAgree S tr := by
  constructor
  -- what the trigger wrote is read back off the row after its step
  · intro agree i k r token hash reused step doorA
    obtain ⟨stored, atRest⟩ := Option.ne_none_iff_exists'.1 doorA
    obtain ⟨s, nowIso, at_k, did⟩ := step.ran
    rcases did_update (runs.explains_at at_k) did with ⟨-, r₀, row, -, after⟩ | ⟨none, -⟩
    · have keys := step.keys runs fresh at_k row
      obtain ⟨-, ⟨r₁, after', -, hashed⟩, -⟩ :=
        agree i k r token hash reused stored s r₀ step at_k row (keys ▸ atRest)
      rw [after] at after'
      cases after'
      obtain ⟨rfl, -⟩ := step.trigger.opens atRest
      refine (hash_eq_iff step.trigger).1 ?_
      simpa [VaultUpdate.openClaimLife] using hashed
    · cases none
  -- the keys of a row never change, so the SELECTed token is the stored one
  · intro selected i k r token hash reused stored s r₀ step at_k row atRest
    have keys := step.keys runs fresh at_k row
    rw [← keys] at atRest
    obtain ⟨rfl, opens⟩ := step.trigger.opens atRest
    have own := (hash_eq_iff step.trigger).2 (selected i k r token hash true step (by simp [atRest]))
    obtain ⟨nowIso, due⟩ := step.due
    obtain ⟨j, t, -, at_j, row', -⟩ := runs.due_at due
    obtain ⟨token', sealed, opens'⟩ := runs.keys_sealed lawful at_j row' atRest
    rw [opens] at opens'
    cases opens'
    obtain ⟨s', nowIso', at_k', did⟩ := step.ran
    rw [at_k] at at_k'
    cases at_k'
    refine ⟨sealed, ?_, fun m u nt n _ at_m did' link here => ?_⟩
    · rcases did_update (runs.explains_at at_k) did with ⟨-, r', -, -, after⟩ | ⟨none, -⟩
      · exact ⟨_, after, by simp [VaultUpdate.openClaimLife], by simp [VaultUpdate.openClaimLife, own]⟩
      · cases none
    · exact runs.link_carries fresh at_j row' atRest opens at_m did' link here

end DoorA

/-! ## §3 A link without a move, and a dead one -/

section Lost

open Deployment

/-- The tick selects an alarmed vault, its owner checks in, and the tick goes on. -/
def checkinBeforeOpening : List (Move Oracle Drift Request) :=
  alarmedDoorA ++ wait 60 ++ [.start .schedulerTick] ++ steps 4 16 (oracle "" [coin]) ++
    [.start (.checkin "v")] ++ steps 5 6 (oracle "" []) ++ steps 4 5 (oracle "" [coin])

/-- The same tick undisturbed. -/
def openedDoorA : List (Move Oracle Drift Request) :=
  alarmedDoorA ++ wait 60 ++ [.start .schedulerTick] ++ steps 4 23 (oracle "" [coin])

/-- A hand-issued token is out when the tick comes round. -/
def issuedBeforeOpening : List (Move Oracle Drift Request) :=
  alarmedDoorA ++ wait 60 ++ [.start (.issueClaim "v")] ++ steps 4 7 (oracle "issued" []) ++
    [.start .schedulerTick] ++ steps 5 23 (oracle "" [coin])

/-- Whether thread `i` queues a claim link for `v`. -/
def mailsLink (i : Nat) (v : VaultId) (s : SrvStep) : Bool :=
  match s.label with
  | .acted j ⟨.exec (.insertNotification nt), .ok 1⟩ => j = i && nt.kind = .claimLink && nt.vaultId = v
  | _ => false

/-- Whether the step moves `v` into its claim phase. -/
def opens (v : VaultId) (s : SrvStep) : Bool :=
  ((s.before.vault? v).any fun r => r.life.status = .alarmed) &&
    (s.after.vault? v).any fun r => r.life.status = .timelockStarted

/-- Mail goes out for a vault whose owner has just checked in. -/
theorem not_linksFollowMoves :
    ¬ ∀ (S : Server) (t₀ : Instant) (tr : Trace), S.Lawful → Runs S t₀ tr → LinksFollowMoves S tr := by
  intro follow
  obtain ⟨tr, runs, check⟩ := runs_of_play (host 86400) checkinBeforeOpening
    (fun tr => tr[88]?.any (mailsLink 4 "v") && tr.all fun s => !opens "v" s) (by decide +kernel)
  simp only [Bool.and_eq_true, Option.any_eq_true] at check
  obtain ⟨⟨s, at_k, mails⟩, never⟩ := check
  unfold mailsLink at mails
  split at mails
  · next j nt label =>
    simp only [Bool.and_eq_true, decide_eq_true_eq] at mails
    obtain ⟨⟨-, link⟩, here⟩ := mails
    obtain ⟨token, ⟨m, t, u, r₀, r₁, -, at_m, -, row, alarmed, after, started, -⟩, -⟩ :=
      (follow _ _ _ (lawful _) runs).links 88 s j nt 1 at_k label link
    have quiet := List.all_eq_true.1 never t (List.mem_of_getElem? at_m)
    rw [here] at row after
    simp [opens, row, alarmed, after, started] at quiet
  · cases mails

/-- Whether an opening UPDATE of this step meets its row, and whether a batch of
this step lists only rows without a hash. -/
def openingTakes (s : SrvStep) : Bool :=
  match s.label with
  | .acted _ ⟨.exec (.updateVault v (.openReused _ _)), _⟩ =>
      (s.before.vault? v).any fun r => r.life.status = .alarmed
  | .acted _ ⟨.exec (.updateVault v (.openFresh _ _)), _⟩ =>
      (s.before.vault? v).any fun r => r.life.status = .alarmed && r.life.claimTokenHash = none
  | .acted _ ⟨.query (.claimEligible _), .ok rows⟩ =>
      rows.all fun r : VaultRow => r.life.claimTokenHash = none
  | _ => true

theorem openingsTake_of_all {S : Server} {tr : Trace} (all : tr.all openingTakes = true) :
    OpeningsTake S tr := by
  intro i k r token hash reused n step s at_k
  obtain ⟨s', nowIso, at_k', did⟩ := step.ran
  rw [at_k] at at_k'
  cases at_k'
  have here := List.all_eq_true.1 all s (List.mem_of_getElem? at_k)
  unfold openingTakes at here
  rw [show s.label = _ from did] at here
  refine ⟨?_, fun _ => .inl ?_⟩
  · cases reused with
    | true =>
      obtain ⟨r₀, row, alarmed⟩ := (Option.any_eq_true _ _).1 here
      exact ⟨r₀, row, by simpa using alarmed, by simp⟩
    | false =>
      obtain ⟨r₀, row, both⟩ := (Option.any_eq_true _ _).1 here
      simp only [Bool.and_eq_true, decide_eq_true_eq] at both
      exact ⟨r₀, row, both.1, fun _ => both.2⟩
  · obtain ⟨t, rows, read, mem⟩ := step.due
    obtain ⟨j, u, -, at_j, label⟩ := mem_history.1 read
    have batch := List.all_eq_true.1 all u (List.mem_of_getElem? at_j)
    unfold openingTakes at batch
    rw [label] at batch
    simpa using List.all_eq_true.1 batch r mem

theorem linksFollowMoves_of_openingsTake_alone :
    ∃ tr, Runs (host 86400) 0 tr ∧ tr.any (mailsLink 4 "v") = true ∧
      LinksFollowMoves (host 86400) tr := by
  obtain ⟨tr, runs, check⟩ := runs_of_play (host 86400) openedDoorA
    (fun tr => tr.any (mailsLink 4 "v") && tr.all openingTakes) (by decide +kernel)
  simp only [Bool.and_eq_true] at check
  exact ⟨tr, runs, check.1, linksFollowMoves_of_openingsTake runs (openingsTake_of_all check.2)⟩

/-- Whether thread `i` reads a batch that lists `v` with the given hash. -/
def selectsWith (i : Nat) (v : VaultId) (hash : Hash) (s : SrvStep) : Bool :=
  match s.label with
  | .acted j ⟨.query (.claimEligible _), .ok rows⟩ =>
      j = i && rows.any fun r : VaultRow => r.id = v && r.life.claimTokenHash = some hash &&
        r.keys.claimTokenAtRest = some "~sealed"
  | _ => false

theorem dueClaim_of_selectsWith {tr : Trace} {i j k : Nat} {v : VaultId} {hash : Hash}
    {s : SrvStep} (at_j : tr[j]? = some s) (lt : j < k) (selects : selectsWith i v hash s = true) :
    ∃ nowIso r, DueClaim (history i k tr) nowIso r ∧ r.id = v ∧
      r.life.claimTokenHash = some hash ∧ r.keys.claimTokenAtRest = some "~sealed" := by
  unfold selectsWith at selects
  split at selects
  · next i' nowIso rows label =>
    simp only [Bool.and_eq_true, decide_eq_true_eq] at selects
    obtain ⟨rfl, listed⟩ := selects
    obtain ⟨r, mem, here⟩ := List.any_eq_true.1 listed
    simp only [Bool.and_eq_true, decide_eq_true_eq] at here
    exact ⟨nowIso, r, ⟨rows, mem_history.2 ⟨j, s, lt, at_j, label⟩, mem⟩, here.1.1, here.1.2, here.2⟩
  · cases selects

/-- The tick stores the hash of a hand-issued token and mails the one at rest. -/
theorem not_triggersAgree :
    ¬ ∀ (S : Server) (t₀ : Instant) (tr : Trace), S.Lawful → Runs S t₀ tr → FreshIds tr →
      TriggersAgree S tr := by
  intro agree
  obtain ⟨tr, runs, check⟩ := runs_of_play (host 86400) issuedBeforeOpening
    (fun tr => tr[83]?.any (selectsWith 5 "v" "#issued") &&
      tr[85]?.any (updated 5 "v" (.openReused "#issued" 3720000000000)) &&
      tr.zipIdx.all fun p => !inserts p.1 || p.2 = 5) (by decide +kernel)
  simp only [Bool.and_eq_true, Option.any_eq_true] at check
  obtain ⟨⟨⟨s, at_j, selects⟩, t, at_k, moves⟩, once⟩ := check
  obtain ⟨nowIso, r, due, id, hash, atRest⟩ :=
    dueClaim_of_selectsWith (k := 85) at_j (by decide) selects
  have did := did_of_updated moves
  rw [← id] at did
  rcases did_update (runs.explains_at at_k) did with ⟨-, r₀, row, -, after⟩ | ⟨none, -⟩
  · have step : TriggerStep (host 86400) tr 5 85 r "sealed" "#issued" true 1 :=
      ⟨⟨nowIso, due⟩, ⟨"~sealed", atRest, by rfl, by rw [hash]; rfl⟩, t, _, at_k, did⟩
    have fresh := freshIds_of_inserts once
    obtain ⟨-, ⟨r₁, after', -, stored⟩, -⟩ := agree _ _ _ (lawful _) runs fresh 5 85 r "sealed"
      "#issued" true "~sealed" t r₀ step at_k row (step.keys runs fresh at_k row ▸ atRest)
    rw [after] at after'
    cases after'
    simp only [VaultUpdate.set_life, VaultUpdate.setLife, VaultUpdate.openClaimLife,
      Option.some.injEq] at stored
    exact absurd stored (by decide)
  · cases none

/-- Undisturbed, the stored hash and the mailed token agree. -/
theorem triggersAgree_iff_selectedAgrees_alone :
    ∃ tr, Runs (host 86400) 0 tr ∧ tr.any (opens "v") = true ∧
      (TriggersAgree (host 86400) tr ↔ SelectedHashesAgree (host 86400) tr) := by
  obtain ⟨tr, runs, check⟩ := runs_of_play (host 86400) openedDoorA
    (fun tr => tr.any (opens "v") && tr.zipIdx.all fun p => !inserts p.1 || p.2 = 5)
    (by decide +kernel)
  simp only [Bool.and_eq_true] at check
  exact ⟨tr, runs, check.1,
    triggersAgree_iff_selectedAgrees (lawful _) runs (freshIds_of_inserts check.2)⟩

end Lost

end GhostKey

import GhostKey.Alone
import GhostKey.Deployment

/-!
# What a Submitted Claim Spends

`broadcast_claim` takes any PSBT: it finalizes it, has the transaction relayed and marks the
vault claimed. Which outputs the transaction spends is left to whoever made the PSBT.

Layers:
1. a transaction and the coins of a vault: `SpendsAll`;
2. the route relays the PSBT it was given: `only_broadcastClaim`, `Runs.relays_submitted`;
3. one request relays once, and before it marks the vault: `Runs.relays_once`, `Runs.relayed`.

Main results:
- `claimsTakeAll_iff`: the claims of a run take all their vaults hold exactly when the
  submitted PSBTs name it all.
- `not_claimsTakeAll`: a claim that spends an output of somebody else.
-/

namespace GhostKey

open Foundation Program Prog

namespace Submitted

/-! ## §1 Transactions and coins -/

/-- There are coins, and all of them are among the inputs. -/
structure SpendsAll (inputs coins : List String) : Prop where
  all : coins ⊆ inputs
  some : ∃ out ∈ inputs, out ∈ coins

/-- The PSBT a `signed_psbt_b64` is read as. -/
def submitted (S : Server) (text : String) : Except String Psbt := do
  let bytes ← S.wallet.decodeBase64 text
  S.wallet.deserializePsbt bytes

/-- `i` serves a `broadcast_claim` of `text` and marks the vault of `r` claimed at `k`. -/
structure Claims (tr : Trace) (i k : Nat) (text : String) (r : VaultRow) : Prop where
  request : ∃ token, Started i (.broadcastClaim token text) (tr.take k)
  marked : ∃ s, tr[k]? = some s ∧ s.before.vault? r.id = some r ∧
    Did i (.exec (.updateVault r.id .promoteClaimed)) (.ok 1) s

/-- `i` has `tx` relayed at `j`, in the world `w`. -/
def RelaysAt (tr : Trace) (i j : Nat) (tx : Tx) (w : World) : Prop :=
  ∃ s urls, tr[j]? = some s ∧ s.before = w ∧ Did i (.ask (.broadcast urls tx)) (.ok ()) s

/-- A vault is marked claimed only for a transaction that spends all it holds. -/
def ClaimsTakeAll (tr : Trace) : Prop :=
  ∀ i k text r, Claims tr i k text r →
    ∃ j tx w, j < k ∧ RelaysAt tr i j tx w ∧ SpendsAll tx.inputs (w.unspent r)

/-- When the transaction of a claim is relayed, the submitted PSBT names all the vault holds. -/
def SubmissionsNameAll (S : Server) (tr : Trace) : Prop :=
  ∀ i j k text r tx w p, Claims tr i k text r → RelaysAt tr i j tx w →
    submitted S text = .ok p → SpendsAll p.outpoints (w.unspent r)

/-! ## §2 What the route relays -/

section Route

variable {S : Server}

/-- What is relayed spends the inputs of the PSBT in `text`. -/
def Relayable (S : Server) (text : String) (a : Action) : Prop :=
  ∀ urls tx, a = .ask (.broadcast urls tx) →
    ∃ p, submitted S text = .ok p ∧ tx.inputs = p.outpoints

theorem relayable_of_free {text : String} {a : Action} (free : a.isFree = true) :
    Relayable S text a := by
  intro urls tx same
  subst same
  cases free

theorem relayable_exec {text : String} (st : Stmt) : Relayable S text (.exec st) := by
  intro urls tx same
  cases same

theorem relayable_query {text : String} (q : Query) : Relayable S text (.query q) := by
  intro urls tx same
  cases same

theorem relayable_now {text : String} : Relayable S text .now := by
  intro urls tx same
  cases same

theorem blocking_eq_ok {α : Type} {wrap : String → BlockingErr} {x : Except String α} {a : α}
    (done : blocking wrap x = .ok a) : x = .ok a := by
  cases x with
  | error e => cases done
  | ok b => exact congrArg Except.ok (Except.ok.inj done)

/-- Finalizing and extracting keep the inputs. -/
theorem inputs_of_submittedTx (lawful : S.Lawful) {config : VaultConfig} {p : Psbt} {tx : Tx}
    (taken : submittedTx S config p = .ok tx) : tx.inputs = p.outpoints := by
  obtain ⟨wallet, -, taken⟩ := bind_eq_ok taken
  obtain ⟨⟨finalized, p'⟩, done, taken⟩ := bind_eq_ok taken
  have kept : p'.outpoints = p.outpoints :=
    lawful.finalize_inputs wallet p finalized p' (blocking_eq_ok done)
  dsimp only at taken
  split at taken
  · cases taken
  · rw [← kept]
    exact lawful.extract_inputs p' tx (blocking_eq_ok taken)

theorem only_loadVaultForClaimToken (text : String) (token : Token) :
    (loadVaultForClaimToken S token).Only (Relayable S text) := by
  have row : (unusedHeirRow S token).Only (Relayable S text) := by
    refine .bind (.bind (only_query (relayable_query _)) fun row => .bind (only_okOr _ _)
      fun r => .bind (only_okOr _ _) fun storedHash => ?_) fun r => ?_
    · split <;> trivial
    · split <;> trivial
  have window (id : VaultId) : (ensureClaimChallenge S id).Only (Relayable S text) := by
    unfold ensureClaimChallenge
    split
    · trivial
    · refine .bind (.perform relayable_now) fun t => .bind (only_query (relayable_query _))
        fun row => .bind (only_okOr _ _) fun r => ?_
      split
      · trivial
      · refine .bind (only_exec (relayable_exec _)) fun rows => ?_
        dsimp only
        split
        · refine .bind (Only.mono (free_recordEvent (by decide)) fun _ => relayable_of_free)
            fun _ => .bind ?_ fun _ => trivial
          exact Only.mono (free_logged (free_notifyClaimOpened S id)) fun _ => relayable_of_free
        · exact .bind (.done _) fun _ => trivial
  refine .bind row fun r => .bind (.bind (window r.id) fun available => ?_) fun _ =>
    .bind (Only.mono (free_storedNetwork r) fun _ => relayable_of_free) fun _ => trivial
  split <;> trivial

theorem only_releaseAndFail {α : Type} (text : String) (id : VaultId) (e : ApiError) :
    (releaseAndFail id e : Prog α).Only (Relayable S text) :=
  .bind (.bind (.attempt (only_exec (relayable_exec _))) fun _ => trivial) fun _ => trivial

/-- The route relays nothing but the PSBT it was given. -/
theorem only_broadcastClaim (lawful : S.Lawful) (token : Token) (text : String) :
    (broadcastClaim S token text).Only (Relayable S text) := by
  refine .bind (only_loadVaultForClaimToken text token) fun (r, network) => ?_
  cases decoded : S.wallet.decodeBase64 text with
  | error e => trivial
  | ok bytes =>
    show Only _ ((validated "psbt parse: " (S.wallet.deserializePsbt bytes)).bind _)
    cases parsed : S.wallet.deserializePsbt bytes with
    | error e => trivial
    | ok p =>
      have given : submitted S text = .ok p := by
        rw [submitted, decoded]
        exact parsed
      show Only _ ((consumeClaimToken r.id).bind _)
      refine .bind (.bind (.perform relayable_now) fun t => .bind (only_exec (relayable_exec _))
        fun rows => ?_) fun _ => ?_
      · split <;> trivial
      · unfold spendAndPromote
        dsimp only
        split
        · exact only_releaseAndFail text r.id _
        · show Only _ ((pure _ : SpendPlan).bind _)
          cases taken : submittedTx S (vaultConfig r network .watchonly) p with
          | error e => exact only_releaseAndFail text r.id _
          | ok tx =>
            -- the one action that matters: the transaction is that of the given PSBT
            show Only _ ((ask (.broadcast (explorers S network) tx)).bind _)
            refine .bind (.perform ?_) fun sent => ?_
            · rintro urls tx' ⟨⟩
              exact ⟨p, given, inputs_of_submittedTx lawful taken⟩
            · split
              · exact only_releaseAndFail text r.id _
              · exact .bind (only_exec (relayable_exec _)) fun _ =>
                  .bind (Only.mono (free_recordEvent (by decide)) fun _ => relayable_of_free)
                    fun _ => trivial

end Route

/-! ## §3 Along a run -/

section Runs

variable {S : Server} {t₀ : Instant} {tr : Trace} {i j k : Nat}

/-- What a claim relays spends the inputs of its PSBT. -/
theorem Runs.relays_submitted (lawful : S.Lawful) (runs : Runs S t₀ tr) {text : String}
    {token : Token} {tx : Tx} {w : World} (started : Started i (.broadcastClaim token text) tr)
    (relays : RelaysAt tr i j tx w) : ∃ p, submitted S text = .ok p ∧ tx.inputs = p.outpoints := by
  obtain ⟨s, urls, at_j, -, did⟩ := relays
  obtain ⟨c, run⟩ := runs
  have meets : ∀ q : Request, Meets
      (fun _ (e : Ev) => ∀ token text, q = .broadcastClaim token text → Relayable S text e.action)
      (fun _ _ => True) (q.program S) [] := by
    intro q
    cases q with
    | broadcastClaim token' text' =>
      have only : ((broadcastClaim S token' text').reply .broadcast).Only (Relayable S text') :=
        .bind (only_broadcastClaim lawful token' text') fun _ => trivial
      refine (only.meets []).mono (fun _ e ok token text same => ?_) fun _ _ _ => trivial
      cases same
      exact ok
    | _ =>
      refine (conduct S _).mono (fun _ e _ token text same => ?_) fun _ _ _ => trivial
      cases same
  obtain ⟨q, started', ok⟩ := run.acted_at (S := server S) meets at_j did
  cases run.started_unique started started'.of_take
  exact ok token text rfl urls tx rfl

/-- A request relays one transaction. -/
theorem Runs.relays_once (runs : Runs S t₀ tr) {tx tx' : Tx} {w w' : World}
    (relays : RelaysAt tr i j tx w) (relays' : RelaysAt tr i k tx' w') : j = k := by
  obtain ⟨s, urls, at_j, -, did⟩ := relays
  obtain ⟨s', urls', at_k, -, did'⟩ := relays'
  have quiet : ∀ {m n : Nat} {u u' : SrvStep} {a a' : Tx} {l l' : List String},
      tr[m]? = some u → Did i (.ask (.broadcast l a)) (.ok ()) u → tr[n]? = some u' →
        Did i (.ask (.broadcast l' a')) (.ok ()) u' → ¬ m < n := by
    intro m n u u' a a' l l' at_m did at_n did' lt
    obtain ⟨q, -, quiet, -⟩ := runs.justified at_n did'
    exact quiet _ (mem_history.2 ⟨m, u, lt, at_m, did⟩) ⟨l, a, rfl⟩
  exact Nat.le_antisymm (not_lt.1 (quiet at_k did' at_j did)) (not_lt.1 (quiet at_j did at_k did'))

/-- A vault is marked claimed after something was relayed. -/
theorem Runs.relayed (runs : Runs S t₀ tr) {text : String} {r : VaultRow}
    (claims : Claims tr i k text r) : ∃ j tx w, j < k ∧ RelaysAt tr i j tx w := by
  obtain ⟨s, at_k, -, did⟩ := claims.marked
  obtain ⟨q, -, -, urls, tx, sent⟩ := runs.justified at_k did
  obtain ⟨j, t, lt, at_j, did⟩ := mem_history.1 sent
  exact ⟨j, tx, t.before, lt, t, urls, at_j, rfl, did⟩

/-- The claims of a run take all that their vaults hold exactly when the PSBTs submitted name
all of it among their inputs. -/
theorem claimsTakeAll_iff (lawful : S.Lawful) (runs : Runs S t₀ tr) :
    ClaimsTakeAll tr ↔ SubmissionsNameAll S tr := by
  constructor
  · intro take i j k text r tx w p claims relays given
    obtain ⟨j', tx', w', -, relays', spends⟩ := take i k text r claims
    obtain ⟨token, started⟩ := claims.request
    obtain ⟨p', given', inputs⟩ := Runs.relays_submitted lawful runs started.of_take relays'
    cases given.symm.trans given'
    -- it is the same relay, so the same world
    cases Runs.relays_once runs relays relays'
    obtain ⟨s, urls, at_j, rfl, did⟩ := relays
    obtain ⟨s', urls', at_j', rfl, did'⟩ := relays'
    cases at_j.symm.trans at_j'
    rw [← inputs]
    exact spends
  · intro name i k text r claims
    obtain ⟨j, tx, w, lt, relays⟩ := Runs.relayed runs claims
    obtain ⟨token, started⟩ := claims.request
    obtain ⟨p, given, inputs⟩ := Runs.relays_submitted lawful runs started.of_take relays
    refine ⟨j, tx, w, lt, relays, ?_⟩
    rw [inputs]
    exact name i j k text r tx w p claims relays given

end Runs

/-! ## §4 Somebody else's output -/

section Foreign

open Deployment

/-- The vault holds one output; its claim is issued and a PSBT over `outpoint` submitted. -/
def claimOver (outpoint : String) : List (Move Oracle Drift Request) :=
  [.drift (.chain [⟨"coin", "d/0"⟩]), .start (.createVault (createPlain "d"))] ++
    steps 0 8 (oracle "v" []) ++ [.start (.issueClaim "v")] ++ steps 1 7 (oracle "token" []) ++
    [.start (.broadcastClaim "token" outpoint)] ++ steps 2 8 (oracle "" [])

/-- Whether a transaction is relayed in this step that leaves the output of the vault. -/
def leaves (s : SrvStep) : Bool :=
  match s.label with
  | .acted _ ⟨.ask (.broadcast _ tx), .ok ()⟩ =>
      "coin" ∉ tx.inputs && s.before.coins = [⟨"coin", "d/0"⟩]
  | _ => true

/-- Whether the claim starts in this step. -/
def begins (outpoint : String) (s : SrvStep) : Bool :=
  match s.label with
  | .started 2 (.broadcastClaim "token" outpoint') => outpoint' = outpoint
  | _ => false

theorem started_of_begins {tr : Trace} {outpoint : String} {k : Nat}
    (checked : (tr.take k).any (begins outpoint) = true) :
    Started 2 (.broadcastClaim "token" outpoint) (tr.take k) := by
  obtain ⟨s, mem, here⟩ := List.any_eq_true.1 checked
  refine ⟨s, mem, ?_⟩
  unfold begins at here
  split at here
  · next outpoint' label =>
    rw [label, of_decide_eq_true here]
  · cases here

theorem misses_of_leaves {tr : Trace} (checked : tr.all leaves = true) {i j : Nat} {tx : Tx}
    {w : World} (relays : RelaysAt tr i j tx w) :
    "coin" ∉ tx.inputs ∧ w.coins = [⟨"coin", "d/0"⟩] := by
  obtain ⟨s, urls, at_j, rfl, did⟩ := relays
  have here := List.all_eq_true.1 checked s (List.mem_of_getElem? at_j)
  unfold leaves at here
  rw [show s.label = _ from did] at here
  simpa using here

/-- A claim that spends an output of somebody else is marked claimed. -/
theorem not_claimsTakeAll :
    ¬ ∀ (S : Server) (t₀ : Instant) (tr : Trace), S.Lawful → Runs S t₀ tr → ClaimsTakeAll tr := by
  intro takeAll
  obtain ⟨tr, runs, check⟩ := runs_of_play (host 0) (claimOver "foreign")
    (fun tr => tr.all leaves && (tr.take 23).any (begins "foreign") && tr[23]?.any fun s =>
      updated 2 "v" .promoteClaimed s &&
        (s.before.vault? "v").any fun r => r.settings.descriptorExternal = "d/0")
    (by decide +kernel)
  simp only [Bool.and_eq_true, Option.any_eq_true, decide_eq_true_eq] at check
  obtain ⟨⟨checked, begun⟩, s, at_k, marks, r, row, external⟩ := check
  have own : r.id = "v" := KeyedTable.find?_key row
  have claims : Claims tr 2 23 "foreign" r :=
    ⟨⟨"token", started_of_begins begun⟩, s, at_k, own ▸ row, own ▸ did_of_updated marks⟩
  obtain ⟨j, tx, w, -, relays, spends⟩ := takeAll _ _ _ (lawful 0) runs 2 23 "foreign" r claims
  obtain ⟨missing, coins⟩ := misses_of_leaves checked relays
  refine missing (spends.all ?_)
  simp [World.unspent, coins, external]

/-- The claim of the vault's own output, and what the theorem says of it. -/
theorem claimsTakeAll_iff_own : ∃ tr, Runs (host 0) 0 tr ∧
    tr.any (updated 2 "v" .promoteClaimed) = true ∧
      (ClaimsTakeAll tr ↔ SubmissionsNameAll (host 0) tr) := by
  obtain ⟨tr, runs, marks⟩ := runs_of_play (host 0) (claimOver "coin")
    (fun tr => tr.any (updated 2 "v" .promoteClaimed)) (by decide +kernel)
  exact ⟨tr, runs, marks, claimsTakeAll_iff (lawful 0) runs⟩

end Foreign

end Submitted

end GhostKey

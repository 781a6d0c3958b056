import GhostKey.Alone
import GhostKey.Balance

/-!
# Who Took a Deposit

A balance scan stamps every recorded deposit it no longer finds, and tells the owner's feed of
those it takes to have left without the server. It has no transaction to look at: a deposit
first seen no later than the newest `owner_send` or `claim_broadcast` event is taken to be
spent by that one. A send that selects some coins leaves the older ones where they are.

Layers:
1. the histories of one vault, with scans anywhere between: `Account.apply`;
2. what one scan does to the ledger and the feed: `booked_of_bookScan`; it is what a balance
   request comes to, `booked_of_getVaultBalance`;
3. what is kept along a history: `kept_after`, `squared_after`;
4. `attributed_iff`: when every departure is told of as it should be.
-/

namespace GhostKey

namespace Departures

open Foundation Program Prog

/-! ## §1 Histories of one vault -/

/-- Who built the transaction that consumed an output. -/
inductive Spender where
  | server
  | elsewhere
  deriving DecidableEq

/-- The requests in which the server builds or relays one. -/
inductive ServerSpend where
  | ownerSend
  | claimBroadcast

def ServerSpend.kind : ServerSpend → EventKind
  | .ownerSend => .ownerSend
  | .claimBroadcast => .claimBroadcast

inductive Move where
  | pass (n : Nat)
  /-- An output of the vault comes up on the chain, a deposit or change. -/
  | arrive (u : Utxo)
  /-- It is confirmed, or a reorganisation takes that back. -/
  | settle (outpoint : String) (confirmedAt : Option Nat)
  /-- A transaction spends outputs of the vault, any that were selected. -/
  | spend (spender : Spender) (inputs : List String)
  /-- The request that has broadcast one enters it into the feed. -/
  | tell (spend : ServerSpend) (detail : Detail)
  /-- A balance request scans the chain and books what it finds. -/
  | balance (o : Oracle)

/-- The server's world, the outputs of the vault on the chain, and who took the others. -/
structure Account where
  world : World
  chain : List Utxo
  takenBy : String → Option Spender

/-- The end of `get_vault_balance`, once the scan is there. -/
def bookScan (S : Server) (v : VaultId) (scan : Scan) : Prog Unit := do
  let t ← now
  recordNewDeposits S v scan.deposits t
  recordSpentDeposits v scan.outpoints t

namespace Account

def onChain (a : Account) (out : String) : Prop := out ∈ a.chain.map Utxo.outpoint

instance (a : Account) (out : String) : Decidable (a.onChain out) :=
  inferInstanceAs (Decidable (out ∈ a.chain.map Utxo.outpoint))

/-- An outpoint comes up once. -/
def arrive (a : Account) (u : Utxo) : Account :=
  if a.onChain u.outpoint ∨ (a.takenBy u.outpoint).isSome then a
  else { a with chain := a.chain ++ [u] }

def settle (a : Account) (outpoint : String) (confirmedAt : Option Nat) : Account :=
  { a with
    chain := a.chain.map fun u =>
      if u.outpoint = outpoint then { u with confirmedAt := confirmedAt } else u }

def spend (a : Account) (spender : Spender) (inputs : List String) : Account :=
  { a with
    chain := a.chain.filter fun u => u.outpoint ∉ inputs
    takenBy := fun out => if a.onChain out ∧ out ∈ inputs then some spender else a.takenBy out }

def apply (S : Server) (v : VaultId) (a : Account) : Move → Account
  | .pass n => { a with world := { a.world with clock := a.world.clock + n } }
  | .arrive u => a.arrive u
  | .settle outpoint confirmedAt => a.settle outpoint confirmedAt
  | .spend spender inputs => a.spend spender inputs
  | .tell spend detail => { a with world := a.world.record ⟨v, spend.kind, detail, a.world.clock⟩ }
  | .balance o => { a with world := (atOnce (bookScan S v ⟨0, a.chain⟩) o a.world).2 }

end Account

/-- The account after a history. -/
def after (S : Server) (v : VaultId) (w : World) (ms : List Move) : Account :=
  ms.foldl (Account.apply S v) ⟨w, [], fun _ => none⟩

/-- The ledger's row of an outpoint. -/
def ledger (w : World) (v : VaultId) (out : String) : Option DepositRow :=
  w.db.deposits.find? (v, out)

/-- The events of the feed that say of the outpoint that it left the vault. -/
def tells (v : VaultId) (out : String) (e : EventRow) : Bool :=
  e.vaultId = v ∧ e.kind = .fundsSpent ∧ ("outpoint", Json.str out) ∈ e.detail

def told (w : World) (v : VaultId) (out : String) : Nat := w.db.events.countP (tells v out)

/-- A vault that is there, with an empty ledger and nothing told. -/
structure Fresh (v : VaultId) (w : World) : Prop where
  vault : ∃ r, w.vault? v = some r
  ledger : ∀ out, ledger w v out = none
  silent : ∀ out, told w v out = 0

/-! ## §2 Stamping -/

section Stamping

variable {o : Oracle} {w w' : World} {v : VaultId} {t : Instant} {last : Option Instant}

/-- What `record_spent_deposits` does about one deposit it no longer finds. -/
def stampOne (v : VaultId) (t : Instant) (last : Option Instant) (d : DepositRow) : Prog Unit := do
  let stamped ← ((exec (.stampDepositSpent v d.outpoint t)).attempt : Prog (Except ApiError Nat))
  match stamped with
  | .ok 1 =>
    if last.any (d.seenAt ≤ ·) then pure ()
    else logged (recordEvent v .fundsSpent
      [("amount_sat", .int d.amountSat), ("outpoint", .str d.outpoint)])
  | _ => pure ()

/-- The ledger and the feed after these deposits have been stamped, in the same vault. -/
structure StampedAll (v : VaultId) (t : Instant) (last : Option Instant) (ds : List DepositRow)
    (w w' : World) : Prop where
  vault : ∀ k, w'.vault? k = w.vault? k
  clock : w'.clock = w.clock
  rows : ∀ out, ledger w' v out =
    (ledger w v out).map fun d => if d ∈ ds then { d with spentAt := some t } else d
  told : ∀ out, told w' v out =
    told w v out + ds.countP fun d => d.outpoint = out ∧ ¬ last.any (d.seenAt ≤ ·) = true

theorem told_record (w : World) (v : VaultId) (e : EventRow) (out : String) :
    told (w.record e) v out = told w v out + if tells v out e then 1 else 0 := by
  unfold told World.record
  simp [List.countP_append, List.countP_cons, List.countP_nil]

theorem key_stamped (t : Instant) (d : DepositRow) :
    ({ d with spentAt := some t } : DepositRow).key = d.key := rfl

/-- The ledger once the stamp of one row is set. -/
def stampedDb (db : Db) (v : VaultId) (out : String) (t : Instant) : Db :=
  { db with
    deposits := db.deposits.update
      (fun d => decide (d.key = (v, out)) && decide (d.spentAt = none))
      (fun d => { d with spentAt := some t }) (key_stamped t) }

theorem atOnce_stamp (answers : o.dbFails = false) {out : String} {d : DepositRow}
    (here : ledger w v out = some d) (unspent : d.spentAt = none) :
    atOnce (exec (.stampDepositSpent v out t)) o w =
      (.ok 1, { w with db := stampedDb w.db v out t }) := by
  have one : w.db.deposits.affected
      (fun x => decide (x.key = (v, out)) && decide (x.spentAt = none)) = 1 :=
    (KeyedTable.affected_eq_one_iff w.db.deposits (v, out) fun x => decide (x.spentAt = none)).2
      ⟨d, here, decide_eq_true unspent⟩
  refine atOnce_exec_eq_ok.2 ⟨answers, _, ?_, rfl⟩
  simp only [Stmt.run, one, stampedDb]

theorem ledger_stampedDb {out : String} {d : DepositRow} (here : ledger w v out = some d)
    (unspent : d.spentAt = none) (out' : String) :
    ledger { w with db := stampedDb w.db v out t } v out' =
      (ledger w v out').map fun x => if x ∈ [d] then { x with spentAt := some t } else x := by
  have updated := KeyedTable.find?_update w.db.deposits
    (fun x => decide (x.key = (v, out)) && decide (x.spentAt = none))
    (fun x => { x with spentAt := some t }) (fun _ => rfl) (v, out')
  refine updated.trans ?_
  show (ledger w v out').map _ = _
  cases found : ledger w v out' with
  | none => rfl
  | some x =>
    have key : x.key = (v, out') := KeyedTable.find?_key found
    by_cases same : out' = out
    · rw [same, here] at found
      cases found
      simp [key, same, unspent]
    · have other : x ≠ d := by
        intro eq
        rw [eq, KeyedTable.find?_key here] at key
        exact same (Prod.mk.inj key).2.symm
      simp [key, same, other]

/-- One deposit is stamped, and told of unless a later event explains it. -/
theorem stampedAll_one (answers : o.dbFails = false) {r : VaultRow} (row : w.vault? v = some r)
    {d : DepositRow} (unspent : d.spentAt = none) (here : ledger w v d.outpoint = some d) :
    ∃ w', atOnce (stampOne v t last d) o w = (.ok (), w') ∧ StampedAll v t last [d] w w' := by
  have stamped := atOnce_stamp (t := t) answers here unspent
  have rows := ledger_stampedDb (t := t) here unspent
  unfold stampOne
  rw [bind_eq, atOnce_attempt_bind, stamped]
  dsimp only
  by_cases quiet : last.any (d.seenAt ≤ ·) = true
  · rw [if_pos quiet]
    refine ⟨_, rfl, fun _ => rfl, rfl, rows, fun out => ?_⟩
    simp [told, stampedDb, quiet]
  · rw [if_neg quiet]
    let stampedWorld : World := { w with db := stampedDb w.db v d.outpoint t }
    let event : EventRow := ⟨v, .fundsSpent,
      [("amount_sat", .int d.amountSat), ("outpoint", .str d.outpoint)], w.clock⟩
    have recorded : atOnce (logged (recordEvent v event.kind event.detail)) o stampedWorld =
        (.ok (), stampedWorld.record event) := by
      rw [atOnce_logged, atOnce_recordEvent answers (w := stampedWorld) row]
    refine ⟨_, recorded, fun _ => rfl, rfl, rows, fun out => ?_⟩
    rw [told_record]
    have names : tells v out event = decide (d.outpoint = out) := by
      simp [tells, event, eq_comm]
    simp only [names]
    simp [told, stampedWorld, stampedDb, quiet, List.countP_cons]

/-- The loop over them. -/
theorem stampedAll_forEach (answers : o.dbFails = false) {r : VaultRow} (row : w.vault? v = some r)
    {ds : List DepositRow} (distinct : (ds.map DepositRow.outpoint).Nodup)
    (listed : ∀ d ∈ ds, ledger w v d.outpoint = some d ∧ d.spentAt = none) :
    ∃ w', atOnce (Program.forEach ds (stampOne v t last)) o w = (.ok (), w') ∧
      StampedAll v t last ds w w' := by
  -- induction on the deposits; stamping one leaves the rows of the others
  induction ds generalizing w with
  | nil => exact ⟨w, rfl, fun _ => rfl, rfl, fun out => by simp, fun out => by simp⟩
  | cons d ds ih =>
    rw [List.map_cons, List.nodup_cons] at distinct
    obtain ⟨apart, distinct⟩ := distinct
    have others : ∀ e ∈ ds, e ≠ d := by
      rintro e mem rfl
      exact apart (List.mem_map_of_mem mem)
    obtain ⟨here, unspent⟩ := listed d List.mem_cons_self
    obtain ⟨w₁, first, one⟩ : ∃ w₁, atOnce (stampOne v t last d) o w = (.ok (), w₁) ∧
        StampedAll v t last [d] w w₁ := stampedAll_one answers row unspent here
    have listed₁ : ∀ e ∈ ds, ledger w₁ v e.outpoint = some e ∧ e.spentAt = none := by
      intro e mem
      obtain ⟨row', unspent'⟩ := listed e (List.mem_cons_of_mem d mem)
      refine ⟨?_, unspent'⟩
      rw [one.rows, row', Option.map_some, if_neg (by simpa using others e mem)]
    obtain ⟨w', rest, all⟩ := ih ((one.vault v).trans row) distinct listed₁
    refine ⟨w', (atOnce_ok_bind first _).trans rest, ?_, all.clock.trans one.clock, ?_, ?_⟩
    · exact fun k => (all.vault k).trans (one.vault k)
    · intro out
      rw [all.rows, one.rows, Option.map_map]
      congr 1
      funext x
      simp only [Function.comp, List.mem_cons]
      by_cases same : x = d
      · have gone : ({ x with spentAt := some t } : DepositRow) ∉ ds := by
          intro mem
          exact apart (by simpa [same] using List.mem_map_of_mem (f := DepositRow.outpoint) mem)
        simp [same] at gone ⊢
      · simp [same]
    · intro out
      rw [all.told, one.told, List.countP_cons, List.countP_cons, List.countP_nil]
      omega

/-- An event of the server's own spends explains the deposit: it is no older. -/
def Explained (w : World) (v : VaultId) (d : DepositRow) : Prop :=
  ∃ e ∈ w.db.events, e.vaultId = v ∧ (e.kind = .ownerSend ∨ e.kind = .claimBroadcast) ∧
    d.seenAt ≤ e.createdAt

theorem max?_any_iff (times : List Instant) (seenAt : Instant) :
    times.max?.any (seenAt ≤ ·) = true ↔ ∃ t ∈ times, seenAt ≤ t := by
  cases newest : times.max? with
  | none =>
    rw [List.max?_eq_none_iff] at newest
    simp [newest]
  | some m =>
    obtain ⟨mem, above⟩ := List.max?_eq_some_iff.1 newest
    simp only [Option.any_some, decide_eq_true_eq]
    constructor
    · exact fun le => ⟨m, mem, le⟩
    · rintro ⟨t, listed, le⟩
      exact le.trans (above t listed)

/-- The ledger and the feed after a scan that lists `still` has been compared with it. -/
structure Compared (v : VaultId) (t : Instant) (still : List String) (w w' : World) : Prop where
  vault : ∀ k, w'.vault? k = w.vault? k
  clock : w'.clock = w.clock
  rows : ∀ out, ledger w' v out = (ledger w v out).map fun d =>
    if d.spentAt = none ∧ out ∉ still then { d with spentAt := some t } else d
  quiet : ∀ out d, ledger w v out = some d → d.spentAt = none → out ∉ still →
    Explained w v d → told w' v out = told w v out
  reported : ∀ out d, ledger w v out = some d → d.spentAt = none → out ∉ still →
    ¬ Explained w v d → told w' v out = told w v out + 1
  others : ∀ out, (∀ d, ledger w v out = some d → d.spentAt = none → out ∈ still) →
    told w' v out = told w v out

/-- The deposits a scan finds gone. -/
def gone (w : World) (v : VaultId) (still : List String) : List DepositRow :=
  (w.db.deposits.select fun d => d.vaultId = v ∧ d.spentAt = none).filter
    fun d => d.outpoint ∉ still

theorem mem_gone {still : List String} {d : DepositRow} : d ∈ gone w v still ↔
    ledger w v d.outpoint = some d ∧ d.spentAt = none ∧ d.outpoint ∉ still := by
  unfold gone ledger
  rw [List.mem_filter, KeyedTable.mem_select]
  simp only [Bool.decide_and, Bool.and_eq_true, decide_eq_true_eq, DepositRow.key]
  constructor
  · rintro ⟨⟨here, rfl, unspent⟩, lacks⟩
    exact ⟨here, unspent, lacks⟩
  · rintro ⟨here, unspent, lacks⟩
    have key : d.key = (v, d.outpoint) := KeyedTable.find?_key here
    have ofVault : d.vaultId = v := (Prod.mk.inj key).1
    exact ⟨⟨ofVault.symm ▸ here, ofVault, unspent⟩, lacks⟩

theorem nodup_gone (w : World) (v : VaultId) (still : List String) :
    ((gone w v still).map DepositRow.outpoint).Nodup := by
  have sub : (gone w v still).Sublist w.db.deposits.rows :=
    List.filter_sublist.trans List.filter_sublist
  have keys : ((gone w v still).map DepositRow.key).Nodup :=
    w.db.deposits.nodup.sublist (sub.map DepositRow.key)
  have paired : (gone w v still).map DepositRow.key =
      ((gone w v still).map DepositRow.outpoint).map fun out => (v, out) := by
    rw [List.map_map]
    refine List.map_congr_left fun d mem => ?_
    exact KeyedTable.find?_key (mem_gone.1 mem).1
  rw [paired] at keys
  exact keys.of_map _

/-- `record_spent_deposits`, as a whole. -/
theorem compared_of_recordSpentDeposits (answers : o.dbFails = false) {r : VaultRow}
    (row : w.vault? v = some r) (still : List String) :
    ∃ w', atOnce (recordSpentDeposits v still t) o w = (.ok (), w') ∧ Compared v t still w w' := by
  let spends : List Instant := (w.db.events.filter fun e =>
    e.vaultId = v ∧ (e.kind = .ownerSend ∨ e.kind = .claimBroadcast)).map EventRow.createdAt
  have read : atOnce (query (.unspentDeposits v)) o w =
      (.ok (w.db.deposits.select fun d => d.vaultId = v ∧ d.spentAt = none), w) :=
    atOnce_query_eq_ok.2 ⟨answers, rfl, rfl⟩
  have asked : atOnce (query (.lastServerSpend v)) o w = (.ok spends.max?, w) :=
    atOnce_query_eq_ok.2 ⟨answers, rfl, rfl⟩
  have runs : atOnce (recordSpentDeposits v still t) o w =
      atOnce (Program.forEach (gone w v still) (stampOne v t spends.max?)) o w := by
    unfold recordSpentDeposits
    rw [bind_eq, atOnce_attempt_bind, read]
    unfold gone
    cases w.db.deposits.select fun d => d.vaultId = v ∧ d.spentAt = none with
    | nil => rfl
    | cons d ds =>
      dsimp only
      rw [bind_eq, atOnce_attempt_bind, asked]
      rfl
  obtain ⟨w', ran, all⟩ : ∃ w', atOnce (Program.forEach (gone w v still)
      (stampOne v t spends.max?)) o w = (.ok (), w') ∧
        StampedAll v t spends.max? (gone w v still) w w' :=
    stampedAll_forEach answers row (nodup_gone w v still)
      fun d mem => ⟨(mem_gone.1 mem).1, (mem_gone.1 mem).2.1⟩
  have explained : ∀ d : DepositRow, spends.max?.any (d.seenAt ≤ ·) = true ↔ Explained w v d := by
    intro d
    rw [max?_any_iff]
    simp [spends, Explained, and_assoc]
  -- only the row of an outpoint tells of it
  have only : ∀ out d, ledger w v out = some d → d.spentAt = none → out ∉ still →
      ∀ x ∈ gone w v still, x.outpoint = out → x = d := by
    intro out d here unspent lacks x mem same
    have row := (mem_gone.1 mem).1
    rw [same, here] at row
    exact (Option.some.inj row).symm
  refine ⟨w', runs.trans ran, all.vault, all.clock, ?_, ?_, ?_, ?_⟩
  · intro out
    rw [all.rows]
    cases here : ledger w v out with
    | none => rfl
    | some d =>
      have key : d.key = (v, out) := KeyedTable.find?_key here
      have same : d.outpoint = out := (Prod.mk.inj key).2
      have iff : d ∈ gone w v still ↔ d.spentAt = none ∧ out ∉ still := by
        rw [mem_gone, same]
        exact and_iff_right here
      simp only [Option.map_some, iff]
  · intro out d here unspent lacks quiet
    rw [all.told, List.countP_eq_zero.2, Nat.add_zero]
    intro x mem tells
    obtain ⟨same, loud⟩ := of_decide_eq_true tells
    cases only out d here unspent lacks x mem same
    exact loud ((explained _).2 quiet)
  · intro out d here unspent lacks loud
    rw [all.told]
    have key : d.key = (v, out) := KeyedTable.find?_key here
    have same : d.outpoint = out := (Prod.mk.inj key).2
    have mem : d ∈ gone w v still := mem_gone.2 ⟨same.symm ▸ here, unspent, same.symm ▸ lacks⟩
    have once : (gone w v still).count d = 1 :=
      List.count_eq_one_of_mem (nodup_gone w v still).of_map mem
    rw [← once, List.count]
    congr 1
    refine List.countP_congr fun x mem => ?_
    constructor
    · intro tells
      rw [only out d here unspent lacks x mem (of_decide_eq_true tells).1]
      exact beq_self_eq_true d
    · intro eq
      rw [eq_of_beq eq]
      exact decide_eq_true ⟨same, fun quiet => loud ((explained d).1 quiet)⟩
  · intro out other
    rw [all.told, List.countP_eq_zero.2, Nat.add_zero]
    intro x mem tells
    obtain ⟨same, -⟩ := of_decide_eq_true tells
    obtain ⟨here, unspent, lacks⟩ := mem_gone.1 mem
    exact lacks (same.symm ▸ other x (same ▸ here) unspent)

end Stamping

/-! ## §3 Recording, and a scan as a whole -/

section Booking

variable {S : Server} {o : Oracle} {w w' w'' : World} {v : VaultId} {t : Instant}

/-- The ledger and the feed after the deposits of a scan have been entered. -/
structure Entered (v : VaultId) (listed : List String) (w w' : World) : Prop where
  vault : ∀ k, w'.vault? k = w.vault? k
  clock : w'.clock = w.clock
  kept : ∀ out d, ledger w v out = some d → ledger w' v out = some d
  new : ∀ out d, ledger w' v out = some d →
    ledger w v out = some d ∨ (ledger w v out = none ∧ out ∈ listed ∧ d.spentAt = none)
  told : ∀ out, told w' v out = told w v out
  explained : ∀ d, Explained w' v d ↔ Explained w v d

theorem Entered.refl (listed : List String) (w : World) : Entered v listed w w :=
  ⟨fun _ => rfl, rfl, fun _ _ here => here, fun _ _ here => .inl here, fun _ => rfl, fun _ => .rfl⟩

theorem Entered.trans {listed : List String} (first : Entered v listed w w')
    (second : Entered v listed w' w'') : Entered v listed w w'' := by
  refine ⟨fun k => (second.vault k).trans (first.vault k), second.clock.trans first.clock,
    fun out d here => second.kept out d (first.kept out d here), ?_,
    fun out => (second.told out).trans (first.told out),
    fun d => (second.explained d).trans (first.explained d)⟩
  intro out d here
  rcases second.new out d here with old | ⟨absent, listed, unspent⟩
  · exact first.new out d old
  · refine .inr ⟨?_, listed, unspent⟩
    cases before : ledger w v out with
    | none => rfl
    | some d₀ =>
      rw [first.kept out d₀ before] at absent
      cases absent

/-- What leaves the ledger, the feed and the vaults alone enters nothing. -/
theorem entered_of_same (listed : List String) (deposits : w'.db.deposits = w.db.deposits)
    (events : w'.db.events = w.db.events) (vaults : w'.db.vaults = w.db.vaults)
    (clock : w'.clock = w.clock) : Entered v listed w w' := by
  have rows : ∀ out, ledger w' v out = ledger w v out := fun out => by
    unfold ledger
    rw [deposits]
  refine ⟨fun k => ?_, clock, fun out d here => (rows out).trans here,
    fun out d here => .inl ((rows out).symm.trans here), fun out => ?_, fun d => ?_⟩
  · unfold World.vault? Db.vault?
    rw [vaults]
  · unfold told
    rw [events]
  · unfold Explained
    rw [events]

/-- So does an event of another kind. -/
theorem entered_record (listed : List String) (w : World) {e : EventRow}
    (received : e.kind = .received) : Entered v listed w (w.record e) := by
  refine ⟨fun _ => rfl, rfl, fun _ _ here => here, fun _ _ here => .inl here, fun out => ?_,
    fun d => ?_⟩
  · rw [told_record]
    simp [tells, received]
  · simp [Explained, World.record, received, or_and_right, exists_or]

/-- An INSERT OR IGNORE enters a row that is not stamped, or nothing. -/
theorem entered_insertDeposit (answers : o.dbFails = false) {listed : List String} {d : DepositRow}
    (ofVault : d.vaultId = v) (mem : d.outpoint ∈ listed) (unspent : d.spentAt = none) :
    ∃ n w', atOnce (exec (.insertDeposit d)) o w = (.ok n, w') ∧ Entered v listed w w' := by
  cases inserted : w.db.deposits.insert? d with
  | none =>
    refine ⟨0, w, atOnce_exec_eq_ok.2 ⟨answers, w.db, ?_, rfl⟩, .refl listed w⟩
    simp only [Stmt.run, inserted]
  | some deposits =>
    refine ⟨1, _, atOnce_exec_eq_ok.2 ⟨answers, { w.db with deposits := deposits }, ?_, rfl⟩, ?_⟩
    · simp only [Stmt.run, inserted]
    have key : d.key = (v, d.outpoint) := Prod.ext ofVault rfl
    have absent := KeyedTable.find?_eq_none_of_insert? inserted
    -- the row is new, and every other outpoint keeps its own
    have rows : ∀ out, ledger { w with db := { w.db with deposits := deposits } } v out =
        if (v, out) = d.key then some d else ledger w v out :=
      fun out => KeyedTable.find?_insert? inserted (v, out)
    refine ⟨fun _ => rfl, rfl, fun out d' here => ?_, fun out d' here => ?_, fun _ => rfl,
      fun _ => .rfl⟩
    · rw [rows, if_neg, here]
      intro same
      rw [← same] at absent
      cases absent.symm.trans here
    · rw [rows] at here
      split at here
      · next same =>
        cases here
        have out_eq : out = d.outpoint := (Prod.mk.inj (same.trans key)).2
        rw [← same] at absent
        exact .inr ⟨absent, out_eq ▸ mem, unspent⟩
      · exact .inl here

/-- The loop over the deposits of a scan. -/
theorem entered_insertDeposits (answers : o.dbFails = false) {r : VaultRow}
    (row : w.vault? v = some r) {listed : List String} {ds : List ConfirmedDeposit}
    (all : ∀ d ∈ ds, d.outpoint ∈ listed) (n : Nat) :
    ∃ m w', atOnce (insertDeposits v t ds n) o w = (.ok m, w') ∧ Entered v listed w w' := by
  induction ds generalizing w n with
  | nil => exact ⟨n, w, rfl, .refl listed w⟩
  | cons d ds ih =>
    have others : ∀ e ∈ ds, e.outpoint ∈ listed := fun e mem => all e (List.mem_cons_of_mem d mem)
    let new : DepositRow := ⟨v, d.outpoint, d.amountSat, d.height, t, none⟩
    obtain ⟨k, w₁, ran, entered⟩ := entered_insertDeposit (w := w) (d := new) answers rfl
      (all d List.mem_cons_self) rfl
    have row₁ := (entered.vault v).trans row
    unfold insertDeposits
    rw [bind_eq, atOnce_attempt_bind, ran]
    match k with
    | 1 =>
      -- a new one is told of as received
      let event : EventRow := ⟨v, .received, [("amount_sat", .int d.amountSat),
        ("outpoint", .str d.outpoint), ("height", .int d.height)], w₁.clock⟩
      have told := atOnce_recordEvent answers row₁ event.kind event.detail
      obtain ⟨m, w', rest, more⟩ := ih (w := w₁.record event) row₁ others (n + 1)
      have received : Entered v listed w₁ (w₁.record event) := entered_record listed w₁ rfl
      show ∃ m w', atOnce ((logged _).bind _) o w₁ = (.ok m, w') ∧ Entered v listed w w'
      rw [atOnce_logged_bind, told]
      exact ⟨m, w', rest, entered.trans (received.trans more)⟩
    | 0 =>
      obtain ⟨m, w', rest, more⟩ := ih row₁ others n
      exact ⟨m, w', rest, entered.trans more⟩
    | k + 2 =>
      obtain ⟨m, w', rest, more⟩ := ih row₁ others n
      exact ⟨m, w', rest, entered.trans more⟩

/-- The mail to the owner is no part of the books. -/
theorem entered_mail (listed : List String) :
    Entered v listed w (atOnce (enqueueOwnerEmail S v .received) o w).2 := by
  refine atOnce_keeps (I := Entered v listed w) (Balance.aside_enqueueOwnerEmail .received) ?_
    (.refl listed w)
  intro a w₁ aside entered
  refine entered.trans ?_
  cases a with
  | exec st =>
    cases st with
    | insertNotification m =>
      simp only [Action.perform]
      split
      · exact .refl listed w₁
      · split
        · next db n ran =>
          simp only [Stmt.run] at ran
          split at ran <;> cases ran
          exact entered_of_same listed rfl rfl rfl rfl
        · exact .refl listed w₁
    | _ => exact aside.elim
  | ask x =>
    refine entered_of_same listed ?_ ?_ ?_ ?_ <;>
      simp only [Action.perform, External.effect] <;> split <;> rfl
  | payCheckin | payPanic => exact aside.elim
  | _ => exact entered_of_same listed rfl rfl rfl rfl

/-- `record_new_deposits`, as a whole. -/
theorem entered_of_recordNewDeposits (answers : o.dbFails = false) {r : VaultRow}
    (row : w.vault? v = some r) (scan : Scan) :
    ∃ w', atOnce (recordNewDeposits S v scan.deposits t) o w = (.ok (), w') ∧
      Entered v scan.outpoints w w' := by
  have counted : atOnce (query (.depositCount v)) o w =
      (.ok (w.db.deposits.affected fun d => d.vaultId = v), w) :=
    atOnce_query_eq_ok.2 ⟨answers, rfl, rfl⟩
  obtain ⟨m, w₁, ran, entered⟩ := entered_insertDeposits (t := t) answers row
    (fun d => Balance.Scan.mem_outpoints_of_deposit) 0
  unfold recordNewDeposits
  rw [bind_eq, atOnce_attempt_bind, counted, bind_eq, atOnce_ok_bind ran]
  dsimp only
  split
  · exact ⟨_, atOnce_logged _, entered.trans (entered_mail _)⟩
  · exact ⟨w₁, rfl, entered⟩

/-- The ledger and the feed after a scan that lists `still` has been booked. -/
structure Booked (v : VaultId) (still : List String) (w w' : World) : Prop where
  vault : ∀ k, w'.vault? k = w.vault? k
  rows : ∀ out d, ledger w v out = some d → ledger w' v out =
    some (if d.spentAt = none ∧ out ∉ still then { d with spentAt := some w.clock } else d)
  new : ∀ out d, ledger w v out = none → ledger w' v out = some d → out ∈ still ∧ d.spentAt = none
  quiet : ∀ out d, ledger w v out = some d → d.spentAt = none → out ∉ still →
    Explained w v d → told w' v out = told w v out
  reported : ∀ out d, ledger w v out = some d → d.spentAt = none → out ∉ still →
    ¬ Explained w v d → told w' v out = told w v out + 1
  others : ∀ out, (∀ d, ledger w v out = some d → d.spentAt = none → out ∈ still) →
    told w' v out = told w v out

theorem booked_of_bookScan (answers : o.dbFails = false) {r : VaultRow} (row : w.vault? v = some r)
    (scan : Scan) : Booked v scan.outpoints w (atOnce (bookScan S v scan) o w).2 := by
  obtain ⟨w₁, recorded, entered⟩ :=
    entered_of_recordNewDeposits (S := S) (t := w.clock) answers row scan
  obtain ⟨w', stamped, compared⟩ := compared_of_recordSpentDeposits (t := w.clock) answers
    ((entered.vault v).trans row) scan.outpoints
  -- enter what is new, then compare with what is missing
  have ran : atOnce (bookScan S v scan) o w = (.ok (), w') := by
    rw [bookScan, bind_eq, atOnce_now_bind, bind_eq, atOnce_ok_bind recorded, stamped]
  rw [ran]
  refine ⟨fun k => (compared.vault k).trans (entered.vault k), ?_, ?_, ?_, ?_, ?_⟩
  · intro out d here
    rw [compared.rows, entered.kept out d here, Option.map_some]
  · intro out d absent here
    rw [compared.rows] at here
    obtain ⟨d₁, here₁, rfl⟩ := Option.map_eq_some_iff.1 here
    rcases entered.new out d₁ here₁ with old | ⟨-, listed, unspent⟩
    · rw [absent] at old
      cases old
    · rw [if_neg fun stamps => stamps.2 listed]
      exact ⟨listed, unspent⟩
  · intro out d here unspent lacks explained
    rw [compared.quiet out d (entered.kept out d here) unspent lacks
      ((entered.explained d).2 explained), entered.told]
  · intro out d here unspent lacks unexplained
    rw [compared.reported out d (entered.kept out d here) unspent lacks
      fun explained => unexplained ((entered.explained d).1 explained), entered.told]
  · intro out other
    rw [compared.others out ?_, entered.told]
    intro d here unspent
    rcases entered.new out d here with old | ⟨-, listed, -⟩
    · exact other d old unspent
    · exact listed

/-- A balance request that goes through has booked a scan. -/
theorem booked_of_getVaultBalance {total : Nat}
    (came : atOnce (getVaultBalance S v) o w = (.ok total, w')) :
    ∃ scan urls ext int, o.answer (.fullScan urls ext int) = .ok scan ∧ total = scan.total ∧
      w' = (atOnce (bookScan S v scan) o w).2 := by
  obtain ⟨row, w₁, read, rest⟩ := atOnce_bind_eq_ok.1 came
  obtain ⟨-, -, same⟩ := atOnce_query_eq_ok.1 read
  clear came read
  subst same
  -- nothing is written before the scan
  obtain ⟨r, w₂, found, rest⟩ := atOnce_bind_eq_ok.1 rest
  cases atOnce_still (by cases row <;> trivial) found
  obtain ⟨network, w₃, known, rest⟩ := atOnce_bind_eq_ok.1 rest
  cases atOnce_still (Balance.still_storedNetwork r) known
  obtain ⟨u, w₄, valid, rest⟩ := atOnce_bind_eq_ok.1 rest
  cases atOnce_still (Balance.still_validated _ _) valid
  obtain ⟨urls, w₅, given, rest⟩ := atOnce_bind_eq_ok.1 rest
  cases atOnce_still (Balance.still_validated _ _) given
  obtain ⟨wallet, w₆, built, rest⟩ := atOnce_bind_eq_ok.1 rest
  cases atOnce_still (Balance.still_validated _ _) built
  obtain ⟨answer, w₇, asked, rest⟩ := atOnce_bind_eq_ok.1 rest
  cases asked
  split at rest
  · cases rest
  · next scan said =>
    obtain ⟨u', w₈, applied, rest⟩ := atOnce_bind_eq_ok.1 rest
    cases atOnce_still (Balance.still_validated _ _) applied
    obtain ⟨t, w₉, clock, rest⟩ := atOnce_bind_eq_ok.1 rest
    cases clock
    obtain ⟨u₁, w₁₀, recorded, rest⟩ := atOnce_bind_eq_ok.1 rest
    obtain ⟨u₂, w₁₁, stamped, rest⟩ := atOnce_bind_eq_ok.1 rest
    cases rest
    refine ⟨scan, urls, _, _, said, rfl, ?_⟩
    -- what follows it is the booking
    have whole := atOnce_ok_bind (w := w₁) recorded
      fun _ => recordSpentDeposits v scan.outpoints w₁.clock
    rw [bookScan, bind_eq, atOnce_now_bind]
    exact (congrArg Prod.snd (whole.trans stamped)).symm

/-- A database that does not answer keeps the books as they are. -/
theorem db_of_fails (fails : o.dbFails = true) {α : Type} (p : Prog α) :
    (atOnce p o w).2.db = w.db := by
  induction p generalizing w with
  | done a => rfl
  | fail e => rfl
  | act a next ih =>
    refine (ih _ (w := (Action.perform a o w).2)).trans ?_
    cases a with
    | exec | payCheckin | payPanic => simp [Action.perform, fails]
    | ask x =>
      simp only [Action.perform, External.effect]
      split <;> rfl
    | _ => rfl

end Booking

/-! ## §4 Along a history -/

/-- What every account keeps, whatever happens. -/
structure Kept (v : VaultId) (a : Account) : Prop where
  vault : ∃ r, a.world.vault? v = some r
  apart : ∀ out, a.onChain out → a.takenBy out = none
  seen : ∀ out d, ledger a.world v out = some d → a.onChain out ∨ a.takenBy out ≠ none
  stamped : ∀ out d, ledger a.world v out = some d → d.spentAt ≠ none → a.takenBy out ≠ none
  silent : ∀ out, (∀ d, ledger a.world v out = some d → d.spentAt = none) →
    told a.world v out = 0
  once : ∀ out, told a.world v out ≤ 1

/-- Every stamp has been told of exactly if the deposit was taken elsewhere. -/
def Squared (v : VaultId) (a : Account) : Prop :=
  ∀ out d, ledger a.world v out = some d → d.spentAt ≠ none →
    told a.world v out = if a.takenBy out = some .elsewhere then 1 else 0

/-- The deposits a scan would find gone for the first time: the server took one exactly if an
event of its own spends is no older than the deposit's first sighting. -/
def TimesTell (v : VaultId) (a : Account) : Prop :=
  ∀ out d spender, ledger a.world v out = some d → d.spentAt = none →
    a.takenBy out = some spender → (spender = .server ↔ Explained a.world v d)

section Along

variable {S : Server} {v : VaultId} {w : World} {a : Account} {ms : List Move}

theorem onChain_settle (a : Account) (outpoint : String) (confirmedAt : Option Nat) (out : String) :
    (a.settle outpoint confirmedAt).onChain out ↔ a.onChain out := by
  have same : (a.settle outpoint confirmedAt).chain.map Utxo.outpoint =
      a.chain.map Utxo.outpoint := by
    unfold Account.settle
    rw [List.map_map]
    refine List.map_congr_left fun u _ => ?_
    dsimp only [Function.comp]
    split <;> rfl
  unfold Account.onChain
  rw [same]

theorem onChain_spend (a : Account) (spender : Spender) (inputs : List String) (out : String) :
    (a.spend spender inputs).onChain out ↔ a.onChain out ∧ out ∉ inputs := by
  unfold Account.onChain Account.spend
  simp only [List.mem_map, List.mem_filter, decide_eq_true_eq]
  constructor
  · rintro ⟨u, ⟨mem, left⟩, rfl⟩
    exact ⟨⟨u, mem, rfl⟩, left⟩
  · rintro ⟨⟨u, mem, rfl⟩, left⟩
    exact ⟨u, ⟨mem, left⟩, rfl⟩

/-- What was taken stays taken by the same. -/
theorem takenBy_spend (kept : Kept v a) (spender : Spender) (inputs : List String) {out : String}
    (taken : a.takenBy out ≠ none) : (a.spend spender inputs).takenBy out = a.takenBy out := by
  have off : ¬ a.onChain out := fun on => taken (kept.apart out on)
  unfold Account.spend
  simp [off]

theorem after_snoc (ms : List Move) (m : Move) :
    after S v w (ms ++ [m]) = (after S v w ms).apply S v m := by
  unfold after
  rw [List.foldl_append, List.foldl_cons, List.foldl_nil]

/-- The books after a scan, if the database has answered. -/
theorem Kept.booked (kept : Kept v a) {o : Oracle} (answers : o.dbFails = false) :
    Booked v (a.chain.map Utxo.outpoint) a.world (a.apply S v (.balance o)).world := by
  obtain ⟨r, row⟩ := kept.vault
  exact booked_of_bookScan answers row ⟨0, a.chain⟩

/-- A move of the chain, or of the clock, leaves the books alone. -/
theorem Kept.moved {a' : Account} (kept : Kept v a)
    (vault : ∀ k, a'.world.vault? k = a.world.vault? k)
    (rows : ∀ out, ledger a'.world v out = ledger a.world v out)
    (tells : ∀ out, told a'.world v out = told a.world v out)
    (apart : ∀ out, a'.onChain out → a'.takenBy out = none)
    (seen : ∀ out, a.onChain out → a'.onChain out ∨ a'.takenBy out ≠ none)
    (taken : ∀ out, a.takenBy out ≠ none → a'.takenBy out ≠ none) : Kept v a' := by
  obtain ⟨r, row⟩ := kept.vault
  refine ⟨⟨r, (vault v).trans row⟩, apart, ?_, ?_, ?_,
    fun out => (tells out).trans_le (kept.once out)⟩
  · intro out d here
    rw [rows] at here
    exact (kept.seen out d here).elim (seen out) fun gone => .inr (taken out gone)
  · intro out d here spent
    rw [rows] at here
    exact taken out (kept.stamped out d here spent)
  · intro out unspent
    rw [tells]
    refine kept.silent out fun d here => unspent d ?_
    rw [rows]
    exact here

/-- A scan leaves the chain alone. -/
theorem kept_balance (kept : Kept v a) (o : Oracle) : Kept v (a.apply S v (.balance o)) := by
  cases answers : o.dbFails with
  -- without the database nothing is booked
  | true =>
    have same : (a.apply S v (.balance o)).world.db = a.world.db := db_of_fails answers _
    refine kept.moved (fun k => ?_) (fun out => ?_) (fun out => ?_) kept.apart (fun out => .inl)
      fun out => id
    · rw [World.vault?, same, World.vault?]
    · rw [ledger, same, ledger]
    · rw [told, same, told]
  | false =>
    have booked := kept.booked (S := S) answers
    obtain ⟨r, row⟩ := kept.vault
    refine ⟨⟨r, (booked.vault v).trans row⟩, kept.apart, ?_, ?_, ?_, ?_⟩
    -- a row is of a coin that was seen
    · intro out d here
      cases before : ledger a.world v out with
      | some d₀ => exact kept.seen out d₀ before
      | none => exact .inl (booked.new out d before here).1
    -- a stamped coin has left the chain
    · intro out d here spent
      cases before : ledger a.world v out with
      | none => exact absurd (booked.new out d before here).2 spent
      | some d₀ =>
        rw [booked.rows out d₀ before] at here
        cases here
        split at spent
        · next stamps => exact (kept.seen out d₀ before).resolve_left stamps.2
        · exact kept.stamped out d₀ before spent
    -- an unspent row was never told of
    · intro out unspent
      have still : ∀ d, ledger a.world v out = some d → d.spentAt = none ∧
          out ∈ a.chain.map Utxo.outpoint := by
        intro d here
        have after := unspent _ (booked.rows out d here)
        by_contra absent
        split at after
        · cases after
        · next stays => exact absent ⟨after, not_not.1 fun lacks => stays ⟨after, lacks⟩⟩
      rw [booked.others out fun d here _ => (still d here).2]
      exact kept.silent out fun d here => (still d here).1
    -- at most one notice: the scan that stamps a row is the only one that tells of it
    · intro out
      by_cases first : ∃ d, ledger a.world v out = some d ∧ d.spentAt = none ∧
          out ∉ a.chain.map Utxo.outpoint
      · obtain ⟨d, here, unspent, lacks⟩ := first
        have untold : told a.world v out = 0 := kept.silent out fun d' here' => by
          rw [here] at here'
          cases here'
          exact unspent
        by_cases explained : Explained a.world v d
        · rw [booked.quiet out d here unspent lacks explained, untold]
          exact Nat.zero_le 1
        · rw [booked.reported out d here unspent lacks explained, untold]
      · rw [booked.others out fun d here unspent => ?_]
        · exact kept.once out
        · by_contra lacks
          exact first ⟨d, here, unspent, lacks⟩

theorem told_tell (spend : ServerSpend) (detail : Detail) (t : Instant) (out : String) :
    told (w.record ⟨v, spend.kind, detail, t⟩) v out = told w v out := by
  rw [told_record]
  cases spend <;> simp [tells, ServerSpend.kind]

theorem kept_apply (kept : Kept v a) (m : Move) : Kept v (a.apply S v m) := by
  -- one case per move: only a scan writes the books
  cases m with
  | pass n =>
    exact kept.moved (fun _ => rfl) (fun _ => rfl) (fun _ => rfl) kept.apart (fun _ => .inl)
      fun _ => id
  | arrive u =>
    show Kept v (a.arrive u)
    unfold Account.arrive
    split
    · exact kept
    · next fresh =>
      have grown : ∀ out, Account.onChain { a with chain := a.chain ++ [u] } out ↔
          a.onChain out ∨ out = u.outpoint := by
        simp [Account.onChain, eq_comm]
      refine kept.moved (fun _ => rfl) (fun _ => rfl) (fun _ => rfl) (fun out on => ?_)
        (fun out on => .inl ((grown out).2 (.inl on))) fun _ => id
      rcases (grown out).1 on with old | rfl
      · exact kept.apart out old
      · exact Option.not_isSome_iff_eq_none.1 fun taken => fresh (.inr taken)
  | settle outpoint confirmedAt =>
    have same := onChain_settle a outpoint confirmedAt
    exact kept.moved (fun _ => rfl) (fun _ => rfl) (fun _ => rfl)
      (fun out on => kept.apart out ((same out).1 on)) (fun out on => .inl ((same out).2 on))
      fun _ => id
  | spend spender inputs =>
    have left := onChain_spend a spender inputs
    refine kept.moved (fun _ => rfl) (fun _ => rfl) (fun _ => rfl) (fun out on => ?_)
      (fun out on => ?_) (fun out taken => ?_)
    · obtain ⟨was, stays⟩ := (left out).1 on
      show (if a.onChain out ∧ out ∈ inputs then some spender else a.takenBy out) = none
      rw [if_neg fun both => stays both.2]
      exact kept.apart out was
    · by_cases selected : out ∈ inputs
      · refine .inr ?_
        show (if a.onChain out ∧ out ∈ inputs then some spender else a.takenBy out) ≠ none
        rw [if_pos ⟨on, selected⟩]
        exact Option.some_ne_none _
      · exact .inl ((left out).2 ⟨on, selected⟩)
    · exact (takenBy_spend kept spender inputs taken).symm ▸ taken
  | tell spend detail =>
    exact kept.moved (fun _ => rfl) (fun _ => rfl) (fun out => told_tell spend detail _ out)
      kept.apart (fun _ => .inl) fun _ => id
  | balance o => exact kept_balance kept o

theorem kept_after (fresh : Fresh v w) (ms : List Move) : Kept v (after S v w ms) := by
  induction ms using List.reverseRecOn with
  | nil =>
    have absent : ∀ out d, ledger w v out ≠ some d := fun out d here => by
      rw [fresh.ledger out] at here
      cases here
    exact ⟨fresh.vault, fun _ _ => rfl, fun out d here => absurd here (absent out d),
      fun out d here => absurd here (absent out d), fun out _ => fresh.silent out,
      fun out => (fresh.silent out).trans_le (Nat.zero_le 1)⟩
  | append_singleton ms m ih =>
    rw [after_snoc]
    exact kept_apply ih m

/-- A move of the chain, or of the clock, leaves the stamps as told of. -/
theorem Squared.moved {a' : Account} (kept : Kept v a) (squared : Squared v a)
    (rows : ∀ out, ledger a'.world v out = ledger a.world v out)
    (tells : ∀ out, told a'.world v out = told a.world v out)
    (taken : ∀ out, a.takenBy out ≠ none → a'.takenBy out = a.takenBy out) : Squared v a' := by
  intro out d here spent
  rw [rows] at here
  rw [tells, taken out (kept.stamped out d here spent)]
  exact squared out d here spent

/-- A scan whose times tell the truth leaves every stamp told of as it should be. -/
theorem squared_balance (kept : Kept v a) (squared : Squared v a) {o : Oracle}
    (answers : o.dbFails = false) (times : TimesTell v a) :
    Squared v (a.apply S v (.balance o)) := by
  have booked := kept.booked (S := S) answers
  intro out d' here spent
  cases before : ledger a.world v out with
  | none => exact absurd (booked.new out d' before here).2 spent
  | some d =>
    rw [booked.rows out d before] at here
    cases here
    split at spent
    -- stamped by this scan: told of exactly where the times explain nothing
    · next stamps =>
      obtain ⟨unspent, lacks⟩ := stamps
      have untold : told a.world v out = 0 := kept.silent out fun d' here' => by
        rw [before] at here'
        cases here'
        exact unspent
      have taken := (kept.seen out d before).resolve_left lacks
      obtain ⟨spender, who⟩ := Option.ne_none_iff_exists'.1 taken
      have truth := times out d spender before unspent who
      cases spender with
      | server =>
        have other : a.takenBy out ≠ some .elsewhere := by simp [who]
        rw [booked.quiet out d before unspent lacks (truth.1 rfl), untold]
        exact (if_neg other).symm
      | elsewhere =>
        have unexplained : ¬ Explained a.world v d := fun explained => by cases truth.2 explained
        rw [booked.reported out d before unspent lacks unexplained, untold]
        exact (if_pos who).symm
    -- stamped before: this scan tells nothing of it
    · rw [booked.others out fun d'' here' unspent => ?_]
      · exact squared out d before spent
      · rw [before] at here'
        cases here'
        exact absurd unspent spent

theorem squared_apply (kept : Kept v a) (squared : Squared v a) {m : Move}
    (times : ∀ o, m = .balance o → o.dbFails = false → TimesTell v a) :
    Squared v (a.apply S v m) := by
  cases m with
  | pass n => exact squared.moved kept (fun _ => rfl) (fun _ => rfl) fun _ _ => rfl
  | arrive u =>
    show Squared v (a.arrive u)
    unfold Account.arrive
    split
    · exact squared
    · exact squared.moved kept (fun _ => rfl) (fun _ => rfl) fun _ _ => rfl
  | settle outpoint confirmedAt =>
    exact squared.moved kept (fun _ => rfl) (fun _ => rfl) fun _ _ => rfl
  | spend spender inputs =>
    exact squared.moved kept (fun _ => rfl) (fun _ => rfl)
      fun _ => takenBy_spend kept spender inputs
  | tell spend detail =>
    exact squared.moved kept (fun _ => rfl) (fun out => told_tell spend detail _ out) fun _ _ => rfl
  | balance o =>
    cases answers : o.dbFails with
    | true =>
      have same : (a.apply S v (.balance o)).world.db = a.world.db := db_of_fails answers _
      refine squared.moved kept (fun out => ?_) (fun out => ?_) fun _ _ => rfl
      · rw [ledger, same, ledger]
      · rw [told, same, told]
    | false => exact squared_balance kept squared answers (times o rfl answers)

end Along

/-! ## §5 Attribution -/

/-- Each deposit in the ledger that was taken elsewhere is told of once, from the first scan on;
one that the server took never is. -/
structure Attributed (S : Server) (v : VaultId) (w : World) (ms : List Move) : Prop where
  server : ∀ pre out, pre <+: ms → (ledger (after S v w pre).world v out).isSome →
    (after S v w pre).takenBy out = some .server → told (after S v w pre).world v out = 0
  once : ∀ pre out, pre <+: ms → told (after S v w pre).world v out ≤ 1
  reported : ∀ pre o out, pre ++ [.balance o] <+: ms → o.dbFails = false →
    (ledger (after S v w pre).world v out).isSome →
      (after S v w pre).takenBy out = some .elsewhere →
        told (after S v w (pre ++ [.balance o])).world v out = 1

/-- At every scan the times tell the truth. -/
def InOrder (S : Server) (v : VaultId) (w : World) (ms : List Move) : Prop :=
  ∀ pre o, pre ++ [.balance o] <+: ms → o.dbFails = false → TimesTell v (after S v w pre)

section Attribution

variable {S : Server} {v : VaultId} {w : World} {ms : List Move}

/-- Who took an output has spent it. -/
theorem spent_of_taken {out : String} {s : Spender} :
    (after S v w ms).takenBy out = some s → ∃ inputs, .spend s inputs ∈ ms := by
  induction ms using List.reverseRecOn with
  | nil => exact fun none => by cases none
  | append_singleton ms m ih =>
    rw [after_snoc]
    intro taken
    have before : (after S v w ms).takenBy out = some s → ∃ inputs, .spend s inputs ∈ ms ++ [m] :=
      fun taken => (ih taken).imp fun _ mem => List.mem_append_left _ mem
    cases m with
    | spend spender inputs =>
      simp only [Account.apply, Account.spend] at taken
      split at taken
      · cases taken
        exact ⟨inputs, List.mem_append_right _ List.mem_cons_self⟩
      · exact before taken
    | arrive u =>
      simp only [Account.apply, Account.arrive] at taken
      split at taken <;> exact before taken
    | _ => exact before taken

theorem squared_after (fresh : Fresh v w) (order : InOrder S v w ms) :
    Squared v (after S v w ms) := by
  induction ms using List.reverseRecOn with
  | nil =>
    intro out d here
    exact absurd ((fresh.ledger out).symm.trans here) (by simp)
  | append_singleton ms m ih =>
    rw [after_snoc]
    refine squared_apply (kept_after fresh ms) (ih ?_) ?_
    · intro pre o stands
      exact order pre o (stands.trans (List.prefix_append ms [m]))
    · rintro o rfl
      exact order ms o (List.prefix_refl _)

/-- Every departure is told of as it should be exactly if the times tell the truth whenever a
scan is booked. -/
theorem attributed_iff (fresh : Fresh v w) : Attributed S v w ms ↔ InOrder S v w ms := by
  constructor
  -- a scan out of order: its own report would go against what moved the coin
  · intro attributed pre o stands answers out d spender here unspent who
    have kept := kept_after (S := S) fresh pre
    have booked := kept.booked (S := S) answers
    have known : (ledger (after S v w pre).world v out).isSome := by rw [here]; rfl
    have untold : told (after S v w pre).world v out = 0 := kept.silent out fun d' here' => by
      rw [here] at here'
      cases here'
      exact unspent
    have lacks : out ∉ (after S v w pre).chain.map Utxo.outpoint := by
      intro on
      rw [kept.apart out on] at who
      cases who
    constructor
    -- told of a spend the server built
    · rintro rfl
      by_contra unexplained
      have still := attributed.server (pre ++ [.balance o]) out stands
      rw [after_snoc] at still
      have zero := still (by rw [booked.rows out d here]; rfl) who
      rw [booked.reported out d here unspent lacks unexplained] at zero
      cases zero
    -- silent about a spend from elsewhere
    · intro explained
      cases spender with
      | server => rfl
      | elsewhere =>
        have one := attributed.reported pre o out stands answers known who
        rw [after_snoc, booked.quiet out d here unspent lacks explained, untold] at one
        cases one
  -- in order, every booked row says what moved its coin, and it is told of once
  · intro order
    have early : ∀ pre, pre <+: ms → Squared v (after S v w pre) := fun pre stands =>
      squared_after fresh fun pre' o stands' => order pre' o (stands'.trans stands)
    refine ⟨fun pre out stands known who => ?_, fun pre out _ => (kept_after fresh pre).once out,
      fun pre o out stands answers known who => ?_⟩
    -- a coin the server spent is not told of
    · obtain ⟨d, here⟩ := Option.isSome_iff_exists.1 known
      by_cases unspent : d.spentAt = none
      · refine (kept_after fresh pre).silent out fun d' here' => ?_
        rw [here] at here'
        cases here'
        exact unspent
      · rw [early pre stands out d here unspent, if_neg (by simp [who])]
    -- a coin spent elsewhere is, once the scan has booked it
    · obtain ⟨d, here⟩ := Option.isSome_iff_exists.1 known
      have kept := kept_after (S := S) fresh pre
      have lacks : out ∉ (after S v w pre).chain.map Utxo.outpoint := by
        intro on
        rw [kept.apart out on] at who
        cases who
      have row := (kept.booked (S := S) answers).rows out d here
      have squared := early _ stands
      rw [after_snoc] at squared ⊢
      refine (squared out _ row ?_).trans (if_pos who)
      split
      · exact Option.some_ne_none _
      · next stays => exact fun unspent => stays ⟨unspent, lacks⟩

end Attribution

/-! ## §6 Two thefts -/

section Thefts

open Deployment

theorem fresh_holding : Fresh "v" (Balance.holding []) :=
  ⟨⟨Balance.scanned, rfl⟩, fun _ => rfl, fun _ => rfl⟩

/-- A deposit is recorded, and then taken elsewhere. -/
def robbed : List Move :=
  [.arrive ⟨"first", 10000, some 100, true⟩, .balance (oracle "" []), .pass 1,
    .spend .elsewhere ["first"]]

theorem attributed_iff_robbed :
    Attributed (host 0) "v" (Balance.holding []) (robbed ++ [.balance (oracle "" [])]) ∧
      told (after (host 0) "v" (Balance.holding [])
        (robbed ++ [.balance (oracle "" [])])).world "v" "first" = 1 := by
  have order : InOrder (host 0) "v" (Balance.holding []) (robbed ++ [.balance (oracle "" [])]) := by
    rintro pre o ⟨rest, same⟩ - out d spender here unspent who
    -- only the last scan is after a theft, and the server has sent nothing and says so
    obtain ⟨inputs, mem⟩ := spent_of_taken who
    obtain ⟨rfl, rfl⟩ : pre = robbed ∧ spender = .elsewhere := by
      rcases pre with _ | ⟨_, _ | ⟨_, _ | ⟨_, _ | ⟨_, _ | ⟨_, more⟩⟩⟩⟩⟩ <;>
        simp [robbed] at same mem ⊢ <;> simp_all
    have unsaid : (after (host 0) "v" (Balance.holding []) robbed).world.db.events.all (fun e =>
        e.kind ≠ .ownerSend ∧ e.kind ≠ .claimBroadcast) = true := by
      decide +kernel
    refine ⟨fun same => (by cases same), ?_⟩
    rintro ⟨e, listed, -, kind, -⟩
    obtain ⟨notSend, notClaim⟩ := of_decide_eq_true (List.all_eq_true.1 unsaid e listed)
    exact absurd kind (not_or.2 ⟨notSend, notClaim⟩)
  have attributed := (attributed_iff fresh_holding).2 order
  exact ⟨attributed, attributed.reported robbed (oracle "" []) "first" (List.prefix_refl _) rfl
    (by decide +kernel) (by decide +kernel)⟩

/-- Two deposits are recorded, and a send selects the second; then the first is stolen. -/
def stolen : List Move :=
  [.arrive ⟨"first", 10000, some 100, true⟩, .arrive ⟨"second", 100000, some 100, true⟩,
    .balance (oracle "" []), .pass 1, .spend .server ["second"], .tell .ownerSend [], .pass 1,
    .spend .elsewhere ["first"]]

/-- The next scan says nothing of it. -/
theorem silent_stolen :
    let before := after (host 0) "v" (Balance.holding []) stolen
    let booked := after (host 0) "v" (Balance.holding []) (stolen ++ [.balance (oracle "" [])])
    (ledger before.world "v" "first").isSome ∧ before.takenBy "first" = some .elsewhere ∧
      told booked.world "v" "first" = 0 := by
  decide +kernel

theorem not_attributed : ¬ ∀ (S : Server) (v : VaultId) (w : World) (ms : List Move),
    Fresh v w → Attributed S v w ms := by
  intro attributed
  obtain ⟨known, who, untold⟩ := silent_stolen
  have one := (attributed (host 0) "v" _ (stolen ++ [.balance (oracle "" [])])
    fresh_holding).reported stolen (oracle "" []) "first" (List.prefix_refl _) rfl known who
  rw [untold] at one
  cases one

end Thefts

end Departures

end GhostKey

import GhostKey.Foundation.GapScan
import GhostKey.Foundation.Ledger
import GhostKey.Foundation.Record
import Mathlib.Algebra.BigOperators.Group.List.Basic
import Mathlib.Algebra.Ring.Nat

/-!
# The Recovery Kit

The kit asks a block explorer for the vault's coins, fetches the transactions that made
them, and hands those transactions to an offline wallet that signs one payment of
everything it sees in them.

Layers:
1. the chain and what an explorer says of it;
2. `onFind`, the scan of the kit's page;
3. `loadUtxos`, `run` and `onSign`, with the wallet library as a parameter;
4. what the scan lists and what the wallet is fed, read off the chain;
5. what the signed payment spends: `sweep_faithful_iff`.
-/

namespace GhostKey

namespace Kit

open Foundation

/-! ## §1 The chain -/

inductive KeychainKind where
  | external
  | internal
  deriving DecidableEq

/-- The addresses of a vault: distinct indices have distinct scripts. -/
structure VaultScripts (σ : Type) where
  script : KeychainKind → Nat → σ
  distinct : ∀ {k k' i i'}, script k i = script k' i' → k = k' ∧ i = i'

/-- The confirmed transactions with their heights, and those waiting. -/
structure View (σ : Type) where
  chain : List (Transaction σ × Nat)
  mempool : List (Transaction σ)
  distinct : Ledger.Distinct (chain.map Prod.fst ++ mempool)

namespace View

variable {σ : Type} [DecidableEq σ]

def txs (view : View σ) : Ledger σ := view.chain.map Prod.fst ++ view.mempool

def height? (view : View σ) (txid : String) : Option Nat :=
  (view.chain.find? fun p => p.1.txid = txid).map Prod.snd

/-- Some unspent output pays the script. -/
def funded (view : View σ) (a : σ) : Bool := view.txs.unspent.any fun c => c.out.script = a

end View

structure UtxoStatus where
  confirmed : Bool
  block_height : Option Nat
  deriving DecidableEq

structure EsploraUtxo where
  txid : String
  vout : Nat
  value : Nat
  status : UtxoStatus
  deriving DecidableEq

def EsploraUtxo.outpoint (u : EsploraUtxo) : Outpoint := ⟨u.txid, u.vout⟩

section Scan

variable {σ : Type} [DecidableEq σ]

/-- How an explorer shows a coin. -/
def View.utxo (view : View σ) (c : LedgerCoin σ) : EsploraUtxo where
  txid := c.outpoint.txid
  vout := c.outpoint.vout
  value := c.out.value
  status :=
    match view.height? c.outpoint.txid with
    | some h => ⟨true, some h⟩
    | none => ⟨false, none⟩

def View.utxosAt (view : View σ) (a : σ) : List EsploraUtxo :=
  (view.txs.unspent.filter fun c => c.out.script = a).map view.utxo

/-- The three requests of the kit, each of which may fail. -/
structure Explorer (σ : Type) where
  utxo : σ → Except String (List EsploraUtxo)
  txHex : String → Except String (Transaction σ)
  tipHeight : Except String Nat

/-- The answers an explorer gives agree with the chain. -/
structure Explorer.Consistent (e : Explorer σ) (view : View σ) : Prop where
  utxo : ∀ a us, e.utxo a = .ok us → us.Perm (view.utxosAt a)
  txHex : ∀ txid t, e.txHex txid = .ok t → t ∈ view.txs ∧ t.txid = txid
  tip : ∀ n, e.tipHeight = .ok n → ∀ p ∈ view.chain, p.2 ≤ n

/-! ## §2 The scan -/

def SCAN_COUNT : Nat := 30

def GAP_LIMIT : Nat := 20

structure FundingInput (σ : Type) where
  tx : Transaction σ
  confirmation_height : Nat

structure Found (σ : Type) where
  confirmed : List EsploraUtxo
  funding : List (FundingInput σ)
  chainTip : Nat
  total : Nat

/-- The loop over one keychain's addresses. -/
def scanList (e : Explorer σ) : List σ → Nat → Except String (List EsploraUtxo)
  | [], _ => .ok []
  | addr :: list, gap => do
      let found ← e.utxo addr
      if found = [] then
        if gap + 1 ≥ GAP_LIMIT then .ok [] else scanList e list (gap + 1)
      else
        let rest ← scanList e list 0
        .ok (found ++ rest)

def deriveAddresses (V : VaultScripts σ) (k : KeychainKind) (count : Nat) : List σ :=
  (List.range count).map (V.script k)

/-- A height of zero is falsy. -/
def isConfirmed (u : EsploraUtxo) : Bool := u.status.confirmed && u.status.block_height.any (· ≠ 0)

/-- Nothing is found when no coin is confirmed. -/
def onFind (e : Explorer σ) (V : VaultScripts σ) : Except String (Option (Found σ)) := do
  let external ← scanList e (deriveAddresses V .external SCAN_COUNT) 0
  let internal ← scanList e (deriveAddresses V .internal SCAN_COUNT) 0
  let utxos := external ++ internal
  let confirmed := utxos.filter isConfirmed
  if confirmed = [] then .ok none
  else
    let byTxid : Record Nat :=
      confirmed.foldl (fun m u => m.set u.txid (u.status.block_height.getD 0)) []
    let funding ← byTxid.mapM fun p => do
      let tx ← e.txHex p.1
      .ok ⟨tx, p.2⟩
    let chainTip ← e.tipHeight
    .ok (some ⟨confirmed, funding, chainTip, (confirmed.map EsploraUtxo.value).sum⟩)

/-! ## §3 The signing -/

def REVEAL_BUFFER : Nat := 200

inductive VaultRole where
  | owner
  | heir
  deriving DecidableEq

/-- What an offline wallet was given. Its checkpoints are the heights beside the genesis. -/
structure Wallet (σ : Type) where
  revealed : KeychainKind → Nat
  checkpoints : List Nat
  txs : Ledger σ
  anchors : List (Nat × String)

/-- The wallet library: which keys it takes and addresses it reads, which scripts it watches
(those it revealed and some beyond), from which depth on a coinbase output may be spent, and
what it builds and signs. A payment without an amount draws every coin. -/
structure Bdk (V : VaultScripts σ) where
  build : VaultRole → Except String Unit
  address : String → Except String σ
  tracked : (KeychainKind → Nat) → σ → Bool
  tracked_revealed : ∀ {revealed k i}, i < revealed k → tracked revealed (V.script k i) = true
  mature : Nat → Nat → Bool
  draw : List (LedgerCoin σ) → Option Nat → Nat → Except String (List (LedgerCoin σ))
  draw_all : ∀ {cs rate xs}, draw cs none rate = .ok xs → xs.Perm cs
  fee : List (LedgerCoin σ) → Nat → Nat
  signs : VaultRole → List (LedgerCoin σ) → Bool

/-- A transaction is kept once. -/
def insertTx (txs : Ledger σ) (t : Transaction σ) : Ledger σ :=
  if txs.any fun t' => t'.txid = t.txid then txs else txs ++ [t]

/-- Every block but the genesis is put in with a hash of zeros; there it panics. -/
def insertCheckpoint (cp : List Nat) (height : Nat) : Option (List Nat) :=
  if height = 0 then none else some (height :: cp)

/-- `load_utxos`; without a result it panics. The update holds the wallet's own genesis, so
that it always connects. -/
def loadUtxos (w : Wallet σ) (funding : List (FundingInput σ)) (chain_tip_height : Nat) :
    Option (Wallet σ) := do
  let revealed := fun k => w.revealed k + REVEAL_BUFFER
  let cp ← funding.foldlM (fun cp f => insertCheckpoint cp f.confirmation_height) w.checkpoints
  let cp ← insertCheckpoint cp chain_tip_height
  some {
    revealed := revealed
    checkpoints := cp
    txs := funding.foldl (fun txs f => insertTx txs f.tx) w.txs
    anchors := w.anchors ++ funding.map fun f => (f.confirmation_height, f.tx.txid) }

/-- A wallet just created. -/
def Wallet.fresh : Wallet σ := ⟨fun _ => 0, [], [], []⟩

def Wallet.latestCheckpoint (w : Wallet σ) : Nat := w.checkpoints.foldl max 0

/-- An output of a coinbase transaction may wait for its depth. -/
def Wallet.isMature (w : Wallet σ) {V : VaultScripts σ} (bdk : Bdk V) (c : LedgerCoin σ) : Bool :=
  w.txs.all fun t => t.txid ≠ c.outpoint.txid || !t.coinbase ||
    w.anchors.any fun a => a.2 = t.txid && bdk.mature w.latestCheckpoint a.1

/-- The coins the wallet may draw: watched, unspent in its own transactions, mature. -/
def Wallet.available (w : Wallet σ) {V : VaultScripts σ} (bdk : Bdk V) : List (LedgerCoin σ) :=
  w.txs.unspent.filter fun c => bdk.tracked w.revealed c.out.script && w.isMature bdk c

structure SweepResult (σ : Type) where
  inputs : List (LedgerCoin σ)
  recipient : σ
  fee_sat : Nat

def finalize {V : VaultScripts σ} (bdk : Bdk V) (role : VaultRole) (inputs : List (LedgerCoin σ))
    (recipient : σ) (fee_rate : Nat) : Except String (SweepResult σ) :=
  if bdk.signs role inputs then .ok ⟨inputs, recipient, bdk.fee inputs fee_rate⟩
  else .error ("could not fully sign the sweep — check the key matches this vault and that the "
    ++ "funding transactions cover its coins")

def signSweep {V : VaultScripts σ} (bdk : Bdk V) (role : VaultRole)
    (funding : List (FundingInput σ)) (chain_tip_height : Nat) (recipient : σ)
    (amount_sat : Option Nat) (fee_rate : Nat) : Except String (SweepResult σ) := do
  bdk.build role
  match loadUtxos Wallet.fresh funding chain_tip_height with
  | none => .error "panicked: cannot replace genesis block"
  | some w =>
    let inputs ← bdk.draw (w.available bdk) amount_sat fee_rate
    finalize bdk role inputs recipient fee_rate

def parseRole (role : String) : Except String VaultRole :=
  if role = "owner" then .ok .owner
  else if role = "heir" then .ok .heir
  else .error "unknown role; expected \"owner\" or \"heir\""

/-- The heir's branch always drains. -/
def run {V : VaultScripts σ} (bdk : Bdk V) (role : String) (funding : List (FundingInput σ))
    (chain_tip_height : Nat) (recipient : String) (amount_sat : Option Nat)
    (fee_rate_sat_vb : Nat) : Except String (SweepResult σ) := do
  let role ← parseRole role
  let recipient ← bdk.address recipient
  if funding.isEmpty then .error "no funding transactions supplied — nothing to spend"
  else match role with
    | .owner => signSweep bdk .owner funding chain_tip_height recipient amount_sat fee_rate_sat_vb
    | .heir => signSweep bdk .heir funding chain_tip_height recipient none fee_rate_sat_vb

def roleText : VaultRole → String
  | .owner => "owner"
  | .heir => "heir"

/-- The kit passes what its scan left, and drains. -/
def onSign {V : VaultScripts σ} (bdk : Bdk V) (role : VaultRole) (f : Found σ) (recipient : String)
    (fee : Nat) : Except String (SweepResult σ) :=
  if recipient = "" then .error "Put the address of your own wallet at the top first."
  else run bdk (roleText role) f.funding f.chainTip recipient none (max 1 fee)

/-! ## §4 What is listed and what is fed -/

/-- The addresses the scan gets to before a gap or its window ends. -/
def View.addresses (view : View σ) (V : VaultScripts σ) : List σ :=
  [.external, .internal].flatMap fun k =>
    ((List.range SCAN_COUNT).filter fun i =>
      Reaches GAP_LIMIT (fun j => view.funded (V.script k j)) i).map (V.script k)

/-- The unspent confirmed coins at these addresses. -/
def View.listed (view : View σ) (V : VaultScripts σ) : List (LedgerCoin σ) :=
  view.txs.unspent.filter fun c =>
    c.out.script ∈ view.addresses V && (view.height? c.outpoint.txid).any (· ≠ 0)

/-- A transaction that made a listed coin is fed to the wallet whole. -/
def View.Fed (view : View σ) (V : VaultScripts σ) (t : Transaction σ) : Prop :=
  t ∈ view.txs ∧ ∃ c ∈ t.coins, c ∈ view.listed V

theorem funded_iff {view : View σ} {a : σ} : view.funded a = true ↔ view.utxosAt a ≠ [] := by
  unfold View.funded View.utxosAt
  rw [Ne, List.map_eq_nil_iff, List.filter_eq_nil_iff, List.any_eq_true]
  constructor
  · rintro ⟨c, mem, pays⟩ none
    exact none c mem pays
  · intro some
    by_contra none
    exact some fun c mem pays => none ⟨c, mem, pays⟩

/-- A request that went through, and what came after it. -/
theorem bind_eq_ok {α β : Type} {x : Except String α} {f : α → Except String β} {b : β} :
    (x >>= f) = .ok b ↔ ∃ a, x = .ok a ∧ f a = .ok b := by
  cases x with
  | error msg =>
    constructor
    · intro failed
      cases failed
    · rintro ⟨a, failed, _⟩
      cases failed
  | ok a =>
    constructor
    · exact fun next => ⟨a, rfl, next⟩
    · rintro ⟨a', same, next⟩
      cases same
      exact next

/-- The loop visits what a scan with a gap limit visits, and keeps what it is told there. -/
theorem scanList_eq {e : Explorer σ} {view : View σ} (honest : e.Consistent view) {at_ : Nat → σ} :
    ∀ {n i gap : Nat} {us : List EsploraUtxo},
      scanList e ((List.range' i n).map at_) gap = .ok us →
        us.Perm ((gapScan GAP_LIMIT (fun j => view.funded (at_ j)) n i gap).flatMap
          fun j => view.utxosAt (at_ j))
  | 0, _, _, us, run => by
    cases run
    exact List.Perm.refl []
  | n + 1, i, gap, us, run => by
    rw [List.range'_succ, List.map_cons, scanList] at run
    obtain ⟨found, asked, run⟩ := bind_eq_ok.1 run
    have told := honest.utxo _ _ asked
    rw [gapScan, List.flatMap_cons]
    -- an address without coins lengthens the gap, any other ends it
    by_cases empty : found = []
    · rw [empty] at told
      have nothing : view.utxosAt (at_ i) = [] := told.nil_eq.symm
      have missed : ¬ view.funded (at_ i) = true := fun here => funded_iff.1 here nothing
      rw [if_pos empty] at run
      rw [nothing, List.nil_append, if_neg missed]
      split at run
      · next full =>
        cases run
        rw [if_pos full]
        exact List.Perm.refl []
      · next short =>
        rw [if_neg short]
        exact scanList_eq honest run
    · have held : view.funded (at_ i) = true := by
        refine funded_iff.2 fun none => empty ?_
        rw [none] at told
        exact told.eq_nil
      rw [if_neg empty] at run
      obtain ⟨rest, later, run⟩ := bind_eq_ok.1 run
      cases run
      rw [if_pos held]
      exact told.append (scanList_eq honest later)

theorem scanList_mem {e : Explorer σ} {view : View σ} (honest : e.Consistent view)
    {V : VaultScripts σ} {k : KeychainKind} {us : List EsploraUtxo}
    (run : scanList e (deriveAddresses V k SCAN_COUNT) 0 = .ok us) :
    us.Perm ((((List.range SCAN_COUNT).filter fun i =>
      Reaches GAP_LIMIT (fun j => view.funded (V.script k j)) i).map (V.script k)).flatMap
        view.utxosAt) := by
  unfold deriveAddresses at run
  rw [List.range_eq_range'] at run
  have perm := scanList_eq honest run
  rwa [gapScan_zero _ (by decide), ← List.flatMap_map] at perm

/-- What is paid to several addresses, one after the other or at once. -/
theorem flatMap_filter_perm {α β : Type} [DecidableEq β] (f : α → β) (l : List α) {as : List β}
    (distinct : as.Nodup) :
    (as.flatMap fun a => l.filter fun x => f x = a).Perm (l.filter fun x => f x ∈ as) := by
  induction as with
  | nil => simp
  | cons a as ih =>
    obtain ⟨fresh, rest⟩ := List.nodup_cons.1 distinct
    rw [List.flatMap_cons]
    have here : (l.filter fun x => f x ∈ a :: as).filter (fun x => f x = a) =
        l.filter fun x => f x = a := by
      rw [List.filter_filter]
      refine List.filter_congr fun x _ => ?_
      by_cases same : f x = a <;> simp [same]
    have there : (l.filter fun x => f x ∈ a :: as).filter (fun x => !decide (f x = a)) =
        l.filter fun x => f x ∈ as := by
      rw [List.filter_filter]
      refine List.filter_congr fun x _ => ?_
      by_cases same : f x = a
      · simp [same, fresh]
      · simp [same]
    have split := List.filter_append_perm (fun x => decide (f x = a))
      (l.filter fun x => f x ∈ a :: as)
    rw [here, there] at split
    exact ((List.Perm.refl _).append (ih rest)).trans split

theorem nodup_addresses (view : View σ) (V : VaultScripts σ) : (view.addresses V).Nodup := by
  have each : ∀ k (p : Nat → Bool), (((List.range SCAN_COUNT).filter p).map (V.script k)).Nodup :=
    fun k p => (List.nodup_range.filter p).map fun i j same => (V.distinct same).2
  unfold View.addresses
  rw [List.flatMap_cons, List.flatMap_cons, List.flatMap_nil, List.append_nil]
  refine (each _ _).append (each _ _) fun a ext int => ?_
  obtain ⟨i, _, rfl⟩ := List.mem_map.1 ext
  obtain ⟨j, _, same⟩ := List.mem_map.1 int
  cases (V.distinct same).1

omit [DecidableEq σ] in
theorem isConfirmed_utxo (view : View σ) (c : LedgerCoin σ) :
    isConfirmed (view.utxo c) = (view.height? c.outpoint.txid).any (· ≠ 0) := by
  unfold isConfirmed View.utxo
  cases view.height? c.outpoint.txid <;> simp

omit [DecidableEq σ] in
/-- The steps of a search that found something. -/
theorem onFind_eq {e : Explorer σ} {V : VaultScripts σ} {f : Found σ}
    (run : onFind e V = .ok (some f)) : ∃ external internal,
      scanList e (deriveAddresses V .external SCAN_COUNT) 0 = .ok external ∧
      scanList e (deriveAddresses V .internal SCAN_COUNT) 0 = .ok internal ∧
      f.confirmed = (external ++ internal).filter isConfirmed ∧
      (f.confirmed.foldl (fun m u => Record.set m u.txid (u.status.block_height.getD 0))
        []).mapM (fun p => do
          let tx ← e.txHex p.1
          .ok (⟨tx, p.2⟩ : FundingInput σ)) = .ok f.funding ∧
      e.tipHeight = .ok f.chainTip ∧ f.total = (f.confirmed.map EsploraUtxo.value).sum := by
  unfold onFind at run
  obtain ⟨external, ext, run⟩ := bind_eq_ok.1 run
  obtain ⟨internal, int, run⟩ := bind_eq_ok.1 run
  dsimp only at run
  split at run
  · cases run
  · obtain ⟨funding, fetched, run⟩ := bind_eq_ok.1 run
    obtain ⟨tip, asked, run⟩ := bind_eq_ok.1 run
    cases run
    exact ⟨external, internal, ext, int, rfl, fetched, asked, rfl⟩

/-- The scan lists the unspent confirmed coins at the addresses it gets to. -/
theorem confirmed_perm {e : Explorer σ} {view : View σ} (honest : e.Consistent view)
    {V : VaultScripts σ} {f : Found σ} (run : onFind e V = .ok (some f)) :
    f.confirmed.Perm ((view.listed V).map view.utxo) := by
  obtain ⟨external, internal, ext, int, confirmed, -, -, -⟩ := onFind_eq run
  have all : (external ++ internal).Perm ((view.addresses V).flatMap view.utxosAt) := by
    unfold View.addresses
    rw [List.flatMap_cons, List.flatMap_cons, List.flatMap_nil, List.append_nil,
      List.flatMap_append]
    exact (scanList_mem honest ext).append (scanList_mem honest int)
  have told : ((view.addresses V).flatMap view.utxosAt) =
      ((view.addresses V).flatMap fun a =>
        view.txs.unspent.filter fun c => c.out.script = a).map view.utxo := by
    rw [List.map_flatMap]
    rfl
  rw [told] at all
  have one := flatMap_filter_perm (fun c : LedgerCoin σ => c.out.script) view.txs.unspent
    (nodup_addresses view V)
  rw [confirmed]
  refine ((all.trans (one.map view.utxo)).filter isConfirmed).trans (List.Perm.of_eq ?_)
  unfold View.listed
  rw [List.filter_map, List.filter_filter]
  congr 1
  refine List.filter_congr fun c _ => ?_
  rw [Function.comp_apply, isConfirmed_utxo, Bool.and_comm]

theorem mem_confirmed {e : Explorer σ} {view : View σ} (honest : e.Consistent view)
    {V : VaultScripts σ} {f : Found σ} (run : onFind e V = .ok (some f)) {u : EsploraUtxo} :
    u ∈ f.confirmed ↔ ∃ c ∈ view.listed V, view.utxo c = u := by
  rw [(confirmed_perm honest run).mem_iff, List.mem_map]

/-- A listed coin lies in a transaction of the chain, at a height. -/
theorem listed_made {view : View σ} {V : VaultScripts σ} {c : LedgerCoin σ}
    (listed : c ∈ view.listed V) :
    (∃ t ∈ view.txs, c ∈ t.coins ∧ t.txid = c.outpoint.txid) ∧
      ∃ h, view.height? c.outpoint.txid = some h ∧ h ≠ 0 := by
  obtain ⟨unspent, both⟩ := List.mem_filter.1 listed
  obtain ⟨t, mem, made⟩ := Ledger.mem_coins.1 (Ledger.mem_unspent.1 unspent).1
  refine ⟨⟨t, mem, made, (Transaction.mem_coins.1 made).1.symm⟩, ?_⟩
  obtain ⟨h, at_, nonzero⟩ := (Option.any_eq_true _ _).1 (Bool.and_eq_true_iff.1 both).2
  exact ⟨h, at_, by simpa using nonzero⟩

omit [DecidableEq σ] in
/-- What a loop of requests fetched, one answer for each. -/
theorem mapM_map {α β γ : Type} {f : α → Except String β} {g : β → γ} {h : α → γ}
    (each : ∀ x y, f x = .ok y → g y = h x) :
    ∀ {l : List α} {ys : List β}, l.mapM f = .ok ys → ys.map g = l.map h
  | [], ys, run => by
    cases run
    rfl
  | x :: l, ys, run => by
    rw [List.mapM_cons] at run
    obtain ⟨y, first, run⟩ := bind_eq_ok.1 run
    obtain ⟨rest, others, run⟩ := bind_eq_ok.1 run
    cases run
    rw [List.map_cons, List.map_cons, each x y first, mapM_map each others]

omit [DecidableEq σ] in
theorem mapM_mem {α β : Type} {f : α → Except String β} :
    ∀ {l : List α} {ys : List β}, l.mapM f = .ok ys → ∀ y ∈ ys, ∃ x ∈ l, f x = .ok y
  | [], ys, run, y, mem => by
    cases run
    cases mem
  | x :: l, ys, run, y, mem => by
    rw [List.mapM_cons] at run
    obtain ⟨y', first, run⟩ := bind_eq_ok.1 run
    obtain ⟨rest, others, run⟩ := bind_eq_ok.1 run
    cases run
    rcases List.mem_cons.1 mem with rfl | later
    · exact ⟨x, List.mem_cons_self, first⟩
    · obtain ⟨x', inside, made⟩ := mapM_mem others y later
      exact ⟨x', List.mem_cons_of_mem x inside, made⟩

/-- What is fed: each transaction once, those of the listed coins, at their heights. -/
structure Feeds (view : View σ) (V : VaultScripts σ) (funding : List (FundingInput σ)) : Prop where
  distinct : Ledger.Distinct (funding.map FundingInput.tx)
  mem : ∀ t, t ∈ funding.map FundingInput.tx ↔ view.Fed V t
  heights : ∀ x ∈ funding, view.height? x.tx.txid = some x.confirmation_height ∧
    x.confirmation_height ≠ 0

theorem feeds_of_onFind {e : Explorer σ} {view : View σ} (honest : e.Consistent view)
    {V : VaultScripts σ} {f : Found σ} (run : onFind e V = .ok (some f)) :
    Feeds view V f.funding := by
  obtain ⟨-, -, -, -, -, fetched, -, -⟩ := onFind_eq run
  -- one look-up gives a transaction the view has, under the id asked for
  have each : ∀ (p : String × Nat) (x : FundingInput σ), (do
      let tx ← e.txHex p.1
      .ok (⟨tx, p.2⟩ : FundingInput σ)) = Except.ok x →
        x.tx ∈ view.txs ∧ x.tx.txid = p.1 ∧ x.confirmation_height = p.2 := by
    intro p x made
    obtain ⟨tx, asked, same⟩ := bind_eq_ok.1 made
    cases same
    have answer := honest.txHex _ _ asked
    exact ⟨answer.1, answer.2, rfl⟩
  have ids := mapM_map (g := fun x : FundingInput σ => x.tx.txid) (h := Prod.fst)
    (fun p x made => (each p x made).2.1) fetched
  -- every entry is of a listed coin, at its height
  have entry : ∀ x ∈ f.funding, ∃ c ∈ view.listed V, x.tx ∈ view.txs ∧
      x.tx.txid = c.outpoint.txid ∧
        x.confirmation_height = (view.height? c.outpoint.txid).getD 0 := by
    intro x mem
    obtain ⟨p, inside, made⟩ := mapM_mem fetched x mem
    obtain ⟨here, id, height⟩ := each p x made
    rcases Record.mem_foldl_set EsploraUtxo.txid (fun u => u.status.block_height.getD 0)
      f.confirmed inside with none | ⟨u, shown, rfl⟩
    · cases none
    · obtain ⟨c, listed, rfl⟩ := (mem_confirmed honest run).1 shown
      refine ⟨c, listed, here, id, height.trans ?_⟩
      unfold View.utxo
      cases view.height? c.outpoint.txid <;> rfl
  refine ⟨?_, fun t => ⟨fun mem => ?_, fun fed => ?_⟩, fun x mem => ?_⟩
  -- no transaction is handed over twice: the record has one entry per id
  · have distinct := Record.nodup_foldl_set EsploraUtxo.txid
      (fun u => u.status.block_height.getD 0) f.confirmed (r := []) List.nodup_nil
    rw [← ids] at distinct
    unfold Ledger.Distinct
    rwa [List.map_map]
  -- handed over means fed
  · obtain ⟨x, inside, rfl⟩ := List.mem_map.1 mem
    obtain ⟨c, listed, here, id, -⟩ := entry x inside
    obtain ⟨⟨t, there, made, same⟩, -⟩ := listed_made listed
    have one : t = x.tx := Ledger.tx_ext view.distinct there here (same.trans id.symm)
    exact ⟨here, c, one ▸ made, listed⟩
  -- fed means handed over: a listed coin's id is a key of the record
  · obtain ⟨there, c, made, listed⟩ := fed
    have shown := (mem_confirmed honest run).2 ⟨c, listed, rfl⟩
    have id : c.outpoint.txid = t.txid := (Transaction.mem_coins.1 made).1
    obtain ⟨h, kept, -⟩ := Record.get?_foldl_set_of_mem EsploraUtxo.txid
      (fun _ u => u.status.block_height.getD 0) (P := fun _ => True) (r := [])
      (fun _ _ _ _ => trivial) ⟨view.utxo c, shown, id⟩
    have key : t.txid ∈ f.funding.map fun x => x.tx.txid := by
      rw [ids]
      exact List.mem_map.2 ⟨_, Record.mem_of_get? kept, rfl⟩
    obtain ⟨x, inside, same⟩ := List.mem_map.1 key
    obtain ⟨-, -, here, -, -⟩ := entry x inside
    exact List.mem_map.2 ⟨x, inside, Ledger.tx_ext view.distinct here there same⟩
  · obtain ⟨c, listed, -, id, height⟩ := entry x mem
    obtain ⟨-, h, at_, nonzero⟩ := listed_made listed
    rw [id, height, at_]
    exact ⟨rfl, nonzero⟩

/-! ## §5 What the signed payment spends -/

omit [DecidableEq σ] in
theorem foldlM_insertCheckpoint (funding : List (FundingInput σ)) :
    ∀ cp : List Nat, funding.foldlM (fun cp f => insertCheckpoint cp f.confirmation_height) cp =
      if ∀ f ∈ funding, f.confirmation_height ≠ 0 then
        some ((funding.map FundingInput.confirmation_height).reverse ++ cp)
      else none := by
  induction funding with
  | nil => exact fun _ => by simp
  | cons f funding ih =>
    intro cp
    rw [List.foldlM_cons, insertCheckpoint]
    by_cases genesis : f.confirmation_height = 0
    · simp [genesis]
    · simp only [genesis, if_false, Option.bind_eq_bind, Option.bind_some, ih]
      by_cases rest : ∀ x ∈ funding, x.confirmation_height ≠ 0
      · simp [genesis]
      · rw [if_neg rest, if_neg fun all => rest fun x mem => all x (List.mem_cons_of_mem f mem)]

omit [DecidableEq σ] in
theorem foldl_insertTx (funding : List (FundingInput σ)) :
    ∀ txs : Ledger σ, Ledger.Distinct (txs ++ funding.map FundingInput.tx) →
      funding.foldl (fun txs f => insertTx txs f.tx) txs = txs ++ funding.map FundingInput.tx := by
  induction funding with
  | nil => exact fun txs _ => by simp
  | cons f funding ih =>
    intro txs distinct
    rw [List.map_cons] at distinct ⊢
    have step : txs ++ f.tx :: funding.map FundingInput.tx =
        (txs ++ [f.tx]) ++ funding.map FundingInput.tx := by simp
    have fresh : ¬ (txs.any fun t => t.txid = f.tx.txid) = true := by
      intro there
      obtain ⟨t, mem, same⟩ := List.any_eq_true.1 there
      unfold Ledger.Distinct at distinct
      rw [List.map_append, List.map_cons] at distinct
      have apart := (List.nodup_append.1 distinct).2.2
      exact apart _ (List.mem_map_of_mem mem) _ List.mem_cons_self (by simpa using same)
    rw [List.foldl_cons, insertTx, if_neg fresh, ih _ (step ▸ distinct), step]

omit [DecidableEq σ] in
/-- `load_utxos` panics at the genesis height and nowhere else. -/
theorem loadUtxos_ne_none_iff (w : Wallet σ) (funding : List (FundingInput σ)) (tip : Nat) :
    loadUtxos w funding tip ≠ none ↔ (∀ f ∈ funding, f.confirmation_height ≠ 0) ∧ tip ≠ 0 := by
  unfold loadUtxos
  rw [foldlM_insertCheckpoint]
  by_cases heights : ∀ f ∈ funding, f.confirmation_height ≠ 0
  · by_cases genesis : tip = 0
    · simp [insertCheckpoint, genesis]
    · simp only [if_pos heights, insertCheckpoint, genesis, if_false, Option.bind_eq_bind,
        Option.bind_some]
      exact iff_of_true (fun none => nomatch none) ⟨heights, genesis⟩
  · rw [if_neg heights]
    exact iff_of_false (fun some => some rfl) fun both => heights both.1

theorem foldl_max_le {l : List Nat} : ∀ {m : Nat}, (∀ x ∈ l, x ≤ m) → l.foldl max m = m := by
  induction l with
  | nil => exact fun _ => rfl
  | cons x l ih =>
    intro m below
    rw [List.foldl_cons, Nat.max_eq_left (below x List.mem_cons_self)]
    exact ih fun y mem => below y (List.mem_cons_of_mem x mem)

/-- The wallet after it was fed. -/
structure Loaded (funding : List (FundingInput σ)) (tip : Nat) (w : Wallet σ) : Prop where
  revealed : ∀ k, w.revealed k = REVEAL_BUFFER
  txs : w.txs = funding.map FundingInput.tx
  anchors : w.anchors = funding.map fun f => (f.confirmation_height, f.tx.txid)
  latest : w.latestCheckpoint = tip

omit [DecidableEq σ] in
theorem loaded_of_loadUtxos {funding : List (FundingInput σ)} {tip : Nat} {w : Wallet σ}
    (distinct : Ledger.Distinct (funding.map FundingInput.tx))
    (below : ∀ f ∈ funding, f.confirmation_height ≤ tip)
    (load : loadUtxos Wallet.fresh funding tip = some w) : Loaded funding tip w := by
  have good := (loadUtxos_ne_none_iff Wallet.fresh funding tip).1 (load ▸ fun none => nomatch none)
  unfold loadUtxos at load
  rw [foldlM_insertCheckpoint, if_pos good.1] at load
  simp only [insertCheckpoint, good.2, if_false, Option.bind_eq_bind, Option.bind_some] at load
  obtain rfl := Option.some.inj load
  refine ⟨fun k => Nat.zero_add _, ?_, List.nil_append _, ?_⟩
  · exact foldl_insertTx funding [] distinct
  · rw [Wallet.latestCheckpoint, List.foldl_cons, Nat.zero_max]
    refine foldl_max_le fun x mem => ?_
    rcases List.mem_append.1 mem with fed | fresh
    · obtain ⟨f, inside, rfl⟩ := List.mem_map.1 (List.mem_reverse.1 fed)
      exact below f inside
    · cases fresh

/-- An output of a coinbase transaction of the chain is deep enough. -/
def View.ripe (view : View σ) {V : VaultScripts σ} (bdk : Bdk V) (tip : Nat) (c : LedgerCoin σ) :
    Prop :=
  ∀ t ∈ view.txs, t.txid = c.outpoint.txid → t.coinbase = true →
    ∃ h, view.height? t.txid = some h ∧ bdk.mature tip h = true

/-- When the payment is what the reader was shown: every output of a fed transaction that the
wallet watches, and may draw, is a listed coin or was spent by another fed transaction; and
no listed coin has to ripen. -/
structure View.Covered (view : View σ) {V : VaultScripts σ} (bdk : Bdk V) (tip : Nat) : Prop where
  settled : ∀ t, view.Fed V t → ∀ c ∈ t.coins,
    bdk.tracked (fun _ => REVEAL_BUFFER) c.out.script = true → view.ripe bdk tip c →
      c ∈ view.listed V ∨ ∃ t', view.Fed V t' ∧ c.outpoint ∈ t'.inputs
  ripe : ∀ c ∈ view.listed V, view.ripe bdk tip c

/-- The payment spends the outputs the reader was shown, and their total. -/
structure Faithful (f : Found σ) (s : SweepResult σ) : Prop where
  inputs : (s.inputs.map LedgerCoin.outpoint).Perm (f.confirmed.map EsploraUtxo.outpoint)
  total : (s.inputs.map fun c => c.out.value).sum = f.total

section Sweep

variable {e : Explorer σ} {view : View σ} {V : VaultScripts σ} {bdk : Bdk V} {f : Found σ}
  {w : Wallet σ} {tip : Nat}

theorem isMature_iff (feeds : Feeds view V f.funding) (loaded : Loaded f.funding tip w)
    {c : LedgerCoin σ} (made : ∃ t, view.Fed V t ∧ c ∈ t.coins) :
    w.isMature bdk c = true ↔ view.ripe bdk tip c := by
  obtain ⟨t, fed, inside⟩ := made
  have id := (Transaction.mem_coins.1 inside).1
  have here : t ∈ f.funding.map FundingInput.tx := (feeds.mem t).2 fed
  unfold Wallet.isMature
  rw [loaded.txs, loaded.anchors, loaded.latest, List.all_eq_true]
  constructor
  -- a coinbase among the fed transactions is anchored at its height
  · intro all t' mem same coinbase
    obtain rfl : t' = t := Ledger.tx_ext view.distinct mem fed.1 (same.trans id)
    have one := all t' here
    simp only [same, coinbase, Bool.not_true, Bool.or_false, Bool.or_eq_true, ne_eq, not_true,
      decide_false, Bool.false_eq_true, false_or] at one
    obtain ⟨a, anchored, both⟩ := List.any_eq_true.1 one
    obtain ⟨x, fedx, rfl⟩ := List.mem_map.1 anchored
    obtain ⟨eq, deep⟩ := Bool.and_eq_true_iff.1 both
    have same' : x.tx.txid = t'.txid := by rw [same]; simpa using eq
    exact ⟨x.confirmation_height, same' ▸ (feeds.heights x fedx).1, deep⟩
  -- every copy that makes the coin is anchored deep enough
  · intro ripe t' mem
    by_cases same : t'.txid = c.outpoint.txid
    · cases coinbase : t'.coinbase with
      | false => simp
      | true =>
        obtain ⟨h, at_, deep⟩ := ripe t' ((feeds.mem t').1 mem).1 same coinbase
        obtain ⟨x, fedx, rfl⟩ := List.mem_map.1 mem
        have height : x.confirmation_height = h := by
          have := (feeds.heights x fedx).1
          rw [at_] at this
          exact (Option.some.inj this).symm
        have anchored : ((f.funding.map fun x => (x.confirmation_height, x.tx.txid)).any fun a =>
            a.2 = x.tx.txid && bdk.mature tip a.1) = true :=
          List.any_eq_true.2 ⟨_, List.mem_map_of_mem fedx, by simp [height, deep]⟩
        simp only [anchored, Bool.or_true]
    · simp [same]

/-- What the wallet may draw. -/
theorem mem_available (feeds : Feeds view V f.funding) (loaded : Loaded f.funding tip w)
    {c : LedgerCoin σ} : c ∈ w.available bdk ↔
      (∃ t, view.Fed V t ∧ c ∈ t.coins) ∧ (∀ t, view.Fed V t → c.outpoint ∉ t.inputs) ∧
        bdk.tracked (fun _ => REVEAL_BUFFER) c.out.script = true ∧ view.ripe bdk tip c := by
  have revealed : w.revealed = fun _ => REVEAL_BUFFER := funext loaded.revealed
  have coins : c ∈ Ledger.coins w.txs ↔ ∃ t, view.Fed V t ∧ c ∈ t.coins := by
    rw [loaded.txs, Ledger.mem_coins]
    exact exists_congr fun t => and_congr_left fun _ => feeds.mem t
  have spends : Ledger.spends w.txs c.outpoint = false ↔
      ∀ t, view.Fed V t → c.outpoint ∉ t.inputs := by
    rw [← Bool.not_eq_true, Ledger.spends_iff, loaded.txs]
    constructor
    · exact fun none t fed takes => none ⟨t, (feeds.mem t).2 fed, takes⟩
    · rintro none ⟨t, mem, takes⟩
      exact none t ((feeds.mem t).1 mem) takes
  unfold Wallet.available
  rw [List.mem_filter, Ledger.mem_unspent, coins, spends, Bool.and_eq_true, revealed]
  constructor
  · rintro ⟨⟨made, kept⟩, watched, mature⟩
    exact ⟨made, kept, watched, (isMature_iff feeds loaded made).1 mature⟩
  · rintro ⟨made, kept, watched, ripe⟩
    exact ⟨⟨made, kept⟩, watched, (isMature_iff feeds loaded made).2 ripe⟩

omit [DecidableEq σ] in
/-- A payment was signed over a wallet that was fed and drained. -/
theorem onSign_eq {role : VaultRole} {recipient : String} {fee : Nat} {s : SweepResult σ}
    (sign : onSign bdk role f recipient fee = .ok s) : ∃ w rate,
      loadUtxos Wallet.fresh f.funding f.chainTip = some w ∧
        bdk.draw (w.available bdk) none rate = .ok s.inputs := by
  -- whoever signs, the sweep is the same
  have signed : ∀ {role dest rate}, signSweep bdk role f.funding f.chainTip dest none rate = .ok s →
      ∃ w rate, loadUtxos Wallet.fresh f.funding f.chainTip = some w ∧
        bdk.draw (w.available bdk) none rate = .ok s.inputs := by
    intro role dest rate run
    obtain ⟨-, -, run⟩ := bind_eq_ok.1 run
    split at run
    · cases run
    · next w load =>
      obtain ⟨inputs, drawn, run⟩ := bind_eq_ok.1 run
      unfold finalize at run
      split at run
      · cases run
        exact ⟨w, rate, load, drawn⟩
      · cases run
  unfold onSign run at sign
  split at sign
  · cases sign
  · obtain ⟨role, -, sign⟩ := bind_eq_ok.1 sign
    obtain ⟨dest, -, sign⟩ := bind_eq_ok.1 sign
    split at sign
    · cases sign
    · cases role with
      | owner => exact signed sign
      | heir => exact signed sign

omit [DecidableEq σ] in
theorem outpoint_utxo (view : View σ) : EsploraUtxo.outpoint ∘ view.utxo = LedgerCoin.outpoint := rfl

/-- A listed coin is an output of a fed transaction, not spent by one, and watched. -/
theorem available_of_listed (feeds : Feeds view V f.funding) (loaded : Loaded f.funding tip w)
    {c : LedgerCoin σ} (listed : c ∈ view.listed V) (ripe : view.ripe bdk tip c) :
    c ∈ w.available bdk := by
  obtain ⟨⟨t, mem, made, _⟩, -⟩ := listed_made listed
  obtain ⟨unspent, both⟩ := List.mem_filter.1 listed
  refine (mem_available feeds loaded).2 ⟨⟨t, ⟨mem, c, made, listed⟩, made⟩, ?_, ?_, ripe⟩
  · intro t' fed takes
    have spent := Ledger.spends_iff.2 ⟨t', fed.1, takes⟩
    rw [(Ledger.mem_unspent.1 unspent).2] at spent
    cases spent
  · have paid : c.out.script ∈ view.addresses V := by
      simpa using (Bool.and_eq_true_iff.1 both).1
    obtain ⟨k, -, inside⟩ := List.mem_flatMap.1 paid
    obtain ⟨i, scanned, script⟩ := List.mem_map.1 inside
    have window : i < SCAN_COUNT := List.mem_range.1 (List.mem_filter.1 scanned).1
    rw [← script]
    exact bdk.tracked_revealed (Nat.lt_trans window (by decide))

/-- What the wallet may draw is what was listed. -/
theorem available_iff_covered (feeds : Feeds view V f.funding)
    (loaded : Loaded f.funding tip w) :
    (∀ c, c ∈ w.available bdk ↔ c ∈ view.listed V) ↔ view.Covered bdk tip := by
  constructor
  · intro same
    refine ⟨fun t fed c made watched ripe => ?_, fun c listed => ?_⟩
    · by_cases spent : ∃ t', view.Fed V t' ∧ c.outpoint ∈ t'.inputs
      · exact .inr spent
      · refine .inl ((same c).1 ((mem_available feeds loaded).2 ⟨⟨t, fed, made⟩, ?_, watched, ripe⟩))
        exact fun t' fed' takes => spent ⟨t', fed', takes⟩
    · exact ((mem_available feeds loaded).1 ((same c).2 listed)).2.2.2
  · intro covered c
    constructor
    · intro drawn
      obtain ⟨⟨t, fed, made⟩, kept, watched, ripe⟩ := (mem_available feeds loaded).1 drawn
      rcases covered.settled t fed c made watched ripe with listed | ⟨t', fed', takes⟩
      · exact listed
      · exact absurd takes (kept t' fed')
    · exact fun listed => available_of_listed feeds loaded listed (covered.ripe c listed)

/-- The payment is what the reader was shown exactly when the chain is covered; whatever is
loaded, only the genesis height panics. -/
theorem sweep_faithful_iff (honest : e.Consistent view) (asked : e.tipHeight = .ok tip)
    (find : onFind e V = .ok (some f)) {role : VaultRole} {recipient : String} {fee : Nat}
    {s : SweepResult σ} (sign : onSign bdk role f recipient fee = .ok s) :
    (Faithful f s ↔ view.Covered bdk tip) ∧
      ∀ (w : Wallet σ) (funding : List (FundingInput σ)) (top : Nat),
        (loadUtxos w funding top ≠ none ↔
          (∀ x ∈ funding, x.confirmation_height ≠ 0) ∧ top ≠ 0) := by
  refine ⟨?_, fun w funding top => loadUtxos_ne_none_iff w funding top⟩
  have feeds := feeds_of_onFind honest find
  obtain ⟨w, rate, load, drawn⟩ := onSign_eq sign
  -- the tip the sweep is given is the tip the look-up saw
  obtain ⟨-, -, -, -, -, -, tipped, total⟩ := onFind_eq find
  have chainTip : f.chainTip = tip := by
    rw [asked] at tipped
    exact (Except.ok.inj tipped).symm
  rw [chainTip] at load
  -- a funding transaction is never above the tip
  have below : ∀ x ∈ f.funding, x.confirmation_height ≤ tip := by
    intro x mem
    obtain ⟨p, found, height⟩ := Option.map_eq_some_iff.1 (feeds.heights x mem).1
    rw [← height]
    exact honest.tip tip asked p (List.mem_of_find?_eq_some found)
  have loaded := loaded_of_loadUtxos feeds.distinct below load
  have inputs : s.inputs.Perm (w.available bdk) := bdk.draw_all drawn
  have confirmed := confirmed_perm honest find
  -- covered means: what the wallet can draw is what was listed
  rw [← available_iff_covered feeds loaded]
  have inside : ∀ c ∈ w.available bdk, c ∈ view.txs.coins := fun c mem => by
    obtain ⟨⟨t, fed, made⟩, -⟩ := (mem_available feeds loaded).1 mem
    exact Ledger.mem_coins.2 ⟨t, fed.1, made⟩
  have listed_inside : ∀ c ∈ view.listed V, c ∈ view.txs.coins := fun c mem =>
    (Ledger.mem_unspent.1 (List.mem_filter.1 mem).1).1
  -- equal payments list the same outpoints, and a coin is known by its outpoint
  constructor
  · intro faithful c
    have outpoints : ((w.available bdk).map LedgerCoin.outpoint).Perm
        ((view.listed V).map LedgerCoin.outpoint) := by
      have shown := confirmed.map EsploraUtxo.outpoint
      rw [List.map_map, outpoint_utxo] at shown
      exact ((inputs.map _).symm.trans faithful.inputs).trans shown
    constructor
    · intro drawn
      obtain ⟨c', listed, same⟩ := List.mem_map.1 (outpoints.mem_iff.1 (List.mem_map_of_mem drawn))
      exact Ledger.coin_ext view.distinct (listed_inside c' listed) (inside c drawn) same ▸ listed
    · intro listed
      obtain ⟨c', drawn, same⟩ := List.mem_map.1 (outpoints.mem_iff.2 (List.mem_map_of_mem listed))
      exact Ledger.coin_ext view.distinct (inside c' drawn) (listed_inside c listed) same ▸ drawn
  -- equal coins, each drawn and listed once, are the same up to order
  · intro same
    have drawn_once : (w.available bdk).Nodup := by
      have distinct : Ledger.Distinct w.txs := loaded.txs ▸ feeds.distinct
      exact (List.Nodup.of_map _ (Ledger.nodup_unspent distinct)).filter _
    have listed_once : (view.listed V).Nodup :=
      (List.Nodup.of_map _ (Ledger.nodup_unspent view.distinct)).filter _
    have one := (List.perm_ext_iff_of_nodup drawn_once listed_once).2 same
    have all := inputs.trans one
    refine ⟨?_, ?_⟩
    · have shown := confirmed.map EsploraUtxo.outpoint
      rw [List.map_map, outpoint_utxo] at shown
      exact (all.map _).trans shown.symm
    · rw [total, (all.map _).sum_eq, (confirmed.map EsploraUtxo.value).sum_eq, List.map_map]
      rfl

end Sweep

end Scan

/-! ### A deposit of two outputs, one of them sent on -/

section Deposit

/-- An address of the vault by its place, or a text. -/
abbrev Script := (KeychainKind × Nat) ⊕ String

def placedScripts : VaultScripts Script where
  script := fun k i => .inl (k, i)
  distinct := fun same => Prod.mk.inj (Sum.inl.inj same)

/-- A wallet library that watches 25 addresses beyond those it revealed, waits for a hundred
confirmations of a coinbase, and can always build and sign. -/
def plainBdk : Bdk placedScripts where
  build := fun _ => .ok ()
  address := fun text => .ok (.inr text)
  tracked := fun revealed s =>
    match s with
    | .inl (k, i) => i < revealed k + 25
    | .inr _ => false
  tracked_revealed := fun {revealed k i} lt => by
    simp only [placedScripts, decide_eq_true_eq]
    exact Nat.lt_add_right 25 lt
  mature := fun tip height => height + 99 ≤ tip
  draw := fun cs _ _ => .ok cs
  draw_all := fun {cs rate xs} same => by
    cases same
    exact List.Perm.refl cs
  fee := fun inputs rate => rate * (11 + 100 * inputs.length)
  signs := fun _ _ => true

def deposit : Transaction Script :=
  ⟨"deposit", false, [⟨"elsewhere", 0⟩],
    [⟨.inl (.external, 0), 50000⟩, ⟨.inl (.external, 0), 70000⟩]⟩

def sentOn : Transaction Script := ⟨"sent on", false, [⟨"deposit", 0⟩], [⟨.inr "a shop", 49000⟩]⟩

def honestExplorer (view : View Script) (tip : Nat) : Explorer Script where
  utxo := fun a => .ok (view.utxosAt a)
  txHex := fun txid =>
    match view.txs.find? fun t => t.txid = txid with
    | some t => .ok t
    | none => .error "404"
  tipHeight := .ok tip

theorem honestExplorer_consistent (view : View Script) {tip : Nat}
    (below : ∀ p ∈ view.chain, p.2 ≤ tip) : (honestExplorer view tip).Consistent view where
  utxo := fun a us same => by
    cases same
    exact List.Perm.refl _
  txHex := fun txid t same => by
    unfold honestExplorer at same
    dsimp only at same
    split at same
    · next t' found =>
      cases same
      exact ⟨List.mem_of_find?_eq_some found, by simpa using List.find?_some found⟩
    · cases same
  tip := fun n same => by
    cases same
    exact below

def depositView : View Script := ⟨[(deposit, 100)], [], by decide⟩

def sentOnView : View Script := ⟨[(deposit, 100), (sentOn, 101)], [], by decide⟩

/-- Both outputs are listed and spent. -/
theorem sweep_faithful_iff_deposit :
    (Faithful ⟨[⟨"deposit", 0, 50000, ⟨true, some 100⟩⟩, ⟨"deposit", 1, 70000, ⟨true, some 100⟩⟩],
        [⟨deposit, 100⟩], 200, 120000⟩
      (⟨deposit.coins, .inr "mine", 211⟩ : SweepResult Script) ↔
        depositView.Covered plainBdk 200) ∧
      ∀ (w : Wallet Script) (funding : List (FundingInput Script)) (top : Nat),
        (loadUtxos w funding top ≠ none ↔
          (∀ x ∈ funding, x.confirmation_height ≠ 0) ∧ top ≠ 0) :=
  sweep_faithful_iff (honestExplorer_consistent depositView (by decide)) rfl
    (show onFind (honestExplorer depositView 200) placedScripts = .ok (some _) from rfl)
    (show onSign plainBdk .owner _ "mine" 1 = .ok _ from rfl)

/-- The kit lists the second output and signs for both. -/
theorem not_sweep_faithful : ¬ ∀ (view : View Script) (tip : Nat) (e : Explorer Script)
    (bdk : Bdk placedScripts) (f : Found Script) (s : SweepResult Script), e.Consistent view →
      e.tipHeight = .ok tip → onFind e placedScripts = .ok (some f) →
        onSign bdk .owner f "mine" 1 = .ok s → Faithful f s := by
  intro all
  have faithful := all sentOnView 200 (honestExplorer sentOnView 200) plainBdk
    ⟨[⟨"deposit", 1, 70000, ⟨true, some 100⟩⟩], [⟨deposit, 100⟩], 200, 70000⟩
    ⟨deposit.coins, .inr "mine", 211⟩ (honestExplorer_consistent sentOnView (by decide)) rfl rfl rfl
  have length := faithful.inputs.length_eq
  revert length
  decide

end Deposit

end Kit

end GhostKey

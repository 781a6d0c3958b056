import Mathlib.Data.List.Nodup

/-!
# Ledgers of Transactions

A ledger is a list of transactions, each with the outpoints it spends and the outputs it
makes. A coin is an output together with its outpoint; it is unspent in a ledger when no
transaction of the ledger spends it. Which ledgers are valid is decided elsewhere: all that
is used here is that no two transactions share their id.

Main results:
- `mem_coins`, `mem_unspent`: the coins of a ledger.
- `coin_ext`, `nodup_coins`: where ids are distinct, a coin is known by its outpoint.
-/

namespace GhostKey.Foundation

structure Outpoint where
  txid : String
  vout : Nat
  deriving DecidableEq

structure TxOutput (σ : Type) where
  script : σ
  value : Nat
  deriving DecidableEq

/-- An output and where it is to be found. -/
structure LedgerCoin (σ : Type) where
  outpoint : Outpoint
  out : TxOutput σ
  deriving DecidableEq

structure Transaction (σ : Type) where
  txid : String
  coinbase : Bool
  inputs : List Outpoint
  outputs : List (TxOutput σ)
  deriving DecidableEq

abbrev Ledger (σ : Type) := List (Transaction σ)

variable {σ : Type}

def Transaction.coins (t : Transaction σ) : List (LedgerCoin σ) :=
  t.outputs.zipIdx.map fun p => ⟨⟨t.txid, p.2⟩, p.1⟩

theorem Transaction.mem_coins {t : Transaction σ} {c : LedgerCoin σ} :
    c ∈ t.coins ↔ c.outpoint.txid = t.txid ∧ t.outputs[c.outpoint.vout]? = some c.out := by
  unfold Transaction.coins
  constructor
  · intro mem
    obtain ⟨p, found, rfl⟩ := List.mem_map.1 mem
    exact ⟨rfl, List.mem_zipIdx_iff_getElem?.1 found⟩
  · rintro ⟨id, found⟩
    refine List.mem_map.2 ⟨(c.out, c.outpoint.vout), List.mem_zipIdx_iff_getElem?.2 found, ?_⟩
    rw [← id]

theorem Transaction.nodup_coins (t : Transaction σ) : (t.coins.map LedgerCoin.outpoint).Nodup := by
  have vouts : (t.coins.map fun c => c.outpoint.vout) = List.range t.outputs.length := by
    unfold Transaction.coins
    rw [List.map_map, List.range_eq_range', ← List.zipIdx_map_snd 0 t.outputs]
    rfl
  have distinct : (t.coins.map fun c => c.outpoint.vout).Nodup := vouts ▸ List.nodup_range
  rw [show (fun c : LedgerCoin σ => c.outpoint.vout) = Outpoint.vout ∘ LedgerCoin.outpoint from rfl,
    ← List.map_map] at distinct
  exact List.Nodup.of_map Outpoint.vout distinct

namespace Ledger

def coins (l : Ledger σ) : List (LedgerCoin σ) := l.flatMap Transaction.coins

def spends (l : Ledger σ) (o : Outpoint) : Bool := l.any fun t => o ∈ t.inputs

def unspent (l : Ledger σ) : List (LedgerCoin σ) := l.coins.filter fun c => !spends l c.outpoint

/-- No two transactions share their id. -/
def Distinct (l : Ledger σ) : Prop := (l.map Transaction.txid).Nodup

instance (l : Ledger σ) : Decidable (Distinct l) := inferInstanceAs (Decidable (List.Nodup _))

theorem mem_coins {l : Ledger σ} {c : LedgerCoin σ} : c ∈ l.coins ↔ ∃ t ∈ l, c ∈ t.coins :=
  List.mem_flatMap

theorem spends_iff {l : Ledger σ} {o : Outpoint} : spends l o = true ↔ ∃ t ∈ l, o ∈ t.inputs := by
  simp [spends]

theorem mem_unspent {l : Ledger σ} {c : LedgerCoin σ} :
    c ∈ l.unspent ↔ c ∈ l.coins ∧ spends l c.outpoint = false := by
  simp [unspent]

theorem tx_ext {l : Ledger σ} (distinct : Distinct l) {t t' : Transaction σ} (mem : t ∈ l) (mem' : t' ∈ l)
    (same : t.txid = t'.txid) : t = t' :=
  List.inj_on_of_nodup_map distinct mem mem' same

theorem coin_ext {l : Ledger σ} (distinct : Distinct l) {c c' : LedgerCoin σ} (mem : c ∈ l.coins)
    (mem' : c' ∈ l.coins) (same : c.outpoint = c'.outpoint) : c = c' := by
  obtain ⟨t, here, made⟩ := mem_coins.1 mem
  obtain ⟨t', here', made'⟩ := mem_coins.1 mem'
  obtain ⟨id, found⟩ := Transaction.mem_coins.1 made
  obtain ⟨id', found'⟩ := Transaction.mem_coins.1 made'
  have one : t = t' := tx_ext distinct here here' (by rw [← id, ← id', same])
  subst one
  rw [same, found'] at found
  cases c
  cases c'
  simp_all

theorem nodup_coins {l : Ledger σ} (distinct : Distinct l) : (l.coins.map LedgerCoin.outpoint).Nodup := by
  induction l with
  | nil => exact List.nodup_nil
  | cons t l ih =>
    have apart : t.txid ∉ l.map Transaction.txid ∧ (l.map Transaction.txid).Nodup := List.nodup_cons.1 distinct
    have tail : coins (t :: l) = t.coins ++ coins l := List.flatMap_cons
    rw [tail, List.map_append]
    refine List.Nodup.append t.nodup_coins (ih apart.2) fun o here there => apart.1 ?_
    obtain ⟨c, mem, rfl⟩ := List.mem_map.1 here
    obtain ⟨c', mem', same⟩ := List.mem_map.1 there
    obtain ⟨t', inside, made⟩ := mem_coins.1 mem'
    refine List.mem_map.2 ⟨t', inside, ?_⟩
    rw [← (Transaction.mem_coins.1 made).1, same, (Transaction.mem_coins.1 mem).1]

theorem nodup_unspent {l : Ledger σ} (distinct : Distinct l) :
    (l.unspent.map LedgerCoin.outpoint).Nodup :=
  List.Nodup.sublist (List.Sublist.map LedgerCoin.outpoint List.filter_sublist) (nodup_coins distinct)

end Ledger

end GhostKey.Foundation

import GhostKey.Kit

/-!
# Gap Limits

Every owner send moves its change to the next unused change address, and every check-in
sweep moves the vault to the next receiving address. The owner may send anywhere, to an
address of the vault too. The server's scan stops after five addresses without a history,
the recovery kit's after twenty without a balance, or at the end of its window.

Layers:
1. the server's scan, with the wallet library as a parameter;
2. histories of deposits, sends and check-in sweeps;
3. the addresses a history uses: `Near`, in the histories whose sends leave no gap;
4. what the two scans find: `findsAll_iff`.
-/

namespace GhostKey

namespace Gaps

open Foundation Kit

variable {σ : Type} [DecidableEq σ]

/-! ## §1 The server's scan -/

/-- Some transaction pays the address: it has a history. -/
def used (V : VaultScripts σ) (h : Ledger σ) (k : KeychainKind) (i : Nat) : Bool :=
  h.any fun t => t.outputs.any fun o => o.script = V.script k i

/-- An unspent output at an address of the vault. -/
def VaultCoin (V : VaultScripts σ) (h : Ledger σ) (c : LedgerCoin σ) : Prop :=
  c ∈ h.unspent ∧ ∃ k i, c.out.script = V.script k i

def STOP_GAP : Nat := 5

/-- The full scan of the wallet library. It learns of every transaction at an address it gets
to before a gap of addresses without a history; of a coin elsewhere it may hear or not, and of
its spending. -/
structure FullScan (V : VaultScripts σ) where
  coins : Ledger σ → List (LedgerCoin σ)
  made : ∀ {h c}, c ∈ coins h → c ∈ h.coins ∧ ∃ k i, c.out.script = V.script k i
  unspent : ∀ {h c k i}, c ∈ coins h → c.out.script = V.script k i →
    Reaches STOP_GAP (used V h k) i → c ∈ h.unspent
  complete : ∀ {h c k i}, c ∈ h.unspent → c.out.script = V.script k i →
    Reaches STOP_GAP (used V h k) i → c ∈ coins h

/-! ## §2 Histories -/

/-- The change of a send goes to the first internal address without a history. -/
def NextUnused (V : VaultScripts σ) (seen : Ledger σ) (i : Nat) : Prop :=
  used V seen .internal i = false ∧ ∀ j, j < i → used V seen .internal j = true

/-- A check-in sweep goes to the external address after the last one the scan found in use. -/
def NextRevealed (V : VaultScripts σ) (seen : Ledger σ) (i : Nat) : Prop :=
  (∀ j, i ≤ j → Reaches STOP_GAP (used V seen .external) j → used V seen .external j = false) ∧
    (i ≠ 0 → used V seen .external (i - 1) = true)

/-- Where others pay to: the one address the server hands out, an address that was paid
before, or none of the vault's. -/
def Payable (V : VaultScripts σ) (h : Ledger σ) (s : σ) : Prop :=
  s = V.script .external 0 ∨ (∃ k i, used V h k i = true ∧ s = V.script k i) ∨
    ∀ k i, s ≠ V.script k i

/-- One more transaction, with the recipient the owner chose, if it is a send. A send and a
sweep are built over what a scan found at some time before: all of it, or for a send of an
amount some of it, with the change, if there is any. -/
inductive Grows (V : VaultScripts σ) (scan : FullScan V) (h : Ledger σ) :
    Transaction σ → Option σ → Prop where
  | deposit (t : Transaction σ) :
      (∀ o ∈ t.outputs, Payable V h o.script) → Grows V scan h t none
  | owner_send_all (t : Transaction σ) (seen : Ledger σ) (payment : TxOutput σ) :
      seen <+: h → scan.coins seen ≠ [] →
        t.inputs.Perm ((scan.coins seen).map LedgerCoin.outpoint) → t.outputs = [payment] →
          Grows V scan h t (some payment.script)
  | owner_send (t : Transaction σ) (seen : Ledger σ) (picked : List (LedgerCoin σ))
      (payment : TxOutput σ) (change : List Nat) (i : Nat) :
      seen <+: h → picked ⊆ scan.coins seen → picked ≠ [] →
        NextUnused V seen i → change.length ≤ 1 →
          t.inputs.Perm (picked.map LedgerCoin.outpoint) →
            t.outputs.Perm (payment :: change.map fun value => ⟨V.script .internal i, value⟩) →
              Grows V scan h t (some payment.script)
  | check_in (t : Transaction σ) (seen : Ledger σ) (value i : Nat) :
      seen <+: h → scan.coins seen ≠ [] → NextRevealed V seen i →
        t.inputs.Perm ((scan.coins seen).map LedgerCoin.outpoint) →
          t.outputs = [⟨V.script .external i, value⟩] → Grows V scan h t none

/-- The histories of a vault in which every recipient of a send meets `C`. -/
inductive History (V : VaultScripts σ) (scan : FullScan V) (C : Ledger σ → σ → Prop) :
    Ledger σ → Prop where
  | empty : History V scan C []
  | grow {h : Ledger σ} {t : Transaction σ} {recipient : Option σ} :
      History V scan C h → Grows V scan h t recipient → (∀ s, recipient = some s → C h s) →
        History V scan C (h ++ [t])

theorem History.mono {V : VaultScripts σ} {scan : FullScan V} {C C' : Ledger σ → σ → Prop}
    {h : Ledger σ} (weaker : ∀ h s, C h s → C' h s) (history : History V scan C h) :
    History V scan C' h := by
  induction history with
  | empty => exact .empty
  | grow _ grows chosen ih => exact .grow ih grows fun s same => weaker _ s (chosen s same)

/-- If the script is an address of the vault, no gap of addresses without a history lies
before it. -/
def Close (V : VaultScripts σ) (h : Ledger σ) (s : σ) : Prop :=
  ∀ k i, s = V.script k i → Reaches STOP_GAP (used V h k) i

/-! ## §3 The addresses in use -/

section Use

variable {V : VaultScripts σ} {scan : FullScan V} {h : Ledger σ}

theorem used_iff {k : KeychainKind} {i : Nat} :
    used V h k i = true ↔ ∃ t ∈ h, ∃ o ∈ t.outputs, o.script = V.script k i := by
  simp [used]

theorem used_append (t : Transaction σ) (k : KeychainKind) (i : Nat) :
    used V (h ++ [t]) k i = true ↔
      used V h k i = true ∨ ∃ o ∈ t.outputs, o.script = V.script k i := by
  rw [used_iff, used_iff]
  constructor
  · rintro ⟨t', mem, o, pays⟩
    rcases List.mem_append.1 mem with before | last
    · exact .inl ⟨t', before, o, pays⟩
    · rw [List.mem_singleton.1 last] at pays
      exact .inr ⟨o, pays⟩
  · rintro (⟨t', mem, o, pays⟩ | ⟨o, pays⟩)
    · exact ⟨t', List.mem_append_left _ mem, o, pays⟩
    · exact ⟨t, List.mem_append_right _ List.mem_cons_self, o, pays⟩

theorem used_mono {seen : Ledger σ} (sub : seen ⊆ h) {k : KeychainKind} {i : Nat}
    (there : used V seen k i = true) : used V h k i = true := by
  obtain ⟨t, mem, o, pays⟩ := used_iff.1 there
  exact used_iff.2 ⟨t, sub mem, o, pays⟩

/-- No gap lies before an address that is in use. -/
def Near (V : VaultScripts σ) (h : Ledger σ) : Prop :=
  ∀ k i, used V h k i = true → Reaches STOP_GAP (used V h k) i

theorem Payable.close {s : σ} (near : Near V h) (payable : Payable V h s) : Close V h s := by
  intro k i here
  rcases payable with first | ⟨k', i', there, same⟩ | outside
  · obtain ⟨-, rfl⟩ := V.distinct (first.symm.trans here)
    exact fun j fits => absurd fits (by simp [STOP_GAP])
  · obtain ⟨rfl, rfl⟩ := V.distinct (same.symm.trans here)
    exact near k' i' there
  · exact absurd here (outside k i)

/-- A gap that ends before an address in use, or at it, holds it. -/
theorem Near.succ (near : Near V h) {k : KeychainKind} {i : Nat}
    (last : used V h k (i - 1) = true) : Reaches STOP_GAP (used V h k) i := by
  intro j fits
  rcases Nat.lt_or_eq_of_le fits with inside | ends
  · exact near k (i - 1) last j (by omega)
  · unfold STOP_GAP at *
    exact ⟨i - 1, by omega, by omega, last⟩

/-- One step: by the kind of the transaction. -/
theorem Grows.close {t : Transaction σ} {recipient : Option σ} (near : Near V h)
    (grows : Grows V scan h t recipient) (chosen : ∀ s, recipient = some s → Close V h s) :
    ∀ o ∈ t.outputs, Close V h o.script := by
  intro o mem
  -- a deposit goes to an address handed out, change and sweeps to the first unused
  cases grows with
  | deposit payable => exact (payable o mem).close near
  | owner_send_all seen payment prior _ _ outputs =>
    rw [outputs] at mem
    rw [List.mem_singleton.1 mem]
    exact chosen payment.script rfl
  | owner_send seen picked payment change i prior _ _ unused _ _ outputs =>
    rcases List.mem_cons.1 (outputs.mem_iff.1 mem) with rfl | back
    · exact chosen o.script rfl
    · -- the addresses before that of the change are all in use
      obtain ⟨value, -, rfl⟩ := List.mem_map.1 back
      intro k i' here j fits
      obtain ⟨rfl, rfl⟩ := V.distinct here
      unfold STOP_GAP at *
      exact ⟨j, Nat.le_refl j, by omega, used_mono prior.subset (unused.2 j (by omega))⟩
  | check_in seen value i prior _ revealed _ outputs =>
    rw [outputs] at mem
    rw [List.mem_singleton.1 mem]
    intro k i' here
    obtain ⟨rfl, rfl⟩ := V.distinct here
    by_cases first : i = 0
    · subst first
      exact fun j fits => absurd fits (by simp [STOP_GAP])
    · exact near.succ (used_mono prior.subset (revealed.2 first))

/-- The run: by induction on the history. -/
theorem History.near (history : History V scan (Close V) h) : Near V h := by
  induction history with
  | empty => exact fun _ _ there => by cases there
  | @grow h t recipient _ grows chosen ih =>
    intro k i there
    have close : Reaches STOP_GAP (used V h k) i := by
      rcases (used_append t k i).1 there with before | ⟨o, mem, pays⟩
      · exact ih k i before
      · exact grows.close ih chosen o mem k i pays
    intro j fits
    obtain ⟨m, ge, lt, hit⟩ := close j fits
    exact ⟨m, ge, lt, (used_append t k m).2 (.inl hit)⟩

omit [DecidableEq σ] in
theorem mem_outputs_of_coins {c : LedgerCoin σ} (mem : c ∈ h.coins) :
    ∃ t ∈ h, c.out ∈ t.outputs := by
  obtain ⟨t, here, made⟩ := Ledger.mem_coins.1 mem
  exact ⟨t, here, List.mem_of_getElem? (Transaction.mem_coins.1 made).2⟩

theorem used_of_coin {c : LedgerCoin σ} {k : KeychainKind} {i : Nat} (mem : c ∈ h.coins)
    (pays : c.out.script = V.script k i) : used V h k i = true := by
  obtain ⟨t, here, made⟩ := mem_outputs_of_coins mem
  exact used_iff.2 ⟨t, here, c.out, made, pays⟩

/-- Where no gap lies before an address in use, the server's scan finds the coins. -/
theorem Near.server (near : Near V h) (c : LedgerCoin σ) :
    c ∈ scan.coins h ↔ VaultCoin V h c := by
  constructor
  · intro found
    obtain ⟨made, k, i, pays⟩ := scan.made found
    exact ⟨scan.unspent found pays (near k i (used_of_coin made pays)), k, i, pays⟩
  · rintro ⟨mem, k, i, pays⟩
    have made := (Ledger.mem_unspent.1 mem).1
    exact scan.complete mem pays (near k i (used_of_coin made pays))

end Use

/-! ## §4 What the two scans find -/

/-- The two scans find the coins of the vault, hence the same. -/
structure FindsAll (V : VaultScripts σ) (scan : FullScan V) (view : View σ)
    (utxos : List EsploraUtxo) : Prop where
  kit : ∀ u, u ∈ utxos ↔ ∃ c, VaultCoin V view.txs c ∧ view.utxo c = u
  server : ∀ c, c ∈ scan.coins view.txs ↔ VaultCoin V view.txs c

/-- Every address that holds a coin lies in the window, with no twenty addresses in a row
before it that hold none. -/
def Compact (V : VaultScripts σ) (view : View σ) : Prop :=
  ∀ k i, view.funded (V.script k i) = true →
    i < SCAN_COUNT ∧ Reaches GAP_LIMIT (fun j => view.funded (V.script k j)) i

section Find

variable {V : VaultScripts σ} {scan : FullScan V} {view : View σ}

theorem funded_of_unspent {c : LedgerCoin σ} (mem : c ∈ view.txs.unspent) :
    view.funded c.out.script = true :=
  List.any_eq_true.2 ⟨c, mem, by simp⟩

theorem mem_addresses {k : KeychainKind} {i : Nat} : V.script k i ∈ view.addresses V ↔
    i < SCAN_COUNT ∧ Reaches GAP_LIMIT (fun j => view.funded (V.script k j)) i := by
  unfold View.addresses
  rw [List.mem_flatMap]
  constructor
  · rintro ⟨k', -, mem⟩
    obtain ⟨i', scanned, same⟩ := List.mem_map.1 mem
    obtain ⟨rfl, rfl⟩ := V.distinct same
    simpa using scanned
  · intro both
    refine ⟨k, ?_, List.mem_map.2 ⟨i, by simpa using both, rfl⟩⟩
    cases k <;> simp

/-- The kit shows the coins at the addresses it gets to. -/
theorem mem_utxos {e : Explorer σ} (honest : e.Consistent view) {external internal : List EsploraUtxo}
    (ext : scanList e (deriveAddresses V .external SCAN_COUNT) 0 = .ok external)
    (int : scanList e (deriveAddresses V .internal SCAN_COUNT) 0 = .ok internal)
    {u : EsploraUtxo} : u ∈ external ++ internal ↔
      ∃ c ∈ view.txs.unspent, c.out.script ∈ view.addresses V ∧ view.utxo c = u := by
  have all : (external ++ internal).Perm ((view.addresses V).flatMap view.utxosAt) := by
    unfold View.addresses
    rw [List.flatMap_cons, List.flatMap_cons, List.flatMap_nil, List.append_nil,
      List.flatMap_append]
    exact (scanList_mem honest ext).append (scanList_mem honest int)
  rw [all.mem_iff, List.mem_flatMap]
  unfold View.utxosAt
  constructor
  · rintro ⟨a, there, mem⟩
    obtain ⟨c, paid, same⟩ := List.mem_map.1 mem
    obtain ⟨unspent, pays⟩ := List.mem_filter.1 paid
    have script : c.out.script = a := by simpa using pays
    exact ⟨c, unspent, script ▸ there, same⟩
  · rintro ⟨c, unspent, there, same⟩
    exact ⟨_, there, List.mem_map.2 ⟨c, List.mem_filter.2 ⟨unspent, by simp⟩, same⟩⟩

omit [DecidableEq σ] in
/-- Coins of one history that the explorer shows alike are one coin. -/
theorem utxo_inj {c c' : LedgerCoin σ} (mem : c ∈ view.txs.unspent) (mem' : c' ∈ view.txs.unspent)
    (same : view.utxo c = view.utxo c') : c = c' := by
  have outpoint : c.outpoint = c'.outpoint := congrArg EsploraUtxo.outpoint same
  exact Ledger.coin_ext view.distinct (Ledger.mem_unspent.1 mem).1 (Ledger.mem_unspent.1 mem').1
    outpoint

/-- After any history whose sends leave no gap before an address of the vault, nothing is left
behind exactly when the coins lie close together. -/
theorem findsAll_iff (history : History V scan (Close V) view.txs) {e : Explorer σ}
    (honest : e.Consistent view) {external internal : List EsploraUtxo}
    (ext : scanList e (deriveAddresses V .external SCAN_COUNT) 0 = .ok external)
    (int : scanList e (deriveAddresses V .internal SCAN_COUNT) 0 = .ok internal) :
    FindsAll V scan view (external ++ internal) ↔ Compact V view := by
  constructor
  · intro finds k i held
    obtain ⟨c, mem, pays⟩ := List.any_eq_true.1 held
    have script : c.out.script = V.script k i := by simpa using pays
    have shown := (finds.kit (view.utxo c)).2 ⟨c, ⟨mem, k, i, script⟩, rfl⟩
    obtain ⟨c', mem', there, same⟩ := (mem_utxos honest ext int).1 shown
    obtain rfl := utxo_inj mem' mem same
    exact mem_addresses.1 (script ▸ there)
  · intro compact
    refine ⟨fun u => ?_, history.near.server⟩
    rw [mem_utxos honest ext int]
    constructor
    · rintro ⟨c, mem, there, same⟩
      obtain ⟨k, -, placed⟩ := List.mem_flatMap.1 there
      obtain ⟨i, -, script⟩ := List.mem_map.1 placed
      exact ⟨c, ⟨mem, k, i, script.symm⟩, same⟩
    · rintro ⟨c, ⟨mem, k, i, script⟩, same⟩
      refine ⟨c, mem, ?_, same⟩
      rw [script, mem_addresses]
      exact compact k i (script ▸ funded_of_unspent mem)

end Find

/-! ### Sends that each move the change on -/

section Sends

/-- The full scan at its word: the coins before a gap. -/
def plainScan : FullScan placedScripts where
  coins := fun h => h.unspent.filter fun c =>
    match c.out.script with
    | .inl (k, i) => Reaches STOP_GAP (used placedScripts h k) i
    | .inr _ => false
  made := fun {h c} mem => by
    obtain ⟨unspent, scanned⟩ := List.mem_filter.1 mem
    cases script : c.out.script with
    | inl place => exact ⟨(Ledger.mem_unspent.1 unspent).1, place.1, place.2, rfl⟩
    | inr text => simp [script] at scanned
  unspent := fun mem _ _ => (List.mem_filter.1 mem).1
  complete := fun {h c k i} unspent script reaches => by
    have place : c.out.script = Sum.inl (k, i) := script
    exact List.mem_filter.2 ⟨unspent, by simpa [place] using reaches⟩

/-- Two deposits to the first address. -/
theorem findsAll_iff_deposit : FindsAll placedScripts plainScan depositView
    [⟨"deposit", 0, 50000, ⟨true, some 100⟩⟩, ⟨"deposit", 1, 70000, ⟨true, some 100⟩⟩] ↔
      Compact placedScripts depositView := by
  have history : History placedScripts plainScan (Close placedScripts) depositView.txs := by
    refine .grow .empty (.deposit deposit fun o mem => .inl ?_) (by simp)
    rcases List.mem_cons.1 mem with rfl | rest
    · rfl
    · rw [List.mem_singleton.1 rest]
      rfl
  exact findsAll_iff history (honestExplorer_consistent depositView (by decide))
    (show scanList (honestExplorer depositView 200) _ 0 = .ok [_, _] from rfl)
    (show scanList (honestExplorer depositView 200) _ 0 = .ok [] from rfl)

/-- The id of the send after `n` others. -/
def sendId (n : Nat) : String := String.singleton (Char.ofNat (97 + n))

/-- The outpoint of the change that `n` sends left. -/
def changeOf : Nat → Outpoint
  | 0 => ⟨"deposit", 0⟩
  | n + 1 => ⟨sendId n, 1⟩

def changeCoin (n : Nat) : LedgerCoin Script :=
  ⟨changeOf n, ⟨if n = 0 then .inl (.external, 0) else .inl (.internal, n - 1), 50000 - n * 1000⟩⟩

def send (n : Nat) : Transaction Script :=
  ⟨sendId n, false, [changeOf n], [⟨.inr "a shop", 900⟩, (changeCoin (n + 1)).out]⟩

def sends : Nat → Ledger Script
  | 0 => [⟨"deposit", false, [⟨"elsewhere", 0⟩], [(changeCoin 0).out]⟩]
  | n + 1 => sends n ++ [send n]

/-- Each send spends the change of the one before. -/
theorem sends_history :
    ∀ {n : Nat}, n ≤ 21 → History placedScripts plainScan (Close placedScripts) (sends n)
  | 0, _ => by
    refine .grow .empty (.deposit _ fun o mem => .inl ?_) (by simp)
    rw [List.mem_singleton.1 mem]
    rfl
  | n + 1, le => by
    have found : ∀ m < 21, changeCoin m ∈ plainScan.coins (sends m) := by decide +kernel
    have next : ∀ m < 21, used placedScripts (sends m) .internal m = false ∧
        ∀ j < m, used placedScripts (sends m) .internal j = true := by decide +kernel
    have payable : ∀ s, some (.inr "a shop") = some s → Close placedScripts (sends n) s := by
      rintro s ⟨⟩ k i same
      cases same
    refine .grow (sends_history (Nat.le_of_succ_le le)) ?_ payable
    refine .owner_send (send n) (sends n) [changeCoin n] ⟨.inr "a shop", 900⟩
      [50000 - (n + 1) * 1000] n (List.prefix_refl _) ?_ (List.cons_ne_nil _ _) (next n le)
      (Nat.le_refl 1) (List.Perm.refl _) (List.Perm.refl _)
    intro c mem
    rw [List.mem_singleton.1 mem]
    exact found n le

theorem sends_distinct : Ledger.Distinct (sends 21) := by decide +kernel

def sendsView : View Script where
  chain := (sends 21).map fun t => (t, 100)
  mempool := []
  distinct := by
    rw [List.map_map, List.append_nil]
    exact (List.map_id (sends 21)).symm ▸ sends_distinct

theorem sendsView_txs : sendsView.txs = sends 21 := by
  unfold View.txs sendsView
  rw [List.map_map, List.append_nil]
  exact List.map_id (sends 21)

/-- The change of the twenty-first send is beyond the kit's gap. -/
theorem not_findsAll : ¬ ∀ (view : View Script) (e : Explorer Script)
    (external internal : List EsploraUtxo),
      History placedScripts plainScan (fun _ _ => True) view.txs →
      e.Consistent view →
        scanList e (deriveAddresses placedScripts .external SCAN_COUNT) 0 = .ok external →
          scanList e (deriveAddresses placedScripts .internal SCAN_COUNT) 0 = .ok internal →
            FindsAll placedScripts plainScan view (external ++ internal) := by
  intro all
  have finds := all sendsView (honestExplorer sendsView 100) [] []
    (sendsView_txs.symm ▸ (sends_history (Nat.le_refl 21)).mono fun _ _ _ => trivial)
    (honestExplorer_consistent sendsView fun p mem => by
      obtain ⟨t, _, rfl⟩ := List.mem_map.1 mem
      exact Nat.le_refl 100) (by rfl) (by rfl)
  have held : changeCoin 21 ∈ (sends 21).unspent := by decide +kernel
  have shown := (finds.kit _).2 ⟨changeCoin 21, ⟨sendsView_txs.symm ▸ held, .internal, 20, rfl⟩, rfl⟩
  cases shown

end Sends

end Gaps

end GhostKey

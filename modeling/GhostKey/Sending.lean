import GhostKey.Balance
import GhostKey.Release
import GhostKey.Foundation.Share
import Mathlib.Algebra.Order.Group.Nat

/-!
# The Receipt of a Send

A send answers with what it paid, its fee and what came back to the vault, and moves a
vault that is empty now to `unfunded`. The numbers are computed from the balance of the scan and the
outputs of the transaction; which coins the transaction spends is not looked at.

Layers:
1. the transaction the wallet library makes of a scan: `signedSend`, `Documented`;
2. a successful request in terms of it: `receipt_of_ownerSend`.

Main results:
- `rendered_iff`: the receipt is right exactly when no coin of worth is left behind, the fee
  rate fits its type and a send without change leaves nothing.
- `not_rendered`: a send of a part of the vault, without change.
-/

namespace GhostKey

open Foundation Program Prog

namespace Sending

/-! ## §1 The wallet's transaction -/

section Wallet

variable (S : Server)

/-- The transaction the wallet library builds and signs, for what a scan found. -/
def signedSend (config : VaultConfig) (key dest : String) (amountSat satPerVb : Option Nat)
    (scan : Scan) : Except BlockingErr Tx := do
  let wallet ← blocking .vault (S.wallet.buildSigningFromAccount config key)
  let wallet ← blocking (fun e => .esplora ("apply_update: " ++ e))
    (S.wallet.applyUpdate wallet scan)
  let built ← blocking .build (S.wallet.buildOwnerSend wallet dest amountSat (feeRate satPerVb))
  finishTx S wallet built keyMismatch

end Wallet

/-- The coins of a scan a transaction spends and those it leaves. -/
structure Selection (scan : Scan) (tx : Tx) where
  spent : List Utxo
  left : List Utxo
  split : scan.utxos.Perm (spent ++ left)
  inputs : tx.inputs = spent.map Utxo.outpoint

namespace Selection

variable {scan : Scan} {tx : Tx} (sel : Selection scan tx)

/-- What the inputs of the transaction are worth. -/
def inSum : Nat := (sel.spent.map Utxo.value).sum

def leftSum : Nat := (sel.left.map Utxo.value).sum

theorem total_eq : scan.total = sel.inSum + sel.leftSum := by
  have split := (sel.split.map Utxo.value).sum_eq
  rw [List.map_append, List.sum_append] at split
  exact split

end Selection

/-- All there will ever be: 21 million bitcoin, in sats. -/
def maxMoney : Nat := 21 * 10 ^ 14

/-- A finished transaction pays the recipient and returns the rest, if anything, to a script of
the vault. It pays at least the fee rate it was given, in sats per 1000 weight units, and no
more than its inputs are worth. -/
structure Finished (rate weight : Nat) (spk : String) (owns : String → Bool) {scan : Scan}
    {tx : Tx} (sel : Selection scan tx) : Prop where
  paid : ∃ out ∈ tx.outputs, out.script = spk
  scripts : ∀ out ∈ tx.outputs, out.script = spk ∨ owns out.script = true
  values : ∀ out ∈ tx.outputs, 0 < out.value
  covered : tx.outSum ≤ sel.inSum
  feeRate : rate * weight ≤ 1000 * (sel.inSum - tx.outSum)
  weighs : 0 < weight
  money : sel.inSum ≤ maxMoney

/-- What the wallet library documents of the transactions it builds and signs. -/
def Documented (S : Server) (owns : VaultConfig → String → Bool) (weight : Tx → Nat) : Prop :=
  ∀ config key dest amountSat satPerVb scan tx,
    signedSend S config key dest amountSat satPerVb scan = .ok tx →
      ∃ sel : Selection scan tx,
        Finished (feeRate satPerVb) (weight tx) (S.wallet.scriptPubkey dest) (owns config) sel

/-! ## §2 What a receipt must say -/

section Receipt

variable {scan : Scan} {tx : Tx}

/-- Nothing of the vault remains: no coin is left and no output is its own. -/
def Emptied (owns : String → Bool) (sel : Selection scan tx) : Prop :=
  sel.left = [] ∧ ∀ out ∈ tx.outputs, owns out.script = false

/-- The numbers are those of the transaction, the fee is no less than the rate asked for, and the
vault is moved to `unfunded` if and only if nothing of it remains. -/
structure Rendered (satPerVb : Option Nat) (weight : Nat) (owns : String → Bool)
    (resp : OwnerSendResponse) (before after : Status) (sel : Selection scan tx) : Prop where
  sums : resp.sentSat + resp.feeSat + resp.remainingSat = sel.inSum
  fee : resp.feeSat = sel.inSum - tx.outSum
  rate : satPerVb.getD 2 * 250 * weight ≤ 1000 * resp.feeSat
  state : after = .unfunded ↔ before = .unfunded ∨ Emptied owns sel

/-- The states a full drain rewrites; a live or final claim keeps its own. -/
def drainable (status : Status) : Bool :=
  status = .ok ∨ status = .warning ∨ status = .alarmed ∨ status = .frozen

/-- What is left behind is worth nothing, the fee rate fits a `u64`, and where all outputs go to
the recipient the vault's state is rewritten exactly if no coin is left and the recipient is
not the vault. -/
structure Sound (satPerVb : Option Nat) (spk : String) (owns : String → Bool) (before : Status)
    (sel : Selection scan tx) : Prop where
  worthless : sel.leftSum = 0
  fits : max (satPerVb.getD 2) 1 * 250 < 2 ^ 64
  changeless : (∀ out ∈ tx.outputs, out.script = spk) → before ≠ .unfunded →
    (drainable before = true ↔ sel.left = [] ∧ owns spk = false)

end Receipt

/-! ## §3 A successful request -/

section Request

variable {S : Server} {v : VaultId} {o : Oracle} {w w' : World}

/-- What the transaction pays to the recipient. -/
def paidTo (spk : String) (tx : Tx) : Nat :=
  share (fun out : TxOut => out.script = spk) TxOut.value tx.outputs

/-- The plan goes through when the wallet's transaction is relayed. -/
theorem sent_of_sendPlan {config : VaultConfig} {urls : List String} {key dest : String}
    {amountSat satPerVb : Option Nat} {s : SentTx}
    (came : atOnce (sendPlan S config urls key dest amountSat satPerVb) o w = (.ok (.ok s), w')) :
    ∃ scan, o.answer (.fullScan urls config.descriptorExternal config.descriptorInternal) =
        .ok scan ∧
      signedSend S config key dest amountSat satPerVb scan = .ok s.tx ∧
      o.answer (.broadcast urls s.tx) = .ok () ∧ s.totalIn = scan.total ∧
      s.sentSat = paidTo (S.wallet.scriptPubkey dest) s.tx ∧ w'.db = w.db := by
  unfold sendPlan at came
  -- each stage that fails ends the plan with its error
  cases signing : S.wallet.buildSigningFromAccount config key with
  | error e => rw [signing] at came; cases came
  | ok wallet =>
    rw [signing] at came
    dsimp only at came
    rw [bind_eq, atOnce_ask_bind] at came
    split at came
    · cases came
    · next scan answered =>
      cases applied : S.wallet.applyUpdate wallet scan with
      | error e => rw [applied] at came; cases came
      | ok wallet' =>
        rw [applied] at came
        dsimp only at came
        split at came
        · cases came
        · cases building : S.wallet.buildOwnerSend wallet' dest amountSat (feeRate satPerVb) with
          | error e => rw [building] at came; cases came
          | ok built =>
            rw [building] at came
            dsimp only at came
            cases finished : finishTx S wallet' built keyMismatch with
            | error e => rw [finished] at came; cases came
            | ok tx =>
              rw [finished] at came
              dsimp only at came
              rw [bind_eq, atOnce_ask_bind] at came
              split at came
              · cases came
              · next relayed =>
                cases came
                -- all stages went through
                refine ⟨scan, answered, ?_, relayed, rfl, rfl, ?_⟩
                · unfold signedSend
                  rw [signing]
                  show (blocking _ (S.wallet.applyUpdate wallet scan) >>= _) = _
                  rw [applied]
                  show (blocking _ (S.wallet.buildOwnerSend wallet' dest _ _) >>= _) = _
                  rw [building]
                  exact finished
                · simp only [External.effect]
                  split <;> rfl

/-- The row after a full drain. -/
theorem row_of_recordFullDrain (answers : o.dbFails = false) {r : VaultRow}
    (row : w.vault? v = some r) :
    (atOnce (recordFullDrain v) o w).2.vault? v = some (VaultUpdate.ownerFullDrain.onRow r) := by
  have drained := World.vault?_update_here (u := .ownerFullDrain) row
  rw [recordFullDrain, bind_eq, atOnce_update_bind answers]
  split
  · rw [atOnce_recordEvent answers drained]
    exact drained
  · exact drained

/-- The owner's email touches no vault. -/
theorem row_of_enqueueOwnerEmail (kind : NotificationKind) :
    (atOnce (enqueueOwnerEmail S v kind) o w).2.vault? v = w.vault? v := by
  refine atOnce_keeps (I := fun w₁ : World => w₁.vault? v = w.vault? v)
    (Balance.aside_enqueueOwnerEmail kind) (fun a w₁ aside same => ?_) rfl
  have kept : (a.perform o w₁).2.db.vaults = w₁.db.vaults := by
    cases a with
    | exec st =>
      cases st with
      | insertNotification e =>
        exact (Action.frame_of_calm (a := .exec (.insertNotification e)) (o := o) rfl rfl).vaults
      | _ => exact aside.elim
    | ask x =>
      simp only [Action.perform, External.effect]
      split <;> rfl
    | payCheckin | payPanic => exact aside.elim
    | _ => rfl
  rw [World.vault?, Db.vault?, kept]
  exact same

/-- The recipient a request goes on with is the one its text names. -/
theorem parseAddress_of_parseDestination {destination dest wrong : String} {network : Network}
    (parsed : atOnce (parseDestination S destination network wrong) o w = (.ok dest, w')) :
    S.wallet.parseAddress destination = .ok dest := by
  unfold parseDestination at parsed
  cases named : S.wallet.parseAddress destination with
  | error e => rw [named] at parsed; cases parsed
  | ok dest' =>
    rw [named] at parsed
    replace parsed : atOnce (if S.wallet.validForNetwork dest' network then pure dest'
      else .fail (.validation wrong)) o w = (.ok dest, w') := parsed
    split at parsed <;> cases parsed
    rfl

/-- A successful request: the scan, the transaction, its receipt, and the row after it. -/
theorem receipt_of_ownerSend {destination key : String} {amountSat satPerVb : Option Nat}
    {resp : OwnerSendResponse}
    (came : atOnce (ownerSend S v destination amountSat satPerVb key) o w = (.ok resp, w')) :
    ∃ r network dest account scan tx urls, w.vault? v = some r ∧
      S.wallet.parseAddress destination = .ok dest ∧
      let config := vaultConfig r network .owner
      o.answer (.fullScan urls config.descriptorExternal config.descriptorInternal) = .ok scan ∧
      signedSend S config account dest amountSat satPerVb scan = .ok tx ∧
      o.answer (.broadcast urls tx) = .ok () ∧ resp.txid = tx.txid ∧
      resp.sentSat = paidTo (S.wallet.scriptPubkey dest) tx ∧
      resp.feeSat = scan.total - tx.outSum ∧ resp.remainingSat = tx.outSum - resp.sentSat ∧
      w'.vault? v = some
        (if resp.remainingSat = 0 then VaultUpdate.ownerFullDrain.onRow r else r) := by
  obtain ⟨row, w₁, read, rest⟩ := atOnce_bind_eq_ok.1 came
  obtain ⟨answers, found, same⟩ := atOnce_query_eq_ok.1 read
  clear came read
  subst same
  have found : w₁.vault? v = row := Except.ok.inj found
  obtain ⟨r, w₂, present, rest⟩ := atOnce_bind_eq_ok.1 rest
  cases row with
  | none => cases present
  | some r₀ =>
    cases present
    obtain ⟨network, w₃, known, rest⟩ := atOnce_bind_eq_ok.1 rest
    cases atOnce_still (Balance.still_storedNetwork r) known
    obtain ⟨dest, w₄, parsed, rest⟩ := atOnce_bind_eq_ok.1 rest
    have named := parseAddress_of_parseDestination parsed
    cases atOnce_still (only_parseDestination S destination network _) parsed
    split at rest
    · cases rest
    · obtain ⟨account, w₅, opened, rest⟩ := atOnce_bind_eq_ok.1 rest
      cases atOnce_still (only_parseXpriv S "owner_xprv" key network) opened
      obtain ⟨u, w₆, valid, rest⟩ := atOnce_bind_eq_ok.1 rest
      cases atOnce_still (Balance.still_validated _ _) valid
      obtain ⟨urls, w₇, given, rest⟩ := atOnce_bind_eq_ok.1 rest
      cases atOnce_still (Balance.still_validated _ _) given
      obtain ⟨sent, w₈, went, rest⟩ := atOnce_bind_eq_ok.1 rest
      cases sent with
      | error e => cases rest
      | ok s =>
        obtain ⟨scan, answered, signed, relayed, total, paid, kept⟩ := sent_of_sendPlan went
        have row : w₈.vault? v = some r := by
          rw [World.vault?, kept]
          exact found
        obtain ⟨u', w₉, recorded, rest⟩ := atOnce_bind_eq_ok.1 rest
        have row : w₉.vault? v = some r := by
          cases (atOnce_recordEvent answers row _ _).symm.trans recorded
          exact row
        -- the receipt, and the row the rest of the request leaves
        have ends : resp = ⟨s.tx.txid, s.sentSat, s.feeSat, s.remainingSat⟩ ∧ w'.vault? v =
            some (if s.remainingSat = 0 then VaultUpdate.ownerFullDrain.onRow r else r) := by
          by_cases empty : s.remainingSat = 0
          · rw [if_pos empty] at rest ⊢
            have after := row_of_recordFullDrain answers row
            obtain ⟨u'', w₁₀, drained, rest⟩ := atOnce_bind_eq_ok.1 rest
            have emailed := (atOnce_logged_bind (o := o) (w := w₁₀) _ _).symm.trans rest
            cases emailed
            refine ⟨rfl, ?_⟩
            rw [row_of_enqueueOwnerEmail, ← after]
            exact congrArg (fun out : Except ApiError Unit × World => out.2.vault? v) drained.symm
          · rw [if_neg empty] at rest ⊢
            have emailed := (atOnce_logged_bind (o := o) _ _).symm.trans rest
            cases emailed
            exact ⟨rfl, (row_of_enqueueOwnerEmail .ownerSend).trans row⟩
        obtain ⟨rfl, after⟩ := ends
        refine ⟨r, network, dest, account, scan, s.tx, urls, found, named, answered, signed,
          relayed, rfl, paid, by rw [← total]; rfl, rfl, after⟩

end Request

/-! ## §4 When the receipt is right -/

section Right

variable {scan : Scan} {tx : Tx} {sel : Selection scan tx} {satPerVb : Option Nat}
  {weight : Nat} {spk : String} {owns : String → Bool} {before after : Status}
  {resp : OwnerSendResponse}

/-- Nothing comes back exactly when every output pays the recipient. -/
theorem paidTo_eq_outSum_iff (values : ∀ out ∈ tx.outputs, 0 < out.value) :
    paidTo spk tx = tx.outSum ↔ ∀ out ∈ tx.outputs, out.script = spk := by
  refine (share_eq_total_iff _ _ _).trans (forall₂_congr fun out listed => ?_)
  have worth := values out listed
  by_cases pays : out.script = spk
  · simp [pays]
  · simp only [pays, decide_false, true_implies, iff_false]
    omega

/-- A rate that does not fit its type is beyond what any transaction pays. -/
theorem rate_iff (finished : Finished (feeRate satPerVb) weight spk owns sel) :
    satPerVb.getD 2 * 250 * weight ≤ 1000 * (sel.inSum - tx.outSum) ↔
      max (satPerVb.getD 2) 1 * 250 < 2 ^ 64 := by
  have pays := finished.feeRate
  have weighs := finished.weighs
  have money := finished.money
  unfold feeRate at pays
  unfold maxMoney at money
  generalize satPerVb.getD 2 = asked at pays ⊢
  constructor
  · intro covered
    by_contra overflows
    have large : 2 ^ 64 ≤ asked * 250 := by omega
    have weighty : 2 ^ 64 * 1 ≤ asked * 250 * weight := Nat.mul_le_mul large weighs
    omega
  · intro fits
    rw [Nat.mod_eq_of_lt fits] at pays
    have least := Nat.mul_le_mul_right weight (Nat.mul_le_mul_right 250 (Nat.le_max_left asked 1))
    exact least.trans pays

/-- The state after the request, where the row is drained if nothing came back. -/
theorem state_iff (finished : Finished (feeRate satPerVb) weight spk owns sel)
    (moved : after = if paidTo spk tx = tx.outSum ∧ drainable before = true then .unfunded
      else before) :
    (after = .unfunded ↔ before = .unfunded ∨ Emptied owns sel) ↔
      ((∀ out ∈ tx.outputs, out.script = spk) → before ≠ .unfunded →
        (drainable before = true ↔ sel.left = [] ∧ owns spk = false)) := by
  obtain ⟨own, listed, toRecipient⟩ := finished.paid
  simp only [paidTo_eq_outSum_iff finished.values] at moved
  by_cases unfunded : before = .unfunded
  · -- it stays as it is, or is written once more
    have same : after = .unfunded := by
      rw [moved]
      split
      · rfl
      · exact unfunded
    simp [unfunded, same]
  by_cases changeless : ∀ out ∈ tx.outputs, out.script = spk
  -- without change the drain is told by what is left behind
  · have emptied : Emptied owns sel ↔ sel.left = [] ∧ owns spk = false := by
      refine and_congr_right fun _ => ⟨fun foreign => ?_, fun foreign out out_listed => ?_⟩
      · rw [← toRecipient]
        exact foreign own listed
      · rw [changeless out out_listed]
        exact foreign
    have drained : after = .unfunded ↔ drainable before = true := by
      rw [moved]
      by_cases drains : drainable before = true
      · rw [if_pos ⟨changeless, drains⟩]
        simp [drains]
      · simp [drains, unfunded]
    rw [emptied, drained]
    simp only [unfunded, false_or]
    exact ⟨fun agree _ _ => agree, fun agree => agree changeless unfunded⟩
  · -- an output that does not pay the recipient is the vault's own
    have kept : ¬ Emptied owns sel := by
      rintro ⟨-, foreign⟩
      apply changeless
      intro out out_listed
      rcases finished.scripts out out_listed with pays | owned
      · exact pays
      · rw [foreign out out_listed] at owned
        cases owned
    have same : after = before := by
      rw [moved, if_neg]
      exact fun both => changeless both.1
    simp [unfunded, kept, same, changeless]

/-- The receipt of a finished transaction. -/
theorem rendered_iff_sound (finished : Finished (feeRate satPerVb) weight spk owns sel)
    (sent : resp.sentSat = paidTo spk tx) (fee : resp.feeSat = scan.total - tx.outSum)
    (remaining : resp.remainingSat = tx.outSum - resp.sentSat)
    (moved : after = if paidTo spk tx = tx.outSum ∧ drainable before = true then .unfunded
      else before) :
    Rendered satPerVb weight owns resp before after sel ↔ Sound satPerVb spk owns before sel := by
  have state := state_iff finished moved
  have rate := rate_iff finished
  have covered := finished.covered
  have total := sel.total_eq
  have part : paidTo spk tx ≤ tx.outSum := share_le_total (M := Nat) _ _ _
  rw [← sent] at part
  constructor
  · intro rendered
    have sums := rendered.sums
    have real := rendered.fee
    have worthless : sel.leftSum = 0 := by omega
    refine ⟨worthless, rate.1 ?_, state.1 rendered.state⟩
    rw [← real]
    exact rendered.rate
  · intro sound
    have worthless := sound.worthless
    have real : resp.feeSat = sel.inSum - tx.outSum := by omega
    refine ⟨by omega, real, ?_, state.2 sound.changeless⟩
    rw [real]
    exact rate.2 sound.fits

end Right

section Request

variable {S : Server} {v : VaultId} {o : Oracle} {w w' : World}

theorem status_onRow_ownerFullDrain (r : VaultRow) :
    (VaultUpdate.ownerFullDrain.onRow r).life.status =
      if drainable r.life.status = true then .unfunded else r.life.status := by
  unfold VaultUpdate.onRow
  rw [apply_ite (fun x : VaultRow => x.life.status)]
  rfl

/-- The receipt of a successful send, and the state of the vault after it, are right exactly
when nothing of worth is left behind unspent, the fee rate fits its type, and a send without
change leaves nothing of the vault. -/
theorem rendered_iff {owns : VaultConfig → String → Bool} {weight : Tx → Nat}
    (documented : Documented S owns weight) {destination key : String}
    {amountSat satPerVb : Option Nat} {resp : OwnerSendResponse}
    (came : atOnce (ownerSend S v destination amountSat satPerVb key) o w = (.ok resp, w')) :
    ∃ r r' network dest account scan tx urls, ∃ sel : Selection scan tx,
      w.vault? v = some r ∧ w'.vault? v = some r' ∧
      S.wallet.parseAddress destination = .ok dest ∧
      let config := vaultConfig r network .owner
      let spk := S.wallet.scriptPubkey dest
      o.answer (.fullScan urls config.descriptorExternal config.descriptorInternal) = .ok scan ∧
      signedSend S config account dest amountSat satPerVb scan = .ok tx ∧
      o.answer (.broadcast urls tx) = .ok () ∧ resp.txid = tx.txid ∧
      (Rendered satPerVb (weight tx) (owns config) resp r.life.status r'.life.status sel ↔
        Sound satPerVb spk (owns config) r.life.status sel) := by
  obtain ⟨r, network, dest, account, scan, tx, urls, row, named, answered, signed, relayed, id,
    sent, fee, remaining, after⟩ := receipt_of_ownerSend came
  obtain ⟨sel, finished⟩ := documented _ _ _ _ _ _ _ signed
  refine ⟨r, _, network, dest, account, scan, tx, urls, sel, row, after, named, answered, signed,
    relayed, id, ?_⟩
  refine rendered_iff_sound finished sent fee remaining ?_
  have part : paidTo (S.wallet.scriptPubkey dest) tx ≤ tx.outSum := share_le_total (M := Nat) _ _ _
  have nothing : resp.remainingSat = 0 ↔ paidTo (S.wallet.scriptPubkey dest) tx = tx.outSum := by
    omega
  by_cases empty : resp.remainingSat = 0
  · rw [if_pos empty, status_onRow_ownerFullDrain]
    simp only [nothing.1 empty, true_and]
  · rw [if_neg empty, if_neg fun both => empty (nothing.2 both.1)]

end Request

/-! ## §5 A part of the vault -/

section Part

open Deployment

/-- A wallet that pays out of the first coin and has no use for change: it pays what the coin is
worth beyond the amount as the fee. -/
def payFirst (wallet : Wallet) (dest : String) (amountSat : Option Nat) (rate : Nat) :
    Except String BuiltPsbt :=
  match wallet.scan, amountSat with
  | some ⟨_, u :: _⟩, some amount =>
      if 0 < amount ∧ amount ≤ u.value ∧ rate * 600 ≤ 1000 * (u.value - amount) ∧
          u.value ≤ maxMoney then
        .ok ⟨⟨[finalInput u.outpoint], [⟨dest, amount⟩]⟩, true⟩
      else .error "insufficient funds"
  | _, _ => .error "insufficient funds"

/-- A deployment over such a wallet. -/
def payer : Server := { host 0 with wallet := { walletLib with buildOwnerSend := payFirst } }

theorem documented_payer : Documented payer (fun _ _ => false) fun _ => 600 := by
  intro config key dest amountSat satPerVb scan tx signed
  replace signed : (blocking .build (payFirst ⟨config, [key], some scan⟩ dest amountSat
      (feeRate satPerVb)) >>= fun built => finishTx payer ⟨config, [key], some scan⟩ built
        keyMismatch) = .ok tx := signed
  unfold payFirst at signed
  obtain ⟨tip, utxos⟩ := scan
  rcases utxos with _ | ⟨u, rest⟩
  · cases signed
  rcases amountSat with _ | amount
  · cases signed
  dsimp only at signed
  split at signed
  · next pays =>
    obtain ⟨positive, covered, rate, money⟩ := pays
    cases signed
    refine ⟨⟨[u], rest, .refl _, rfl⟩, ⟨_, .head _, rfl⟩, ?_, ?_, ?_, ?_, Nat.succ_pos 599, ?_⟩
    · intro out listed
      cases List.mem_singleton.1 listed
      exact .inl rfl
    · intro out listed
      cases List.mem_singleton.1 listed
      exact positive
    · simpa [Tx.outSum, Selection.inSum] using covered
    · simpa [Tx.outSum, Selection.inSum] using rate
    · simpa [Selection.inSum] using money
  · cases signed

/-- Two coins, the first worth little more than what is sent and the fee. -/
def twoCoins : Oracle :=
  oracle "" [⟨"first", 5000, some 100, true⟩, ⟨"second", 7000, some 100, true⟩]

/-- The first of them alone. -/
def oneCoin : Oracle := oracle "" [⟨"first", 5000, some 100, true⟩]

/-- What a send of 4500 sats answers with, and the state of the vault after it. -/
def sends (o : Oracle) (w : World) : Option (OwnerSendResponse × Status) :=
  match atOnce (ownerSend payer "v" "dest" (some 4500) none "key") o w with
  | (.ok resp, w') => (w'.vault? "v").map fun r => (resp, r.life.status)
  | _ => none

/-- The fee of such a send counts the coin that was left, and the vault goes unwatched. -/
def misreports (w : World) : Bool :=
  (w.vault? "v").any (fun r => r.life.status = .ok) &&
    sends twoCoins w = some (⟨"tx", 4500, 7500, 0⟩, .unfunded)

/-- Where there is no other coin, the fee is what the coin is worth beyond the amount. -/
def reports (w : World) : Bool :=
  (w.vault? "v").any (fun r => r.life.status = .ok) &&
    sends oneCoin w = some (⟨"tx", 4500, 500, 0⟩, .unfunded)

/-- The receipt of such a send is wrong. -/
theorem not_rendered :
    ¬ ∀ (S : Server) (owns : VaultConfig → String → Bool) (weight : Tx → Nat),
      Documented S owns weight →
      ∀ (v : VaultId) (o : Oracle) (w w' : World) (destination key : String)
        (amountSat satPerVb : Option Nat) (resp : OwnerSendResponse),
        atOnce (ownerSend S v destination amountSat satPerVb key) o w = (.ok resp, w') →
        ∃ r r' network dest account scan tx urls, ∃ sel : Selection scan tx,
          w.vault? v = some r ∧ w'.vault? v = some r' ∧
          let config := vaultConfig r network .owner
          o.answer (.fullScan urls config.descriptorExternal config.descriptorInternal) =
            .ok scan ∧
          signedSend S config account dest amountSat satPerVb scan = .ok tx ∧
          Rendered satPerVb (weight tx) (owns config) resp r.life.status r'.life.status sel := by
  intro right
  obtain ⟨tr, c, -, check⟩ := reaches_of_play payer funded misreports (by decide +kernel)
  unfold misreports at check
  simp only [Bool.and_eq_true, decide_eq_true_eq] at check
  obtain ⟨-, told⟩ := check
  unfold sends at told
  split at told
  · next resp w' came =>
    obtain ⟨r, r', network, dest, account, scan, tx, urls, sel, -, row', answered, signed,
      rendered⟩ := right payer _ _ documented_payer "v" twoCoins c.world w' _ _ _ _ resp came
    rw [row', Option.map_some, Option.some.injEq, Prod.mk.injEq] at told
    cases answered
    cases signed
    -- the input of the transaction is the first of the two coins
    have spent : sel.spent.map Utxo.outpoint = ["first"] := sel.inputs.symm
    obtain ⟨u, alone, named⟩ := List.map_eq_singleton_iff.1 spent
    have listed := sel.split.mem_iff.2 (List.mem_append_left _ (alone ▸ List.mem_singleton_self u))
    have worth : u.value = 5000 := by
      rcases List.mem_pair.1 listed with rfl | rfl
      · rfl
      · exact absurd named (by decide)
    have sums := rendered.sums
    rw [told.1, Selection.inSum, alone, List.map_singleton, List.sum_singleton, worth] at sums
    cases sums
  · cases told

/-- The receipt of a send that spends the only coin is right. -/
theorem rendered_iff_whole : ∃ (w w' : World) (resp : OwnerSendResponse),
    resp = ⟨"tx", 4500, 500, 0⟩ ∧ ∃ r r', ∃ (scan : Scan) (tx : Tx) (sel : Selection scan tx),
      w.vault? "v" = some r ∧ w'.vault? "v" = some r' ∧
        Rendered none 600 (fun _ => false) resp r.life.status r'.life.status sel := by
  obtain ⟨tr, c, -, check⟩ := reaches_of_play payer funded reports (by decide +kernel)
  unfold reports at check
  simp only [Bool.and_eq_true, decide_eq_true_eq] at check
  obtain ⟨watched, told⟩ := check
  unfold sends at told
  split at told
  · next resp w' came =>
    obtain ⟨r, r', network, dest, account, scan, tx, urls, sel, row, row', -, answered, signed, -,
      -, right⟩ := rendered_iff documented_payer came
    rw [row', Option.map_some, Option.some.injEq, Prod.mk.injEq] at told
    rw [row] at watched
    cases answered
    cases signed
    -- the only coin is spent, and none is left
    have spent : sel.spent.map Utxo.outpoint = ["first"] := sel.inputs.symm
    have alone : sel.spent.length = 1 := by rw [← List.length_map Utxo.outpoint, spent]; rfl
    have left : sel.left = [] := by
      have whole := sel.split.length_eq
      rw [List.length_append, alone] at whole
      replace whole : 1 = 1 + sel.left.length := whole
      exact List.length_eq_zero_iff.1 (by omega)
    have live : r.life.status = .ok := of_decide_eq_true watched
    refine ⟨c.world, w', resp, told.1, r, r', _, _, sel, row, row', right.2 ⟨?_, by decide, ?_⟩⟩
    · rw [Selection.leftSum, left]
      rfl
    · rintro - -
      rw [live, left]
      exact ⟨fun _ => ⟨rfl, rfl⟩, fun _ => rfl⟩
  · cases told

end Part

end Sending

end GhostKey

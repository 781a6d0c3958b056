import GhostKey.Claim

/-!
# Sending and Balances

What an owner does with the coins: a send signed and broadcast by the server,
which drains the vault when nothing comes back as change, and the balance scan,
which keeps the ledger of deposits up to date.
-/

namespace GhostKey

open Foundation Prog

variable (S : Server)

/-! ## §1 Sending -/

/-- `OwnerSendResponse`. -/
structure OwnerSendResponse where
  txid : String
  sentSat : Nat
  feeSat : Nat
  remainingSat : Nat
  deriving DecidableEq

/-- What the blocking part of `owner_send` hands back. -/
structure SentTx where
  tx : Tx
  totalIn : Nat
  sentSat : Nat
  deriving DecidableEq

def SentTx.feeSat (s : SentTx) : Nat := s.totalIn - s.tx.outSum

def SentTx.remainingSat (s : SentTx) : Nat := s.tx.outSum - s.sentSat

def keyMismatch : String :=
  "PSBT could not be finalised; the supplied key may not match this vault"

/-- Scan, build, sign and broadcast an owner's send. -/
def sendPlan (config : VaultConfig) (urls : List String) (key dest : String)
    (amountSat : Option Nat) (satPerVb : Option Nat) : Prog (Except BlockingErr SentTx) :=
  match S.wallet.buildSigningFromAccount config key with
  | .error e => pure (.error (.vault e))
  | .ok wallet => do
    let answer ← ask (.fullScan urls config.descriptorExternal config.descriptorInternal)
    match answer with
    | .error e => pure (.error e)
    | .ok scan =>
      match S.wallet.applyUpdate wallet scan with
      | .error e => pure (.error (.esplora ("apply_update: " ++ e)))
      | .ok wallet =>
        if scan.total = 0 then pure (.error .noUtxos)
        else
          match S.wallet.buildOwnerSend wallet dest amountSat (feeRate satPerVb) with
          | .error e => pure (.error (.build e))
          | .ok built =>
            match finishTx S wallet built keyMismatch with
            | .error e => pure (.error e)
            | .ok tx => do
              let sent ← ask (.broadcast urls tx)
              match sent with
              | .error e => pure (.error e)
              | .ok () =>
                let spk := S.wallet.scriptPubkey dest
                let paid := ((tx.outputs.filter fun o => o.script = spk).map TxOut.value).sum
                pure (.ok ⟨tx, scan.total, paid⟩)

/-- A full drain leaves nothing to watch over; a live or final claim stays. -/
def recordFullDrain (id : VaultId) : Prog Unit := do
  let rows ← update id .ownerFullDrain
  if rows = 1 then recordEvent id .vaultEmpty [("reason", .str "owner_full_drain")]
  else pure ()

/-- `POST /vaults/:id/send`. -/
def ownerSend (id : VaultId) (destination : String) (amountSat satPerVb : Option Nat)
    (ownerXprv : String) : Prog OwnerSendResponse := do
  let row ← query (.vault id)
  let r ← okOr .notFound row
  let network ← storedNetwork r
  let dest ← parseDestination S destination network "destination is not valid for the network"
  if amountSat = some 0 then .fail (.validation "amount_sat must be at least 1")
  else
    let key ← parseXpriv S "owner_xprv" ownerXprv network
    let config := vaultConfig r network .owner
    validated "stored vault: " (S.wallet.fromConfig config)
    let urls ← validated "" (S.esploraUrls network)
    let sent ← sendPlan S config urls key dest amountSat satPerVb
    match sent with
    | .error e => .fail e.toApiError
    | .ok s =>
      recordEvent id .ownerSend
        [("txid", .str s.tx.txid), ("destination", .str dest),
          ("total_input_sats", .int s.totalIn), ("sent_sat", .int s.sentSat),
          ("fee_sats", .int s.feeSat), ("remaining_sat", .int s.remainingSat)]
      if s.remainingSat = 0 then recordFullDrain id else pure ()
      logged (enqueueOwnerEmail S id .ownerSend)
      pure ⟨s.tx.txid, s.sentSat, s.feeSat, s.remainingSat⟩

/-! ## §2 The deposit ledger -/

/-- `ConfirmedDeposit`. -/
structure ConfirmedDeposit where
  outpoint : String
  amountSat : Nat
  height : Nat
  deriving DecidableEq

/-- The confirmed receives of a scan; change from a send is not a deposit. -/
def Scan.deposits (scan : Scan) : List ConfirmedDeposit :=
  scan.utxos.filterMap fun u =>
    if u.external then u.confirmedAt.map fun height => ⟨u.outpoint, u.value, height⟩ else none

/-- Insert the deposits one by one: how many were new. -/
def insertDeposits (id : VaultId) (t : Instant) : List ConfirmedDeposit → Nat → Prog Nat
  | [], recorded => pure recorded
  | d :: rest, recorded => do
    let inserted ← ((exec (.insertDeposit ⟨id, d.outpoint, d.amountSat, d.height, t, none⟩)).attempt :
      Prog (Except ApiError Nat))
    match inserted with
    | .ok 1 => do
      logged (recordEvent id .received
        [("amount_sat", .int d.amountSat), ("outpoint", .str d.outpoint),
          ("height", .int d.height)])
      insertDeposits id t rest (recorded + 1)
    | _ => insertDeposits id t rest recorded

/-- `record_new_deposits`. -/
def recordNewDeposits (id : VaultId) (deposits : List ConfirmedDeposit) (t : Instant) :
    Prog Unit := do
  let prior ← ((query (.depositCount id)).attempt : Prog (Except ApiError Nat))
  let recorded ← insertDeposits id t deposits 0
  match prior with
  | .ok (count : Nat) =>
    if 0 < recorded ∧ 0 < count then logged (enqueueOwnerEmail S id .received) else pure ()
  | .error _ => pure ()

/-- `record_spent_deposits`: stamp what the scan no longer lists, once each. -/
def recordSpentDeposits (id : VaultId) (stillUnspent : List String) (t : Instant) :
    Prog Unit := do
  let read ← ((query (.unspentDeposits id)).attempt : Prog (Except ApiError (List DepositRow)))
  match read with
  | .error _ => pure ()
  | .ok [] => pure ()
  | .ok recorded =>
    let spend ← ((query (.lastServerSpend id)).attempt : Prog (Except ApiError (Option Instant)))
    let lastServerSpend := spend.toOption.join
    Program.forEach (recorded.filter fun d => d.outpoint ∉ stillUnspent) fun d => do
      let stamped ← ((exec (.stampDepositSpent id d.outpoint t)).attempt :
        Prog (Except ApiError Nat))
      match stamped with
      | .ok 1 =>
        -- a send or a claim the server built has already told this story
        if lastServerSpend.any (d.seenAt ≤ ·) then pure ()
        else logged (recordEvent id .fundsSpent
          [("amount_sat", .int d.amountSat), ("outpoint", .str d.outpoint)])
      | _ => pure ()

/-- `GET /vaults/:id/balance`; the answer is the total of the scan. -/
def getVaultBalance (id : VaultId) : Prog Nat := do
  let row ← query (.vault id)
  let r ← okOr .notFound row
  let network ← storedNetwork r
  let config := { vaultConfig r network .watchonly with label := none }
  validated "stored vault descriptors invalid: " (S.wallet.fromConfig config)
  let urls ← validated "" (S.esploraUrls network)
  let wallet ← validated "" (S.wallet.buildWatchOnly config)
  let answer ← ask (.fullScan urls config.descriptorExternal config.descriptorInternal)
  match answer with
  | .error e => .fail e.toApiError
  | .ok scan =>
    let _ ← validated "apply_update: " (S.wallet.applyUpdate wallet scan)
    let t ← now
    recordNewDeposits S id scan.deposits t
    recordSpentDeposits id scan.outpoints t
    pure scan.total

end GhostKey

import GhostKey.Vault
import Mathlib.Algebra.Ring.Int.Defs
import Mathlib.Algebra.Ring.Nat

/-!
# The Server's Surroundings

What the handlers call without deciding it: the deployment's configuration, the
sealing and hashing functions, the wallet library and the services behind it
(the block explorer, the Lightning provider, the source of random tokens). The
first three are fields of `Server`; the services are the questions of
`External`, answered anew each time they are asked.

The clock, the database, the explorer pause and the Lightning gate are state of
the running process and live in `World`.
-/

namespace GhostKey

/-! ## §1 Errors -/

inductive DbError where
  | unavailable
  | uniqueViolation
  | foreignKeyViolation
  | columnDecode
  deriving DecidableEq

/-- `routes::ApiError`. -/
inductive ApiError where
  | notFound
  | validation (reason : String)
  | conflict (reason : String)
  | db (e : DbError)
  | crypto
  deriving DecidableEq

/-- `psbt_routes::BlockingErr`. -/
inductive BlockingErr where
  | vault (reason : String)
  | esplora (reason : String)
  | backingOff (secs : Int)
  | build (reason : String)
  | noUtxos
  deriving DecidableEq

/-- `impl Display for BlockingErr`. -/
def BlockingErr.text : BlockingErr → String
  | .vault s => "vault: " ++ s
  | .esplora s => "esplora: " ++ s
  | .backingOff secs => "block explorer is busy; trying again in " ++ toString secs ++ "s"
  | .build s => "build: " ++ s
  | .noUtxos => "no UTXOs found at vault addresses"

/-- `impl From<BlockingErr> for ApiError`. -/
def BlockingErr.toApiError : BlockingErr → ApiError
  | .vault s => .validation s
  | .esplora s => .validation s
  | .backingOff secs => .validation (BlockingErr.backingOff secs).text
  | .build s => .validation s
  | .noUtxos => .validation "no UTXOs found at vault addresses"

/-! ## §2 Wallets, scans and transactions -/

inductive Network where
  | bitcoin
  | testnet
  | signet
  | regtest
  deriving DecidableEq

/-- `config::parse_network`. -/
def parseNetwork : String → Except String Network
  | "bitcoin" => .ok .bitcoin
  | "testnet" => .ok .testnet
  | "signet" => .ok .signet
  | "regtest" => .ok .regtest
  | name => .error name

inductive VaultRole where
  | owner
  | heir
  | watchonly
  deriving DecidableEq

/-- `ghostkey_core::vault::VaultConfig`. -/
structure VaultConfig where
  descriptorExternal : String
  descriptorInternal : String
  timelockBlocks : Nat
  network : Network
  role : VaultRole
  label : Option String
  deriving DecidableEq

/-- An unspent output a full scan lists. -/
structure Utxo where
  outpoint : String
  value : Nat
  confirmedAt : Option Nat
  external : Bool
  deriving DecidableEq

structure Scan where
  tipHeight : Nat
  utxos : List Utxo
  deriving DecidableEq

def Scan.total (s : Scan) : Nat := (s.utxos.map Utxo.value).sum

def Scan.outpoints (s : Scan) : List String := s.utxos.map Utxo.outpoint

/-- A wallet of the vault: its descriptors, the account keys spliced into them,
and the scan applied to it. -/
structure Wallet where
  config : VaultConfig
  keys : List String
  scan : Option Scan
  deriving DecidableEq

structure PsbtInput where
  outpoint : String
  script : String
  signatures : List String
  final : Bool
  deriving DecidableEq

structure TxOut where
  script : String
  value : Nat
  deriving DecidableEq

structure Psbt where
  inputs : List PsbtInput
  outputs : List TxOut
  deriving DecidableEq

/-- `ghostkey_core::psbt::BuiltPsbt`. -/
structure BuiltPsbt where
  psbt : Psbt
  finalized : Bool
  deriving DecidableEq

structure Tx where
  txid : String
  inputs : List String
  outputs : List TxOut
  deriving DecidableEq

def Tx.outSum (tx : Tx) : Nat := (tx.outputs.map TxOut.value).sum

def Psbt.outpoints (p : Psbt) : List String := p.inputs.map PsbtInput.outpoint

/-- The wallet library, `ghostkey-core` over BDK. -/
structure WalletLib where
  parseAddress : String → Except String String
  validForNetwork : String → Network → Bool
  scriptPubkey : String → String
  parseXpriv : String → Except String String
  xprivMatches : String → Network → Bool
  fromConfig : VaultConfig → Except String Unit
  buildWatchOnly : VaultConfig → Except String Wallet
  buildSigningFromAccount : VaultConfig → String → Except String Wallet
  buildSigningGuardian : VaultConfig → String → String → Except String Wallet
  applyUpdate : Wallet → Scan → Except String Wallet
  buildHeirClaim : Wallet → String → Nat → Except String BuiltPsbt
  buildGuardianClaim : Wallet → String → Nat → Except String BuiltPsbt
  buildOwnerSend : Wallet → String → Option Nat → Nat → Except String BuiltPsbt
  decodeBase64 : String → Except String String
  deserializePsbt : String → Except String Psbt
  serializePsbt : Psbt → String
  sign : Wallet → Psbt → Except String Psbt
  finalizePsbt : Wallet → Psbt → Except String (Bool × Psbt)
  extractTx : Psbt → Except String Tx

/-- The key and descriptor library, `ghostkey-core` over rust-bitcoin. A key
fragment is rendered for the external or the internal chain, and descriptors come
in pairs, the external one first. -/
structure KeyLib where
  parseFingerprint : String → Except String String
  parseXpub : String → Except String String
  keyFragment (fingerprint : String) (network : Network) (xpub : String) (external : Bool) : String
  buildDescriptorPair (owner heir : String × String) (timelockBlocks : Nat) :
    Except String (String × String)
  buildGuardianDescriptorPair (owner heir guardian1 guardian2 : String × String)
    (timelockBlocks : Nat) (unlockHeight : Option Nat) : Except String (String × String)
  parseDescriptor : String → Except String Unit
  deriveHeirSeed (email : String) (id : String) (network : Network) : Except String String

/-! ## §3 Configuration and cryptography -/

/-- `str::trim` strips the code points with the Unicode property White_Space. -/
def isWhiteSpace (c : Char) : Bool :=
  let n := c.toNat
  (9 ≤ n && n ≤ 13) || n = 0x20 || n = 0x85 || n = 0xA0 || n = 0x1680 ||
    (0x2000 ≤ n && n ≤ 0x200A) || n = 0x2028 || n = 0x2029 || n = 0x202F || n = 0x205F ||
    n = 0x3000

/-- `str::trim`. -/
def trim (s : String) : String :=
  .ofList ((s.toList.dropWhile isWhiteSpace).reverse.dropWhile isWhiteSpace).reverse

/-- `s.trim().is_empty()`. -/
def isBlank (s : String) : Bool := s.toList.all isWhiteSpace

/-- A contact the heir set up, out of its sealed JSON blob. -/
structure HeirContact where
  name : Option String
  contact : Option String
  channel : Option String
  deriving DecidableEq

structure Server where
  /-- `claim_challenge_window_secs`, never negative. -/
  challengeWindowSecs : Nat
  lightningEnabled : Bool
  demoMode : Bool
  onchainGateEnabled : Bool
  heartbeatAmountSat : Nat
  publicBaseUrl : String
  esploraUrls : Network → Except String (List String)
  /-- `to_rfc3339`, for the texts that quote a time. -/
  rfc3339 : Instant → String
  /-- The `{:?}` of a string, for the texts that quote one. -/
  debugStr : String → String
  hashClaimToken : Token → Hash
  sealClaimTokenAtRest : VaultId → Token → Except Unit String
  openClaimTokenAtRest : VaultId → String → Except Unit Token
  /-- `seal_for_vault`: ciphertext and nonce. -/
  sealForVault : VaultId → String → Except Unit (String × String)
  openForVault : VaultId → String → String → Except Unit String
  /-- `serde_json::from_slice::<HeirContact>`. -/
  parseHeirJson : String → Option HeirContact
  vaultSecretHex : VaultId → Except String String
  keyLib : KeyLib
  wallet : WalletLib

namespace Server

variable (S : Server)

/-- `claim_token_matches`. -/
def claimTokenMatches (token : Token) (stored : Hash) : Bool := S.hashClaimToken token = stored

def window : Int := seconds S.challengeWindowSecs

/-- The link of a claim, `{base}/#/claim/{token}`. -/
def claimUrl (token : Token) : String := S.publicBaseUrl ++ "/#/claim/" ++ token

def checkinLinkUrl (id : VaultId) (token : Token) : String :=
  S.publicBaseUrl ++ "/#/checkin-link/" ++ id ++ "/" ++ token

def checkinUrl : String := S.publicBaseUrl ++ "/#/checkin"

end Server

/-- What the server relies on in the functions it does not implement: sealing is
undone by opening, and the wallet library neither adds nor drops inputs when it
finalizes or extracts a transaction. -/
structure Server.Lawful (S : Server) : Prop where
  open_seal : ∀ id token stored, S.sealClaimTokenAtRest id token = .ok stored →
    S.openClaimTokenAtRest id stored = .ok token
  finalize_inputs : ∀ w p b p', S.wallet.finalizePsbt w p = .ok (b, p') →
    p'.outpoints = p.outpoints
  extract_inputs : ∀ p tx, S.wallet.extractTx p = .ok tx → tx.inputs = p.outpoints

/-! ## §4 Services -/

/-- `lightning::CreatedInvoice`. -/
structure CreatedInvoice where
  bolt11 : String
  paymentHash : String
  amountSat : Nat
  expiresAt : Instant
  deriving DecidableEq

inductive LightningError where
  | notConfigured
  | invalidAmount (reason : String)
  | provider (reason : String)
  deriving DecidableEq

/-- What the provider says about an invoice. -/
inductive ProviderStatus where
  | pending
  | paid
  | expired
  | failed (reason : String)
  deriving DecidableEq

/-- A question to a service. -/
inductive External where
  | uuid
  | bearerToken
  | fullScan (urls : List String) (descriptorExternal descriptorInternal : String)
  | broadcast (urls : List String) (tx : Tx)
  | probeLightning
  | createInvoice (amountSat : Nat) (description : String)
  | invoiceStatus (paymentHash : String)
  deriving DecidableEq

def External.Answer : External → Type
  | .uuid => String
  | .bearerToken => Token
  | .fullScan .. => Except BlockingErr Scan
  | .broadcast .. => Except BlockingErr Unit
  | .probeLightning => Bool
  | .createInvoice .. => Except LightningError CreatedInvoice
  | .invoiceStatus .. => Except LightningError ProviderStatus

end GhostKey

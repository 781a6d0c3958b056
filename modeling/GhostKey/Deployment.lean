import GhostKey.Rows

/-!
# A Deployment to Run

Concrete functions for everything `Server` leaves open, simple enough to be
computed: a hash is the marked token, sealing marks a text and opening takes the
mark off, a submitted PSBT is the outpoint it spends, and a drain spends what the
scan lists. `Deployment.lawful` shows that what the proofs ask of a server can be
had together.
-/

namespace GhostKey

open Foundation

namespace Deployment

/-- Take the mark off a sealed text. -/
def unmark (stored : String) : Except Unit String := .ok (.ofList (stored.toList.drop 1))

/-- A transaction input that already carries its witness. -/
def finalInput (outpoint : String) : PsbtInput := ⟨outpoint, "", ["witness"], true⟩

/-- Drain everything the scan lists. -/
def drain (wallet : Wallet) (dest : String) : Except String BuiltPsbt :=
  match wallet.scan with
  | none => .error "not scanned"
  | some scan => .ok ⟨⟨scan.outpoints.map finalInput, [⟨dest, scan.total⟩]⟩, true⟩

def walletLib : WalletLib where
  parseAddress := .ok
  validForNetwork _ _ := true
  scriptPubkey := id
  parseXpriv := .ok
  xprivMatches _ _ := true
  fromConfig _ := .ok ()
  buildWatchOnly config := .ok ⟨config, [], none⟩
  buildSigningFromAccount config key := .ok ⟨config, [key], none⟩
  buildSigningGuardian config heir guardian := .ok ⟨config, [heir, guardian], none⟩
  applyUpdate wallet scan := .ok { wallet with scan := some scan }
  buildHeirClaim wallet dest _ := drain wallet dest
  buildGuardianClaim wallet dest _ := drain wallet dest
  buildOwnerSend wallet dest _ _ := drain wallet dest
  decodeBase64 := .ok
  deserializePsbt outpoint := .ok ⟨[finalInput outpoint], []⟩
  serializePsbt psbt := String.join psbt.outpoints
  sign _ psbt := .ok psbt
  finalizePsbt _ psbt := .ok (true, psbt)
  extractTx psbt := .ok ⟨"tx", psbt.outpoints, psbt.outputs⟩

def keyLib : KeyLib where
  parseFingerprint := .ok
  parseXpub := .ok
  keyFragment fingerprint _ xpub external :=
    fingerprint ++ xpub ++ if external then "/0" else "/1"
  buildDescriptorPair owner heir _ := .ok (owner.1 ++ heir.1, owner.2 ++ heir.2)
  buildGuardianDescriptorPair owner heir g₁ g₂ _ _ :=
    .ok (owner.1 ++ heir.1 ++ g₁.1 ++ g₂.1, owner.2 ++ heir.2 ++ g₁.2 ++ g₂.2)
  parseDescriptor _ := .ok ()
  deriveHeirSeed email _ _ := .ok email

/-- The server with the given challenge window, with Lightning and no chain gate. -/
def host (windowSecs : Nat) : Server where
  challengeWindowSecs := windowSecs
  lightningEnabled := true
  demoMode := false
  onchainGateEnabled := false
  heartbeatAmountSat := 1
  publicBaseUrl := "https://host"
  esploraUrls _ := .ok ["https://explorer"]
  rfc3339 t := toString t
  debugStr s := s
  hashClaimToken token := "#" ++ token
  sealClaimTokenAtRest _ token := .ok ("~" ++ token)
  openClaimTokenAtRest _ stored := unmark stored
  sealForVault _ text := .ok ("~" ++ text, "nonce")
  openForVault _ ct _ := unmark ct
  parseHeirJson address := some ⟨none, some address, some "email"⟩
  vaultSecretHex id := .ok id
  keyLib := keyLib
  wallet := walletLib

/-- The same server with the chain gate. -/
def gated (windowSecs : Nat) : Server := { host windowSecs with onchainGateEnabled := true }

theorem lawful (windowSecs : Nat) : (host windowSecs).Lawful where
  open_seal _ token stored sealed := by
    cases sealed
    simp [host, unmark]
  finalize_inputs _ _ _ _ finalized := by
    cases finalized
    rfl
  extract_inputs _ _ extracted := by
    cases extracted
    rfl

theorem gated_lawful (windowSecs : Nat) : (gated windowSecs).Lawful :=
  ⟨(lawful windowSecs).open_seal, (lawful windowSecs).finalize_inputs,
    (lawful windowSecs).extract_inputs⟩

/-- Services that answer: every random string is `fresh`, the explorer lists
`utxos` and relays what it is sent, and every invoice is paid. -/
def oracle (fresh : String) (utxos : List Utxo) : Oracle :=
  ⟨false, fun
    | .uuid => fresh
    | .bearerToken => fresh
    | .fullScan .. => .ok ⟨900, utxos⟩
    | .broadcast .. => .ok ()
    | .probeLightning => true
    | .createInvoice amount description => .ok ⟨"ln" ++ description, description, amount, 10 ^ 18⟩
    | .invoiceStatus _ => .ok .paid⟩

/-- The same services, but for an explorer that relays nothing. -/
def refusing (utxos : List Utxo) : Oracle :=
  ⟨false, fun
    | .broadcast .. => .error (.esplora "refused")
    | x => (oracle "" utxos).answer x⟩

/-- `n` steps of thread `i`. -/
def steps (i n : Nat) (o : Oracle) : List (Move Oracle Drift Request) :=
  List.replicate n (.step i o)

/-- `n` seconds without a step. -/
def wait (n : Nat) : List (Move Oracle Drift Request) := [.drift (.pass (n * 1000000000))]

/-- A vault from descriptors, `v`, in eight steps. -/
def createPlain (v : String) : CreateVaultRequest :=
  ⟨none, "bitcoin", v ++ "/0", v ++ "/1", 144, 3600, 60, none⟩

/-- An output of the vault, mature. -/
def coin : Utxo := ⟨"coin", 5, some 100, true⟩

/-- The vault `v` with its clock started at 0, by a Lightning check-in, in 30 steps. -/
def funded : List (Move Oracle Drift Request) :=
  [.start (.createVault (createPlain "d"))] ++ steps 0 8 (oracle "v" []) ++
    [.start (.lnurlpCallback "v" (some 1000) false)] ++ steps 1 9 (oracle "" []) ++
    [.start .pollerTick] ++ steps 2 10 (oracle "" [])

/-- A Door A vault: the heir's key sealed under the token `sealed`. -/
def doorA : CreateVaultFromXpubRequest where
  label := none
  network := "bitcoin"
  owner := ⟨"owner", some "f"⟩
  heir := ⟨"heir", some "f"⟩
  timelockBlocks := 144
  checkinPeriodSecs := 3600
  gracePeriodSecs := 60
  ownerContact := none
  ownerContactChannel := none
  heirContact := some "heir@host.org"
  heirContactChannel := some "email"
  sealed := some
    { passwordSalt := "salt"
      passwordKdfMemKib := 1024
      passwordKdfIters := 1
      ownerXprvCt := "owner-ct"
      ownerXprvNonce := "owner-nonce"
      ownerTokenCt := "token-ct"
      ownerTokenNonce := "token-nonce"
      heirXprvCt := some "ct"
      heirXprvNonce := some "nonce"
      ownerEmailHash := .ofList (List.replicate 64 '0')
      claimToken := some "sealed" }
  heirDerivation := none
  trustedContact := none
  trustedContactChannel := none
  fromName := none
  heirNote := none

/-- The Door A vault `v`, its clock started at 0 and its deadline missed, in 59 steps. -/
def alarmedDoorA : List (Move Oracle Drift Request) :=
  [.start (.createVaultFromXpub doorA)] ++ steps 0 9 (oracle "v" []) ++
    [.start (.lnurlpCallback "v" (some 1000) false)] ++ steps 1 9 (oracle "" []) ++
    [.start .pollerTick] ++ steps 2 10 (oracle "" []) ++ wait 3660 ++
    [.start .schedulerTick] ++ steps 3 26 (oracle "" [coin])

/-- A played run with a property the kernel computes is a run of the server. -/
theorem runs_of_play (S : Server) (ms : List (Move Oracle Drift Request)) (P : Trace → Bool)
    (check : (((GhostKey.server S).play ms (System.boot (World.start 0))).any
      fun r => P r.1) = true) :
    ∃ tr, Runs S 0 tr ∧ P tr = true := by
  obtain ⟨tr, c, run, holds⟩ := Run.exists_of_play (P := fun tr _ => P tr) check
  exact ⟨tr, ⟨c, run⟩, holds⟩

/-- A world a played run reaches, with a property the kernel computes. -/
theorem reaches_of_play (S : Server) (ms : List (Move Oracle Drift Request)) (P : World → Bool)
    (check : (((GhostKey.server S).play ms (System.boot (World.start 0))).any
      fun r => P r.2.world) = true) :
    ∃ tr c, Run (GhostKey.server S) (System.boot (World.start 0)) tr c ∧ P c.world = true :=
  Run.exists_of_play (P := fun _ c => P c.world) check

/-- Whether thread `i` ran the UPDATE `u` of `v` in this step, with one row affected. -/
def updated (i : Nat) (v : VaultId) (u : VaultUpdate) (s : SrvStep) : Bool :=
  match s.label with
  | .acted j ⟨.exec (.updateVault v' u'), .ok 1⟩ => j = i && v' = v && u' = u
  | _ => false

theorem did_of_updated {i : Nat} {v : VaultId} {u : VaultUpdate} {s : SrvStep}
    (did : updated i v u s = true) : Did i (.exec (.updateVault v u)) (.ok 1) s := by
  unfold updated at did
  split at did
  · next j v' u' label =>
    simp only [Bool.and_eq_true, decide_eq_true_eq] at did
    obtain ⟨⟨rfl, rfl⟩, rfl⟩ := did
    exact label
  · cases did

/-- An UPDATE with one row affected has met its row. -/
theorem commits_of_updated {S : Server} {i : Nat} {v : VaultId} {u : VaultUpdate} {s : SrvStep}
    (explains : (GhostKey.server S).Explains s) (did : updated i v u s = true) :
    Commits s v u := by
  rcases did_update explains (did_of_updated did) with ⟨-, r, row, guard, -⟩ | ⟨none, -⟩
  · exact ⟨.exec (did_of_updated did), r, row, guard⟩
  · cases none

/-- Whether the step inserts a vault. -/
def inserts (s : SrvStep) : Bool :=
  match s.label with
  | .acted _ ⟨.exec (.insertVault _), .ok _⟩ => true
  | _ => false

/-- One INSERT gives out no id twice. -/
theorem freshIds_of_inserts {tr : Trace} {at_ : Nat}
    (once : (tr.zipIdx.all fun p => !inserts p.1 || p.2 = at_) = true) : FreshIds tr := by
  have only : ∀ (j : Nat) s i r n, tr[j]? = some s → Did i (.exec (.insertVault r)) (.ok n) s →
      j = at_ := by
    intro j s i r n at_j did
    have here := List.all_eq_true.1 once (s, j) (List.mk_mem_zipIdx_iff_getElem?.2 at_j)
    have inserts : inserts s = true := by
      unfold inserts
      rw [show s.label = _ from did]
    simpa [inserts] using here
  intro j k s t i i' r r' n n' at_j at_k did did' _
  exact (only j s i r n at_j did).trans (only k t i' r' n' at_k did').symm

end Deployment

end GhostKey

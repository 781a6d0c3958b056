import GhostKey.HeirContacts
import GhostKey.Link
import GhostKey.Splice

/-!
# The Derived Heir Key

A vault with a derived heir has no key posted for the heir: the server derives one from an
address, the vault id and its master key, and the heir's browser derives it again at the
claim from what the server hands out. Both sides run the same functions on a normal form
of the address, but not the same normal form, and not of the same text: the server's
starts from `heir_derivation.email`, the browser's from the contact on file.

Main results:
- `hexToBytes_hexEncode`: the vault's secret arrives as it was sent.
- `deriveHeirKey_eq`: the browser derives the server's key from an address of the same
  normal form.
- `alwaysRecovers_iff`: when it does so whatever the shared functions are.
-/

namespace GhostKey

open Foundation Program Prog

/-! ## §1 The shared functions -/

abbrev Bytes := List UInt8

/-- `TextEncoder.encode` and `str::as_bytes`. -/
def utf8 (s : String) : Bytes := s.toByteArray.data.toList

theorem utf8_injective {s t : String} (eq : utf8 s = utf8 t) : s = t := by
  apply String.toByteArray_inj.1
  apply ByteArray.ext
  exact Array.toList_inj.1 eq

/-- HKDF-SHA256, BIP39 and BIP32, the same in both languages. -/
structure KeyFunctions where
  hkdf (salt ikm info : Bytes) (length : Nat) : Bytes
  mnemonic (entropy : Bytes) : String
  toSeed (phrase : String) : Bytes
  newMaster (main : Bool) (seed : Bytes) : Xpriv
  derivePriv (key : Xpriv) (hardened : List Nat) : Xpriv
  neuter (key : Xpriv) : Xpub
  length_hkdf : ∀ salt ikm info length, (hkdf salt ikm info length).length = length

def vaultSecretInfo : Bytes := utf8 "ghostkey-heir-v1-secret"

def heirBip39Info : Bytes := utf8 "ghostkey-heir-bip39"

variable (K : KeyFunctions)

/-- The account key of some entropy, as both languages compute it. -/
def accountOf (main : Bool) (coin : Nat) (entropy : Bytes) : Xpriv :=
  K.derivePriv (K.newMaster main (K.toSeed (K.mnemonic entropy))) [86, coin, 0]

/-! ## §2 The server -/

/-- `str::to_ascii_lowercase`. -/
def toAsciiLowercase (s : String) : String := .ofList (s.toList.map Char.toLower)

/-- `normalize_heir_email`. -/
def normalizeHeirEmail (email : String) : String := toAsciiLowercase (trim email)

/-- `compute_vault_secret`. -/
def computeVaultSecret (masterKey : Bytes) (id : VaultId) : Bytes :=
  K.hkdf masterKey (utf8 id) vaultSecretInfo 32

/-- The coin type of `vault_account_path`. -/
def coinOf : Network → Nat
  | .bitcoin => 0
  | _ => 1

/-- `derive_heir_seed`, the account xpub. -/
def deriveHeirSeed (masterKey : Bytes) (email : String) (id : VaultId) (network : Network) : Xpub :=
  let secret := computeVaultSecret K masterKey id
  let normalized := normalizeHeirEmail email
  let okm := K.hkdf secret (utf8 normalized) heirBip39Info 32
  K.neuter (accountOf K (network = .bitcoin) (coinOf network) (okm.take 16))

/-- `hex::encode`. -/
def hexEncode (bytes : Bytes) : String :=
  .ofList (bytes.flatMap fun b => [Nat.digitChar (b.toNat / 16), Nat.digitChar (b.toNat % 16)])

theorem trim_trim (s : String) : trim (trim s) = trim s := by
  have inner : ∀ t, trim t = .ofList (Text.trimBy isWhiteSpace t.toList) := fun _ => rfl
  rw [inner (trim s), inner s, String.toList_ofList, Text.trimBy_trimBy]

/-- An address that the creation takes for one has a normal form. -/
theorem normalizeHeirEmail_ne {email : String} (given : trim email ≠ "") :
    normalizeHeirEmail email ≠ "" := by
  intro empty
  have chars := congrArg String.toList empty
  simp only [normalizeHeirEmail, toAsciiLowercase, String.toList_ofList, String.toList_empty,
    List.map_eq_nil_iff] at chars
  exact given (String.toList_eq_nil_iff.1 chars)

/-- The server derives with these functions and this master key. -/
structure DerivesWith (S : Server) (masterKey : Bytes) : Prop where
  heir : ∀ email id network, S.keyLib.deriveHeirSeed email id network =
    .ok (.ofList (deriveHeirSeed K masterKey email id network).text)
  secret : ∀ id, S.vaultSecretHex id = .ok (hexEncode (computeVaultSecret K masterKey id))

/-! ## §3 The browser -/

/-- The code units of a string; the two of a surrogate pair are no characters. -/
def codeUnits (s : List Char) : List (Option Char) :=
  s.flatMap fun c => if c.toNat < 0x10000 then [some c] else [none, none]

/-- `parseInt(s, 16)`: behind white space, a sign and a mark, the digits there are. -/
def parseHexInt (units : List (Option Char)) : Option Int :=
  let trimmed := units.dropWhile fun u => u.any isJsSpace
  let negative := trimmed.head? = some (some '-')
  let unsigned := if negative ∨ trimmed.head? = some (some '+') then trimmed.drop 1 else trimmed
  let unmarked :=
    if unsigned.take 2 = [some '0', some 'x'] ∨ unsigned.take 2 = [some '0', some 'X'] then
      unsigned.drop 2
    else unsigned
  match (unmarked.map fun u => u.bind hexValue).takeWhile Option.isSome with
  | [] => none
  | digits =>
      let n : Nat := digits.reduceOption.foldl (fun n d => 16 * n + d) 0
      some (if negative then -n else n)

/-- Two units a byte, of which a `Uint8Array` keeps what is left modulo 256. -/
def hexPairs : List (Option Char) → Option Bytes
  | [] => some []
  | [_] => none
  | high :: low :: rest => do
    let byte ← parseHexInt [high, low]
    let more ← hexPairs rest
    some (UInt8.ofInt byte :: more)

def hexToBytes (hex : String) : Option Bytes :=
  let clean := if "0x".toList <+: hex.toList then hex.toList.drop 2 else hex.toList
  hexPairs (codeUnits clean)

/-- `coinType`. -/
def coinType (network : String) : Nat := if network = "bitcoin" then 0 else 1

/-- `heirEmail.trim().toLowerCase()`. Unicode's lower case is left open. -/
def jsNormalize (toLowerCase : List Char → List Char) (email : String) : String :=
  .ofList (toLowerCase (jsTrim email.toList))

/-- `deriveHeirKey`: the account xprv, or the exception it throws. -/
def deriveHeirKey (toLowerCase : List Char → List Char) (vaultSecretHex heirEmail network : String) :
    Option Xpriv := do
  let vaultSecret ← hexToBytes vaultSecretHex
  if vaultSecret.length ≠ 32 then none
  else
    let normalized := jsNormalize toLowerCase heirEmail
    if normalized = "" then none
    else
      let okm := K.hkdf vaultSecret (utf8 normalized) heirBip39Info 32
      some (accountOf K (network = "bitcoin") (coinType network) (okm.take 16))

/-! ## §4 The same key -/

theorem parseHexInt_digitChar : ∀ h < 16, ∀ l < 16,
    parseHexInt [some (Nat.digitChar h), some (Nat.digitChar l)] =
      some ((16 * h + l : Nat) : Int) := by
  decide

theorem ofInt_toNat (b : UInt8) : UInt8.ofInt (b.toNat : Int) = b := by
  have bound : b.toNat < 256 := b.toNat_lt
  have small : ((b.toNat : Int) % 2 ^ 8).toNat = b.toNat := by omega
  rw [UInt8.ofInt, small, UInt8.ofNat_toNat]

theorem hexPairs_hexEncode (bytes : Bytes) :
    hexPairs (codeUnits (bytes.flatMap fun b =>
      [Nat.digitChar (b.toNat / 16), Nat.digitChar (b.toNat % 16)])) = some bytes := by
  have plain : ∀ n < 16, (Nat.digitChar n).toNat < 0x10000 := by decide
  induction bytes with
  | nil => rfl
  | cons b bs ih =>
    have bound : b.toNat < 256 := b.toNat_lt
    have high := plain (b.toNat / 16) (by omega)
    have low := plain (b.toNat % 16) (by omega)
    have byte := parseHexInt_digitChar (b.toNat / 16) (by omega) (b.toNat % 16) (by omega)
    rw [Nat.div_add_mod] at byte
    simp only [codeUnits] at ih
    simp only [codeUnits, List.flatMap_cons, List.cons_append, List.nil_append, high, low, if_true,
      hexPairs, byte, ih, Option.bind_eq_bind, Option.bind_some, ofInt_toNat]

/-- The vault's secret arrives as it was sent. -/
theorem hexToBytes_hexEncode (bytes : Bytes) : hexToBytes (hexEncode bytes) = some bytes := by
  have digits : ∀ n < 16, Nat.digitChar n ≠ 'x' := by decide
  have unmarked : ¬ "0x".toList <+: (hexEncode bytes).toList := by
    cases bytes with
    | nil => decide
    | cons b bs =>
      intro marked
      have mark : "0x".toList = ['0', 'x'] := by decide
      rw [mark, hexEncode, String.toList_ofList, List.flatMap_cons, List.cons_append] at marked
      have second := (List.cons_prefix_cons.1 (List.cons_prefix_cons.1 marked).2).1
      exact digits _ (Nat.mod_lt _ (by decide)) second.symm
  simp only [hexToBytes, unmarked, if_false]
  rw [hexEncode, String.toList_ofList, hexPairs_hexEncode]

/-- A network is the main one on both sides or on neither. -/
theorem main_of_parseNetwork {name : String} {network : Network}
    (known : parseNetwork name = .ok network) :
    (name = "bitcoin" ↔ network = .bitcoin) ∧ coinType name = coinOf network := by
  unfold parseNetwork at known
  split at known <;> cases known <;> decide

variable {K} {toLowerCase : List Char → List Char} {masterKey : Bytes} {id : VaultId}

/-- What the browser derives is the key of its own normal form. -/
theorem deriveHeirKey_some {address name : String} {network : Network}
    (known : parseNetwork name = .ok network) :
    deriveHeirKey K toLowerCase (hexEncode (computeVaultSecret K masterKey id)) address name =
      if jsNormalize toLowerCase address = "" then none
      else some (accountOf K (network = .bitcoin) (coinOf network)
        ((K.hkdf (computeVaultSecret K masterKey id) (utf8 (jsNormalize toLowerCase address))
          heirBip39Info 32).take 16)) := by
  obtain ⟨main, coin⟩ := main_of_parseNetwork known
  have long : (computeVaultSecret K masterKey id).length = 32 := K.length_hkdf _ _ _ _
  unfold deriveHeirKey
  rw [hexToBytes_hexEncode]
  simp only [Option.bind_eq_bind, Option.bind_some, long, ne_eq, not_true_eq_false, if_false, main,
    coin]

/-- From an address of the same normal form it is the server's. -/
theorem deriveHeirKey_eq (K : KeyFunctions) (masterKey : Bytes) (id : VaultId)
    {email address name : String} {network : Network} (known : parseNetwork name = .ok network)
    (given : normalizeHeirEmail email ≠ "")
    (same : jsNormalize toLowerCase address = normalizeHeirEmail email) :
    ∃ key, deriveHeirKey K toLowerCase (hexEncode (computeVaultSecret K masterKey id)) address
        name = some key ∧ K.neuter key = deriveHeirSeed K masterKey email id network := by
  rw [deriveHeirKey_some known, same, if_neg given]
  exact ⟨_, rfl, rfl⟩

/-! ## §5 Recovering the key of a vault -/

/-- The browser, given what the derivation endpoint answers for the vault's row, comes to
the key that the creation put in the descriptor. -/
def Recovers (K : KeyFunctions) (toLowerCase : List Char → List Char) (S : Server)
    {req : CreateVaultFromXpubRequest} (c : FromXpub S req) : Prop :=
  ∃ view key, derivationParams S c.row = .done view ∧
    deriveHeirKey K toLowerCase view.vaultSecretHex view.heirEmail view.network = some key ∧
      String.ofList (K.neuter key).text = c.heir.2

/-- It does so for whatever functions the two sides share, in whichever server accepts the
request and reads contacts as `reads` does. -/
def AlwaysRecovers (toLowerCase : List Char → List Char) (reads : String → Option HeirContact)
    (req : CreateVaultFromXpubRequest) : Prop :=
  ∀ (K : KeyFunctions) (S : Server) (masterKey : Bytes), DerivesWith K S masterKey →
    SealsContacts S → S.parseHeirJson = reads → ∀ c : FromXpub S req, Recovers K toLowerCase S c

/-- The normal forms agree: the server's of the address a key is derived from, and the
browser's of the address on file. -/
def SameNormalForm (toLowerCase : List Char → List Char) (reads : String → Option HeirContact)
    (email text : String) : Prop :=
  ∃ contact address, reads text = some contact ∧ contact.contact = some address ∧
    isBlank address = false ∧ jsNormalize toLowerCase address = normalizeHeirEmail email

section Recovering

variable {S : Server} {req : CreateVaultFromXpubRequest} {reads : String → Option HeirContact}
  {email text : String}

/-- An explicit contact is the one that is sealed. -/
theorem effective_of_given (given : req.heirContact = some text) (nonempty : text ≠ "") :
    effectiveHeirContact req = some text := by
  simp [effectiveHeirContact, given, nonempty]

/-- The derivation endpoint reads the contact of a new vault from the text that was sealed. -/
theorem parseHeirContact_row (opens : SealsContacts S) (c : FromXpub S req)
    (effective : effectiveHeirContact req = some text) :
    parseHeirContact S c.row.id c.row.contacts.heir =
      match S.parseHeirJson text with
      | none => .error ()
      | some contact => .ok (some contact) := by
  obtain ⟨ct, nonce, sealed, found⟩ := sealOpt_some (given_effective effective) c.heir_sealed
  have stored : c.row.contacts.heir = ⟨some ct, some nonce, req.heirContactChannel⟩ := by
    show sealedContact c.sealed.heir req.heirContactChannel = _
    rw [found]
    rfl
  rw [stored]
  exact parseHeirContact_sealed opens sealed req.heirContactChannel

/-- From a contact with an address it answers with that address. -/
theorem derivationParams_row (derives : DerivesWith K S masterKey) (opens : SealsContacts S)
    (c : FromXpub S req) (effective : effectiveHeirContact req = some text)
    {contact : HeirContact} {address : String} (read : S.parseHeirJson text = some contact)
    (posted : contact.contact = some address) (filled : isBlank address = false) :
    derivationParams S c.row = .done ⟨c.id, req.network, req.timelockBlocks,
      hexEncode (computeVaultSecret K masterKey c.id), address, c.pair.1, c.pair.2⟩ := by
  have known : S.vaultSecretHex c.row.id = .ok (hexEncode (computeVaultSecret K masterKey c.id)) :=
    derives.secret c.id
  rw [derivationParams, parseHeirContact_row opens c effective, read, known]
  simp only [crypto, okOr, posted, Option.filter, filled, Bool.not_false, if_true, validated,
    bind_eq, done_bind, pure_eq]
  rfl

/-- From any other it does not answer. -/
theorem derivationParams_done (opens : SealsContacts S) (c : FromXpub S req)
    (effective : effectiveHeirContact req = some text) {view : HeirDerivationParamsView}
    (answered : derivationParams S c.row = .done view) :
    ∃ contact address, S.parseHeirJson text = some contact ∧ contact.contact = some address ∧
      isBlank address = false := by
  rw [derivationParams, parseHeirContact_row opens c effective] at answered
  cases read : S.parseHeirJson text with
  | none =>
    rw [read] at answered
    cases answered
  | some contact =>
    cases posted : contact.contact with
    | none => simp [read, crypto, okOr, posted] at answered
    | some address =>
      cases blank : isBlank address with
      | true => simp [read, crypto, okOr, posted, Option.filter, blank] at answered
      | false => exact ⟨contact, address, rfl, posted, blank⟩

/-- The server puts the key of its own normal form into the descriptor. -/
theorem heir_key_derived (derives : DerivesWith K S masterKey) (c : FromXpub S req)
    (derived : req.heirDerivation = some email) :
    trim email ≠ "" ∧
      c.heir.2 = .ofList (deriveHeirSeed K masterKey (trim email) c.id c.network).text := by
  have key := c.heir_key
  rw [HeirKey, derived] at key
  dsimp only at key
  rw [derives.heir] at key
  exact ⟨key.1, (Except.ok.inj key.2.2).symm⟩

/-- From the same normal form the browser recovers the key. -/
theorem recovers_of_same (derives : DerivesWith K S masterKey) (opens : SealsContacts S)
    (derived : req.heirDerivation = some email) (effective : effectiveHeirContact req = some text)
    (same : SameNormalForm toLowerCase S.parseHeirJson email text) (c : FromXpub S req) :
    Recovers K toLowerCase S c := by
  obtain ⟨contact, address, read, posted, filled, forms⟩ := same
  obtain ⟨given, key⟩ := heir_key_derived derives c derived
  have answered := derivationParams_row derives opens c effective read posted filled
  obtain ⟨xprv, recovered, neutered⟩ := deriveHeirKey_eq K masterKey c.id c.known
    (normalizeHeirEmail_ne given) forms
  refine ⟨_, xprv, answered, recovered, ?_⟩
  rw [neutered, key, deriveHeirSeed, deriveHeirSeed, normalizeHeirEmail, normalizeHeirEmail,
    trim_trim]

end Recovering

/-! ## §6 Functions that tell two addresses apart -/

/-- Shared functions that give one address the key `mine` and all others the key `other`. -/
def telling (address : String) (mine other : Xpriv) (x y : Xpub) : KeyFunctions where
  hkdf _ ikm info length :=
    List.replicate length (if info = heirBip39Info ∧ ikm ≠ utf8 address then 1 else 0)
  mnemonic entropy := if entropy = List.replicate 16 0 then "mine" else "other"
  toSeed phrase := utf8 phrase
  newMaster _ seed := if seed = utf8 "mine" then mine else other
  derivePriv key _ := key
  neuter key := if key = mine then x else y
  length_hkdf _ _ _ _ := List.length_replicate

theorem accountOf_telling {address : String} {mine other : Xpriv} {x y : Xpub} {salt : Bytes}
    {s : String} {main : Bool} {coin : Nat} :
    accountOf (telling address mine other x y) main coin
        (((telling address mine other x y).hkdf salt (utf8 s) heirBip39Info 32).take 16) =
      if s = address then mine else other := by
  have phrases : utf8 "other" ≠ utf8 "mine" := fun eq => absurd (utf8_injective eq) (by decide)
  by_cases same : s = address
  · subst same
    simp [accountOf, telling]
  · have apart : utf8 s ≠ utf8 address := fun eq => same (utf8_injective eq)
    simp [accountOf, telling, apart, same, phrases]

/-- The server's key from the address is the one told apart. -/
theorem deriveHeirSeed_telling (masterKey : Bytes) (email : String) (id : VaultId)
    (network : Network) (mine other : Xpriv) (x y : Xpub) :
    deriveHeirSeed (telling (normalizeHeirEmail email) mine other x y) masterKey email id
      network = x := by
  unfold deriveHeirSeed
  dsimp only
  rw [accountOf_telling, if_pos rfl]
  simp only [telling, if_true]

/-- The browser's key is that one only from an address of the same normal form. -/
theorem same_of_recovered {address : String} {mine other : Xpriv} {x y : Xpub} {salt : Bytes}
    {s : String} {main : Bool} {coin : Nat} (distinct : other ≠ mine) (apart : y ≠ x)
    (recovered : (telling address mine other x y).neuter
      (accountOf (telling address mine other x y) main coin
        (((telling address mine other x y).hkdf salt (utf8 s) heirBip39Info 32).take 16)) = x) :
    s = address := by
  by_contra different
  rw [accountOf_telling, if_neg different] at recovered
  simp only [telling, distinct, if_false] at recovered
  exact apart recovered

/-- A server that derives keys with other functions, and is the same otherwise. -/
def Server.derivingWith (S : Server) (K : KeyFunctions) (masterKey : Bytes) : Server :=
  { S with
    keyLib :=
      { S.keyLib with
        deriveHeirSeed := fun email id network =>
          .ok (.ofList (deriveHeirSeed K masterKey email id network).text) }
    vaultSecretHex := fun id => .ok (hexEncode (computeVaultSecret K masterKey id)) }

section Exactness

variable {S : Server} {req : CreateVaultFromXpubRequest} {email text : String}

theorem derivesWith_derivingWith (S : Server) (K : KeyFunctions) (masterKey : Bytes) :
    DerivesWith K (S.derivingWith K masterKey) masterKey :=
  ⟨fun _ _ _ => rfl, fun _ => rfl⟩

/-- Such a server accepts what the first one does, when the heir's key comes out the same. -/
def FromXpub.transfer (c : FromXpub S req) (derived : req.heirDerivation = some email)
    (same : c.heir.2 = .ofList (deriveHeirSeed K masterKey (trim email) c.id c.network).text) :
    FromXpub (S.derivingWith K masterKey) req where
  network := c.network
  owner := c.owner
  id := c.id
  heir := c.heir
  pair := c.pair
  time := c.time
  sealed := c.sealed
  ownerToken := c.ownerToken
  atRest := c.atRest
  periods := c.periods
  timelock := c.timelock
  heir_channel := c.heir_channel
  known := c.known
  owner_key := c.owner_key
  heir_key := by
    have key := c.heir_key
    rw [HeirKey, derived] at *
    exact ⟨key.1, key.2.1, congrArg Except.ok same.symm⟩
  differ := c.differ
  built := c.built
  heir_shape := c.heir_shape
  heir_sealed := c.heir_sealed
  trusted_sealed := c.trusted_sealed
  owner_sealed := c.owner_sealed
  setup_door := c.setup_door

/-- Only the server's normal form is sure to give the vault's key. -/
theorem sameNormalForm_of_always (derives : DerivesWith K S masterKey) (opens : SealsContacts S)
    (accepted : FromXpub S req) (derived : req.heirDerivation = some email)
    (effective : effectiveHeirContact req = some text)
    (always : AlwaysRecovers toLowerCase S.parseHeirJson req) :
    SameNormalForm toLowerCase S.parseHeirJson email text := by
  -- shared functions under which only the server's normal form gives the vault's key
  let x := deriveHeirSeed K masterKey (trim email) accepted.id accepted.network
  let mine := plainXpriv '1' (by decide)
  let other := plainXpriv '2' (by decide)
  obtain ⟨y, apart⟩ : ∃ y : Xpub, y ≠ x := by
    by_cases first : plainXpub '1' (by decide) = x
    · refine ⟨plainXpub '2' (by decide), ?_⟩
      rw [← first]
      decide
    · exact ⟨_, first⟩
  have distinct : other ≠ mine := by decide
  let K' := telling (normalizeHeirEmail (trim email)) mine other x y
  have told : deriveHeirSeed K' masterKey (trim email) accepted.id accepted.network = x :=
    deriveHeirSeed_telling masterKey (trim email) accepted.id accepted.network mine other x y
  have key_eq := (heir_key_derived derives accepted derived).2
  let c' := accepted.transfer (K := K') derived (by rw [key_eq, told])
  have derives' := derivesWith_derivingWith S K' masterKey
  have opens' : SealsContacts (S.derivingWith K' masterKey) := opens
  obtain ⟨view, key, answered, recovered, text_eq⟩ := always K' (S.derivingWith K' masterKey)
    masterKey derives' opens' rfl c'
  obtain ⟨contact, address, read, posted, filled⟩ :=
    derivationParams_done opens' c' effective answered
  have answer := derivationParams_row derives' opens' c' effective read posted filled
  obtain rfl := Program.done.inj (answer.symm.trans answered)
  -- the key it comes to is the one of its own normal form
  dsimp only at recovered
  rw [deriveHeirKey_some c'.known] at recovered
  split at recovered
  · cases recovered
  · have key_is := Option.some.inj recovered
    have text_is : (K'.neuter key).text = x.text :=
      String.ofList_inj.1 (text_eq.trans key_eq)
    have back : K'.neuter key = x := Xpub.text_injective text_is
    rw [← key_is] at back
    have forms := same_of_recovered distinct apart back
    have trimmed : normalizeHeirEmail (trim email) = normalizeHeirEmail email := by
      rw [normalizeHeirEmail, trim_trim, ← normalizeHeirEmail]
    exact ⟨contact, address, read, posted, filled, forms.trans trimmed⟩

/-- The browser always recovers the key of an accepted request exactly when the server's
normal form of the address it derives from is the browser's of the address on file. -/
theorem alwaysRecovers_iff (derives : DerivesWith K S masterKey) (opens : SealsContacts S)
    (accepted : FromXpub S req) (derived : req.heirDerivation = some email)
    (given : req.heirContact = some text) (nonempty : text ≠ "") :
    AlwaysRecovers toLowerCase S.parseHeirJson req ↔
      SameNormalForm toLowerCase S.parseHeirJson email text := by
  have effective := effective_of_given given nonempty
  constructor
  · exact sameNormalForm_of_always derives opens accepted derived effective
  · intro same K' S' masterKey' derives' opens' reads c
    rw [← reads] at same
    exact recovers_of_same derives' opens' derived effective same c

end Exactness

section Accented

open Deployment

/-- `String.prototype.toLowerCase` on the letters of Latin-1, and no others. -/
def latinLower (s : List Char) : List Char :=
  s.map fun c =>
    if 0xC0 ≤ c.toNat ∧ c.toNat ≤ 0xDE ∧ c.toNat ≠ 0xD7 then Char.ofNat (c.toNat + 32)
    else c.toLower

def plainKeys : KeyFunctions :=
  telling "" (plainXpriv '1' one_base58) (plainXpriv '2' two_base58) (plainXpub '1' one_base58)
    (plainXpub '2' two_base58)

/-- The deployment with these key functions. -/
def derivingHost : Server := jsonHost.derivingWith plainKeys []

/-- A vault for the heir with this address, on file as the wizard writes it. -/
def derivedFrom (address : String) : CreateVaultFromXpubRequest :=
  { doorA with
    heirContact := some (wizardBlob "Ada" address "email")
    sealed := none
    heirDerivation := some address }

theorem effective_derivedFrom (address : String) :
    effectiveHeirContact (derivedFrom address) = some (wizardBlob "Ada" address "email") :=
  effective_of_given rfl (wizardBlob_ne _ _ _)

theorem resolveParty_derivingHost :
    resolveParty derivingHost "owner" doorA.owner = .ok ("f", "owner") := by decide

/-- The deployment accepts the request. -/
def acceptedFrom (address : String) (addressed : Addressed "email" address)
    (given : trim address ≠ "") : FromXpub derivingHost (derivedFrom address) where
  network := .bitcoin
  owner := ("f", "owner")
  id := "v"
  heir := ("00000000",
    .ofList (deriveHeirSeed plainKeys [] (trim address) "v" .bitcoin).text)
  pair := _
  time := 0
  sealed := ⟨none, some ("~" ++ wizardBlob "Ada" address "email", "nonce"), none, none⟩
  ownerToken := "o"
  atRest := none
  periods := rfl
  timelock := rfl
  heir_channel := rfl
  known := rfl
  owner_key := resolveParty_derivingHost
  heir_key := ⟨given, rfl, rfl⟩
  differ := by
    intro same
    have long := congrArg String.length same
    have keyed := (deriveHeirSeed plainKeys [] (trim address) "v" .bitcoin).isKeyText.length_eq
    simp only [String.length_ofList, keyed] at long
    exact absurd long (by decide)
  built := rfl
  heir_shape := by
    rw [effective_derivedFrom]
    exact (wizard_accepted_iff "Ada" addressed).2 rfl
  heir_sealed := by
    rw [effective_derivedFrom]
    have given : (some (wizardBlob "Ada" address "email")).filter (· ≠ "") =
        some (wizardBlob "Ada" address "email") := by
      simp [wizardBlob_ne]
    rw [sealOpt, given]
    rfl
  trusted_sealed := rfl
  owner_sealed := rfl
  setup_door _ none := nomatch none

theorem readHeirJson_jsonObject (fields : List (String × Option String))
    (distinct : (fields.map Prod.fst).Nodup) :
    readHeirJson (jsonObject fields) = some (.ofFields fields) :=
  readsJson_jsonHost.written fields distinct

theorem readHeirJson_wizardBlob (name contact channel : String) :
    readHeirJson (wizardBlob name contact channel) =
      some ⟨some name, some contact, some channel⟩ := by
  rw [wizardBlob, readHeirJson_jsonObject _ (by simp), HeirContact.ofFields]
  simp [List.lookup_cons]

/-- From an address of ASCII letters, in whatever case and spacing. -/
theorem alwaysRecovers_iff_spaced :
    AlwaysRecovers latinLower readHeirJson (derivedFrom " Ada@Example.com ") := by
  have forms : jsNormalize latinLower " Ada@Example.com " =
      normalizeHeirEmail " Ada@Example.com " := by decide
  have filled : isBlank " Ada@Example.com " = false := by decide
  have same : SameNormalForm latinLower readHeirJson " Ada@Example.com "
      (wizardBlob "Ada" " Ada@Example.com " "email") :=
    ⟨_, _, readHeirJson_wizardBlob _ _ _, rfl, filled, forms⟩
  have accepted := acceptedFrom " Ada@Example.com " ⟨.inl rfl, by decide⟩ (by decide)
  exact (alwaysRecovers_iff (derivesWith_derivingWith jsonHost plainKeys [])
    sealsContacts_jsonHost accepted rfl rfl (wizardBlob_ne _ _ _)).2 same

/-- From an accented capital the browser derives another key. -/
theorem not_alwaysRecovers : ¬ ∀ (K : KeyFunctions) (S : Server) (masterKey : Bytes),
    DerivesWith K S masterKey → SealsContacts S → ∀ (req : CreateVaultFromXpubRequest)
      (c : FromXpub S req) (email text : String), req.heirDerivation = some email →
        req.heirContact = some text → text ≠ "" → Recovers K latinLower S c := by
  intro recovers
  have always : AlwaysRecovers latinLower readHeirJson (derivedFrom "É@example.com") :=
    fun K S masterKey derives opens _ c => recovers K S masterKey derives opens _ c _ _ rfl rfl
      (wizardBlob_ne _ _ _)
  obtain ⟨contact, address, read, posted, -, forms⟩ :=
    sameNormalForm_of_always (derivesWith_derivingWith jsonHost plainKeys [])
      sealsContacts_jsonHost (acceptedFrom "É@example.com" ⟨.inl rfl, by decide⟩ (by decide)) rfl
      (effective_derivedFrom _) always
  have on_file : contact = ⟨some "Ada", some "É@example.com", some "email"⟩ :=
    Option.some.inj (read.symm.trans (readHeirJson_wizardBlob "Ada" "É@example.com" "email"))
  rw [on_file] at posted
  cases posted
  exact absurd forms (by decide)

end Accented

end GhostKey

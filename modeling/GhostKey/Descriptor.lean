import GhostKey.Foundation.Text
import GhostKey.Server

/-!
# Keys and Descriptors as Texts

`ghostkey-core` builds a descriptor by formatting the parties' key fragments into a
string, and everything later done to a key of it is done to that string. A fragment is
`[fingerprint/path]key/chain/*`; extended keys are known by their base58check text.

Main results:
- `Fingerprint.parse_display`: a displayed fingerprint is read back.
- `originTag_starts`: origins tell fingerprints apart.
-/

namespace GhostKey

open Foundation

abbrev Text := List Char

instance lawfulText : LawfulBEq Text := inferInstance

instance neZeroByte : NeZero 256 := ⟨by decide⟩

/-! ## §1 Fingerprints -/

/-- `bip32::Fingerprint`, the four bytes that name a master key. -/
structure Fingerprint where
  byte0 : Fin 256
  byte1 : Fin 256
  byte2 : Fin 256
  byte3 : Fin 256
  deriving DecidableEq

def hexByte (b : Fin 256) : Text := [Nat.digitChar (b / 16), Nat.digitChar (b % 16)]

/-- `impl Display for Fingerprint`: eight lowercase hex digits. -/
def Fingerprint.display (fp : Fingerprint) : Text :=
  hexByte fp.byte0 ++ hexByte fp.byte1 ++ hexByte fp.byte2 ++ hexByte fp.byte3

/-- The value of a hex digit of either case. -/
def hexValue (c : Char) : Option Nat :=
  if c.isDigit then some (c.toNat - '0'.toNat)
  else if 'a' ≤ c ∧ c ≤ 'f' then some (c.toNat - 'a'.toNat + 10)
  else if 'A' ≤ c ∧ c ≤ 'F' then some (c.toNat - 'A'.toNat + 10)
  else none

def parseHexByte (high low : Char) : Option (Fin 256) := do
  let h ← hexValue high
  let l ← hexValue low
  some (Fin.ofNat 256 (16 * h + l))

/-- `impl FromStr for Fingerprint`: exactly eight hex digits, of either case. -/
def Fingerprint.parse : Text → Option Fingerprint
  | [a, b, c, d, e, f, g, h] => do
    some ⟨← parseHexByte a b, ← parseHexByte c d, ← parseHexByte e f, ← parseHexByte g h⟩
  | _ => none

theorem hexValue_digitChar : ∀ n < 16, hexValue (Nat.digitChar n) = some n := by decide

theorem parseHexByte_hexByte (b : Fin 256) :
    parseHexByte (Nat.digitChar (b / 16)) (Nat.digitChar (b % 16)) = some b := by
  have high : b.val / 16 < 16 := by omega
  have low : b.val % 16 < 16 := by omega
  simp only [parseHexByte, hexValue_digitChar _ high, hexValue_digitChar _ low,
    Option.bind_eq_bind, Option.bind_some, Option.some.injEq, Nat.div_add_mod]
  exact Fin.ofNat_val_eq_self b

/-- A displayed fingerprint is read back. -/
theorem Fingerprint.parse_display (fp : Fingerprint) : Fingerprint.parse fp.display = some fp := by
  simp [Fingerprint.display, hexByte, Fingerprint.parse, parseHexByte_hexByte]

theorem Fingerprint.display_injective {fp fp' : Fingerprint} (eq : fp.display = fp'.display) :
    fp = fp' := by
  have both := fp.parse_display
  rw [eq, fp'.parse_display] at both
  exact (Option.some.inj both).symm

@[simp] theorem Fingerprint.length_display (fp : Fingerprint) : fp.display.length = 8 := rfl

theorem isHex_digitChar : ∀ n < 16, Nat.digitChar n ∈ "0123456789abcdef".toList := by decide

theorem Fingerprint.hex_of_mem_display {fp : Fingerprint} {c : Char} (mem : c ∈ fp.display) :
    c ∈ "0123456789abcdef".toList := by
  simp only [Fingerprint.display, hexByte, List.mem_append, List.mem_cons, List.not_mem_nil,
    or_false] at mem
  rcases mem with ((((rfl | rfl) | (rfl | rfl)) | (rfl | rfl)) | (rfl | rfl)) <;>
    exact isHex_digitChar _ (by omega)

/-! ## §2 Extended keys -/

def base58Alphabet : Text :=
  "123456789ABCDEFGHJKLMNPQRSTUVWXYZabcdefghijkmnopqrstuvwxyz".toList

theorem one_base58 : '1' ∈ base58Alphabet := by decide

theorem two_base58 : '2' ∈ base58Alphabet := by decide

/-- A base58check text of an extended key: 82 bytes in 111 characters, of which the
version bytes fix the first four. -/
structure IsKeyText (tags : List Text) (text : Text) : Prop where
  length_eq : text.length = 111
  base58 : ∀ c ∈ text, c ∈ base58Alphabet
  tagged : text.take 4 ∈ tags

/-- `bip32::Xpub`, as its `Display` writes it. -/
structure Xpub where
  text : Text
  isKeyText : IsKeyText ["xpub".toList, "tpub".toList] text
  deriving DecidableEq

/-- `bip32::Xpriv`, as its `Display` writes it. -/
structure Xpriv where
  text : Text
  isKeyText : IsKeyText ["xprv".toList, "tprv".toList] text
  deriving DecidableEq

/-- What rust-bitcoin supplies: `Xpub::from_priv`, and the words of a hex error. -/
structure BitcoinLib where
  neuter : Xpriv → Xpub
  hexError : Text → Text

theorem Xpub.text_injective {x y : Xpub} (eq : x.text = y.text) : x = y := by
  cases x
  cases y
  simpa using eq

/-- A private key's text is no public key's. -/
theorem Xpriv.text_ne (k : Xpriv) (x : Xpub) : k.text ≠ x.text := by
  intro eq
  have priv := k.isKeyText.tagged
  rw [eq] at priv
  have pub := x.isKeyText.tagged
  simp only [List.mem_cons, List.not_mem_nil, or_false] at priv pub
  rcases priv with priv | priv <;> rw [priv] at pub <;> revert pub <;> decide

/-- The characters a descriptor sets its parts off with. -/
def separators : List Char := ['[', ']', '/', '*']

theorem separator_not_base58 : ∀ c ∈ separators, c ∉ base58Alphabet :=
  Text.forall_mem_of_all (by decide)

theorem separator_not_hex : ∀ c ∈ separators, c ∉ "0123456789abcdef".toList :=
  Text.forall_mem_of_all (by decide)

theorem IsKeyText.lacks {tags : List Text} {text : Text} (key : IsKeyText tags text) {c : Char}
    (separator : c ∈ separators) : c ∉ text :=
  fun mem => separator_not_base58 c separator (key.base58 c mem)

theorem Fingerprint.lacks (fp : Fingerprint) {c : Char} (separator : c ∈ separators) :
    c ∉ fp.display :=
  fun mem => separator_not_hex c separator (hex_of_mem_display mem)

/-! ## §3 Fragments -/

/-- `keys::Chain`. -/
inductive Chain where
  | external
  | internal
  deriving DecidableEq

/-- `Chain::index`, as a digit. -/
def Chain.index : Chain → Char
  | .external => '0'
  | .internal => '1'

/-- `vault_account_path`, as `DerivationPath` displays it. -/
def vaultAccountPath : Network → Text
  | .bitcoin => "86'/0'/0'".toList
  | _ => "86'/1'/0'".toList

/-- `str::strip_prefix(..).unwrap_or(..)`. -/
def stripPrefix (pre s : Text) : Text := if pre <+: s then s.drop pre.length else s

/-- The origin of a fragment, `[fingerprint/path]`. -/
def originTag (fp : Fingerprint) (path : Text) : Text :=
  '[' :: (fp.display ++ '/' :: (stripPrefix "m/".toList path ++ [']']))

/-- A fragment around a key's text, public or private. -/
def fragmentAround (fp : Fingerprint) (path key : Text) (chain : Chain) : Text :=
  originTag fp path ++ (key ++ ['/', chain.index, '/', '*'])

/-- `descriptor_key_fragment`. -/
def descriptorKeyFragment (fp : Fingerprint) (path : Text) (xpub : Xpub) (chain : Chain) : Text :=
  fragmentAround fp path xpub.text chain

theorem stripPrefix_account (network : Network) :
    stripPrefix "m/".toList (vaultAccountPath network) = vaultAccountPath network := by
  cases network <;> decide

/-- An origin is its opening bracket and letters that are neither bracket. -/
theorem originTag_account (fp : Fingerprint) (network : Network) :
    originTag fp (vaultAccountPath network) =
      '[' :: (fp.display ++ '/' :: vaultAccountPath network) ++ [']'] := by
  rw [originTag, stripPrefix_account]
  simp only [List.cons_append, List.append_assoc]

theorem length_vaultAccountPath (network : Network) : (vaultAccountPath network).length = 9 := by
  cases network <;> decide

@[simp] theorem length_originTag (fp : Fingerprint) (network : Network) :
    (originTag fp (vaultAccountPath network)).length = 20 := by
  rw [originTag_account]
  simp [length_vaultAccountPath]

/-- Origins tell fingerprints apart, whatever follows them. -/
theorem originTag_starts {fp fp' : Fingerprint} {network : Network} {s : Text}
    (occurs : originTag fp (vaultAccountPath network) <+:
      originTag fp' (vaultAccountPath network) ++ s) : fp = fp' := by
  have same : originTag fp (vaultAccountPath network) = originTag fp' (vaultAccountPath network) := by
    apply List.IsPrefix.eq_of_length
    · exact List.prefix_of_prefix_length_le occurs (List.prefix_append ..) (by simp)
    · simp
  simp only [originTag_account, List.cons_append, List.cons.injEq, true_and] at same
  exact Fingerprint.display_injective (List.append_inj_left (List.append_cancel_right same) rfl)

/-! ## §4 Descriptors -/

def unspendableNumsXonly : Text :=
  "50929b74c1a04954b78b4b6035e97a5e078a5a0f28ec96d547bfee9ace803ac0".toList

/-- `MAX_CSV_BLOCKS`. -/
def maxCsvBlocks : Nat := 0xFFFF

/-- `MAX_CLTV_HEIGHT`. -/
def maxCltvHeight : Nat := 500000000

inductive DescriptorError where
  | invalidTimelock (blocks : Nat)
  | invalidUnlockHeight (height : Nat)
  deriving DecidableEq

/-- `GuardianDescriptorParams::validate`; a standard vault has no unlock height. -/
def validateLocks (timelockBlocks : Nat) (unlockHeight : Option Nat) :
    Except DescriptorError Unit :=
  if timelockBlocks = 0 ∨ timelockBlocks > maxCsvBlocks then .error (.invalidTimelock timelockBlocks)
  else match unlockHeight with
    | none => .ok ()
    | some h => if h = 0 ∨ h ≥ maxCltvHeight then .error (.invalidUnlockHeight h) else .ok ()

/-- The `Display` of an unsigned integer. -/
def decimal (n : Nat) : Text := Nat.toDigits 10 n

/-- `DescriptorParams`. -/
structure DescriptorParams where
  ownerKey : Text
  heirKey : Text
  timelockBlocks : Nat

def DescriptorParams.validate (params : DescriptorParams) : Except DescriptorError Unit :=
  validateLocks params.timelockBlocks none

/-- `build_descriptor_string`. -/
def buildDescriptorString (params : DescriptorParams) : Except DescriptorError Text := do
  params.validate
  .ok ("tr(".toList ++ unspendableNumsXonly ++ ",or_d(pk(".toList ++ params.ownerKey ++
    "),and_v(v:pk(".toList ++ params.heirKey ++ "),older(".toList ++
    decimal params.timelockBlocks ++ "))))".toList)

/-- `GuardianDescriptorParams`. -/
structure GuardianDescriptorParams where
  ownerKey : Text
  heirKey : Text
  guardian1Key : Text
  guardian2Key : Text
  timelockBlocks : Nat
  unlockHeight : Option Nat

def GuardianDescriptorParams.validate (params : GuardianDescriptorParams) :
    Except DescriptorError Unit :=
  validateLocks params.timelockBlocks params.unlockHeight

/-- `build_guardian_descriptor_string`. -/
def buildGuardianDescriptorString (params : GuardianDescriptorParams) : Except DescriptorError Text := do
  params.validate
  let guardianOr := "or_b(pk(".toList ++ params.guardian1Key ++ "),s:pk(".toList ++
    params.guardian2Key ++ "))".toList
  let gated := match params.unlockHeight with
    | some h => "and_v(v:after(".toList ++ decimal h ++ "),".toList ++ guardianOr ++ ")".toList
    | none => guardianOr
  .ok ("tr(".toList ++ unspendableNumsXonly ++ ",or_d(pk(".toList ++ params.ownerKey ++
    "),and_v(v:pk(".toList ++ params.heirKey ++ "),and_v(v:older(".toList ++
    decimal params.timelockBlocks ++ "),".toList ++ gated ++ "))))".toList)

/-! ## §5 The claim branch -/

/-- The branch of a vault's descriptor that a claim spends: `older(timelockBlocks)`, and
for a guardian vault `after(unlockHeight)` if it was set. -/
structure ClaimBranch where
  kind : VaultKind
  timelockBlocks : Nat
  unlockHeight : Option Nat
  valid : validateLocks timelockBlocks unlockHeight = .ok ()
  standard : kind = .standard → unlockHeight = none

/-- A lock of a day alone. -/
theorem validateLocks_day : validateLocks 144 none = .ok () := rfl

theorem heightless (kind : VaultKind) : kind = .standard → (none : Option Nat) = none := fun _ => rfl

namespace ClaimBranch

variable (branch : ClaimBranch)

theorem timelockBlocks_le : branch.timelockBlocks ≤ maxCsvBlocks := by
  have valid := branch.valid
  unfold validateLocks at valid
  split at valid
  · cases valid
  · omega

theorem unlockHeight_lt {h : Nat} (asks : h ∈ branch.unlockHeight) : 0 < h ∧ h < maxCltvHeight := by
  have valid := branch.valid
  rw [Option.mem_def.1 asks] at valid
  unfold validateLocks at valid
  split at valid
  · cases valid
  · simp only at valid
    split at valid
    · cases valid
    · omega

end ClaimBranch

end GhostKey

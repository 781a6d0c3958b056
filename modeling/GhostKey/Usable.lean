import GhostKey.Derivation

/-!
# Usable Vaults

What an heir or an estimate needs of a stored vault years later: descriptors with the
stored timelock, keys of the vault's network, an internal descriptor that differs in the
chain index only, a watch-only wallet over both, and no sealed text without its nonce.
The builders' descriptors are read back as texts; what the creation endpoints leave to the
request is the version bytes of the posted keys, the halves of the heir's sealed key, and
for posted descriptors everything.

Main results:
- `keysIn_woven`, `switchChain_woven`, `older_woven`: what the builders write.
- `FromXpub.built_from`, `WithGuardians.built_from`: an accepted request's descriptors are
  theirs.
- `usable_iff`: when the row of an accepted request is a usable vault.
-/

namespace GhostKey

open Foundation Program Prog

/-! ## §1 Reading a descriptor -/

/-- What sets a key expression off from the rest of a descriptor. -/
def isBracket (c : Char) : Bool := ['[', ']', '(', ')', ',', '{', '}'].contains c

/-- The text of an extended public key, by its length and its version bytes. -/
def isExtendedKey (s : Text) : Bool :=
  s.length == 111 && (s.take 4 == "xpub".toList || s.take 4 == "tpub".toList)

/-- The extended keys of a descriptor. -/
def keysIn (descriptor : Text) : List Text :=
  ((descriptor.splitOnP isBracket).map fun piece => piece.takeWhile Char.isAlphanum).filter
    isExtendedKey

/-- The version bytes of a public key of the network. -/
def versionOf : Network → Text
  | .bitcoin => "xpub".toList
  | _ => "tpub".toList

/-- Every extended key of the descriptor is one of the network. -/
def OfNetwork (network : Network) (descriptor : Text) : Prop :=
  ∀ key ∈ keysIn descriptor, key.take 4 = versionOf network

/-- The descriptor with the chain index of every key changed from 0 to 1. -/
def switchChain : Text → Text
  | '/' :: '0' :: '/' :: '*' :: rest => '/' :: '1' :: '/' :: '*' :: switchChain rest
  | c :: rest => c :: switchChain rest
  | [] => []

theorem keysIn_append (a b : Text) {c : Char} (bracket : isBracket c = true) :
    keysIn (a ++ c :: b) = keysIn a ++ keysIn b := by
  simp only [keysIn, List.splitOnP_append_cons a b bracket, List.map_append, List.filter_append]

theorem keysIn_nil : keysIn [] = [] := by decide

theorem keysIn_cons (b : Text) {c : Char} (bracket : isBracket c = true) :
    keysIn (c :: b) = keysIn b := by
  have split := keysIn_append [] b bracket
  rw [keysIn_nil] at split
  exact split

theorem length_le_of_mem_splitOnP (p : Char → Bool) :
    ∀ (s piece : Text), piece ∈ s.splitOnP p → piece.length ≤ s.length
  | [], piece, mem => by
    rw [List.splitOnP_nil, List.mem_singleton] at mem
    simp [mem]
  | c :: s, piece, mem => by
    have ih := length_le_of_mem_splitOnP p s
    rw [List.splitOnP_cons_eq_if_modifyHead] at mem
    split at mem
    · rcases List.mem_cons.1 mem with rfl | inside
      · simp
      · exact (ih piece inside).trans (by simp)
    · cases pieces : s.splitOnP p with
      | nil => exact absurd pieces (List.splitOnP_ne_nil p s)
      | cons first rest =>
        rw [pieces] at mem ih
        rw [List.modifyHead_cons] at mem
        rcases List.mem_cons.1 mem with rfl | inside
        · have bound := ih first List.mem_cons_self
          simp only [List.length_cons]
          omega
        · exact (ih piece (List.mem_cons_of_mem _ inside)).trans (by simp)

/-- A text too short for a key has none. -/
theorem keysIn_short {s : Text} (short : s.length < 111) : keysIn s = [] := by
  rw [keysIn, List.filter_eq_nil_iff]
  intro key mem
  obtain ⟨piece, inside, rfl⟩ := List.mem_map.1 mem
  have bound := length_le_of_mem_splitOnP isBracket s piece inside
  have taken : (piece.takeWhile Char.isAlphanum).length ≤ piece.length :=
    (List.takeWhile_sublist _).length_le
  simp only [isExtendedKey, Bool.and_eq_true, beq_iff_eq, not_and]
  intro long
  omega

theorem base58_alphanum : ∀ c ∈ base58Alphabet, c.isAlphanum = true :=
  Text.forall_mem_of_all (by decide)

theorem base58_not_bracket : ∀ c ∈ base58Alphabet, isBracket c = false :=
  Text.forall_mem_of_all (by decide)

/-- A public key and the chain suffix behind it. -/
theorem keysIn_key {key : Text} (isKey : IsKeyText ["xpub".toList, "tpub".toList] key)
    (chain : Chain) : keysIn (key ++ ['/', chain.index, '/', '*']) = [key] := by
  have unbroken : ∀ c ∈ key ++ ['/', chain.index, '/', '*'], isBracket c = false := by
    intro c mem
    rcases List.mem_append.1 mem with inside | behind
    · exact base58_not_bracket c (isKey.base58 c inside)
    · have suffix : ∀ c ∈ ['/', chain.index, '/', '*'], isBracket c = false := by
        cases chain <;> exact Text.forall_mem_of_all (by decide)
      exact suffix c behind
  have letters : ∀ c ∈ key, c.isAlphanum = true := fun c mem =>
    base58_alphanum c (isKey.base58 c mem)
  have slash : Char.isAlphanum '/' = false := by decide
  have extended : isExtendedKey key = true := by
    have tagged := isKey.tagged
    simp only [List.mem_cons, List.not_mem_nil, or_false] at tagged
    simp only [isExtendedKey, isKey.length_eq, beq_self_eq_true, Bool.true_and, Bool.or_eq_true,
      beq_iff_eq]
    exact tagged
  rw [keysIn, List.splitOnP_eq_singleton unbroken]
  simp only [List.map_cons, List.map_nil, List.takeWhile_append_of_pos letters, List.takeWhile_cons,
    slash, Bool.false_eq_true, if_false, List.append_nil, List.filter_cons, extended, if_true,
    List.filter_nil]

/-- A stretch without a star has no chain suffix, and none begins in it. -/
theorem switchChain_append {a : Text} (plain : '*' ∉ a) (b : Text) :
    switchChain (a ++ '/' :: '0' :: '/' :: '*' :: b) =
      a ++ '/' :: '1' :: '/' :: '*' :: switchChain b := by
  induction a with
  | nil => rfl
  | cons c a ih =>
    have rest := ih fun mem => plain (List.mem_cons_of_mem c mem)
    have not_here : ∀ r, (c :: a) ++ '/' :: '0' :: '/' :: '*' :: b ≠ '/' :: '0' :: '/' :: '*' :: r := by
      intro r eq
      -- the star would be in the stretch, or its suffix would begin twice
      rcases a with _ | ⟨x, _ | ⟨y, _ | ⟨z, a⟩⟩⟩ <;> simp at eq plain
      simp_all
    rw [List.cons_append] at not_here ⊢
    rw [switchChain.eq_def]
    split
    · next r eq => exact absurd eq (not_here r)
    · next eq =>
      cases eq
      rw [rest, List.cons_append]
    · next eq => cases eq

theorem switchChain_eq_self {a : Text} (plain : '*' ∉ a) : switchChain a = a := by
  induction a with
  | nil => rfl
  | cons c a ih =>
    have rest := ih fun mem => plain (List.mem_cons_of_mem c mem)
    rw [switchChain.eq_def]
    split
    · next r eq =>
      rw [eq] at plain
      simp at plain
    · next eq =>
      cases eq
      rw [rest]
    · next eq => cases eq

/-! ## §2 What the builders write -/

/-- A text that begins with a bracket. -/
def Bracketed (s : Text) : Prop := ∃ c rest, s = c :: rest ∧ isBracket c = true

theorem Bracketed.append {a : Text} (bracketed : Bracketed a) (b : Text) : Bracketed (a ++ b) := by
  obtain ⟨c, rest, rfl, bracket⟩ := bracketed
  exact ⟨c, rest ++ b, rfl, bracket⟩

/-- A segment with a short gap, around a public key. -/
structure Segment.Public (s : Segment) : Prop where
  short : s.gap.length < 111
  starless : '*' ∉ s.gap
  key : IsKeyText ["xpub".toList, "tpub".toList] s.key

section Weave

variable {network : Network} {chain : Chain} {s : Segment} {segments : List Segment} {tail : Text}

theorem keysIn_origin (fp : Fingerprint) :
    keysIn (fp.display ++ '/' :: vaultAccountPath network) = [] := by
  apply keysIn_short
  simp [length_vaultAccountPath]

/-- In front of a bracket, the key of a segment is all there is to read in it. -/
theorem keysIn_segment (public_ : s.Public) {rest : Text} (bracketed : Bracketed rest) :
    keysIn (s.text network chain ++ rest) = s.key :: keysIn rest := by
  obtain ⟨c, behind, rfl, bracket⟩ := bracketed
  have parts : s.text network chain ++ c :: behind =
      s.gap ++ '[' :: ((s.fp.display ++ '/' :: vaultAccountPath network) ++ ']' ::
        ((s.key ++ ['/', chain.index, '/', '*']) ++ c :: behind)) := by
    simp [Segment.text, fragmentAround, originTag_account]
  rw [parts, keysIn_append _ _ (by decide), keysIn_append _ _ (by decide),
    keysIn_append _ _ bracket, keysIn_cons _ bracket, keysIn_short public_.short, keysIn_origin,
    keysIn_key public_.key]
  rfl

/-- The keys of a woven text are those of its segments. -/
theorem keysIn_weave (public_ : ∀ s ∈ segments, s.Public)
    (apart : ∀ s ∈ segments.tail, Bracketed s.gap) (closed : Bracketed tail) :
    keysIn (weave network chain segments tail) = segments.map Segment.key ++ keysIn tail := by
  induction segments with
  | nil => rfl
  | cons s rest ih =>
    have later := ih (fun t mem => public_ t (List.mem_cons_of_mem s mem)) fun t mem =>
      apart t (List.mem_of_mem_tail mem)
    have bracketed : Bracketed (weave network chain rest tail) := by
      cases rest with
      | nil => exact closed
      | cons t more =>
        have gap := (apart t List.mem_cons_self).append
        rw [weave, List.flatMap_cons, Segment.text, List.append_assoc, List.append_assoc]
        exact gap _
    have split : weave network chain (s :: rest) tail =
        s.text network chain ++ weave network chain rest tail := by simp [weave]
    rw [split, keysIn_segment (public_ s List.mem_cons_self) bracketed, later]
    rfl

/-- The two chains' texts differ in the chain index only. -/
theorem switchChain_weave (public_ : ∀ s ∈ segments, s.Public) (plain : '*' ∉ tail) :
    switchChain (weave network .external segments tail) =
      weave network .internal segments tail := by
  induction segments with
  | nil => exact switchChain_eq_self plain
  | cons s rest ih =>
    have later := ih fun t mem => public_ t (List.mem_cons_of_mem s mem)
    have here := public_ s List.mem_cons_self
    have path : '*' ∉ vaultAccountPath network := by cases network <;> decide
    have before : '*' ∉ s.gap ++ (originTag s.fp (vaultAccountPath network) ++ s.key) := by
      have tag : '*' ∉ originTag s.fp (vaultAccountPath network) := by
        have hex := s.fp.lacks (c := '*') (by simp [separators])
        simp [originTag_account, hex, path]
      have key := here.key.lacks (c := '*') (by simp [separators])
      simp [here.starless, tag, key]
    have split : ∀ chain, weave network chain (s :: rest) tail =
        (s.gap ++ (originTag s.fp (vaultAccountPath network) ++ s.key)) ++
          '/' :: chain.index :: '/' :: '*' :: weave network chain rest tail := by
      intro chain
      simp [weave, Segment.text, fragmentAround]
    rw [split, split, Chain.index, switchChain_append before, later]
    rfl

end Weave

namespace VaultKeys

variable (v : VaultKeys)

theorem star_not_mem_decimal (n : Nat) : '*' ∉ decimal n := fun mem =>
  absurd (Nat.isDigit_of_mem_toDigits (by decide) (by decide) mem) (by decide)

theorem starless_gap (who : Party) : '*' ∉ v.gap who := by
  cases who with
  | owner => rw [gap_owner]; decide
  | heir => rw [gap_heir]; decide
  | guardian2 => rw [gap_guardian2]; decide
  | guardian1 =>
    have blocks := star_not_mem_decimal v.timelockBlocks
    have unlock : '*' ∉ afterText v.unlockHeight := by
      cases v.unlockHeight with
      | none => simp [afterText_none]
      | some h => simp [afterText_some, star_not_mem_decimal h]
    rw [gap_guardian1]
    simp [blocks, unlock]

theorem public_segment (who : Party) : (v.segment v.publicKey who).Public where
  short := by
    have bound := (v.gap_plain who).2
    exact Nat.lt_of_le_of_lt bound (by decide)
  starless := v.starless_gap who
  key := (v.xpub who).isKeyText

theorem tail_plain : Bracketed v.tail ∧ '*' ∉ v.tail ∧ v.tail.length < 111 := by
  have digits : (decimal v.timelockBlocks).length ≤ 5 := by
    have blocks := v.timelockBlocks_le
    exact length_decimal_le (by decide) (by simp only [maxCsvBlocks] at blocks; omega)
  have starless := star_not_mem_decimal v.timelockBlocks
  unfold tail
  split
  · refine ⟨⟨')', _, rfl, by decide⟩, by simp [starless], ?_⟩
    simp only [List.length_append]
    have fixed : "),older(".toList.length = 8 ∧ "))))".toList.length = 4 := by decide
    omega
  · refine ⟨⟨')', _, rfl, by decide⟩, ?_, ?_⟩
    · cases v.unlockHeight <;> simp
    · have short : ∀ b : Bool,
          ("))".toList ++ (if b then ")".toList else []) ++ "))))".toList).length < 111 := by decide
      exact short _

/-- The extended keys of a vault's descriptors are the parties'. -/
theorem keysIn_woven (chain : Chain) :
    keysIn (v.woven v.publicKey chain) = v.kind.parties.map v.publicKey := by
  have tail := v.tail_plain
  rw [woven, keysIn_weave, keysIn_short tail.2.2, List.append_nil, List.map_map]
  · rfl
  · intro s mem
    obtain ⟨who, -, rfl⟩ := List.mem_map.1 mem
    exact v.public_segment who
  · have later : ∀ who ∈ v.kind.parties.tail, who ≠ .owner := by cases v.kind <;> decide
    intro s mem
    rw [← List.map_tail] at mem
    obtain ⟨who, inside, rfl⟩ := List.mem_map.1 mem
    cases who with
    | owner => exact absurd rfl (later _ inside)
    | heir | guardian1 | guardian2 => exact ⟨')', _, rfl, by decide⟩
  · exact tail.1

/-- The internal descriptor is the external one on the other chain. -/
theorem switchChain_woven :
    switchChain (v.woven v.publicKey .external) = v.woven v.publicKey .internal := by
  apply switchChain_weave
  · intro s mem
    obtain ⟨who, -, rfl⟩ := List.mem_map.1 mem
    exact v.public_segment who
  · exact v.tail_plain.2.1

/-- The relative lock of both. -/
theorem older_woven (chain : Chain) :
    "older(".toList ++ decimal v.timelockBlocks ++ [')'] <:+: v.woven v.publicKey chain := by
  cases kind : v.kind with
  | standard =>
    have inside : "older(".toList ++ decimal v.timelockBlocks ++ [')'] <:+: v.tail :=
      ⟨"),".toList, ")))".toList, by simp [tail, kind]⟩
    exact inside.trans (List.suffix_append _ _).isInfix
  | guardian =>
    have inside : "older(".toList ++ decimal v.timelockBlocks ++ [')'] <:+: v.gap .guardian1 :=
      ⟨"),and_v(v:".toList, ",".toList ++ (afterText v.unlockHeight ++ "or_b(pk(".toList),
        by simp [gap_guardian1]⟩
    have segment : v.gap .guardian1 <:+:
        (v.segment v.publicKey .guardian1).text v.network chain :=
      (List.prefix_append _ _).isInfix
    have named : v.segment v.publicKey .guardian1 ∈ v.kind.parties.map (v.segment v.publicKey) :=
      List.mem_map_of_mem (by rw [kind]; decide)
    obtain ⟨before, after, split⟩ := List.append_of_mem named
    have whole : (v.segment v.publicKey .guardian1).text v.network chain <:+:
        v.woven v.publicKey chain := by
      rw [woven, weave, split, List.flatMap_append, List.flatMap_cons]
      exact ⟨before.flatMap (Segment.text v.network chain),
        after.flatMap (Segment.text v.network chain) ++ v.tail, by simp⟩
    exact inside.trans (segment.trans whole)

end VaultKeys

/-! ## §3 The server's key library -/

/-- What `ghostkey-core` takes from rust-bitcoin and miniscript. -/
structure RustBitcoin where
  parseFingerprint : String → Except String Fingerprint
  parseXpub : String → Except String Xpub
  parseDescriptor : String → Except String Unit
  /-- base58check has one text for a key. -/
  parseXpub_text : ∀ s x, parseXpub s = .ok x → x.text = s.toList

/-- BIP32 keeps the version bytes of the network a master key is made for. -/
structure KeyFunctions.KeepsVersion (K : KeyFunctions) : Prop where
  newMaster : ∀ main seed,
    (K.newMaster main seed).text.take 4 = if main then "xprv".toList else "tprv".toList
  derivePriv : ∀ key path, (K.derivePriv key path).text.take 4 = key.text.take 4
  neuter : ∀ key, (K.neuter key).text.take 4 =
    if key.text.take 4 = "xprv".toList then "xpub".toList else "tpub".toList

/-- `Display` of the errors the builders return. -/
def DescriptorError.message : DescriptorError → String
  | .invalidTimelock blocks =>
      "invalid timelock: " ++ toString blocks ++ " (must be 1..=65535 blocks for CSV)"
  | .invalidUnlockHeight height =>
      "invalid unlock height: " ++ toString height ++
        " (must be 1..500000000 for an absolute block-height CLTV)"

/-- A fingerprint's and a key's text as `descriptor_key_fragment` sets them. -/
def fragmentText (fingerprint : Text) (network : Network) (key : Text) (chain : Chain) : Text :=
  ('[' :: (fingerprint ++ '/' :: (stripPrefix "m/".toList (vaultAccountPath network) ++ [']']))) ++
    (key ++ ['/', chain.index, '/', '*'])

theorem fragmentText_display (fp : Fingerprint) (network : Network) (key : Text) (chain : Chain) :
    fragmentText fp.display network key chain =
      fragmentAround fp (vaultAccountPath network) key chain := rfl

/-- The two strings of a builder, each parsed back. -/
def parsedPair (R : RustBitcoin) (ext int : Except DescriptorError Text) :
    Except String (String × String) := do
  let ext ← ext.mapError DescriptorError.message
  let int ← int.mapError DescriptorError.message
  R.parseDescriptor (.ofList ext)
  R.parseDescriptor (.ofList int)
  .ok (.ofList ext, .ofList int)

/-- `ghostkey-core`, with the key functions of the derivation. -/
def coreKeyLib (R : RustBitcoin) (K : KeyFunctions) (masterKey : Bytes) : KeyLib where
  parseFingerprint s := (R.parseFingerprint s).map fun fp => .ofList fp.display
  parseXpub s := (R.parseXpub s).map fun x => .ofList x.text
  keyFragment fp network xpub external :=
    .ofList (fragmentText fp.toList network xpub.toList (if external then .external else .internal))
  buildDescriptorPair owner heir timelockBlocks :=
    parsedPair R
      (buildDescriptorString ⟨owner.1.toList, heir.1.toList, timelockBlocks⟩)
      (buildDescriptorString ⟨owner.2.toList, heir.2.toList, timelockBlocks⟩)
  buildGuardianDescriptorPair owner heir guardian1 guardian2 timelockBlocks unlockHeight :=
    parsedPair R
      (buildGuardianDescriptorString ⟨owner.1.toList, heir.1.toList, guardian1.1.toList,
        guardian2.1.toList, timelockBlocks, unlockHeight⟩)
      (buildGuardianDescriptorString ⟨owner.2.toList, heir.2.toList, guardian1.2.toList,
        guardian2.2.toList, timelockBlocks, unlockHeight⟩)
  parseDescriptor := R.parseDescriptor
  deriveHeirSeed email id network :=
    .ok (.ofList (deriveHeirSeed K masterKey email id network).text)

/-- A resolved party: a fingerprint and a key, as their texts. -/
def IsParty (party : String × String) (fp : Fingerprint) (x : Xpub) : Prop :=
  party = (.ofList fp.display, .ofList x.text)

section Core

variable {R : RustBitcoin} {K : KeyFunctions} {masterKey : Bytes} {S : Server}

theorem fragments_isParty (core : S.keyLib = coreKeyLib R K masterKey) {network : Network}
    {party : String × String} {fp : Fingerprint} {x : Xpub} (isParty : IsParty party fp x) :
    fragments S network party =
      (.ofList (fragmentAround fp (vaultAccountPath network) x.text .external),
        .ofList (fragmentAround fp (vaultAccountPath network) x.text .internal)) := by
  rw [IsParty] at isParty
  rw [fragments, core, isParty]
  simp only [coreKeyLib, if_true, Bool.false_eq_true, if_false, String.toList_ofList,
    fragmentText_display]

theorem parsedPair_ok {ext int : Except DescriptorError Text} {pair : String × String}
    (parsed : parsedPair R ext int = .ok pair) :
    ∃ e i, ext = .ok e ∧ int = .ok i ∧ pair = (.ofList e, .ofList i) := by
  obtain ⟨e, external, parsed⟩ := bind_eq_ok parsed
  obtain ⟨i, internal, parsed⟩ := bind_eq_ok parsed
  obtain ⟨_, -, parsed⟩ := bind_eq_ok parsed
  obtain ⟨_, -, parsed⟩ := bind_eq_ok parsed
  exact ⟨e, i, mapError_eq_ok external, mapError_eq_ok internal, (Except.ok.inj parsed).symm⟩

/-- The key that a party posts, without its origin. -/
def postedKey (party : PartyXpub) : Text :=
  match (trim party.xpub).toList with
  | '[' :: stripped =>
      match splitOnce ']' stripped with
      | none => []
      | some (_, after) => after
  | bare => bare

theorem postedKey_tagged {party : PartyXpub} {stripped inside after : List Char}
    (tagged : (trim party.xpub).toList = '[' :: stripped)
    (found : splitOnce ']' stripped = some (inside, after)) : postedKey party = after := by
  simp only [postedKey, tagged, found]

theorem postedKey_bare {party : PartyXpub}
    (bare : ∀ stripped, (trim party.xpub).toList ≠ '[' :: stripped) :
    postedKey party = (trim party.xpub).toList := by
  unfold postedKey
  split
  · next stripped eq => exact absurd eq (bare stripped)
  · rfl

theorem splitOrigin_ok {who : String} {party : PartyXpub} {p : String × String}
    (split_ok : splitOrigin who party = .ok p) : p.2 = .ofList (postedKey party) := by
  unfold splitOrigin at split_ok
  split at split_ok
  · next stripped tagged =>
    split at split_ok
    · cases split_ok
    · next inside after found =>
      rw [postedKey_tagged tagged found]
      dsimp only at split_ok
      split at split_ok
      · cases split_ok
        rfl
      · split at split_ok
        · cases split_ok
          rfl
        · cases split_ok
  · next bare tagged =>
    rw [postedKey_bare tagged]
    split at split_ok
    · cases split_ok
    · cases split_ok
      rfl

/-- A resolved party is a fingerprint and the posted key. -/
theorem resolveParty_isParty (core : S.keyLib = coreKeyLib R K masterKey) {who : String}
    {party : PartyXpub} {p : String × String} (resolved : resolveParty S who party = .ok p) :
    ∃ fp x, IsParty p fp x ∧ x.text = postedKey party := by
  obtain ⟨⟨fpText, keyText⟩, origin, resolved⟩ := bind_eq_ok resolved
  obtain ⟨fpShown, fingerprint, resolved⟩ := bind_eq_ok resolved
  obtain ⟨keyShown, key, resolved⟩ := bind_eq_ok resolved
  have posted := splitOrigin_ok origin
  have fingerprint := mapError_eq_ok fingerprint
  have key := mapError_eq_ok key
  rw [core] at fingerprint key
  obtain ⟨fp, -, rfl⟩ := map_eq_ok fingerprint
  obtain ⟨x, parsed, rfl⟩ := map_eq_ok key
  cases resolved
  refine ⟨fp, x, rfl, ?_⟩
  rw [R.parseXpub_text _ x parsed]
  have text := congrArg String.toList posted
  rw [String.toList_ofList] at text
  exact text

theorem valid_of_string {params : DescriptorParams} {text : Text}
    (built : buildDescriptorString params = .ok text) :
    validateLocks params.timelockBlocks none = .ok () := by
  obtain ⟨_, valid, -⟩ := bind_eq_ok built
  exact valid

theorem valid_of_guardianString {params : GuardianDescriptorParams} {text : Text}
    (built : buildGuardianDescriptorString params = .ok text) :
    validateLocks params.timelockBlocks params.unlockHeight = .ok () := by
  obtain ⟨_, valid, -⟩ := bind_eq_ok built
  exact valid

/-- The stored descriptors are those of a vault's keys. -/
structure BuiltFrom (v : VaultKeys) (network : Network) (timelockBlocks : Nat)
    (pair : String × String) : Prop where
  network_eq : v.network = network
  timelock_eq : v.timelockBlocks = timelockBlocks
  external : pair.1 = .ofList (v.woven v.publicKey .external)
  internal : pair.2 = .ofList (v.woven v.publicKey .internal)

/-- The keys of an accepted request and its descriptors, which are built from them. -/
theorem FromXpub.built_from (core : S.keyLib = coreKeyLib R K masterKey)
    {req : CreateVaultFromXpubRequest} (c : FromXpub S req) {fpOwner fpHeir : Fingerprint}
    {owner heir : Xpub} (isOwner : IsParty c.owner fpOwner owner)
    (isHeir : IsParty c.heir fpHeir heir) :
    ∃ v : VaultKeys, BuiltFrom v c.network req.timelockBlocks c.pair ∧ v.kind = .standard ∧
      v.xpub .owner = owner ∧ v.xpub .heir = heir := by
  have built := c.built
  rw [fragments_isParty core isOwner, fragments_isParty core isHeir, core] at built
  obtain ⟨e, i, external, internal, pair⟩ := parsedPair_ok built
  simp only [String.toList_ofList] at external internal
  -- the request was refused if the parties' keys were the same
  have distinct : owner ≠ heir := by
    have differ := c.differ
    rw [show c.owner = _ from isOwner, show c.heir = _ from isHeir] at differ
    rintro rfl
    exact differ rfl
  let v : VaultKeys :=
    { kind := .standard
      timelockBlocks := req.timelockBlocks
      unlockHeight := none
      valid := valid_of_string external
      standard := fun _ => rfl
      network := c.network
      fingerprint := fun who => if who = .owner then fpOwner else fpHeir
      xpub := fun who => if who = .owner then owner else heir
      distinct := by simpa [VaultKind.parties] using distinct }
  have ext := (v.render_eq v.publicKey .external).symm.trans external
  have int := (v.render_eq v.publicKey .internal).symm.trans internal
  refine ⟨v, ⟨rfl, rfl, ?_, ?_⟩, rfl, rfl, rfl⟩
  · rw [pair, Except.ok.inj ext]
  · rw [pair, Except.ok.inj int]

theorem WithGuardians.built_from (core : S.keyLib = coreKeyLib R K masterKey)
    {req : CreateGuardianVaultRequest} (c : WithGuardians S req) (fp : Party → Fingerprint)
    (x : Party → Xpub) (isOwner : IsParty c.parties.owner (fp .owner) (x .owner))
    (isHeir : IsParty c.parties.heir (fp .heir) (x .heir))
    (isGuardian1 : IsParty c.parties.guardian1 (fp .guardian1) (x .guardian1))
    (isGuardian2 : IsParty c.parties.guardian2 (fp .guardian2) (x .guardian2)) :
    ∃ v : VaultKeys, BuiltFrom v c.network req.timelockBlocks c.pair ∧ v.kind = .guardian ∧
      v.xpub = x := by
  have built := c.built
  rw [fragments_isParty core isOwner, fragments_isParty core isHeir,
    fragments_isParty core isGuardian1, fragments_isParty core isGuardian2, core] at built
  obtain ⟨e, i, external, internal, pair⟩ := parsedPair_ok built
  simp only [String.toList_ofList] at external internal
  -- the handler has compared the four keys by their texts
  have distinct : (VaultKind.guardian.parties.map x).Nodup := by
    have differ := c.differ
    rw [show c.parties.owner = _ from isOwner, show c.parties.heir = _ from isHeir,
      show c.parties.guardian1 = _ from isGuardian1,
      show c.parties.guardian2 = _ from isGuardian2] at differ
    exact List.Nodup.of_map (fun k : Xpub => String.ofList k.text) differ
  let v : VaultKeys :=
    { kind := .guardian
      timelockBlocks := req.timelockBlocks
      unlockHeight := req.unlockHeight
      valid := valid_of_guardianString external
      standard := fun eq => nomatch eq
      network := c.network
      fingerprint := fp
      xpub := x
      distinct := distinct }
  have ext := (v.render_eq v.publicKey .external).symm.trans external
  have int := (v.render_eq v.publicKey .internal).symm.trans internal
  refine ⟨v, ⟨rfl, rfl, ?_, ?_⟩, rfl, rfl⟩
  · rw [pair, Except.ok.inj ext]
  · rw [pair, Except.ok.inj int]

end Core

/-! ## §4 The stored row -/

/-- The sealed columns of a row, each with its nonce. -/
def VaultRow.sealedColumns (r : VaultRow) : List (Option String × Option String) :=
  [(r.contacts.owner.ciphertext, r.contacts.owner.nonce),
    (r.contacts.heir.ciphertext, r.contacts.heir.nonce),
    (r.contacts.trusted.ciphertext, r.contacts.trusted.nonce),
    (r.contacts.heirIntro.ciphertext, r.contacts.heirIntro.nonce),
    (r.keys.heirXprvCt, r.keys.heirXprvNonce),
    (r.keys.password.ownerXprvCt, r.keys.password.ownerXprvNonce),
    (r.keys.password.ownerTokenCt, r.keys.password.ownerTokenNonce)]

/-- A pair of descriptors, a network and a timelock agree, and a watch-only wallet builds
from the pair. -/
structure Coherent (S : Server) (networkName : String) (timelockBlocks : Nat)
    (external internal : String) (label : Option String) : Prop where
  locks : ∀ d ∈ [external, internal],
    "older(".toList ++ decimal timelockBlocks ++ [')'] <:+: d.toList
  keys : ∀ network, parseNetwork networkName = .ok network →
    ∀ d ∈ [external, internal], OfNetwork network d.toList
  chains : internal.toList = switchChain external.toList
  wallet : ∃ network w, parseNetwork networkName = .ok network ∧
    S.wallet.buildWatchOnly ⟨external, internal, timelockBlocks, network, .watchonly, label⟩ = .ok w

/-- A usable vault. -/
structure VaultRow.Usable (S : Server) (r : VaultRow) : Prop where
  coherent : Coherent S r.settings.network r.settings.timelockBlocks
    r.settings.descriptorExternal r.settings.descriptorInternal r.settings.label
  nonces : ∀ column ∈ r.sealedColumns, column.1.isSome = column.2.isSome

/-- BDK builds a wallet from a vault's descriptors when its keys are of the network. -/
def WatchesVaults (S : Server) : Prop :=
  ∀ (v : VaultKeys) (timelockBlocks : Nat) (role : VaultRole) (label : Option String),
    (∀ who ∈ v.kind.parties, (v.publicKey who).take 4 = versionOf v.network) →
      ∃ w, S.wallet.buildWatchOnly ⟨.ofList (v.woven v.publicKey .external),
        .ofList (v.woven v.publicKey .internal), timelockBlocks, v.network, role, label⟩ = .ok w

section Rows

variable {S : Server}

/-- Built descriptors are coherent exactly when the keys are of the network. -/
theorem BuiltFrom.coherent_iff (watches : WatchesVaults S) {v : VaultKeys} {networkName : String}
    {network : Network} {timelockBlocks : Nat} {pair : String × String}
    (label : Option String) (known : parseNetwork networkName = .ok network)
    (built : BuiltFrom v network timelockBlocks pair) :
    Coherent S networkName timelockBlocks pair.1 pair.2 label ↔
      ∀ who ∈ v.kind.parties, (v.publicKey who).take 4 = versionOf network := by
  obtain ⟨rfl, rfl, external, internal⟩ := built
  have text : ∀ chain, (String.ofList (v.woven v.publicKey chain)).toList =
      v.woven v.publicKey chain := fun chain => String.toList_ofList
  -- both texts are the same keys, woven for one chain or the other
  have pairText : ∀ d ∈ [pair.1, pair.2], ∃ chain, d.toList = v.woven v.publicKey chain := by
    intro d mem
    simp only [List.mem_cons, List.not_mem_nil, or_false, external, internal] at mem
    rcases mem with rfl | rfl <;> exact ⟨_, text _⟩
  constructor
  · intro coherent who named
    apply coherent.keys _ known pair.1 List.mem_cons_self
    rw [external, text, v.keysIn_woven]
    exact List.mem_map_of_mem named
  · intro versions
    constructor
    · intro d mem
      obtain ⟨chain, eq⟩ := pairText d mem
      rw [eq]
      exact v.older_woven chain
    · intro network' known' d mem key inside
      obtain rfl := Except.ok.inj (known.symm.trans known')
      obtain ⟨chain, eq⟩ := pairText d mem
      rw [eq, v.keysIn_woven] at inside
      obtain ⟨who, named, rfl⟩ := List.mem_map.1 inside
      exact versions who named
    · rw [external, internal, text, text, v.switchChain_woven]
    · obtain ⟨w, wallet⟩ := watches v v.timelockBlocks .watchonly label versions
      exact ⟨v.network, w, known, by rw [external, internal]; exact wallet⟩

theorem sealedContact_paired (sealed : Option (String × String)) (channel : Option String) :
    (sealedContact sealed channel).ciphertext.isSome = (sealedContact sealed channel).nonce.isSome := by
  cases sealed <;> rfl

theorem sealedText_paired (sealed : Option (String × String)) :
    (sealedText sealed).ciphertext.isSome = (sealedText sealed).nonce.isSome := by
  cases sealed <;> rfl

end Rows

/-! ## §5 The creation endpoints -/

/-- The posted key has the version bytes of the named network. -/
def OwnNetwork (networkName : String) (party : PartyXpub) : Prop :=
  ∀ network, parseNetwork networkName = .ok network → (postedKey party).take 4 = versionOf network

/-- The keys are of the vault's network, and the heir's sealed key comes with its nonce. -/
structure CreateVaultFromXpubRequest.Sound (req : CreateVaultFromXpubRequest) : Prop where
  owner : OwnNetwork req.network req.owner
  heir : req.heirDerivation = none → OwnNetwork req.network req.heir
  halves : ∀ s, req.sealed = some s → s.heirXprvCt.isSome = s.heirXprvNonce.isSome

/-- The four keys are of the vault's network. -/
structure CreateGuardianVaultRequest.Sound (req : CreateGuardianVaultRequest) : Prop where
  owner : OwnNetwork req.network req.owner
  heir : OwnNetwork req.network req.heir
  guardian1 : OwnNetwork req.network req.guardian1.key
  guardian2 : OwnNetwork req.network req.guardian2.key

theorem ownNetwork_iff {networkName : String} {network : Network} {party : PartyXpub}
    (known : parseNetwork networkName = .ok network) :
    OwnNetwork networkName party ↔ (postedKey party).take 4 = versionOf network := by
  constructor
  · intro own
    exact own network known
  · intro version network' known'
    obtain rfl := Except.ok.inj (known.symm.trans known')
    exact version

section Endpoints

variable {R : RustBitcoin} {K : KeyFunctions} {masterKey : Bytes} {S : Server}

/-- A derived key is of the network it is derived for. -/
theorem deriveHeirSeed_version (keeps : K.KeepsVersion) (email : String) (id : VaultId)
    (network : Network) :
    (deriveHeirSeed K masterKey email id network).text.take 4 = versionOf network := by
  unfold deriveHeirSeed accountOf
  rw [keeps.neuter, keeps.derivePriv, keeps.newMaster]
  cases network <;> decide

theorem FromDescriptors.row_usable_iff {req : CreateVaultRequest} (c : FromDescriptors S req) :
    c.row.Usable S ↔ Coherent S req.network req.timelockBlocks req.descriptorExternal
      req.descriptorInternal req.label := by
  constructor
  · intro usable
    exact usable.coherent
  · intro coherent
    refine ⟨coherent, ?_⟩
    simp [VaultRow.sealedColumns, row, newVault, SealedContact.none, SealedText.none,
      PasswordColumns.none]

/-- The heir's key, posted or derived. -/
theorem FromXpub.heir_isParty (core : S.keyLib = coreKeyLib R K masterKey)
    {req : CreateVaultFromXpubRequest} (c : FromXpub S req) :
    ∃ fp x, IsParty c.heir fp x ∧
      ((req.heirDerivation = none ∧ x.text = postedKey req.heir) ∨
        ∃ raw, req.heirDerivation = some raw ∧
          x = deriveHeirSeed K masterKey (trim raw) c.id c.network) := by
  have key := c.heir_key
  unfold HeirKey at key
  cases derived : req.heirDerivation with
  | none =>
    rw [derived] at key
    obtain ⟨fp, x, isParty, posted⟩ := resolveParty_isParty core key
    exact ⟨fp, x, isParty, .inl ⟨rfl, posted⟩⟩
  | some raw =>
    rw [derived, core] at key
    obtain ⟨-, fingerprint, key⟩ := key
    refine ⟨⟨0, 0, 0, 0⟩, _, ?_, .inr ⟨raw, rfl, rfl⟩⟩
    have zero : String.ofList (Fingerprint.display ⟨0, 0, 0, 0⟩) = "00000000" := by decide
    exact Prod.ext (fingerprint.trans zero.symm) (Except.ok.inj key).symm

theorem FromXpub.row_usable_iff (core : S.keyLib = coreKeyLib R K masterKey) (keeps : K.KeepsVersion)
    (watches : WatchesVaults S) {req : CreateVaultFromXpubRequest} (c : FromXpub S req) :
    (FromXpub.row S c).Usable S ↔ req.Sound := by
  obtain ⟨fpOwner, owner, isOwner, ownerText⟩ := resolveParty_isParty core c.owner_key
  obtain ⟨fpHeir, heir, isHeir, source⟩ := c.heir_isParty core
  obtain ⟨v, built, kind, ownerEq, heirEq⟩ := c.built_from core isOwner isHeir
  have coherent := built.coherent_iff watches req.label c.known
  -- what the request posted decides the keys' versions and the pairs of columns
  have keys : (∀ who ∈ v.kind.parties, (v.publicKey who).take 4 = versionOf c.network) ↔
      OwnNetwork req.network req.owner ∧
        (req.heirDerivation = none → OwnNetwork req.network req.heir) := by
    rw [kind, ownNetwork_iff c.known, ownNetwork_iff c.known, ← ownerText, ← ownerEq]
    simp only [VaultKind.parties, List.mem_cons, List.not_mem_nil, or_false, forall_eq_or_imp,
      forall_eq, VaultKeys.publicKey, heirEq]
    apply and_congr_right
    intro _
    rcases source with ⟨none, posted⟩ | ⟨raw, some_, rfl⟩
    · simp [none, posted]
    · simp [some_, deriveHeirSeed_version keeps]
  have nonces : (∀ column ∈ (FromXpub.row S c).sealedColumns, column.1.isSome = column.2.isSome) ↔
      ∀ s, req.sealed = some s → s.heirXprvCt.isSome = s.heirXprvNonce.isSome := by
    cases sealed : req.sealed with
    | none =>
      simp [VaultRow.sealedColumns, FromXpub.row, newVault, sealedContact_paired,
        sealedText_paired, sealed, passwordColumns, PasswordColumns.none]
    | some s =>
      simp [VaultRow.sealedColumns, FromXpub.row, newVault, sealedContact_paired,
        sealedText_paired, sealed, passwordColumns]
  constructor
  · intro usable
    have own := keys.1 (coherent.1 usable.coherent)
    exact ⟨own.1, own.2, nonces.1 usable.nonces⟩
  · intro sound
    exact ⟨coherent.2 (keys.2 ⟨sound.owner, sound.heir⟩), nonces.2 sound.halves⟩

/-- A value for each party. -/
def byParty {α : Type} (owner heir guardian1 guardian2 : α) : Party → α
  | .owner => owner
  | .heir => heir
  | .guardian1 => guardian1
  | .guardian2 => guardian2

theorem WithGuardians.row_usable_iff (core : S.keyLib = coreKeyLib R K masterKey)
    (watches : WatchesVaults S) {req : CreateGuardianVaultRequest} (c : WithGuardians S req) :
    (WithGuardians.row S c).Usable S ↔ req.Sound := by
  obtain ⟨fpOwner, owner, isOwner, ownerText⟩ := resolveParty_isParty core c.owner_key
  obtain ⟨fpHeir, heir, isHeir, heirText⟩ := resolveParty_isParty core c.heir_key
  obtain ⟨fp1, guardian1, is1, text1⟩ := resolveParty_isParty core c.guardian1_key
  obtain ⟨fp2, guardian2, is2, text2⟩ := resolveParty_isParty core c.guardian2_key
  obtain ⟨v, built, kind, xpubs⟩ := c.built_from core
    (byParty fpOwner fpHeir fp1 fp2) (byParty owner heir guardian1 guardian2)
    isOwner isHeir is1 is2
  have coherent := built.coherent_iff watches req.label c.known
  -- the four keys carry the version of the network
  have keys : (∀ who ∈ v.kind.parties, (v.publicKey who).take 4 = versionOf c.network) ↔
      req.Sound := by
    have sound : req.Sound ↔ OwnNetwork req.network req.owner ∧ OwnNetwork req.network req.heir ∧
        OwnNetwork req.network req.guardian1.key ∧ OwnNetwork req.network req.guardian2.key :=
      ⟨fun s => ⟨s.owner, s.heir, s.guardian1, s.guardian2⟩, fun s => ⟨s.1, s.2.1, s.2.2.1, s.2.2.2⟩⟩
    rw [sound, kind, ownNetwork_iff c.known, ownNetwork_iff c.known, ownNetwork_iff c.known,
      ownNetwork_iff c.known, ← ownerText, ← heirText, ← text1, ← text2]
    simp only [VaultKind.parties, List.mem_cons, List.not_mem_nil, or_false, forall_eq_or_imp,
      forall_eq, VaultKeys.publicKey, xpubs, byParty]
  have nonces : ∀ column ∈ (WithGuardians.row S c).sealedColumns,
      column.1.isSome = column.2.isSome := by
    simp [VaultRow.sealedColumns, WithGuardians.row, newVault, sealedContact_paired,
      sealedText_paired, passwordColumns, SealedContact.none]
  constructor
  · intro usable
    exact keys.1 (coherent.1 usable.coherent)
  · intro sound
    exact ⟨coherent.2 (keys.2 sound), nonces⟩

/-- What is stored from descriptors is usable when they are; from keys, when the posted ones
are of the vault's network and no half of the heir's sealed key is missing; with guardians,
when the posted keys are of the network. -/
theorem usable_iff (core : S.keyLib = coreKeyLib R K masterKey) (keeps : K.KeepsVersion)
    (watches : WatchesVaults S) :
    (∀ req, Stores (fun r => r.Usable S ↔ Coherent S req.network req.timelockBlocks
        req.descriptorExternal req.descriptorInternal req.label)
      (fun _ => True) (createVault S req)) ∧
    (∀ req : CreateVaultFromXpubRequest, Stores (fun r => r.Usable S ↔ req.Sound) (fun _ => True)
      (createVaultFromXpub S req)) ∧
    ∀ req : CreateGuardianVaultRequest, Stores (fun r => r.Usable S ↔ req.Sound) (fun _ => True)
      (createVaultGuardian S req) := by
  refine ⟨fun req => ?_, fun req => ?_, fun req => ?_⟩
  · apply (stores_createVault S req).weaken
    intro r ⟨c, stored⟩
    rw [stored]
    exact c.row_usable_iff
  · apply (stores_createVaultFromXpub S req).weaken
    intro r ⟨c, stored⟩
    rw [stored]
    exact c.row_usable_iff core keeps watches
  · apply (stores_createVaultGuardian S req).weaken
    intro r ⟨c, stored⟩
    rw [stored]
    exact c.row_usable_iff core watches

end Endpoints

section Mismatched

open Deployment

/-- A base58 text of the right length and version. -/
def readXpub (s : String) : Except String Xpub :=
  if valid : s.toList.length = 111 ∧ (s.toList.all fun c => c ∈ base58Alphabet) = true ∧
      s.toList.take 4 ∈ ["xpub".toList, "tpub".toList] then
    .ok ⟨s.toList, valid.1, fun c mem => of_decide_eq_true (List.all_eq_true.1 valid.2.1 c mem),
      valid.2.2⟩
  else .error "base58"

def textLib : RustBitcoin where
  parseFingerprint s := (Fingerprint.parse s.toList).elim (.error "hex") .ok
  parseXpub := readXpub
  parseDescriptor _ := .ok ()
  parseXpub_text s x parsed := by
    unfold readXpub at parsed
    split at parsed
    · cases parsed
      rfl
    · cases parsed

def testXpub : Xpub where
  text := "tpub".toList ++ List.replicate 107 '1'
  isKeyText := isKeyText_letter (by simp) (by decide) (Text.forall_mem_of_all (by decide)) (by decide)

def testXpriv : Xpriv where
  text := "tprv".toList ++ List.replicate 107 '1'
  isKeyText := isKeyText_letter (by simp) (by decide) (Text.forall_mem_of_all (by decide)) (by decide)

/-- Key functions that keep nothing but the version bytes. -/
def versionKeys : KeyFunctions where
  hkdf _ _ _ length := List.replicate length 0
  mnemonic _ := ""
  toSeed _ := []
  newMaster main _ := if main then plainXpriv '1' one_base58 else testXpriv
  derivePriv key _ := key
  neuter key := if key.text.take 4 = "xprv".toList then plainXpub '1' one_base58 else testXpub
  length_hkdf _ _ _ _ := List.length_replicate

theorem keepsVersion_versionKeys : versionKeys.KeepsVersion where
  newMaster main _ := by
    cases main
    · show testXpriv.text.take 4 = "tprv".toList
      decide
    · show (plainXpriv '1' (by decide)).text.take 4 = "xprv".toList
      decide
  derivePriv _ _ := rfl
  neuter key := by
    show (if key.text.take 4 = "xprv".toList then plainXpub '1' (by decide) else testXpub).text.take
      4 = _
    split <;> decide

/-- The deployment over this library. -/
def coreHost : Server := { host 86400 with keyLib := coreKeyLib textLib versionKeys [] }

theorem watchesVaults_coreHost : WatchesVaults coreHost := fun _ _ _ _ _ => ⟨_, rfl⟩

/-- The first two keys of the first BIP32 test vector, on the main network. -/
def mainVault : CreateVaultFromXpubRequest :=
  { doorA with
    owner := ⟨"[3442193e/86'/0'/0']" ++
      "xpub661MyMwAqRbcFtXgS5sYJABqqG9YLmC4Q1Rdap9gSE8NqtwybGhePY2gZ29ESFjqJoCu1" ++
        "Rupje8YtGqsefD265TMg7usUDFdp6W1EGMcet8", none⟩
    heir := ⟨"xpub68Gmy5EdvgibQVfPdqkBBCHxA5htiqg55crXYuXoQRKfDBFA1WEjWgP6LHhwBZeNK1VTs" ++
      "fTFUHCdrfp1bgwQ9xv5ski8PX9rL2dZXvgGDnw", some "5c1bd648"⟩ }

theorem usable_iff_main :
    Stores (VaultRow.Usable coreHost) (fun _ => True) (createVaultFromXpub coreHost mainVault) := by
  have stores := (usable_iff (S := coreHost) rfl keepsVersion_versionKeys
    watchesVaults_coreHost).2.1 mainVault
  apply stores.weaken
  intro r usable
  apply usable.2
  constructor
  · exact (ownNetwork_iff rfl).2 (by decide +kernel)
  · intro _
    exact (ownNetwork_iff rfl).2 (by decide +kernel)
  · intro s given
    cases given
    rfl

/-- Two descriptors without an heir. -/
def heirless : CreateVaultRequest :=
  ⟨none, "bitcoin", .ofList ("tr(".toList ++ unspendableNumsXonly ++ [')']),
    .ofList ("tr(".toList ++ unspendableNumsXonly ++ [')']), 144, 3600, 60, none⟩

/-- They are accepted and inserted. -/
theorem inserted_heirless (good : VaultRow → Prop)
    (stores : Stores good (fun _ => True) (createVault coreHost heirless)) :
    ∃ r, good r ∧ r.settings.timelockBlocks = 144 ∧
      r.settings.descriptorExternal = heirless.descriptorExternal := by
  have accepts : ∃ (r : VaultId → Instant → Token → VaultRow)
      (next : VaultId → Instant → Token → Except DbError Nat → Prog CreatedVault),
      createVault coreHost heirless =
        .act (.ask .uuid) (fun id => .act .now fun t => .act (.ask .bearerToken) fun token =>
          .act (.exec (.insertVault (r id t token))) (next id t token)) ∧
      ∀ id t token, (r id t token).settings.timelockBlocks = 144 ∧
        (r id t token).settings.descriptorExternal = heirless.descriptorExternal :=
    ⟨_, _, rfl, fun _ _ _ => ⟨rfl, rfl⟩⟩
  obtain ⟨r, next, program, settings⟩ := accepts
  have does := stores.does
  rw [program] at does
  have inserted := ((does.2 "v").2 (0 : Int)).2 "token"
  exact ⟨r "v" 0 "token", inserted.1 _ rfl, settings _ _ _⟩

/-- Descriptors without a timelock are stored with one beside them. -/
theorem not_usable : ¬ ∀ (S : Server) (R : RustBitcoin) (K : KeyFunctions) (masterKey : Bytes),
    S.keyLib = coreKeyLib R K masterKey → K.KeepsVersion → WatchesVaults S →
      (∀ req, Stores (VaultRow.Usable S) (fun _ => True) (createVault S req)) ∧
      (∀ req, Stores (VaultRow.Usable S) (fun _ => True) (createVaultFromXpub S req)) ∧
      ∀ req, Stores (VaultRow.Usable S) (fun _ => True) (createVaultGuardian S req) := by
  intro agree
  have stores := (agree coreHost textLib versionKeys [] rfl keepsVersion_versionKeys
    watchesVaults_coreHost).1 heirless
  obtain ⟨r, usable, blocks, external⟩ := inserted_heirless _ stores
  have lock := usable.coherent.locks r.settings.descriptorExternal List.mem_cons_self
  rw [blocks, external] at lock
  exact absurd lock (by decide +kernel)

end Mismatched

end GhostKey

import GhostKey.Descriptor
import GhostKey.Foundation.MiniscriptText
import GhostKey.Foundation.Program

/-!
# Who Can Spend from a Vault

The builders write a descriptor by formatting keys and locks into a string. What the string
means is what a wallet reads in it: the leaf of a `tr` descriptor, a miniscript, and of that
the script and its witnesses.

Main results:
- `build_text`, `build_guardian_text`: the string is the text of its leaf.
- `leaf_typed`, `guardianLeaf_typed`: the leaf has the type of a top-level miniscript.
- `spends_as_intended`: which signatures, ages and heights satisfy it, and that the owner's
  key is found in it.
-/

namespace GhostKey

namespace Spending

open Foundation Fragment

/-! ## §1 Key fragments -/

/-- `bip32::ChildNumber`. -/
structure ChildNumber where
  index : Nat
  hardened : Bool

def ChildNumber.display (c : ChildNumber) : Text :=
  decimal c.index ++ (if c.hardened then ['\''] else [])

/-- `impl Display for DerivationPath`. -/
def displayPath : List ChildNumber → Text
  | [] => []
  | [c] => c.display
  | c :: d :: path => c.display ++ '/' :: displayPath (d :: path)

/-- The arguments of `descriptor_key_fragment`. -/
structure KeyFragment where
  fingerprint : Fingerprint
  path : List ChildNumber
  xpub : Xpub
  chain : Chain

def KeyFragment.text (k : KeyFragment) : Text :=
  descriptorKeyFragment k.fingerprint (displayPath k.path) k.xpub k.chain

/-- What stands in a displayed path. -/
def pathChar (c : Char) : Bool := c.isDigit || c = '\'' || c = '/'

theorem pathChar_of_mem_display {c : ChildNumber} {x : Char} (mem : x ∈ c.display) :
    pathChar x = true := by
  rcases List.mem_append.1 mem with digit | mark
  · have isDigit : x.isDigit = true := Nat.isDigit_of_mem_toDigits (by decide) (by decide) digit
    simp [pathChar, isDigit]
  · split at mark
    · rw [List.mem_singleton] at mark
      simp [pathChar, mark]
    · cases mark

theorem pathChar_of_mem_displayPath {path : List ChildNumber} {x : Char}
    (mem : x ∈ displayPath path) : pathChar x = true := by
  fun_induction displayPath path with
  | case1 => cases mem
  | case2 c => exact pathChar_of_mem_display mem
  | case3 c d path ih =>
    rcases List.mem_append.1 mem with here | later
    · exact pathChar_of_mem_display here
    · rcases List.mem_cons.1 later with rfl | rest
      · rfl
      · exact ih rest

/-- The origin of a fragment, as an opening bracket, letters without a closing one, and that. -/
theorem KeyFragment.text_eq (k : KeyFragment) :
    k.text = '[' :: (k.fingerprint.display ++ '/' ::
      stripPrefix "m/".toList (displayPath k.path)) ++ ']' ::
        (k.xpub.text ++ '/' :: [k.chain.index, '/', '*']) := by
  simp [KeyFragment.text, descriptorKeyFragment, fragmentAround, originTag]

theorem mem_of_mem_stripPrefix {pre s : Text} {c : Char} (mem : c ∈ stripPrefix pre s) : c ∈ s := by
  unfold stripPrefix at mem
  split at mem
  · exact List.mem_of_mem_drop mem
  · exact mem

theorem keyChar_base58 : ∀ c ∈ base58Alphabet, keyChar c = true :=
  Text.forall_mem_of_all (by decide)

theorem keyChar_hex : ∀ c ∈ "0123456789abcdef".toList, keyChar c = true :=
  Text.forall_mem_of_all (by decide)

theorem not_pathChar_delimiter : ∀ c ∈ "(){},".toList, pathChar c = false :=
  Text.forall_mem_of_all (by decide)

theorem keyChar_of_pathChar {c : Char} (path : pathChar c = true) : keyChar c = true := by
  refine decide_eq_true fun delimiter => ?_
  rw [not_pathChar_delimiter c delimiter] at path
  cases path

/-- A text that the notation takes for one key. -/
structure IsKeyExpr (key : Text) : Prop where
  nonempty : key ≠ []
  inside : ∀ c ∈ key, keyChar c = true

theorem KeyFragment.isKeyExpr (k : KeyFragment) : IsKeyExpr k.text := by
  refine ⟨by simp [k.text_eq], fun c mem => ?_⟩
  have index : keyChar k.chain.index = true := by cases k.chain <;> decide
  rw [k.text_eq] at mem
  simp only [List.mem_append, List.mem_cons, List.not_mem_nil, or_false] at mem
  rcases mem with (rfl | hex | rfl | path) | rfl | key | rfl | rfl | rfl | rfl
  · decide
  · exact keyChar_hex c (Fingerprint.hex_of_mem_display hex)
  · decide
  · exact keyChar_of_pathChar (pathChar_of_mem_displayPath (mem_of_mem_stripPrefix path))
  · decide
  · exact keyChar_base58 c (k.xpub.isKeyText.base58 c key)
  · decide
  · exact index
  · decide
  · decide

/-! ## §2 The leaves -/

/-- The leaf of `build_descriptor_string`. -/
def leaf (params : DescriptorParams) : Fragment Text :=
  .orD (.pk params.ownerKey)
    (.andV (.verify (.pk params.heirKey)) (.older params.timelockBlocks))

/-- The guardians' keys, behind the absolute lock if there is one. -/
def guardianGate (params : GuardianDescriptorParams) : Fragment Text :=
  let guardianOr := Fragment.orB (.pk params.guardian1Key) (.swap (.pk params.guardian2Key))
  match params.unlockHeight with
  | none => guardianOr
  | some h => .andV (.verify (.after h)) guardianOr

/-- The leaf of `build_guardian_descriptor_string`. -/
def guardianLeaf (params : GuardianDescriptorParams) : Fragment Text :=
  .orD (.pk params.ownerKey) (.andV (.verify (.pk params.heirKey))
    (.andV (.verify (.older params.timelockBlocks)) (guardianGate params)))

section Built

variable {s : Text}

theorem validateLocks_ok {n : Nat} {lock : Option Nat} (valid : validateLocks n lock = .ok ()) :
    0 < n ∧ n ≤ maxCsvBlocks ∧ ∀ h ∈ lock, 0 < h ∧ h < maxCltvHeight := by
  unfold validateLocks at valid
  split at valid
  · cases valid
  · next blocks =>
    refine ⟨by omega, by omega, ?_⟩
    rintro h mem
    obtain rfl := Option.mem_def.1 mem
    dsimp only at valid
    split at valid
    · cases valid
    · omega

/-- The builder writes the text of its leaf. -/
theorem build_text {params : DescriptorParams} (built : buildDescriptorString params = .ok s) :
    params.validate = .ok () ∧
      s = written "tr" (unspendableNumsXonly ++ ',' :: (leaf params).text) := by
  obtain ⟨⟨⟩, valid, done⟩ := bind_eq_ok built
  refine ⟨valid, ?_⟩
  rw [← Except.ok.inj done]
  simp [leaf, text, written, decimal]

theorem build_guardian_text {params : GuardianDescriptorParams}
    (built : buildGuardianDescriptorString params = .ok s) :
    params.validate = .ok () ∧
      s = written "tr" (unspendableNumsXonly ++ ',' :: (guardianLeaf params).text) := by
  obtain ⟨⟨⟩, valid, done⟩ := bind_eq_ok built
  refine ⟨valid, ?_⟩
  rw [← Except.ok.inj done]
  cases unlock : params.unlockHeight with
  | none => simp [guardianLeaf, guardianGate, unlock, text, written, decimal]
  | some h => simp [guardianLeaf, guardianGate, unlock, text, written, decimal]

theorem leaf_typed {params : DescriptorParams} (valid : params.validate = .ok ()) :
    HasType (leaf params) ⟨.B, .any, false, false⟩ := by
  obtain ⟨pos, small, -⟩ := validateLocks_ok valid
  have blocks : params.timelockBlocks < 2 ^ 31 := Nat.lt_of_le_of_lt small (by decide)
  exact .orD (.pk _) (.andV (.verify (.pk _)) (.older pos blocks))

theorem guardianGate_typed {params : GuardianDescriptorParams}
    (heights : ∀ h ∈ params.unlockHeight, 0 < h ∧ h < maxCltvHeight) :
    HasType (guardianGate params) ⟨.B, .any, true, params.unlockHeight.isNone⟩ := by
  have guardians : HasType (.orB (.pk params.guardian1Key) (.swap (.pk params.guardian2Key)))
      ⟨.B, .any, true, true⟩ := .orB (.pk _) (.swap (.pk _))
  unfold guardianGate
  cases unlock : params.unlockHeight with
  | none => exact guardians
  | some h =>
    obtain ⟨pos, small⟩ := heights h unlock
    exact .andV (.verify (.after pos (Nat.lt_trans small (by decide)))) guardians

theorem guardianLeaf_typed {params : GuardianDescriptorParams} (valid : params.validate = .ok ()) :
    HasType (guardianLeaf params) ⟨.B, .any, true, false⟩ := by
  obtain ⟨pos, small, heights⟩ := validateLocks_ok valid
  have blocks : params.timelockBlocks < 2 ^ 31 := Nat.lt_of_le_of_lt small (by decide)
  exact .orD (.pk _) (.andV (.verify (.pk _))
    (.andV (.verify (.older pos blocks)) (guardianGate_typed heights)))

end Built

/-! ## §3 Spending -/

/-- The spender has a signature under this key, where `signed` says which texts are one. -/
def Signs (signed : Text → Bytes → Bool) (key : Text) : Prop :=
  ∃ sig, sig ≠ [] ∧ signed key sig = true

theorem signs_iff {tx : SignedInput Text} {key : Text} : tx.Signs key ↔ Signs tx.signed key := Iff.rfl

/-- The leaf that is read in the descriptor has a witness, in some transaction that is final
with an input of this age at this lock height. -/
def Spendable (descriptor : Text) (signed : Text → Bytes → Bool) (age height : Nat) : Prop :=
  ∃ key leaf tx witness, readTr descriptor = some (key, leaf) ∧ tx.signed = signed ∧
    tx.Final age height ∧ leaf.script.Accepts tx witness

/-- Of a typed leaf, what is spendable is what the leaf asks. -/
theorem spendable_text {leaf : Fragment Text} {i : Input} {u d : Bool}
    (typed : HasType leaf ⟨.B, i, u, d⟩) (plain : leaf.Plain) {signed : Text → Bytes → Bool}
    {age height : Nat} :
    Spendable (written "tr" (unspendableNumsXonly ++ ',' :: leaf.text)) signed age height ↔
      ∃ tx : SignedInput Text, tx.signed = signed ∧ tx.Final age height ∧ leaf.Holds tx := by
  have nums : ∀ c ∈ unspendableNumsXonly, keyChar c = true := Text.forall_mem_of_all (by decide)
  have read := readTr_text nums plain
  constructor
  · rintro ⟨key, leaf', tx, witness, found, same, final, accepts⟩
    rw [read] at found
    cases found
    exact ⟨tx, same, final, (typed.accepts_iff tx).1 ⟨witness, accepts⟩⟩
  · rintro ⟨tx, same, final, holds⟩
    obtain ⟨witness, accepts⟩ := (typed.accepts_iff tx).2 holds
    exact ⟨unspendableNumsXonly, leaf, tx, witness, read, same, final, accepts⟩

/-- An owner's branch beside one with locks. -/
theorem exists_branches_iff (signed : Text → Bytes → Bool) (age height : Nat) {n : Nat}
    {l : Option Nat} (blocks : n ≤ maxCsvBlocks)
    (heights : ∀ h ∈ l, 0 < h ∧ h < maxCltvHeight) (owner claim : Prop) :
    (∃ tx : SignedInput Text, tx.signed = signed ∧ tx.Final age height ∧
      (owner ∨ claim ∧ tx.OlderMet n ∧ ∀ h ∈ l, tx.AfterMet h)) ↔
        owner ∨ claim ∧ n ≤ age ∧ ∀ h ∈ l, h ≤ height := by
  have small : n < 2 ^ 16 := Nat.lt_of_le_of_lt blocks (by decide)
  have locks := SignedInput.exists_final_iff signed age height small fun h mem => (heights h mem).2
  constructor
  · rintro ⟨tx, same, final, here | ⟨here, met⟩⟩
    · exact .inl here
    · exact .inr ⟨here, locks.1 ⟨tx, same, final, met⟩⟩
  · rintro (here | ⟨here, run_out⟩)
    · obtain ⟨tx, same, final⟩ := SignedInput.exists_final signed age height
      exact ⟨tx, same, final, .inl here⟩
    · obtain ⟨tx, same, final, met⟩ := locks.2 run_out
      exact ⟨tx, same, final, .inr ⟨here, met⟩⟩

/-- The keys of a standard vault are keys to the notation. -/
structure StandardKeys (params : DescriptorParams) : Prop where
  owner : IsKeyExpr params.ownerKey
  heir : IsKeyExpr params.heirKey

structure GuardianKeys (params : GuardianDescriptorParams) : Prop where
  owner : IsKeyExpr params.ownerKey
  heir : IsKeyExpr params.heirKey
  guardian1 : IsKeyExpr params.guardian1Key
  guardian2 : IsKeyExpr params.guardian2Key

theorem spendable_standard {params : DescriptorParams} {s : Text} (keys : StandardKeys params)
    (built : buildDescriptorString params = .ok s) (signed : Text → Bytes → Bool)
    (age height : Nat) :
    Spendable s signed age height ↔ Signs signed params.ownerKey ∨
      Signs signed params.heirKey ∧ params.timelockBlocks ≤ age := by
  obtain ⟨valid, rfl⟩ := build_text built
  obtain ⟨-, blocks, -⟩ := validateLocks_ok valid
  have plain : (leaf params).Plain :=
    ⟨⟨keys.owner.nonempty, keys.owner.inside⟩, ⟨keys.heir.nonempty, keys.heir.inside⟩,
      Nat.lt_of_le_of_lt blocks (by decide)⟩
  rw [spendable_text (leaf_typed valid) plain]
  have branches := exists_branches_iff signed age height blocks (l := none) (by simp)
    (Signs signed params.ownerKey) (Signs signed params.heirKey)
  simp only [Option.not_mem_none, false_imp_iff, implies_true, and_true] at branches
  rw [← branches]
  constructor
  · rintro ⟨tx, rfl, final, holds⟩
    exact ⟨tx, rfl, final, holds⟩
  · rintro ⟨tx, rfl, final, holds⟩
    exact ⟨tx, rfl, final, holds⟩

theorem spendable_guardian {params : GuardianDescriptorParams} {s : Text}
    (keys : GuardianKeys params) (built : buildGuardianDescriptorString params = .ok s)
    (signed : Text → Bytes → Bool) (age height : Nat) :
    Spendable s signed age height ↔ Signs signed params.ownerKey ∨
      (Signs signed params.heirKey ∧
        (Signs signed params.guardian1Key ∨ Signs signed params.guardian2Key)) ∧
          params.timelockBlocks ≤ age ∧ ∀ h ∈ params.unlockHeight, h ≤ height := by
  obtain ⟨valid, rfl⟩ := build_guardian_text built
  obtain ⟨-, blocks, heights⟩ := validateLocks_ok valid
  have guardians : (Fragment.orB (.pk params.guardian1Key)
      (.swap (.pk params.guardian2Key))).Plain :=
    ⟨⟨keys.guardian1.nonempty, keys.guardian1.inside⟩,
      ⟨keys.guardian2.nonempty, keys.guardian2.inside⟩⟩
  have gate : (guardianGate params).Plain := by
    unfold guardianGate
    cases unlock : params.unlockHeight with
    | none => exact guardians
    | some h => exact ⟨Nat.lt_trans (heights h unlock).2 (by decide), guardians⟩
  have plain : (guardianLeaf params).Plain :=
    ⟨⟨keys.owner.nonempty, keys.owner.inside⟩, ⟨keys.heir.nonempty, keys.heir.inside⟩,
      Nat.lt_of_le_of_lt blocks (by decide), gate⟩
  rw [spendable_text (guardianLeaf_typed valid) plain,
    ← exists_branches_iff signed age height blocks heights]
  -- the conjunctions of the leaf, in the order of the claim
  have asks : ∀ tx : SignedInput Text, tx.signed = signed →
      ((guardianLeaf params).Holds tx ↔ Signs signed params.ownerKey ∨
        (Signs signed params.heirKey ∧
          (Signs signed params.guardian1Key ∨ Signs signed params.guardian2Key)) ∧
            tx.OlderMet params.timelockBlocks ∧ ∀ h ∈ params.unlockHeight, tx.AfterMet h) := by
    rintro tx rfl
    unfold guardianLeaf guardianGate
    cases params.unlockHeight with
    | none =>
      simp only [Holds, signs_iff, Option.not_mem_none, false_imp_iff, implies_true, and_true]
      tauto
    | some h =>
      simp only [Holds, signs_iff, Option.mem_some_iff, forall_eq']
      tauto
  constructor
  · rintro ⟨tx, same, final, holds⟩
    exact ⟨tx, same, final, (asks tx same).1 holds⟩
  · rintro ⟨tx, same, final, holds⟩
    exact ⟨tx, same, final, (asks tx same).2 holds⟩

/-! ## §4 The owner's key -/

/-- `owner_xpub_from_descriptor`: from behind the origin of the first `pk` to the next `/`. -/
def ownerXpubFromDescriptor (desc : Text) : Option Text := do
  let pk ← Text.find "pk(".toList desc
  let after := desc.drop (pk + 3)
  let rest ← match after with
    | '[' :: stripped => do
      let close ← Text.find [']'] stripped
      some (stripped.drop (close + 1))
    | _ => some after
  let stop ← Text.find ['/'] rest
  let xpub := rest.take stop
  if xpub = [] then none else some xpub

/-- A letter is found where it first stands. -/
theorem find_letter {c : Char} {a : Text} (absent : c ∉ a) (rest : Text) :
    Text.find [c] (a ++ c :: rest) = some a.length :=
  Text.find_of_clear (Text.clear_of_head absent _)

theorem KeyFragment.closed (k : KeyFragment) :
    ']' ∉ k.fingerprint.display ++ '/' :: stripPrefix "m/".toList (displayPath k.path) := by
  intro mem
  rcases List.mem_append.1 mem with hex | path
  · exact k.fingerprint.lacks (by simp [separators]) hex
  · rcases List.mem_cons.1 path with slash | inside
    · cases slash
    · have plain := pathChar_of_mem_displayPath (mem_of_mem_stripPrefix inside)
      revert plain
      decide

/-- The owner's key is found behind any text without the letter `p`. -/
theorem ownerXpub_of_text {front : Text} (absent : 'p' ∉ front) (owner : KeyFragment)
    (rest : Text) :
    ownerXpubFromDescriptor (front ++ ("pk(".toList ++ (owner.text ++ rest))) =
      some owner.xpub.text := by
  have found : Text.find "pk(".toList (front ++ ("pk(".toList ++ (owner.text ++ rest))) =
      some front.length :=
    Text.find_of_clear (Text.clear_of_head absent _)
  have behind : (front ++ ("pk(".toList ++ (owner.text ++ rest))).drop (front.length + 3) =
      owner.text ++ rest := by
    rw [← List.drop_drop, List.drop_left]
    rfl
  have slash : '/' ∉ owner.xpub.text := owner.xpub.isKeyText.lacks (by simp [separators])
  have nonempty : owner.xpub.text ≠ [] := by
    intro empty
    have length := owner.xpub.isKeyText.length_eq
    rw [empty] at length
    cases length
  -- the key stands between the bracket of its origin and the next slash
  obtain ⟨origin, closed, split⟩ : ∃ origin, ']' ∉ origin ∧ owner.text ++ rest =
      '[' :: (origin ++ ']' :: (owner.xpub.text ++ '/' ::
        (owner.chain.index :: '/' :: '*' :: rest))) :=
    ⟨_, owner.closed, by simp [KeyFragment.text_eq]⟩
  rw [ownerXpubFromDescriptor, found]
  simp only [Option.bind_eq_bind, Option.bind_some]
  rw [behind, split]
  simp only [find_letter closed]
  simp only [Option.bind_some]
  rw [← List.drop_drop, List.drop_left, List.drop_succ_cons, List.drop_zero, find_letter slash]
  simp [nonempty]

theorem front_lacks_p : 'p' ∉ "tr(".toList ++ unspendableNumsXonly ++ ",or_d(".toList := by decide

/-- In both descriptors the owner's key comes first. -/
theorem ownerXpub_of_orD (owner : KeyFragment) (m : Fragment Text) :
    ownerXpubFromDescriptor (written "tr" (unspendableNumsXonly ++ ',' ::
      (Fragment.orD (.pk owner.text) m).text)) = some owner.xpub.text := by
  have split : written "tr" (unspendableNumsXonly ++ ',' ::
      (Fragment.orD (.pk owner.text) m).text) =
      ("tr(".toList ++ unspendableNumsXonly ++ ",or_d(".toList) ++ ("pk(".toList ++
        (owner.text ++ (')' :: ',' :: (m.text ++ "))".toList)))) := by
    simp [text, written]
  rw [split, ownerXpub_of_text front_lacks_p]

theorem ownerXpub_of_build {params : DescriptorParams} {owner : KeyFragment} {s : Text}
    (key : params.ownerKey = owner.text) (built : buildDescriptorString params = .ok s) :
    ownerXpubFromDescriptor s = some owner.xpub.text := by
  obtain ⟨-, rfl⟩ := build_text built
  rw [leaf, key]
  exact ownerXpub_of_orD owner _

theorem ownerXpub_of_build_guardian {params : GuardianDescriptorParams} {owner : KeyFragment}
    {s : Text} (key : params.ownerKey = owner.text)
    (built : buildGuardianDescriptorString params = .ok s) :
    ownerXpubFromDescriptor s = some owner.xpub.text := by
  obtain ⟨-, rfl⟩ := build_guardian_text built
  rw [guardianLeaf, key]
  exact ownerXpub_of_orD owner _

/-! ## §5 What a descriptor means -/

/-- A standard vault's descriptor. -/
structure MeansStandard (params : DescriptorParams) (s : Text) : Prop where
  spends : ∀ signed age height, Spendable s signed age height ↔ Signs signed params.ownerKey ∨
    Signs signed params.heirKey ∧ params.timelockBlocks ≤ age
  owner : ∀ owner : KeyFragment, params.ownerKey = owner.text →
    ownerXpubFromDescriptor s = some owner.xpub.text

/-- A guardian vault's descriptor. -/
structure MeansGuardian (params : GuardianDescriptorParams) (s : Text) : Prop where
  spends : ∀ signed age height, Spendable s signed age height ↔ Signs signed params.ownerKey ∨
    (Signs signed params.heirKey ∧
      (Signs signed params.guardian1Key ∨ Signs signed params.guardian2Key)) ∧
        params.timelockBlocks ≤ age ∧ ∀ h ∈ params.unlockHeight, h ≤ height
  owner : ∀ owner : KeyFragment, params.ownerKey = owner.text →
    ownerXpubFromDescriptor s = some owner.xpub.text

/-- **Every descriptor the builders write means what it is meant to.** -/
theorem spends_as_intended :
    (∀ params s, StandardKeys params → buildDescriptorString params = .ok s →
      MeansStandard params s) ∧
    ∀ params s, GuardianKeys params → buildGuardianDescriptorString params = .ok s →
      MeansGuardian params s :=
  ⟨fun _ _ keys built => ⟨spendable_standard keys built, fun _ key => ownerXpub_of_build key built⟩,
    fun _ _ keys built =>
      ⟨spendable_guardian keys built, fun _ key => ownerXpub_of_build_guardian key built⟩⟩

/-- A key of account 0 whose text repeats one letter. -/
def keyOf (c : Char) (base58 : c ∈ base58Alphabet) : KeyFragment where
  fingerprint := ⟨0xd3, 0x4d, 0xb3, 0x3f⟩
  path := [⟨86, true⟩, ⟨0, true⟩, ⟨0, true⟩]
  xpub := ⟨"xpub".toList ++ List.replicate 107 c,
    { length_eq := rfl
      base58 := fun x mem => by
        rcases List.mem_append.1 mem with tag | rest
        · exact (Text.forall_mem_of_all (by decide) :
            ∀ x ∈ "xpub".toList, x ∈ base58Alphabet) x tag
        · rw [List.eq_of_mem_replicate rest]
          exact base58
      tagged := by simp }⟩
  chain := .external

/-- An owner, an heir and two guardians, 144 blocks and a height. -/
def family : GuardianDescriptorParams :=
  ⟨(keyOf '1' (by decide)).text, (keyOf '2' (by decide)).text, (keyOf '3' (by decide)).text,
    (keyOf '4' (by decide)).text, 144, some 900000⟩

/-- The same owner and heir alone. -/
def couple : DescriptorParams := ⟨family.ownerKey, family.heirKey, 144⟩

/-- The descriptors of a family with and without guardians. -/
theorem spends_as_intended_family :
    (∃ s, buildDescriptorString couple = .ok s ∧ MeansStandard couple s) ∧
      ∃ s, buildGuardianDescriptorString family = .ok s ∧ MeansGuardian family s :=
  ⟨⟨_, rfl, spends_as_intended.1 couple _
      ⟨KeyFragment.isKeyExpr _, KeyFragment.isKeyExpr _⟩ rfl⟩,
    _, rfl, spends_as_intended.2 family _ ⟨KeyFragment.isKeyExpr _, KeyFragment.isKeyExpr _,
      KeyFragment.isKeyExpr _, KeyFragment.isKeyExpr _⟩ rfl⟩

end Spending

end GhostKey

import GhostKey.Descriptor

/-!
# Splicing Account Keys

`ghostkey-core/wallet.rs` signs by putting an account's private key into the descriptor
in the place of its public key. It finds the public key's text, reads the fingerprint
off the origin in front of it, and then replaces the key behind the *first* origin with
that fingerprint. So a splice goes wrong when a party named earlier in the descriptor
has the same fingerprint.

Main results:
- `spliceAccountInto_weave`: which key a splice replaces.
- `splicesExactly_iff`: when the signing wallets' descriptors are the stored ones with
  the signers' own keys replaced.
-/

namespace GhostKey

open Foundation

/-! ## §1 The wallet's functions -/

/-- `splice_xpriv`. -/
def spliceXpriv (descriptor : Text) (fp : Fingerprint) (path xprivStr : Text) :
    Except Text Text :=
  let origin := originTag fp path
  match Text.find origin descriptor with
  | none => .error ("origin ".toList ++ origin ++ " not found".toList)
  | some start =>
    let afterOrigin := start + origin.length
    -- the xpub runs until the next '/', which begins the chain suffix
    match Text.find ['/'] (descriptor.drop afterOrigin) with
    | none => .error "malformed key fragment: no chain suffix".toList
    | some suffixOff =>
      let xpubEnd := afterOrigin + suffixOff
      .ok (descriptor.take afterOrigin ++ (xprivStr ++ descriptor.drop xpubEnd))

variable (B : BitcoinLib)

/-- `find_origin_fingerprint_for_xpub`. -/
def findOriginFingerprintForXpub (descriptor xpubStr : Text) : Except Text Fingerprint :=
  match Text.find xpubStr descriptor with
  | none => .error "xpub not present in descriptor".toList
  | some xpubIdx =>
    match Text.rfind '[' (descriptor.take xpubIdx) with
    | none => .error "xpub has no origin tag in descriptor".toList
    | some bracketOpen =>
      let inside := (descriptor.take xpubIdx).drop (bracketOpen + 1)
      let fpPart := inside.takeWhile (· ≠ '/')
      match Fingerprint.parse fpPart with
      | none => .error ("bad fingerprint in origin: ".toList ++ B.hexError fpPart)
      | some fp => .ok fp

/-- `splice_account_into`. -/
def spliceAccountInto (descriptor : Text) (account : Xpriv) (network : Network) :
    Except Text Text := do
  let fp ← findOriginFingerprintForXpub B descriptor (B.neuter account).text
  spliceXpriv descriptor fp (vaultAccountPath network) account.text

/-- A vault's two descriptors, the external one first. -/
abbrev TextPair := Text × Text

/-- The descriptors `build_signing_from_account` builds its wallet from. -/
def buildSigningFromAccount (pair : TextPair) (network : Network) (account : Xpriv) :
    Except Text TextPair := do
  let ext ← spliceAccountInto B pair.1 account network
  let int ← spliceAccountInto B pair.2 account network
  .ok (ext, int)

/-- The descriptors `build_signing_guardian` builds its wallet from: the guardian's key
goes into what the heir's splice leaves. -/
def buildSigningGuardian (pair : TextPair) (network : Network) (heir guardian : Xpriv) :
    Except Text TextPair := do
  let spliceBoth := fun descriptor => do
    let d ← spliceAccountInto B descriptor heir network
    spliceAccountInto B d guardian network
  let ext ← spliceBoth pair.1
  let int ← spliceBoth pair.2
  .ok (ext, int)

/-! ## §2 Splicing at a place -/

theorem find_slash {key : Text} (absent : '/' ∉ key) (post : Text) :
    Text.find ['/'] (key ++ '/' :: post) = some key.length :=
  Text.find_of_clear (Text.clear_of_head absent _)

/-- Behind text that hides no earlier origin, the key after the origin is replaced. -/
theorem spliceXpriv_of_clear {pre key post : Text} {fp : Fingerprint} {path : Text}
    (clear : Text.Clear (originTag fp path) pre (originTag fp path ++ (key ++ '/' :: post)))
    (absent : '/' ∉ key) (xprivStr : Text) :
    spliceXpriv (pre ++ (originTag fp path ++ (key ++ '/' :: post))) fp path xprivStr =
      .ok (pre ++ (originTag fp path ++ (xprivStr ++ '/' :: post))) := by
  have start := Text.find_of_clear clear
  have split : pre ++ (originTag fp path ++ (key ++ '/' :: post)) =
      (pre ++ originTag fp path) ++ (key ++ '/' :: post) := by simp
  have len : pre.length + (originTag fp path).length = (pre ++ originTag fp path).length := by simp
  have behind : (pre ++ (originTag fp path ++ (key ++ '/' :: post))).drop
      (pre ++ originTag fp path).length = key ++ '/' :: post := by
    rw [split, List.drop_left]
  have upTo : (pre ++ (originTag fp path ++ (key ++ '/' :: post))).take
      (pre ++ originTag fp path).length = pre ++ originTag fp path := by
    rw [split, List.take_left]
  have suffix : (pre ++ (originTag fp path ++ (key ++ '/' :: post))).drop
      ((pre ++ originTag fp path).length + key.length) = '/' :: post := by
    rw [← List.drop_drop, behind, List.drop_left]
  simp only [spliceXpriv, start, len, behind, find_slash absent, upTo, suffix, List.append_assoc]

/-- The fingerprint in front of a key's first occurrence. -/
theorem findOrigin_of_clear {pre key post : Text} {fp : Fingerprint} {network : Network}
    (clear : Text.Clear key (pre ++ originTag fp (vaultAccountPath network)) (key ++ post)) :
    findOriginFingerprintForXpub B
      (pre ++ originTag fp (vaultAccountPath network) ++ (key ++ post)) key = .ok fp := by
  have inside : '[' ∉ fp.display ++ '/' :: (vaultAccountPath network ++ [']']) := by
    have none_hex : '[' ∉ fp.display := fp.lacks (by simp [separators])
    have none_path : '[' ∉ vaultAccountPath network := by cases network <;> decide
    simp [none_hex, none_path]
  have hex : ∀ c ∈ fp.display, (decide (c ≠ '/')) = true := by
    intro c mem
    have ne : c ≠ '/' := by
      rintro rfl
      exact fp.lacks (by simp [separators]) mem
    simpa using ne
  have tag : originTag fp (vaultAccountPath network) =
      '[' :: (fp.display ++ '/' :: (vaultAccountPath network ++ [']'])) := by
    simp [originTag_account]
  have found := Text.find_of_clear clear
  -- the bracket found last is that of the tag, whose text holds no other
  have bracket : Text.rfind '[' (pre ++ originTag fp (vaultAccountPath network)) =
      some pre.length := by
    rw [tag]
    exact Text.rfind_last inside pre
  have part : ((pre ++ originTag fp (vaultAccountPath network)).drop (pre.length + 1)).takeWhile
      (· ≠ '/') = fp.display := by
    rw [tag, ← List.drop_drop, List.drop_left, List.drop_succ_cons, List.drop_zero,
      List.takeWhile_append_of_pos hex]
    simp
  simp only [findOriginFingerprintForXpub, found, List.take_left, bracket, part,
    Fingerprint.parse_display]

/-! ## §3 Woven texts -/

/-- A fragment in a descriptor: what stands before it, its fingerprint and its key. -/
structure Segment where
  gap : Text
  fp : Fingerprint
  key : Text

def Segment.text (network : Network) (chain : Chain) (s : Segment) : Text :=
  s.gap ++ fragmentAround s.fp (vaultAccountPath network) s.key chain

/-- A descriptor is its fragments one after the other, and a tail. -/
def weave (network : Network) (chain : Chain) (segments : List Segment) (tail : Text) : Text :=
  segments.flatMap (Segment.text network chain) ++ tail

/-- The text of a key, public or private. -/
def IsKey (text : Text) : Prop := ∃ tags, IsKeyText tags text

/-- The gap is short and opens no bracket, and the key is one. -/
structure Segment.Plain (s : Segment) : Prop where
  closed : '[' ∉ s.gap
  short : s.gap.length ≤ 91
  key : IsKey s.key

theorem IsKey.length_eq {text : Text} (key : IsKey text) : text.length = 111 :=
  key.elim fun _ isKey => isKey.length_eq

theorem IsKey.lacks {text : Text} (key : IsKey text) {c : Char} (separator : c ∈ separators) :
    c ∉ text :=
  key.elim fun _ isKey => isKey.lacks separator

section Clear

variable {network : Network} {chain : Chain} {s : Segment}

/-- A fragment under another fingerprint hides no origin. -/
theorem Segment.Plain.clear_origin (plain : s.Plain) {fp : Fingerprint} (other : s.fp ≠ fp)
    (rest : Text) :
    Text.Clear (originTag fp (vaultAccountPath network)) (s.text network chain) rest := by
  have hex : '[' ∉ s.fp.display := s.fp.lacks (by simp [separators])
  have path : '[' ∉ vaultAccountPath network := by cases network <;> decide
  have key : '[' ∉ s.key := plain.key.lacks (by simp [separators])
  have index : '[' ≠ chain.index := by cases chain <;> decide
  -- after its opening bracket the fragment has no other
  have body : '[' ∉ s.fp.display ++ '/' :: (vaultAccountPath network ++
      (']' :: (s.key ++ ['/', chain.index, '/', '*']))) := by
    simp [hex, path, key, index]
  have split : fragmentAround s.fp (vaultAccountPath network) s.key chain =
      '[' :: (s.fp.display ++ '/' :: (vaultAccountPath network ++
        (']' :: (s.key ++ ['/', chain.index, '/', '*'])))) := by
    simp [fragmentAround, originTag_account]
  apply Text.Clear.append
  · exact Text.clear_of_head plain.closed _
  · rw [split]
    apply Text.clear_cons
    · intro occurs
      have tag : '[' :: (s.fp.display ++ '/' :: (vaultAccountPath network ++
          (']' :: (s.key ++ ['/', chain.index, '/', '*']))) ++ rest) =
            originTag s.fp (vaultAccountPath network) ++
              (s.key ++ ['/', chain.index, '/', '*'] ++ rest) := by
        simp [originTag_account]
      rw [tag] at occurs
      exact other (originTag_starts occurs).symm
    · exact Text.clear_of_head body rest

/-- A gap and an origin hide no key: they are too short. -/
theorem Segment.Plain.clear_tag (plain : s.Plain) {word : Text} (key : IsKey word) (rest : Text) :
    Text.Clear word (s.gap ++ originTag s.fp (vaultAccountPath network)) rest := by
  have split : s.gap ++ originTag s.fp (vaultAccountPath network) =
      (s.gap ++ '[' :: (s.fp.display ++ '/' :: vaultAccountPath network)) ++ [']'] := by
    simp [originTag_account]
  have len : (s.gap ++ '[' :: (s.fp.display ++ '/' :: vaultAccountPath network)).length ≤ 110 := by
    simp only [List.length_append, List.length_cons, Fingerprint.length_display,
      length_vaultAccountPath]
    have := plain.short
    omega
  have word_length := key.length_eq
  rw [split]
  apply Text.clear_of_short
  · exact key.lacks (by simp [separators])
  · omega
  · intro eq
    rw [eq] at len
    omega

/-- A fragment around another key hides no key. -/
theorem Segment.Plain.clear_key (plain : s.Plain) {word : Text} (key : IsKey word)
    (other : s.key ≠ word) (rest : Text) : Text.Clear word (s.text network chain) rest := by
  have split : s.text network chain = (s.gap ++ originTag s.fp (vaultAccountPath network)) ++
      ((s.key ++ ['/']) ++ ([chain.index, '/'] ++ ['*'])) := by
    simp [Segment.text, fragmentAround]
  have lengths := And.intro plain.key.length_eq key.length_eq
  rw [split]
  apply (plain.clear_tag key _).append
  apply Text.Clear.append
  · apply Text.clear_of_short
    · exact key.lacks (by simp [separators])
    · omega
    · exact other
  · apply Text.clear_of_short
    · exact key.lacks (by simp [separators])
    · simp only [List.length_cons, List.length_nil]
      omega
    · intro eq
      have := congrArg List.length eq
      simp only [List.length_cons, List.length_nil] at this
      omega

/-- A row of segments is clear if each of them is. -/
theorem clear_segments {word : Text} {segments : List Segment}
    (each : ∀ s ∈ segments, ∀ rest, Text.Clear word (s.text network chain) rest) (rest : Text) :
    Text.Clear word (segments.flatMap (Segment.text network chain)) rest := by
  induction segments with
  | nil => exact Text.clear_nil word rest
  | cons s segments ih =>
    rw [List.flatMap_cons]
    apply Text.Clear.append
    · exact each s (by simp) _
    · exact ih fun s' mem => each s' (by simp [mem])

end Clear

section Weave

variable {network : Network} {chain : Chain} {before after : List Segment} {s : Segment}
  {tail : Text}

theorem weave_split (x : Text) :
    weave network chain (before ++ { s with key := x } :: after) tail =
      (before.flatMap (Segment.text network chain) ++ s.gap) ++
        (originTag s.fp (vaultAccountPath network) ++ (x ++ '/' ::
          ([chain.index, '/', '*'] ++ weave network chain after tail))) := by
  simp [weave, Segment.text, fragmentAround]

/-- The first key under a fingerprint is the one that is replaced. -/
theorem spliceXpriv_weave (plain : ∀ r ∈ before ++ [s], r.Plain)
    (first : ∀ r ∈ before, r.fp ≠ s.fp) (xprivStr : Text) :
    spliceXpriv (weave network chain (before ++ s :: after) tail) s.fp (vaultAccountPath network)
      xprivStr = .ok (weave network chain (before ++ { s with key := xprivStr } :: after) tail) := by
  have split := @weave_split network chain before after s tail
  have clear : ∀ rest, Text.Clear (originTag s.fp (vaultAccountPath network))
      (before.flatMap (Segment.text network chain) ++ s.gap) rest := by
    intro rest
    apply Text.Clear.append
    · exact clear_segments (fun r mem rest =>
        (plain r (by simp [mem])).clear_origin (first r mem) rest) _
    · exact Text.clear_of_head (plain s (by simp)).closed rest
  have absent : '/' ∉ s.key := (plain s (by simp)).key.lacks (by simp [separators])
  rw [split xprivStr, split s.key]
  exact spliceXpriv_of_clear (clear _) absent xprivStr

/-- A key is looked up under its own fingerprint. -/
theorem findOrigin_weave (plain : ∀ r ∈ before ++ [s], r.Plain)
    (distinct : ∀ r ∈ before, r.key ≠ s.key) :
    findOriginFingerprintForXpub B (weave network chain (before ++ s :: after) tail) s.key =
      .ok s.fp := by
  have split : weave network chain (before ++ s :: after) tail =
      (before.flatMap (Segment.text network chain) ++ s.gap) ++
        originTag s.fp (vaultAccountPath network) ++ (s.key ++ ('/' ::
          ([chain.index, '/', '*'] ++ weave network chain after tail))) := by
    simp [weave, Segment.text, fragmentAround]
  have key := (plain s (by simp)).key
  rw [split]
  apply findOrigin_of_clear
  rw [List.append_assoc]
  apply Text.Clear.append
  · exact clear_segments (fun r mem rest =>
      (plain r (by simp [mem])).clear_key key (distinct r mem) rest) _
  · exact (plain s (by simp)).clear_tag key _

end Weave

/-! ## §4 A vault's descriptors -/

/-- Who holds a key of a vault. -/
inductive Party where
  | owner
  | heir
  | guardian1
  | guardian2
  deriving DecidableEq

/-- The parties of a vault, as its descriptor names them. -/
def VaultKind.parties : VaultKind → List Party
  | .standard => [.owner, .heir]
  | .guardian => [.owner, .heir, .guardian1, .guardian2]

/-- Those a descriptor names before a party. -/
def Party.before : Party → List Party
  | .owner => []
  | .heir => [.owner]
  | .guardian1 => [.owner, .heir]
  | .guardian2 => [.owner, .heir, .guardian1]

/-- What a vault is created from: the lock of its claim branch and the parties' keys, which
the server checks to differ, under whatever fingerprints they were posted. -/
structure VaultKeys extends ClaimBranch where
  network : Network
  fingerprint : Party → Fingerprint
  xpub : Party → Xpub
  distinct : (kind.parties.map xpub).Nodup

namespace VaultKeys

variable (v : VaultKeys)

/-- The descriptor of one chain around the given key texts. -/
def render (key : Party → Text) (chain : Chain) : Except DescriptorError Text :=
  let fragment := fun who =>
    fragmentAround (v.fingerprint who) (vaultAccountPath v.network) (key who) chain
  match v.kind with
  | .standard => buildDescriptorString ⟨fragment .owner, fragment .heir, v.timelockBlocks⟩
  | .guardian => buildGuardianDescriptorString ⟨fragment .owner, fragment .heir,
      fragment .guardian1, fragment .guardian2, v.timelockBlocks, v.unlockHeight⟩

/-- `build_descriptor_pair` and `build_guardian_descriptor_pair`, which parse the strings
once more. -/
def renderPair (key : Party → Text) : Except DescriptorError TextPair := do
  let ext ← v.render key .external
  let int ← v.render key .internal
  .ok (ext, int)

/-- The public keys, as the server stores them. -/
def publicKey (who : Party) : Text := (v.xpub who).text

/-- The absolute lock in front of the guardians' keys, if there is one. -/
def afterText : Option Nat → Text
  | some h => "and_v(v:after(".toList ++ decimal h ++ "),".toList
  | none => []

theorem afterText_none : afterText none = [] := rfl

theorem afterText_some (h : Nat) :
    afterText (some h) = "and_v(v:after(".toList ++ decimal h ++ "),".toList := rfl

/-- What stands in front of a party's fragment. -/
def gap : Party → Text
  | .owner => "tr(".toList ++ unspendableNumsXonly ++ ",or_d(pk(".toList
  | .heir => "),and_v(v:pk(".toList
  | .guardian1 => "),and_v(v:older(".toList ++ decimal v.timelockBlocks ++ "),".toList ++
      afterText v.unlockHeight ++ "or_b(pk(".toList
  | .guardian2 => "),s:pk(".toList

theorem gap_owner : v.gap .owner =
    "tr(".toList ++ unspendableNumsXonly ++ ",or_d(pk(".toList := rfl

theorem gap_heir : v.gap .heir = "),and_v(v:pk(".toList := rfl

theorem gap_guardian1 : v.gap .guardian1 =
    "),and_v(v:older(".toList ++ decimal v.timelockBlocks ++ "),".toList ++
      afterText v.unlockHeight ++ "or_b(pk(".toList := rfl

theorem gap_guardian2 : v.gap .guardian2 = "),s:pk(".toList := rfl

/-- What stands behind the last fragment. -/
def tail : Text :=
  match v.kind with
  | .standard => "),older(".toList ++ decimal v.timelockBlocks ++ "))))".toList
  | .guardian => "))".toList ++ (if v.unlockHeight.isSome then ")".toList else []) ++ "))))".toList

def segment (key : Party → Text) (who : Party) : Segment :=
  ⟨v.gap who, v.fingerprint who, key who⟩

/-- The descriptor as its segments. -/
def woven (key : Party → Text) (chain : Chain) : Text :=
  weave v.network chain (v.kind.parties.map (v.segment key)) v.tail

theorem ok_bind {ε α β : Type} (a : α) (f : α → Except ε β) : (Except.ok a >>= f) = f a := rfl

/-- The builders weave. -/
theorem render_eq (key : Party → Text) (chain : Chain) :
    v.render key chain = .ok (v.woven key chain) := by
  -- per kind of vault, segment by segment
  cases kind : v.kind with
  | standard =>
    have valid : validateLocks v.timelockBlocks none = .ok () := v.standard kind ▸ v.valid
    unfold render
    simp only [kind, buildDescriptorString, DescriptorParams.validate, valid, ok_bind]
    simp only [woven, weave, kind, VaultKind.parties, tail, Segment.text, segment, gap_owner,
      gap_heir, List.map_cons, List.map_nil, List.flatMap_cons, List.flatMap_nil,
      List.append_assoc, List.append_nil]
  | guardian =>
    cases unlock : v.unlockHeight with
    | none =>
      have valid : validateLocks v.timelockBlocks none = .ok () := unlock ▸ v.valid
      unfold render
      simp only [kind, unlock, buildGuardianDescriptorString, GuardianDescriptorParams.validate,
        valid, ok_bind]
      simp only [woven, weave, kind, unlock, VaultKind.parties, tail, Segment.text, segment,
        gap_owner, gap_heir, gap_guardian1, gap_guardian2, afterText_none, List.map_cons,
        List.map_nil, List.flatMap_cons, List.flatMap_nil, List.append_assoc, List.append_nil,
        Option.isSome_none, Bool.false_eq_true, if_false]
    | some h =>
      have valid : validateLocks v.timelockBlocks (some h) = .ok () := unlock ▸ v.valid
      unfold render
      simp only [kind, unlock, buildGuardianDescriptorString, GuardianDescriptorParams.validate,
        valid, ok_bind]
      simp only [woven, weave, kind, unlock, VaultKind.parties, tail, Segment.text, segment,
        gap_owner, gap_heir, gap_guardian1, gap_guardian2, afterText_some, List.map_cons,
        List.map_nil, List.flatMap_cons, List.flatMap_nil, List.append_assoc, List.append_nil,
        Option.isSome_some, if_true]

theorem renderPair_eq (key : Party → Text) :
    v.renderPair key = .ok (v.woven key .external, v.woven key .internal) := by
  simp only [renderPair, render_eq, ok_bind]

/-! ## §5 What a splice replaces -/

theorem bracket_not_mem_decimal (n : Nat) : '[' ∉ decimal n := fun mem =>
  absurd (Nat.isDigit_of_mem_toDigits (by decide) (by decide) mem) (by decide)

theorem length_decimal_le {n k : Nat} (pos : 0 < k) (lt : n < 10 ^ k) : (decimal n).length ≤ k :=
  (Nat.length_toDigits_le_iff (by decide) pos).2 lt

theorem afterText_plain : '[' ∉ afterText v.unlockHeight ∧
    (afterText v.unlockHeight).length ≤ 25 := by
  cases unlock : v.unlockHeight with
  | none => simp [afterText_none]
  | some h =>
    have height := (v.unlockHeight_lt unlock).2
    have digits : (decimal h).length ≤ 9 :=
      length_decimal_le (by decide) (by simp only [maxCltvHeight] at height; omega)
    have bracket := bracket_not_mem_decimal h
    rw [afterText_some]
    constructor
    · simp [bracket]
    · simp only [List.length_append]
      have fixed : "and_v(v:after(".toList.length = 14 ∧ "),".toList.length = 2 := by decide
      omega

/-- No gap opens a bracket, and all are short. -/
theorem gap_plain (who : Party) : '[' ∉ v.gap who ∧ (v.gap who).length ≤ 91 := by
  cases who with
  | owner => rw [gap_owner]; decide
  | heir => rw [gap_heir]; decide
  | guardian2 => rw [gap_guardian2]; decide
  | guardian1 =>
    have blocks := v.timelockBlocks_le
    have digits : (decimal v.timelockBlocks).length ≤ 5 :=
      length_decimal_le (by decide) (by simp only [maxCsvBlocks] at blocks; omega)
    have bracket := bracket_not_mem_decimal v.timelockBlocks
    have unlock := v.afterText_plain
    rw [gap_guardian1]
    constructor
    · simp [bracket, unlock.1]
    · simp only [List.length_append]
      have fixed : "),and_v(v:older(".toList.length = 16 ∧ "),".toList.length = 2 ∧
        "or_b(pk(".toList.length = 8 := by decide
      omega

variable {v}

theorem plain_segment {key : Party → Text} {who : Party} (isKey : IsKey (key who)) :
    (v.segment key who).Plain where
  closed := (v.gap_plain who).1
  short := (v.gap_plain who).2
  key := isKey

theorem parties_split {kind : VaultKind} {who : Party} (named : who ∈ kind.parties) :
    ∃ after, kind.parties = who.before ++ who :: after := by
  cases kind <;> cases who <;> simp [VaultKind.parties, Party.before] at named ⊢

theorem parties_nodup (kind : VaultKind) : kind.parties.Nodup := by cases kind <;> decide

theorem mem_parties_of_before {kind : VaultKind} {who p : Party} (named : who ∈ kind.parties)
    (earlier : p ∈ who.before) : p ∈ kind.parties := by
  obtain ⟨after, split⟩ := parties_split named
  simp [split, earlier]

theorem not_mem_before (who : Party) : who ∉ who.before := by cases who <;> decide

/-- The first party with a property, where a given one has it. -/
theorem first_with (P : Party → Prop) [DecidablePred P] {who : Party} (has : P who) :
    ∃ hit, (hit = who ∨ hit ∈ who.before) ∧ P hit ∧ ∀ p ∈ hit.before, ¬ P p := by
  by_cases owner : P .owner
  · exact ⟨.owner, by cases who <;> simp [Party.before], owner, by simp [Party.before]⟩
  by_cases heir : P .heir
  · refine ⟨.heir, ?_, heir, by simpa [Party.before] using owner⟩
    cases who <;> first | exact absurd has owner | simp [Party.before]
  by_cases guardian1 : P .guardian1
  · refine ⟨.guardian1, ?_, guardian1, by simpa [Party.before] using ⟨owner, heir⟩⟩
    cases who <;> first | exact absurd has owner | exact absurd has heir | simp [Party.before]
  · cases who with
    | owner => exact absurd has owner
    | heir => exact absurd has heir
    | guardian1 => exact absurd has guardian1
    | guardian2 =>
      exact ⟨.guardian2, .inl rfl, has, by simpa [Party.before] using ⟨owner, heir, guardian1⟩⟩

/-- The descriptor around keys of which one is changed. -/
theorem woven_update (key : Party → Text) {hit : Party} (named : hit ∈ v.kind.parties) :
    ∃ after : List Party, ∀ (x : Text) (chain : Chain), v.woven (Function.update key hit x) chain =
      weave v.network chain (hit.before.map (v.segment key) ++
        { v.segment key hit with key := x } :: after.map (v.segment key)) v.tail := by
  obtain ⟨after, split⟩ := parties_split named
  refine ⟨after, fun x chain => ?_⟩
  have nodup := parties_nodup v.kind
  rw [split, List.nodup_append] at nodup
  have same : ∀ p, p ≠ hit → v.segment (Function.update key hit x) p = v.segment key p := by
    intro p ne
    simp [segment, ne]
  have here : v.segment (Function.update key hit x) hit = { v.segment key hit with key := x } := by
    simp [segment]
  have first : hit.before.map (v.segment (Function.update key hit x)) =
      hit.before.map (v.segment key) :=
    List.map_congr_left fun p mem => same p fun eq => not_mem_before hit (eq ▸ mem)
  have last : after.map (v.segment (Function.update key hit x)) = after.map (v.segment key) :=
    List.map_congr_left fun p mem => same p fun eq => (List.nodup_cons.1 nodup.2.1).1 (eq ▸ mem)
  rw [woven, split, List.map_append, List.map_cons, first, here, last]

/-- A splice replaces the first key under the party's fingerprint. -/
theorem spliceAccountInto_woven {key : Party → Text} (keys : ∀ p, IsKey (key p)) {who : Party}
    (named : who ∈ v.kind.parties) {account : Xpriv} (owns : (B.neuter account).text = key who)
    (distinct : ∀ p ∈ who.before, key p ≠ key who) :
    ∃ hit, (hit = who ∨ hit ∈ who.before) ∧ v.fingerprint hit = v.fingerprint who ∧
      (∀ p ∈ hit.before, v.fingerprint p ≠ v.fingerprint who) ∧
      ∀ chain, spliceAccountInto B (v.woven key chain) account v.network =
        .ok (v.woven (Function.update key hit account.text) chain) := by
  obtain ⟨hit, place, same, first⟩ :=
    first_with (fun p => v.fingerprint p = v.fingerprint who) rfl
  refine ⟨hit, place, same, first, fun chain => ?_⟩
  -- the segments hold no bracket of an origin
  have plain : ∀ l : List Party, ∀ r ∈ l.map (v.segment key), r.Plain := by
    intro l r mem
    obtain ⟨p, _, rfl⟩ := List.mem_map.1 mem
    exact plain_segment (keys p)
  -- the fingerprint is looked up by the party's key, which no earlier party has
  have found : findOriginFingerprintForXpub B (v.woven key chain) (key who) =
      .ok (v.fingerprint who) := by
    obtain ⟨after, split⟩ := woven_update key named
    have whole := split (key who) chain
    rw [Function.update_eq_self] at whole
    rw [whole]
    apply findOrigin_weave B (s := v.segment key who)
    · intro r mem
      apply plain (who.before ++ [who])
      simpa using mem
    · intro r mem
      obtain ⟨p, earlier, rfl⟩ := List.mem_map.1 mem
      exact distinct p earlier
  have named_hit : hit ∈ v.kind.parties := by
    rcases place with rfl | earlier
    · exact named
    · exact mem_parties_of_before named earlier
  -- the replacement goes by the fingerprint, so it takes the first party that has it
  have replaced : spliceXpriv (v.woven key chain) (v.fingerprint who) (vaultAccountPath v.network)
      account.text = .ok (v.woven (Function.update key hit account.text) chain) := by
    obtain ⟨after, split⟩ := woven_update key named_hit
    have whole := split (key hit) chain
    rw [Function.update_eq_self] at whole
    rw [whole, split account.text chain, ← same]
    apply spliceXpriv_weave (s := v.segment key hit)
    · intro r mem
      apply plain (hit.before ++ [hit])
      simpa using mem
    · intro r mem
      obtain ⟨p, earlier, rfl⟩ := List.mem_map.1 mem
      show v.fingerprint p ≠ v.fingerprint hit
      rw [same]
      exact first p earlier
  rw [spliceAccountInto, owns, found, ok_bind, replaced]

/-- Descriptors around keys are equal only if the keys are. -/
theorem woven_injective {key key' : Party → Text} (keys : ∀ p, IsKey (key p))
    (keys' : ∀ p, IsKey (key' p)) {chain : Chain} (eq : v.woven key chain = v.woven key' chain) :
    ∀ p ∈ v.kind.parties, key p = key' p := by
  suffices row : ∀ (l : List Party) (t : Text),
      weave v.network chain (l.map (v.segment key)) t =
        weave v.network chain (l.map (v.segment key')) t → ∀ p ∈ l, key p = key' p from
    row _ _ eq
  intro l t
  induction l with
  | nil => simp
  | cons q l ih =>
    intro eq p mem
    have lengths : ((v.segment key q).text v.network chain).length =
        ((v.segment key' q).text v.network chain).length := by
      simp [Segment.text, fragmentAround, segment, (keys q).length_eq, (keys' q).length_eq]
    simp only [weave, List.map_cons, List.flatMap_cons, List.append_assoc] at eq
    obtain ⟨here, later⟩ := List.append_inj eq lengths
    rcases List.mem_cons.1 mem with rfl | mem
    · simpa [Segment.text, fragmentAround, segment] using here
    · exact ih later p mem

/-! ## §6 Signing -/

/-- The account keys of a vault's parties. -/
structure Accounts (v : VaultKeys) where
  key : Party → Xpriv
  owns : ∀ who ∈ v.kind.parties, B.neuter (key who) = v.xpub who

/-- A signing wallet: for any one party, or for the heir and a guardian. -/
inductive Signing : VaultKind → Type where
  | account {kind : VaultKind} (who : Party) (named : who ∈ kind.parties) : Signing kind
  | guardian (who : Party) (is : who = .guardian1 ∨ who = .guardian2) : Signing .guardian

namespace Signing

variable {kind : VaultKind}

def signers : Signing kind → List Party
  | .account who _ => [who]
  | .guardian who _ => [.heir, who]

/-- The descriptors the wallet is built from. -/
def build (signing : Signing kind) (network : Network) (key : Party → Xpriv) (pair : TextPair) :
    Except Text TextPair :=
  match signing with
  | .account who _ => buildSigningFromAccount B pair network (key who)
  | .guardian who _ => buildSigningGuardian B pair network (key .heir) (key who)

theorem named (signing : Signing kind) : ∀ who ∈ signing.signers, who ∈ kind.parties := by
  cases signing with
  | account who named => simpa [signers] using named
  | guardian who is => rcases is with rfl | rfl <;> decide

end Signing

/-- The signers' own keys in the place of their public ones, and no other change. -/
def ownReplaced (v : VaultKeys) (key : Party → Xpriv) (signers : List Party) (who : Party) : Text :=
  if who ∈ signers then (key who).text else v.publicKey who

/-- In both chains' descriptors exactly the signers' own keys are replaced. -/
def SplicesExactly (v : VaultKeys) (accounts : Accounts B v) (signing : Signing v.kind) : Prop :=
  ∀ pair, v.renderPair v.publicKey = .ok pair →
    ∃ spliced, v.renderPair (v.ownReplaced accounts.key signing.signers) = .ok spliced ∧
      signing.build B v.network accounts.key pair = .ok spliced

/-- No party named before a signer has its fingerprint. -/
def OriginsClear (v : VaultKeys) (signing : Signing v.kind) : Prop :=
  ∀ who ∈ signing.signers, ∀ p ∈ who.before, v.fingerprint p ≠ v.fingerprint who

instance (signing : Signing v.kind) : Decidable (v.OriginsClear signing) := by
  unfold OriginsClear
  infer_instance

theorem isKey_public (p : Party) : IsKey (v.publicKey p) := ⟨_, (v.xpub p).isKeyText⟩

theorem isKey_private (k : Xpriv) : IsKey k.text := ⟨_, k.isKeyText⟩

theorem isKey_update {key : Party → Text} (keys : ∀ p, IsKey (key p)) (hit : Party) (k : Xpriv)
    (p : Party) : IsKey (Function.update key hit k.text p) := by
  by_cases eq : p = hit
  · subst eq
    simpa using isKey_private k
  · simpa [eq] using keys p

theorem isKey_ownReplaced (key : Party → Xpriv) (signers : List Party) (p : Party) :
    IsKey (v.ownReplaced key signers p) := by
  unfold ownReplaced
  split
  · exact isKey_private _
  · exact isKey_public p

/-- The server's check keeps the public keys apart. -/
theorem publicKey_ne {who p : Party} (named : who ∈ v.kind.parties) (earlier : p ∈ who.before) :
    v.publicKey p ≠ v.publicKey who := by
  intro eq
  have same : p = who := List.inj_on_of_nodup_map v.distinct (mem_parties_of_before named earlier)
    named (Xpub.text_injective eq)
  exact not_mem_before who (same ▸ earlier)

theorem owns_text (accounts : Accounts B v) {who : Party} (named : who ∈ v.kind.parties) :
    (B.neuter (accounts.key who)).text = v.publicKey who := by
  rw [accounts.owns who named]
  rfl

/-- A signing is exact if its two descriptors are the stored ones around the replaced keys. -/
theorem splicesExactly_iff_build (accounts : Accounts B v) (signing : Signing v.kind) :
    v.SplicesExactly B accounts signing ↔
      signing.build B v.network accounts.key
          (v.woven v.publicKey .external, v.woven v.publicKey .internal) =
        .ok (v.woven (v.ownReplaced accounts.key signing.signers) .external,
          v.woven (v.ownReplaced accounts.key signing.signers) .internal) := by
  simp only [SplicesExactly, renderPair_eq, Except.ok.injEq]
  constructor
  · intro exact_
    obtain ⟨_, rfl, built⟩ := exact_ _ rfl
    exact built
  · rintro built _ rfl
    exact ⟨_, rfl, built⟩

/-- The first party under a signer's fingerprint is the signer if no earlier one has it. -/
theorem hit_eq_iff {who hit : Party} (place : hit = who ∨ hit ∈ who.before)
    (same : v.fingerprint hit = v.fingerprint who)
    (first : ∀ p ∈ hit.before, v.fingerprint p ≠ v.fingerprint who) :
    hit = who ↔ ∀ p ∈ who.before, v.fingerprint p ≠ v.fingerprint who := by
  constructor
  · rintro rfl
    exact first
  · intro clear
    rcases place with eq | earlier
    · exact eq
    · exact absurd same (clear hit earlier)

theorem buildSigningFromAccount_iff (accounts : Accounts B v) {who : Party}
    (named : who ∈ v.kind.parties) :
    buildSigningFromAccount B (v.woven v.publicKey .external, v.woven v.publicKey .internal)
        v.network (accounts.key who) =
      .ok (v.woven (v.ownReplaced accounts.key [who]) .external,
        v.woven (v.ownReplaced accounts.key [who]) .internal) ↔
      ∀ signer ∈ [who], ∀ p ∈ signer.before, v.fingerprint p ≠ v.fingerprint signer := by
  obtain ⟨hit, place, same, first, spliced⟩ := spliceAccountInto_woven B isKey_public named
    (owns_text B accounts named) fun p => publicKey_ne named
  have keys := isKey_update (isKey_public (v := v)) hit (accounts.key who)
  simp only [List.forall_mem_singleton, ← hit_eq_iff place same first, buildSigningFromAccount,
    spliced, ok_bind, Except.ok.injEq, Prod.mk.injEq]
  constructor
  · rintro ⟨external, -⟩
    -- what stands at the hit is a private key, and only the signer's place holds one
    have named_hit : hit ∈ v.kind.parties := by
      rcases place with rfl | earlier
      · exact named
      · exact mem_parties_of_before named earlier
    have at_hit := woven_injective keys (isKey_ownReplaced _ _) external hit named_hit
    by_contra other
    rw [Function.update_self, ownReplaced, if_neg (by simpa using other)] at at_hit
    exact Xpriv.text_ne _ _ at_hit
  · rintro rfl
    have replaced : Function.update v.publicKey hit (accounts.key hit).text =
        v.ownReplaced accounts.key [hit] := by
      funext p
      by_cases eq : p = hit
      · subst eq
        simp [ownReplaced]
      · simp [ownReplaced, eq]
    simp [replaced]

theorem buildSigningGuardian_iff (accounts : Accounts B v) {who : Party}
    (is : who = .guardian1 ∨ who = .guardian2) (heirNamed : .heir ∈ v.kind.parties)
    (named : who ∈ v.kind.parties) :
    (buildSigningGuardian B (v.woven v.publicKey .external, v.woven v.publicKey .internal)
        v.network (accounts.key .heir) (accounts.key who) =
      .ok (v.woven (v.ownReplaced accounts.key [.heir, who]) .external,
        v.woven (v.ownReplaced accounts.key [.heir, who]) .internal)) ↔
      ∀ signer ∈ [Party.heir, who], ∀ p ∈ signer.before,
        v.fingerprint p ≠ v.fingerprint signer := by
  obtain ⟨hit, place, same, first, spliced⟩ := spliceAccountInto_woven B isKey_public heirNamed
    (owns_text B accounts heirNamed) fun p => publicKey_ne heirNamed
  have keys := isKey_update (isKey_public (v := v)) hit (accounts.key .heir)
  have who_ne_heir : who ≠ .heir := by rcases is with rfl | rfl <;> decide
  have who_ne : who ≠ hit := by
    rcases place with rfl | earlier
    · exact who_ne_heir
    · rcases is with rfl | rfl <;> rintro rfl <;> revert earlier <;> decide
  -- the heir's splice leaves the guardian's key as it was, and no other like it
  have own : (B.neuter (accounts.key who)).text =
      Function.update v.publicKey hit (accounts.key .heir).text who := by
    rw [Function.update_of_ne who_ne, owns_text B accounts named]
  have distinct : ∀ p ∈ who.before,
      Function.update v.publicKey hit (accounts.key .heir).text p ≠
        Function.update v.publicKey hit (accounts.key .heir).text who := by
    intro p earlier
    rw [Function.update_of_ne who_ne]
    by_cases eq : p = hit
    · subst eq
      rw [Function.update_self]
      exact Xpriv.text_ne _ _
    · rw [Function.update_of_ne eq]
      exact publicKey_ne named earlier
  obtain ⟨hit', place', same', first', spliced'⟩ :=
    spliceAccountInto_woven B keys named own distinct
  have keys' := isKey_update keys hit' (accounts.key who)
  have iff_hits : (∀ signer ∈ [Party.heir, who], ∀ p ∈ signer.before,
      v.fingerprint p ≠ v.fingerprint signer) ↔ hit = .heir ∧ hit' = who := by
    rw [hit_eq_iff place same first, hit_eq_iff place' same' first']
    simp
  rw [iff_hits]
  simp only [buildSigningGuardian, spliced, spliced', ok_bind, Except.ok.injEq, Prod.mk.injEq]
  constructor
  · rintro ⟨external, -⟩
    have eq := woven_injective keys' (isKey_ownReplaced _ _) external
    have second : hit' = who := by
      by_contra other
      have at_who := eq who named
      rw [Function.update_of_ne (Ne.symm other), Function.update_of_ne who_ne, ownReplaced,
        if_pos (by simp)] at at_who
      exact Xpriv.text_ne _ _ at_who.symm
    refine ⟨?_, second⟩
    by_contra other
    have at_heir := eq .heir heirNamed
    rw [second, Function.update_of_ne who_ne_heir.symm, Function.update_of_ne (Ne.symm other),
      ownReplaced, if_pos (by simp)] at at_heir
    exact Xpriv.text_ne _ _ at_heir.symm
  · rintro ⟨rfl, rfl⟩
    have replaced : Function.update (Function.update v.publicKey .heir (accounts.key .heir).text)
        hit' (accounts.key hit').text = v.ownReplaced accounts.key [.heir, hit'] := by
      funext p
      by_cases eq : p = hit'
      · subst eq
        simp [ownReplaced]
      · by_cases eq_heir : p = .heir
        · subst eq_heir
          simp [ownReplaced, eq]
        · simp [ownReplaced, eq, eq_heir]
    simp [replaced]

/-- **Splicing is exact as long as no party named before a signer has its fingerprint.** -/
theorem splicesExactly_iff (v : VaultKeys) (accounts : Accounts B v) (signing : Signing v.kind) :
    v.SplicesExactly B accounts signing ↔ v.OriginsClear signing := by
  rw [splicesExactly_iff_build]
  suffices build_iff : ∀ {kind : VaultKind} (signing : Signing kind), kind = v.kind →
      (signing.build B v.network accounts.key
          (v.woven v.publicKey .external, v.woven v.publicKey .internal) =
        .ok (v.woven (v.ownReplaced accounts.key signing.signers) .external,
          v.woven (v.ownReplaced accounts.key signing.signers) .internal) ↔
        ∀ who ∈ signing.signers, ∀ p ∈ who.before, v.fingerprint p ≠ v.fingerprint who) from
    build_iff signing rfl
  intro kind signing is
  have named : ∀ who ∈ signing.signers, who ∈ v.kind.parties := by
    intro who mem
    rw [← is]
    exact signing.named who mem
  cases signing with
  | account who _ =>
    exact buildSigningFromAccount_iff B accounts (named who (by simp [Signing.signers]))
  | guardian who which =>
    exact buildSigningGuardian_iff B accounts which (named .heir (by simp [Signing.signers]))
      (named who (by simp [Signing.signers]))

end VaultKeys

/-! ## §7 A shared fingerprint -/

theorem isKeyText_append {tags : List Text} {tag body : Text} (mem : tag ∈ tags)
    (tagLength : tag.length = 4) (bodyLength : body.length = 107)
    (tag58 : ∀ c ∈ tag, c ∈ base58Alphabet) (body58 : ∀ c ∈ body, c ∈ base58Alphabet) :
    IsKeyText tags (tag ++ body) where
  length_eq := by simp [tagLength, bodyLength]
  base58 c inside := (List.mem_append.1 inside).elim (tag58 c) (body58 c)
  tagged := by simpa [← tagLength] using mem

theorem isKeyText_letter {tags : List Text} {tag : Text} (mem : tag ∈ tags)
    (tagLength : tag.length = 4) (tag58 : ∀ c ∈ tag, c ∈ base58Alphabet) {letter : Char}
    (inside : letter ∈ base58Alphabet) :
    IsKeyText tags (tag ++ List.replicate 107 letter) :=
  isKeyText_append mem tagLength (by simp) tag58 fun _ mem =>
    (List.mem_replicate.1 mem).2 ▸ inside

/-- A public key of one repeated letter. -/
def plainXpub (letter : Char) (inside : letter ∈ base58Alphabet) : Xpub where
  text := "xpub".toList ++ List.replicate 107 letter
  isKeyText := isKeyText_letter (by simp) (by decide) (Text.forall_mem_of_all (by decide)) inside

/-- A private key of one repeated letter. -/
def plainXpriv (letter : Char) (inside : letter ∈ base58Alphabet) : Xpriv where
  text := "xprv".toList ++ List.replicate 107 letter
  isKeyText := isKeyText_letter (by simp) (by decide) (Text.forall_mem_of_all (by decide)) inside

/-- A key library that only changes the version bytes. -/
def retagging : BitcoinLib where
  neuter k :=
    { text := "xpub".toList ++ k.text.drop 4
      isKeyText := isKeyText_append (by simp) (by decide) (by simp [k.isKeyText.length_eq])
        (Text.forall_mem_of_all (by decide)) fun c mem => k.isKeyText.base58 c (List.mem_of_mem_drop mem) }
  hexError := id

def Party.letter : Party → Char
  | .owner => 'A'
  | .heir => 'B'
  | .guardian1 => 'C'
  | .guardian2 => 'D'

theorem Party.letter_mem (who : Party) : who.letter ∈ base58Alphabet := by cases who <;> decide

/-- An owner whose wallet reports no fingerprint, and an heir derived by the server. -/
def unnamedVault : VaultKeys where
  kind := .standard
  timelockBlocks := 144
  unlockHeight := none
  valid := rfl
  standard _ := rfl
  network := .bitcoin
  fingerprint _ := ⟨0, 0, 0, 0⟩
  xpub who := plainXpub who.letter who.letter_mem
  distinct := by decide

def unnamedAccounts : VaultKeys.Accounts retagging unnamedVault where
  key who := plainXpriv who.letter who.letter_mem
  owns who _ := by
    apply Xpub.text_injective
    rfl

/-- The heir's key goes into the owner's place. -/
theorem not_splicesExactly : ¬ ∀ (B : BitcoinLib) (v : VaultKeys) (accounts : v.Accounts B)
    (signing : VaultKeys.Signing v.kind), v.SplicesExactly B accounts signing := by
  intro exact_
  have named : Party.heir ∈ unnamedVault.kind.parties := by decide
  have built := (VaultKeys.splicesExactly_iff_build retagging unnamedAccounts _).1
    (exact_ retagging unnamedVault unnamedAccounts (.account .heir named))
  have clear := (VaultKeys.buildSigningFromAccount_iff retagging unnamedAccounts named).1 built
  exact clear .heir (by simp) .owner (by decide) rfl

end GhostKey

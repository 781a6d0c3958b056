import GhostKey.Foundation.Base64
import GhostKey.Deployment
import GhostKey.Descriptor

/-!
# Claim Links

A claim token is 32 bytes, written in standard base 64 when a browser minted it and in
the URL-safe alphabet without padding when the server did. The link that delivers it is
`{base}/#/claim/{token}`. The web app reads the token off the address bar, and the
guardian page off a text the heir and the guardian paste. That second reader cuts the
token at a slash, which is a letter of standard base 64.

Main results:
- `locationFromHash_claimUrl`: a link that is opened gives its token.
- `extractClaimToken_claimUrl`: one that is pasted gives the token up to its first slash.
- `roundTrips_iff`: when both give the token, and the bytes it was minted from.
-/

namespace GhostKey

open Foundation Foundation.Base64

/-! ## §1 Texts in the browser -/

/-- What `String.prototype.trim` strips and `\s` matches: white space and line ends. -/
def isJsSpace (c : Char) : Bool :=
  let n := c.toNat
  (9 ≤ n && n ≤ 13) || n = 0x20 || n = 0xA0 || n = 0x1680 || (0x2000 ≤ n && n ≤ 0x200A) ||
    n = 0x2028 || n = 0x2029 || n = 0x202F || n = 0x205F || n = 0x3000 || n = 0xFEFF

def jsTrim (s : Text) : Text := Text.trimBy isJsSpace s

def upperHex (n : Nat) : Char := (Nat.digitChar n).toUpper

/-- What a fragment may hold as it stands. -/
def fragmentSafe (c : Char) : Bool :=
  0x20 < c.toNat && c.toNat ≤ 0x7E && !(c = '"' || c = '<' || c = '>' || c.toNat = 0x60)

def percentEncode (c : Char) : Text :=
  if fragmentSafe c then [c]
  else (String.utf8EncodeChar c).flatMap fun b =>
    ['%', upperHex (b.toNat / 16), upperHex (b.toNat % 16)]

/-- `window.location.hash` after opening `url`. -/
def locationHash (url : Text) : Text :=
  match url.dropWhile (· ≠ '#') with
  | [] | [_] => []
  | hash :: fragment => hash :: fragment.flatMap percentEncode

/-! ## §2 The readers -/

/-- `App.tsx`'s `Location`. -/
inductive Location where
  | route (route : Text)
  | claim (token : Text)
  | ownerRecovery (token : Text)
  | oneTapCheckin (vaultId token : Text)
  | verifyEmail (vaultId token : Text)
  deriving DecidableEq

/-- The navigable routes, `VALID`. -/
def validRoutes : List Text :=
  ["landing", "setup", "setup-legacy", "setup-password", "success", "dashboard", "activity",
    "heir-message", "heir-contact", "practice", "emergency", "reminders", "tools", "recovery",
    "recovery-guide", "checkin", "checkin-legacy", "inherit", "status", "terms",
    "privacy"].map String.toList

/-- `hash.replace(/^#\/?/, "")`. -/
def stripHash : Text → Text
  | '#' :: '/' :: rest => rest
  | '#' :: rest => rest
  | hash => hash

/-- The token behind `head` when the text starts with it. -/
def tokenAfter (head : String) (raw : Text) : Option Text :=
  if head.toList <+: raw then
    let token := jsTrim (raw.drop head.toList.length)
    if token = [] then none else some token
  else none

/-- The vault id and the token behind `head`, on both sides of the first slash. -/
def vaultTokenAfter (head : String) (raw : Text) : Option (Text × Text) :=
  if head.toList <+: raw then
    let rest := raw.drop head.toList.length
    match Text.find ['/'] rest with
    | none | some 0 => none
    | some slash =>
      let vaultId := jsTrim (rest.take slash)
      let token := jsTrim (rest.drop (slash + 1))
      if vaultId ≠ [] ∧ token ≠ [] then some (vaultId, token) else none
  else none

def locationFromHash (hash : Text) : Location :=
  let raw := stripHash hash
  match tokenAfter "claim/" raw with
  | some token => .claim token
  | none =>
    match tokenAfter "recover/" raw with
    | some token => .ownerRecovery token
    | none =>
      match vaultTokenAfter "checkin-link/" raw with
      | some (vaultId, token) => .oneTapCheckin vaultId token
      | none =>
        match vaultTokenAfter "verify-email/" raw with
        | some (vaultId, token) => .verifyEmail vaultId token
        | none => .route (if raw ∈ validRoutes then raw else "landing".toList)

/-- What `split(/[/?#\s]/)` cuts at. -/
def cutsToken (c : Char) : Bool := c = '/' || c = '?' || c = '#' || isJsSpace c

def claimMarker : Text := ['/', 'c', 'l', 'a', 'i', 'm', '/']

def extractClaimToken (input : Text) : Option Text :=
  let s := jsTrim input
  if s = [] then none
  else
    let raw := match Text.findLast claimMarker s with
      | some i => s.drop (i + claimMarker.length)
      | none => s
    let tok := raw.takeWhile fun c => !cutsToken c
    if tok = [] then none else some tok

/-! ## §3 Tokens -/

/-- Who mints a claim token: the browser for the keys it seals, the server otherwise. -/
inductive Minter where
  | browser
  | server
  deriving DecidableEq

/-- The random bytes of a token. -/
structure TokenBytes where
  bytes : List Byte
  length_eq : bytes.length = 32

/-- `btoa` of the bytes, character by character. -/
def b64encode (bytes : List Byte) : Text := btoa bytes

/-- The base64url letters in the place of the standard ones. -/
def toStandard (c : Char) : Char := if c = '-' then '+' else if c = '_' then '/' else c

def b64decode (s : Text) : Option (List Byte) :=
  let norm := s.map toStandard
  atob (norm ++
    if norm.length % 4 = 2 then ['=', '='] else if norm.length % 4 = 3 then ['='] else [])

/-- The token as it is stored and mailed: `b64encode` in the browser, and
`mint_bearer_token` (URL-safe, no padding) in the server. -/
def mintToken (minter : Minter) (t : TokenBytes) : Text :=
  match minter with
  | .browser => b64encode t.bytes
  | .server => urlSafe.encode t.bytes

theorem toStandard_standard : ∀ c ∈ standard.letters, toStandard c = c :=
  Text.forall_mem_of_all (by decide)

theorem toStandard_urlSafe (x : Group) : toStandard (urlSafe.letter x) = standard.letter x :=
  Alphabet.map_letter (by decide) x

/-- Neither form of a token holds anything but letters and padding. -/
theorem letter_of_mem_mintToken {minter : Minter} {t : TokenBytes} {c : Char}
    (mem : c ∈ mintToken minter t) :
    c ∈ standard.letters ∨ c ∈ urlSafe.letters ∨ c = '=' := by
  cases minter with
  | browser =>
    rcases List.mem_append.1 mem with inside | pad
    · exact .inl (standard.letter_of_mem_encode inside)
    · exact .inr (.inr (mem_padding pad))
  | server => exact .inr (.inl (urlSafe.letter_of_mem_encode mem))

theorem mintToken_ne_nil (minter : Minter) (t : TokenBytes) : mintToken minter t ≠ [] := by
  intro empty
  have len := t.length_eq
  cases minter with
  | browser =>
    have short := congrArg List.length empty
    rw [mintToken, b64encode, btoa, List.length_append, standard.length_encode,
      List.length_nil] at short
    omega
  | server =>
    have short := congrArg List.length empty
    rw [mintToken, urlSafe.length_encode, List.length_nil] at short
    omega

/-- The letters of a token stand in a fragment as they are, and only the slash among them
cuts it. -/
theorem mintToken_letter {minter : Minter} {t : TokenBytes} {c : Char}
    (mem : c ∈ mintToken minter t) :
    fragmentSafe c = true ∧ isJsSpace c = false ∧ c ≠ '#' ∧ (c ≠ '/' → cutsToken c = false) := by
  have standards : ∀ c ∈ standard.letters, fragmentSafe c = true ∧ isJsSpace c = false ∧
      c ≠ '#' ∧ (c ≠ '/' → cutsToken c = false) := Text.forall_mem_of_all (by decide)
  have urlSafes : ∀ c ∈ urlSafe.letters, fragmentSafe c = true ∧ isJsSpace c = false ∧
      c ≠ '#' ∧ (c ≠ '/' → cutsToken c = false) := Text.forall_mem_of_all (by decide)
  rcases letter_of_mem_mintToken mem with inside | inside | rfl
  · exact standards c inside
  · exact urlSafes c inside
  · decide

/-- Six bits that are all ones are a slash in standard base 64. -/
theorem slash_mem_mintToken {minter : Minter} {t : TokenBytes} :
    '/' ∈ mintToken minter t ↔ minter = .browser ∧ 63 ∈ groups t.bytes := by
  cases minter with
  | browser =>
    have slash : standard.letter 63 = '/' := by decide
    have none_in_padding : ∀ n, '/' ∉ padding n := by
      intro n mem
      exact absurd (mem_padding mem) (by decide)
    simp only [mintToken, b64encode, btoa, List.mem_append, none_in_padding, or_false, true_and]
    rw [← slash, standard.mem_encode]
  | server =>
    have none_in_alphabet : '/' ∉ urlSafe.letters := by decide
    simp only [mintToken, reduceCtorEq, false_and, iff_false]
    exact fun mem => none_in_alphabet (urlSafe.letter_of_mem_encode mem)

/-- Without its padding, a standard text is padded again by the decoder. -/
theorem b64decode_of_map {s : Text} {bytes : List Byte}
    (norm : s.map toStandard = standard.encode bytes) : b64decode s = some bytes := by
  have len := standard.length_encode bytes
  have padded : (standard.encode bytes ++
      if (standard.encode bytes).length % 4 = 2 then ['=', '=']
      else if (standard.encode bytes).length % 4 = 3 then ['='] else []) = btoa bytes := by
    rw [btoa, padding]
    congr 1
    have cases : (standard.encode bytes).length % 4 = 0 ∨ (standard.encode bytes).length % 4 = 2 ∨
        (standard.encode bytes).length % 4 = 3 := by omega
    rcases cases with zero | two | three
    · simp [zero]
    · simp [two]
    · simp [three]
  simp only [b64decode, norm, padded]
  exact atob_btoa bytes

/-- A padded text is a multiple of four long, and is left as it is. -/
theorem b64decode_b64encode (bytes : List Byte) : b64decode (b64encode bytes) = some bytes := by
  have norm : (b64encode bytes).map toStandard = b64encode bytes := by
    apply List.map_congr_left (g := id) _ |>.trans (List.map_id _)
    intro c mem
    rcases List.mem_append.1 mem with inside | pad
    · exact toStandard_standard c (standard.letter_of_mem_encode inside)
    · rw [mem_padding pad]
      decide
  have whole : (b64encode bytes).length % 4 = 0 := by
    simp only [b64encode, btoa, padding, List.length_append, List.length_replicate]
    omega
  simp only [b64decode, norm, whole]
  simpa [b64encode] using atob_btoa bytes

/-- Either form of a token decodes to the bytes it was minted from. -/
theorem b64decode_mintToken (minter : Minter) (t : TokenBytes) :
    b64decode (mintToken minter t) = some t.bytes := by
  cases minter with
  | browser => exact b64decode_b64encode t.bytes
  | server =>
    apply b64decode_of_map
    simp only [mintToken, Alphabet.encode, List.map_map]
    exact List.map_congr_left fun x _ => toStandard_urlSafe x

/-! ## §4 Opened links -/

theorem flatMap_percentEncode {s : Text} (safe : ∀ c ∈ s, fragmentSafe c = true) :
    s.flatMap percentEncode = s := by
  induction s with
  | nil => rfl
  | cons c cs ih =>
    have here : percentEncode c = [c] := by simp [percentEncode, safe c (by simp)]
    rw [List.flatMap_cons, here, ih fun d mem => safe d (by simp [mem])]
    rfl

theorem dropWhile_to_hash {base : Text} (absent : '#' ∉ base) (fragment : Text) :
    (base ++ '#' :: fragment).dropWhile (· ≠ '#') = '#' :: fragment := by
  rw [List.dropWhile_append_of_pos]
  · rfl
  · intro c mem
    have other : c ≠ '#' := fun eq => absent (eq ▸ mem)
    simpa using other

/-- The hash is what follows the first `#`. -/
theorem locationHash_append {base fragment : Text} (absent : '#' ∉ base) (nonempty : fragment ≠ [])
    (safe : ∀ c ∈ fragment, fragmentSafe c = true) :
    locationHash (base ++ '#' :: fragment) = '#' :: fragment := by
  cases fragment with
  | nil => exact absurd rfl nonempty
  | cons c cs => simp only [locationHash, dropWhile_to_hash absent, flatMap_percentEncode safe]

theorem tokenAfter_append {head : String} {token : Text} (solid : ∀ c ∈ token, isJsSpace c = false)
    (nonempty : token ≠ []) : tokenAfter head (head.toList ++ token) = some token := by
  have trimmed : jsTrim token = token := Text.trimBy_solid solid
  simp [tokenAfter, trimmed, nonempty]

/-- A `#` inside the hash stays in what is read off it. -/
theorem hash_mem_of_tokenAfter {head : String} {raw token : Text} (absent : '#' ∉ head.toList)
    (mem : '#' ∈ raw) (read : tokenAfter head raw = some token) : '#' ∈ token := by
  unfold tokenAfter at read
  split at read
  · next starts =>
    obtain ⟨rest, rfl⟩ := starts
    have behind : '#' ∈ rest := (List.mem_append.1 mem).resolve_left absent
    simp only [List.drop_left, Option.ite_none_left_eq_some, Option.some.injEq] at read
    rw [← read.2]
    exact Text.mem_trimBy behind (by decide)
  · simp at read

theorem hash_mem_stripHash {fragment : Text} (mem : '#' ∈ fragment) :
    '#' ∈ stripHash ('#' :: fragment) := by
  cases fragment with
  | nil => simp at mem
  | cons c cs =>
    by_cases slash : c = '/'
    · subst slash
      simpa [stripHash] using mem
    · have strip : stripHash ('#' :: c :: cs) = c :: cs := by
        rw [stripHash]
        intro rest eq
        exact slash (List.cons.inj eq).1
      rwa [strip]

/-- So a base address with a `#` spoils every link. -/
theorem hash_mem_locationHash {base : Text} (mem : '#' ∈ base) (fragment : Text) :
    ∃ read, locationHash (base ++ '#' :: fragment) = '#' :: read ∧ '#' ∈ read := by
  obtain ⟨before, after, rfl, absent⟩ := List.eq_append_cons_of_mem mem
  have found := dropWhile_to_hash absent (after ++ '#' :: fragment)
  have kept : '#' ∈ (after ++ '#' :: fragment).flatMap percentEncode :=
    List.mem_flatMap.2 ⟨'#', by simp, by decide⟩
  refine ⟨_, ?_, kept⟩
  rw [List.append_assoc, List.cons_append, locationHash, found]
  cases after <;> rfl

/-- A link that is opened gives its token, if the base address has no `#`. -/
theorem locationFromHash_claimUrl (base : Text) {token : Text} (nonempty : token ≠ [])
    (letters : ∀ c ∈ token, fragmentSafe c = true ∧ isJsSpace c = false ∧ c ≠ '#') :
    locationFromHash (locationHash (base ++ "/#/claim/".toList ++ token)) = .claim token ↔
      '#' ∉ base := by
  have link : base ++ "/#/claim/".toList ++ token =
      (base ++ ['/']) ++ '#' :: '/' :: ("claim/".toList ++ token) := by simp
  have solid : ∀ c ∈ token, isJsSpace c = false := fun c mem => (letters c mem).2.1
  rw [link]
  constructor
  -- the browser cuts at the first `#`, and none stands in a token
  · intro opened mem
    obtain ⟨read, eq, inside⟩ := hash_mem_locationHash (List.mem_append_left ['/'] mem)
      ('/' :: ("claim/".toList ++ token))
    have behind := hash_mem_stripHash inside
    have absurdly : '#' ∈ token := by
      rw [eq, locationFromHash] at opened
      split at opened
      · next found read_token =>
        have same : found = token := Location.claim.inj opened
        exact same ▸ hash_mem_of_tokenAfter (by decide) behind read_token
      · repeat' split at opened
        all_goals simp at opened
    exact (letters _ absurdly).2.2 rfl
  -- without one the fragment is what was appended
  · intro absent
    have safe : ∀ c ∈ '/' :: ("claim/".toList ++ token), fragmentSafe c = true := by
      have head_safe : ∀ c ∈ '/' :: "claim/".toList, fragmentSafe c = true :=
        Text.forall_mem_of_all (by decide)
      intro c mem
      rw [← List.cons_append] at mem
      rcases List.mem_append.1 mem with head | inside
      · exact head_safe c head
      · exact (letters c inside).1
    rw [locationHash_append (by simpa using absent) (by simp) safe, locationFromHash]
    simp only [stripHash, tokenAfter_append solid nonempty]

/-! ## §5 Pasted links -/

/-- What is read off a pasted text has no slash. -/
theorem extractClaimToken_uncut {input tok : Text} (read : extractClaimToken input = some tok) :
    '/' ∉ tok := by
  simp only [extractClaimToken, Option.ite_none_left_eq_some, Option.some.injEq] at read
  obtain ⟨-, -, rfl⟩ := read
  intro mem
  exact absurd (List.mem_takeWhile_imp mem) (by decide)

theorem takeWhile_uncut {token : Text} (uncut : ∀ c ∈ token, cutsToken c = false) :
    token.takeWhile (fun c => !cutsToken c) = token :=
  List.takeWhile_eq_self_iff.2 fun c mem => by simp [uncut c mem]

theorem not_space_of_uncut {token : Text} (uncut : ∀ c ∈ token, cutsToken c = false) :
    ∀ c ∈ token, isJsSpace c = false := by
  intro c mem
  have not_cut := uncut c mem
  simp only [cutsToken, Bool.or_eq_false_iff] at not_cut
  exact not_cut.2

theorem count_slash_of_uncut {token : Text} (uncut : ∀ c ∈ token, cutsToken c = false) :
    token.count '/' = 0 :=
  List.count_eq_zero.2 fun mem => absurd (uncut _ mem) (by decide)

/-- A bare token is taken as it is. -/
theorem extractClaimToken_token {token : Text} (nonempty : token ≠ [])
    (uncut : ∀ c ∈ token, cutsToken c = false) : extractClaimToken token = some token := by
  have unmarked : Text.findLast claimMarker token = none :=
    Text.findLast_eq_none (c := '/') (by rw [count_slash_of_uncut uncut]; decide)
  have trimmed : jsTrim token = token := Text.trimBy_solid (not_space_of_uncut uncut)
  simp [extractClaimToken, trimmed, unmarked, takeWhile_uncut uncut, nonempty]

/-- Out of a link, the token is what the last `/claim/` stands in front of. -/
theorem extractClaimToken_claimUrl {base token : Text} (nonempty : token ≠ [])
    (uncut : ∀ c ∈ token, cutsToken c = false) :
    extractClaimToken (base ++ "/#/claim/".toList ++ token) = some token := by
  have marker : "/#/claim/".toList = ['/', '#'] ++ claimMarker := by decide
  have solid : ∀ c ∈ "/#/claim/".toList ++ token, isJsSpace c = false := by
    have marker_solid : ∀ c ∈ "/#/claim/".toList, isJsSpace c = false :=
      Text.forall_mem_of_all (by decide)
    intro c mem
    rcases List.mem_append.1 mem with front | inside
    · exact marker_solid c front
    · exact not_space_of_uncut uncut c inside
  have trimmed : jsTrim (base ++ "/#/claim/".toList ++ token) =
      (base.dropWhile isJsSpace ++ ['/', '#']) ++ (claimMarker ++ token) := by
    rw [jsTrim, List.append_assoc, Text.trimBy_append solid (by simp), marker]
    simp
  -- the marker has two slashes, and only one is left behind its first letter
  have found : Text.findLast claimMarker
      ((base.dropWhile isJsSpace ++ ['/', '#']) ++ (claimMarker ++ token)) =
      some (base.dropWhile isJsSpace ++ ['/', '#']).length := by
    apply Text.findLast_weave (d := '/')
    rw [List.count_append, count_slash_of_uncut uncut]
    decide
  have rest : ((base.dropWhile isJsSpace ++ ['/', '#']) ++ (claimMarker ++ token)).drop
      ((base.dropWhile isJsSpace ++ ['/', '#']).length + claimMarker.length) = token := by
    rw [← List.append_assoc, ← List.length_append, List.drop_left]
  simp only [extractClaimToken, trimmed, found, rest, takeWhile_uncut uncut]
  simp [claimMarker, nonempty]

/-! ## §6 Round trips -/

/-- What the claim page relies on: the token is read off its link, opened or pasted, and
off itself, and decodes to the bytes the key was sealed under. -/
structure RoundTrips (S : Server) (minter : Minter) (t : TokenBytes) : Prop where
  opened : locationFromHash (locationHash (S.claimUrl (.ofList (mintToken minter t))).toList) =
    .claim (mintToken minter t)
  pasted_link : extractClaimToken (S.claimUrl (.ofList (mintToken minter t))).toList =
    some (mintToken minter t)
  pasted_token : extractClaimToken (mintToken minter t) = some (mintToken minter t)
  decoded : b64decode (mintToken minter t) = some t.bytes

theorem claimUrl_toList (S : Server) (token : Text) :
    (S.claimUrl (.ofList token)).toList =
      S.publicBaseUrl.toList ++ "/#/claim/".toList ++ token := by
  simp [Server.claimUrl]

/-- A claim link works both opened and pasted exactly when the base address has no `#` and,
for a token from a browser, no six bits of it are all ones. -/
theorem roundTrips_iff (S : Server) (minter : Minter) (t : TokenBytes) :
    RoundTrips S minter t ↔
      '#' ∉ S.publicBaseUrl.toList ∧ (minter = .browser → 63 ∉ groups t.bytes) := by
  have nonempty := mintToken_ne_nil minter t
  have letters : ∀ c ∈ mintToken minter t,
      fragmentSafe c = true ∧ isJsSpace c = false ∧ c ≠ '#' := by
    intro c mem
    obtain ⟨safe, solid, other, -⟩ := mintToken_letter mem
    exact ⟨safe, solid, other⟩
  have opens := locationFromHash_claimUrl S.publicBaseUrl.toList nonempty letters
  constructor
  -- a `#` in the base spoils the opened link, a `/` in the token the pasted one
  · intro trips
    constructor
    · have opened := trips.opened
      rw [claimUrl_toList] at opened
      exact opens.1 opened
    · intro browser ones
      exact extractClaimToken_uncut trips.pasted_token (slash_mem_mintToken.2 ⟨browser, ones⟩)
  · intro ⟨absent, no_ones⟩
    have uncut : ∀ c ∈ mintToken minter t, cutsToken c = false := by
      intro c mem
      apply (mintToken_letter mem).2.2.2
      rintro rfl
      obtain ⟨browser, ones⟩ := slash_mem_mintToken.1 mem
      exact no_ones browser ones
    exact
      { opened := by rw [claimUrl_toList]; exact opens.2 absent
        pasted_link := by rw [claimUrl_toList]; exact extractClaimToken_claimUrl nonempty uncut
        pasted_token := extractClaimToken_token nonempty uncut
        decoded := b64decode_mintToken minter t }

/-- The token of 32 bytes that are all ones. -/
def allOnes : TokenBytes := ⟨List.replicate 32 255, rfl⟩

/-- In a browser that token is made of slashes, and nothing of it is left. -/
theorem not_roundTrips : ¬ ∀ (S : Server) (minter : Minter) (t : TokenBytes),
    '#' ∉ S.publicBaseUrl.toList → RoundTrips S minter t := by
  intro trips
  have pasted := (trips (Deployment.host 0) .browser allOnes (by decide)).pasted_token
  have slash : '/' ∈ mintToken .browser allOnes :=
    slash_mem_mintToken.2 ⟨rfl, by decide⟩
  exact extractClaimToken_uncut pasted slash

end GhostKey

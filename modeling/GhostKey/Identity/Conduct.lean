import GhostKey.Identity

/-!
# What a Handler of the Owner's Address Does

Before each of its actions a handler has seen what calls for it: a mail follows the
reservation that allows it, a confirmation the token it was shown. `Sound` says so for
every action, in terms of the handler's own history.

Main results:
- `goes_sendContactVerification`: one request for a confirmation mail.
- `meets_program`: every handler, from its first action to its reply.
-/

namespace GhostKey

namespace Identity

open Foundation Program

/-! ## §1 What a handler has seen -/

/-- The handler has read the clock. -/
def Clocked (h : DeskHist) (t : Instant) : Prop := (⟨.now, t⟩ : DeskEv) ∈ h

/-- The handler has drawn the token. -/
def Drew (h : DeskHist) (token : Token) : Prop := (⟨.bearerToken, token⟩ : DeskEv) ∈ h

/-- The handler was answered `a`. -/
def Read (h : DeskHist) (q : DeskQuery) (a : q.Result) : Prop := (⟨.query q, .ok a⟩ : DeskEv) ∈ h

/-- The statement has gone through and affected `n` rows. -/
def Ran (h : DeskHist) (st : DeskStmt) (n : Nat) : Prop := (⟨.exec st, .ok n⟩ : DeskEv) ∈ h

/-- An attempt to insert a vault. -/
def DeskAction.inserts : DeskAction → Bool
  | exec (.insertVault _) => true
  | _ => false

/-- An attempt to reserve a confirmation mail. -/
def DeskAction.reserves : DeskAction → Bool
  | exec (.reserveSend _ _ _) => true
  | exec (.reserveToken _ _ _ _) => true
  | _ => false

/-- An attempt to queue a mail of the kind. -/
def DeskAction.mails (kind : LetterKind) : DeskAction → Bool
  | exec (.enqueue l) => l.kind = kind
  | _ => false

/-- An attempt to open a challenge. -/
def DeskAction.opens : DeskAction → Bool
  | openChallenge _ _ _ => true
  | _ => false

/-- The handler has not come to such an action. -/
def Without (is : DeskAction → Bool) (h : DeskHist) : Prop := ∀ e ∈ h, is e.action = false

section Handler

variable (S : Server) (q : DeskRequest) (h : DeskHist)

/-- The start of the waiting time of a confirmation mail. -/
def sendCutoff (t : Instant) : Instant := t - seconds verifyResendCooldownSecs

/-- The contact of `id` on file, which the handler has read or inserted, is the address. -/
def OnFile (id : VaultId) (email : String) : Prop :=
  ∃ r ct nonce, (Read h (.account id) (some r) ∨ r.id = id ∧ ∃ n, Ran h (.insertVault r) n) ∧
    r.contact = ⟨some ct, some nonce, some "email"⟩ ∧
      (S.openForVault id ct nonce = .ok email ∨ S.sealForVault id email = .ok (ct, nonce))

/-- The handler has found the hash on file for the vault. -/
def Hashed (id : VaultId) (hash : Option Hash) : Prop :=
  ∃ r, Read h (.account id) (some r) ∧ r.ownerEmailHash = hash

/-- The handler was granted a confirmation mail at `t`, by the hash or by the vault, and
stored the token's hash. -/
def Granted (id : VaultId) (token : Token) (t : Instant) : Prop :=
  (∃ hash n, Hashed h id (some hash) ∧
    Ran h (.reserveSend hash (timestamp t) (timestamp (sendCutoff t))) 1 ∧
      Ran h (.setToken id (S.hashClaimToken token) t) n) ∨
  Hashed h id none ∧ Ran h (.reserveToken id (S.hashClaimToken token) t (sendCutoff t)) 1

/-- The handler was shown a token that fits the row it has read, and in time. -/
def Shown (id : VaultId) (r : Account) (stored : Hash) : Prop :=
  ∃ token t, q = .verifyContact id token ∧ Read h (.account id) (some r) ∧
    r.verifyTokenHash = some stored ∧ S.claimTokenMatches token stored = true ∧ Clocked h t ∧
      verifyTokenExpired r.verifySentAt t = false ∧ r.verifiedAt = none

/-- The handler has found the newest vault of the hash, and its address. -/
def Newest (hash : Hash) (id : VaultId) (email : String) : Prop :=
  ∃ (rows : List Account) (r : Account), Read h (.passwordVaults hash) rows ∧
    rows.head? = some r ∧ r.id = id ∧
      parseOwnerContact S id r.contact = .ok (some ⟨email, .email⟩)

/-- The challenge of a token at `t` is what the handler has opened. -/
def Opened (hash : Hash) (token : Token) (t : Instant) : Prop :=
  (⟨.openChallenge (newChallenge (S.hashClaimToken token) hash t)
    (t - minutes ownerRecoveryCooldownMinutes) (t - hours ownerRecoveryUsedRetentionHours),
      .ok true⟩ : DeskEv) ∈ h

/-- The handler has reason to write the letter. -/
def Lettered (l : Letter) : Prop :=
  match l.kind with
  | .contactVerification => ∃ token t, Drew h token ∧ Clocked h t ∧
      l.link = some (verifyUrl S l.vaultId token) ∧ OnFile S h l.vaultId l.recipient ∧
        Granted S h l.vaultId token t
  | .ownerRecovery => ∃ token hash t, Drew h token ∧ Clocked h t ∧
      l.link = some (recoverUrl S token) ∧ Newest S h hash l.vaultId l.recipient ∧
        Opened S h hash token t
  | .welcome => True

/-- What a handler has seen before its next action. -/
def Sound : DeskAction → Prop
  | .exec (.insertVault r) => Without DeskAction.inserts h ∧ (⟨.uuid, r.id⟩ : DeskEv) ∈ h ∧
      r.verifiedAt = none ∧ r.verifyTokenHash = none ∧ r.verifySentAt = none ∧
        ∀ hash, r.ownerEmailHash = some hash → hash.toList.all isHexDigit = true
  | .exec (.setInitialStatus id) => ∃ r n, Ran h (.insertVault r) n ∧ r.id = id
  | .exec (.setVerified id _) => ∃ r hash n, Ran h (.insertVault r) n ∧ r.id = id ∧
      r.ownerEmailHash = some hash ∧ r.ownerXpub.isSome = true ∧
        Read h (.verifiedSibling hash (r.ownerXpub.getD "") id) true
  | .exec (.reserveSend hash now cutoff) => Without DeskAction.reserves h ∧ ∃ id t,
      Hashed h id (some hash) ∧ Clocked h t ∧ now = timestamp t ∧
        cutoff = timestamp (sendCutoff t)
  | .exec (.reserveToken id tokenHash t cutoff) => Without DeskAction.reserves h ∧ ∃ token,
      Hashed h id none ∧ Drew h token ∧ tokenHash = S.hashClaimToken token ∧ Clocked h t ∧
        cutoff = sendCutoff t
  | .exec (.setToken id tokenHash t) => ∃ hash token, Hashed h id (some hash) ∧ Drew h token ∧
      tokenHash = S.hashClaimToken token ∧ Clocked h t ∧
        Ran h (.reserveSend hash (timestamp t) (timestamp (sendCutoff t))) 1
  | .exec (.confirm id stored _) => ∃ r, Shown S q h id r stored
  | .exec (.confirmSibling id _) => ∃ (id' : VaultId) (r : Account) (stored hash : Hash)
      (ids : List VaultId), Shown S q h id' r stored ∧
      r.ownerEmailHash = some hash ∧ Read h (.unverifiedSiblings hash r.ownerXpub id') ids ∧ id ∈ ids
  | .exec (.enqueue l) => (l.kind ≠ .welcome → Without (DeskAction.mails l.kind) h) ∧ Lettered S h l
  | .openChallenge c cooldown retention => Without DeskAction.opens h ∧ ∃ hash id email token t,
      Newest S h hash id email ∧ Drew h token ∧ Clocked h t ∧
        c = newChallenge (S.hashClaimToken token) hash t ∧
          cooldown = t - minutes ownerRecoveryCooldownMinutes ∧
            retention = t - hours ownerRecoveryUsedRetentionHours
  | .exec (.deleteVault id) => q = .deleteVault id
  | .redeem tokenHash t => Clocked h t ∧ ∃ token, q = .exchangeOwnerRecovery token ∧
      tokenHash = S.hashClaimToken (trim token)
  | _ => True

/-- A bundle shows a row, with the sealed material as it was loaded. -/
def Bundled (r : Account) (b : OwnerRecoveryBundle) : Prop :=
  b.vault = foundVault r ∧
    ∃ r', Read h (.account r.id) (some r') ∧ sealedBlobs r' = some b.sealedBlobs

/-- What an exchange returns comes from the rows of a redeemed challenge's hash. -/
def Exchanged (x : OwnerRecoveryExchange) : Prop :=
  ∃ (token : Token) (hash : Hash) (t : Instant) (rows : List Account),
    q = .exchangeOwnerRecovery token ∧
    (⟨.redeem (S.hashClaimToken (trim token)) t, .ok (some hash)⟩ : DeskEv) ∈ h ∧
    Read h (.passwordVaults hash) rows ∧
    ∀ b ∈ x.vaults, ∃ r ∈ rows, Bundled h r b

variable {S q h} {g : DeskHist} {id : VaultId} {email : String} {α : Type}

theorem without_nil {is : DeskAction → Bool} : Without is [] := fun _ mem => absurd mem (by simp)

theorem Without.snoc {is : DeskAction → Bool} {e : DeskEv} (without : Without is h)
    (other : is e.action = false) : Without is (h ++ [e]) := by
  intro e' mem
  rcases List.mem_append.1 mem with old | new
  · exact without e' old
  · rw [List.mem_singleton.1 new]
    exact other

theorem OnFile.mono (file : OnFile S h id email) (sub : h ⊆ g) : OnFile S g id email := by
  obtain ⟨r, ct, nonce, known, rest⟩ := file
  exact ⟨r, ct, nonce, known.imp (fun read => sub read) fun ⟨same, n, ran⟩ => ⟨same, n, sub ran⟩,
    rest⟩

theorem Hashed.mono {hash : Option Hash} (hashed : Hashed h id hash) (sub : h ⊆ g) :
    Hashed g id hash := by
  obtain ⟨r, read, same⟩ := hashed
  exact ⟨r, sub read, same⟩

theorem Granted.mono {token : Token} {t : Instant} (granted : Granted S h id token t)
    (sub : h ⊆ g) : Granted S g id token t := by
  rcases granted with ⟨hash, n, hashed, reserved, stored⟩ | ⟨hashed, reserved⟩
  · exact .inl ⟨hash, n, hashed.mono sub, sub reserved, sub stored⟩
  · exact .inr ⟨hashed.mono sub, sub reserved⟩

theorem Newest.mono {hash : Hash} (newest : Newest S h hash id email) (sub : h ⊆ g) :
    Newest S g hash id email := by
  obtain ⟨rows, r, read, rest⟩ := newest
  exact ⟨rows, r, sub read, rest⟩

theorem Lettered.mono {l : Letter} (lettered : Lettered S h l) (sub : h ⊆ g) :
    Lettered S g l := by
  unfold Lettered at lettered ⊢
  split at lettered
  · obtain ⟨token, t, drew, clocked, link, file, granted⟩ := lettered
    exact ⟨token, t, sub drew, sub clocked, link, file.mono sub, granted.mono sub⟩
  · obtain ⟨token, hash, t, drew, clocked, link, newest, opened⟩ := lettered
    exact ⟨token, hash, t, sub drew, sub clocked, link, newest.mono sub, sub opened⟩
  · trivial

theorem Shown.mono {r : Account} {stored : Hash} (shown : Shown S q h id r stored)
    (sub : h ⊆ g) : Shown S q g id r stored := by
  obtain ⟨token, t, same, read, fits, ok, clocked, rest⟩ := shown
  exact ⟨token, t, same, sub read, fits, ok, sub clocked, rest⟩

variable (S q) in
/-- Every action is sound, whatever comes of it. -/
abbrev Goes (p : DeskProg α) (h : DeskHist) : Prop :=
  Meets (fun h e => Sound S q h e.action) (fun _ _ => True) p h

theorem Goes.bind {β : Type} {p : DeskProg α} {f : α → DeskProg β} (goes : Goes S q p h)
    (next : ∀ g x, h <+: g → Goes S q (f x) g) : Goes S q (p.bind f) h :=
  Meets.bind goes (fun g x grown _ => next g x grown) fun _ _ _ _ => trivial

theorem Goes.attempt {p : DeskProg α} (goes : Goes S q p h) :
    Goes S q (p.attempt : DeskProg (Except RouteError α)) h :=
  Meets.attempt goes fun _ _ _ => trivial

theorem Goes.ite {c : Prop} [Decidable c] {p p' : DeskProg α} (yes : c → Goes S q p h)
    (no : ¬ c → Goes S q p' h) : Goes S q (if c then p else p') h := by
  split
  · next holds => exact yes holds
  · next fails => exact no fails

/-! ## §2 Mails -/

theorem goes_enqueue {kind : LetterKind} {link : Option String}
    (first : kind ≠ .welcome → Without (DeskAction.mails kind) h)
    (lettered : ∀ t, Lettered S h ⟨kind, id, email, link, t⟩) :
    Goes S q (enqueue S kind id email link) h := by
  unfold enqueue
  cases S.sealForVault id email with
  | error e => trivial
  | ok sealed =>
    intro t
    refine ⟨trivial, fun n => ⟨⟨fun kept => (first kept).snoc rfl, (lettered t).mono (List.subset_append_left _ _)⟩, ?_⟩⟩
    cases n <;> trivial

theorem goes_mailVerification {token : Token} {t : Instant}
    (first : Without (DeskAction.mails .contactVerification) h) (file : OnFile S h id email)
    (drew : Drew h token) (clocked : Clocked h t) (granted : Granted S h id token t) :
    Goes S q (mailVerification S id email token) h := by
  have letter : ∀ t', Lettered S h ⟨.contactVerification, id, email,
      some (verifyUrl S id token), t'⟩ := fun _ => ⟨token, t, drew, clocked, rfl, file, granted⟩
  refine (goes_enqueue (fun _ => first) letter).attempt.bind fun g sent _ => ?_
  cases sent <;> trivial

/-- One request for a confirmation mail: the reservation, the token, the mail. -/
theorem goes_sendContactVerification (unreserved : Without DeskAction.reserves h)
    (unmailed : Without (DeskAction.mails .contactVerification) h) (file : OnFile S h id email) :
    Goes S q (sendContactVerification S id email) h := by
  intro token
  refine ⟨trivial, fun (t : Instant) => ⟨trivial, fun row => ⟨trivial, ?_⟩⟩⟩
  cases row with
  | error e => trivial
  | ok row =>
    cases row with
    | none => trivial
    | some r =>
      -- what the history holds once the row is read
      generalize before : h ++ [⟨.bearerToken, token⟩] ++ [⟨.now, t⟩] ++
        [⟨.query (.account id), .ok (some r)⟩] = g
      have sub : h ⊆ g := by
        rw [← before, List.append_assoc, List.append_assoc]
        exact List.subset_append_left _ _
      have drew : Drew g token := by rw [← before]; simp [Drew]
      have clocked : Clocked g t := by rw [← before]; simp [Clocked]
      have read : Read g (.account id) (some r) := by rw [← before]; simp [Read]
      have unreserved : Without DeskAction.reserves g := by
        rw [← before]
        exact ((unreserved.snoc rfl).snoc rfl).snoc rfl
      have unmailed : Without (DeskAction.mails .contactVerification) g := by
        rw [← before]
        exact ((unmailed.snoc rfl).snoc rfl).snoc rfl
      have file := file.mono sub
      clear before
      show Goes S q (Program.bind (.done (some r)) _) g
      dsimp only [Program.bind, Option.map]
      cases hash : r.ownerEmailHash with
      -- with an e-mail hash the cooldown is the address's
      | some emailHash =>
        intro reserved
        refine ⟨⟨unreserved, id, t, ⟨r, read, hash⟩, clocked, rfl, rfl⟩, ?_⟩
        cases reserved with
        | error e => trivial
        | ok n =>
          show Goes S q (if n ≠ 1 then _ else _) _
          split
          · trivial
          · next one =>
            -- the reservation was granted, so this request is the one that mails
            have one : n = 1 := by simpa using one
            subst one
            let reservation : DeskEv := ⟨.exec (.reserveSend emailHash (timestamp t)
              (timestamp (sendCutoff t))), .ok 1⟩
            have sub : g ⊆ g ++ [reservation] := List.subset_append_left _ _
            have ran : Ran (g ++ [reservation]) (.reserveSend emailHash (timestamp t)
              (timestamp (sendCutoff t))) 1 := by simp [Ran, reservation]
            have hashed : Hashed (g ++ [reservation]) id (some emailHash) := ⟨r, sub read, hash⟩
            intro stored
            refine ⟨⟨emailHash, token, hashed, sub drew, rfl, sub clocked, ran⟩, ?_⟩
            cases stored with
            | error e => trivial
            | ok n =>
              have later := List.subset_append_left (g ++ [reservation])
                [⟨.exec (.setToken id (S.hashClaimToken token) t), .ok n⟩]
              refine goes_mailVerification ((unmailed.snoc rfl).snoc rfl)
                (file.mono (List.Subset.trans sub later)) (later (sub drew)) (later (sub clocked)) (.inl ?_)
              exact ⟨emailHash, n, hashed.mono later, later ran, by simp [Ran]⟩
      -- without one the row's own token carries the cooldown
      | none =>
        intro reserved
        refine ⟨⟨unreserved, token, ⟨r, read, hash⟩, drew, rfl, clocked, rfl⟩, ?_⟩
        cases reserved with
        | error e => trivial
        | ok n =>
          show Goes S q (if n ≠ 1 then _ else _) _
          split
          · trivial
          · next one =>
            have one : n = 1 := by simpa using one
            subst one
            have later := List.subset_append_left g [⟨.exec (.reserveToken id
              (S.hashClaimToken token) t (t - seconds verifyResendCooldownSecs)), .ok 1⟩]
            refine goes_mailVerification (unmailed.snoc rfl) (file.mono later) (later drew)
              (later clocked) (.inr ⟨⟨r, later read, hash⟩, ?_⟩)
            simp [Ran, sendCutoff]

/-! ## §3 Creations -/

/-- Neither inserts, reserves, mails nor opens. -/
def DeskAction.plain : DeskAction → Bool
  | now => true
  | uuid => true
  | query _ => true
  | exec (.setInitialStatus _) => true
  | exec (.insertEvent _ _) => true
  | _ => false

/-- A history of which nothing has come yet. -/
def Plain (h : DeskHist) : Prop := ∀ e ∈ h, e.action.plain = true

theorem plain_nil : Plain [] := fun _ mem => absurd mem (by simp)

theorem Plain.snoc {e : DeskEv} (plain : Plain h) (other : e.action.plain = true) :
    Plain (h ++ [e]) := by
  intro e' mem
  rcases List.mem_append.1 mem with old | new
  · exact plain e' old
  · rw [List.mem_singleton.1 new]
    exact other

theorem Plain.without {is : DeskAction → Bool} (plain : Plain h)
    (apart : ∀ a, a.plain = true → is a = false) : Without is h :=
  fun e mem => apart e.action (plain e mem)

theorem plain_inserts (a : DeskAction) (plain : a.plain = true) : a.inserts = false := by
  cases a with
  | exec st => cases st <;> first | rfl | cases plain
  | _ => rfl

theorem plain_reserves (a : DeskAction) (plain : a.plain = true) : a.reserves = false := by
  cases a with
  | exec st => cases st <;> first | rfl | cases plain
  | _ => rfl

theorem plain_mails {kind : LetterKind} (a : DeskAction) (plain : a.plain = true) :
    a.mails kind = false := by
  cases a with
  | exec st => cases st <;> first | rfl | cases plain
  | _ => rfl

theorem goes_recordEvent (kind : String) : Goes S q (recordEvent id kind) h := by
  intro n
  refine ⟨trivial, ?_⟩
  cases n <;> trivial

/-- What a vault without a confirmed sibling asks of its owner. -/
def asksToConfirm (S : Server) (r : Account) (given : Option String) : DeskProg (Option Bool) :=
  match given with
  | none => .done (some false)
  | some email =>
      ((sendContactVerification S r.id email).attempt : DeskProg (Except RouteError Unit)).bind
        fun _ => .done (some false)

theorem goes_asksToConfirm {r : Account} {given : Option String}
    (unreserved : Without DeskAction.reserves h)
    (unmailed : Without (DeskAction.mails .contactVerification) h)
    (file : ∀ email, given = some email → OnFile S h r.id email) :
    Goes S q (asksToConfirm S r given) h := by
  cases given with
  | none => trivial
  | some email =>
    exact (goes_sendContactVerification unreserved unmailed (file email rfl)).attempt.bind
      fun _ _ _ => trivial

/-- Once the vault is inserted: the confirmation is taken over, or asked for. -/
theorem goes_startVerification {r : Account} {given : Option String} {n : Nat}
    (ran : Ran h (.insertVault r) n) (unreserved : Without DeskAction.reserves h)
    (unmailed : Without (DeskAction.mails .contactVerification) h)
    (xpub : r.ownerXpub.isSome = true)
    (file : ∀ email, given = some email → r.contact.ciphertext.isSome = true →
      r.contact.channel = some "email" → OnFile S h r.id email) :
    Goes S q (startVerification S r given) h := by
  unfold startVerification
  split
  · next mailed =>
    have mailed : r.contact.ciphertext.isSome = true ∧ r.contact.channel = some "email" := by
      simpa using mailed
    have asks : ∀ g, h ⊆ g → Without DeskAction.reserves g →
        Without (DeskAction.mails .contactVerification) g → Goes S q (asksToConfirm S r given) g :=
      fun g sub unreserved unmailed => goes_asksToConfirm unreserved unmailed
        fun email given => (file email given mailed.1 mailed.2).mono sub
    -- a confirmed sibling lends its confirmation, anyone else is asked
    show Goes S q ((confirmedSibling r).bind fun sibling => _) h
    unfold confirmedSibling
    cases hash : r.ownerEmailHash with
    | none => exact asks h (List.Subset.refl h) unreserved unmailed
    | some hash' =>
      intro sibling
      refine ⟨trivial, ?_⟩
      cases sibling with
      | error e => trivial
      | ok sibling =>
        have sub := List.subset_append_left h [⟨.query (.verifiedSibling hash'
          (r.ownerXpub.getD "") r.id), .ok sibling⟩]
        cases sibling with
        | false => exact asks _ sub (unreserved.snoc rfl) (unmailed.snoc rfl)
        | true =>
          intro n'
          refine ⟨⟨r, hash', n, sub ran, rfl, hash, xpub, by simp [Read]⟩, ?_⟩
          cases n' with
          | error e => trivial
          | ok n' => exact (goes_recordEvent _).bind fun _ _ _ => trivial
  · trivial

/-- The sealed material is checked, and nothing but a read is done. -/
theorem admitSetup_admits {setup : Option SealedSetup} {ownerXpub : String} (plain : Plain h) :
    Meets (fun h e => Sound S q h e.action)
      (fun g x => x = .ok () → Plain g ∧
        ∀ s, setup = some s → s.ownerEmailHash.toList.all isHexDigit = true)
      (admitSetup setup ownerXpub) h := by
  unfold admitSetup
  cases setup with
  | none => exact fun _ => ⟨plain, fun s none => by cases none⟩
  | some s =>
    dsimp only
    cases valid : validateSealed s with
    | error e => exact fun wrong => by cases wrong
    | ok =>
      -- what the shape check says of the hash
      have hex : s.ownerEmailHash.toList.all isHexDigit = true := by
        unfold validateSealed at valid
        split at valid
        · cases valid
        · split at valid
          · cases valid
          · next shaped =>
            simp only [Bool.not_eq_true', not_or, Bool.not_eq_false, ne_eq, not_not] at shaped
            exact shaped.2
      intro conflict
      refine ⟨trivial, ?_⟩
      cases conflict with
      | error e => exact fun wrong => by cases wrong
      | ok conflict =>
        cases conflict with
        | true => exact fun wrong => by cases wrong
        | false =>
          refine fun _ => ⟨plain.snoc rfl, fun s' same => ?_⟩
          cases same
          exact hex

theorem goes_createVault (req : CreateRequest) : Goes S q (createVault req) [] := by
  intro id
  refine ⟨trivial, fun (t : Instant) => ⟨trivial, fun n => ⟨?_, ?_⟩⟩⟩
  · refine ⟨((without_nil.snoc rfl).snoc rfl), by simp [newAccount], rfl, rfl, rfl, ?_⟩
    intro hash none
    cases none
  · cases n with
    | error e => trivial
    | ok n =>
      intro n'
      refine ⟨⟨newAccount id req t .none none none, n, by simp [Ran], rfl⟩, ?_⟩
      cases n' with
      | error e => trivial
      | ok n' => exact (goes_recordEvent _).bind fun _ _ _ => trivial

theorem goes_createKeyed (req : CreateRequest) (ownerXpub : String)
    (setup : Option SealedSetup) : Goes S q (createKeyed S req ownerXpub setup) [] := by
  intro (id : VaultId)
  refine ⟨trivial, fun (t : Instant) => ⟨trivial, ?_⟩⟩
  have drawn : (⟨.uuid, id⟩ : DeskEv) ∈ ([] ++ [⟨.uuid, id⟩] ++ [⟨.now, t⟩] : DeskHist) := by simp
  have plain : Plain ([] ++ [⟨.uuid, id⟩] ++ [⟨.now, t⟩]) := (plain_nil.snoc rfl).snoc rfl
  revert drawn plain
  generalize ([] ++ [⟨.uuid, id⟩] ++ [⟨.now, t⟩] : DeskHist) = h
  intro drawn plain
  show Goes S q ((crypto (sealOpt S id req.ownerContact)).bind fun contact => _) h
  -- the contact is sealed before anything is written
  cases sealed : sealOpt S id req.ownerContact with
  | error e => trivial
  | ok contact =>
    show Goes S q ((admitSetup setup ownerXpub).bind fun _ => _) h
    refine Meets.bind (admitSetup_admits plain) ?_ fun _ _ _ _ => trivial
    intro g _ grown admitted
    obtain ⟨plain, hex⟩ := admitted rfl
    intro n
    refine ⟨⟨plain.without plain_inserts, grown.subset drawn, rfl, rfl, rfl, ?_⟩, ?_⟩
    -- the INSERT files a hash that the admission has checked
    · intro hash given
      obtain ⟨s, present, rfl⟩ := Option.map_eq_some_iff.1 given
      exact hex s present
    · cases n with
      | error e => trivial
      | ok n =>
        -- from here on only the row's fields matter
        generalize row : newAccount id req t (sealedContact contact
          (channelOrEmail req.ownerContactChannel contact)) (some ownerXpub) setup = r
        have here : r.id = id := by rw [← row]; rfl
        have ran : Ran (g ++ [⟨.exec (.insertVault r), .ok n⟩]) (.insertVault r) n := by simp [Ran]
        have unreserved : Without DeskAction.reserves (g ++ [⟨.exec (.insertVault r), .ok n⟩]) :=
          (plain.without plain_reserves).snoc rfl
        have unmailed : Without (DeskAction.mails .contactVerification)
            (g ++ [⟨.exec (.insertVault r), .ok n⟩]) := (plain.without plain_mails).snoc rfl
        intro n'
        refine ⟨⟨r, n, ran, here⟩, ?_⟩
        cases n' with
        | error e => trivial
        | ok n' =>
          intro n''
          refine ⟨trivial, ?_⟩
          cases n'' with
          | error e => trivial
          | ok n'' =>
            -- the row is filed, so the first confirmation mail may go out
            refine (goes_startVerification (n := n) (by simp [Ran])
              ((unreserved.snoc rfl).snoc rfl) ((unmailed.snoc rfl).snoc rfl)
              (by rw [← row]; rfl) ?_).bind fun _ _ _ => trivial
            intro email given present channel
            rw [← row] at present channel
            have some_contact : ∃ ct nonce, contact = some (ct, nonce) := by
              cases contact with
              | none => cases present
              | some pair => exact ⟨pair.1, pair.2, rfl⟩
            obtain ⟨ct, nonce, rfl⟩ := some_contact
            refine ⟨r, ct, nonce, .inr ⟨rfl, n, by simp [Ran]⟩, ?_, .inr ?_⟩
            · rw [← row]
              have channel : channelOrEmail req.ownerContactChannel (some (ct, nonce)) =
                some "email" := channel
              simp [newAccount, sealedContact, channel]
            -- the stored ciphertext is what sealing the given address yields
            · rw [here]
              rw [given] at sealed
              unfold sealOpt at sealed
              split at sealed
              · cases sealed
              · next pt filtered =>
                have same : email = pt := by
                  simpa using (Option.filter_eq_some_iff.1 filtered).1
                subst same
                cases done : S.sealForVault id email with
                | error e =>
                  rw [done] at sealed
                  cases sealed
                | ok pair =>
                  rw [done] at sealed
                  cases sealed
                  rfl

/-! ## §4 Confirmations -/

theorem goes_rejectConflictingRow (r : Account) : Goes S q (rejectConflictingRow r) h := by
  unfold rejectConflictingRow
  split
  · intro conflict
    refine ⟨trivial, ?_⟩
    rcases conflict with e | _ | _ <;> trivial
  · trivial

theorem goes_welcome (won : Nat) : Goes S q (welcome S id won) h := by
  unfold welcome
  split
  · have mailed : Goes S q (sendWelcomeEmail S id) h := by
      intro row
      refine ⟨trivial, ?_⟩
      cases row with
      | error e => trivial
      | ok row =>
        cases row with
        | none => trivial
        | some r =>
          show Goes S q (if r.verifiedAt.isNone then _ else _) _
          split
          · trivial
          · show Goes S q ((crypto (parseOwnerContact S id r.contact)).bind fun contact => _) _
            cases parseOwnerContact S id r.contact with
            | error e => trivial
            | ok contact =>
              cases contact with
              | none => trivial
              | some c =>
                show Goes S q (if c.channel = .email then _ else _) _
                split
                · exact goes_enqueue (fun other => absurd rfl other) fun _ => trivial
                · trivial
    exact mailed.attempt.bind fun _ _ _ => trivial
  · trivial

/-- The siblings are those the handler has read. -/
theorem goes_confirmSiblings {r : Account} {stored : Hash} (shown : Shown S q h id r stored) :
    Goes S q (confirmSiblings id r) h := by
  unfold confirmSiblings
  cases hash : r.ownerEmailHash with
  | none => trivial
  | some hash' =>
    intro siblings
    refine ⟨trivial, ?_⟩
    cases siblings with
    | error e => trivial
    | ok ids =>
      -- what the loop goes by stays read
      refine Meets.forEach (L := fun g => Shown S q g id r stored ∧
        Read g (.unverifiedSiblings hash' r.ownerXpub id) ids) ?_ ?_ fun _ _ => trivial
      · exact ⟨shown.mono (List.subset_append_left _ _), by simp [Read]⟩
      · rintro sibling mem g - ⟨shown, read⟩ (t : Instant)
        have sub := List.subset_append_left g [⟨.now, t⟩]
        refine ⟨trivial, fun n => ⟨⟨id, r, stored, hash', ids, shown.mono sub, hash, sub read,
          mem⟩, ?_⟩⟩
        have sub' := List.Subset.trans sub (List.subset_append_left _
          [⟨.exec (.confirmSibling sibling t), n⟩])
        cases n with
        | error e => trivial
        | ok n =>
          intro n'
          have sub'' := List.Subset.trans sub' (List.subset_append_left _
            [⟨.exec (.insertEvent sibling "owner_contact_verified"), n'⟩])
          refine ⟨trivial, ?_⟩
          cases n' with
          | error e => trivial
          | ok n' => exact ⟨shown.mono sub'', sub'' read⟩

theorem goes_verifyContact (id : VaultId) (token : Token) :
    Goes S (.verifyContact id token) (verifyContact S id token) [] := by
  intro row
  refine ⟨trivial, ?_⟩
  cases row with
  | error e => trivial
  | ok row =>
    cases row with
    | none => trivial
    | some r =>
      show Goes S _ (Program.bind (.done (some r)) _) _
      dsimp only [Program.bind]
      split
      · trivial
      -- not confirmed yet, and a token is on file
      · next pending =>
        cases known : r.verifyTokenHash with
        | none => trivial
        | some stored =>
          dsimp only
          split
          · next fits =>
            intro (t : Instant)
            refine ⟨trivial, ?_⟩
            show Goes S _ (if verifyTokenExpired r.verifySentAt t then _ else _) _
            split
            · trivial
            -- the token fits and is fresh: this is what the row has shown
            · next fresh =>
              generalize before : ([] ++ [⟨.query (.account id), .ok (some r)⟩] ++ [⟨.now, t⟩] :
                DeskHist) = h
              have shown : Shown S (.verifyContact id token) h id r stored :=
                ⟨token, t, rfl, by simp [Read, ← before], known, fits, by simp [Clocked, ← before],
                  by simpa using fresh, by simpa using pending⟩
              -- a rival row refuses it; else the UPDATE confirms
              refine (goes_rejectConflictingRow r).bind fun g _ grown => ?_
              intro (t' : Instant)
              have shown := shown.mono (List.Subset.trans grown.subset
                (List.subset_append_left g [⟨.now, t'⟩]))
              refine ⟨trivial, fun won => ⟨⟨r, shown⟩, ?_⟩⟩
              have shown := shown.mono
                (List.subset_append_left _ [⟨.exec (.confirm id stored t'), won⟩])
              cases won with
              | error e => trivial
              | ok won =>
                -- after it the event, the welcome mail and the siblings
                refine (goes_recordEvent _).bind fun g _ grown => ?_
                refine (goes_welcome won).bind fun g' _ grown' => ?_
                refine (goes_confirmSiblings (shown.mono ?_)).bind fun _ _ _ => trivial
                exact (grown.trans grown').subset
          · trivial

/-! ## §5 Resends, recoveries and deletions -/

theorem goes_resendVerification (id : VaultId) : Goes S q (resendVerification S id) [] := by
  intro row
  refine ⟨trivial, ?_⟩
  cases row with
  | error e => trivial
  | ok row =>
    cases row with
    | none => trivial
    | some r =>
      have plain : Plain ([] ++ [⟨.query (.account id), .ok (some r)⟩]) := plain_nil.snoc rfl
      have read : Read ([] ++ [⟨.query (.account id), .ok (some r)⟩]) (.account id) (some r) := by
        simp [Read]
      revert plain read
      generalize ([] ++ [⟨.query (.account id), .ok (some r)⟩] : DeskHist) = h
      intro plain read
      -- the address is opened, and asked to confirm
      have sends : ∀ (g : DeskHist) (ct nonce : String), Plain g → h ⊆ g →
          r.contact = ⟨some ct, some nonce, some "email"⟩ → Goes S q (resendTo S id ct nonce) g := by
        intro g ct nonce plain sub contact
        unfold resendTo
        show Goes S q ((crypto (S.openForVault id ct nonce)).bind fun email => _) g
        cases opened : S.openForVault id ct nonce with
        | error e => trivial
        | ok email =>
          exact (goes_sendContactVerification (plain.without plain_reserves)
            (plain.without plain_mails) ⟨r, ct, nonce, .inl (sub read), contact, .inl opened⟩).bind
              fun _ _ _ => trivial
      show Goes S q (Program.bind (.done (some r)) _) h
      dsimp only [Program.bind]
      cases ciphertext : r.contact.ciphertext with
      | none => trivial
      | some ct =>
        cases nonce_ : r.contact.nonce with
        | none => trivial
        | some nonce =>
          dsimp only
          split
          · trivial
          · next mailed =>
            have contact : r.contact = ⟨some ct, some nonce, some "email"⟩ := by
              rw [← ciphertext, ← nonce_, ← not_not.1 mailed]
            split
            · trivial
            · split
              · exact sends h ct nonce plain (List.Subset.refl h) contact
              · next sent _ =>
                intro (t : Instant)
                refine ⟨trivial, ?_⟩
                show Goes S q (if numSeconds (t - sent) < verifyResendCooldownSecs then _ else _) _
                split
                · trivial
                · exact sends _ ct nonce (plain.snoc rfl) (List.subset_append_left _ _) contact

theorem goes_mailChallenge {hash : Hash} (unopened : Without DeskAction.opens h)
    (unmailed : Without (DeskAction.mails .ownerRecovery) h)
    (newest : Newest S h hash id email) : Goes S q (mailChallenge S hash id email) h := by
  intro (t : Instant)
  refine ⟨trivial, fun (token : Token) => ⟨trivial, fun opened => ?_⟩⟩
  have sub : h ⊆ h ++ [⟨.now, t⟩] ++ [⟨.bearerToken, token⟩] := by simp
  refine ⟨⟨(unopened.snoc rfl).snoc rfl, hash, id, email, token, t, newest.mono sub,
    by simp [Drew], by simp [Clocked], rfl, rfl, rfl⟩, ?_⟩
  rcases opened with e | _ | _
  · trivial
  · trivial
  · refine (goes_enqueue ?_ fun t' => ?_).attempt.bind fun _ _ _ => trivial
    · exact fun _ => ((unmailed.snoc rfl).snoc rfl).snoc rfl
    · refine ⟨token, hash, t, by simp [Drew], by simp [Clocked], rfl, ?_, by simp [Opened]⟩
      exact newest.mono (List.Subset.trans sub (List.subset_append_left _ _))

theorem goes_challengeNewest (hash : Hash) : Goes S q (challengeNewest S hash) [] := by
  intro rows
  refine ⟨trivial, ?_⟩
  cases rows with
  | error e => trivial
  | ok rows =>
    show Goes S q (Program.bind (.done rows) _) _
    dsimp only [Program.bind]
    cases newest : rows.head? with
    | none => trivial
    | some r =>
      dsimp only
      split
      · next c parsed =>
        refine Goes.ite (fun mailed => ?_) fun _ => trivial
        refine goes_mailChallenge (without_nil.snoc rfl) (without_nil.snoc rfl)
          ⟨rows, r, by simp [Read], newest, rfl, ?_⟩
        rw [parsed, ← mailed]
      · trivial

theorem goes_requestOwnerRecovery (ownerEmailHash : String) :
    Goes S q (requestOwnerRecovery S ownerEmailHash) [] := by
  unfold requestOwnerRecovery
  generalize isEmailHash (lowercase (trim ownerEmailHash)) = shaped
  cases shaped with
  | false => trivial
  | true => exact goes_challengeNewest _

theorem goes_deleteVault (id : VaultId) : Goes S (.deleteVault id) (deleteVault id) [] := by
  intro row
  refine ⟨trivial, ?_⟩
  cases row with
  | error e => trivial
  | ok row =>
    cases row with
    | none => trivial
    | some r =>
      show Goes S _ (if claimIsLive r.status then _ else _) _
      split
      · trivial
      · intro n
        refine ⟨rfl, ?_⟩
        cases n with
        | error e => trivial
        | ok n =>
          show Goes S _ (if n = 0 then _ else _) _
          split <;> trivial

/-! ## §6 Exchanges -/

theorem bundles_bundled : ∀ (rows : List Account) (h : DeskHist),
    Ensures (fun h e => Sound S q h e.action)
      (fun g bs => ∀ b ∈ bs, ∃ r ∈ rows, Bundled g r b) (bundles rows) h
  | [], _ => Ensures.done fun b mem => absurd mem (by simp)
  | r :: rs, h => by
    intro row
    refine ⟨trivial, ?_⟩
    cases row with
    | error e => exact Ensures.fail
    | ok row =>
      cases row with
      | none => exact Ensures.fail
      | some r' =>
        show Ensures _ _ (Program.bind (Program.bind (.done (some r')) _) _) _
        dsimp only [Program.bind]
        cases shown : sealedBlobs r' with
        | none => exact Ensures.fail
        | some view =>
          show Ensures _ _ ((bundles rs).bind fun rest => .done (⟨foundVault r, view⟩ :: rest)) _
          refine Ensures.bind (bundles_bundled rs _) fun g rest grown bundled => ?_
          refine Ensures.done fun b mem => ?_
          rcases List.mem_cons.1 mem with rfl | later
          · refine ⟨r, List.mem_cons_self, rfl, r', grown.subset ?_, shown⟩
            simp
          · obtain ⟨r'', old, rest⟩ := bundled b later
            exact ⟨r'', List.mem_cons_of_mem r old, rest⟩

theorem goes_shownEmail (newest : Option Account) : Goes S q (shownEmail S newest) h := by
  cases newest with
  | none => trivial
  | some r =>
    intro row
    refine ⟨trivial, ?_⟩
    cases row with
    | error e => trivial
    | ok row =>
      cases row with
      | none => trivial
      | some r' =>
        show Goes S q ((crypto (parseOwnerContact S r.id r'.contact)).bind fun contact => _) _
        cases parseOwnerContact S r.id r'.contact <;> trivial

theorem exchanges (token : Token) :
    Meets (fun h e => Sound S (.exchangeOwnerRecovery token) h e.action)
      (fun g x => ∀ out, x = .ok (.recovered out) → Exchanged S (.exchangeOwnerRecovery token) g out)
      (exchangeOwnerRecovery S token) [] := by
  intro (t : Instant)
  refine ⟨trivial, fun hash => ⟨⟨by simp [Clocked], token, rfl, rfl⟩, ?_⟩⟩
  cases hash with
  | error e => exact fun _ wrong => by cases wrong
  | ok hash =>
    cases hash with
    | none => exact fun _ wrong => by cases wrong
    | some hash =>
      intro rows
      refine ⟨trivial, ?_⟩
      cases rows with
      | error e => exact fun _ wrong => by cases wrong
      | ok rows =>
        show Meets _ _ ((shownEmail S (List.head? rows)).bind fun ownerEmail =>
          (bundles rows).bind fun vaults => .done (DeskReply.recovered ⟨ownerEmail, vaults⟩)) _
        refine Meets.bind (goes_shownEmail _) ?_ fun _ _ _ _ _ wrong => by cases wrong
        intro g email grown _
        refine Meets.bind (bundles_bundled rows g) ?_ fun _ _ _ _ _ wrong => by cases wrong
        intro g' bs grown' bundled out same
        cases same
        have sub := (grown.trans grown').subset
        refine ⟨token, hash, t, rows, rfl, sub (by simp), sub (by simp), ?_⟩
        exact bundled bs rfl

/-- How a handler ends, as far as it shows anything. -/
def Ends (S : Server) (q : DeskRequest) (h : DeskHist) (x : Except RouteError DeskReply) : Prop :=
  ∀ token out, q = .exchangeOwnerRecovery token → x = .ok (.recovered out) → Exchanged S q h out

/-- Every handler goes by what it has seen. -/
theorem meets_program (S : Server) (q : DeskRequest) :
    Meets (fun h e => Sound S q h e.action) (Ends S q) ((desk S).program q) [] := by
  have shows_nothing : ∀ {p : DeskProg DeskReply}, (∀ token, q ≠ .exchangeOwnerRecovery token) →
      Goes S q p [] → Meets (fun h e => Sound S q h e.action) (Ends S q) p [] :=
    fun other goes => Meets.mono goes (fun _ _ sound => sound) fun _ _ _ token _ same =>
      absurd same (other token)
  cases q with
  | createVault req => exact shows_nothing (by simp) (goes_createVault req)
  | createVaultFromXpub req ownerXpub setup =>
    exact shows_nothing (by simp) (goes_createKeyed req ownerXpub setup)
  | createVaultGuardian req ownerXpub setup =>
    exact shows_nothing (by simp) (goes_createKeyed req ownerXpub (some setup))
  | verifyContact id token => exact shows_nothing (by simp) (goes_verifyContact id token)
  | resendVerification id => exact shows_nothing (by simp) (goes_resendVerification id)
  | requestOwnerRecovery hash => exact shows_nothing (by simp) (goes_requestOwnerRecovery hash)
  | deleteVault id => exact shows_nothing (by simp) (goes_deleteVault id)
  | exchangeOwnerRecovery token =>
    exact Meets.mono (exchanges token) (fun _ _ sound => sound) fun _ _ shown _ out _ => shown out

end Handler

end Identity

end GhostKey

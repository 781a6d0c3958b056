import GhostKey.Binding

/-!
# Who Has Confirmed an Address

A vault's address counts as confirmed when a link that was mailed to it has been opened. The
server also takes a confirmation over: a new vault from a vault of the same hash and key, and
the vaults of the same hash and key from the one that is being confirmed. The addresses are
sealed, and the hash is the client's word, so nobody compares them.

Layers:
1. the address of a row, a link that was mailed and opened: `Proven`;
2. the statements that mark a row as confirmed: `DeskStmt.marks`, `Runs.marked`;
3. the letters of a vault go to its address: `Runs.seals_of_mailed`;
4. every mark goes back to a link that was opened: `provenAll_of_agree`.

Main results:
- `provenAll_of_agree`: every confirmed address was proven, if the vaults that take a
  confirmation over seal the address they take it over for.
- `not_provenAll`: a vault with another address, which takes the confirmation over.
-/

namespace GhostKey

namespace Identity

open Foundation Program

/-! ## §1 Addresses and links -/

section Addresses

variable (S : Server)

/-- The address that is sealed as the contact of the row. -/
def Account.Seals (r : Account) (email : String) : Prop :=
  ∃ ct nonce, r.contact = ⟨some ct, some nonce, some "email"⟩ ∧
    S.openForVault r.id ct nonce = .ok email

/-- At `k` a confirmation link of the vault with a token of this hash is queued for `email`. -/
def LinkMailed (tr : DeskTrace) (k : Nat) (id : VaultId) (tokenHash : Hash) (email : String) :
    Prop :=
  ∃ i l token, MailedAt tr k i l ∧ l.kind = .contactVerification ∧ l.vaultId = id ∧
    l.recipient = email ∧ l.link = some (verifyUrl S id token) ∧
      S.hashClaimToken token = tokenHash

/-- At `k` a handler that was shown the token finds the row `r`, whose link it is. -/
def LinkShown (tr : DeskTrace) (k i : Nat) (token : Token) (r : Account) : Prop :=
  Started i (.verifyContact r.id token) (tr.take k) ∧
    ActedAt tr k i (.query (.account r.id)) (.ok (some r)) ∧
      r.verifyTokenHash = some (S.hashClaimToken token)

/-- Before `k` a link of the row was opened in time that had been mailed to `email`. -/
def Proven (tr : DeskTrace) (k : Nat) (r : Account) (email : String) : Prop :=
  ∃ i j m token t, m < j ∧ j < k ∧ LinkMailed S tr m r.id (S.hashClaimToken token) email ∧
    LinkShown S tr j i token r ∧ Clocked (history i k tr) t ∧
      verifyTokenExpired r.verifySentAt t = false

/-- The vaults of one owner: the same vault, or one of the same hash and key. -/
def Account.Kin (r r' : Account) : Prop :=
  r'.SameFile r ∨ ∃ hash, r.ownerEmailHash = some hash ∧ r'.ownerEmailHash = some hash ∧
    r'.ownerXpub = r.ownerXpub

/-- Both rows seal one address. -/
def Account.OneAddress (r r' : Account) : Prop := ∃ email, r.Seals S email ∧ r'.Seals S email

/-- A vault is marked as confirmed only if a link that was mailed to its address, on itself or
on a sibling, has been opened in time. -/
def ProvenAll (tr : DeskTrace) : Prop :=
  ∀ (k : Nat) (s : DeskStep) (r : Account), tr[k]? = some s →
    s.after.account? r.id = some r → r.verifiedAt.isSome = true →
      ∃ r' email, r.Seals S email ∧ r.Kin r' ∧ Proven S tr (k + 1) r' email

/-- Nobody shows a token that fits and has not been mailed: tokens are not guessed. -/
def Unguessed (tr : DeskTrace) : Prop :=
  ∀ k i token r, LinkShown S tr k i token r →
    ∃ m email, m < k ∧ LinkMailed S tr m r.id (S.hashClaimToken token) email

/-- Where a vault takes a confirmation over, it seals the address it takes it over for: a new
vault that of some confirmed sibling, the siblings of a vault that is confirmed that of the
vault. -/
structure TakeoversAgree (tr : DeskTrace) : Prop where
  inherited : ∀ (k : Nat) (s : DeskStep) i hash key (r : Account), tr[k]? = some s →
    s.label = .acted i ⟨.query (.verifiedSibling hash key r.id), .ok true⟩ →
    (∃ j, InsertedAt tr j i r) →
      ∃ x : Account, s.before.account? x.id = some x ∧ x.ownerEmailHash = some hash ∧
        x.verifiedAt.isSome = true ∧ x.ownerXpub = some key ∧ x.OneAddress S r
  shared : ∀ (k : Nat) (s : DeskStep) i id t n (r r' : Account) token, tr[k]? = some s →
    s.label = .acted i ⟨.exec (.confirmSibling id t), .ok n⟩ →
    s.before.account? id = some r → Started i (.verifyContact r'.id token) (tr.take k) →
    Read (history i k tr) (.account r'.id) (some r') → r'.OneAddress S r

end Addresses

variable {S : Server} {tr : DeskTrace} {s : DeskStep} {i j k : Nat} {id : VaultId}
variable {r r' x : Account} {email : String}

theorem Account.Seals.same (seals : r.Seals S email) (file : r.SameFile r') :
    r'.Seals S email := by
  obtain ⟨ct, nonce, contact, opens⟩ := seals
  refine ⟨ct, nonce, file.contact.trans contact, ?_⟩
  rw [file.id]
  exact opens

theorem Account.Seals.unique {email' : String} (seals : r.Seals S email)
    (seals' : r.Seals S email') : email = email' := by
  obtain ⟨ct, nonce, contact, opens⟩ := seals
  obtain ⟨ct', nonce', contact', opens'⟩ := seals'
  cases contact.symm.trans contact'
  exact Except.ok.inj (opens.symm.trans opens')

theorem Account.Kin.same {r₁ : Account} (kin : r.Kin r') (file : r.SameFile r₁) : r₁.Kin r' := by
  rcases kin with same | ⟨hash, here, there, key⟩
  · exact .inl (same.trans file)
  · exact .inr ⟨hash, file.ownerEmailHash.trans here, there, key.trans file.ownerXpub.symm⟩

/-- The vaults of one hash and key have the same kin. -/
theorem Account.Kin.shift {hash : Hash} (kin : x.Kin r') (there : x.ownerEmailHash = some hash)
    (here : r.ownerEmailHash = some hash) (key : x.ownerXpub = r.ownerXpub) : r.Kin r' := by
  rcases kin with same | ⟨hash', here', there', key'⟩
  · exact .inr ⟨hash, here, same.ownerEmailHash.symm.trans there, same.ownerXpub.symm.trans key⟩
  · cases there.symm.trans here'
    exact .inr ⟨hash, here, there', key'.trans key⟩

theorem Proven.later (proven : Proven S tr j r email) (le : j ≤ k) : Proven S tr k r email := by
  obtain ⟨i, n, m, token, t, before, lt, mailed, shown, clocked, fresh⟩ := proven
  exact ⟨i, n, m, token, t, before, Nat.lt_of_lt_of_le lt le, mailed, shown,
    history_subset le clocked, fresh⟩

/-! ## §2 Marks -/

/-- The statements that mark a vault as confirmed. -/
def DeskStmt.marks (id : VaultId) : DeskStmt → Bool
  | .setVerified id' _ => id' = id
  | .confirm id' _ _ => id' = id
  | .confirmSibling id' _ => id' = id
  | _ => false

/-- A statement that marks nothing leaves the mark alone. -/
theorem DeskStmt.onFile_verifiedAt {st : DeskStmt} (target : st.target = some id)
    (quiet : st.marks id = false) (r : Account) : (st.onFile r).verifiedAt = r.verifiedAt := by
  cases st with
  | setVerified id' t | confirm id' stored t | confirmSibling id' t =>
    cases target
    simp [marks] at quiet
  | _ =>
    unfold onFile
    split <;> rfl

/-- A confirmed row was confirmed before the statement, or is marked or inserted by it. -/
theorem DeskStmt.onRow_verified {st : DeskStmt} {y : Option Account}
    (after : st.onRow id y = some r) (verified : r.verifiedAt.isSome = true) :
    (∃ r₀, y = some r₀ ∧ r₀.SameFile r ∧ r₀.verifiedAt.isSome = true) ∨
      (∃ r₀, y = some r₀ ∧ r₀.SameFile r ∧ st.marks id = true) ∨ st = .insertVault r := by
  unfold onRow at after
  split at after
  · split at after
    · cases after
      exact .inr (.inr rfl)
    · exact .inl ⟨r, after, .refl r, verified⟩
  · split at after
    · cases after
    · exact .inl ⟨r, after, .refl r, verified⟩
  · split at after
    · next target =>
      obtain ⟨r₀, here, rfl⟩ := Option.map_eq_some_iff.1 after
      cases marked : st.marks id with
      | true => exact .inr (.inl ⟨r₀, here, st.onFile_sameFile r₀, rfl⟩)
      | false =>
        rw [onFile_verifiedAt target marked] at verified
        exact .inl ⟨r₀, here, st.onFile_sameFile r₀, verified⟩
    · exact .inl ⟨r, after, .refl r, verified⟩

/-- At `k` the row of `r` is marked as confirmed. -/
def MarkedAt (tr : DeskTrace) (k : Nat) (r : Account) : Prop :=
  ∃ s i st n, tr[k]? = some s ∧ s.label = .acted i ⟨.exec st, .ok n⟩ ∧ st.marks r.id = true ∧
    s.before.account? r.id = some r

/-- What is marked as confirmed was marked at some step. -/
theorem Runs.marked (runs : Runs S tr) (at_k : tr[k]? = some s) :
    (∀ r, s.before.account? r.id = some r → r.verifiedAt.isSome = true →
      ∃ j r₀, j < k ∧ MarkedAt tr j r₀ ∧ r₀.SameFile r) ∧
    ∀ r, s.after.account? r.id = some r → r.verifiedAt.isSome = true →
      ∃ j r₀, j < k + 1 ∧ MarkedAt tr j r₀ ∧ r₀.SameFile r := by
  have sound := fun {k i a x} => runs.sound (k := k) (i := i) (a := a) (x := x)
  obtain ⟨clock, c, run⟩ := runs
  refine (run.invariant_at (P := fun k w => ∀ r, w.account? r.id = some r →
    r.verifiedAt.isSome = true → ∃ j r₀, j < k ∧ MarkedAt tr j r₀ ∧ r₀.SameFile r) ?_ ?_).1 k s at_k
  · intro r absent
    cases absent
  · intro k s at_k explains before r after verified
    -- a mark that was there before the step was made before it
    have passed : ∀ r₀, s.before.account? r.id = some r₀ → r₀.SameFile r →
        r₀.verifiedAt.isSome = true → ∃ j r₀, j < k + 1 ∧ MarkedAt tr j r₀ ∧ r₀.SameFile r := by
      intro r₀ here file verified
      rw [file.id] at here
      obtain ⟨j, r₁, lt, marked, file'⟩ := before r₀ here verified
      exact ⟨j, r₁, Nat.lt_succ_of_lt lt, marked, file'.trans file⟩
    cases account_after explains r.id with
    | same same => exact passed r (same ▸ after) (.refl r) verified
    | ran i st n label row =>
      rcases DeskStmt.onRow_verified (row.symm.trans after) verified with
        ⟨r₀, here, file, old⟩ | ⟨r₀, here, file, marks⟩ | rfl
      · exact passed r₀ here file old
      · rw [file.id] at here marks
        exact ⟨k, r₀, Nat.lt_succ_self k, ⟨s, i, st, n, at_k, label, marks, here⟩, file⟩
      · -- a vault is inserted without a mark
        obtain ⟨q, -, -, -, unmarked, -⟩ := sound ⟨s, at_k, label⟩
        rw [unmarked] at verified
        cases verified
    | lived status next label row =>
      obtain ⟨r₀, here, rfl⟩ := Option.map_eq_some_iff.1 (row.symm.trans after)
      exact passed r₀ here ⟨rfl, rfl, rfl, rfl, rfl, rfl⟩ verified

/-! ## §3 Letters -/

/-- A vault that is on file is the one that was inserted under its id. -/
theorem Runs.file_of_inserted (runs : Runs S tr) (fresh : FreshIds tr) {r₀ : Account}
    (inserted : InsertedAt tr j i r₀) (at_k : tr[k]? = some s)
    (here : s.before.account? r₀.id = some r) : r₀.SameFile r := by
  obtain ⟨m, i', r₁, -, inserted', file, key⟩ := runs.inserted at_k here
  have one := runs.inserted_once fresh inserted inserted' key.symm
  subst one
  obtain ⟨n, inserted⟩ := inserted
  obtain ⟨n', inserted'⟩ := inserted'
  obtain ⟨rfl, same⟩ := inserted.unique inserted'
  cases same
  exact file

/-- The confirmation links of a vault go to the address its contact seals. -/
theorem Runs.seals_of_mailed (runs : Runs S tr) (fresh : FreshIds tr)
    (opens : ∀ id text ct nonce, S.sealForVault id text = .ok (ct, nonce) →
      S.openForVault id ct nonce = .ok text) {m : Nat} {tokenHash : Hash}
    (mailed : LinkMailed S tr m r.id tokenHash email) (at_k : tr[k]? = some s)
    (here : s.before.account? r.id = some r) : r.Seals S email := by
  obtain ⟨i, l, token, ⟨n, queued⟩, kind, vault, rfl, -, -⟩ := mailed
  obtain ⟨q, -, -, lettered⟩ := runs.sound queued
  unfold Lettered at lettered
  rw [kind, vault] at lettered
  obtain ⟨-, -, -, -, -, ⟨r₀, ct, nonce, known, contact, sealed⟩, -⟩ := lettered
  -- the row the letter was written from is the vault's
  have file : r₀.SameFile r := by
    rcases known with read | ⟨same, n', inserted⟩
    · obtain ⟨j, s', -, at_j, -, found⟩ := runs.read read
      exact runs.same_file fresh at_j at_k found.symm here
    · obtain ⟨j, -, inserted⟩ := mem_history_iff.1 inserted
      exact runs.file_of_inserted fresh ⟨n', inserted⟩ at_k (same ▸ here)
  have seals : r₀.Seals S l.recipient := by
    refine ⟨ct, nonce, contact, ?_⟩
    rw [← file.id]
    exact sealed.elim id (opens _ _ _ _)
  exact seals.same file

/-- A handler that was shown a link has one that was mailed to the vault's address. -/
theorem Runs.proven_of_shown (runs : Runs S tr) (fresh : FreshIds tr)
    (opens : ∀ id text ct nonce, S.sealForVault id text = .ok (ct, nonce) →
      S.openForVault id ct nonce = .ok text) (unguessed : Unguessed S tr) {q : DeskRequest}
    {stored : Hash} (started : Started i q (tr.take k))
    (shown : Shown S q (history i k tr) id r stored) :
    r.id = id ∧ ∃ email, r.Seals S email ∧ Proven S tr k r email ∧
      ∃ token, q = .verifyContact id token := by
  obtain ⟨token, t, rfl, read, fits, ok, clocked, inTime, -⟩ := shown
  obtain ⟨j, lt, acted⟩ := mem_history_iff.1 read
  have queried_at := acted
  obtain ⟨s, at_j, label⟩ := queried_at
  have found := queried (runs.explains at_j) label
  have here : r.id = id := Desk.account?_id found.symm
  subst here
  have same : S.hashClaimToken token = stored := of_decide_eq_true ok
  subst same
  -- the request had begun when it read the row
  have first : LinkShown S tr j i token r := ⟨runs.began started lt acted, acted, fits⟩
  obtain ⟨m, email, before, mailed⟩ := unguessed j i token r first
  exact ⟨rfl, email, runs.seals_of_mailed fresh opens mailed at_j found.symm,
    ⟨i, j, m, token, t, before, lt, mailed, first, clocked, inTime⟩, token, rfl⟩

/-! ## §4 Confirmations -/

/-- Every mark goes back to a link that was opened. -/
theorem Runs.proven_of_marked (runs : Runs S tr) (fresh : FreshIds tr)
    (opens : ∀ id text ct nonce, S.sealForVault id text = .ok (ct, nonce) →
      S.openForVault id ct nonce = .ok text) (unguessed : Unguessed S tr)
    (agree : TakeoversAgree S tr) (k : Nat) : ∀ r, MarkedAt tr k r →
      ∃ r' email, r.Seals S email ∧ r.Kin r' ∧ Proven S tr (k + 1) r' email := by
  induction k using Nat.strong_induction_on with
  | _ k ih =>
    intro r marked
    obtain ⟨s, i, st, n, at_k, label, marks, here⟩ := marked
    obtain ⟨q, started, sound⟩ := runs.sound ⟨s, at_k, label⟩
    cases st with
    | setVerified id t =>
      cases of_decide_eq_true marks
      obtain ⟨r₁, hash, n₁, inserted, same, hashed, keyed, read⟩ := sound
      obtain ⟨key, key₁⟩ := Option.isSome_iff_exists.1 keyed
      rw [key₁, Option.getD_some, ← same] at read
      obtain ⟨m, s', lt, at_m, asked, -⟩ := runs.read read
      obtain ⟨j, -, added⟩ := mem_history_iff.1 inserted
      have file : r₁.SameFile r := runs.file_of_inserted fresh ⟨n₁, added⟩ at_k (same ▸ here)
      obtain ⟨x, there, hash_x, marked_x, key_x, email, seals_x, seals⟩ :=
        agree.inherited m s' i hash key r₁ at_m asked ⟨j, n₁, added⟩
      -- the sibling was marked before, and its address proven
      obtain ⟨j', x₀, j'_lt, marked₀, file₀⟩ := (runs.marked at_m).1 x there marked_x
      obtain ⟨r', email', seals', kin, proven⟩ := ih j' (Nat.lt_trans j'_lt lt) x₀ marked₀
      cases (seals'.same file₀).unique seals_x
      refine ⟨r', _, seals.same file, ?_, proven.later (by omega)⟩
      exact (kin.same file₀).shift hash_x (file.ownerEmailHash.trans hashed)
        (key_x.trans (file.ownerXpub.trans key₁).symm)
    | confirm id stored t =>
      cases of_decide_eq_true marks
      obtain ⟨r', shown⟩ := sound
      obtain ⟨same, email, seals, proven, -⟩ :=
        runs.proven_of_shown fresh opens unguessed started shown
      obtain ⟨token, u, -, read, -⟩ := shown
      obtain ⟨m, s', -, at_m, -, found⟩ := runs.read read
      have file : r'.SameFile r := runs.same_file fresh at_m at_k found.symm here
      exact ⟨r', email, seals.same file, .inl file, proven.later (Nat.le_succ k)⟩
    | confirmSibling id t =>
      cases of_decide_eq_true marks
      obtain ⟨id', r', stored, hash, ids, shown, hashed, asked, listed⟩ := sound
      obtain ⟨rfl, email, seals, proven, token, rfl⟩ :=
        runs.proven_of_shown fresh opens unguessed started shown
      obtain ⟨-, -, -, read, -⟩ := shown
      obtain ⟨email', seals', seals_r⟩ :=
        agree.shared k s i r.id t n r r' token at_k label here started read
      cases seals'.unique seals
      -- the sibling had the hash and the key of the vault when it was listed
      obtain ⟨m, s', -, at_m, -, found⟩ := runs.read asked
      subst found
      obtain ⟨r₂, mem, same⟩ := List.mem_map.1 listed
      obtain ⟨stored₂, picked⟩ := KeyedTable.mem_select.1 mem
      simp only [Bool.and_eq_true, decide_eq_true_eq] at picked
      have there : s'.before.account? r.id = some r₂ := same ▸ stored₂
      have file : r₂.SameFile r := runs.same_file fresh at_m at_k there here
      refine ⟨r', _, seals_r, .inr ⟨hash, ?_, hashed, ?_⟩, proven.later (Nat.le_succ k)⟩
      · exact file.ownerEmailHash.trans picked.1.1.1.1
      · exact picked.1.2.symm.trans file.ownerXpub.symm
    | _ => cases marks

/-- Every confirmed address was proven, if the vaults that take a confirmation over seal the
address they take it over for. -/
theorem provenAll_of_agree (runs : Runs S tr) (fresh : FreshIds tr)
    (opens : ∀ id text ct nonce, S.sealForVault id text = .ok (ct, nonce) →
      S.openForVault id ct nonce = .ok text) (unguessed : Unguessed S tr)
    (agree : TakeoversAgree S tr) : ProvenAll S tr := by
  intro k s r at_k here verified
  obtain ⟨j, r₀, lt, marked, file⟩ := (runs.marked at_k).2 r here verified
  obtain ⟨r', email, seals, kin, proven⟩ :=
    runs.proven_of_marked fresh opens unguessed agree j r₀ marked
  exact ⟨r', email, seals.same file, kin.same file, proven.later lt⟩

/-! ## §5 A confirmation taken over -/

section TakenOver

open Deployment

/-- A vault is confirmed, and then another one of its hash and key is created. -/
def takenOver (second : DeskRequest) : List DeskMove :=
  [.start (digested "a@b" "xpub" 'a')] ++ deskSteps 0 15 "v" ++
    [.start (.verifyContact "v" "v")] ++ deskSteps 1 11 "" ++ [.start second] ++ deskSteps 2 10 "w"

/-- The link that is opened in a step. -/
def tapped? (s : DeskStep) : Option (VaultId × Token) :=
  match s.label with
  | .started _ (.verifyContact id token) => some (id, token)
  | _ => none

/-- The link is mailed at 14, and no other is opened. -/
def oneLink (tr : DeskTrace) : Bool :=
  (tr[14]?.bind DeskStep.mailed?).any (fun l => l.kind = .contactVerification &&
    l.vaultId = "v" && l.recipient = "a@b" && l.link = some (verifyUrl (host 0) "v" "v")) &&
  (tr.take 15).all (fun s => (tapped? s).isNone) && tr.all fun s => (tapped? s).all (· = ("v", "v"))

theorem unguessed_of_oneLink {tr : DeskTrace} (one : oneLink tr = true) :
    Unguessed (host 0) tr := by
  simp only [oneLink, Bool.and_eq_true, Option.any_eq_true, decide_eq_true_eq, List.all_eq_true]
    at one
  obtain ⟨⟨⟨l, letter, ⟨⟨kind, vault⟩, recipient⟩, link⟩, early⟩, only⟩ := one
  intro k i token r shown
  obtain ⟨p, s, lt, at_p, label⟩ := started_at.1 shown.1
  have tap : tapped? s = some (r.id, token) := by
    unfold tapped?
    rw [label]
  have named := only s (List.mem_of_getElem? at_p)
  rw [tap] at named
  obtain ⟨same, rfl⟩ := Prod.mk.inj (of_decide_eq_true named)
  refine ⟨14, "a@b", ?_, ?_⟩
  · -- before 15 nothing was opened
    by_contra late
    have small : p < 15 := by omega
    have none := early s (List.mem_of_getElem? ((List.getElem?_take_of_lt small).trans at_p))
    rw [tap] at none
    cases none
  · obtain ⟨i', mailed⟩ := mailedAt_of_mailed? letter
    rw [same]
    exact ⟨i', l, "v", mailed, kind, vault, recipient, link, rfl⟩

theorem opens_host (id text ct nonce : String)
    (sealed : (host 0).sealForVault id text = .ok (ct, nonce)) :
    (host 0).openForVault id ct nonce = .ok text := by
  cases sealed
  simp [host, unmark]

/-- The contact of an address, sealed. -/
def sealedAs (address : String) : SealedContact :=
  ⟨some ("~" ++ address), some "nonce", some "email"⟩

theorem seals_of_sealedAs {r : Account} {address : String}
    (contact : r.contact = sealedAs address) : r.Seals (host 0) address :=
  ⟨_, _, contact, opens_host r.id address _ _ rfl⟩

/-- Whether the vaults seal one address, and none takes a confirmation over by itself. -/
def sealsOne (s : DeskStep) : Bool :=
  match s.label with
  | .acted _ ⟨.query (.verifiedSibling hash key _), .ok true⟩ =>
      (s.before.account? "v").any fun x => x.ownerEmailHash = some hash && x.verifiedAt.isSome &&
        x.ownerXpub = some key && x.contact = sealedAs "a@b"
  | .acted _ ⟨.exec (.insertVault r), .ok _⟩ => r.contact = sealedAs "a@b"
  | .acted _ ⟨.exec (.confirmSibling _ _), .ok _⟩ => false
  | _ => true

theorem takeoversAgree_of_sealsOne {tr : DeskTrace} (one : tr.all sealsOne = true) :
    TakeoversAgree (host 0) tr where
  inherited := by
    intro k s i hash key r at_k label ⟨j, n, u, at_j, inserted⟩
    have here := List.all_eq_true.1 one s (List.mem_of_getElem? at_k)
    have there := List.all_eq_true.1 one u (List.mem_of_getElem? at_j)
    unfold sealsOne at here there
    rw [label] at here
    rw [inserted] at there
    obtain ⟨x, row, good⟩ := (Option.any_eq_true _ _).1 here
    simp only [Bool.and_eq_true, decide_eq_true_eq] at good
    obtain ⟨⟨⟨hashed, verified⟩, keyed⟩, contact⟩ := good
    refine ⟨x, ?_, hashed, verified, keyed, "a@b", seals_of_sealedAs contact,
      seals_of_sealedAs (of_decide_eq_true there)⟩
    rw [Desk.account?_id row]
    exact row
  shared := by
    intro k s i id t n r r' token at_k label
    have here := List.all_eq_true.1 one s (List.mem_of_getElem? at_k)
    unfold sealsOne at here
    rw [label] at here
    cases here

/-- Whether the vault `w` is marked as confirmed, and what its contact is. -/
def marksSecond (address : String) (s : DeskStep) : Bool :=
  (s.after.account? "w").any fun r => r.verifiedAt.isSome && r.contact = sealedAs address

/-- A second vault of the same address takes the confirmation over. -/
theorem provenAll_of_agree_inherited : ∃ tr, Runs (host 0) tr ∧
    tr[36]?.any (marksSecond "a@b") = true ∧ ProvenAll (host 0) tr := by
  obtain ⟨tr, runs, check⟩ := played (host 0) (takenOver (digested "a@b" "xpub" 'a'))
    (fun tr => decide (tr.filterMap DeskStep.drawn?).Nodup && oneLink tr && tr.all sealsOne &&
      tr[36]?.any (marksSecond "a@b")) (by decide +kernel)
  simp only [Bool.and_eq_true, decide_eq_true_eq] at check
  obtain ⟨⟨⟨once, link⟩, one⟩, marks⟩ := check
  exact ⟨tr, runs, marks, provenAll_of_agree runs (freshIds_of_nodup once) opens_host
    (unguessed_of_oneLink link) (takeoversAgree_of_sealsOne one)⟩

/-- So does one of another address, to which nothing was mailed. -/
theorem not_provenAll : ¬ ∀ (S : Server) (tr : DeskTrace),
    (∀ id text ct nonce, S.sealForVault id text = .ok (ct, nonce) →
      S.openForVault id ct nonce = .ok text) →
    Runs S tr → FreshIds tr → Unguessed S tr → ProvenAll S tr := by
  intro provenAll
  obtain ⟨tr, runs, check⟩ := played (host 0) (takenOver (digested "c@d" "xpub" 'a'))
    (fun tr => decide (tr.filterMap DeskStep.drawn?).Nodup && oneLink tr &&
      tr.all (fun s => (DeskStep.mailed? s).all fun l => l.recipient = "a@b") &&
        tr[36]?.any (marksSecond "c@d")) (by decide +kernel)
  simp only [Bool.and_eq_true, decide_eq_true_eq, Option.any_eq_true, List.all_eq_true] at check
  obtain ⟨⟨⟨once, link⟩, mails⟩, s, at_k, marks⟩ := check
  obtain ⟨r, row, marked⟩ := (Option.any_eq_true _ _).1 marks
  simp only [Bool.and_eq_true, decide_eq_true_eq] at marked
  obtain ⟨r', email, seals, -, proven⟩ := provenAll (host 0) tr opens_host runs
    (freshIds_of_nodup once) (unguessed_of_oneLink link) 36 s r at_k
      (Desk.account?_id row ▸ row) marked.1
  cases seals.unique (seals_of_sealedAs marked.2)
  obtain ⟨i, j, m, token, t, -, -, mailed, -⟩ := proven
  obtain ⟨i', l, token', ⟨n, u, at_m, queued⟩, -, -, recipient, -⟩ := mailed
  have sent : DeskStep.mailed? u = some l := by
    unfold DeskStep.mailed?
    rw [queued]
  have other := mails u (List.mem_of_getElem? at_m)
  rw [sent, Option.all_some, decide_eq_true_eq, recipient] at other
  exact absurd other (by decide)

end TakenOver

end Identity

end GhostKey

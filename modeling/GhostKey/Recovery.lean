import GhostKey.Confirmation

/-!
# Whose Recovery Link Opens What

A recovery link is asked for by a hash. It goes to the contact of the newest password vault
that carries the hash, and who redeems it is shown the sealed material of every such vault.
A vault is created with any hash its creator likes, and whether the hash was ever confirmed
is not asked.

Layers:
1. mailboxes and links: `Isolated`, `MailboxesAgree`;
2. the letter behind a link: `Runs.newest_of_mailed`;
3. an exchange and the letter of its link: `isolated_of_agree`.

Main results:
- `isolated_of_agree`: a vault's material is shown for a link that was mailed to its own
  contact, if the vaults of the hash have one mailbox whenever a link is mailed or redeemed.
- `not_isolated`: a newer vault with somebody else's hash.
-/

namespace GhostKey

namespace Identity

open Foundation Program

/-! ## §1 Mailboxes and links -/

section Mailboxes

variable (S : Server)

/-- The vault's contact is this email address. -/
def Account.MailsTo (r : Account) (email : String) : Prop :=
  parseOwnerContact S r.id r.contact = .ok (some ⟨email, .email⟩)

/-- Both vaults have one email address as their contact. -/
def Account.OneMailbox (r r' : Account) : Prop := ∃ email, r.MailsTo S email ∧ r'.MailsTo S email

/-- A recovery letter with a link of this token hash. -/
def Letter.Recovers (l : Letter) (tokenHash : Hash) : Prop :=
  l.kind = .ownerRecovery ∧
    ∃ token, l.link = some (recoverUrl S token) ∧ S.hashClaimToken token = tokenHash

/-- A recovery link that was mailed to the vault's contact before `k`. -/
def LinkedBefore (tr : DeskTrace) (k : Nat) (tokenHash : Hash) (r : Account) : Prop :=
  ∃ m i l, m < k ∧ MailedAt tr m i l ∧ l.Recovers S tokenHash ∧ r.MailsTo S l.recipient

/-- What an exchange shows of a vault, it shows for a link that was mailed to the vault's own
contact, and a recovery link is mailed to the contact of every password vault of its hash. -/
structure Isolated (tr : DeskTrace) : Prop where
  shown : ∀ (k : Nat) (s : DeskStep) i token x b, tr[k]? = some s →
    Started i (.exchangeOwnerRecovery token) (tr.take k) →
    s.label = .returned i (.ok (.recovered x)) → b ∈ x.vaults →
      ∃ r r' : Account, b.vault = foundVault r ∧ sealedBlobs r' = some b.sealedBlobs ∧
        Read (history i k tr) (.account r.id) (some r') ∧ r.SameFile r' ∧
          LinkedBefore S tr k (S.hashClaimToken (trim token)) r'
  mailed : ∀ k i l, MailedAt tr k i l → l.kind = .ownerRecovery →
    ∃ hash, ∃ rows : List Account, Read (history i k tr) (.passwordVaults hash) rows ∧
      ∀ r ∈ rows, r.MailsTo S l.recipient

/-- Nobody redeems a link that has not been mailed: tokens are not guessed. -/
def RecoveryUnguessed (tr : DeskTrace) : Prop :=
  ∀ k i token t hash, Started i (.exchangeOwnerRecovery token) (tr.take k) →
    ActedAt tr k i (.redeem (S.hashClaimToken (trim token)) t) (.ok (some hash)) →
      ∃ m i' l, m < k ∧ MailedAt tr m i' l ∧ l.Recovers S (S.hashClaimToken (trim token))

/-- The password vaults of a hash have the mailbox of the newest one when a link is mailed, and
those there are when it is redeemed have it as well. -/
structure MailboxesAgree (tr : DeskTrace) : Prop where
  mailed : ∀ k i l hash (rows : List Account) r₀ r, MailedAt tr k i l → l.kind = .ownerRecovery →
    Read (history i k tr) (.passwordVaults hash) rows → rows.head? = some r₀ → r ∈ rows →
      r₀.OneMailbox S r
  redeemed : ∀ k i token hash (rows : List Account) m i' l hash' (rows' : List Account) r₀ r,
    Started i (.exchangeOwnerRecovery token) (tr.take k) →
    ActedAt tr k i (.query (.passwordVaults hash)) (.ok rows) →
    MailedAt tr m i' l → l.Recovers S (S.hashClaimToken (trim token)) →
    Read (history i' m tr) (.passwordVaults hash') rows' → rows'.head? = some r₀ → r ∈ rows →
      r₀.OneMailbox S r

end Mailboxes

variable {S : Server} {tr : DeskTrace} {s : DeskStep} {i j k m : Nat} {id : VaultId}
variable {r r' : Account} {email : String}

theorem Account.MailsTo.unique {email' : String} (mails : r.MailsTo S email)
    (mails' : r.MailsTo S email') : email = email' := by
  have same := mails.symm.trans mails'
  cases same
  rfl

theorem Account.MailsTo.same (mails : r.MailsTo S email) (file : r.SameFile r') :
    r'.MailsTo S email := by
  unfold Account.MailsTo at mails ⊢
  rw [file.id, file.contact]
  exact mails

/-! ## §2 The letter of a link -/

/-- A recovery letter is written to the newest password vault of a hash. -/
theorem Runs.newest_of_mailed (runs : Runs S tr) {l : Letter} (mailed : MailedAt tr k i l)
    (kind : l.kind = .ownerRecovery) :
    ∃ hash rows r₀, Read (history i k tr) (.passwordVaults hash) rows ∧ rows.head? = some r₀ ∧
      r₀.MailsTo S l.recipient := by
  obtain ⟨n, queued⟩ := mailed
  obtain ⟨q, -, -, lettered⟩ := runs.sound queued
  unfold Lettered at lettered
  rw [kind] at lettered
  obtain ⟨token, hash, t, -, -, -, ⟨rows, r₀, read, head, same, parsed⟩, -⟩ := lettered
  refine ⟨hash, rows, r₀, read, head, ?_⟩
  rw [Account.MailsTo, same]
  exact parsed

/-! ## §3 Exchanges -/

/-- What an exchange has seen when it returns. -/
theorem Runs.exchanged (runs : Runs S tr) (at_k : tr[k]? = some s) {token : Token}
    {x : OwnerRecoveryExchange} (started : Started i (.exchangeOwnerRecovery token) (tr.take k))
    (returned : s.label = .returned i (.ok (.recovered x))) :
    Exchanged S (.exchangeOwnerRecovery token) (history i k tr) x := by
  obtain ⟨clock, c, run⟩ := runs
  obtain ⟨q, began, ends⟩ := run.returned_at (meets_program S) at_k returned
  obtain ⟨c', run'⟩ := run.take k
  cases run'.started_unique started began
  exact ends token x rfl rfl

theorem Desk.mem_passwordVaults {w : Desk} {hash : Hash} (mem : r ∈ w.passwordVaults hash) :
    w.account? r.id = some r := by
  unfold Desk.passwordVaults at mem
  exact (KeyedTable.mem_select.1 ((List.mem_insertionSort _).1 mem)).1

/-- A vault's material is shown for a link that was mailed to its own contact, if the vaults of
the hash have one mailbox whenever a link is mailed or redeemed. -/
theorem isolated_of_agree (runs : Runs S tr) (fresh : FreshIds tr)
    (unguessed : RecoveryUnguessed S tr) (agree : MailboxesAgree S tr) : Isolated S tr where
  shown := by
    intro k s i token x b at_k started returned listed
    obtain ⟨token', hash, t, rows, same, redeemed, read, bundled⟩ :=
      runs.exchanged at_k started returned
    cases same
    obtain ⟨r, mem, vault, r', loaded, blobs⟩ := bundled b listed
    -- the link was mailed before it was redeemed
    obtain ⟨j, lt, redeem⟩ := mem_history_iff.1 redeemed
    obtain ⟨m, i', l, before, mailed, recovers⟩ :=
      unguessed j i token t hash (runs.began started lt redeem) redeem
    obtain ⟨hash', rows', r₀, newest, head, mails₀⟩ := runs.newest_of_mailed mailed recovers.1
    -- the rows are those of its mailbox, and the material that of the row
    obtain ⟨p, p_lt, listing⟩ := mem_history_iff.1 read
    obtain ⟨email, mails, mails_r⟩ := agree.redeemed p i token hash rows m i' l hash' rows' r₀ r
      (runs.began started p_lt listing) listing mailed recovers newest head mem
    obtain ⟨u, at_p, label⟩ := listing
    have listed := queried (runs.explains at_p) label
    have here : u.before.account? r.id = some r := Desk.mem_passwordVaults (listed ▸ mem)
    obtain ⟨n, u', -, at_n, -, found⟩ := runs.read loaded
    have file : r.SameFile r' := runs.same_file fresh at_p at_n here found.symm
    refine ⟨r, r', vault, blobs, loaded, file, m, i', l, Nat.lt_trans before lt, mailed,
      recovers, ?_⟩
    rw [mails.unique mails₀] at mails_r
    exact mails_r.same file
  mailed := by
    intro k i l mailed kind
    obtain ⟨hash, rows, r₀, read, head, mails⟩ := runs.newest_of_mailed mailed kind
    refine ⟨hash, rows, read, fun r mem => ?_⟩
    obtain ⟨email, mails₀, mails_r⟩ := agree.mailed k i l hash rows r₀ r mailed kind read head mem
    rwa [mails₀.unique mails] at mails_r

/-! ## §4 A newer vault of the hash -/

section Newer

open Deployment

/-- Two password vaults of one hash, a minute apart, and then a recovery by the hash. -/
def recoveredByHash (second : DeskRequest) : List DeskMove :=
  [.start (digested "a@b" "xpub" 'a')] ++ deskSteps 0 15 "v" ++ [.drift (.pass 60000000000)] ++
    [.start second] ++ deskSteps 1 15 "w" ++
    [.start (.requestOwnerRecovery (.ofList (List.replicate 64 'a')))] ++ deskSteps 2 6 "x" ++
    [.start (.exchangeOwnerRecovery "x")] ++ deskSteps 3 7 ""

/-- The hash of the token that is redeemed in a step. -/
def redeemed? (s : DeskStep) : Option Hash :=
  match s.label with
  | .acted _ ⟨.redeem tokenHash _, .ok (some _)⟩ => some tokenHash
  | _ => none

/-- The recovery link is mailed at 39, and no other is redeemed. -/
def oneRecovery (tr : DeskTrace) : Bool :=
  (tr[39]?.bind DeskStep.mailed?).any (fun l => l.kind = .ownerRecovery &&
    l.link = some (recoverUrl (host 0) "x")) &&
  (tr.take 40).all (fun s => (redeemed? s).isNone) &&
  tr.all fun s => (redeemed? s).all (· = (host 0).hashClaimToken "x")

theorem recoveryUnguessed_of_oneRecovery {tr : DeskTrace} (one : oneRecovery tr = true) :
    RecoveryUnguessed (host 0) tr := by
  simp only [oneRecovery, Bool.and_eq_true, Option.any_eq_true, decide_eq_true_eq,
    List.all_eq_true] at one
  obtain ⟨⟨⟨l, letter, kind, link⟩, early⟩, only⟩ := one
  intro k i token t hash _ redeemed
  obtain ⟨s, at_k, label⟩ := redeemed
  have shown : redeemed? s = some ((host 0).hashClaimToken (trim token)) := by
    unfold redeemed?
    rw [label]
  have named := only s (List.mem_of_getElem? at_k)
  rw [shown, Option.all_some, decide_eq_true_eq] at named
  obtain ⟨i', mailed⟩ := mailedAt_of_mailed? letter
  refine ⟨39, i', l, ?_, mailed, kind, "x", link, named.symm⟩
  -- before 40 nothing was redeemed
  by_contra late
  have small : k < 40 := by omega
  have none := early s (List.mem_of_getElem? ((List.getElem?_take_of_lt small).trans at_k))
  rw [shown] at none
  cases none

theorem mailsTo_host {r : Account} {address : String} (contact : r.contact = sealedAs address)
    (full : isBlank address = false) : r.MailsTo (host 0) address := by
  have opened : (host 0).openForVault r.id ("~" ++ address) "nonce" = .ok address :=
    opens_host r.id address _ _ rfl
  unfold Account.MailsTo
  rw [contact]
  simp [parseOwnerContact, sealedAs, Channel.fromStr, opened, full]

/-- Whether the password vaults that are listed seal one address. -/
def listsOne (s : DeskStep) : Bool :=
  match s.label with
  | .acted _ ⟨.query (.passwordVaults _), .ok rows⟩ =>
      List.all rows fun r : Account => r.contact = sealedAs "a@b"
  | _ => true

theorem mailboxesAgree_of_listsOne {tr : DeskTrace} (one : tr.all listsOne = true) :
    MailboxesAgree (host 0) tr := by
  have lists : ∀ (k : Nat) i hash (rows : List Account),
      ActedAt tr k i (.query (.passwordVaults hash)) (.ok rows) →
        ∀ r ∈ rows, r.MailsTo (host 0) "a@b" := by
    intro k i hash rows ⟨s, at_k, label⟩ r mem
    have here := List.all_eq_true.1 one s (List.mem_of_getElem? at_k)
    unfold listsOne at here
    rw [label] at here
    exact mailsTo_host (of_decide_eq_true (List.all_eq_true.1 here r mem)) (by decide)
  constructor
  · intro k i l hash rows r₀ r _ _ read head mem
    obtain ⟨j, -, listing⟩ := mem_history_iff.1 read
    exact ⟨"a@b", lists j i hash rows listing r₀ (List.mem_of_mem_head? head),
      lists j i hash rows listing r mem⟩
  · intro k i token hash rows m i' l hash' rows' r₀ r _ listing _ _ read head mem
    obtain ⟨j, -, listing'⟩ := mem_history_iff.1 read
    exact ⟨"a@b", lists j i' hash' rows' listing' r₀ (List.mem_of_mem_head? head),
      lists k i hash rows listing r mem⟩

/-- The vaults an exchange shows. -/
def showsVaults (ids : List VaultId) (s : DeskStep) : Bool :=
  match s.label with
  | .returned 3 (.ok (.recovered x)) => decide (x.vaults.map (fun b => b.vault.id) = ids)
  | _ => false

/-- Two vaults of one owner are both shown. -/
theorem isolated_of_agree_siblings : ∃ tr, Runs (host 0) tr ∧
    tr[47]?.any (showsVaults ["w", "v"]) = true ∧ Isolated (host 0) tr := by
  obtain ⟨tr, runs, check⟩ := played (host 0) (recoveredByHash (digested "a@b" "xpub" 'a'))
    (fun tr => decide (tr.filterMap DeskStep.drawn?).Nodup && oneRecovery tr && tr.all listsOne &&
      tr[47]?.any (showsVaults ["w", "v"])) (by decide +kernel)
  simp only [Bool.and_eq_true, decide_eq_true_eq] at check
  obtain ⟨⟨⟨once, link⟩, one⟩, shows⟩ := check
  exact ⟨tr, runs, shows, isolated_of_agree runs (freshIds_of_nodup once)
    (recoveryUnguessed_of_oneRecovery link) (mailboxesAgree_of_listsOne one)⟩

/-- Whether the vault `v` is found with the contact `a@b`, and no recovery is mailed to it. -/
def mailsOther (s : DeskStep) : Bool :=
  (s.before.account? "v").all (fun r => r.contact = sealedAs "a@b") &&
    (DeskStep.mailed? s).all fun l => l.kind ≠ .ownerRecovery || l.recipient ≠ "a@b"

/-- Whether the link is opened by the third handler. -/
def opensLink (s : DeskStep) : Bool :=
  match s.label with
  | .started 3 (.exchangeOwnerRecovery token) => token = "x"
  | _ => false

/-- A newer vault of somebody else's, with the same hash: the link goes to its contact, and who
redeems it is shown both. -/
theorem not_isolated : ¬ ∀ (S : Server) (tr : DeskTrace), Runs S tr → FreshIds tr →
    RecoveryUnguessed S tr → Isolated S tr := by
  intro isolated
  obtain ⟨tr, runs, check⟩ := played (host 0) (recoveredByHash (digested "c@d" "ypub" 'a'))
    (fun tr => decide (tr.filterMap DeskStep.drawn?).Nodup && oneRecovery tr &&
      tr.all mailsOther && tr[47]?.any (showsVaults ["w", "v"]) && tr[40]?.any opensLink)
    (by decide +kernel)
  simp only [Bool.and_eq_true, decide_eq_true_eq, Option.any_eq_true] at check
  obtain ⟨⟨⟨⟨once, link⟩, others⟩, s, at_k, shows⟩, u, at_40, opens⟩ := check
  have other : ∀ (k : Nat) s, tr[k]? = some s → mailsOther s = true := fun k s at_k =>
    List.all_eq_true.1 others s (List.mem_of_getElem? at_k)
  have started : Started 3 (.exchangeOwnerRecovery "x") (tr.take 47) := by
    refine started_at.2 ⟨40, u, by omega, at_40, ?_⟩
    unfold opensLink at opens
    split at opens
    · next token label => rw [label, of_decide_eq_true opens]
    · cases opens
  unfold showsVaults at shows
  split at shows
  · next x label =>
    have mem : "v" ∈ x.vaults.map fun b => b.vault.id := by
      rw [of_decide_eq_true shows]
      decide
    obtain ⟨b, listed, vault⟩ := List.mem_map.1 mem
    obtain ⟨r, r', bundle, -, loaded, -, m, i, l, -, mailed, recovers, mails⟩ :=
      (isolated (host 0) tr runs (freshIds_of_nodup once)
        (recoveryUnguessed_of_oneRecovery link)).shown 47 s 3 "x" x b at_k started label listed
    -- what is loaded is the row of `v`, to which no recovery was mailed
    have here : r.id = "v" := by
      rw [bundle] at vault
      exact vault
    rw [here] at loaded
    obtain ⟨n, u', -, at_n, -, found⟩ := runs.read loaded
    have row : u'.before.account? "v" = some r' := found.symm
    have seals := (Bool.and_eq_true_iff.1 (other n u' at_n)).1
    rw [row, Option.all_some, decide_eq_true_eq] at seals
    have recipient := mails.unique (mailsTo_host seals (by decide))
    obtain ⟨n', u'', at_m, queued⟩ := mailed
    have sent : DeskStep.mailed? u'' = some l := by
      unfold DeskStep.mailed?
      rw [queued]
    have apart := (Bool.and_eq_true_iff.1 (other m u'' at_m)).2
    rw [sent, Option.all_some, recovers.1, recipient] at apart
    exact absurd apart (by decide)
  · cases shows

end Newer

end Identity

end GhostKey

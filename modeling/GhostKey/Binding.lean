import GhostKey.Cooldown

/-!
# One Key for a Confirmed Address

Vaults whose owner's address is confirmed, and which are not settled, bind the hash of the address
to the owner's key. Handlers look for a conflict before they write, and a trigger looks again at
each confirmation. Both compare hashes as texts, and none looks when a settled vault comes back.

Main results:
- `account?_after`, `others_kept`: the rows after a step, by the step's label.
- `agreed_iff`: when the vaults that bind one address agree on its key.
-/

namespace GhostKey

namespace Identity

open Foundation Program

/-! ## §1 Hashes and digests -/

/-- The value of a hex digit, of either case. -/
def hexValue (c : Char) : Nat :=
  if '0' ≤ c ∧ c ≤ '9' then c.toNat - '0'.toNat
  else if 'a' ≤ c ∧ c ≤ 'f' then c.toNat - 'a'.toNat + 10
  else c.toNat - 'A'.toNat + 10

/-- The digest a hash is the text of, half a byte a digit. -/
def digest (hash : Hash) : List Nat := hash.toList.map hexValue

/-- The vaults name one address: their hashes denote one digest. -/
def SameAddress (r x : Account) : Prop :=
  ∃ hash hash', r.ownerEmailHash = some hash ∧ x.ownerEmailHash = some hash' ∧
    digest hash = digest hash'

theorem SameAddress.symm {r x : Account} (same : SameAddress r x) : SameAddress x r := by
  obtain ⟨hash, hash', mine, others, eq⟩ := same
  exact ⟨hash', hash, others, mine, eq.symm⟩

/-- The vaults that bind one address carry one key. -/
def Agreed (w : Desk) : Prop :=
  ∀ id id' r x, w.account? id = some r → w.account? id' = some x → r.binds = true →
    x.binds = true → SameAddress r x → r.ownerXpub = x.ownerXpub

/-! ## §2 The rows after a step -/

/-- The row as the step leaves it, unless it deletes it. -/
def leaves (s : DeskStep) (r : Account) : Account :=
  match s.label with
  | .acted _ ⟨.exec st, .ok _⟩ => if st.target = some r.id then st.onFile r else r
  | .drifted (.live id status next) =>
      if id = r.id then { r with status := status, nextDeadlineAt := next } else r
  | _ => r

section Steps

variable {S : Server} {tr : DeskTrace} {s : DeskStep} {k : Nat} {id : VaultId} {r x : Account}

theorem leaves_sameFile (s : DeskStep) (r : Account) : r.SameFile (leaves s r) := by
  unfold leaves
  split
  · split
    · exact DeskStmt.onFile_sameFile _ r
    · exact .refl r
  · split
    · exact ⟨rfl, rfl, rfl, rfl, rfl, rfl⟩
    · exact .refl r
  · exact .refl r

/-- A statement that is about one row is not about another. -/
theorem leaves_exec {i : Nat} {st : DeskStmt} {n : Nat}
    (label : s.label = .acted i ⟨.exec st, .ok n⟩) :
    leaves s r = if st.target = some r.id then st.onFile r else r := by
  unfold leaves
  rw [label]

theorem leaves_live {id : VaultId} {status : Status} {next : Instant}
    (label : s.label = .drifted (.live id status next)) :
    leaves s r = if id = r.id then { r with status := status, nextDeadlineAt := next } else r := by
  unfold leaves
  rw [label]

/-- A statement that is not about a vault's row leaves it or deletes it. -/
theorem account?_untargeted {w w' : Desk} {st : DeskStmt} {n : Nat} (case : RunCase w st w' n)
    (untargeted : st.target = none) (here : w.account? r.id = some r) :
    w'.account? r.id = some r ∨ w'.account? r.id = none := by
  have row := case.account? r.id
  rw [here] at row
  rw [row]
  cases case with
  | updated target => rw [target] at untargeted; cases untargeted
  | @inserted r' accounts inserted =>
    left
    have other : r.id ≠ r'.id := by
      intro same
      have absent := KeyedTable.find?_eq_none_of_insert? inserted
      rw [← same] at absent
      exact absurd (here.symm.trans absent) (by simp)
    exact if_neg other
  | @deleted id' =>
    by_cases same : r.id = id'
    · exact .inr (if_pos same)
    · exact .inl (if_neg same)
  | recorded => exact .inl rfl
  | reserved => exact .inl rfl
  | queued => exact .inl rfl

theorem live_account? (w : Desk) (id : VaultId) (status : Status) (next : Instant) (id' : VaultId) :
    ((DeskDrift.live id status next).apply w).account? id' = (w.account? id').map fun r =>
      if r.id = id then { r with status := status, nextDeadlineAt := next } else r := by
  have updated := KeyedTable.find?_update w.accounts (fun r => decide (r.id = id))
    (fun r => { r with status := status, nextDeadlineAt := next }) (fun _ => rfl) id'
  simp only [decide_eq_true_eq] at updated
  exact updated

/-- A step is a statement that went through, a turn in a vault's life, or of no effect on rows. -/
inductive RowCase (s : DeskStep) : Prop
  | ran (i : Nat) (st : DeskStmt) (n : Nat) (label : s.label = .acted i ⟨.exec st, .ok n⟩)
      (case : RunCase s.before st s.after n)
  | lived (id : VaultId) (status : Status) (next : Instant)
      (label : s.label = .drifted (.live id status next))
      (ran : s.after = (DeskDrift.live id status next).apply s.before)
  | idle (rows : ∀ id, s.after.account? id = s.before.account? id) (leaves : ∀ r, leaves s r = r)

theorem row_case (explains : (desk S).Explains s) : RowCase s := by
  by_cases ran : ∃ i st n, s.label = .acted i ⟨.exec st, .ok n⟩
  · obtain ⟨i, st, n, label⟩ := ran
    exact .ran i st n label (run_case (executed explains label))
  by_cases lived : ∃ id status next, s.label = .drifted (.live id status next)
  · obtain ⟨id, status, next, label⟩ := lived
    unfold System.Explains at explains
    rw [label] at explains
    exact .lived id status next label explains
  refine .idle (fun id => ?_) fun r => ?_
  · cases account_after explains id with
    | same same => exact same
    | ran i st n label row => exact absurd ⟨i, st, n, label⟩ ran
    | lived status next label row => exact absurd ⟨id, status, next, label⟩ lived
  · unfold leaves
    split
    · next i st n label => exact absurd ⟨i, st, n, label⟩ ran
    · next id status next label => exact absurd ⟨id, status, next, label⟩ lived
    · rfl

/-- A row that is there stays, as the step leaves it, or is deleted. -/
theorem account?_after (explains : (desk S).Explains s) (here : s.before.account? r.id = some r) :
    s.after.account? r.id = some (leaves s r) ∨
      s.after.account? r.id = none ∧ leaves s r = r := by
  cases row_case explains with
  | idle rows leaves => exact .inl (by rw [rows, leaves, here])
  | lived id status next label ran =>
    left
    rw [leaves_live label, ran, live_account?, here, Option.map_some]
    by_cases same : r.id = id
    · rw [if_pos same, if_pos same.symm]
    · rw [if_neg same, if_neg fun eq => same eq.symm]
  | ran i st n label case =>
    rw [leaves_exec label]
    cases target : st.target with
    | none =>
      rw [if_neg (by simp)]
      exact (account?_untargeted case target here).imp_right fun gone => ⟨gone, rfl⟩
    | some id =>
      left
      rw [case.account?, DeskStmt.onRow_of_target target, here, Option.map_some]
      by_cases same : id = r.id
      · rw [if_pos same, if_pos (congrArg some same)]
      · rw [if_neg same, if_neg fun eq => same (Option.some.inj eq)]

/-- A step that changes a row leaves the others as they are. -/
theorem others_kept (explains : (desk S).Explains s) (changed : leaves s r ≠ r)
    (other : id ≠ r.id) : s.after.account? id = s.before.account? id := by
  cases row_case explains with
  | idle rows leaves => exact rows id
  | lived id' status next label ran =>
    rw [leaves_live label] at changed
    have here : id' = r.id := by
      by_contra elsewhere
      exact changed (if_neg elsewhere)
    rw [ran, live_account?]
    cases found : s.before.account? id with
    | none => rfl
    | some x =>
      have elsewhere : x.id ≠ id' := by
        rw [Desk.account?_id found, here]
        exact other
      rw [Option.map_some, if_neg elsewhere]
  | ran i st n label case =>
    rw [leaves_exec label] at changed
    have target : st.target = some r.id := by
      by_contra elsewhere
      exact changed (if_neg elsewhere)
    rw [case.account?, DeskStmt.onRow_of_target target, if_neg fun eq => other eq.symm]

/-- A row on file after a step is a new one, whose address is not confirmed, or it is as the step
leaves one that was on file. -/
theorem account?_before (explains : (desk S).Explains s) (after : s.after.account? id = some r) :
    (∃ r', s.before.account? id = some r' ∧ r = leaves s r') ∨
      ∃ i n, s.label = .acted i ⟨.exec (.insertVault r), .ok n⟩ := by
  rcases account_before explains after with ⟨r', here, -⟩ | ⟨i, n, label, -⟩
  · have key := Desk.account?_id here
    left
    refine ⟨r', here, ?_⟩
    rw [← key] at here after
    rcases account?_after explains here with kept | ⟨gone, -⟩
    · exact Option.some.inj (after.symm.trans kept)
    · rw [gone] at after
      cases after
  · exact .inr ⟨i, n, label⟩

/-! ## §3 Coming to bind -/

/-- The vault `r` comes to bind its address, by a confirmation or back from `claimed`, in a way the
trigger does not see: beside a vault of the same address whose hash is spelled another way, or out
of `claimed`. Then the two carry one key all the same. -/
def Careful (s : DeskStep) : Prop :=
  ∀ r x, s.before.account? r.id = some r → s.before.account? x.id = some x → r.binds = false →
    (leaves s r).binds = true → x.binds = true → SameAddress r x →
      (r.status = .claimed ∨ r.ownerEmailHash ≠ x.ownerEmailHash) → r.ownerXpub = x.ownerXpub

theorem SameAddress.of_sameFile {r' x' : Account} (same : SameAddress r' x') (mine : r.SameFile r')
    (others : x.SameFile x') : SameAddress r x := by
  obtain ⟨hash, hash', here, here', eq⟩ := same
  exact ⟨hash, hash', mine.ownerEmailHash ▸ here, others.ownerEmailHash ▸ here', eq⟩

theorem Account.verified_of_binds (binds : r.binds = true) : r.verifiedAt.isSome = true := by
  unfold Account.binds at binds
  rw [Bool.and_eq_true] at binds
  exact binds.1

/-- What the trigger sees, it refuses. -/
theorem same_key_of_confirmed (explains : (desk S).Explains s)
    (here : s.before.account? r.id = some r) (here' : s.before.account? x.id = some x)
    (pending : r.verifiedAt = none) (confirmed : (leaves s r).verifiedAt.isSome = true)
    (binds : x.binds = true) {hash : Hash} (mine : r.ownerEmailHash = some hash)
    (others : x.ownerEmailHash = some hash) : r.ownerXpub = x.ownerXpub := by
  have still : ¬ r.verifiedAt.isSome = true := by simp [pending]
  -- the bound row is another one, and the step confirms this one
  have other : x.id ≠ r.id := by
    intro same
    rw [same, here] at here'
    cases here'
    exact still (Account.verified_of_binds binds)
  cases row_case explains with
  | idle rows leaves =>
    rw [leaves] at confirmed
    exact absurd confirmed still
  | lived id status next label ran =>
    rw [leaves_live label] at confirmed
    split at confirmed <;> exact absurd confirmed still
  | ran i st n label case =>
    rw [leaves_exec label] at confirmed
    split at confirmed
    · next target =>
      unfold DeskStmt.onFile at confirmed
      split at confirmed
      · next picked =>
        have clear : s.before.conflicts r = false := by
          generalize s.after = w' at case
          cases case with
          | @updated _ id target' clear =>
            rw [target] at target'
            cases target'
            exact clear r here picked pending confirmed
          | _ => cases target
        -- the trigger would have seen the other key
        by_contra differ
        have mem : x ∈ s.before.accounts.rows := KeyedTable.find?_mem here'
        unfold Desk.conflicts at clear
        rw [mine, Option.any_some, List.any_eq_false] at clear
        apply clear x mem
        have differ' : ¬ x.ownerXpub = r.ownerXpub := fun eq => differ eq.symm
        simp [other, others, binds, differ']
      · exact absurd confirmed still
    · exact absurd confirmed still

/-- A vault that comes to bind an address has the key that is bound. -/
theorem same_key_of_comes (explains : (desk S).Explains s) (careful : Careful s)
    (here : s.before.account? r.id = some r) (here' : s.before.account? x.id = some x)
    (was : r.binds = false) (now : (leaves s r).binds = true) (binds : x.binds = true)
    (same : SameAddress r x) : r.ownerXpub = x.ownerXpub := by
  by_cases unseen : r.status = .claimed ∨ r.ownerEmailHash ≠ x.ownerEmailHash
  · exact careful r x here here' was now binds same unseen
  · rw [not_or, not_not] at unseen
    obtain ⟨live, spelled⟩ := unseen
    obtain ⟨hash, hash', mine, -, -⟩ := same
    have pending : r.verifiedAt = none := by
      unfold Account.binds at was
      simpa [live] using was
    exact same_key_of_confirmed explains here here' pending (Account.verified_of_binds now) binds
      mine (spelled ▸ mine)

/-- A careful step keeps the vaults in agreement, if it files no vault as confirmed. -/
theorem agreed_after (explains : (desk S).Explains s) (careful : Careful s)
    (unconfirmed : ∀ i n r, s.label = .acted i ⟨.exec (.insertVault r), .ok n⟩ →
      r.verifiedAt = none)
    (agreed : Agreed s.before) : Agreed s.after := by
  have old : ∀ id r, s.after.account? id = some r → r.binds = true →
      ∃ r', s.before.account? r'.id = some r' ∧ r = leaves s r' ∧ r'.id = id := by
    intro id r after binds
    rcases account?_before explains after with ⟨r', here, eq⟩ | ⟨i, n, label⟩
    · have key := Desk.account?_id here
      exact ⟨r', key.symm ▸ here, eq, key⟩
    · have confirmed := Account.verified_of_binds binds
      rw [unconfirmed i n r label] at confirmed
      cases confirmed
  intro id id' r x after after' binds binds' same
  obtain ⟨r', here, rfl, key⟩ := old id r after binds
  obtain ⟨x', here', rfl, key'⟩ := old id' x after' binds'
  have file := leaves_sameFile s r'
  have file' := leaves_sameFile s x'
  have same' : SameAddress r' x' := same.of_sameFile file file'
  rw [file.ownerXpub, file'.ownerXpub]
  cases was : r'.binds with
  | true =>
    cases was' : x'.binds with
    | true => exact agreed _ _ r' x' here here' was was' same'
    | false =>
      exact (same_key_of_comes explains careful here' here was' binds' was same'.symm).symm
  | false =>
    cases was' : x'.binds with
    | true => exact same_key_of_comes explains careful here here' was binds was' same'
    | false =>
      -- one step confirms one vault
      have changed : leaves s r' ≠ r' := by
        intro eq
        rw [eq, was] at binds
        cases binds
      by_cases one : x'.id = r'.id
      · rw [one, here] at here'
        cases here'
        rfl
      · have kept := others_kept explains changed one
        rw [key', after', ← key', here'] at kept
        rw [Option.some.inj kept, was'] at binds'
        cases binds'

/-- A step after which the vaults agree was careful. -/
theorem careful_of_agreed (explains : (desk S).Explains s) (agreed : Agreed s.after) :
    Careful s := by
  intro r x here here' was now binds same _
  have changed : leaves s r ≠ r := by
    intro eq
    rw [eq, was] at now
    cases now
  have other : x.id ≠ r.id := by
    intro one
    rw [one, here] at here'
    cases here'
    rw [was] at binds
    cases binds
  have after : s.after.account? r.id = some (leaves s r) := by
    rcases account?_after explains here with kept | ⟨-, eq⟩
    · exact kept
    · exact absurd eq changed
  have after' : s.after.account? x.id = some x := (others_kept explains changed other).trans here'
  have file := leaves_sameFile s r
  have key := agreed r.id x.id (leaves s r) x after after' now binds
    (same.of_sameFile file.symm (.refl x))
  exact file.ownerXpub ▸ key

/-- The vaults that bind an address agree on its key all along a run exactly when every step that
the trigger does not see is careful. -/
theorem agreed_iff (runs : Runs S tr) :
    (∀ (k : Nat) s, tr[k]? = some s → Agreed s.before ∧ Agreed s.after) ↔
      ∀ (k : Nat) s, tr[k]? = some s → Careful s := by
  constructor
  · intro agreed k s at_k
    exact careful_of_agreed (runs.explains at_k) (agreed k s at_k).2
  · intro careful
    obtain ⟨clock, c, run⟩ := runs
    refine (run.invariant_at (P := fun _ w => Agreed w) ?_ fun k s at_k explains agreed => ?_).1
    · intro id id' r x absent
      cases absent
    · refine agreed_after explains (careful k s at_k) (fun i n r label => ?_) agreed
      obtain ⟨q, -, sound⟩ := Runs.sound ⟨clock, c, run⟩ ⟨s, at_k, label⟩
      exact sound.2.2.1

end Steps

/-! ## §4 Two spellings -/

section Spellings

open Deployment

/-- A vault with a password, for the hash that repeats a digit. -/
def digested (address ownerXpub : String) (digit : Char) : DeskRequest :=
  .createVaultFromXpub ⟨none, "bitcoin", 144, 3600, 60, some address, none⟩ ownerXpub
    (some ⟨"salt", 1024, 1, "ct", "nonce", "ct", "nonce", none, none,
      .ofList (List.replicate 64 digit), none⟩)

/-- Two vaults, one after the other, and then the taps on both links. -/
def bothConfirmed (first second : DeskRequest) : List DeskMove :=
  [.start first] ++ deskSteps 0 15 "v" ++ [.drift (.pass 60000000000)] ++
    [.start second] ++ deskSteps 1 15 "w" ++ [.start (.verifyContact "v" "v")] ++
    deskSteps 2 5 "" ++ [.start (.verifyContact "w" "w")] ++ deskSteps 3 5 ""

/-- Whether both vaults bind the address after the step. -/
def bothBind (s : DeskStep) : Bool :=
  (s.after.account? "v").any fun r => (s.after.account? "w").any fun x => r.binds && x.binds

/-- Two vaults of one owner, both confirmed. -/
theorem agreed_iff_oneKey : ∃ tr, Runs (host 0) tr ∧ tr[44]?.any bothBind = true ∧
    ((∀ (k : Nat) s, tr[k]? = some s → Agreed s.before ∧ Agreed s.after) ↔
      ∀ (k : Nat) s, tr[k]? = some s → Careful s) := by
  obtain ⟨tr, runs, both⟩ := played (host 0)
    (bothConfirmed (digested "a@b" "xpub" 'a') (digested "a@b" "xpub" 'a'))
    (fun tr => tr[44]?.any bothBind) (by decide +kernel)
  exact ⟨tr, runs, both, agreed_iff runs⟩

/-- The same digest in capitals, under another key. -/
theorem not_agreed : ¬ ∀ (S : Server) (tr : DeskTrace), Runs S tr →
    ∀ (k : Nat) s, tr[k]? = some s → Agreed s.before ∧ Agreed s.after := by
  intro agreed
  obtain ⟨tr, runs, check⟩ := played (host 0)
    (bothConfirmed (digested "a@b" "xpub" 'a') (digested "a@b" "ypub" 'A'))
    (fun tr => tr[44]?.any fun s =>
      (s.after.account? "v").any fun r => (s.after.account? "w").any fun x =>
        r.binds && x.binds && decide (r.ownerEmailHash = some (.ofList (List.replicate 64 'a'))) &&
          decide (x.ownerEmailHash = some (.ofList (List.replicate 64 'A'))) &&
            decide (r.ownerXpub ≠ x.ownerXpub)) (by decide +kernel)
  simp only [Option.any_eq_true, Bool.and_eq_true, decide_eq_true_eq] at check
  obtain ⟨s, at_k, r, here, x, here', ⟨⟨⟨binds, binds'⟩, lower⟩, upper⟩, differ⟩ := check
  have spelled : digest (.ofList (List.replicate 64 'a')) =
      digest (.ofList (List.replicate 64 'A')) := by
    unfold digest
    rw [String.toList_ofList, String.toList_ofList, List.map_replicate, List.map_replicate]
    rfl
  exact differ ((agreed (host 0) tr runs 44 s at_k).2 "v" "w" r x here here' binds binds'
    ⟨_, _, lower, upper, spelled⟩)

end Spellings

end Identity

end GhostKey

import GhostKey.Deployment
import GhostKey.Identity.Course

/-!
# Waiting Times of Mails

A confirmation mail is reserved by the hash that the vault carries, and by the vault itself
where it carries none; a recovery mail by the challenge of its hash, as long as that is
unused. The hash is the client's word: nothing ties it to the address that is mailed.

Main results:
- `cooled`: one mail for each reservation, and how far apart the reservations of one hash,
  of one vault and of one challenge are.
- `not_onePerAddress`: two vaults of one address without a hash, and two mails at once.
-/

namespace GhostKey

namespace Identity

open Foundation Program

/-! ## §1 Mails and reservations -/

/-- At `k` the thread `i` queues the letter. -/
def MailedAt (tr : DeskTrace) (k i : Nat) (l : Letter) : Prop :=
  ∃ n, ActedAt tr k i (.exec (.enqueue l)) (.ok n)

/-- At `k` the thread `i` is granted a confirmation mail by the vault's own column. -/
def ReservedVault (tr : DeskTrace) (k i : Nat) (id : VaultId) (t : Instant) : Prop :=
  ∃ tokenHash cutoff, ActedAt tr k i (.exec (.reserveToken id tokenHash t cutoff)) (.ok 1)

/-- At `k` the thread `i` opens a challenge for the hash. -/
def OpenedAt (tr : DeskTrace) (k i : Nat) (hash tokenHash : Hash) (t : Instant) : Prop :=
  ∃ c cooldown retention, ActedAt tr k i (.openChallenge c cooldown retention) (.ok true) ∧
    c.emailHash = hash ∧ c.tokenHash = tokenHash ∧ c.createdAt = t

/-- At `k` a challenge is redeemed. -/
def RedeemedAt (tr : DeskTrace) (k : Nat) (tokenHash : Hash) : Prop :=
  ∃ i t hash, ActedAt tr k i (.redeem tokenHash t) (.ok (some hash))

/-- At `k` the thread `i` is granted a mail. -/
def GrantedAt (tr : DeskTrace) (k i : Nat) : Prop :=
  (∃ hash secs, ReservedHash tr k i hash secs) ∨ (∃ id t, ReservedVault tr k i id t) ∨
    ∃ hash tokenHash t, OpenedAt tr k i hash tokenHash t

/-- The requests that may send a mail with a token. -/
def DeskRequest.sends : DeskRequest → Bool
  | createVault _ => true
  | createVaultFromXpub _ _ _ => true
  | createVaultGuardian _ _ _ => true
  | resendVerification _ => true
  | requestOwnerRecovery _ => true
  | _ => false

/-- The tokens on file outlive a step, the expired and the used ones apart. -/
structure TokensKept (s : DeskStep) : Prop where
  verification : ∀ id r, s.before.account? id = some r → ∃ r', s.after.account? id = some r' ∧
    r'.verifyTokenHash = r.verifyTokenHash ∧ r'.verifySentAt = r.verifySentAt
  recovery : ∀ th x, s.before.challenge? th = some x → x.usedAt = none →
    s.before.clock < x.expiresAt → s.after.challenge? th = some x

/-- A request that has not been granted its mail changes no token. -/
def RefusalsKeep (tr : DeskTrace) : Prop :=
  ∀ (k : Nat) s i e q, tr[k]? = some s → s.label = .acted i e → Started i q (tr.take k) →
    q.sends = true → (∀ n ≤ k, ¬ GrantedAt tr n i) → TokensKept s

/-- At most one mail of a kind to one address within its waiting time. -/
structure OnePerAddress (tr : DeskTrace) : Prop where
  confirmations : ∀ j k i i' l l', j < k → MailedAt tr j i l → MailedAt tr k i' l' →
    l.kind = .contactVerification → l'.kind = .contactVerification → l.recipient = l'.recipient →
      l.createdAt + seconds 60 ≤ l'.createdAt
  recoveries : ∀ j k i i' l l', j < k → MailedAt tr j i l → MailedAt tr k i' l' →
    l.kind = .ownerRecovery → l'.kind = .ownerRecovery → l.recipient = l'.recipient →
      l.createdAt + minutes 10 ≤ l'.createdAt
  refusals : RefusalsKeep tr

/-- One mail for each reservation, and the waiting times between reservations. -/
structure Cooled (S : Server) (tr : DeskTrace) : Prop where
  /-- Before a confirmation mail its own thread is granted it, by the hash it has found on
  file for the vault, or by the vault where it has found none. -/
  confirmations : ∀ k i l, MailedAt tr k i l → l.kind = .contactVerification →
    ∃ j t, j < k ∧ Clocked (history i j tr) t ∧
      ((∃ hash, Hashed (history i k tr) l.vaultId (some hash) ∧
          ReservedHash tr j i hash (timestamp t)) ∨
        Hashed (history i k tr) l.vaultId none ∧ ReservedVault tr j i l.vaultId t)
  /-- Before a recovery mail its own thread opens the challenge of the link. -/
  recoveries : ∀ k i l, MailedAt tr k i l → l.kind = .ownerRecovery →
    ∃ j t hash token, j < k ∧ Clocked (history i j tr) t ∧
      OpenedAt tr j i hash (S.hashClaimToken token) t ∧ l.link = some (recoverUrl S token)
  once : ∀ j k i l l', MailedAt tr j i l → MailedAt tr k i l' → l.kind = l'.kind →
    l.kind ≠ .welcome → j = k
  hashes : ∀ j k i i' hash secs secs', j < k → ReservedHash tr j i hash secs →
    ReservedHash tr k i' hash secs' → secs + 60 ≤ secs'
  vaults : ∀ j k i i' id t t', j < k → ReservedVault tr j i id t → ReservedVault tr k i' id t' →
    julianMillis t + 60000 ≤ julianMillis t'
  /-- A second challenge for a hash comes ten minutes after the first, unless that has been
  redeemed. -/
  challenges : ∀ j k s i i' hash th th' t t', j < k → OpenedAt tr j i hash th t →
    OpenedAt tr k i' hash th' t' → tr[k]? = some s →
      t + minutes 10 ≤ s.before.clock ∨ ∃ n, j < n ∧ n < k ∧ RedeemedAt tr n th
  refusals : RefusalsKeep tr

/-! ## §2 The mails -/

variable {S : Server} {tr : DeskTrace} {s : DeskStep} {i j k : Nat} {id : VaultId} {l : Letter}

theorem Runs.mailed_once (runs : Runs S tr) {l' : Letter} (first : MailedAt tr j i l)
    (second : MailedAt tr k i l') (same : l.kind = l'.kind) (other : l.kind ≠ .welcome) : j = k := by
  obtain ⟨n, first⟩ := first
  obtain ⟨n', second⟩ := second
  obtain ⟨q, -, alone, -⟩ := runs.sound first
  obtain ⟨q', -, alone', -⟩ := runs.sound second
  rcases Nat.lt_trichotomy j k with earlier | here | later
  · have again := alone' (same ▸ other) _ (mem_history_iff.2 ⟨j, earlier, first⟩)
    simp [DeskAction.mails, same] at again
  · exact here
  · have again := alone other _ (mem_history_iff.2 ⟨k, later, second⟩)
    simp [DeskAction.mails, same] at again

theorem Runs.confirmation_granted (runs : Runs S tr) (mailed : MailedAt tr k i l)
    (kind : l.kind = .contactVerification) :
    ∃ j t, j < k ∧ Clocked (history i j tr) t ∧
      ((∃ hash, Hashed (history i k tr) l.vaultId (some hash) ∧
          ReservedHash tr j i hash (timestamp t)) ∨
        Hashed (history i k tr) l.vaultId none ∧ ReservedVault tr j i l.vaultId t) := by
  obtain ⟨n, mailed⟩ := mailed
  obtain ⟨q, -, -, lettered⟩ := runs.sound mailed
  unfold Lettered at lettered
  rw [kind] at lettered
  obtain ⟨token, t, -, -, -, -, granted⟩ := lettered
  rcases granted with ⟨hash, -, hashed, reserved, -⟩ | ⟨hashed, reserved⟩
  · obtain ⟨j, lt, reserved⟩ := mem_history_iff.1 reserved
    obtain ⟨q', -, -, -, t', -, clocked, secs, -⟩ := runs.sound reserved
    exact ⟨j, t', lt, clocked, .inl ⟨hash, hashed, _, secs ▸ reserved⟩⟩
  · obtain ⟨j, lt, reserved⟩ := mem_history_iff.1 reserved
    obtain ⟨q', -, -, token', -, -, -, clocked, -⟩ := runs.sound reserved
    exact ⟨j, t, lt, clocked, .inr ⟨hashed, _, _, reserved⟩⟩

theorem Runs.recovery_opened (runs : Runs S tr) (mailed : MailedAt tr k i l)
    (kind : l.kind = .ownerRecovery) :
    ∃ j t hash token, j < k ∧ Clocked (history i j tr) t ∧
      OpenedAt tr j i hash (S.hashClaimToken token) t ∧ l.link = some (recoverUrl S token) := by
  obtain ⟨n, mailed⟩ := mailed
  obtain ⟨q, -, -, lettered⟩ := runs.sound mailed
  unfold Lettered at lettered
  rw [kind] at lettered
  obtain ⟨token, hash, t, -, -, link, -, opened⟩ := lettered
  obtain ⟨j, lt, opened⟩ := mem_history_iff.1 opened
  obtain ⟨q', -, -, hash', -, -, token', t', -, -, clocked, made, -⟩ := runs.sound opened
  have same : t = t' := congrArg Challenge.createdAt made
  exact ⟨j, t, hash, token, lt, same ▸ clocked, ⟨_, _, _, opened, rfl, rfl, rfl⟩, link⟩

/-! ## §3 The reservations of a hash -/

theorem timestamp_sendCutoff (t : Instant) : timestamp (sendCutoff t) = timestamp t - 60 := by
  unfold timestamp sendCutoff verifyResendCooldownSecs seconds
  omega

/-- The reading and the start of the waiting time that a reservation names are a minute
apart. -/
theorem Runs.reserved_cutoff (runs : Runs S tr) {hash : Hash} {secs cutoff : Int}
    (reserved : ActedAt tr k i (.exec (.reserveSend hash secs cutoff)) (.ok 1)) :
    cutoff = secs - 60 := by
  obtain ⟨q, -, -, -, t, -, -, rfl, rfl⟩ := runs.sound reserved
  exact timestamp_sendCutoff t

theorem Runs.hashes_apart (runs : Runs S tr) {i' : Nat} {hash : Hash} {secs secs' : Int}
    (lt : j < k) (first : ReservedHash tr j i hash secs)
    (second : ReservedHash tr k i' hash secs') : secs + 60 ≤ secs' := by
  obtain ⟨cutoff, first⟩ := first
  obtain ⟨cutoff', second⟩ := second
  have apart := runs.reserved_cutoff second
  obtain ⟨s, at_j, label⟩ := first
  obtain ⟨t, at_k, label'⟩ := second
  -- the row of the hash never goes back
  have waiting : ∃ c, t.before.cooldown? hash = some c ∧ secs ≤ c.lastSentAt := by
    have runs' := runs
    obtain ⟨clock, c, run⟩ := runs
    refine run.since (P := fun w => ∃ c, w.cooldown? hash = some c ∧ secs ≤ c.lastSentAt) at_j
      ⟨_, (reserved_step (runs'.explains at_j) label).2, Int.le_refl _⟩ ?_ lt at_k
    rintro n u - - at_n ⟨c, here, le⟩
    rcases cooldown_after (runs'.explains at_n) hash with same | ⟨m, now, cutoff, label⟩
    · exact ⟨c, same ▸ here, le⟩
    · obtain ⟨waited, after⟩ := reserved_step (runs'.explains at_n) label
      refine ⟨_, after, ?_⟩
      have later := waited c here
      have gap := runs'.reserved_cutoff ⟨u, at_n, label⟩
      dsimp only
      omega
  obtain ⟨c, here, le⟩ := waiting
  have waited := (reserved_step (runs.explains at_k) label').1 c here
  omega

/-! ## §4 The reservations of a vault -/

theorem julianMillis_sendCutoff (t : Instant) :
    julianMillis (sendCutoff t) = julianMillis t - 60000 := by
  have shifted : ∀ x : Int, (x - 60 * 1000000000) / 1000000000 = x / 1000000000 - 60 ∧
      (x - 60 * 1000000000) % 1000000000 = x % 1000000000 := fun x => by omega
  unfold julianMillis sendCutoff verifyResendCooldownSecs seconds
  rw [(shifted t).1, (shifted t).2]
  dsimp only
  generalize t % 1000000000 = nano
  generalize t / 1000000000 = secs
  split <;> omega

/-- What a reservation by the vault's column finds. -/
theorem Desk.reserveToken_row {w w' : Desk} {tokenHash : Hash} {t cutoff : Instant} {n : Nat}
    (ran : w.run (.reserveToken id tokenHash t cutoff) = .ok (w', n)) (granted : n = 1) :
    ∃ r, w.account? id = some r ∧
      (∀ sent, r.verifySentAt = some sent → julianMillis sent ≤ julianMillis cutoff) ∧
      w'.account? id = some { r with verifyTokenHash := some tokenHash, verifySentAt := some t } := by
  have case := run_case ran
  have row := case.account? id
  cases case with
  | @updated _ id' target clear =>
    cases target
    obtain ⟨r, here, picked⟩ := (KeyedTable.affected_eq_one_iff w.accounts id _).1 granted
    refine ⟨r, here, fun sent known => ?_, ?_⟩
    · simpa [DeskStmt.picks, known] using picked
    · rw [row, DeskStmt.onRow_of_target rfl, if_pos rfl, show w.account? id = some r from here,
        Option.map_some, DeskStmt.onFile, if_pos picked]
      rfl

/-- What a statement does to the time of the last mail of a vault. -/
theorem DeskStmt.onRow_sent {st : DeskStmt} {x : Option Account} {r : Account}
    (after : st.onRow id x = some r) :
    (∃ r₀, x = some r₀ ∧ r.verifySentAt = r₀.verifySentAt) ∨ (st = .insertVault r ∧ r.id = id) ∨
      (∃ r₀ tokenHash t, x = some r₀ ∧ st = .setToken id tokenHash t) ∨
      ∃ r₀ tokenHash t cutoff, x = some r₀ ∧ st = .reserveToken id tokenHash t cutoff ∧
        st.picks r₀ = true ∧ r.verifySentAt = some t := by
  -- statements aimed at the vault, then those that are not
  by_cases aimed : st.target = some id
  · rw [onRow_of_target aimed, if_pos rfl] at after
    obtain ⟨r₀, here, rfl⟩ := Option.map_eq_some_iff.1 after
    cases st with
    | setToken id' tokenHash t =>
      cases aimed
      exact .inr (.inr (.inl ⟨r₀, tokenHash, t, here, rfl⟩))
    | reserveToken id' tokenHash t cutoff =>
      cases aimed
      by_cases picked : (reserveToken id tokenHash t cutoff).picks r₀ = true
      · refine .inr (.inr (.inr ⟨r₀, tokenHash, t, cutoff, here, rfl, picked, ?_⟩))
        rw [onFile, if_pos picked]
        rfl
      · refine .inl ⟨r₀, here, ?_⟩
        rw [onFile, if_neg picked]
    | _ =>
      refine .inl ⟨r₀, here, ?_⟩
      unfold onFile
      split <;> rfl
  · unfold onRow at after
    split at after
    · split at after
      · next same =>
        cases after
        exact .inr (.inl ⟨rfl, same.symm⟩)
      · exact .inl ⟨r, after, rfl⟩
    · split at after
      · cases after
      · exact .inl ⟨r, after, rfl⟩
    · rw [if_neg aimed] at after
      exact .inl ⟨r, after, rfl⟩

/-- A vault's hash as a handler has found it is the one on file. -/
theorem Runs.hashed (runs : Runs S tr) (fresh : FreshIds tr) {t : DeskStep} {hash : Option Hash}
    {m : Nat} (hashed : Hashed (history i k tr) id hash) (at_m : tr[m]? = some t) {r : Account}
    (here : t.before.account? id = some r) : r.ownerEmailHash = hash := by
  obtain ⟨r₀, read, rfl⟩ := hashed
  obtain ⟨j, s, -, at_j, -, found⟩ := runs.read read
  exact (runs.same_file fresh at_j at_m found.symm here).ownerEmailHash

theorem Runs.vaults_apart (runs : Runs S tr) (fresh : FreshIds tr) {i' : Nat} {t t' : Instant}
    (lt : j < k) (first : ReservedVault tr j i id t) (second : ReservedVault tr k i' id t') :
    julianMillis t + 60000 ≤ julianMillis t' := by
  obtain ⟨tokenHash, cutoff, first⟩ := first
  obtain ⟨tokenHash', cutoff', second⟩ := second
  obtain ⟨q, -, -, -, hashed, -⟩ := runs.sound first
  obtain ⟨q', -, -, -, -, -, -, -, gap⟩ := runs.sound second
  obtain ⟨s, at_j, label⟩ := first
  obtain ⟨u, at_k, label'⟩ := second
  obtain ⟨r, on_file, -, after⟩ := Desk.reserveToken_row (executed (runs.explains at_j) label) rfl
  have pending := runs.hashed fresh hashed at_j on_file
  obtain ⟨m, a, r₀, m_lt, inserted, -, key⟩ := runs.inserted at_j on_file
  -- what the column says of the vault never goes back
  have waiting : ∀ r, u.before.account? id = some r →
      ∃ sent, r.verifySentAt = some sent ∧ julianMillis t ≤ julianMillis sent := by
    have runs' := runs
    obtain ⟨clock, c, run⟩ := runs
    refine run.since (P := fun w => ∀ r, w.account? id = some r →
      ∃ sent, r.verifySentAt = some sent ∧ julianMillis t ≤ julianMillis sent) at_j ?_ ?_ lt at_k
    · intro r' here
      rw [after] at here
      cases here
      exact ⟨t, rfl, Int.le_refl _⟩
    · intro n v j_lt _ at_n before r' here
      cases account_after (runs'.explains at_n) id with
      | same same => exact before r' (same ▸ here)
      | lived status next label row =>
        obtain ⟨r₁, old, rfl⟩ := Option.map_eq_some_iff.1 (row.symm.trans here)
        exact before r₁ old
      | ran b st n' label row =>
        have acted : ActedAt tr n b (.exec st) (.ok n') := ⟨v, at_n, label⟩
        rcases DeskStmt.onRow_sent (row.symm.trans here) with ⟨r₁, old, same⟩ | ⟨rfl, named⟩ |
          ⟨r₁, th, u, old, rfl⟩ | ⟨r₁, th, u, cutoff, old, rfl, picked, sent⟩
        · exact same ▸ before r₁ old
        · -- the vault has been inserted before
          have one := runs'.inserted_once fresh inserted ⟨n', acted⟩ (key.trans named.symm)
          omega
        · -- that needs a hash on file
          obtain ⟨q, -, hash, -, hashed, -⟩ := runs'.sound acted
          have found := runs'.hashed fresh hashed at_n old
          have kept := (runs'.same_file fresh at_j at_n on_file old).ownerEmailHash
          rw [found, pending] at kept
          cases kept
        · obtain ⟨q, -, -, -, -, -, -, -, rfl⟩ := runs'.sound acted
          obtain ⟨last, known, le⟩ := before r₁ old
          have waited : julianMillis last ≤ julianMillis (sendCutoff u) := by
            simpa [DeskStmt.picks, known] using picked
          rw [julianMillis_sendCutoff] at waited
          exact ⟨u, sent, by omega⟩
  obtain ⟨r', here, waited, -⟩ := Desk.reserveToken_row (executed (runs.explains at_k) label') rfl
  obtain ⟨sent, known, le⟩ := waiting r' here
  have later := waited sent known
  rw [gap, julianMillis_sendCutoff] at later
  omega

/-! ## §5 Challenges -/

section Challenges

variable {x : Challenge} {th hash : Hash}

/-- A challenge as it was opened, for fifteen minutes. -/
structure Challenge.Live (x : Challenge) : Prop where
  unused : x.usedAt = none
  expires : x.expiresAt = x.createdAt + minutes ownerRecoveryTtlMinutes

theorem newChallenge_live (th hash : Hash) (t : Instant) : (newChallenge th hash t).Live := ⟨rfl, rfl⟩

/-- What is opened for the hash of a live challenge comes ten minutes after it. -/
theorem Runs.opened_late (runs : Runs S tr) {cooldown retention : Instant} {c : Challenge}
    (at_k : tr[k]? = some s) (here : s.before.challenge? th = some x) (live : x.Live)
    (label : s.label = .acted i ⟨.openChallenge c cooldown retention, .ok true⟩)
    (same : x.emailHash = c.emailHash) : x.createdAt + minutes 10 ≤ s.before.clock := by
  obtain ⟨q, -, -, hash, -, -, token, t, -, -, clocked, rfl, rfl, rfl⟩ :=
    runs.sound ⟨s, at_k, label⟩
  have past := runs.clocked_le at_k clocked
  have expires := live.expires
  obtain ⟨late, -⟩ := Desk.openChallenge_granted (opened_ran (runs.explains at_k) label)
  unfold minutes seconds ownerRecoveryTtlMinutes ownerRecoveryCooldownMinutes at *
  dsimp only [Instant] at past expires ⊢
  -- expired or not, the challenge is old enough
  by_cases expired : x.expiresAt ≤ t
  · dsimp only [Instant] at expired
    omega
  · have stays : x.stale t (t - hours ownerRecoveryUsedRetentionHours) = false := by
      simp [Challenge.stale, live.unused, Int.not_le.1 expired]
    have asked : x.pending hash = true := by
      have same : x.emailHash = hash := same
      simp [Challenge.pending, same, live.unused]
    have waited := late th x here stays asked
    dsimp only [Instant, newChallenge] at waited
    omega

/-- A live challenge stays for ten minutes, or is redeemed. -/
theorem Runs.challenge_kept (runs : Runs S tr) (at_k : tr[k]? = some s)
    (here : s.before.challenge? th = some x) (live : x.Live)
    (early : s.before.clock < x.createdAt + minutes 10) (open_ : ¬ RedeemedAt tr k th) :
    s.after.challenge? th = some x := by
  cases step_case (runs.explains at_k) with
  | idle same => exact same ▸ here
  | ran i st n label ran =>
    unfold Desk.challenge?
    rw [(run_case ran).rest.2]
    exact here
  | opened i c cooldown retention b label ran =>
    refine Desk.openChallenge_kept ran here live.unused ?_ ?_
    · obtain ⟨q, -, -, hash, -, -, token, t, -, -, clocked, rfl, -⟩ :=
        runs.sound ⟨s, at_k, label⟩
      have past := runs.clocked_le at_k clocked
      show t < x.expiresAt
      rw [live.expires]
      unfold minutes seconds ownerRecoveryTtlMinutes at *
      dsimp only [Instant] at past early ⊢
      omega
    · rintro rfl same
      exact absurd early (Int.not_lt.2 (runs.opened_late at_k here live label same))
  | redeemed i th' u y label ran =>
    have after : s.after = (s.before.redeem th' u).1 := (congrArg Prod.fst ran).symm
    rw [after, Desk.redeem_challenge?, here, Option.map_some, if_neg]
    rintro ⟨rfl, unused, fresh⟩
    -- the redemption would have been granted
    refine open_ ⟨i, u, x.emailHash, s, at_k, ?_⟩
    have returned : y = some x.emailHash := by
      refine (congrArg Prod.snd ran).symm.trans ?_
      show ((s.before.challenge? th).filter _).map _ = _
      rw [here]
      simp [Option.filter, unused, fresh]
    rw [label, returned]
  | drifted d label ran =>
    rw [ran]
    cases d <;> exact here

theorem Runs.challenges_apart (runs : Runs S tr) {i' : Nat} {th' : Hash} {t t' : Instant}
    (lt : j < k) (first : OpenedAt tr j i hash th t) (second : OpenedAt tr k i' hash th' t')
    (at_k : tr[k]? = some s) :
    t + minutes 10 ≤ s.before.clock ∨ ∃ n, j < n ∧ n < k ∧ RedeemedAt tr n th := by
  by_contra neither
  obtain ⟨early, unredeemed⟩ := not_or.1 neither
  obtain ⟨c, cooldown, retention, opened, rfl, rfl, rfl⟩ := first
  obtain ⟨c', cooldown', retention', opened', named, -, -⟩ := second
  have live : c.Live := by
    obtain ⟨q, -, -, hash, -, -, token, t, -, -, -, rfl, -⟩ := runs.sound opened
    exact newChallenge_live _ _ _
  obtain ⟨v, at_j, label⟩ := opened
  -- the first challenge is on file ever since
  have here : s.before.challenge? c.tokenHash = some c := by
    have runs' := runs
    obtain ⟨clock, e, run⟩ := runs
    refine run.since (P := fun w => w.challenge? c.tokenHash = some c) at_j ?_ ?_ lt at_k
    · obtain ⟨-, -, after⟩ := Desk.openChallenge_granted (opened_ran (runs'.explains at_j) label)
      rw [after, if_pos rfl]
    · intro n u after before at_n here
      refine runs'.challenge_kept at_n here live ?_ fun redeemed => ?_
      · exact Int.lt_of_le_of_lt (runs'.clock_mono (Nat.le_of_lt before) at_n at_k)
          (Int.not_le.1 early)
      · exact unredeemed ⟨n, after, before, redeemed⟩
  obtain ⟨s', at_k', label'⟩ := opened'
  rw [at_k] at at_k'
  cases at_k'
  exact early (runs.opened_late at_k here live label' named.symm)

end Challenges

/-! ## §6 Refusals -/

/-- The statements that may drop a token, or put another in its place. -/
def DeskStmt.retokens : DeskStmt → Bool
  | setToken _ _ _ => true
  | reserveToken _ _ _ _ => true
  | confirm _ _ _ => true
  | confirmSibling _ _ => true
  | deleteVault _ => true
  | _ => false

/-- The row is on file with the same token. -/
def Desk.TokenKept (w w' : Desk) (id : VaultId) : Prop :=
  ∀ r, w.account? id = some r → ∃ r', w'.account? id = some r' ∧
    r'.verifyTokenHash = r.verifyTokenHash ∧ r'.verifySentAt = r.verifySentAt

variable {w w' : Desk}

theorem Desk.TokenKept.of_eq (same : w'.account? id = w.account? id) : w.TokenKept w' id :=
  fun r here => ⟨r, same.trans here, rfl, rfl⟩

theorem RunCase.tokenKept {st : DeskStmt} {n : Nat} (case : RunCase w st w' n)
    (other : st.retokens = false) (id : VaultId) : w.TokenKept w' id := by
  intro r here
  have row := case.account? id
  rw [here] at row
  cases st with
  | insertVault r₀ =>
    refine ⟨r, ?_, rfl, rfl⟩
    cases case with
    | inserted inserted =>
      -- the id is not taken
      have absent := KeyedTable.find?_eq_none_of_insert? inserted
      have apart : id ≠ r₀.id := by
        rintro rfl
        exact absurd (here.symm.trans absent) (by simp)
      exact row.trans (if_neg apart)
    | updated target => cases target
  | setToken id' tokenHash t => cases other
  | reserveToken id' tokenHash t cutoff => cases other
  | confirm id' stored t => cases other
  | confirmSibling id' t => cases other
  | deleteVault id' => cases other
  | setInitialStatus id' =>
    rw [row, DeskStmt.onRow_of_target rfl]
    split
    · exact ⟨_, rfl, rfl, rfl⟩
    · exact ⟨r, rfl, rfl, rfl⟩
  | setVerified id' t =>
    rw [row, DeskStmt.onRow_of_target rfl]
    split
    · exact ⟨_, rfl, rfl, rfl⟩
    · exact ⟨r, rfl, rfl, rfl⟩
  | insertEvent id' kind => exact ⟨r, row, rfl, rfl⟩
  | reserveSend hash t cutoff => exact ⟨r, row, rfl, rfl⟩
  | enqueue l => exact ⟨r, row, rfl, rfl⟩

/-- A reservation by the vault's column that is refused changes nothing on file. -/
theorem Desk.reserveToken_refused {id' : VaultId} {tokenHash : Hash} {t cutoff : Instant} {n : Nat}
    (ran : w.run (.reserveToken id' tokenHash t cutoff) = .ok (w', n)) (refused : n ≠ 1)
    (id : VaultId) : w'.account? id = w.account? id := by
  have case := run_case ran
  have row := case.account? id
  cases case with
  | updated target clear =>
    cases target
    rw [row, DeskStmt.onRow_of_target rfl]
    split
    · next same =>
      subst same
      cases here : w.account? id' with
      | none => rfl
      | some r =>
        rw [Option.map_some, DeskStmt.onFile, if_neg]
        exact fun picked =>
          refused ((KeyedTable.affected_eq_one_iff w.accounts id' _).2 ⟨r, here, picked⟩)
    · rfl

theorem Runs.refusals (runs : Runs S tr) : RefusalsKeep tr := by
  intro k s i e q at_k label started sends refused
  have sound : ∀ {a : DeskAction} {x : a.Response}, s.label = .acted i ⟨a, x⟩ →
      Sound S q (history i k tr) a := by
    intro a x acted
    obtain ⟨q', started', sound⟩ := runs.sound ⟨s, at_k, acted⟩
    obtain ⟨clock, c, run⟩ := runs
    exact run.started_unique started'.of_take started.of_take ▸ sound
  cases step_case (runs.explains at_k) with
  | idle same =>
    exact ⟨fun id => Desk.TokenKept.of_eq (by rw [same]), fun th x here _ _ => same ▸ here⟩
  | ran i' st n label' ran =>
    rw [label] at label'
    cases label'
    have sound := sound label
    refine ⟨fun id => ?_, fun th x here _ _ => ?_⟩
    · by_cases other : st.retokens = false
      · exact (run_case ran).tokenKept other id
      · cases st with
        | setToken id' tokenHash t =>
          -- the hash has been reserved
          obtain ⟨hash, -, -, -, -, -, reserved⟩ := sound
          obtain ⟨j, lt, reserved⟩ := mem_history_iff.1 reserved
          exact absurd (.inl ⟨hash, _, _, reserved⟩) (refused j (Nat.le_of_lt lt))
        | reserveToken id' tokenHash t cutoff =>
          refine Desk.TokenKept.of_eq (Desk.reserveToken_refused ran ?_ id)
          rintro rfl
          exact refused k (Nat.le_refl k) (.inr (.inl ⟨id', t, tokenHash, cutoff, s, at_k, label⟩))
        | confirm id' stored t =>
          obtain ⟨r, token, u, rfl, -⟩ := sound
          cases sends
        | confirmSibling id' t =>
          obtain ⟨id₀, r, stored, hash, ids, ⟨token, u, rfl, -⟩, -⟩ := sound
          cases sends
        | deleteVault id' =>
          have asked : q = .deleteVault id' := sound
          subst asked
          cases sends
        | _ => exact absurd rfl other
    · unfold Desk.challenge?
      rw [(run_case ran).rest.2]
      exact here
  | opened i' c cooldown retention b label' ran =>
    rw [label] at label'
    cases label'
    refine ⟨fun id => Desk.TokenKept.of_eq ?_, fun th x here unused fresh => ?_⟩
    · unfold Desk.account?
      rw [Desk.openChallenge_accounts ran]
    · obtain ⟨-, hash, -, -, token, t, -, -, clocked, rfl, -⟩ := sound label
      refine Desk.openChallenge_kept ran here unused ?_ ?_
      · exact Int.lt_of_le_of_lt (runs.clocked_le at_k clocked) fresh
      · rintro rfl
        refine absurd (.inr (.inr ?_)) (refused k (Nat.le_refl k))
        exact ⟨_, _, _, _, _, _, ⟨s, at_k, label⟩, rfl, rfl, rfl⟩
  | redeemed i' th u y label' ran =>
    rw [label] at label'
    cases label'
    obtain ⟨-, token, rfl, -⟩ := sound label
    cases sends
  | drifted d label' ran =>
    rw [label] at label'
    cases label'

theorem cooled (runs : Runs S tr) (fresh : FreshIds tr) : Cooled S tr where
  confirmations _ _ _ mailed kind := runs.confirmation_granted mailed kind
  recoveries _ _ _ mailed kind := runs.recovery_opened mailed kind
  once _ _ _ _ _ first second same other := runs.mailed_once first second same other
  hashes _ _ _ _ _ _ _ lt first second := runs.hashes_apart lt first second
  vaults _ _ _ _ _ _ _ lt first second := runs.vaults_apart fresh lt first second
  challenges _ _ _ _ _ _ _ _ _ _ lt first second at_k := runs.challenges_apart lt first second at_k
  refusals := runs.refusals

/-! ## §7 Runs -/

/-- The id that a step draws. -/
def DeskStep.drawn? (s : DeskStep) : Option VaultId :=
  match s.label with
  | .acted _ ⟨.uuid, id⟩ => some id
  | _ => none

theorem freshIds_of_nodup (once : (tr.filterMap DeskStep.drawn?).Nodup) : FreshIds tr := by
  intro j k i i' id first second
  have drew : ∀ (m : Nat) a, ActedAt tr m a .uuid id → ∃ s, tr[m]? = some s ∧
      DeskStep.drawn? s = some id := by
    intro m a ⟨s, at_m, label⟩
    refine ⟨s, at_m, ?_⟩
    unfold DeskStep.drawn?
    rw [label]
  obtain ⟨s, at_j, draws⟩ := drew j i first
  obtain ⟨t, at_k, draws'⟩ := drew k i' second
  exact position_unique (g := fun id => id) (by simpa using once) at_j at_k draws draws' rfl

section Play

open Deployment

abbrev DeskMove := Move Chance DeskDrift DeskRequest

/-- `n` steps of thread `i`, in which `fresh` is drawn. -/
def deskSteps (i n : Nat) (fresh : String) : List DeskMove := List.replicate n (.step i ⟨false, fresh⟩)

/-- A vault without a password. -/
def unhashed (address : String) : DeskRequest :=
  .createVaultFromXpub ⟨none, "bitcoin", 144, 3600, 60, some address, none⟩ "xpub" none

/-- A mail at the creation, and a second one a minute later. -/
def resent : List DeskMove :=
  [.start (unhashed "a@b")] ++ deskSteps 0 12 "v" ++ [.drift (.pass 60000000000)] ++
    [.start (.resendVerification "v")] ++ deskSteps 1 9 "w"

/-- Two vaults for one address. -/
def twoVaults : List DeskMove :=
  [.start (unhashed "a@b")] ++ deskSteps 0 12 "v" ++ [.start (unhashed "a@b")] ++
    deskSteps 1 12 "w"

theorem played (S : Server) (ms : List DeskMove) (P : DeskTrace → Bool)
    (check : (((desk S).play ms (System.boot (Desk.start 0))).any fun r => P r.1) = true) :
    ∃ tr, Runs S tr ∧ P tr = true := by
  obtain ⟨tr, c, run, holds⟩ := Run.exists_of_play (P := fun tr _ => P tr) check
  exact ⟨tr, ⟨0, c, run⟩, holds⟩

/-- The mail that a step queues. -/
def DeskStep.mailed? (s : DeskStep) : Option Letter :=
  match s.label with
  | .acted _ ⟨.exec (.enqueue l), .ok _⟩ => some l
  | _ => none

theorem mailedAt_of_mailed? {l : Letter} (mailed : tr[k]?.bind DeskStep.mailed? = some l) :
    ∃ i, MailedAt tr k i l := by
  obtain ⟨s, at_k, mailed⟩ := Option.bind_eq_some_iff.1 mailed
  unfold DeskStep.mailed? at mailed
  split at mailed
  · next i l' n label =>
    cases mailed
    exact ⟨i, n, s, at_k, label⟩
  · cases mailed

/-- The mails of one vault, a minute apart. -/
theorem cooled_resent : ∃ tr l l', Runs (host 0) tr ∧ (∃ i, MailedAt tr 11 i l) ∧
    (∃ i, MailedAt tr 22 i l') ∧ l.recipient = l'.recipient ∧ Cooled (host 0) tr := by
  obtain ⟨tr, runs, check⟩ := played (host 0) resent (fun tr =>
    decide (tr.filterMap DeskStep.drawn?).Nodup &&
      ((tr[11]?.bind DeskStep.mailed?).any fun l => (tr[22]?.bind DeskStep.mailed?).any fun l' =>
        l.recipient = l'.recipient)) (by decide +kernel)
  simp only [Bool.and_eq_true, Option.any_eq_true, decide_eq_true_eq] at check
  obtain ⟨once, l, first, l', second, same⟩ := check
  exact ⟨tr, l, l', runs, mailedAt_of_mailed? first, mailedAt_of_mailed? second, same,
    cooled runs (freshIds_of_nodup once)⟩

/-- Without a hash each vault has a waiting time of its own. -/
theorem not_onePerAddress : ¬ ∀ (S : Server) (tr : DeskTrace), Runs S tr → FreshIds tr →
    OnePerAddress tr := by
  intro one
  obtain ⟨tr, runs, check⟩ := played (host 0) twoVaults (fun tr =>
    decide (tr.filterMap DeskStep.drawn?).Nodup &&
      ((tr[11]?.bind DeskStep.mailed?).any fun l => (tr[24]?.bind DeskStep.mailed?).any fun l' =>
        l.kind = .contactVerification && l'.kind = .contactVerification &&
          l.recipient = l'.recipient && l.createdAt = l'.createdAt)) (by decide +kernel)
  simp only [Bool.and_eq_true, Option.any_eq_true, decide_eq_true_eq] at check
  obtain ⟨once, l, first, l', second, ⟨⟨kind, kind'⟩, same⟩, together⟩ := check
  obtain ⟨i, first⟩ := mailedAt_of_mailed? first
  obtain ⟨i', second⟩ := mailedAt_of_mailed? second
  have apart := (one (host 0) tr runs (freshIds_of_nodup once)).confirmations 11 24 i i' l l'
    (by decide) first second kind kind' same
  rw [together] at apart
  unfold seconds at apart
  dsimp only [Instant] at apart
  omega

end Play

end Identity

end GhostKey

import GhostKey.Deployment
import GhostKey.Conduct.Tidy

/-!
# One-Tap Links

The mails to an owner carry a link with a token, whose hash is a column of the vault. A
tap on it checks the owner in, or mints an invoice and asks for its status. The check-in
looks the token up again in the UPDATE that accepts it; the two others only ahead of what
they do, so that a check-in may come in between.

Main results:
- `singleUse`: a token is good for one check-in, and for nothing that is looked up after a
  check-in or a panic of its vault.
- `not_deadAtOnce`: an invoice minted by a link after a check-in.
-/

namespace GhostKey

open Foundation Program Prog

/-! ## §1 Links -/

/-- The vault and the token of a request that comes by a one-tap link. -/
def Request.oneTap : Request → Option (VaultId × Token)
  | checkinFromLink id token => some (id, token)
  | createInvoiceFromLink id token => some (id, token)
  | invoiceStatusFromLink id token _ => some (id, token)
  | _ => none

/-- The look-up of a token, by both functions that verify it. -/
def lookUp (S : Server) (v : VaultId) (token : Token) : Query :=
  .vaultByCheckinLink v (S.hashClaimToken token)

/-- The hash is on file for the vault, unused. -/
def LinkLive (w : World) (v : VaultId) (hash : Hash) : Prop :=
  ∃ r, w.vault? v = some r ∧ r.life.checkinLinkTokenHash = some hash ∧
    r.life.checkinLinkTokenUsedAt = none

/-- The UPDATEs of an accepted check-in and of a panic. -/
def VaultUpdate.closesLinks : VaultUpdate → Bool
  | checkin _ _ _ => true
  | checkinFromLink _ _ _ _ => true
  | resetVaultClock _ _ _ => true
  | panicFreeze _ => true
  | _ => false

/-- At `k` a check-in or a panic of the vault is accepted. -/
def ClosedAt (tr : Trace) (k : Nat) (v : VaultId) : Prop :=
  ∃ s u, tr[k]? = some s ∧ Commits s v u ∧ u.closesLinks = true

/-- At `k` a one-tap token is put on file. -/
def MintedAt (tr : Trace) (k i : Nat) (v : VaultId) (hash : Hash) : Prop :=
  ∃ s t, tr[k]? = some s ∧ Did i (.exec (.updateVault v (.mintOneTapToken hash t))) (.ok 1) s

/-- At `k` the one-tap check-in of thread `i` is accepted. -/
def TappedAt (tr : Trace) (k i : Nat) (v : VaultId) (token : Token) : Prop :=
  Started i (.checkinFromLink v token) (tr.take k) ∧ ∃ s stored t next eligible,
    tr[k]? = some s ∧
      Did i (.exec (.updateVault v (.checkinFromLink stored t next eligible))) (.ok 1) s

/-- At `k` thread `i` has found the link of the token live. -/
def AdmittedAt (S : Server) (tr : Trace) (k i : Nat) (v : VaultId) (token : Token) : Prop :=
  ∃ s r, tr[k]? = some s ∧ Did i (.query (lookUp S v token)) (.ok (some r)) s ∧
    LinkLive s.before v (S.hashClaimToken token)

/-- At `k` thread `i` does something other than look its token up, or succeeds. -/
def GoesOnAt (S : Server) (tr : Trace) (k i : Nat) (v : VaultId) (token : Token) : Prop :=
  ∃ s, tr[k]? = some s ∧ ((∃ e, s.label = .acted i e ∧ e.action ≠ .query (lookUp S v token)) ∨
    ∃ x, s.label = .returned i (.ok x))

/-- No two tokens that are drawn have one hash. -/
def FreshTokens (S : Server) (tr : Trace) : Prop :=
  ∀ (j k : Nat) s t i i' (token token' : Token), tr[j]? = some s → tr[k]? = some t →
    Did i (.ask .bearerToken) token s → Did i' (.ask .bearerToken) token' t →
      S.hashClaimToken token = S.hashClaimToken token' → j = k

/-- A token is good for one check-in, and only for as long as its link is live. -/
structure SingleUse (S : Server) (tr : Trace) : Prop where
  once : ∀ j k i i' v v' token, TappedAt tr j i v token → TappedAt tr k i' v' token →
    j = k ∧ v = v'
  /-- The check-in by a link finds it live in the very step that accepts it. -/
  tapped : ∀ k i v token, TappedAt tr k i v token → ∃ s, tr[k]? = some s ∧
    LinkLive s.before v (S.hashClaimToken token)
  /-- Whatever else comes by a link has found it live before. -/
  admitted : ∀ k i q v token, Started i q (tr.take k) → q.oneTap = some (v, token) →
    GoesOnAt S tr k i v token → ∃ j, j < k ∧ AdmittedAt S tr j i v token
  /-- A one-tap check-in that succeeds was accepted. -/
  replied : ∀ k i v token s x, Started i (.checkinFromLink v token) (tr.take k) →
    tr[k]? = some s → s.label = .returned i (.ok x) → ∃ j, j < k ∧ TappedAt tr j i v token
  /-- A check-in or a panic ends the link for good. -/
  closed : ∀ l k n s t v hash, l ≤ k → tr[l]? = some s → LinkLive s.before v hash →
    ClosedAt tr k v → k < n → tr[n]? = some t → ¬ LinkLive t.before v hash
  single : ∀ (k : Nat) s v hash hash', tr[k]? = some s → LinkLive s.before v hash →
    LinkLive s.before v hash' → hash = hash'
  /-- A token does not take the place of one that is live. -/
  spared : ∀ k i v hash hash' s, MintedAt tr k i v hash → tr[k]? = some s →
    ¬ LinkLive s.before v hash'

/-! ## §2 What a handler that comes by a link has seen -/

section Handler

variable {S : Server} {v : VaultId} {token : Token} {h g : Hist} {q : Request} {α : Type}

/-- The handler has found the link live. -/
def FoundLive (S : Server) (h : Hist) (v : VaultId) (token : Token) : Prop :=
  ∃ r, Read h (lookUp S v token) (some r) ∧ r.life.checkinLinkTokenUsedAt = none

theorem FoundLive.mono (found : FoundLive S h v token) (sub : h ⊆ g) : FoundLive S g v token := by
  obtain ⟨r, read, unused⟩ := found
  exact ⟨r, sub read, unused⟩

/-- Before anything but its look-up a handler that comes by a link has found it live, and a
check-in by the link names the hash it has found. -/
def ByLink (S : Server) (q : Request) (h : Hist) (a : Action) : Prop :=
  ∀ v token, q.oneTap = some (v, token) → a = .query (lookUp S v token) ∨ FoundLive S h v token ∧
    ∀ id stored t next eligible, a = .exec (.updateVault id (.checkinFromLink stored t next eligible)) →
      ∃ r, Read h (lookUp S v token) (some r) ∧ r.life.checkinLinkTokenHash = some stored

/-- And before it succeeds, too. -/
def EndsByLink (S : Server) (q : Request) (h : Hist) (x : Except ApiError Reply) : Prop :=
  ∀ v token reply, q.oneTap = some (v, token) → x = .ok reply → FoundLive S h v token ∧
    (q = .checkinFromLink v token → ∃ stored t next eligible n,
      Ran h (.updateVault v (.checkinFromLink stored t next eligible)) n ∧ n ≠ 0)

/-- A handler that has found the link live may go on as it likes, but for check-ins. -/
theorem byLink_of_found (asked : q.oneTap = some (v, token)) (found : FoundLive S h v token)
    {a : Action} (free : a.isFree = true) : ByLink S q h a := by
  intro v' token' asked'
  rw [asked] at asked'
  cases asked'
  refine .inr ⟨found, ?_⟩
  rintro id stored t next eligible rfl
  cases free

/-- What is free keeps what was found. -/
theorem byLink_free {p : Prog α} (asked : q.oneTap = some (v, token))
    (found : FoundLive S h v token) (free : Free p) :
    Meets (fun g e => ByLink S q g e.action) (fun g _ => FoundLive S g v token) p h := by
  refine Meets.mono ((free.meets h).and (Meets.grows p h)) (fun g e both => ?_) fun g _ both => ?_
  · exact byLink_of_found asked (found.mono both.2.subset) both.1
  · exact found.mono both.2.subset

/-- The first action of a handler that comes by a link. -/
theorem byLink_lookUp (asked : q.oneTap = some (v, token)) :
    ByLink S q h (.query (lookUp S v token)) := by
  intro v' token' asked'
  rw [asked] at asked'
  cases asked'
  exact .inl rfl

theorem byLink_verifyCheckinLinkToken (asked : q.oneTap = some (v, token)) :
    Meets (fun g e => ByLink S q g e.action) (fun g x => x = .ok () → FoundLive S g v token)
      (verifyCheckinLinkToken S v token) h := by
  intro row
  refine ⟨byLink_lookUp asked, ?_⟩
  cases row with
  | error e => exact fun failed => by cases failed
  | ok row =>
    cases row with
    | none => exact fun failed => by cases failed
    | some r =>
      show Meets _ _ ((okOr .notFound r.life.checkinLinkTokenHash).bind fun storedHash =>
        if !S.claimTokenMatches token storedHash then _ else
          if r.life.checkinLinkTokenUsedAt.isSome then _ else _) _
      cases r.life.checkinLinkTokenHash with
      | none => exact fun failed => by cases failed
      | some storedHash =>
        show Meets _ _ (if !S.claimTokenMatches token storedHash then _ else
          if r.life.checkinLinkTokenUsedAt.isSome then _ else _) _
        split
        · exact fun failed => by cases failed
        · split
          · exact fun failed => by cases failed
          · next unused => exact fun _ => ⟨r, Read.here, by simpa using unused⟩

/-- A handler that verifies the token first, and then does what is free. -/
theorem byLink_verified {p : Prog α} {wrap : α → Reply} (asked : q.oneTap = some (v, token))
    (other : ∀ v token, q ≠ .checkinFromLink v token) (free : Free p) :
    Meets (fun g e => ByLink S q g e.action) (EndsByLink S q)
      (Prog.reply (do verifyCheckinLinkToken S v token; p) wrap) h := by
  have ends : ∀ (g : Hist) (x : Except ApiError Reply), FoundLive S g v token →
      EndsByLink S q g x := by
    intro g x found v' token' reply asked' _
    rw [asked] at asked'
    cases asked'
    exact ⟨found, fun same => absurd same (other v token)⟩
  have fails : ∀ (g : Hist) (e : ApiError), EndsByLink S q g (.error e) := by
    intro g e v' token' reply _ failed
    cases failed
  refine Meets.bind (Q := fun g x => (∃ a, x = .ok a) → FoundLive S g v token) ?_ ?_
    fun g e _ _ => fails g e
  · refine Meets.bind (byLink_verifyCheckinLinkToken asked) ?_ fun _ _ _ _ failed => by
      obtain ⟨a, failed⟩ := failed
      cases failed
    intro g _ _ found
    exact Meets.mono (byLink_free asked (found rfl) free) (fun _ _ good => good)
      fun _ _ found _ => found
  · exact fun g a _ found => ends g _ (found ⟨a, rfl⟩)

/-- The second half of the one-tap check-in: the UPDATE names the hash that was found. -/
theorem byLink_accept (r : VaultRow) {storedHash : Hash} (read : Read h (lookUp S v token) (some r))
    (unused : r.life.checkinLinkTokenUsedAt = none)
    (stored : r.life.checkinLinkTokenHash = some storedHash) :
    Meets (fun g e => ByLink S (.checkinFromLink v token) g e.action)
      (fun g (x : Except ApiError CheckinResponse) => (∃ a, x = .ok a) → FoundLive S g v token ∧
        ∃ stored t next eligible n,
          Ran g (.updateVault v (.checkinFromLink stored t next eligible)) n ∧ n ≠ 0)
      (do
        let tGate ← now
        if !inLastResortWindow r.life.claimEligibleAt tGate then .fail notLastResort
        else
          let tPeriod ← now
          oncePerPeriod S r tPeriod
          let t ← now
          let rows ← update v (.checkinFromLink storedHash t (t + r.settings.cycle)
            (t + r.settings.cycle + r.settings.grace))
          if rows = 0 then .fail linkUsed
          else
            recordEvent v .checkin [("source", .str "one_tap_link")]
            pure ⟨v, t, t + r.settings.cycle, .ok⟩) h := by
  have asked : (Request.checkinFromLink v token).oneTap = some (v, token) := rfl
  have found : FoundLive S h v token := ⟨r, read, unused⟩
  -- the last-resort window is asked for first
  intro (tGate : Instant)
  refine ⟨byLink_of_found asked found rfl, ?_⟩
  show Meets _ _ (if !inLastResortWindow r.life.claimEligibleAt tGate then _ else _) _
  split
  · exact fun ⟨_, failed⟩ => by cases failed
  · intro (tPeriod : Instant)
    -- then the period rule, which writes nothing of the link
    have found₁ := found.mono (List.subset_append_left _ [⟨.now, tGate⟩])
    have found₂ := found₁.mono (List.subset_append_left _ [⟨.now, tPeriod⟩])
    refine ⟨byLink_of_found asked found₁ rfl, ?_⟩
    show Meets _ _ ((oncePerPeriod S r tPeriod).bind fun _ => _) _
    refine Meets.bind (Meets.and (byLink_free asked found₂ (free_oncePerPeriod S r tPeriod))
      (Meets.grows _ _) |>.mono (fun _ _ both => both.1) fun _ _ both => both) ?_
      fun _ _ _ _ ⟨_, failed⟩ => by cases failed
    rintro g - - ⟨found₃, grown⟩ (t : Instant)
    -- the row read is still the one looked up when the UPDATE goes out
    have read₄ : Read (g ++ [⟨.now, t⟩]) (lookUp S v token) (some r) :=
      (read.later.later.mono grown.subset).later
    refine ⟨byLink_of_found asked found₃ rfl, fun rows => ⟨?_, ?_⟩⟩
    -- the UPDATE names the link's hash, as the definition asks
    · intro v' token' asked'
      cases asked'
      refine .inr ⟨⟨r, read₄, unused⟩, ?_⟩
      rintro id stored' t' next eligible ⟨⟩
      exact ⟨r, read₄, stored⟩
    · cases rows with
      | error e => exact fun ⟨_, failed⟩ => by cases failed
      | ok n =>
        show Meets _ _ (if n = 0 then _ else _) _
        split
        · exact fun ⟨_, failed⟩ => by cases failed
        -- a row was met, so the check-in is recorded
        · next some_ =>
          have found₅ : FoundLive S (g ++ [⟨.now, t⟩] ++ [⟨.exec (.updateVault v (.checkinFromLink
              storedHash t (t + r.settings.cycle) (t + r.settings.cycle + r.settings.grace))),
              .ok n⟩]) v token := ⟨r, read₄.later, unused⟩
          refine Meets.bind (Meets.and (byLink_free asked found₅ (free_recordEvent (by decide)))
            (Meets.grows _ _) |>.mono (fun _ _ both => both.1) fun _ _ both => both) ?_
            fun _ _ _ _ ⟨_, failed⟩ => by cases failed
          rintro g' - - ⟨found₆, grown'⟩
          exact fun _ => ⟨found₆, storedHash, t, _, _, n, grown'.subset Ran.here, some_⟩

theorem byLink_checkinFromLink (v : VaultId) (token : Token) :
    Meets (fun g e => ByLink S (.checkinFromLink v token) g e.action)
      (EndsByLink S (.checkinFromLink v token))
      ((checkinFromLink S v token).reply .checkedIn) [] := by
  have fails : ∀ (g : Hist) (e : ApiError),
      EndsByLink S (.checkinFromLink v token) g (.error e) := by
    intro g e v' token' reply _ failed
    cases failed
  have asked : (Request.checkinFromLink v token).oneTap = some (v, token) := rfl
  refine Meets.bind (Q := fun g x => (∃ a, x = .ok a) → FoundLive S g v token ∧
    ∃ stored t next eligible n,
      Ran g (.updateVault v (.checkinFromLink stored t next eligible)) n ∧ n ≠ 0) ?_ ?_
    fun g e _ _ => fails g e
  -- the look-up comes first; a link not found, used or of a final claim is refused
  · intro row
    refine ⟨byLink_lookUp asked, ?_⟩
    cases row with
    | error e => exact fun ⟨_, failed⟩ => by cases failed
    | ok row =>
      cases row with
      | none => exact fun ⟨_, failed⟩ => by cases failed
      | some r =>
        show Meets _ _ ((okOr .notFound r.life.checkinLinkTokenHash).bind fun storedHash =>
          if !S.claimTokenMatches token storedHash then _ else
            if r.life.checkinLinkTokenUsedAt.isSome then _ else
              if claimIsFinal r.life.status then _ else _) _
        cases stored : r.life.checkinLinkTokenHash with
        | none => exact fun ⟨_, failed⟩ => by cases failed
        | some storedHash =>
          show Meets _ _ (if !S.claimTokenMatches token storedHash then _ else
            if r.life.checkinLinkTokenUsedAt.isSome then _ else
              if claimIsFinal r.life.status then _ else _) _
          split
          · exact fun ⟨_, failed⟩ => by cases failed
          · split
            · exact fun ⟨_, failed⟩ => by cases failed
            · next unused =>
              split
              · exact fun ⟨_, failed⟩ => by cases failed
              · -- from here on the link has been found live
                have read : Read ([] ++ [⟨.query (lookUp S v token), .ok (some r)⟩])
                    (lookUp S v token) (some r) := Read.here
                exact byLink_accept r read (by simpa using unused) stored
  -- the reply hands on what the program has done
  · rintro g a - ends v' token' reply asked' -
    cases asked'
    obtain ⟨found, ran⟩ := ends ⟨a, rfl⟩
    exact ⟨found, fun _ => ran⟩

/-- Whoever comes by a link goes by what the look-up has found. -/
theorem byLink (S : Server) (q : Request) :
    Meets (fun g e => ByLink S q g e.action) (EndsByLink S q) (q.program S) [] := by
  by_cases comes : ∃ v token, q.oneTap = some (v, token)
  · obtain ⟨v, token, asked⟩ := comes
    cases q with
    | checkinFromLink v' token' => exact byLink_checkinFromLink v' token'
    | createInvoiceFromLink v' token' =>
      exact byLink_verified (v := v') rfl (by simp) (free_createCheckinInvoice S v')
    | invoiceStatusFromLink v' token' paymentHash =>
      refine byLink_verified (v := v') rfl (by simp) (p := readInvoiceStatus v' paymentHash) ?_
      exact free_readInvoiceStatus v' paymentHash
    | _ => cases asked
  · -- nothing is asked of the others
    have none : ∀ v token, q.oneTap ≠ some (v, token) := fun v token asked => comes ⟨v, token, asked⟩
    refine Meets.mono (Meets.grows _ []) (fun g e _ v token asked => ?_) fun g x _ v token _ asked => ?_
    · exact absurd asked (none v token)
    · exact absurd asked (none v token)

end Handler

/-! ## §3 Links along a run -/

section Runs

variable {S : Server} {t₀ : Instant} {tr : Trace} {s t : SrvStep} {i i' j k : Nat}
variable {v v' : VaultId} {hash : Hash} {token : Token}

/-- Only a mint puts a hash on file. -/
theorem Runs.link_minted (runs : Runs S t₀ tr) (at_k : tr[k]? = some s)
    (dead : ¬ LinkLive s.before v hash) (live : LinkLive s.after v hash) :
    ∃ i, MintedAt tr k i v hash := by
  obtain ⟨r', here, stored, unused⟩ := live
  -- one case per change of the row: only a mint writes the hash
  cases rowChange (runs.explains_at at_k) v with
  | kept same => exact absurd ⟨r', same ▸ here, stored, unused⟩ dead
  | contacts r c before after =>
    rw [after] at here
    cases here
    exact absurd ⟨r, before, stored, unused⟩ dead
  | inserted i r n did id fresh after =>
    obtain ⟨q, -, t, token, -, life, -⟩ := runs.justified at_k did
    rw [after] at here
    cases here
    rw [life] at stored
    cases stored
  | deleted i n did after =>
    rw [after] at here
    cases here
  | applied u r applies before guard after =>
    rw [after] at here
    cases here
    rw [VaultUpdate.set_life] at stored unused
    cases u with
    | mintOneTapToken hash' t =>
      cases stored
      cases applies with
      | @exec i _ n did =>
        obtain ⟨rfl, -⟩ := did_update_hit (runs.explains_at at_k) did before guard
        exact ⟨i, s, t, at_k, did⟩
    | checkin | checkinFromLink | resetVaultClock | panicFreeze => cases stored
    | _ => exact absurd ⟨r, before, stored, unused⟩ dead

theorem Runs.minted_before (runs : Runs S t₀ tr) (at_k : tr[k]? = some s)
    (live : LinkLive s.before v hash) : ∃ m i, m < k ∧ MintedAt tr m i v hash := by
  have runs' := runs
  obtain ⟨c, run⟩ := runs
  refine ((run.invariant_at (P := fun k w => LinkLive w v hash →
    ∃ m i, m < k ∧ MintedAt tr m i v hash) ?_ ?_).1 k s at_k).1 live
  · rintro ⟨r, absent, -⟩
    cases absent
  · intro k s at_k _ before after
    by_cases live : LinkLive s.before v hash
    · obtain ⟨m, i, lt, minted⟩ := before live
      exact ⟨m, i, Nat.lt_succ_of_lt lt, minted⟩
    · obtain ⟨i, minted⟩ := runs'.link_minted at_k live after
      exact ⟨k, i, Nat.lt_succ_self k, minted⟩

/-- A mint follows the draw of its token, with nothing of the thread in between. -/
theorem MintedAt.drawn (runs : Runs S t₀ tr) (minted : MintedAt tr k i v hash) :
    ∃ d s token, tr[d]? = some s ∧ Did i (.ask .bearerToken) token s ∧
      hash = S.hashClaimToken token ∧
        history i k tr = history i d tr ++ [(⟨.ask .bearerToken, token⟩ : Ev)] := by
  obtain ⟨s, t, at_k, did⟩ := minted
  obtain ⟨q, -, entitled⟩ := runs.entitled at_k did
  rcases entitled with tame | ⟨v', token, t', g, same, before⟩ | ⟨-, tick⟩ | ⟨-, guardian⟩
  · cases tame
  · cases same
    obtain ⟨d, u, -, at_d, drew, until_⟩ := history_split before
    exact ⟨d, u, token, at_d, drew, rfl, until_ ▸ before⟩
  · cases tick
  · cases guardian

/-- So no hash is minted twice. -/
theorem MintedAt.unique (runs : Runs S t₀ tr) (fresh : FreshTokens S tr)
    (first : MintedAt tr j i v hash) (second : MintedAt tr k i' v' hash) : j = k ∧ v = v' := by
  obtain ⟨d, u, token, at_d, drew, named, past⟩ := first.drawn runs
  obtain ⟨d', u', token', at_d', drew', named', past'⟩ := second.drawn runs
  have one := fresh d d' u u' i i' token token' at_d at_d' drew drew' (named.symm.trans named')
  subst one
  rw [at_d] at at_d'
  cases at_d'
  have label := drew.symm.trans drew'
  cases label
  have same : history i j tr = history i k tr := past.trans past'.symm
  obtain ⟨s, t, at_j, did⟩ := first
  obtain ⟨s', t', at_k, did'⟩ := second
  -- after the earlier mint the thread's history is longer
  have grows : ∀ {m n : Nat} {e : Ev} {x : SrvStep}, m < n → tr[m]? = some x →
      x.label = .acted i e → history i m tr ≠ history i n tr := by
    intro m n e x lt at_m label same
    have longer : (history i (m + 1) tr).length ≤ (history i n tr).length :=
      (history_mono lt).length_le
    rw [history_succ at_m label, same, List.length_append] at longer
    exact Nat.not_succ_le_self _ longer
  rcases Nat.lt_trichotomy j k with earlier | here | later
  · exact absurd same (grows earlier at_j did)
  · subst here
    rw [at_j] at at_k
    cases at_k
    have label := did.symm.trans did'
    cases label
    exact ⟨rfl, rfl⟩
  · exact absurd same.symm (grows later at_k did')

/-- A check-in or a panic leaves no link. -/
theorem Commits.closes {u : VaultUpdate} (commits : Commits s v u) (explains : (server S).Explains s)
    (closes : u.closesLinks = true) : ¬ LinkLive s.after v hash := by
  obtain ⟨applies, r, before, guard⟩ := commits
  rintro ⟨r', here, stored, -⟩
  rw [applies.after explains before guard] at here
  cases here
  rw [VaultUpdate.set_life] at stored
  cases u with
  | checkin | checkinFromLink | resetVaultClock | panicFreeze => cases stored
  | _ => cases closes

/-- Nor does a later step bring it back. -/
theorem Runs.stays_closed (runs : Runs S t₀ tr) (fresh : FreshTokens S tr) {l n : Nat}
    (le : l ≤ k) (at_l : tr[l]? = some s) (live : LinkLive s.before v hash)
    (closed : ClosedAt tr k v) (lt : k < n) (at_n : tr[n]? = some t) :
    ¬ LinkLive t.before v hash := by
  obtain ⟨m, a, m_lt, minted⟩ := runs.minted_before at_l live
  obtain ⟨u, up, at_k, commits, closes⟩ := closed
  have runs' := runs
  obtain ⟨c, run⟩ := runs
  refine run.since (P := fun w => ¬ LinkLive w v hash) at_k
    (commits.closes (runs'.explains_at at_k) closes) ?_ lt at_n
  intro n' u' after _ at_n' dead live'
  obtain ⟨b, again⟩ := runs'.link_minted at_n' dead live'
  have one := (minted.unique runs' fresh again).1
  omega

/-- What a handler that comes by a link does at a position of a run. -/
theorem Runs.byLink_at (runs : Runs S t₀ tr) (at_k : tr[k]? = some s) {e : Ev}
    (label : s.label = .acted i e) {q : Request} (started : Started i q (tr.take k)) :
    ByLink S q (history i k tr) e.action := by
  obtain ⟨c, run⟩ := runs
  obtain ⟨q', started', goes⟩ := run.acted_at (S := server S)
    (I := fun q h e => ByLink S q h e.action) (F := EndsByLink S) (byLink S) at_k label
  exact run.started_unique started'.of_take started.of_take ▸ goes

theorem Runs.endsByLink_at (runs : Runs S t₀ tr) (at_k : tr[k]? = some s)
    {x : Except ApiError Reply} (label : s.label = .returned i x) {q : Request}
    (started : Started i q (tr.take k)) : EndsByLink S q (history i k tr) x := by
  obtain ⟨c, run⟩ := runs
  obtain ⟨q', started', ends⟩ := run.returned_at (S := server S)
    (I := fun q h e => ByLink S q h e.action) (F := EndsByLink S) (byLink S) at_k label
  exact run.started_unique started'.of_take started.of_take ▸ ends

/-- What was found live was live. -/
theorem FoundLive.admitted (runs : Runs S t₀ tr) (found : FoundLive S (history i k tr) v token) :
    ∃ j, j < k ∧ AdmittedAt S tr j i v token := by
  obtain ⟨r, read, unused⟩ := found
  obtain ⟨j, s, lt, at_j, label⟩ := mem_history.1 read
  refine ⟨j, lt, s, r, at_j, label, ?_⟩
  have answer := (did_query (runs.explains_at at_j) label).1
  obtain ⟨row, stored⟩ := Option.filter_eq_some_iff.1 (Except.ok.inj answer)
  exact ⟨r, row, by simpa using stored, unused⟩

/-- The UPDATE of a one-tap check-in looks the token up once more. -/
theorem TappedAt.live (runs : Runs S t₀ tr) (tapped : TappedAt tr k i v token) :
    ∃ s stored t next eligible, tr[k]? = some s ∧
      Did i (.exec (.updateVault v (.checkinFromLink stored t next eligible))) (.ok 1) s ∧
        Commits s v (.checkinFromLink stored t next eligible) ∧
          LinkLive s.before v (S.hashClaimToken token) := by
  obtain ⟨started, s, stored, t, next, eligible, at_k, did⟩ := tapped
  refine ⟨s, stored, t, next, eligible, at_k, did, ?_⟩
  rcases did_update (runs.explains_at at_k) did with ⟨-, r, row, guard, -⟩ | ⟨none, -⟩
  · refine ⟨⟨.exec did, r, row, guard⟩, r, row, ?_⟩
    -- the hash it names is the one the handler has found
    rcases runs.byLink_at at_k did started v token rfl with lookUp | ⟨-, names⟩
    · cases lookUp
    · obtain ⟨r', read, known⟩ := names v stored t next eligible rfl
      obtain ⟨j, u, -, at_j, label⟩ := mem_history.1 read
      have answer := (did_query (runs.explains_at at_j) label).1
      obtain ⟨-, same⟩ := Option.filter_eq_some_iff.1 (Except.ok.inj answer)
      have same : r'.life.checkinLinkTokenHash = some (S.hashClaimToken token) := by
        simpa using same
      rw [known] at same
      cases same
      simpa [VaultUpdate.guard] using guard
  · cases none

theorem singleUse (runs : Runs S t₀ tr) (fresh : FreshTokens S tr) : SingleUse S tr where
  tapped k i v token tapped := by
    obtain ⟨s, -, -, -, -, at_k, -, -, live⟩ := tapped.live runs
    exact ⟨s, at_k, live⟩
  admitted k i q v token started asked goes := by
    obtain ⟨s, at_k, ⟨e, label, other⟩ | ⟨x, label⟩⟩ := goes
    · rcases runs.byLink_at at_k label started v token asked with lookUp | ⟨found, -⟩
      · exact absurd lookUp other
      · exact found.admitted runs
    · exact (runs.endsByLink_at at_k label started v token x asked rfl).1.admitted runs
  replied k i v token s x started at_k label := by
    obtain ⟨-, ran⟩ := runs.endsByLink_at at_k label started v token x rfl rfl
    obtain ⟨stored, t, next, eligible, n, ran, some_⟩ := ran rfl
    obtain ⟨j, u, lt, at_j, did⟩ := mem_history.1 ran
    refine ⟨j, lt, ?_, u, stored, t, next, eligible, at_j, ?_⟩
    · obtain ⟨q, started', -⟩ := runs.justified at_j did
      obtain ⟨c, run⟩ := runs
      exact run.started_unique started'.of_take started.of_take ▸ started'
    -- the UPDATE that was answered with rows met the row
    · rcases did_update (runs.explains_at at_j) did with ⟨rfl, -⟩ | ⟨rfl, -⟩
      · exact did
      · exact absurd rfl some_
  once j k i i' v v' token first second := by
    obtain ⟨s, stored, t, next, eligible, at_j, did, commits, live⟩ := first.live runs
    obtain ⟨s', stored', t', next', eligible', at_k, did', commits', live'⟩ := second.live runs
    obtain ⟨m, a, lt, minted⟩ := runs.minted_before at_j live
    obtain ⟨m', a', lt', minted'⟩ := runs.minted_before at_k live'
    obtain ⟨-, rfl⟩ := minted.unique runs fresh minted'
    -- whichever comes later would meet a link that the other has closed
    rcases Nat.lt_trichotomy j k with earlier | here | later
    · exact absurd live' (runs.stays_closed fresh (Nat.le_refl j) at_j live
        ⟨s, _, at_j, commits, rfl⟩ earlier at_k)
    · exact ⟨here, rfl⟩
    · exact absurd live (runs.stays_closed fresh (Nat.le_refl k) at_k live'
        ⟨s', _, at_k, commits', rfl⟩ later at_j)
  closed l k n s t v hash le at_l live closed lt at_n :=
    runs.stays_closed fresh le at_l live closed lt at_n
  single k s v hash hash' _ live live' := by
    obtain ⟨r, row, stored, -⟩ := live
    obtain ⟨r', row', stored', -⟩ := live'
    rw [row] at row'
    cases row'
    exact Option.some.inj (stored.symm.trans stored')
  spared k i v hash hash' s minted at_k live := by
    obtain ⟨u, t, at_k', did⟩ := minted
    rw [at_k] at at_k'
    cases at_k'
    obtain ⟨r, row, stored, unused⟩ := live
    rcases did_update (runs.explains_at at_k) did with ⟨-, r', row', guard, -⟩ | ⟨none, -⟩
    · rw [row] at row'
      cases row'
      simp [VaultUpdate.guard, stored, unused] at guard
    · cases none

end Runs

/-! ## §4 An invoice after a check-in -/

/-- The claim of the links: after a check-in or a panic of the vault a link that was live
until then mints no invoice. -/
def DeadAtOnce (tr : Trace) : Prop :=
  ∀ (l k n : Nat) s t i v hash token inv m, l ≤ k → tr[l]? = some s → LinkLive s.before v hash →
    ClosedAt tr k v → k < n → tr[n]? = some t →
      Started i (.createInvoiceFromLink v token) (tr.take n) →
        ¬ Did i (.exec (.insertInvoice inv)) (.ok m) t

section Race

open Deployment

/-- The Door A vault, with an address to remind. -/
def reminded : CreateVaultFromXpubRequest :=
  { doorA with ownerContact := some "+15550100", ownerContactChannel := some "sms" }

/-- A first deposit, and the reminder with the link `t`, in the same tick. -/
def linked : List (Move Oracle Drift Request) :=
  [.start (.createVaultFromXpub reminded)] ++ steps 0 9 (oracle "v" []) ++
    [.start .schedulerTick] ++ steps 1 24 (oracle "t" [coin])

/-- The tap on the link. -/
def tapOnce : List (Move Oracle Drift Request) :=
  linked ++ [.start (.checkinFromLink "v" "t")] ++ steps 2 5 (oracle "" [])

/-- A check-in between the look-up of a link and the invoice it mints. -/
def checkinBetween : List (Move Oracle Drift Request) :=
  linked ++ [.start (.createInvoiceFromLink "v" "t")] ++ steps 2 2 (oracle "" []) ++
    [.start (.checkin "v")] ++ steps 3 3 (oracle "" []) ++ steps 2 3 (oracle "" [])

/-- The token that a step draws. -/
def drawnToken? (s : SrvStep) : Option Token :=
  match s.label with
  | .acted _ ⟨.ask .bearerToken, token⟩ => some token
  | _ => none

/-- The request that a step starts. -/
def asked? (s : SrvStep) : Option (Nat × Request) :=
  match s.label with
  | .started i q => some (i, q)
  | _ => none

/-- Thread `i` mints an invoice. -/
def mintsInvoice (i : Nat) (s : SrvStep) : Bool :=
  match s.label with
  | .acted j ⟨.exec (.insertInvoice _), .ok _⟩ => j = i
  | _ => false

def linkLive (w : World) (v : VaultId) (hash : Hash) : Bool :=
  (w.vault? v).any fun r =>
    r.life.checkinLinkTokenHash = some hash && r.life.checkinLinkTokenUsedAt = none

theorem linkLive_iff {w : World} {v : VaultId} {hash : Hash} :
    linkLive w v hash = true ↔ LinkLive w v hash := by
  simp [linkLive, LinkLive, Option.any_eq_true]

theorem freshTokens_of_nodup {S : Server} {tr : Trace}
    (once : ((tr.filterMap drawnToken?).map S.hashClaimToken).Nodup) : FreshTokens S tr := by
  intro j k s t i i' token token' at_j at_k drew drew' same
  refine position_unique once at_j at_k ?_ ?_ same
  · unfold drawnToken?
    rw [show s.label = _ from drew]
  · unfold drawnToken?
    rw [show t.label = _ from drew']

theorem started_of_asked? {tr : Trace} {j k i : Nat} {q : Request} (lt : j < k)
    (asked : tr[j]?.bind asked? = some (i, q)) : Started i q (tr.take k) := by
  obtain ⟨s, at_j, asked⟩ := Option.bind_eq_some_iff.1 asked
  unfold asked? at asked
  split at asked
  · next label =>
    cases asked
    exact started_at.2 ⟨j, s, lt, at_j, label⟩
  · cases asked

/-- A link that was tapped. -/
theorem singleUse_tapOnce : ∃ tr, Runs (host 86400) 0 tr ∧ TappedAt tr 40 2 "v" "t" ∧
    SingleUse (host 86400) tr := by
  obtain ⟨tr, runs, check⟩ := runs_of_play (host 86400) tapOnce (fun tr =>
    decide ((tr.filterMap drawnToken?).map (host 86400).hashClaimToken).Nodup &&
      decide (tr[35]?.bind asked? = some (2, .checkinFromLink "v" "t")) &&
      tr[40]?.any (updated 2 "v" (.checkinFromLink "#t" 0 3660000000000 3720000000000)))
    (by decide +kernel)
  simp only [Bool.and_eq_true, decide_eq_true_eq, Option.any_eq_true] at check
  obtain ⟨⟨once, asked⟩, s, at_k, tapped⟩ := check
  refine ⟨tr, runs, ⟨started_of_asked? (by decide) asked, s, _, _, _, _, at_k, did_of_updated tapped⟩,
    singleUse runs (freshTokens_of_nodup once)⟩

/-- An invoice that a link mints after a check-in. -/
theorem not_deadAtOnce : ¬ ∀ (S : Server) (t₀ : Instant) (tr : Trace), S.Lawful → Runs S t₀ tr →
    FreshTokens S tr → DeadAtOnce tr := by
  intro dead
  obtain ⟨tr, runs, check⟩ := runs_of_play (host 86400) checkinBetween (fun tr =>
    decide ((tr.filterMap drawnToken?).map (host 86400).hashClaimToken).Nodup &&
      decide (tr[35]?.bind asked? = some (2, .createInvoiceFromLink "v" "t")) &&
      tr[36]?.any (fun s => linkLive s.before "v" "#t") &&
      tr[41]?.any (updated 3 "v" (.checkin 0 3660000000000 3720000000000)) &&
      tr[44]?.any (mintsInvoice 2)) (by decide +kernel)
  simp only [Bool.and_eq_true, decide_eq_true_eq, Option.any_eq_true] at check
  obtain ⟨⟨⟨⟨once, asked⟩, s, at_l, live⟩, u, at_k, checked⟩, t, at_n, minted⟩ := check
  unfold mintsInvoice at minted
  split at minted
  · next j inv m label =>
    have same : j = 2 := by simpa using minted
    subst same
    have closed : ClosedAt tr 41 "v" :=
      ⟨u, _, at_k, commits_of_updated (runs.explains_at at_k) checked, rfl⟩
    exact dead (host 86400) 0 tr (lawful _) runs (freshTokens_of_nodup once) 36 41 44 s t 2 "v" "#t"
      "t" inv m (by decide) at_l (linkLive_iff.1 live) closed (by decide) at_n
      (started_of_asked? (by decide) asked) label
  · cases minted

end Race

end GhostKey

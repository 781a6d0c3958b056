import GhostKey.Verdict

/-!
# What the Flags of an Heir's Address Say

A vault keeps two flags about its heir: that a message has reached the heir, and that the
owner has been told of one that has not. Both are meant to speak of the address on file.
They are written by the handlers of callbacks, by the vault's id, and reset by the edits of
the contact, where its text changes.

Layers:
1. addresses, and what was recorded of the messages to them: `Described`;
2. the steps that keep the flags to the address: `Current`;
3. the row of a vault after a step: `flag_after`;
4. a delivery whose handler is at work: `Pending`;
5. the flags along a run: `described_of_current`.

Main results:
- `described_of_current`: the flags describe the address on file, in a run of such steps.
- `not_described`: a delivery of a message to the old address, which comes late.
-/

namespace GhostKey

namespace Delivery

open Foundation

/-! ## §1 Addresses -/

/-- The channel of the heir's contact. No channel on file means email. -/
def HeirFile.channelOnFile (r : HeirFile) : String := r.channel.getD "email"

/-- The message is addressed to the contact on file. -/
def Mail.Reaches (m : Mail) (r : HeirFile) : Prop :=
  r.contact = some m.recipient ∧ r.channelOnFile = m.channel

/-- Both rows have one address. -/
def HeirFile.SameAddress (r r' : HeirFile) : Prop :=
  r'.contact = r.contact ∧ r'.channelOnFile = r.channelOnFile

section Flags

variable (tr : PostTrace)

/-- At `k` it is recorded that `m` was delivered. -/
def DeliveredAt (k i : Nat) (m : Mail) : Prop :=
  ∃ ev, Moves tr k i ev m ∧ provesDelivery ev.status = true

/-- At `k` it is recorded that `m` was not delivered. -/
def FailedAt (k i : Nat) (m : Mail) : Prop :=
  ∃ ev, Moves tr k i ev m ∧ isNegativeVerdict ev.status = true

/-- The flags of `r` say what is true of its address before `k`: a message to it was delivered,
and a message to it failed after the last delivery that has been handled. -/
structure Described (k : Nat) (r : HeirFile) : Prop where
  verified : r.verifiedAt.isSome = true → ∃ j i m, j < k ∧ DeliveredAt tr j i m ∧ m.Reaches r
  alerted : r.alertedAt.isSome = true → ∃ j i m, j < k ∧ FailedAt tr j i m ∧ m.Reaches r ∧
    ∀ j' i' m', j < j' → j' < k → DeliveredAt tr j' i' m' → m'.Reaches r →
      ¬ Ended i' (tr.take k)

/-- The flags say what is true of the address on file, in every state. -/
def AllDescribed : Prop :=
  ∀ (k : Nat) (s : PostStep) (r : HeirFile), tr[k]? = some s → s.after.heir? r.id = some r →
    Described tr (k + 1) r

/-! ## §2 Steps that keep to the address -/

/-- The steps that keep the flags of a vault to the address on file. -/
structure Current : Prop where
  /-- a vault is marked as reached for a message to its address -/
  verifies : ∀ (k : Nat) (s : PostStep) i t n r ev m, tr[k]? = some s →
    s.label = .acted i ⟨.exec (.stampVerified r.id t), .ok n⟩ → s.before.heir? r.id = some r →
    r.verifiedAt = none → Started i (.callback ev) (tr.take k) →
      Found (history i k tr) ev (some m) → m.Reaches r
  /-- a vault is marked as not reached for a message to its address, -/
  alerts : ∀ (k : Nat) (s : PostStep) i t n r ev m, tr[k]? = some s →
    s.label = .acted i ⟨.exec (.stampAlerted r.id t), .ok n⟩ → s.before.heir? r.id = some r →
    r.alertedAt = none → Started i (.callback ev) (tr.take k) →
      Found (history i k tr) ev (some m) → m.Reaches r
  /-- to which no message was delivered since -/
  fresh : ∀ (k : Nat) (s : PostStep) i t n r j m, tr[k]? = some s →
    s.label = .acted i ⟨.exec (.stampAlerted r.id t), .ok n⟩ → s.before.heir? r.id = some r →
    r.alertedAt = none → FailedAt tr j i m →
      ∀ j' i' m', j < j' → j' < k → DeliveredAt tr j' i' m' → ¬ m'.Reaches r
  /-- an edit that leaves the flags alone leaves the address alone -/
  kept : ∀ (k : Nat) (s : PostStep) i name contact channel n r, tr[k]? = some s →
    s.label = .acted i ⟨.exec (.updateContact r.id name contact channel false), .ok n⟩ →
    s.before.heir? r.id = some r → r.verifiedAt.isSome = true ∨ r.alertedAt.isSome = true →
      r.contact = some contact ∧ r.channelOnFile = channel
  /-- what is delivered to the address of an alerted vault is a message of the vault's to its
  heir, -/
  own : ∀ (k : Nat) (s : PostStep) i m r, tr[k]? = some s → DeliveredAt tr k i m →
    s.before.heir? r.id = some r → r.alertedAt.isSome = true → m.Reaches r →
      m.vaultId = r.id ∧ isHeirDirected m.kind = true
  /-- for which the alert is cleared: no statement of its handler on the vault fails, -/
  clears : ∀ (k : Nat) (s : PostStep) i st e r, tr[k]? = some s →
    (∃ t, st = .stampVerified r.id t) ∨ st = .clearAlert r.id →
    s.label = .acted i ⟨.exec st, .error e⟩ → s.before.heir? r.id = some r → r.alertedAt = none
  /-- and no halt comes before -/
  unbroken : ∀ (k : Nat) (s : PostStep) j i m r, tr[k]? = some s → s.label = .halted → j < k →
    DeliveredAt tr j i m → s.before.heir? r.id = some r → r.alertedAt.isSome = true →
      m.Reaches r → Ended i (tr.take k)

end Flags

variable {S : Server} {clock : Instant} {tr : PostTrace} {s : PostStep} {i j k : Nat}
variable {c : Config PostAction PostAction.Response ApiError (Option Recorded) Post PostRequest}
variable {ev : DeliveryEvent} {m m' : Mail} {r r' : HeirFile}

theorem Mail.Reaches.same (reaches : m.Reaches r) (same : r.SameAddress r') : m.Reaches r' :=
  ⟨same.1.trans reaches.1, same.2.trans reaches.2⟩

theorem HeirFile.SameAddress.symm (same : r.SameAddress r') : r'.SameAddress r :=
  ⟨same.1.symm, same.2.symm⟩

/-! ## §3 The row of a vault after a step -/

/-- The vault a statement on `vaults` is about. -/
def PostStmt.target : PostStmt → Option VaultId
  | .stampVerified id _ => some id
  | .clearAlert id => some id
  | .stampAlerted id _ => some id
  | .updateContact id _ _ _ _ => some id
  | _ => none

/-- What a step may do to the row of a vault. -/
inductive HeirStep (s : PostStep) (id : VaultId) : Prop
  | same (same : s.after.heir? id = s.before.heir? id)
      (other : ∀ i st n, s.label = .acted i ⟨.exec st, .ok n⟩ → st.target ≠ some id)
  | ran (i : Nat) (st : PostStmt) (n : Nat) (label : s.label = .acted i ⟨.exec st, .ok n⟩)
      (target : st.target = some id)
      (row : s.after.heir? id = (s.before.heir? id).map fun r =>
        if st.picks r then st.file r else r)
  | created (r : HeirFile) (unverified : r.verifiedAt = none) (unalerted : r.alertedAt = none)
      (row : s.after.heir? id = some r)

theorem onVault_heir? (w : Post) (id id' : VaultId) (st : PostStmt) :
    (w.onVault id st).1.heir? id' = (w.heir? id').map fun r =>
      if r.id = id ∧ st.picks r = true then st.file r else r := by
  unfold Post.onVault Post.heir?
  rw [KeyedTable.find?_update]
  congr 1
  funext r
  simp

/-- A statement on `vaults` is an UPDATE of one row. -/
theorem run_of_target {st : PostStmt} {id : VaultId} (target : st.target = some id) (w : Post) :
    (w.run st).1 = (w.onVault id st).1 := by
  cases st with
  | stampVerified | clearAlert | stampAlerted | updateContact =>
    cases target
    rfl
  | _ => cases target

/-- The other statements leave `vaults` alone. -/
theorem heir?_of_no_target {st : PostStmt} (target : st.target = none) (w : Post) (id : VaultId) :
    (w.run st).1.heir? id = w.heir? id := by
  cases st with
  | claimEvent r =>
    simp only [Post.run]
    split <;> rfl
  | enqueue vaultId kind channel recipient =>
    simp only [Post.run, Post.queue]
    split <;> rfl
  | updateVerdict | insertEvent => rfl
  | _ => cases target

theorem heir_step (explains : (postroom S).Explains s) (id : VaultId) : HeirStep s id := by
  -- a statement about this vault, or none of them
  by_cases ran : ∃ i st n, s.label = .acted i ⟨.exec st, .ok n⟩ ∧ st.target = some id
  · obtain ⟨i, st, n, label, target⟩ := ran
    refine .ran i st n label target ?_
    rw [(executed explains label).2, run_of_target target, onVault_heir?]
    cases row : s.before.heir? id with
    | none => rfl
    | some r =>
      have key : r.id = id := KeyedTable.find?_key row
      simp [key]
  · have other : ∀ i st n, s.label = .acted i ⟨.exec st, .ok n⟩ → st.target ≠ some id :=
      fun i st n label target => ran ⟨i, st, n, label, target⟩
    -- none: the step is silent, runs elsewhere, or is a drift
    rcases step_cases explains with same | ⟨i, st, label, ran⟩ | ⟨d, -, drifted⟩
    · exact .same (by rw [same]) other
    · refine .same ?_ other
      cases target : st.target with
      | none => rw [ran, heir?_of_no_target target]
      | some id' =>
        rw [ran, run_of_target target, onVault_heir?]
        cases row : s.before.heir? id with
        | none => rfl
        | some r =>
          have key : r.id = id := KeyedTable.find?_key row
          have apart : ¬ r.id = id' := by
            rintro rfl
            exact other i st _ label (target.trans (congrArg some key))
          simp [apart]
    · cases d with
      | pass d => exact .same (by rw [drifted]; rfl) other
      | createVault id' heirDerived name contact channel ownerEmail =>
        simp only [PostDrift.apply] at drifted
        split at drifted
        · next vaults inserted =>
          have row : s.after.heir? id = if id = id' then
              some ⟨id', heirDerived, name, contact, channel, ownerEmail, none, none⟩
              else s.before.heir? id := by
            rw [drifted]
            exact KeyedTable.find?_insert? inserted id
          split at row
          · exact .created _ rfl rfl row
          · exact .same row other
        · exact .same (by rw [drifted]) other
      | enqueue vaultId kind channel recipient =>
        refine .same ?_ other
        rw [drifted]
        simp only [PostDrift.apply, Post.queue]
        split <;> rfl
      | accepted id' p =>
        refine .same ?_ other
        rw [drifted]
        simp only [PostDrift.apply]
        split <;> rfl

/-- How a flag that is on after a step came to be on: it was, or the step has set it. -/
structure Flagged (s : PostStep) (r₀ r : HeirFile) : Prop where
  here : s.before.heir? r.id = some r₀
  id : r₀.id = r.id
  address : r₀.SameAddress r
  verified : r.verifiedAt.isSome = true → r₀.verifiedAt.isSome = true ∨ r₀.verifiedAt = none ∧
    ∃ i t n, s.label = .acted i ⟨.exec (.stampVerified r.id t), .ok n⟩
  alerted : r.alertedAt.isSome = true → (r₀.alertedAt.isSome = true ∧
      ∀ i n, s.label ≠ .acted i ⟨.exec (.clearAlert r.id), .ok n⟩) ∨
    r₀.alertedAt = none ∧ ∃ i t n, s.label = .acted i ⟨.exec (.stampAlerted r.id t), .ok n⟩

theorem flag_after (explains : (postroom S).Explains s) (current : Current tr)
    (at_k : tr[k]? = some s) (after : s.after.heir? r.id = some r)
    (flag : r.verifiedAt.isSome = true ∨ r.alertedAt.isSome = true) : ∃ r₀, Flagged s r₀ r := by
  cases heir_step explains r.id with
  | created r₁ unverified unalerted row =>
    rw [after] at row
    cases row
    simp [unverified, unalerted] at flag
  | same same other =>
    rw [same] at after
    exact ⟨r, after, rfl, ⟨rfl, rfl⟩, .inl,
      fun alerted => .inl ⟨alerted, fun i n label => other i _ n label rfl⟩⟩
  | ran i st n label target row =>
    obtain ⟨r₀, here, result⟩ := Option.map_eq_some_iff.1 (row.symm.trans after)
    have key : r₀.id = r.id := KeyedTable.find?_key here
    have other : st ≠ .clearAlert r.id →
        ∀ i n, s.label ≠ .acted i ⟨.exec (.clearAlert r.id), .ok n⟩ := by
      intro differs i n label'
      rw [label] at label'
      cases label'
      exact differs rfl
    refine ⟨r₀, ?_⟩
    cases st with
    | stampVerified id t =>
      cases target
      have other := other fun same => by cases same
      split at result
      · next picked =>
        have unverified : r₀.verifiedAt = none := Option.isNone_iff_eq_none.1 picked
        exact ⟨here, key, by rw [← result]; exact ⟨rfl, rfl⟩,
          fun _ => .inr ⟨unverified, i, t, n, label⟩,
          fun alerted => .inl ⟨by rw [← result] at alerted; exact alerted, other⟩⟩
      · subst result
        exact ⟨here, rfl, ⟨rfl, rfl⟩, .inl, fun alerted => .inl ⟨alerted, other⟩⟩
    | clearAlert id =>
      cases target
      -- the alert is off
      have off : r.alertedAt = none := by
        split at result
        · rw [← result]
          rfl
        · next kept =>
          rw [← result]
          simpa [PostStmt.picks] using kept
      have address : r₀.SameAddress r ∧ r.verifiedAt = r₀.verifiedAt := by
        split at result <;> (rw [← result]; exact ⟨⟨rfl, rfl⟩, rfl⟩)
      exact ⟨here, key, address.1, fun verified => .inl (address.2 ▸ verified),
        fun alerted => by rw [off] at alerted; cases alerted⟩
    | stampAlerted id t =>
      cases target
      have other := other fun same => by cases same
      split at result
      · next picked =>
        have unalerted : r₀.alertedAt = none := Option.isNone_iff_eq_none.1 picked
        exact ⟨here, key, by rw [← result]; exact ⟨rfl, rfl⟩,
          fun verified => .inl (by rw [← result] at verified; exact verified),
          fun _ => .inr ⟨unalerted, i, t, n, label⟩⟩
      · subst result
        exact ⟨here, rfl, ⟨rfl, rfl⟩, .inl, fun alerted => .inl ⟨alerted, other⟩⟩
    | updateContact id name contact channel changed =>
      cases target
      have result : r = PostStmt.file (.updateContact r.id name contact channel changed) r₀ :=
        result.symm
      cases changed with
      | true =>
        rw [result] at flag
        simp [PostStmt.file] at flag
      | false =>
        have flags : r.verifiedAt = r₀.verifiedAt ∧ r.alertedAt = r₀.alertedAt := by
          rw [result]
          exact ⟨rfl, rfl⟩
        rw [flags.1, flags.2] at flag
        obtain ⟨same, channels⟩ := current.kept k s i name contact channel n r₀ at_k
          (key.symm ▸ label) (key.symm ▸ here) flag
        refine ⟨here, key, ?_, fun verified => .inl (flags.1 ▸ verified),
          fun alerted => .inl ⟨flags.2 ▸ alerted, other fun same => by cases same⟩⟩
        rw [result]
        exact ⟨same.symm, channels.symm⟩
    | _ => cases target

/-! ## §4 Deliveries at work -/

/-- The handler of a callback finds one message. -/
theorem same_message (run : PostRun S clock tr c) (at_k : tr[k]? = some s)
    (found : Found (history i k tr) ev (some m)) (found' : Found (history i k tr) ev (some m'))
    (same : m'.id = m.id) : m'.vaultId = m.vaultId ∧ m'.kind = m.kind := by
  obtain ⟨row, here, cont, -⟩ := found_row run found at_k
  obtain ⟨row', here', cont', -⟩ := found_row run found' at_k
  rw [same, here] at here'
  cases here'
  exact ⟨cont'.vaultId.symm.trans cont.vaultId, cont'.kind.symm.trans cont.kind⟩

/-- A handler writes one verdict. -/
theorem Moves.only (moves : Moves tr j i ev m) (run : PostRun S clock tr c) {id : Nat}
    {status : String} {detail : Option String} {t : Instant} {x : Except DbError Nat}
    (mem : (⟨.exec (.updateVerdict id status detail t), x⟩ : PostEv) ∈ history i k tr) :
    id = m.id ∧ ∃ n, x = .ok n := by
  obtain ⟨n, u, -, at_n, label⟩ := mem_history.1 mem
  obtain ⟨s, t', n', at_j, wrote⟩ := moves.writes
  have unwritten : ∀ {k : Nat} {s : PostStep} {id status detail t x}, tr[k]? = some s →
      s.label = .acted i ⟨.exec (.updateVerdict id status detail t), x⟩ →
      ∀ id' status' detail' t' x',
        (⟨.exec (.updateVerdict id' status' detail' t'), x'⟩ : PostEv) ∉ history i k tr := by
    intro k s id status detail t x at_k label
    obtain ⟨ev, -, -, -, -, -, none⟩ := judging run at_k label
    exact none
  rcases Nat.lt_trichotomy n j with before | rfl | after
  · exact absurd (mem_history.2 ⟨n, u, before, at_n, label⟩) (unwritten at_j wrote _ _ _ _ _)
  · rw [at_j] at at_n
    cases at_n
    rw [wrote] at label
    cases label
    exact ⟨rfl, n', rfl⟩
  · exact absurd (mem_history.2 ⟨j, s, after, at_j, wrote⟩) (unwritten at_n label _ _ _ _ _)

/-- The handler has tried to clear the alert of the vault, or failed before it. -/
def Tried (h : PostHist) (id : VaultId) : Prop :=
  (∃ t e, (⟨.exec (.stampVerified id t), .error e⟩ : PostEv) ∈ h) ∨
    ∃ x, (⟨.exec (.clearAlert id), x⟩ : PostEv) ∈ h

/-- Who writes to a vault has written the verdict before. -/
theorem Moves.untried (moves : Moves tr k i ev m) (run : PostRun S clock tr c) (id : VaultId) :
    ¬ Tried (history i k tr) id := by
  have late : ∀ st x, (∃ t, st = .stampVerified id t) ∨ st = .clearAlert id →
      (⟨.exec st, x⟩ : PostEv) ∉ history i k tr := by
    intro st x writes mem
    obtain ⟨n, u, lt, at_n, label⟩ := mem_history.1 mem
    obtain ⟨s, t, n', at_k, wrote⟩ := moves.writes
    obtain ⟨q, began, conduct⟩ := conduct_at run at_n label
    have same := run.started_unique moves.started.of_take began.of_take
    subst same
    have applied : ∃ m', Applied (history i n tr) ev m' := by
      rcases writes with ⟨t, rfl⟩ | rfl
      · exact conduct.2.imp fun m' here => here.1
      · exact conduct.2.imp fun m' here => here.1
    obtain ⟨m', -, t', n'', moved⟩ := applied
    obtain ⟨ev', -, -, -, -, -, none⟩ := judging run at_k wrote
    exact none _ _ _ _ _ (history_subset (Nat.le_of_lt lt) moved)
  rintro (⟨t, e, mem⟩ | ⟨x, mem⟩)
  · exact late _ _ (.inl ⟨t, rfl⟩) mem
  · exact late _ _ (.inr rfl) mem

/-- What a handler has tried after a step, it had tried before or tries in the step. -/
theorem tried_succ {id : VaultId} (at_k : tr[k]? = some s)
    (tried : Tried (history i (k + 1) tr) id) :
    Tried (history i k tr) id ∨
      (∃ t e, s.label = .acted i ⟨.exec (.stampVerified id t), .error e⟩) ∨
        ∃ x, s.label = .acted i ⟨.exec (.clearAlert id), x⟩ := by
  have split : ∀ e : PostEv, e ∈ history i (k + 1) tr →
      e ∈ history i k tr ∨ s.label = .acted i e := by
    intro e mem
    obtain ⟨n, u, lt, at_n, label⟩ := mem_history.1 mem
    rcases Nat.lt_or_eq_of_le (Nat.le_of_lt_succ lt) with earlier | rfl
    · exact .inl (mem_history.2 ⟨n, u, earlier, at_n, label⟩)
    · rw [at_k] at at_n
      cases at_n
      exact .inr label
  rcases tried with ⟨t, e, mem⟩ | ⟨x, mem⟩
  · exact (split _ mem).imp (fun old => .inl ⟨t, e, old⟩) fun label => .inl ⟨t, e, label⟩
  · exact (split _ mem).imp (fun old => .inr ⟨x, old⟩) fun label => .inr ⟨x, label⟩

/-- The handler of a delivery has tried to clear the alert when it returns. -/
theorem Moves.tried (moves : Moves tr j i ev m) (run : PostRun S clock tr c)
    (proves : provesDelivery ev.status = true) (directed : isHeirDirected m.kind = true)
    (lt : j < k) (at_k : tr[k]? = some s) {x : Except ApiError (Option Recorded)}
    (returned : s.label = .returned i x) : Tried (history i k tr) m.vaultId := by
  obtain ⟨u, t, n, at_j, wrote⟩ := moves.writes
  obtain ⟨q, began, ends⟩ := run.returned_at
    (I := fun q h e => Conduct q h e.action) (F := Ends) (meets_program S) at_k returned
  have same := run.started_unique moves.started.of_take began.of_take
  subst same
  have moved : (⟨.exec (.updateVerdict m.id ev.status ev.detail t), .ok n⟩ : PostEv) ∈
      history i k tr := mem_history.2 ⟨j, u, lt, at_j, wrote⟩
  have sub : history i j tr ⊆ history i k tr := history_subset (Nat.le_of_lt lt)
  obtain ⟨q, began', conduct⟩ := conduct_at run at_j wrote
  have same := run.started_unique moves.started.of_take began'.of_take
  subst same
  obtain ⟨-, -, -, ⟨nid, t', n', entered, new⟩, -⟩ := conduct
  -- it has recorded the event, so it went on to the verdict and past it
  cases ends.1 ⟨nid, t', n', sub entered, new⟩ with
  | unknown found unmoved => exact absurd moved (unmoved _ _ _ _ _)
  | stale m' found stronger unmoved => exact absurd moved (unmoved _ _ _ _ _)
  | failed id t' e lost =>
    obtain ⟨-, n, wrong⟩ := moves.only run lost
    cases wrong
  | finished finished =>
    obtain ⟨m', ⟨found, t', n', moved'⟩, -, cleared⟩ := finished
    obtain ⟨one, -⟩ := moves.only run moved'
    obtain ⟨vault, kind⟩ := same_message run at_k (sub moves.found) found one
    rw [kind, vault] at cleared
    exact cleared proves directed

/-- The handler that has recorded the delivery of `m` is at work before `k`, and the alert of the
vault is still for it to clear. -/
structure Pending (tr : PostTrace) (k i : Nat) (m : Mail) (id : VaultId) : Prop where
  vault : m.vaultId = id
  directed : isHeirDirected m.kind = true
  untried : ¬ Tried (history i k tr) id
  working : ¬ Ended i (tr.take k)

/-- A delivery that has just been recorded is pending. -/
theorem pending_of_delivered (run : PostRun S clock tr c) (current : Current tr)
    (at_k : tr[k]? = some s) (delivered : DeliveredAt tr k i m) (reaches : m.Reaches r)
    (here : s.before.heir? r.id = some r) (alerted : r.alertedAt.isSome = true) :
    Pending tr (k + 1) i m r.id := by
  obtain ⟨vault, directed⟩ := current.own k s i m r at_k delivered here alerted reaches
  obtain ⟨ev, moves, -⟩ := delivered
  obtain ⟨s', t, n, at_k', label⟩ := moves.writes
  rw [at_k] at at_k'
  cases at_k'
  refine ⟨vault, directed, fun tried => ?_, fun ended => ?_⟩
  · rcases tried_succ at_k tried with old | ⟨t, e, label'⟩ | ⟨x, label'⟩
    · exact moves.untried run r.id old
    · rw [label] at label'
      cases label'
    · rw [label] at label'
      cases label'
  · rw [take_succ_at at_k] at ended
    rcases ended.snoc with past | ⟨x, returned⟩ | ⟨halted, -⟩
    · exact (run.silent_at at_k (Nat.le_refl k) past).1 _ label
    · rw [label] at returned
      cases returned
    · rw [label] at halted
      cases halted

/-- A delivery stays pending as long as the vault is alerted. -/
theorem Pending.succ (pending : Pending tr k i m r.id) (run : PostRun S clock tr c)
    (current : Current tr) (at_k : tr[k]? = some s) (lt : j < k) (delivered : DeliveredAt tr j i m)
    (reaches : m.Reaches r) (here : s.before.heir? r.id = some r)
    (alerted : r.alertedAt.isSome = true)
    (uncleared : ∀ i n, s.label ≠ .acted i ⟨.exec (.clearAlert r.id), .ok n⟩) :
    Pending tr (k + 1) i m r.id := by
  refine ⟨pending.vault, pending.directed, fun tried => ?_, fun ended => ?_⟩
  · have failed : ∀ st e, (∃ t, st = .stampVerified r.id t) ∨ st = .clearAlert r.id →
        s.label ≠ .acted i ⟨.exec st, .error e⟩ := by
      intro st e writes label
      rw [current.clears k s i st e r at_k writes label here] at alerted
      cases alerted
    rcases tried_succ at_k tried with old | ⟨t, e, label⟩ | ⟨x, label⟩
    · exact pending.untried old
    · exact failed _ e (.inl ⟨t, rfl⟩) label
    · cases x with
      | error e => exact failed _ e (.inr rfl) label
      | ok n => exact uncleared i n label
  · rw [take_succ_at at_k] at ended
    rcases ended.snoc with past | ⟨x, returned⟩ | ⟨halted, -⟩
    · exact pending.working past
    · obtain ⟨ev, moves, proves⟩ := delivered
      have tried := moves.tried run proves pending.directed lt at_k returned
      rw [pending.vault] at tried
      exact pending.untried tried
    · exact pending.working
        (current.unbroken k s j i m r at_k halted lt delivered here alerted reaches)

/-! ## §5 The flags along a run -/

/-- The handler of a callback that has written its verdict. -/
theorem moves_of_applied (run : PostRun S clock tr c) (at_k : tr[k]? = some s)
    (started : Started i (.callback ev) (tr.take k)) (applied : Applied (history i k tr) ev m) :
    ∃ j m', j < k ∧ Moves tr j i ev m' ∧ Found (history i k tr) ev (some m') ∧
      m'.vaultId = m.vaultId ∧ m'.kind = m.kind := by
  obtain ⟨found, t, n, mem⟩ := applied
  obtain ⟨j, u, lt, at_j, label⟩ := mem_history.1 mem
  obtain ⟨ev', m', moves, one, -⟩ := moves_of_judged run at_j label
  have same := run.started_unique started.of_take moves.started.of_take
  cases same
  have found' : Found (history i k tr) ev (some m') := history_subset (Nat.le_of_lt lt) moves.found
  obtain ⟨vault, kind⟩ := same_message run at_k found found' one
  exact ⟨j, m', lt, moves, found', vault, kind⟩

/-- What holds of a flagged row along a run. -/
structure Upheld (tr : PostTrace) (k : Nat) (r : HeirFile) : Prop where
  verified : r.verifiedAt.isSome = true → ∃ j i m, j < k ∧ DeliveredAt tr j i m ∧ m.Reaches r
  alerted : r.alertedAt.isSome = true → ∃ j i m, j < k ∧ FailedAt tr j i m ∧ m.Reaches r ∧
    ∀ j' i' m', j < j' → j' < k → DeliveredAt tr j' i' m' → m'.Reaches r →
      Pending tr k i' m' r.id

theorem Upheld.described (upheld : Upheld tr k r) : Described tr k r where
  verified := upheld.verified
  alerted := by
    intro alerted
    obtain ⟨j, i, m, lt, failed, reaches, later⟩ := upheld.alerted alerted
    exact ⟨j, i, m, lt, failed, reaches, fun j' i' m' after before delivered reaches' =>
      (later j' i' m' after before delivered reaches').working⟩

/-- The mark of a row after a step is a delivery's. -/
theorem verified_after (run : PostRun S clock tr c) (current : Current tr)
    (at_k : tr[k]? = some s) {r₀ : HeirFile} (flagged : Flagged s r₀ r) (upheld : Upheld tr k r₀)
    (verified : r.verifiedAt.isSome = true) :
    ∃ j i m, j < k + 1 ∧ DeliveredAt tr j i m ∧ m.Reaches r := by
  rcases flagged.verified verified with old | ⟨unverified, i, t, n, label⟩
  · obtain ⟨j, i, m, lt, delivered, reaches⟩ := upheld.verified old
    exact ⟨j, i, m, Nat.lt_succ_of_lt lt, delivered, reaches.same flagged.address⟩
  · obtain ⟨q, started, conduct⟩ := conduct_at run at_k label
    cases q with
    | updateVaultHeir id req => exact conduct.elim
    | callback ev =>
      obtain ⟨proves, m, applied, -, -⟩ := conduct
      obtain ⟨j, m', lt, moves, found, -⟩ := moves_of_applied run at_k started applied
      have reaches := current.verifies k s i t n r₀ ev m' at_k (flagged.id ▸ label)
        (flagged.id ▸ flagged.here) unverified started found
      exact ⟨j, i, m', Nat.lt_succ_of_lt lt, ⟨ev, moves, proves⟩, reaches.same flagged.address⟩

/-- The alert of a row after a step is of a failure no delivery has been handled since. -/
theorem alerted_after (run : PostRun S clock tr c) (current : Current tr)
    (at_k : tr[k]? = some s) {r₀ : HeirFile} (flagged : Flagged s r₀ r) (upheld : Upheld tr k r₀)
    (alerted : r.alertedAt.isSome = true) :
    ∃ j i m, j < k + 1 ∧ FailedAt tr j i m ∧ m.Reaches r ∧
      ∀ j' i' m', j < j' → j' < k + 1 → DeliveredAt tr j' i' m' → m'.Reaches r →
        Pending tr (k + 1) i' m' r.id := by
  have here : s.before.heir? r₀.id = some r₀ := flagged.id ▸ flagged.here
  -- an old alert that was not cleared, or one this step sets
  rcases flagged.alerted alerted with ⟨old, uncleared⟩ | ⟨unalerted, i, t, n, label⟩
  · obtain ⟨j, i, m, lt, failed, reaches, later⟩ := upheld.alerted old
    refine ⟨j, i, m, Nat.lt_succ_of_lt lt, failed, reaches.same flagged.address, ?_⟩
    intro j' i' m' after before delivered reaches'
    have reaches' := reaches'.same flagged.address.symm
    rw [← flagged.id] at uncleared ⊢
    rcases Nat.lt_or_eq_of_le (Nat.le_of_lt_succ before) with earlier | rfl
    · exact (later j' i' m' after earlier delivered reaches').succ run current at_k earlier delivered
        reaches' here old uncleared
    · exact pending_of_delivered run current at_k delivered reaches' here old
  -- a new alert: its failure is this very callback's
  · obtain ⟨q, started, conduct⟩ := conduct_at run at_k label
    cases q with
    | updateVaultHeir id req => exact conduct.elim
    | callback ev =>
      obtain ⟨negative, m, applied, -, -⟩ := conduct
      obtain ⟨j, m', lt, moves, found, -⟩ := moves_of_applied run at_k started applied
      have label₀ := label
      rw [← flagged.id] at label₀
      have reaches := current.alerts k s i t n r₀ ev m' at_k label₀ here unalerted started found
      refine ⟨j, i, m', Nat.lt_succ_of_lt lt, ⟨ev, moves, negative⟩, reaches.same flagged.address,
        fun j' i' m₁ after before delivered reaches' => ?_⟩
      rcases Nat.lt_or_eq_of_le (Nat.le_of_lt_succ before) with earlier | rfl
      · exact absurd (reaches'.same flagged.address.symm)
          (current.fresh k s i t n r₀ j m' at_k label₀ here unalerted ⟨ev, moves, negative⟩ j' i' m₁
            after earlier delivered)
      · -- the step writes no verdict
        obtain ⟨ev', moves', -⟩ := delivered
        obtain ⟨s', t', n', at_k', label'⟩ := moves'.writes
        rw [at_k] at at_k'
        cases at_k'
        rw [label] at label'
        cases label'

theorem upheld_after (run : PostRun S clock tr c) (current : Current tr) :
    ∀ (k : Nat) s r, tr[k]? = some s → s.after.heir? r.id = some r → Upheld tr (k + 1) r := by
  refine fun k s r at_k => ((run.invariant_at (P := fun k w => ∀ r, w.heir? r.id = some r →
    Upheld tr k r) (fun r absent => by cases absent) fun k s at_k explains before r after => ?_).1 k s
      at_k).2 r
  have upheld : ∀ r₀, Flagged s r₀ r → Upheld tr k r₀ := fun r₀ flagged =>
    before r₀ (flagged.id ▸ flagged.here)
  constructor
  · intro verified
    obtain ⟨r₀, flagged⟩ := flag_after explains current at_k after (.inl verified)
    exact verified_after run current at_k flagged (upheld r₀ flagged) verified
  · intro alerted
    obtain ⟨r₀, flagged⟩ := flag_after explains current at_k after (.inr alerted)
    exact alerted_after run current at_k flagged (upheld r₀ flagged) alerted

/-- The flags describe the address on file, in a run whose steps keep them to it. -/
theorem described_of_current (run : PostRun S clock tr c) (current : Current tr) :
    AllDescribed tr :=
  fun k s r at_k after => (upheld_after run current k s r at_k after).described

/-! ## §6 A delivery that comes late -/

section Late

def delivered : DeliveryEvent := ⟨"resend", "msg_1", "re_1", "delivered", none⟩

def bouncedSecond : DeliveryEvent := ⟨"resend", "msg_2", "re_2", "bounced", none⟩

/-- A vault, and a link that is mailed to its heir. -/
def mailedLink : List PostMove :=
  [.drift (.createVault "v" false none (some "heir@mail.org") (some "email") (some "owner@mail")),
    .drift (.enqueue "v" "claim_link" "email" "heir@mail.org"), .drift (.accepted 1 "re_1")]

/-- The link is delivered, a later message bounces, and the contact is saved again. -/
def savedAgain : List PostMove :=
  mailedLink ++ [.start (.callback delivered)] ++ work 0 9 ++
    [.drift (.enqueue "v" "claim_ready" "email" "heir@mail.org"), .drift (.accepted 2 "re_2"),
      .start (.callback bouncedSecond)] ++ work 1 10 ++
    [.start (.updateVaultHeir "v" ⟨"heir@mail.org", "email"⟩)] ++ work 2 4

/-- The contact is changed, and then the link is delivered. -/
def deliveredLate : List PostMove :=
  mailedLink ++ [.start (.updateVaultHeir "v" ⟨"new@mail.org", "email"⟩)] ++ work 0 4 ++
    [.start (.callback delivered)] ++ work 1 9

/-- Nothing but `address` is on file or mailed to, and nothing fails. -/
def keepsTo (address : String) (s : PostStep) : Bool :=
  s.before.vaults.rows.all (fun r => decide (r.id = "v") && decide (r.contact = some address) &&
    decide (r.channelOnFile = "email")) &&
  match s.label with
  | .acted _ ⟨.query (.byProviderId _), .ok m⟩ =>
      Option.all (fun m : Mail => decide (m.vaultId = "v") && isHeirDirected m.kind &&
        decide (m.recipient = address) && decide (m.channel = "email")) m
  | .acted _ ⟨.exec (.updateContact _ _ contact channel _), _⟩ =>
      decide (contact = address) && decide (channel = "email")
  | .acted _ ⟨.exec _, .error _⟩ => false
  | .halted => false
  | _ => true

/-- The verdict that a step writes. -/
def writes? (s : PostStep) : Option String :=
  match s.label with
  | .acted _ ⟨.exec (.updateVerdict _ status _ _), .ok _⟩ => some status
  | _ => none

theorem writes?_of_moves {tr : PostTrace} {k i : Nat} {ev : DeliveryEvent} {m : Mail}
    (moves : Moves tr k i ev m) : ∃ s, tr[k]? = some s ∧ writes? s = some ev.status := by
  obtain ⟨s, t, n, at_k, label⟩ := moves.writes
  refine ⟨s, at_k, ?_⟩
  unfold writes?
  rw [label]

variable {tr : PostTrace} {address : String}

/-- Where one address is kept to and the failures come last, the flags are. -/
theorem current_of_keepsTo (n : Nat) (keeps : tr.all (keepsTo address) = true)
    (early : (tr.take n).all (fun s => (writes? s).all fun status => !isNegativeVerdict status) = true)
    (late : (tr.drop n).all (fun s => (writes? s).all fun status => !provesDelivery status) = true) :
    Current tr := by
  have each : ∀ (k : Nat) s, tr[k]? = some s → keepsTo address s = true := fun k s at_k =>
    List.all_eq_true.1 keeps s (List.mem_of_getElem? at_k)
  have filed : ∀ (k : Nat) (s : PostStep) r, tr[k]? = some s → s.before.heir? r.id = some r →
      r.id = "v" ∧ r.contact = some address ∧ r.channelOnFile = "email" := by
    intro k s r at_k here
    have rows := (Bool.and_eq_true_iff.1 (each k s at_k)).1
    have row := List.all_eq_true.1 rows r (KeyedTable.find?_mem here)
    simpa [and_assoc] using row
  have found : ∀ i k ev m, Found (history i k tr) ev (some m) →
      m.vaultId = "v" ∧ isHeirDirected m.kind = true ∧ m.recipient = address ∧
        m.channel = "email" := by
    intro i k ev m found
    obtain ⟨n, u, -, at_n, label⟩ := mem_history.1 found
    have step := (Bool.and_eq_true_iff.1 (each n u at_n)).2
    rw [label] at step
    simpa [and_assoc] using step
  have reaches : ∀ i k ev m (k' : Nat) (s : PostStep) (r : HeirFile),
      Found (history i k tr) ev (some m) → tr[k']? = some s →
        s.before.heir? r.id = some r → m.Reaches r := by
    intro i k ev m k' s r mail at_k here
    obtain ⟨-, -, recipient, channel⟩ := found i k ev m mail
    obtain ⟨-, contact, on_file⟩ := filed k' s r at_k here
    exact ⟨by rw [contact, recipient], by rw [on_file, channel]⟩
  constructor
  · exact fun k s i t n r ev m at_k _ here _ _ mail => reaches i k ev m k s r mail at_k here
  · exact fun k s i t n r ev m at_k _ here _ _ mail => reaches i k ev m k s r mail at_k here
  · intro k s i t n' r j m at_k label here unalerted failed j' i' m' after before delivered
    obtain ⟨ev, moves, negative⟩ := failed
    obtain ⟨ev', moves', proves⟩ := delivered
    obtain ⟨u, at_j, wrote⟩ := writes?_of_moves moves
    obtain ⟨u', at_j', wrote'⟩ := writes?_of_moves moves'
    -- the failures are beyond `n`, and no delivery is
    rcases Nat.lt_or_ge j n with small | large
    · have none := List.all_eq_true.1 early u
        (List.mem_of_getElem? ((List.getElem?_take_of_lt small).trans at_j))
      simp [wrote, negative] at none
    · have mem : u' ∈ tr.drop n := by
        refine List.mem_of_getElem? (i := j' - n) ?_
        rw [List.getElem?_drop, Nat.add_sub_cancel' (by omega)]
        exact at_j'
      have none := List.all_eq_true.1 late u' mem
      simp [wrote', proves] at none
  · intro k s i name contact channel n r at_k label here _
    obtain ⟨-, on_file, channels⟩ := filed k s r at_k here
    have step := (Bool.and_eq_true_iff.1 (each k s at_k)).2
    rw [label] at step
    simp only [Bool.and_eq_true, decide_eq_true_eq] at step
    exact ⟨by rw [on_file, step.1], by rw [channels, step.2]⟩
  · intro k s i m r at_k delivered here _ _
    obtain ⟨ev, moves, -⟩ := delivered
    obtain ⟨vault, directed, -⟩ := found i k ev m moves.found
    exact ⟨vault.trans (filed k s r at_k here).1.symm, directed⟩
  · intro k s i st e r at_k writes label here
    have step := (Bool.and_eq_true_iff.1 (each k s at_k)).2
    rw [label] at step
    rcases writes with ⟨t, rfl⟩ | rfl <;> cases step
  · intro k s j i m r at_k halted
    have step := (Bool.and_eq_true_iff.1 (each k s at_k)).2
    rw [halted] at step
    cases step

/-- Whether the vault is flagged, and what its contact is. -/
def flags (verified alerted : Bool) (address : String) (s : PostStep) : Bool :=
  (s.after.heir? "v").any fun r => decide (r.verifiedAt.isSome = verified) &&
    decide (r.alertedAt.isSome = alerted) && decide (r.contact = some address)

/-- A vault whose heir was reached once and not the second time. -/
theorem described_of_current_savedAgain : ∃ tr c, PostRun jsonHost 0 tr c ∧
    tr[30]?.any (flags true true "heir@mail.org") = true ∧ AllDescribed tr := by
  obtain ⟨tr, c, run, check⟩ := exists_played jsonHost savedAgain
    (fun tr _ => tr.all (keepsTo "heir@mail.org") &&
      (tr.take 15).all (fun s => (writes? s).all fun status => !isNegativeVerdict status) &&
      (tr.drop 15).all (fun s => (writes? s).all fun status => !provesDelivery status) &&
      tr[30]?.any (flags true true "heir@mail.org")) (by decide +kernel)
  simp only [Bool.and_eq_true] at check
  obtain ⟨⟨⟨keeps, early⟩, late⟩, flagged⟩ := check
  exact ⟨tr, c, run, flagged, described_of_current run (current_of_keepsTo 15 keeps early late)⟩

/-- Whether what is found is mailed to `address`. -/
def finds (address : String) (s : PostStep) : Bool :=
  match s.label with
  | .acted _ ⟨.query (.byProviderId _), .ok m⟩ =>
      Option.all (fun m : Mail => decide (m.recipient = address)) m
  | _ => true

/-- The new address counts as reached, though nothing was mailed to it. -/
theorem not_described : ¬ ∀ (S : Server) (clock : Instant) (tr : PostTrace)
    (c : Config PostAction PostAction.Response ApiError (Option Recorded) Post PostRequest),
    PostRun S clock tr c → AllDescribed tr := by
  intro described
  obtain ⟨tr, c, run, check⟩ := exists_played jsonHost deliveredLate
    (fun tr _ => tr.all (finds "heir@mail.org") && tr[17]?.any (flags true false "new@mail.org"))
    (by decide +kernel)
  simp only [Bool.and_eq_true, Option.any_eq_true, flags, decide_eq_true_eq] at check
  obtain ⟨mails, s, at_k, r, here, ⟨⟨verified, -⟩, contact⟩⟩ := check
  have key : r.id = "v" := KeyedTable.find?_key here
  obtain ⟨j, i, m, -, ⟨ev, moves, -⟩, reaches, -⟩ :=
    (described jsonHost 0 tr c run 17 s r at_k (key ▸ here)).verified verified
  obtain ⟨n, u, -, at_n, label⟩ := mem_history.1 moves.found
  have mailed := List.all_eq_true.1 mails u (List.mem_of_getElem? at_n)
  unfold finds at mailed
  rw [label] at mailed
  have recipient : m.recipient = "heir@mail.org" := of_decide_eq_true mailed
  rw [contact, recipient] at reaches
  exact absurd reaches (by decide)

end Late

end Delivery

end GhostKey

import GhostKey.Deployment
import GhostKey.Foundation.Interference
import GhostKey.Alone

/-!
# Claims That Fail

A spending route takes the claim token before it touches the wallet or the network,
and every failure from there on releases it. Taking the token writes over the status,
whatever it was, and releasing it writes `timelock_started`, so the row is given back
as it was found but for its status.

Layers:
1. `Shows`: what stays of a row under the steps of the others.
2. The parts of a spending route: what leads up to the token, the token, the spend.
3. `failedClaim_releases`: the row after a claim that failed.
-/

namespace GhostKey

open Foundation Program Prog

/-! ## §1 Rows amid the steps of others -/

/-- The status and the columns of the claim token. -/
structure ClaimColumns where
  status : Status
  claimTokenHash : Option Hash
  claimTokenIssuedAt : Option Instant
  claimTokenUsedAt : Option Instant
  deriving DecidableEq

def VaultRow.claimColumns (r : VaultRow) : ClaimColumns :=
  ⟨r.life.status, r.life.claimTokenHash, r.life.claimTokenIssuedAt, r.life.claimTokenUsedAt⟩

/-- The row in the status a released token leaves. -/
def VaultRow.started (r : VaultRow) : VaultRow :=
  r.mapLife fun l => { l with status := .timelockStarted }

/-- The UPDATEs of a spending route over the row whose token it takes. -/
def VaultUpdate.spends : VaultUpdate → Bool
  | consumeClaimToken _ => true
  | releaseClaimToken => true
  | promoteClaimed => true
  | _ => false

/-- What is looked at of a row: its claim columns at least, and nothing that the UPDATEs
of a spending route would treat differently. -/
structure View {α : Type} (f : VaultRow → α) : Prop where
  columns : ∀ x y, f x = f y → x.claimColumns = y.claimColumns
  set : ∀ (u : VaultUpdate) x y, u.spends = true → f x = f y → f (u.set x) = f (u.set y)

theorem view_id : View (fun r : VaultRow => r) :=
  ⟨fun _ _ same => congrArg _ same, fun _ _ _ _ same => congrArg _ same⟩

theorem view_claimColumns : View VaultRow.claimColumns where
  columns _ _ same := same
  set u x y spends same := by
    simp only [VaultRow.claimColumns, ClaimColumns.mk.injEq] at same ⊢
    cases u with
    | consumeClaimToken t => simp [VaultUpdate.set, VaultUpdate.setLife, same]
    | releaseClaimToken => simp [VaultUpdate.set, VaultUpdate.setLife, same]
    | promoteClaimed => simp [VaultUpdate.set, VaultUpdate.setLife, same]
    | _ => cases spends

section Shows

variable {α : Type} (f : VaultRow → α) (v : VaultId)

/-- As far as `f` shows, the row of `v` is `x`. -/
def Shows (x : VaultRow) (w : World) : Prop := ∃ y, w.vault? v = some y ∧ f y = f x

/-- The others leave what `f` shows of the row of `v`. -/
def Leaves (w w' : World) : Prop := (w'.vault? v).map f = (w.vault? v).map f

/-- What an action may be answered while the others leave the row and the database
answers. -/
abbrev amid : Answers := Amid (Leaves f v) answering

variable {f v} {x : VaultRow} {w w' : World}

theorem Shows.left (shows : Shows f v x w) (leaves : Leaves f v w w') : Shows f v x w' := by
  obtain ⟨y, row, same⟩ := shows
  unfold Leaves at leaves
  rw [row, Option.map_some, Option.map_eq_some_iff] at leaves
  obtain ⟨z, row', same'⟩ := leaves
  exact ⟨z, row', same'.trans same⟩

theorem Shows.framed (shows : Shows f v x w) (frame : w.Frame w') : Shows f v x w' := by
  obtain ⟨y, row, same⟩ := shows
  exact ⟨y, by rw [frame.vault?, row], same⟩

/-- The others and an action that touches no vault leave what is shown. -/
theorem Shows.calm {a : Action} {r : a.Response} (calm : a.isCalm = true)
    (step : amid f v a w r w') (shows : Shows f v x w) : Shows f v x w' := by
  obtain ⟨w₁, leaves, o, -, performed⟩ := step
  exact (shows.left leaves).framed (Action.frame_of_calm calm performed)

/-- An UPDATE of the row itself, whose WHERE follows from what is shown. -/
theorem Shows.update {u : VaultUpdate} {r : Except DbError Nat} (view : View f)
    (spends : u.spends = true) (guard : ∀ y, f y = f x → u.guard y = true)
    (step : amid f v (.exec (.updateVault v u)) w r w') (shows : Shows f v x w) :
    r = .ok 1 ∧ Shows f v (u.set x) w' := by
  obtain ⟨w₁, leaves, o, answers, performed⟩ := step
  obtain ⟨y, row, same⟩ := shows.left leaves
  simp only [Action.perform, answers, Bool.false_eq_true, if_false, Stmt.run] at performed
  have hit : w₁.db.affected v u = 1 :=
    (Db.updateVault_affected w₁.db v u).2 ⟨y, row, guard y same⟩
  rw [hit] at performed
  cases performed
  exact ⟨rfl, u.set y, World.vault?_update_self row (guard y same), view.set u y x spends same⟩

end Shows

/-! ## §2 Histories without a consumed token -/

/-- Takes the claim token of `v`. -/
def Action.consumes (v : VaultId) (a : Action) : Prop :=
  ∃ t, a = .exec (.updateVault v (.consumeClaimToken t))

theorem not_consumes_of_calm {v : VaultId} {a : Action} (calm : a.isCalm = true) :
    ¬ a.consumes v := by
  rintro ⟨t, rfl⟩
  cases calm

theorem not_consumes_of_ask {v : VaultId} {x : External} : ¬ (Action.ask x).consumes v := by
  rintro ⟨t, ⟨⟩⟩

theorem not_consumes_of_free {v : VaultId} {a : Action} (free : a.isFree = true) :
    ¬ a.consumes v := by
  rintro ⟨t, rfl⟩
  cases free

/-- A history grown by other actions has consumed no more than before. -/
theorem not_consumed {v : VaultId} {h g : Hist} (none : ¬ Consumed h v)
    (grown : ∀ e ∈ g, e ∈ h ∨ ¬ e.action.consumes v) : ¬ Consumed g v := by
  rintro ⟨t, ran⟩
  rcases grown _ ran with old | other
  · exact none ⟨t, old⟩
  · exact other ⟨t, rfl⟩

section Parts

variable {α β γ : Type} {f : VaultRow → α} {v : VaultId} {x r : VaultRow} {w : World} {h : Hist}
  {P : World → Hist → Except ApiError β → Prop}

/-- What a claim that took the token of `r` and failed leaves. -/
def Released (f : VaultRow → α) (v : VaultId) (r : VaultRow) (w : World) (h : Hist)
    (res : Except ApiError β) : Prop :=
  Consumed h v → (∃ e, res = .error e) → Shows f v r.started w

/-- A part that touches no vault. -/
theorem Yields.calm {p : Prog γ} (only : p.Only fun a => a.isCalm = true)
    (shows : Shows f v x w) (unspent : ¬ Consumed h v) :
    Yields (amid f v) (fun w h _ => Shows f v x w ∧ ¬ Consumed h v) p w h := by
  have both : Yields (amid f v)
      (fun w' g _ => Shows f v x w' ∧ ∀ e ∈ g, e ∈ h ∨ e.action.isCalm = true) p w h :=
    Yields.of_meets (K := fun a => a.isCalm = true) (only.meets h)
      (fun a w r w' calm step shows => shows.calm calm step) shows
  apply both.mono
  rintro w' h' res ⟨shows', grown⟩
  exact ⟨shows', not_consumed unspent fun e mem => (grown e mem).imp_right not_consumes_of_calm⟩

/-- A part that does not take the token. -/
theorem Yields.unspent {p : Prog γ} (only : p.Only fun a => ¬ a.consumes v)
    (unspent : ¬ Consumed h v) : Yields (amid f v) (fun _ h _ => ¬ Consumed h v) p w h := by
  have grows : Yields (amid f v)
      (fun _ g _ => True ∧ ∀ e ∈ g, e ∈ h ∨ ¬ e.action.consumes v) p w h :=
    Yields.of_meets (K := fun a => ¬ a.consumes v) (only.meets h) (fun _ _ _ _ _ _ _ => trivial)
      trivial
  apply grows.mono
  rintro w' h' res ⟨-, grown⟩
  exact not_consumed unspent grown

theorem released_of_unspent {res : Except ApiError β} (unspent : ¬ Consumed h v) :
    Released f v r w h res := fun consumed => absurd consumed unspent

/-- A part that touches no vault comes before the token is taken. -/
theorem Yields.calm_before {p : Prog γ} {g : γ → Prog β} (only : p.Only fun a => a.isCalm = true)
    (shows : Shows f v x w) (unspent : ¬ Consumed h v)
    (next : ∀ w' h' a, Shows f v x w' → ¬ Consumed h' v →
      Yields (amid f v) (Released f v r) (g a) w' h') :
    Yields (amid f v) (Released f v r) (p.bind g) w h := by
  apply Yields.bind (Yields.calm only shows unspent)
  · rintro w' h' a ⟨shows', unspent'⟩
    exact next w' h' a shows' unspent'
  · rintro w' h' e ⟨-, unspent'⟩
    exact released_of_unspent unspent'

/-- A part that touches no vault comes after the token is taken, and cannot fail. -/
theorem Yields.calm_after {p : Prog γ} {g : γ → Prog β} (sure : p.Sure fun a => a.isCalm = true)
    (shows : Shows f v x w) (next : ∀ w' h' a, Shows f v x w' → Yields (amid f v) P (g a) w' h') :
    Yields (amid f v) P (p.bind g) w h := by
  have both : Yields (amid f v) (fun w' _ r => Shows f v x w' ∧ ∃ a, r = .ok a) p w h :=
    Yields.of_sure sure (fun a w r w' calm step shows => shows.calm calm step) shows
  apply Yields.bind both
  · rintro w' h' a ⟨shows', -⟩
    exact next w' h' a shows'
  · rintro w' h' e ⟨-, a, ⟨⟩⟩

/-! ## §3 The parts of a spending route -/

variable (S : Server)

theorem only_unusedHeirRow (token : Token) :
    (unusedHeirRow S token).Only fun a => a.isCalm = true := by
  have found : (heirRow S token).Only fun a => a.isCalm = true := by
    refine .bind (only_query rfl) fun row => .bind (only_okOr _ _) fun r => ?_
    apply Only.bind (only_okOr _ _)
    intro storedHash
    split <;> trivial
  apply Only.bind found
  intro r
  split <;> trivial

theorem only_parseDestination {ok : Action → Prop} (destination : String) (network : Network)
    (wrong : String) : (parseDestination S destination network wrong).Only ok := by
  apply Only.bind (only_validated _ _)
  intro dest
  split <;> trivial

theorem only_parseXpriv {ok : Action → Prop} (field raw : String) (network : Network) :
    (parseXpriv S field raw network).Only ok := by
  apply Only.bind (only_validated _ _)
  intro key
  split <;> trivial

/-- The window check stamps nothing when it lets a claim through. -/
theorem yields_ensureClaimChallenge (id : VaultId) (shows : Shows f v x w)
    (unspent : ¬ Consumed h v) :
    Yields (amid f v) (fun w h res => ¬ Consumed h v ∧ (res = .ok none → Shows f v x w))
      (ensureClaimChallenge S id) w h := by
  unfold ensureClaimChallenge
  split
  · exact ⟨unspent, fun _ => shows⟩
  -- read the clock and the row; without a stamp the window opens now
  · apply Yields.bind (Yields.calm (.perform rfl) shows unspent)
    · rintro w₁ h₁ (t : Instant) ⟨shows₁, unspent₁⟩
      apply Yields.bind (Yields.calm (only_query rfl) shows₁ unspent₁)
      · rintro w₂ h₂ row ⟨shows₂, unspent₂⟩
        apply Yields.bind (Yields.calm (only_okOr _ row) shows₂ unspent₂)
        · rintro w₃ h₃ r₁ ⟨shows₃, unspent₃⟩
          split
          · exact ⟨unspent₃, fun _ => shows₃⟩
          · -- the stamp is written, so the claim is refused
            have stamps : (update id (.stampClaimOpened t)).Only fun a => ¬ a.consumes v := by
              apply only_exec
              rintro ⟨t', ⟨⟩⟩
            apply Yields.bind (Yields.unspent stamps unspent₃)
            · intro w₄ h₄ rows unspent₄
              dsimp only
              split
              · have recorded : (recordEvent id .claimOpened
                    [("challenge_until", .str (S.rfc3339 (t + S.window)))]).Only
                      fun a => ¬ a.consumes v :=
                  (free_recordEvent (by simp)).mono fun a => not_consumes_of_free (v := v)
                apply Yields.bind (Yields.unspent recorded unspent₄)
                · intro w₅ h₅ _ unspent₅
                  have told := (free_logged (free_notifyClaimOpened S id)).mono
                    fun a => not_consumes_of_free (v := v)
                  apply Yields.bind (Yields.unspent told unspent₅)
                  · exact fun w₆ h₆ _ unspent₆ => ⟨unspent₆, by rintro ⟨⟩⟩
                  · exact fun w₆ h₆ _ unspent₆ => ⟨unspent₆, by rintro ⟨⟩⟩
                · exact fun w₅ h₅ _ unspent₅ => ⟨unspent₅, by rintro ⟨⟩⟩
              · exact ⟨unspent₄, by rintro ⟨⟩⟩
            · exact fun w₄ h₄ _ unspent₄ => ⟨unspent₄, by rintro ⟨⟩⟩
        · exact fun w₃ h₃ _ before => ⟨before.2, by rintro ⟨⟩⟩
      · exact fun w₂ h₂ _ before => ⟨before.2, by rintro ⟨⟩⟩
    · exact fun w₁ h₁ _ before => ⟨before.2, by rintro ⟨⟩⟩

theorem yields_requireWindowElapsed (id : VaultId) (shows : Shows f v x w)
    (unspent : ¬ Consumed h v) :
    Yields (amid f v) (fun w h res => ¬ Consumed h v ∧ (res = .ok () → Shows f v x w))
      (requireWindowElapsed S id) w h := by
  apply Yields.bind (yields_ensureClaimChallenge S id shows unspent)
  · rintro w₁ h₁ available ⟨unspent₁, through⟩
    cases available with
    | some available => exact ⟨unspent₁, by rintro ⟨⟩⟩
    | none => exact ⟨unspent₁, fun _ => through rfl⟩
  · rintro w₁ h₁ e ⟨unspent₁, -⟩
    exact ⟨unspent₁, by rintro ⟨⟩⟩

/-- Everything before the token is taken. -/
theorem yields_loadVaultForClaimToken {g : VaultRow × Network → Prog β} (token : Token)
    (shows : Shows f v x w) (unspent : ¬ Consumed h v)
    (next : ∀ w' h' loaded, Shows f v x w' → ¬ Consumed h' v →
      Yields (amid f v) (Released f v r) (g loaded) w' h') :
    Yields (amid f v) (Released f v r) ((loadVaultForClaimToken S token).bind g) w h := by
  have loads : Yields (amid f v)
      (fun w h res => ¬ Consumed h v ∧ ∀ loaded, res = .ok loaded → Shows f v x w)
      (loadVaultForClaimToken S token) w h := by
    apply Yields.bind (Yields.calm (only_unusedHeirRow S token) shows unspent)
    · rintro w₁ h₁ row ⟨shows₁, unspent₁⟩
      apply Yields.bind (yields_requireWindowElapsed S row.id shows₁ unspent₁)
      · rintro w₂ h₂ ⟨⟩ ⟨unspent₂, through⟩
        have stored : (storedNetwork row).Only fun a => a.isCalm = true := by
          unfold storedNetwork
          split <;> trivial
        apply Yields.bind (Yields.calm stored (through rfl) unspent₂)
        · rintro w₃ h₃ network ⟨shows₃, unspent₃⟩
          exact ⟨unspent₃, fun _ _ => shows₃⟩
        · exact fun w₃ h₃ _ before => ⟨before.2, by rintro _ ⟨⟩⟩
      · exact fun w₂ h₂ _ before => ⟨before.1, by rintro _ ⟨⟩⟩
    · exact fun w₁ h₁ _ before => ⟨before.2, by rintro _ ⟨⟩⟩
  apply Yields.bind loads
  · rintro w' h' loaded ⟨unspent', shows'⟩
    exact next w' h' loaded (shows' loaded rfl) unspent'
  · rintro w' h' e ⟨unspent', -⟩
    exact released_of_unspent unspent'

/-! ## §4 The token and the spend -/

/-- A token that was taken and is released. -/
theorem yields_releaseAndFail {t : Instant} (view : View f) (unused : r.life.claimTokenUsedAt = none)
    (shows : Shows f v ((VaultUpdate.consumeClaimToken t).set r) w) (e : ApiError) :
    Yields (amid f v) (Released f v r) (releaseAndFail v e : Prog β) w h := by
  have claiming : ∀ y, f y = f ((VaultUpdate.consumeClaimToken t).set r) →
      VaultUpdate.releaseClaimToken.guard y = true := by
    intro y same
    have columns := view.columns _ _ same
    exact decide_eq_true (congrArg ClaimColumns.status columns)
  have given : VaultUpdate.releaseClaimToken.set ((VaultUpdate.consumeClaimToken t).set r) =
      r.started := by
    simp only [VaultUpdate.set, VaultRow.mapLife, VaultUpdate.setLife, VaultRow.started]
    rw [← unused]
  intro res w' step
  obtain ⟨rfl, shows'⟩ := shows.update view rfl claiming step
  intro _ _
  rw [given] at shows'
  exact shows'

/-- From the taken token on, a failure leads to its release. -/
theorem yields_spendAndPromote {t : Instant} (view : View f)
    (unused : r.life.claimTokenUsedAt = none) (setup : Except ApiError Unit) {plan : SpendPlan}
    (sure : plan.Sure fun a => a.isCalm = true) (detail : Tx → Detail)
    (shows : Shows f v ((VaultUpdate.consumeClaimToken t).set r) w) :
    Yields (amid f v) (Released f v r) (spendAndPromote v setup plan detail) w h := by
  unfold spendAndPromote
  split
  · exact yields_releaseAndFail view unused shows _
  · apply Yields.calm_after sure shows
    intro w₁ h₁ planned shows₁
    split
    · exact yields_releaseAndFail view unused shows₁ _
    · next tx urls =>
      intro (sent : Except BlockingErr Unit) w₂ step
      have shows₂ : Shows f v ((VaultUpdate.consumeClaimToken t).set r) w₂ := by
        obtain ⟨w', leaves, o, -, performed⟩ := step
        obtain ⟨y, row, same⟩ := shows₁.left leaves
        refine ⟨y, ?_, same⟩
        cases performed
        rw [← row]
        unfold External.effect
        split <;> rfl
      cases sent with
      | error e => exact yields_releaseAndFail view unused shows₂ _
      | ok _ =>
        -- a promoted vault is there, so its event is recorded and the claim succeeds
        intro res w₃ step₃
        obtain ⟨rfl, shows₃⟩ := shows₂.update view rfl (fun _ _ => rfl) step₃
        intro t' w₄ step₄
        have shows₄ := shows₃.calm rfl step₄
        intro res' w₅ step₅
        obtain ⟨w', leaves, o, answers, performed⟩ := step₅
        obtain ⟨y, row, -⟩ := shows₄.left leaves
        have present : w'.db.hasVault v = true := by
          rw [Db.hasVault, show w'.db.vault? v = some y from row]
          rfl
        simp only [Action.perform, answers, Bool.false_eq_true, if_false, Stmt.run, present,
          if_true] at performed
        cases performed
        rintro - ⟨e, ⟨⟩⟩

/-- A spend for another vault does not take this one's token. -/
theorem only_spend_other {id : VaultId} (other : id ≠ v) (setup : Except ApiError Unit)
    {plan : SpendPlan} (sure : plan.Sure fun a => a.isCalm = true) (detail : Tx → Detail) :
    ((consumeClaimToken id).bind fun _ => spendAndPromote id setup plan detail).Only
      fun a => ¬ a.consumes v := by
  -- every statement on the way names the other vault
  have releases : ∀ e : ApiError, (releaseAndFail id e : Prog BroadcastResponse).Only
      fun a => ¬ a.consumes v := by
    intro e
    refine .bind (.bind (.attempt (only_exec ?_)) fun _ => trivial) fun _ => trivial
    rintro ⟨t, ⟨⟩⟩
  have takes : (consumeClaimToken id).Only fun a => ¬ a.consumes v := by
    refine .bind (.perform (not_consumes_of_calm rfl)) fun t => .bind (only_exec ?_) fun rows => ?_
    · rintro ⟨t', same⟩
      cases same
      exact other rfl
    · split <;> trivial
  apply takes.bind
  intro _
  unfold spendAndPromote
  split
  · exact releases _
  · apply (sure.only.mono fun a => not_consumes_of_calm).bind
    intro planned
    split
    · exact releases _
    · next tx urls =>
      refine ⟨not_consumes_of_ask, fun (sent : Except BlockingErr Unit) => ?_⟩
      cases sent with
      | error e => exact releases _
      | ok _ =>
        have promotes : (update id .promoteClaimed).Only fun a => ¬ a.consumes v := by
          apply only_exec
          rintro ⟨t, ⟨⟩⟩
        apply promotes.bind
        intro rows
        have recorded : (recordEvent id .claimBroadcast (detail tx)).Only
            fun a => ¬ a.consumes v :=
          (free_recordEvent (by simp)).mono fun a => not_consumes_of_free (v := v)
        exact recorded.bind fun _ => trivial

/-- The taking of the token, and what follows. -/
theorem yields_spend (view : View f) (id : VaultId) (setup : Except ApiError Unit)
    {plan : SpendPlan} (sure : plan.Sure fun a => a.isCalm = true) (detail : Tx → Detail)
    (shows : Shows f v r w) (unspent : ¬ Consumed h v) :
    Yields (amid f v) (Released f v r)
      ((consumeClaimToken id).bind fun _ => spendAndPromote id setup plan detail) w h := by
  by_cases own : id = v
  · subst own
    intro (t : Instant) w₁ step₁
    have shows₁ := shows.calm rfl step₁
    have unspent₁ : ¬ Consumed (h ++ [⟨.now, t⟩]) id :=
      not_consumed unspent fun e mem => (List.mem_append.1 mem).imp_right fun last => by
        rw [List.mem_singleton.1 last]
        exact not_consumes_of_calm rfl
    intro res w₂ step₂
    cases used : r.life.claimTokenUsedAt with
    | none =>
      have unused : ∀ y, f y = f r → (VaultUpdate.consumeClaimToken t).guard y = true := by
        intro y same
        have columns := congrArg ClaimColumns.claimTokenUsedAt (view.columns _ _ same)
        exact decide_eq_true (columns.trans used)
      obtain ⟨rfl, shows₂⟩ := shows₁.update view rfl unused step₂
      exact yields_spendAndPromote view used setup sure detail shows₂
    | some t' =>
      -- a token that is used is not taken again
      obtain ⟨w', leaves, o, answers, performed⟩ := step₂
      obtain ⟨y, row, same⟩ := shows₁.left leaves
      have columns := congrArg ClaimColumns.claimTokenUsedAt (view.columns _ _ same)
      have missed : w'.db.affected id (.consumeClaimToken t) = 0 := by
        apply (Db.updateVault_affected_cases w'.db id _).resolve_left
        intro hit
        obtain ⟨y', row', guard⟩ := (Db.updateVault_affected w'.db id _).1 hit
        rw [show w'.db.vault? id = some y from row] at row'
        cases row'
        have unused : y.life.claimTokenUsedAt = none := of_decide_eq_true guard
        exact absurd (unused.symm.trans (columns.trans used)) (by simp)
      simp only [Action.perform, answers, Bool.false_eq_true, if_false, Stmt.run, missed] at performed
      cases performed
      apply released_of_unspent
      rintro ⟨t₁, ran⟩
      rcases List.mem_append.1 ran with old | last
      · exact unspent₁ ⟨t₁, old⟩
      · rw [List.mem_singleton] at last
        cases last
  · apply (Yields.unspent (only_spend_other own setup sure detail) unspent).mono
    intro w' h' res unspent'
    exact released_of_unspent unspent'

end Parts

/-! ## §5 The routes -/

section Routes

variable {α : Type} {f : VaultRow → α} {v : VaultId} {r : VaultRow} {w : World} {S : Server}
  {q : Request}

theorem sure_drainPlan (config : VaultConfig) (wallet : Except String Wallet)
    (build : Wallet → Except String BuiltPsbt) :
    (drainPlan S config wallet build).Sure fun a => a.isCalm = true := by
  unfold drainPlan
  split
  · trivial
  · refine .bind (.perform rfl) fun answer => ?_
    split
    · trivial
    · split
      · trivial
      · split
        · trivial
        · split <;> trivial

theorem yields_reply {β : Type} {p : Prog β} {wrap : β → Reply} {h : Hist}
    (yields : Yields (amid f v) (Released f v r) p w h) :
    Yields (amid f v) (Released f v r) (p.reply wrap) w h := by
  apply Yields.bind yields
  · rintro w' h' a - - ⟨e, ⟨⟩⟩
  · rintro w' h' e released consumed -
    exact released consumed ⟨e, rfl⟩

/-- A claim that took the token of `v` and fails gives the row back as it found it,
in `timelock_started`. -/
theorem yields_released (view : View f) (spends : q.spends = true) (row : w.vault? v = some r) :
    Yields (amid f v) (Released f v r) (q.program S) w [] := by
  have shows : Shows f v r w := ⟨r, row, rfl⟩
  have unspent : ¬ Consumed [] v := by
    rintro ⟨t, ran⟩
    cases ran
  -- the three spending routes: their checks, then the common spend
  cases q with
  | broadcastClaim token psbt =>
    apply yields_reply
    apply yields_loadVaultForClaimToken S token shows unspent
    rintro w₁ h₁ ⟨r₁, network⟩ shows₁ unspent₁
    apply Yields.calm_before (only_validated _ _) shows₁ unspent₁
    intro w₂ h₂ bytes shows₂ unspent₂
    apply Yields.calm_before (only_validated _ _) shows₂ unspent₂
    intro w₃ h₃ psbt shows₃ unspent₃
    exact yields_spend view r₁.id _ (.done _) _ shows₃ unspent₃
  | heirClaim token destination fee key =>
    apply yields_reply
    apply yields_loadVaultForClaimToken S token shows unspent
    rintro w₁ h₁ ⟨r₁, network⟩ shows₁ unspent₁
    apply Yields.calm_before (only_parseDestination S _ _ _) shows₁ unspent₁
    intro w₂ h₂ dest shows₂ unspent₂
    apply Yields.calm_before (only_parseXpriv S _ _ _) shows₂ unspent₂
    intro w₃ h₃ key shows₃ unspent₃
    exact yields_spend view r₁.id _ (sure_drainPlan _ _ _) _ shows₃ unspent₃
  | guardianClaim token destination fee heirKey guardianKey =>
    apply yields_reply
    apply yields_loadVaultForClaimToken S token shows unspent
    rintro w₁ h₁ ⟨r₁, network⟩ shows₁ unspent₁
    apply Yields.calm_before (only_parseDestination S _ _ _) shows₁ unspent₁
    intro w₂ h₂ dest shows₂ unspent₂
    apply Yields.calm_before (only_parseXpriv S _ _ _) shows₂ unspent₂
    intro w₃ h₃ heirKey shows₃ unspent₃
    apply Yields.calm_before (only_parseXpriv S _ _ _) shows₃ unspent₃
    intro w₄ h₄ guardianKey shows₄ unspent₄
    exact yields_spend view r₁.id _ (sure_drainPlan _ _ _) _ shows₄ unspent₄
  | _ => cases spends

/-- A failed claim that took the token of `v` leaves the row it found, in
`timelock_started`, if the others leave the row alone. -/
theorem yields_started (spends : q.spends = true) (row : w.vault? v = some r) :
    Yields (amid (fun r => r) v)
      (fun w' h res => Consumed h v → (∃ e, res = .error e) → w'.vault? v = some r.started)
      (q.program S) w [] := by
  apply (yields_released view_id spends row).mono
  intro w' h res released consumed failed
  obtain ⟨y, row', rfl⟩ := released consumed failed
  exact row'

/-- A failed claim that took the token of `v` leaves the row it found, in
`timelock_started`, if the others leave the row alone, and the claim columns so, if they
leave those. -/
theorem failedClaim_releases (spends : q.spends = true) (row : w.vault? v = some r) :
    Yields (amid (fun r => r) v)
        (fun w' h res => Consumed h v → (∃ e, res = .error e) → w'.vault? v = some r.started)
        (q.program S) w [] ∧
      Yields (amid VaultRow.claimColumns v)
        (fun w' h res => Consumed h v → (∃ e, res = .error e) →
          (w'.vault? v).map VaultRow.claimColumns =
            some { r.claimColumns with status := .timelockStarted })
        (q.program S) w [] := by
  constructor
  · exact yields_started spends row
  · apply (yields_released view_claimColumns spends row).mono
    intro w' h res released consumed failed
    obtain ⟨y, row', same⟩ := released consumed failed
    rw [row', Option.map_some, same]
    rfl

/-- The same along a run: from the start of the request to its return, with the steps of
the others leaving the row alone and the database answering. -/
theorem Runs.failedClaim {t₀ : Instant} {pre mid post : Trace} {s t : SrvStep} {i : Nat}
    {e : ApiError} (runs : Runs S t₀ (pre ++ s :: (mid ++ t :: post))) (spends : q.spends = true)
    (starts : s.label = .started i q) (row : s.before.vault? v = some r)
    (returns : t.label = .returned i (.error e))
    (others : ∀ u ∈ mid, (∀ e, u.label ≠ .acted i e) → u.after.vault? v = u.before.vault? v)
    (answered : ∀ u ∈ mid, ∀ e : Ev, u.label = .acted i e →
      answering e.action u.before e.response u.after)
    (consumed : Consumed (eventsOf i mid) v) : t.before.vault? v = some r.started := by
  obtain ⟨c, run⟩ := runs
  have promised := yields_started (S := S) spends row
  have grows : ∀ w₁ w₂ w₃ : World, Leaves (fun r => r) v w₁ w₂ → Leaves (fun r => r) v w₂ w₃ →
      Leaves (fun r => r) v w₁ w₃ := fun w₁ w₂ w₃ first second => second.trans first
  refine run.yields grows (fun _ => rfl) ?_ starts promised returns ?_ answered consumed ⟨e, rfl⟩
  · intro w₁ w₂ h res leaves holds consumed failed
    unfold Leaves at leaves
    simp only [Option.map_id'] at leaves
    rw [leaves]
    exact holds consumed failed
  · intro u mem other
    unfold Leaves
    rw [others u mem other]

end Routes

/-! ## §6 A status that is not given back -/

section Refused

open Deployment

/-- Whether the event is a successful taking of the token of `v`. -/
def takes (v : VaultId) (e : Ev) : Bool :=
  match e with
  | ⟨.exec (.updateVault v' (.consumeClaimToken _)), .ok 1⟩ => v' = v
  | _ => false

theorem consumed_of_takes {v : VaultId} {h : Hist} (any : h.any (takes v) = true) :
    Consumed h v := by
  obtain ⟨e, mem, takes⟩ := List.any_eq_true.1 any
  unfold GhostKey.takes at takes
  split at takes
  · next v' t =>
    rw [decide_eq_true_eq] at takes
    subst takes
    exact ⟨t, mem⟩
  · cases takes

/-- A funded vault whose claim was issued by hand. -/
def issued : List (Move Oracle Drift Request) :=
  funded ++ [.start (.issueClaim "v")] ++ steps 3 7 (oracle "token" [])

/-- The claim of `issued`, with an explorer that relays nothing. -/
def refusedClaim (w : World) : Outcome Action Action.Response ApiError Reply World :=
  ((Request.broadcastClaim "token" "coin").program (host 0)).alone Action.perform
    (fun _ => refusing []) w []

theorem refusing_answers (f : VaultRow → VaultRow) (v : VaultId) (n : Nat) (a : Action) (w : World) :
    amid f v a w (a.perform ((fun _ : Nat => refusing []) n) w).1
      (a.perform ((fun _ : Nat => refusing []) n) w).2 :=
  ⟨w, rfl, refusing [], rfl, rfl⟩

/-- Whether the row of `v` has the status. -/
def hasStatus (v : VaultId) (status : Status) (w : World) : Bool :=
  (w.vault? v).any fun r => r.life.status = status

/-- A vault that was `ok` when its claim failed is left in its claim phase. -/
theorem not_failedClaim_restores :
    ¬ ∀ (S : Server) (t₀ : Instant) (tr : Trace) (c : Config Action Action.Response ApiError Reply
        World Request) (q : Request) (v : VaultId) (r : VaultRow), S.Lawful →
      Run (server S) (System.boot (World.start t₀)) tr c → q.spends = true →
      c.world.vault? v = some r →
        Yields (amid (fun r => r) v)
          (fun w' h res => Consumed h v → (∃ e, res = .error e) → w'.vault? v = some r)
          (q.program S) c.world [] := by
  intro restores
  obtain ⟨tr, c, run, check⟩ := reaches_of_play (host 0) issued
    (fun w => hasStatus "v" .ok w && hasStatus "v" .timelockStarted (refusedClaim w).world &&
      (refusedClaim w).history.any (takes "v") && !(refusedClaim w).result.isOk) (by decide +kernel)
  simp only [Bool.and_eq_true, hasStatus, Option.any_eq_true, decide_eq_true_eq] at check
  obtain ⟨⟨⟨⟨r, row, ok⟩, r', row', started⟩, took⟩, failed⟩ := check
  have promised := restores (host 0) 0 tr c (.broadcastClaim "token" "coin") "v" r (lawful 0) run rfl row
  have outcome := promised.alone (refusing_answers _ _)
  have error : ∃ e, (refusedClaim c.world).result = .error e := by
    cases result : (refusedClaim c.world).result with
    | error e => exact ⟨e, rfl⟩
    | ok a =>
      rw [result] at failed
      cases failed
  have same := outcome (consumed_of_takes took) error
  rw [show ((refusedClaim c.world).world.vault? "v") = some r from same] at row'
  cases row'
  rw [ok] at started
  cases started

/-- The same claim, and what the theorem says of it. -/
theorem failedClaim_releases_issued :
    ∃ w r, w.vault? "v" = some r ∧ r.life.status = .ok ∧
      Yields (amid (fun r => r) "v")
        (fun w' h res => Consumed h "v" → (∃ e, res = .error e) → w'.vault? "v" = some r.started)
        ((Request.broadcastClaim "token" "coin").program (host 0)) w [] := by
  obtain ⟨tr, c, run, check⟩ := reaches_of_play (host 0) issued (hasStatus "v" .ok)
    (by decide +kernel)
  simp only [hasStatus, Option.any_eq_true, decide_eq_true_eq] at check
  obtain ⟨r, row, ok⟩ := check
  exact ⟨c.world, r, row, ok, (failedClaim_releases rfl row).1⟩

end Refused

end GhostKey

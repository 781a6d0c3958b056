import GhostKey.Practice

/-!
# What Practice Runs Keep

The columns of a practice run are written by four statements, and by the deletion of the
vault. The two marks are compare-and-swaps on the vault, not on the practice token: who makes
one has presented a token the vault had at its lookup.

Layers:
1. one route: `Warranted` says what has gone before each of its statements;
2. one step: `ColumnsChange` lists everything that may happen to the columns of a vault;
3. `practiceKept`: marks are made once a practice run, and what is announced or answered
   has happened.
-/

namespace GhostKey

namespace Practice

open Foundation Program

/-! ## §1 The routes' statements -/

abbrev DrillEv := Event DrillAction DrillAction.Response

abbrev DrillHist := History DrillAction DrillAction.Response

def DrillAction.isStmt : DrillAction → Bool
  | .exec _ => true
  | _ => false

def DrillAction.insertsEvent : DrillAction → Bool
  | .exec (.insertEvent _) => true
  | _ => false

def DrillAction.insertsNotice : DrillAction → Bool
  | .exec (.insertNotice _) => true
  | _ => false

section Routes

variable (S : Server)

/-- The lookup of a practice token has found the row. -/
def Presented (h : DrillHist) (token : Token) (r : VaultRow) (d : DrillColumns) : Prop :=
  (⟨.byToken (S.hashClaimToken token), .ok (some (r, d))⟩ : DrillEv) ∈ h ∧
    d.tokenHash = some (S.hashClaimToken token)

/-- What has gone before a statement of a request. -/
inductive Warranted : Request ⊕ DrillRequest → DrillHist → DrillStmt → Prop
  | start {h : DrillHist} {id : VaultId} {token : Token} {t : Instant}
      (issued : (⟨.issueToken, token⟩ : DrillEv) ∈ h) :
      Warranted (.inr (.startDrill id)) h (.start id (S.hashClaimToken token) t)
  | started {h : DrillHist} {id : VaultId} {hash : Hash} {t t' : Instant} {n : Nat}
      (did : (⟨.exec (.start id hash t), .ok n⟩ : DrillEv) ∈ h)
      (first : ∀ e ∈ h, e.action.insertsEvent = false) :
      Warranted (.inr (.startDrill id)) h (.insertEvent ⟨id, .drillStarted, t'⟩)
  | invite {h : DrillHist} {id : VaultId} {token : Token} {t t' : Instant} {n : Nat}
      {channel : Channel} {recipient : String}
      (did : (⟨.exec (.start id (S.hashClaimToken token) t), .ok n⟩ : DrillEv) ∈ h)
      (first : ∀ e ∈ h, e.action.insertsNotice = false) :
      Warranted (.inr (.startDrill id)) h (.insertNotice
        ⟨id, .drillInvite, channel, recipient, some (S.claimUrl token), t'⟩)
  | markOpened {h : DrillHist} {token : Token} {r : VaultRow} {d : DrillColumns} {t : Instant}
      (presented : Presented S h token r d) (unopened : d.openedAt = none) :
      Warranted (.inl (.resolveClaim token)) h (.markOpened r.id t)
  | opened {h : DrillHist} {token : Token} {id : VaultId} {t t' : Instant} {n : Nat}
      (did : (⟨.exec (.markOpened id t), .ok n⟩ : DrillEv) ∈ h) (one : 0 < n)
      (first : ∀ e ∈ h, e.action.insertsEvent = false) :
      Warranted (.inl (.resolveClaim token)) h (.insertEvent ⟨id, .drillOpened, t'⟩)
  | markCompleted {h : DrillHist} {token : Token} {r : VaultRow} {d : DrillColumns} {t : Instant}
      (presented : Presented S h token r d) (unfinished : d.completedAt = none) :
      Warranted (.inr (.completeDrill token)) h (.markCompleted r.id t)
  | completed {h : DrillHist} {token : Token} {id : VaultId} {t t' : Instant} {n : Nat}
      (did : (⟨.exec (.markCompleted id t), .ok n⟩ : DrillEv) ∈ h) (one : 0 < n)
      (first : ∀ e ∈ h, e.action.insertsEvent = false) :
      Warranted (.inr (.completeDrill token)) h (.insertEvent ⟨id, .drillCompleted, t'⟩)
  | told {h : DrillHist} {token : Token} {id : VaultId} {t t' : Instant} {n : Nat}
      {channel : Channel} {recipient : String}
      (did : (⟨.exec (.markCompleted id t), .ok n⟩ : DrillEv) ∈ h) (one : 0 < n)
      (first : ∀ e ∈ h, e.action.insertsNotice = false) :
      Warranted (.inr (.completeDrill token)) h (.insertNotice
        ⟨id, .drillCompleted, channel, recipient, none, t'⟩)

/-- Every statement of `q` is a warranted one. -/
def Conduct (q : Request ⊕ DrillRequest) (h : DrillHist) (e : DrillEv) : Prop :=
  ∀ st, e.action = .exec st → Warranted S q h st

variable {S} {q : Request ⊕ DrillRequest} {h : DrillHist}

theorem conduct_of_read {e : DrillEv} (read : e.action.isStmt = false) : Conduct S q h e := by
  intro st same
  rw [same] at read
  cases read

/-- An entry of the feed. -/
theorem meets_recordEvent {id : VaultId} {kind : DrillEventKind}
    (warranted : ∀ t, Warranted S q (h ++ [⟨.now, t⟩]) (.insertEvent ⟨id, kind, t⟩)) :
    Meets (Conduct S q) (fun g _ => ∃ more, g = h ++ more ∧
      ∀ e ∈ more, e.action.insertsNotice = false) (recordEvent id kind) h := by
  refine fun t => ⟨conduct_of_read rfl, fun res => ⟨?_, ?_⟩⟩
  · rintro st ⟨⟩
    exact warranted t
  · have added : ∃ more, (h ++ [(⟨.now, t⟩ : DrillEv)]) ++
        [(⟨.exec (.insertEvent ⟨id, kind, t⟩), res⟩ : DrillEv)] = h ++ more ∧
          ∀ e ∈ more, e.action.insertsNotice = false :=
      ⟨_, List.append_assoc _ _ _, by simp [DrillAction.insertsNotice]⟩
    cases res with
    | ok n => exact added
    | error e => exact added

/-- A message that is queued when nothing fails. -/
theorem meets_enqueue {id : VaultId} {kind : DrillNoticeKind} {channel : Channel}
    {recipient : String} {link : Option String}
    (warranted : ∀ t, Warranted S q (h ++ [⟨.now, t⟩])
      (.insertNotice ⟨id, kind, channel, recipient, link, t⟩)) :
    Meets (Conduct S q) (fun g res => res = .ok () → h <+: g ∧ ∃ n c,
      (⟨.exec (.insertNotice n), .ok c⟩ : DrillEv) ∈ g)
      (enqueue S id kind channel recipient link) h := by
  unfold enqueue
  cases S.sealForVault id recipient with
  | error e => exact nofun
  | ok sealed =>
    refine fun t => ⟨conduct_of_read rfl, fun res => ⟨?_, ?_⟩⟩
    · rintro st ⟨⟩
      exact warranted t
    · cases res with
      | ok n =>
        refine fun _ => ⟨?_, ⟨id, kind, channel, recipient, link, t⟩, n, by simp⟩
        rw [List.append_assoc]
        exact List.prefix_append _ _
      | error e => exact nofun

/-- What an invitation says has been queued. -/
def Invited (g : DrillHist) (res : Except ApiError Bool) : Prop :=
  ∀ notified, res = .ok notified →
    (notified = true ↔ ∃ n c, (⟨.exec (.insertNotice n), .ok c⟩ : DrillEv) ∈ g)

theorem invited_false (first : ∀ e ∈ h, e.action.insertsNotice = false) :
    Invited h (.ok false) := by
  rintro _ ⟨⟩
  refine ⟨nofun, fun ⟨n, c, mem⟩ => ?_⟩
  have none := first _ mem
  cases none

theorem invited_error (e : ApiError) : Invited h (.error e) := by
  intro notified same
  cases same

theorem meets_enqueueDrillInvite {deliverable : Channel → Bool} {id : VaultId} (token : Token)
    {heir : SealedContact} {t : Instant} {n : Nat}
    (did : (⟨.exec (.start id (S.hashClaimToken token) t), .ok n⟩ : DrillEv) ∈ h)
    (first : ∀ e ∈ h, e.action.insertsNotice = false) :
    Meets (Conduct S (.inr (.startDrill id))) (fun g res => h <+: g ∧ Invited g res)
      (enqueueDrillInvite S deliverable id heir (S.claimUrl token)) h := by
  have none_yet : h <+: h ∧ Invited h (.ok false) := ⟨List.prefix_refl h, invited_false first⟩
  unfold enqueueDrillInvite
  cases parseHeirContact S id heir with
  | error e => exact ⟨List.prefix_refl h, invited_error .crypto⟩
  | ok contact =>
    cases contact with
    | none => exact none_yet
    | some contact =>
      simp only [crypto, bind_eq, done_bind]
      cases inviteChannel contact.channel with
      | none => exact none_yet
      | some channel =>
        cases contact.contact.filter (· ≠ "") with
        | none => exact none_yet
        | some recipient =>
          by_cases mute : (!deliverable channel) = true
          · simp only [if_pos mute]
            exact none_yet
          · simp only [if_neg mute]
            -- the intro is read before the message is queued
            refine fun res => ⟨conduct_of_read rfl, ?_⟩
            have queued : Meets (Conduct S (.inr (.startDrill id)))
                (fun g res => h <+: g ∧ Invited g res)
                ((enqueue S id .drillInvite channel recipient (some (S.claimUrl token))).bind
                  fun _ => done true) (h ++ [(⟨.vault id, res⟩ : DrillEv)]) := by
              refine Meets.bind (Meets.and (Meets.grows _ _) (meets_enqueue fun t' => ?_) |>.mono
                (fun _ _ both => both.2) fun _ _ e => e) ?_ ?_
              · refine .invite (List.mem_append_left _ (List.mem_append_left _ did)) ?_
                intro e mem
                simp only [List.append_assoc, List.mem_append, List.mem_cons, List.not_mem_nil,
                  or_false] at mem
                rcases mem with old | rfl | rfl
                · exact first e old
                · rfl
                · rfl
              · rintro g _ - ⟨grown, sent⟩
                obtain ⟨-, n, c, mem⟩ := sent rfl
                refine ⟨(List.prefix_append _ _).trans grown, ?_⟩
                rintro _ ⟨⟩
                exact ⟨fun _ => ⟨n, c, mem⟩, fun _ => rfl⟩
              · exact fun g e grown _ => ⟨(List.prefix_append _ _).trans grown, invited_error e⟩
            cases res with
            | ok row => exact queued
            | error e => exact queued

/-- What the owner is answered. -/
def StartedAs (S : Server) (id : VaultId) (g : DrillHist) (r : DrillStartResponse) : Prop :=
  r.vaultId = id ∧ ∃ token n, r.claimUrl = S.claimUrl token ∧
    (⟨.exec (.start id (S.hashClaimToken token) r.startedAt), .ok n⟩ : DrillEv) ∈ g ∧
      Invited g (.ok r.heirNotified)

theorem meets_startDrill (deliverable : Channel → Bool) (id : VaultId) :
    Meets (Conduct S (.inr (.startDrill id))) (fun g res => ∀ r, res = .ok r → StartedAs S id g r)
      (startDrill S deliverable id) [] := by
  refine fun row => ⟨conduct_of_read rfl, ?_⟩
  cases row with
  | error e => exact nofun
  | ok row =>
    cases row with
    | none => exact nofun
    | some r =>
      change Meets _ _ (ite _ _ _) _
      split
      · exact nofun
      · refine fun token => ⟨conduct_of_read rfl, fun t => ⟨conduct_of_read rfl, fun res =>
          ⟨?_, ?_⟩⟩⟩
        · rintro st ⟨⟩
          exact .start (by simp)
        · cases res with
          | error e => exact nofun
          | ok n =>
            change Meets _ _ (Program.bind (recordEvent _ _) _) _
            refine Meets.bind (meets_recordEvent fun t' => ?_) ?_ fun _ _ _ _ _ same => by cases same
            -- the start is on file before its entry
            · have did : (⟨.exec (.start id (S.hashClaimToken token) t), .ok n⟩ : DrillEv) ∈
                  [⟨.vault id, .ok (some r)⟩, ⟨.issueToken, token⟩, ⟨.now, t⟩,
                    ⟨.exec (.start id (S.hashClaimToken token) t), .ok n⟩, ⟨.now, t'⟩] := by simp
              exact .started did (by simp [DrillAction.insertsEvent])
            · rintro g _ - ⟨more, rfl, unsent⟩
              -- and before the invitation
              refine Meets.bind (meets_enqueueDrillInvite token (t := t) (n := n) (by simp) ?_) ?_
                fun _ _ _ _ _ same => by cases same
              · intro e mem
                rcases List.mem_append.1 mem with old | new
                · simp only [List.append_assoc, List.mem_append, List.mem_cons, List.not_mem_nil,
                    or_false, false_or] at old
                  rcases old with rfl | rfl | rfl | rfl <;> rfl
                · exact unsent e new
              · rintro g notified - ⟨grown, invited⟩ _ ⟨⟩
                exact ⟨rfl, token, n, rfl, grown.subset (by simp), invited⟩

/-- The lookup of a practice token. -/
theorem meets_drillRow {token : Token} :
    Meets (Conduct S q) (fun g res => ∀ x, res = .ok x →
      g = [(⟨.byToken (S.hashClaimToken token), .ok (some x)⟩ : DrillEv)] ∧
        x.2.tokenHash = some (S.hashClaimToken token)) (drillRow S token) [] := by
  refine fun row => ⟨conduct_of_read rfl, ?_⟩
  cases row with
  | error e => exact fun x same => by cases same
  | ok row =>
    change Meets _ _ (matchedRow S token row) _
    unfold matchedRow
    split
    · exact fun x same => by cases same
    · next r d =>
      split
      · exact fun x same => by cases same
      · next stored hash =>
        split
        · next same =>
          rintro _ ⟨⟩
          refine ⟨rfl, ?_⟩
          rw [hash, of_decide_eq_true same]
        · exact fun x same => by cases same

theorem meets_resolveDrillClaim {token : Token} :
    Meets (Conduct S (.inl (.resolveClaim token))) (fun _ _ => True)
      (resolveDrillClaim S token) [] := by
  refine Meets.bind meets_drillRow ?_ fun _ _ _ _ => trivial
  rintro g ⟨r, d⟩ - found
  obtain ⟨rfl, hash⟩ := found _ rfl
  have view : ∀ g, Meets (Conduct S (.inl (.resolveClaim token))) (fun _ _ => True)
      ((crypto (parseHeirContact S r.id r.contacts.heir)).bind fun contact => done
        (⟨r.id, r.settings.label, r.settings.network, r.life.status, r.settings.timelockBlocks,
          r.life.nextDeadlineAt, r.contacts.heir.channel, contact.bind HeirContact.name,
          r.settings.vaultKind⟩ : DrillView)) g := fun g => by
    cases parseHeirContact S r.id r.contacts.heir with
    | ok contact => trivial
    | error e => trivial
  refine Meets.bind (Q := fun _ _ => True) ?_ (fun g _ _ _ => view g) fun _ _ _ _ => trivial
  -- only the first opening writes
  unfold markFirstOpening
  split
  · next unopened =>
    refine fun t => ⟨conduct_of_read rfl, fun res => ⟨?_, ?_⟩⟩
    · rintro st ⟨⟩
      exact .markOpened ⟨by simp, hash⟩ (Option.isNone_iff_eq_none.1 unopened)
    · cases res with
      | error e => trivial
      | ok n =>
        change Meets _ _ (ite _ _ _) _
        split
        · next one =>
          refine (meets_recordEvent fun t' => ?_).mono (fun _ _ e => e) fun _ _ _ => trivial
          exact .opened (t := t) (n := n) (by simp) one (by simp [DrillAction.insertsEvent])
        · trivial
  · trivial

/-- What follows the mark of a completion. -/
theorem meets_notifyOwnerDrillCompleted {token : Token} {r : VaultRow} {t : Instant} {n : Nat}
    (did : (⟨.exec (.markCompleted r.id t), .ok n⟩ : DrillEv) ∈ h) (one : 0 < n)
    (first : ∀ e ∈ h, e.action.insertsNotice = false) :
    Meets (Conduct S (.inr (.completeDrill token))) (fun _ _ => True)
      (notifyOwnerDrillCompleted S r) h := by
  unfold notifyOwnerDrillCompleted
  split
  · next contact _ =>
    refine Meets.bind (Q := fun _ _ => True) (Meets.attempt (meets_enqueue fun t' => ?_)
      fun _ _ _ => trivial) (fun _ _ _ _ => trivial) fun _ _ _ _ => trivial
    refine .told (t := t) (n := n) (List.mem_append_left _ did) one fun e mem => ?_
    rcases List.mem_append.1 mem with old | new
    · exact first e old
    · rw [List.mem_singleton.1 new]
      rfl
  · trivial

theorem meets_markCompletion {token : Token} {r : VaultRow} {d : DrillColumns} {t : Instant}
    (presented : Presented S h token r d) (unfinished : d.completedAt = none)
    (unsent : ∀ e ∈ h, e.action.insertsEvent = false ∧ e.action.insertsNotice = false) :
    Meets (Conduct S (.inr (.completeDrill token))) (fun g res => res = .ok () → h <+: g ∧
      ∃ n, (⟨.exec (.markCompleted r.id t), .ok n⟩ : DrillEv) ∈ g) (markCompletion S r t) h := by
  refine fun res => ⟨?_, ?_⟩
  · rintro st ⟨⟩
    exact .markCompleted presented unfinished
  · cases res with
    | error e => exact nofun
    | ok n =>
      have did : (⟨.exec (.markCompleted r.id t), .ok n⟩ : DrillEv) ∈
          h ++ [⟨.exec (.markCompleted r.id t), .ok n⟩] := by simp
      -- the UPDATE met the row: the entry, then the notice to the owner
      have good : Meets (Conduct S (.inr (.completeDrill token))) (fun _ _ => True)
          (if n > 0 then (recordEvent r.id .drillCompleted).bind fun _ =>
            notifyOwnerDrillCompleted S r else done ())
          (h ++ [⟨.exec (.markCompleted r.id t), .ok n⟩]) := by
        split
        · next one =>
          refine Meets.bind (meets_recordEvent fun t' => ?_) ?_ fun _ _ _ _ => trivial
          · refine .completed (t := t) (n := n) (by simp) one fun e mem => ?_
            simp only [List.append_assoc, List.mem_append, List.mem_cons, List.not_mem_nil,
              or_false] at mem
            rcases mem with old | rfl | rfl
            · exact (unsent e old).1
            · rfl
            · rfl
          · rintro g _ - ⟨more, rfl, calm⟩
            refine meets_notifyOwnerDrillCompleted (t := t) (n := n) (by simp) one fun e mem => ?_
            simp only [List.append_assoc, List.mem_append, List.mem_cons, List.not_mem_nil,
              or_false] at mem
            rcases mem with old | rfl | new
            · exact (unsent e old).2
            · rfl
            · exact calm e new
        · trivial
      refine Meets.mono (Meets.and good (Meets.grows _ _)) (fun _ _ both => both.1) ?_
      exact fun g _ grown _ => ⟨(List.prefix_append _ _).trans grown.2, n, grown.2.subset did⟩

/-- What the heir is answered. -/
def CompletedAs (S : Server) (token : Token) (g : DrillHist) (t : Instant) : Prop :=
  ∃ r d, Presented S g token r d ∧ (d.completedAt = some t ∨
    ∃ n, (⟨.exec (.markCompleted r.id t), .ok n⟩ : DrillEv) ∈ g)

theorem meets_completeDrill {token : Token} :
    Meets (Conduct S (.inr (.completeDrill token)))
      (fun g res => ∀ t, res = .ok t → CompletedAs S token g t) (completeDrill S token) [] := by
  refine Meets.bind meets_drillRow ?_ fun _ _ _ _ _ same => by cases same
  rintro g ⟨r, d⟩ - found
  obtain ⟨rfl, hash⟩ := found _ rfl
  change Meets _ _ (completionTime S r d.completedAt) _
  cases completed : d.completedAt with
  | some finished =>
    rintro _ ⟨⟩
    exact ⟨r, d, ⟨by simp, hash⟩, .inl completed⟩
  | none =>
    refine fun t => ⟨conduct_of_read rfl, ?_⟩
    change Meets _ _ (Program.bind (markCompletion S r t) _) _
    refine Meets.bind (meets_markCompletion (d := d) ⟨by simp, hash⟩ completed ?_) ?_
      fun _ _ _ _ _ same => by cases same
    · intro e mem
      simp only [List.cons_append, List.nil_append, List.mem_cons, List.not_mem_nil,
        or_false] at mem
      rcases mem with rfl | rfl <;> exact ⟨rfl, rfl⟩
    · rintro g _ - through _ ⟨⟩
      obtain ⟨grown, did⟩ := through rfl
      exact ⟨r, d, ⟨grown.subset (by simp), hash⟩, .inr did⟩

end Routes

/-! ## §2 The requests -/

/-- What a reply says. -/
def Answers (S : Server) (q : Request ⊕ DrillRequest) (g : DrillHist) :
    Reply ⊕ DrillReply → Prop
  | .inr (.started r) => ∃ id, q = .inr (.startDrill id) ∧ StartedAs S id g r
  | .inr (.completed t) => ∃ token, q = .inr (.completeDrill token) ∧ CompletedAs S token g t
  | _ => True

section Requests

variable {S : Server} {deliverable : Channel → Bool}

/-- What a request with practice in it keeps to, and answers. -/
abbrev Proper (S : Server) (q : Request ⊕ DrillRequest) (p : AnyProg (Reply ⊕ DrillReply))
    (g : History (Action ⊕ DrillAction) (Sum.elim Action.Response DrillAction.Response)) : Prop :=
  Meets (fun g e => ∀ e', newEvent? e = some e' → Conduct S q (newPart g) e')
    (fun g res => ∀ reply, res = .ok reply → Answers S q (newPart g) reply) p g

variable {q : Request ⊕ DrillRequest}
variable {g : History (Action ⊕ DrillAction) (Sum.elim Action.Response DrillAction.Response)}

/-- An old part, with what comes after it. -/
theorem proper_liftOld {α : Type} {p : Prog α} {f : α → AnyProg (Reply ⊕ DrillReply)}
    (rest : ∀ g' a, newPart g' = newPart g → Proper S q (f a) g') :
    Proper S q (p.liftOld.bind f) g := by
  refine Meets.bind (Meets.mono (Meets.liftOld (p := p)) (fun _ e old e' new => ?_)
    fun _ _ same => same) (fun g' a _ same => rest g' a same) fun _ _ _ _ _ same => by cases same
  rw [old] at new
  cases new

theorem proper_reply (reply : Reply) : Proper S q (.done (.inl reply)) g := by
  rintro _ ⟨⟩
  trivial

theorem proper_anyProgram (q : Request ⊕ DrillRequest) :
    Proper S q (anyProgram S deliverable q) [] := by
  cases q with
  | inl q =>
    cases q with
    | resolveClaim token =>
      refine proper_liftOld fun g' row same => ?_
      cases row with
      | some r => exact proper_liftOld fun g' v _ => proper_reply _
      | none =>
        refine proper_liftOld fun g'' pair same' => ?_
        cases pair with
        | some x => exact proper_liftOld fun g' v _ => proper_reply _
        | none =>
          -- the practice token's own lookup: nothing of practice has gone before it
          have none_yet : newPart g'' = [] := same'.trans same
          refine Meets.bind (Meets.liftNew (p := resolveDrillClaim S token) (none_yet ▸
            meets_resolveDrillClaim)) (fun g v _ _ => ?_) fun _ _ _ _ _ same => by cases same
          rintro _ ⟨⟩
          trivial
    | _ => exact proper_liftOld fun g' r _ => proper_reply _
  | inr n =>
    cases n with
    | startDrill id =>
      refine Meets.bind (Meets.liftNew (p := startDrill S deliverable id)
        (meets_startDrill deliverable id)) (fun g r _ answered => ?_) fun _ _ _ _ _ same => by cases same
      rintro _ ⟨⟩
      exact ⟨id, rfl, answered r rfl⟩
    | completeDrill token =>
      refine Meets.bind (Meets.liftNew (p := completeDrill S token) meets_completeDrill)
        (fun g t _ answered => ?_) fun _ _ _ _ _ same => by cases same
      rintro _ ⟨⟩
      exact ⟨token, rfl, answered t rfl⟩

end Requests

/-! ## §3 One step -/

/-- Thread `i` ran the practice action in this step. -/
def DidNew (i : Nat) (x : DrillAction) (r : x.Response) (s : AnyStep) : Prop :=
  s.label = .acted i ⟨.inr x, r⟩

/-- The columns of a vault, where a step begins. -/
def columnsAt (s : AnyStep) (v : VaultId) : DrillColumns := s.before.2.columns v

/-- Everything a step may do to the columns of one vault. -/
inductive ColumnsChange (s : AnyStep) (v : VaultId) : Prop
  | kept (same : s.after.2.columns v = s.before.2.columns v)
  | gone (absent : s.after.1.vault? v = none) (null : s.after.2.columns v = .null)
  | started (i : Nat) (hash : Hash) (t : Instant)
      (did : DidNew i (.exec (.start v hash t)) (.ok 1) s)
      (after : s.after.2.columns v = ⟨some hash, some t, none, none⟩)
  | opened (i : Nat) (t : Instant) (did : DidNew i (.exec (.markOpened v t)) (.ok 1) s)
      (unopened : (s.before.2.columns v).openedAt = none)
      (after : s.after.2.columns v = { s.before.2.columns v with openedAt := some t })
  | completed (i : Nat) (t : Instant) (did : DidNew i (.exec (.markCompleted v t)) (.ok 1) s)
      (unfinished : (s.before.2.columns v).completedAt = none)
      (after : s.after.2.columns v = { s.before.2.columns v with completedAt := some t })

section Steps

variable {S : Server} {deliverable : Channel → Bool} {s : AnyStep} {i : Nat} {v : VaultId}

theorem Drills.settle_columns (w : World) (d : Drills) (v : VaultId) :
    (w.vault? v = none ∧ (d.settle w).columns v = .null) ∨
      (d.settle w).columns v = d.columns v := by
  cases found : w.vault? v with
  | none =>
    refine .inl ⟨rfl, if_neg ?_⟩
    simp [Db.hasVault, show w.db.vault? v = none from found]
  | some r =>
    refine .inr (if_pos ?_)
    simp [Db.hasVault, show w.db.vault? v = some r from found]

/-- A practice action is answered by the whole. -/
theorem did_new {x : DrillAction} {r : x.Response}
    (explains : (extension S deliverable).system.Explains s) (did : DidNew i x r s) :
    ∃ o, x.perform o s.before = (r, s.after) := by
  unfold System.Explains at explains
  rw [show s.label = .acted i ⟨.inr x, r⟩ from did] at explains
  exact explains

/-- Whatever else a step is, it settles the columns or leaves them as they are. -/
theorem columns_cases (explains : (extension S deliverable).system.Explains s) :
    (∃ i x r, DidNew i x r s) ∨ s.after.2 = s.before.2.settle s.after.1 ∨
      s.after.2 = s.before.2 := by
  obtain ⟨before, l, after⟩ := s
  cases l with
  | acted i e =>
    obtain ⟨a, r⟩ := e
    cases a with
    | inl a =>
      obtain ⟨o, performed⟩ := explains
      have world : ((a.perform o before.1).2, before.2.settle (a.perform o before.1).2) = after :=
        congrArg Prod.snd performed
      subst world
      exact .inr (.inl rfl)
    | inr x => exact .inl ⟨i, x, r, rfl⟩
  | drifted d => exact .inr (.inl (by rw [explains]; rfl))
  | started i q => exact .inr (.inr (by rw [explains]))
  | returned i r => exact .inr (.inr (by rw [explains]))
  | halted => exact .inr (.inr (by rw [explains]; rfl))

/-- A statement that succeeds. -/
theorem did_exec {st : DrillStmt} {n : Nat}
    (explains : (extension S deliverable).system.Explains s) (did : DidNew i (.exec st) (.ok n) s) :
    st.run s.before.1 s.before.2 = .ok (s.after, n) := by
  obtain ⟨o, answer⟩ := did_new explains did
  simp only [DrillAction.perform] at answer
  split at answer
  · cases answer
  · split at answer
    · next left m ran =>
      cases answer
      exact ran
    · cases answer

/-- One that fails. -/
theorem did_exec_error {st : DrillStmt} {e : DbError}
    (explains : (extension S deliverable).system.Explains s)
    (did : DidNew i (.exec st) (.error e) s) : s.after = s.before := by
  obtain ⟨o, answer⟩ := did_new explains did
  simp only [DrillAction.perform] at answer
  split at answer
  · exact (congrArg Prod.snd answer).symm
  · split at answer
    · cases answer
    · exact (congrArg Prod.snd answer).symm

/-- The lookup of a practice token finds a row that has it. -/
theorem did_byToken {hash : Hash} {r : VaultRow} {d : DrillColumns}
    (explains : (extension S deliverable).system.Explains s)
    (did : DidNew i (.byToken hash) (.ok (some (r, d))) s) :
    s.before.1.vault? r.id = some r ∧ s.before.2.columns r.id = d ∧ d.tokenHash = some hash ∧
      s.after = s.before := by
  obtain ⟨o, answer⟩ := did_new explains did
  have same : s.after = s.before := (congrArg Prod.snd answer).symm
  have found : (if o.dbFails then .error .unavailable
      else .ok (Drills.byToken s.before.1 s.before.2 hash) :
        Except DbError (Option (VaultRow × DrillColumns))) = .ok (some (r, d)) :=
    congrArg Prod.fst answer
  split at found
  · cases found
  · simp only [Except.ok.injEq, Drills.byToken, Option.map_eq_some_iff, Prod.mk.injEq] at found
    obtain ⟨r', listed, rfl, rfl⟩ := found
    have mem := List.mem_of_find?_eq_some listed
    have hit := List.find?_some listed
    exact ⟨KeyedTable.find?_of_mem mem, rfl, of_decide_eq_true hit, same⟩

/-- A row of `vaults` that a statement leaves alone. -/
theorem columns_other {id : VaultId} {c : DrillColumns} (other : v ≠ id)
    (left : (s.before.1, s.before.2.set id c) = s.after) : s.after.2.columns v = s.before.2.columns v := by
  rw [← left, Drills.set_columns, if_neg other]

theorem columns_self {c : DrillColumns} (left : (s.before.1, s.before.2.set v c) = s.after) :
    s.after.2.columns v = c := by
  rw [← left, Drills.set_columns, if_pos rfl]

theorem ColumnsChange.of_exec {st : DrillStmt} {n : Nat}
    (explains : (extension S deliverable).system.Explains s) (did : DidNew i (.exec st) (.ok n) s)
    (v : VaultId) : ColumnsChange s v := by
  have ran := Practice.did_exec explains did
  -- the three UPDATEs of the columns, each on one vault and under its own guard
  cases st with
  | start id hash t =>
    simp only [DrillStmt.run] at ran
    split at ran <;> simp only [Except.ok.injEq, Prod.mk.injEq] at ran <;> obtain ⟨left, rfl⟩ := ran
    · by_cases same : v = id
      · subst same
        exact .started i hash t did (columns_self left)
      · exact .kept (columns_other same left)
    · exact .kept (by rw [← left])
  | markOpened id t =>
    simp only [DrillStmt.run] at ran
    split at ran <;> simp only [Except.ok.injEq, Prod.mk.injEq] at ran <;> obtain ⟨left, rfl⟩ := ran
    · next hit =>
      by_cases same : v = id
      · subst same
        simp only [Bool.and_eq_true, Option.isNone_iff_eq_none] at hit
        exact .opened i t did hit.2 (columns_self left)
      · exact .kept (columns_other same left)
    · exact .kept (by rw [← left])
  | markCompleted id t =>
    simp only [DrillStmt.run] at ran
    split at ran <;> simp only [Except.ok.injEq, Prod.mk.injEq] at ran <;> obtain ⟨left, rfl⟩ := ran
    · next hit =>
      by_cases same : v = id
      · subst same
        simp only [Bool.and_eq_true, Option.isNone_iff_eq_none] at hit
        exact .completed i t did hit.2 (columns_self left)
      · exact .kept (columns_other same left)
    · exact .kept (by rw [← left])
  | insertEvent e =>
    simp only [DrillStmt.run] at ran
    split at ran <;> simp only [reduceCtorEq, Except.ok.injEq, Prod.mk.injEq] at ran
    exact .kept (by rw [← ran.1])
  | insertNotice n =>
    simp only [DrillStmt.run] at ran
    split at ran <;> simp only [reduceCtorEq, Except.ok.injEq, Prod.mk.injEq] at ran
    exact .kept (by rw [← ran.1])

theorem columnsChange (explains : (extension S deliverable).system.Explains s) (v : VaultId) :
    ColumnsChange s v := by
  rcases columns_cases explains with ⟨i, x, r, did⟩ | settled | same
  · cases x with
    | exec st =>
      cases r with
      | ok n => exact .of_exec explains did v
      | error e => exact .kept (by rw [did_exec_error explains did])
    | _ =>
      obtain ⟨o, answer⟩ := did_new explains did
      have same : s.before = s.after := congrArg Prod.snd answer
      exact .kept (by rw [same])
  · -- the server's own step: the columns of the vaults it deletes are gone
    rcases Drills.settle_columns s.after.1 s.before.2 v with ⟨absent, null⟩ | same
    · exact .gone absent (by rw [settled]; exact null)
    · exact .kept (by rw [settled]; exact same)
  · exact .kept (by rw [same])

end Steps

/-! ## §4 Whole runs -/

/-- At `k` thread `i` stores the hash of a new practice token of `v`. -/
def StartedAt (tr : List AnyStep) (k i : Nat) (v : VaultId) (hash : Hash) (t : Instant) : Prop :=
  ∃ s n, tr[k]? = some s ∧ DidNew i (.exec (.start v hash t)) (.ok n) s

/-- At `k` the practice run of `v` ends: a new one is started, or the vault is gone. -/
def RenewedAt (tr : List AnyStep) (k : Nat) (v : VaultId) : Prop :=
  (∃ i hash t, StartedAt tr k i v hash t) ∨ ∃ s, tr[k]? = some s ∧ s.after.1.vault? v = none

/-- At `k` thread `i` marks the practice run of `v` as opened. -/
def OpenedAt (tr : List AnyStep) (k i : Nat) (v : VaultId) (t : Instant) : Prop :=
  ∃ s, tr[k]? = some s ∧ DidNew i (.exec (.markOpened v t)) (.ok 1) s

/-- At `k` thread `i` marks it as completed. -/
def CompletedAt (tr : List AnyStep) (k i : Nat) (v : VaultId) (t : Instant) : Prop :=
  ∃ s, tr[k]? = some s ∧ DidNew i (.exec (.markCompleted v t)) (.ok 1) s

/-- At `j` thread `i` has looked a practice token of `v` up, with the columns `d`. -/
def PresentedAt (S : Server) (tr : List AnyStep) (j i : Nat) (token : Token) (v : VaultId)
    (d : DrillColumns) : Prop :=
  ∃ s r, tr[j]? = some s ∧ r.id = v ∧ d.tokenHash = some (S.hashClaimToken token) ∧
    DidNew i (.byToken (S.hashClaimToken token)) (.ok (some (r, d))) s

/-- The mark that an entry of the feed is about. -/
def MarkedAt (tr : List AnyStep) (k i : Nat) (v : VaultId) : DrillEventKind → Prop
  | .drillStarted => ∃ hash t, StartedAt tr k i v hash t
  | .drillOpened => ∃ t, OpenedAt tr k i v t
  | .drillCompleted => ∃ t, CompletedAt tr k i v t

/-- At `k` thread `i` makes the entry. -/
def EnteredAt (tr : List AnyStep) (k i : Nat) (e : DrillEvent) : Prop :=
  ∃ s n, tr[k]? = some s ∧ DidNew i (.exec (.insertEvent e)) (.ok n) s

/-- At `k` thread `i` queues the message. -/
def QueuedAt (tr : List AnyStep) (k i : Nat) (n : DrillNotice) : Prop :=
  ∃ s c, tr[k]? = some s ∧ DidNew i (.exec (.insertNotice n)) (.ok c) s

/-- The mark that a message is about. An invitation carries the token whose hash was stored. -/
def TellsOf (S : Server) (tr : List AnyStep) (k i : Nat) (n : DrillNotice) : Prop :=
  match n.kind with
  | .drillInvite => ∃ token t, StartedAt tr k i n.vaultId (S.hashClaimToken token) t ∧
      n.link = some (S.claimUrl token)
  | .drillCompleted => ∃ t, CompletedAt tr k i n.vaultId t

/-- What practice runs keep. -/
structure PracticeKept (S : Server) (tr : List AnyStep) : Prop where
  /-- A practice run is opened once and completed once. -/
  openedOnce : ∀ j k i i' v t t', OpenedAt tr j i v t → OpenedAt tr k i' v t' → j < k →
    ∃ m, j < m ∧ m < k ∧ RenewedAt tr m v
  completedOnce : ∀ j k i i' v t t', CompletedAt tr j i v t → CompletedAt tr k i' v t' → j < k →
    ∃ m, j < m ∧ m < k ∧ RenewedAt tr m v
  /-- Who opens or completes it has presented a token that was the vault's at the lookup, and
  is its own still unless a new practice run has been started since. -/
  presentedToOpen : ∀ k i v t, OpenedAt tr k i v t → ∃ j token d, j < k ∧
    Started i (.inl (.resolveClaim token)) tr ∧ PresentedAt S tr j i token v d ∧
      d.openedAt = none ∧ ((∃ m, j < m ∧ m < k ∧ RenewedAt tr m v) ∨ ∃ s, tr[k]? = some s ∧
        (s.before.2.columns v).tokenHash = some (S.hashClaimToken token))
  presentedToComplete : ∀ k i v t, CompletedAt tr k i v t → ∃ j token d, j < k ∧
    Started i (.inr (.completeDrill token)) tr ∧ PresentedAt S tr j i token v d ∧
      d.completedAt = none ∧ ((∃ m, j < m ∧ m < k ∧ RenewedAt tr m v) ∨ ∃ s, tr[k]? = some s ∧
        (s.before.2.columns v).tokenHash = some (S.hashClaimToken token))
  /-- Every entry of the feed goes with a mark of its own thread, and no mark has two. -/
  entered : ∀ k i e, EnteredAt tr k i e → (∃ m, m < k ∧ MarkedAt tr m i e.vaultId e.kind) ∧
    ∀ k' e', EnteredAt tr k' i e' → k' = k
  /-- So does every message. -/
  queued : ∀ k i n, QueuedAt tr k i n → (∃ m, m < k ∧ TellsOf S tr m i n) ∧
    ∀ k' n', QueuedAt tr k' i n' → k' = k
  /-- The owner is answered the link of the token stored, and whether the heir was written to. -/
  started : ∀ k i s r, tr[k]? = some s → s.label = .returned i (.ok (.inr (.started r))) →
    ∃ m token, m < k ∧ StartedAt tr m i r.vaultId (S.hashClaimToken token) r.startedAt ∧
      r.claimUrl = S.claimUrl token ∧ (r.heirNotified = true ↔ ∃ p n, p < k ∧ QueuedAt tr p i n)
  /-- The heir is answered the time of a completion that is on file, the thread's own one
  unless another thread was faster since its lookup. -/
  completed : ∀ k i s t, tr[k]? = some s → s.label = .returned i (.ok (.inr (.completed t))) →
    ∃ m token v d, m < k ∧ PresentedAt S tr m i token v d ∧
      (d.completedAt = some t ∨ ∃ p, m < p ∧ p < k ∧ (CompletedAt tr p i v t ∨
        ∃ c i' t', m < c ∧ c < p ∧ (CompletedAt tr c i' v t' ∨ RenewedAt tr c v)))

section Runs

variable {S : Server} {deliverable : Channel → Bool} {t₀ : Instant} {tr : List AnyStep}
variable {s : AnyStep} {i j k : Nat} {v : VaultId} {t : Instant}

/-- A practice action of a thread's history, by its position. -/
theorem mem_part {x : DrillAction} {r : x.Response} :
    (⟨x, r⟩ : DrillEv) ∈ newPart (history i k tr) ↔
      ∃ j s, j < k ∧ tr[j]? = some s ∧ DidNew i x r s := by
  rw [mem_newPart]
  exact mem_history

/-- Every statement of a run is a warranted one. -/
theorem PracticeRuns.warranted (runs : PracticeRuns S deliverable t₀ tr) (at_k : tr[k]? = some s)
    {st : DrillStmt} {r : Except DbError Nat} (did : DidNew i (.exec st) r s) :
    ∃ q, Started i q (tr.take k) ∧ Warranted S q (newPart (history i k tr)) st := by
  obtain ⟨c, run⟩ := runs
  obtain ⟨q, started, conduct⟩ := run.acted_at (fun q => proper_anyProgram q) at_k did
  exact ⟨q, started, conduct _ rfl _ rfl⟩

/-- Every reply of a run says what has been done. -/
theorem PracticeRuns.answered (runs : PracticeRuns S deliverable t₀ tr) (at_k : tr[k]? = some s)
    {reply : Reply ⊕ DrillReply} (ret : s.label = .returned i (.ok reply)) :
    ∃ q, Started i q (tr.take k) ∧ Answers S q (newPart (history i k tr)) reply := by
  obtain ⟨c, run⟩ := runs
  obtain ⟨q, started, answers⟩ := run.returned_at (fun q => proper_anyProgram q) at_k ret
  exact ⟨q, started, answers _ rfl⟩

/-- What the two marks leave alone holds until the practice run ends. -/
theorem PracticeRuns.stays (runs : PracticeRuns S deliverable t₀ tr) {P : DrillColumns → Prop}
    (opened : ∀ c t, P c → P { c with openedAt := some t })
    (completed : ∀ c t, P c → P { c with completedAt := some t }) {u : AnyStep}
    (at_j : tr[j]? = some u) (start : P (u.after.2.columns v)) (lt : j < k)
    (at_k : tr[k]? = some s) :
    P (s.before.2.columns v) ∨ ∃ m, j < m ∧ m < k ∧ RenewedAt tr m v := by
  by_cases renewed : ∃ m, j < m ∧ m < k ∧ RenewedAt tr m v
  · exact .inr renewed
  · obtain ⟨c, run⟩ := runs
    refine .inl (run.since (P := fun w => P (w.2.columns v)) at_j start ?_ lt at_k)
    intro n u' after before at_n here
    cases columnsChange (run.explains_at at_n) v with
    | kept same => rwa [same]
    | gone absent null => exact absurd ⟨n, after, before, .inr ⟨u', at_n, absent⟩⟩ renewed
    | started i hash t did new =>
      exact absurd ⟨n, after, before, .inl ⟨i, hash, t, u', 1, at_n, did⟩⟩ renewed
    | opened i t did unopened new => rw [new]; exact opened _ t here
    | completed i t did unfinished new => rw [new]; exact completed _ t here

theorem did_markOpened (runs : PracticeRuns S deliverable t₀ tr) (at_k : tr[k]? = some s)
    (did : DidNew i (.exec (.markOpened v t)) (.ok 1) s) :
    (s.before.2.columns v).openedAt = none ∧ (s.after.2.columns v).openedAt = some t := by
  obtain ⟨c, run⟩ := runs
  have ran := did_exec (run.explains_at at_k) did
  simp only [DrillStmt.run] at ran
  split at ran <;> simp only [Except.ok.injEq, Prod.mk.injEq, Nat.zero_ne_one, and_false] at ran
  next hit =>
    simp only [Bool.and_eq_true, Option.isNone_iff_eq_none] at hit
    exact ⟨hit.2, by rw [columns_self ran.1]⟩

theorem did_markCompleted (runs : PracticeRuns S deliverable t₀ tr) (at_k : tr[k]? = some s)
    (did : DidNew i (.exec (.markCompleted v t)) (.ok 1) s) :
    (s.before.2.columns v).completedAt = none ∧ (s.after.2.columns v).completedAt = some t := by
  obtain ⟨c, run⟩ := runs
  have ran := did_exec (run.explains_at at_k) did
  simp only [DrillStmt.run] at ran
  split at ran <;> simp only [Except.ok.injEq, Prod.mk.injEq, Nat.zero_ne_one, and_false] at ran
  next hit =>
    simp only [Bool.and_eq_true, Option.isNone_iff_eq_none] at hit
    exact ⟨hit.2, by rw [columns_self ran.1]⟩

theorem openedOnce (runs : PracticeRuns S deliverable t₀ tr) {i' : Nat} {t' : Instant}
    (first : OpenedAt tr j i v t) (second : OpenedAt tr k i' v t') (lt : j < k) :
    ∃ m, j < m ∧ m < k ∧ RenewedAt tr m v := by
  obtain ⟨u, at_j, did⟩ := first
  obtain ⟨s, at_k, did'⟩ := second
  have start : (u.after.2.columns v).openedAt ≠ none := by
    rw [(did_markOpened runs at_j did).2]
    exact nofun
  refine (runs.stays (P := fun c => c.openedAt ≠ none) (fun _ _ _ => nofun) (fun _ _ h => h) at_j
    start lt at_k).resolve_left fun still => still (did_markOpened runs at_k did').1

theorem completedOnce (runs : PracticeRuns S deliverable t₀ tr) {i' : Nat} {t' : Instant}
    (first : CompletedAt tr j i v t) (second : CompletedAt tr k i' v t') (lt : j < k) :
    ∃ m, j < m ∧ m < k ∧ RenewedAt tr m v := by
  obtain ⟨u, at_j, did⟩ := first
  obtain ⟨s, at_k, did'⟩ := second
  have start : (u.after.2.columns v).completedAt ≠ none := by
    rw [(did_markCompleted runs at_j did).2]
    exact nofun
  refine (runs.stays (P := fun c => c.completedAt ≠ none) (fun _ _ h => h) (fun _ _ _ => nofun)
    at_j start lt at_k).resolve_left fun still => still (did_markCompleted runs at_k did').1

/-- A token that was presented is the vault's until the practice run ends. -/
theorem PresentedAt.until_renewed (runs : PracticeRuns S deliverable t₀ tr) {token : Token}
    {d : DrillColumns} (presented : PresentedAt S tr j i token v d) (lt : j < k)
    (at_k : tr[k]? = some s) :
    (∃ m, j < m ∧ m < k ∧ RenewedAt tr m v) ∨
      (s.before.2.columns v).tokenHash = some (S.hashClaimToken token) := by
  obtain ⟨u, r, at_j, rfl, hash, did⟩ := presented
  have whole := runs
  obtain ⟨c, run⟩ := whole
  obtain ⟨-, columns, -, same⟩ := did_byToken (run.explains_at at_j) did
  have start : (u.after.2.columns r.id).tokenHash = some (S.hashClaimToken token) := by
    rw [same, columns, hash]
  exact (runs.stays (P := fun c => c.tokenHash = some (S.hashClaimToken token))
    (fun _ _ h => h) (fun _ _ h => h) at_j start lt at_k).symm

/-- A lookup in a thread's history, by its position. -/
theorem presented_at {token : Token} {r : VaultRow} {d : DrillColumns}
    (presented : Presented S (newPart (history i k tr)) token r d) :
    ∃ j, j < k ∧ PresentedAt S tr j i token r.id d := by
  obtain ⟨mem, hash⟩ := presented
  obtain ⟨j, u, lt, at_j, did⟩ := mem_part.1 mem
  exact ⟨j, lt, u, r, at_j, rfl, hash, did⟩

theorem presentedToOpen (runs : PracticeRuns S deliverable t₀ tr) (opened : OpenedAt tr k i v t) :
    ∃ j token d, j < k ∧ Started i (.inl (.resolveClaim token)) tr ∧
      PresentedAt S tr j i token v d ∧ d.openedAt = none ∧
        ((∃ m, j < m ∧ m < k ∧ RenewedAt tr m v) ∨ ∃ s, tr[k]? = some s ∧
          (s.before.2.columns v).tokenHash = some (S.hashClaimToken token)) := by
  obtain ⟨s, at_k, did⟩ := opened
  obtain ⟨q, started, warranted⟩ := runs.warranted at_k did
  cases warranted with
  | @markOpened _ token r d _ found unopened =>
    obtain ⟨j, lt, presented⟩ := presented_at found
    refine ⟨j, token, d, lt, started.of_take, presented, unopened, ?_⟩
    exact (presented.until_renewed runs lt at_k).imp_right fun still => ⟨s, at_k, still⟩

theorem presentedToComplete (runs : PracticeRuns S deliverable t₀ tr)
    (completed : CompletedAt tr k i v t) :
    ∃ j token d, j < k ∧ Started i (.inr (.completeDrill token)) tr ∧
      PresentedAt S tr j i token v d ∧ d.completedAt = none ∧
        ((∃ m, j < m ∧ m < k ∧ RenewedAt tr m v) ∨ ∃ s, tr[k]? = some s ∧
          (s.before.2.columns v).tokenHash = some (S.hashClaimToken token)) := by
  obtain ⟨s, at_k, did⟩ := completed
  obtain ⟨q, started, warranted⟩ := runs.warranted at_k did
  cases warranted with
  | @markCompleted _ token r d _ found unfinished =>
    obtain ⟨j, lt, presented⟩ := presented_at found
    refine ⟨j, token, d, lt, started.of_take, presented, unfinished, ?_⟩
    exact (presented.until_renewed runs lt at_k).imp_right fun still => ⟨s, at_k, still⟩

/-- A mark affects one row at most. -/
theorem openedAt_of_pos (runs : PracticeRuns S deliverable t₀ tr) (at_k : tr[k]? = some s) {n : Nat}
    (did : DidNew i (.exec (.markOpened v t)) (.ok n) s) (one : 0 < n) : OpenedAt tr k i v t := by
  have whole := runs
  obtain ⟨c, run⟩ := whole
  have ran := did_exec (run.explains_at at_k) did
  simp only [DrillStmt.run] at ran
  split at ran <;> simp only [Except.ok.injEq, Prod.mk.injEq] at ran
  · exact ⟨s, at_k, ran.2 ▸ did⟩
  · exact absurd one (by omega)

/-- A completion that finds its row unmarked marks it. -/
theorem markCompleted_cases (runs : PracticeRuns S deliverable t₀ tr) (at_k : tr[k]? = some s)
    {n : Nat} (did : DidNew i (.exec (.markCompleted v t)) (.ok n) s) :
    CompletedAt tr k i v t ∨
      n = 0 ∧ (s.before.1.vault? v = none ∨ (s.before.2.columns v).completedAt ≠ none) := by
  have whole := runs
  obtain ⟨c, run⟩ := whole
  have ran := did_exec (run.explains_at at_k) did
  simp only [DrillStmt.run] at ran
  split at ran <;> simp only [Except.ok.injEq, Prod.mk.injEq] at ran
  · exact .inl ⟨s, at_k, ran.2 ▸ did⟩
  · next missed =>
    refine .inr ⟨ran.2.symm, ?_⟩
    simp only [Bool.and_eq_true, Option.isNone_iff_eq_none, not_and] at missed
    cases here : s.before.1.vault? v with
    | none => exact .inl rfl
    | some r =>
      refine .inr (missed ?_)
      simp [Db.hasVault, show s.before.1.db.vault? v = some r from here]

/-- A thread makes one entry of the feed, after its mark. -/
theorem entered_first (runs : PracticeRuns S deliverable t₀ tr) {e : DrillEvent}
    (entered : EnteredAt tr k i e) :
    (∃ m, m < k ∧ MarkedAt tr m i e.vaultId e.kind) ∧
      ∀ x ∈ newPart (history i k tr), x.action.insertsEvent = false := by
  obtain ⟨s, n, at_k, did⟩ := entered
  obtain ⟨q, -, warranted⟩ := runs.warranted at_k did
  cases warranted with
  | started mark first =>
    obtain ⟨m, u, lt, at_m, did⟩ := mem_part.1 mark
    exact ⟨⟨m, lt, _, _, u, _, at_m, did⟩, first⟩
  | opened mark one first =>
    obtain ⟨m, u, lt, at_m, did⟩ := mem_part.1 mark
    exact ⟨⟨m, lt, _, openedAt_of_pos runs at_m did one⟩, first⟩
  | completed mark one first =>
    obtain ⟨m, u, lt, at_m, did⟩ := mem_part.1 mark
    refine ⟨⟨m, lt, _, (markCompleted_cases runs at_m did).resolve_right ?_⟩, first⟩
    exact fun none => absurd one (by omega)

/-- What a thread does at most once. -/
theorem once_of_first (tr : List AnyStep) (i : Nat) (At : Nat → Prop) (kind : DrillAction → Bool)
    (acts : ∀ n, At n → ∃ s x r, tr[n]? = some s ∧ DidNew i x r s ∧ kind x = true)
    (first : ∀ n, At n → ∀ x ∈ newPart (history i n tr), kind x.action = false)
    (at_j : At j) (at_k : At k) : j = k := by
  have not_before : ∀ {a b : Nat}, At a → At b → ¬ a < b := fun {a b} at_a at_b lt => by
    obtain ⟨s, x, r, here, did, yes⟩ := acts a at_a
    have no := first b at_b ⟨x, r⟩ (mem_part.2 ⟨a, s, lt, here, did⟩)
    rw [yes] at no
    cases no
  have := not_before at_j at_k
  have := not_before at_k at_j
  omega

theorem enteredOnce (runs : PracticeRuns S deliverable t₀ tr) {e e' : DrillEvent}
    (entered : EnteredAt tr k i e) (entered' : EnteredAt tr j i e') : j = k := by
  refine once_of_first tr i (fun n => ∃ e, EnteredAt tr n i e) DrillAction.insertsEvent
    ?_ ?_ ⟨e', entered'⟩ ⟨e, entered⟩
  · rintro n ⟨e, s, c, at_n, did⟩
    exact ⟨s, _, _, at_n, did, rfl⟩
  · rintro n ⟨e, entered⟩
    exact (entered_first runs entered).2

/-- A thread queues one message, after its mark. -/
theorem queued_first (runs : PracticeRuns S deliverable t₀ tr) {n : DrillNotice}
    (queued : QueuedAt tr k i n) :
    (∃ m, m < k ∧ TellsOf S tr m i n) ∧
      ∀ x ∈ newPart (history i k tr), x.action.insertsNotice = false := by
  obtain ⟨s, c, at_k, did⟩ := queued
  obtain ⟨q, -, warranted⟩ := runs.warranted at_k did
  cases warranted with
  | invite mark first =>
    obtain ⟨m, u, lt, at_m, did⟩ := mem_part.1 mark
    exact ⟨⟨m, lt, _, _, ⟨u, _, at_m, did⟩, rfl⟩, first⟩
  | told mark one first =>
    obtain ⟨m, u, lt, at_m, did⟩ := mem_part.1 mark
    refine ⟨⟨m, lt, _, (markCompleted_cases runs at_m did).resolve_right ?_⟩, first⟩
    exact fun none => absurd one (by omega)

theorem queuedOnce (runs : PracticeRuns S deliverable t₀ tr) {n n' : DrillNotice}
    (queued : QueuedAt tr k i n) (queued' : QueuedAt tr j i n') : j = k := by
  refine once_of_first tr i (fun p => ∃ n, QueuedAt tr p i n) DrillAction.insertsNotice
    ?_ ?_ ⟨n', queued'⟩ ⟨n, queued⟩
  · rintro p ⟨n, s, c, at_p, did⟩
    exact ⟨s, _, _, at_p, did, rfl⟩
  · rintro p ⟨n, queued⟩
    exact (queued_first runs queued).2

theorem started (runs : PracticeRuns S deliverable t₀ tr) {r : DrillStartResponse}
    (at_k : tr[k]? = some s) (ret : s.label = .returned i (.ok (.inr (.started r)))) :
    ∃ m token, m < k ∧ StartedAt tr m i r.vaultId (S.hashClaimToken token) r.startedAt ∧
      r.claimUrl = S.claimUrl token ∧ (r.heirNotified = true ↔ ∃ p n, p < k ∧ QueuedAt tr p i n) := by
  obtain ⟨q, -, id, -, same, token, n, url, mark, invited⟩ := runs.answered at_k ret
  obtain ⟨m, u, lt, at_m, did⟩ := mem_part.1 mark
  refine ⟨m, token, lt, ⟨u, n, at_m, same ▸ did⟩, url, (invited _ rfl).trans ⟨?_, ?_⟩⟩
  · rintro ⟨notice, c, mem⟩
    obtain ⟨p, u', lt', at_p, did'⟩ := mem_part.1 mem
    exact ⟨p, notice, lt', u', c, at_p, did'⟩
  · rintro ⟨p, notice, lt', u', c, at_p, did'⟩
    exact ⟨notice, c, mem_part.2 ⟨p, u', lt', at_p, did'⟩⟩

/-- A completion that comes too late has been overtaken since its lookup. -/
theorem overtaken (runs : PracticeRuns S deliverable t₀ tr) {token : Token} {d : DrillColumns}
    (presented : PresentedAt S tr j i token v d) (unfinished : d.completedAt = none) (lt : j < k)
    (at_k : tr[k]? = some s)
    (late : s.before.1.vault? v = none ∨ (s.before.2.columns v).completedAt ≠ none) :
    ∃ c i' t', j < c ∧ c < k ∧ (CompletedAt tr c i' v t' ∨ RenewedAt tr c v) := by
  by_contra alone
  obtain ⟨u, r, at_j, rfl, -, did⟩ := presented
  obtain ⟨c, run⟩ := runs
  obtain ⟨row, columns, -, same⟩ := did_byToken (run.explains_at at_j) did
  -- nothing in between has touched the row's mark
  have still : s.before.1.vault? r.id ≠ none ∧ (s.before.2.columns r.id).completedAt = none := by
    refine run.since (P := fun w => w.1.vault? r.id ≠ none ∧
      (w.2.columns r.id).completedAt = none) at_j ?_ ?_ lt at_k
    · rw [same, row, columns]
      exact ⟨nofun, unfinished⟩
    · intro n u' after before at_n here
      have there : u'.after.1.vault? r.id ≠ none := fun absent =>
        alone ⟨n, 0, 0, after, before, .inr (.inr ⟨u', at_n, absent⟩)⟩
      refine ⟨there, ?_⟩
      cases columnsChange (run.explains_at at_n) r.id with
      | kept same => rw [same]; exact here.2
      | gone absent null => exact absurd absent there
      | started i hash t did new => rw [new]
      | opened i t did unopened new => rw [new]; exact here.2
      | completed i t did unfinished new =>
        exact absurd ⟨n, i, t, after, before, .inl ⟨u', at_n, did⟩⟩ alone
  rcases late with absent | finished
  · exact still.1 absent
  · exact finished still.2

theorem completed (runs : PracticeRuns S deliverable t₀ tr) (at_k : tr[k]? = some s)
    (ret : s.label = .returned i (.ok (.inr (.completed t)))) :
    ∃ m token v d, m < k ∧ PresentedAt S tr m i token v d ∧
      (d.completedAt = some t ∨ ∃ p, m < p ∧ p < k ∧ (CompletedAt tr p i v t ∨
        ∃ c i' t', m < c ∧ c < p ∧ (CompletedAt tr c i' v t' ∨ RenewedAt tr c v))) := by
  obtain ⟨q, -, token, -, r, d, found, stored | ⟨n, mark⟩⟩ := runs.answered at_k ret
  · obtain ⟨m, lt, presented⟩ := presented_at found
    exact ⟨m, token, r.id, d, lt, presented, .inl stored⟩
  · -- the lookup of the thread's own UPDATE is the one that counts
    obtain ⟨p, u, before, at_p, did⟩ := mem_part.1 mark
    obtain ⟨q', -, warranted⟩ := runs.warranted at_p did
    generalize same : r.id = v at warranted did
    cases warranted with
    | @markCompleted _ token' r' d' _ found' unfinished =>
      obtain ⟨m, lt, presented⟩ := presented_at found'
      refine ⟨m, token', r'.id, d', Nat.lt_trans lt before, presented, .inr ⟨p, lt, before, ?_⟩⟩
      rcases markCompleted_cases runs at_p did with done | ⟨-, late⟩
      · exact .inl done
      · exact .inr (overtaken runs presented unfinished lt at_p late)

theorem practiceKept (runs : PracticeRuns S deliverable t₀ tr) : PracticeKept S tr where
  openedOnce _ _ _ _ _ _ _ first second lt := openedOnce runs first second lt
  completedOnce _ _ _ _ _ _ _ first second lt := completedOnce runs first second lt
  presentedToOpen _ _ _ _ opened := presentedToOpen runs opened
  presentedToComplete _ _ _ _ done := presentedToComplete runs done
  entered _ _ _ entered := ⟨(entered_first runs entered).1, fun _ _ => enteredOnce runs entered⟩
  queued _ _ _ queued := ⟨(queued_first runs queued).1, fun _ _ => queuedOnce runs queued⟩
  started _ _ _ _ at_k ret := started runs at_k ret
  completed _ _ _ _ at_k ret := completed runs at_k ret

end Runs

/-! ## §5 Two completions -/

/-- Whether the step answers thread `i` with a completion at `t`. -/
def answersCompleted (i : Nat) (t : Instant) (s : AnyStep) : Bool :=
  match s.label with
  | .returned j (.ok (.inr (.completed t'))) => j = i && t' = t
  | _ => false

/-- Two threads are answered two times of one completion. -/
theorem practiceKept_practised : ∃ tr, PracticeRuns (Deployment.host 0) (fun _ => true) 0 tr ∧
    (tr.any (answersCompleted 4 0) && tr.any (answersCompleted 3 1000000000)) = true ∧
      PracticeKept (Deployment.host 0) tr := by
  obtain ⟨tr, runs, check⟩ := practiceRuns_of_play (fun tr =>
    tr.any (answersCompleted 4 0) && tr.any (answersCompleted 3 1000000000)) (by decide +kernel)
  exact ⟨tr, runs, check, practiceKept runs⟩

end Practice

end GhostKey

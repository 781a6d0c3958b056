import GhostKey.HeirContacts
import GhostKey.Foundation.Trace

/-!
# Delivery Callbacks

What a provider says became of a message arrives on a webhook: at least once, in any
order, and at any time. The handler enters the callback's id, moves the verdict on the
message's row forward, and tells the owner what it means. The heir's reachability is kept
on the vault, by the same handler and by the edits of the heir's contact.

Layers:
1. the tables, their statements and the two handlers, as the server has them;
2. the callbacks and the edits as a system, in any interleaving;
3. what one handler does, given its history: `meets_program`;
4. what one step does to the messages and to the entered callbacks, and from it what a run
   does: `mail_since`, `verdict_after`, `entered_once`.
-/

namespace GhostKey

namespace Delivery

open Foundation Program

/-! ## §1 The tables -/

/-- `notifications`, as far as callbacks read and write it. The recipient is sealed. -/
structure Mail where
  id : Nat
  vaultId : VaultId
  kind : String
  channel : String
  recipient : String
  providerMessageId : Option String
  deliveryStatus : Option String
  deliveryDetail : Option String
  deliveryUpdatedAt : Option Instant
  deriving DecidableEq

/-- The row with a verdict on it. -/
def Mail.judged (status : String) (detail : Option String) (now : Instant) (m : Mail) : Mail :=
  { m with deliveryStatus := some status, deliveryDetail := detail, deliveryUpdatedAt := some now }

/-- The row of a message a provider has taken. -/
def Mail.taken (p : String) (m : Mail) : Mail := { m with providerMessageId := some p }

/-- `vaults`, as far as the heir's contact and its reachability go. The contacts are sealed;
no channel on file means email. -/
structure HeirFile where
  id : VaultId
  heirDerived : Bool
  name : Option String
  contact : Option String
  channel : Option String
  ownerEmail : Option String
  verifiedAt : Option Instant
  alertedAt : Option Instant
  deriving DecidableEq

/-- `notification_delivery_events`. -/
structure Receipt where
  provider : String
  eventId : String
  notificationId : Option Nat
  status : String
  receivedAt : Instant
  deriving DecidableEq

def Receipt.key (r : Receipt) : String × String := (r.provider, r.eventId)

/-- `events`. -/
structure FeedEntry where
  vaultId : VaultId
  kind : String
  detail : List (String × Option String)
  createdAt : Instant
  deriving DecidableEq

structure Post where
  clock : Instant
  mails : KeyedTable Mail Nat Mail.id
  vaults : KeyedTable HeirFile VaultId HeirFile.id
  receipts : KeyedTable Receipt (String × String) Receipt.key
  feed : List FeedEntry

namespace Post

def start (clock : Instant) : Post := ⟨clock, .empty, .empty, .empty, []⟩

def mail? (w : Post) (id : Nat) : Option Mail := w.mails.find? id

def heir? (w : Post) (id : VaultId) : Option HeirFile := w.vaults.find? id

/-- `WHERE provider_message_id = ?`. -/
def byProviderId (w : Post) (p : String) : Option Mail :=
  w.mails.rows.find? fun m => m.providerMessageId = some p

/-- `INTEGER PRIMARY KEY AUTOINCREMENT`. -/
def nextId (w : Post) : Nat := (w.mails.rows.map Mail.id).foldr max 0 + 1

end Post

/-- The statements. `enqueue` is the INSERT of a pending notification. -/
inductive PostStmt where
  | claimEvent (r : Receipt)
  | updateVerdict (id : Nat) (status : String) (detail : Option String) (now : Instant)
  | insertEvent (e : FeedEntry)
  | stampVerified (id : VaultId) (now : Instant)
  | clearAlert (id : VaultId)
  | stampAlerted (id : VaultId) (now : Instant)
  | updateContact (id : VaultId) (name : Option String) (contact channel : String)
      (contactChanged : Bool)
  | enqueue (vaultId : VaultId) (kind channel recipient : String)
  deriving DecidableEq

/-- The statements on one row of `vaults`: its WHERE clause beside the id. -/
def PostStmt.picks : PostStmt → HeirFile → Bool
  | stampVerified _ _, r => r.verifiedAt.isNone
  | clearAlert _, r => r.alertedAt.isSome
  | stampAlerted _ _, r => r.alertedAt.isNone
  | _, _ => true

/-- The SET clause of the same statements. -/
def PostStmt.file : PostStmt → HeirFile → HeirFile
  | stampVerified _ now, r => { r with verifiedAt := some now }
  | clearAlert _, r => { r with alertedAt := none }
  | stampAlerted _ now, r => { r with alertedAt := some now }
  | updateContact _ name contact channel contactChanged, r =>
      { r with name := name, contact := some contact, channel := some channel
               verifiedAt := if contactChanged then none else r.verifiedAt
               alertedAt := if contactChanged then none else r.alertedAt }
  | _, r => r

theorem PostStmt.file_id (st : PostStmt) (r : HeirFile) : (st.file r).id = r.id := by
  cases st <;> rfl

namespace Post

/-- An UPDATE of one row of `vaults`. -/
def onVault (w : Post) (id : VaultId) (st : PostStmt) : Post × Nat :=
  let where_ := fun r : HeirFile => decide (r.id = id) && st.picks r
  ({ w with vaults := w.vaults.update where_ st.file st.file_id }, w.vaults.affected where_)

def queue (w : Post) (vaultId : VaultId) (kind channel recipient : String) : Post :=
  match w.mails.insert? ⟨w.nextId, vaultId, kind, channel, recipient, none, none, none, none⟩ with
  | some mails => { w with mails := mails }
  | none => w

/-- A statement, and how many rows it affects. -/
def run (w : Post) : PostStmt → Post × Nat
  | .claimEvent r =>
      match w.receipts.insert? r with
      | some receipts => ({ w with receipts := receipts }, 1)
      | none => (w, 0)
  | .updateVerdict id status detail now =>
      let where_ := fun m : Mail => decide (m.id = id) && true
      ({ w with mails := w.mails.update where_ (Mail.judged status detail now) fun _ => rfl },
        w.mails.affected where_)
  | .insertEvent e => ({ w with feed := w.feed ++ [e] }, 1)
  | .stampVerified id now => w.onVault id (.stampVerified id now)
  | .clearAlert id => w.onVault id (.clearAlert id)
  | .stampAlerted id now => w.onVault id (.stampAlerted id now)
  | .updateContact id name contact channel contactChanged =>
      w.onVault id (.updateContact id name contact channel contactChanged)
  | .enqueue vaultId kind channel recipient => (w.queue vaultId kind channel recipient, 1)

end Post

/-! ## §2 The handlers -/

inductive PostQuery where
  | byProviderId (p : String)
  | heir (id : VaultId)
  deriving DecidableEq

def PostQuery.Result : PostQuery → Type
  | byProviderId _ => Option Mail
  | heir _ => Option HeirFile

def PostQuery.eval (w : Post) : (q : PostQuery) → q.Result
  | byProviderId p => w.byProviderId p
  | heir id => w.heir? id

inductive PostAction where
  | now
  | query (q : PostQuery)
  | exec (st : PostStmt)

def PostAction.Response : PostAction → Type
  | now => Instant
  | query q => Except DbError q.Result
  | exec _ => Except DbError Nat

/-- Whether the database takes the next action. -/
structure Luck where
  dbFails : Bool

def PostAction.perform : (a : PostAction) → Luck → Post → a.Response × Post
  | now, _, w => (w.clock, w)
  | query q, o, w => (if o.dbFails then .error .unavailable else .ok (q.eval w), w)
  | exec st, o, w =>
      if o.dbFails then (.error .unavailable, w) else (.ok (w.run st).2, (w.run st).1)

abbrev PostProg (α : Type) := Program PostAction PostAction.Response ApiError α

abbrev PostHist := History PostAction PostAction.Response

def now : PostProg Instant := .act .now .done

def query (q : PostQuery) : PostProg q.Result :=
  .act (.query q) fun
    | .ok r => .done r
    | .error e => .fail (.db e)

def exec (st : PostStmt) : PostProg Nat :=
  .act (.exec st) fun
    | .ok n => .done n
    | .error e => .fail (.db e)

/-- `routes::record_event`. -/
def recordEvent (id : VaultId) (kind : String) (detail : List (String × Option String)) :
    PostProg Unit := do
  let t ← now
  let _ ← exec (.insertEvent ⟨id, kind, detail, t⟩)
  return ()

def isNegativeVerdict (status : String) : Bool :=
  status ∈ ["undelivered", "failed", "bounced", "complained", "suppressed"]

def deliveryRank (status : String) : Nat :=
  if status ∈ ["queued", "accepted", "scheduled"] then 1
  else if status ∈ ["sending", "sent", "delayed", "delivery_delayed"] then 2
  else if status = "delivered" then 3
  else if status = "read" then 4
  else if isNegativeVerdict status then 5
  else 1

/-- The rank of what is recorded so far. -/
def previousRank (previous : Option String) : Nat := (previous.map deliveryRank).getD 0

def isHeirDirected (kind : String) : Bool := kind ∈ ["claim_link", "claim_ready", "drill_invite"]

def provesDelivery (status : String) : Bool := status ∈ ["delivered", "read"]

/-- `DeliveryEvent`. -/
structure DeliveryEvent where
  provider : String
  eventId : String
  providerMessageId : String
  status : String
  detail : Option String
  deriving DecidableEq

def DeliveryEvent.key (ev : DeliveryEvent) : String × String := (ev.provider, ev.eventId)

/-- `Recorded`. -/
inductive Recorded where
  | applied
  | duplicate
  | stale
  | unknownMessage
  deriving DecidableEq

def recordHeirReachable (id : VaultId) (kind status : String) (t : Instant) : PostProg Unit :=
  if !isHeirDirected kind || !provesDelivery status then return ()
  else do
    let updated ← exec (.stampVerified id t)
    let _ ← exec (.clearAlert id)
    if updated > 0 then recordEvent id "heir_contact_verified" [("via", some kind)]
    else return ()

/-- `enqueue_owner_email_with`, to any address the server holds. -/
def enqueueOwnerEmail (id : VaultId) : PostProg Bool := do
  let row ← query (.heir id)
  match row.bind HeirFile.ownerEmail with
  | none => return false
  | some address =>
      let _ ← exec (.enqueue id "heir_unreachable" "email" address)
      return true

def alertOwnerHeirUnreachable (id : VaultId) (kind : String) (t : Instant) : PostProg Unit :=
  if !isHeirDirected kind then return ()
  else do
    let claimed ← exec (.stampAlerted id t)
    if claimed = 0 then return ()
    else
      -- a failure to queue the mail is only logged
      let _ ← ((enqueueOwnerEmail id).attempt : PostProg (Except ApiError Bool))
      return ()

/-- `record_delivery` once the callback's id is entered. -/
def applyVerdict (ev : DeliveryEvent) (t : Instant) : Option Mail → PostProg Recorded
  | none => return .unknownMessage
  | some m =>
      if deliveryRank ev.status ≤ previousRank m.deliveryStatus then return .stale
      else do
        let _ ← exec (.updateVerdict m.id ev.status ev.detail t)
        if isNegativeVerdict ev.status then do
          recordEvent m.vaultId "notification_undelivered"
            [("notification_kind", some m.kind), ("status", some ev.status),
              ("error_code", ev.detail)]
          alertOwnerHeirUnreachable m.vaultId m.kind t
          return .applied
        else do
          recordHeirReachable m.vaultId m.kind ev.status t
          return .applied

def recordDelivery (ev : DeliveryEvent) : PostProg Recorded := do
  let t ← now
  let row ← query (.byProviderId ev.providerMessageId)
  let claimed ← exec (.claimEvent ⟨ev.provider, ev.eventId, row.map Mail.id, ev.status, t⟩)
  if claimed = 0 then return .duplicate
  else applyVerdict ev t row

/-- `update_vault_heir`, over the opened contact. -/
def updateVaultHeir (S : Server) (id : VaultId) (req : UpdateHeirRequest) : PostProg Unit :=
  match (validateContactChannel S "channel" (some req.channel)) with
  | .error e => .fail (.validation e)
  | .ok () =>
      let contact := trim req.contact
      if contact = "" then .fail (.validation "contact must not be empty")
      else
        match validateContactShape req.channel contact with
        | .error e => .fail (.validation e)
        | .ok () => do
            let row ← query (.heir id)
            match row with
            | none => .fail .notFound
            | some r =>
                if r.heirDerived ∧ (r.contact ≠ some contact ∨ req.channel ≠ "email") then
                  .fail (.validation ("This heir's recovery key is tied to their email, so we " ++
                    "can only reach them by email at that address. It can't be changed here."))
                else do
                  let _ ← exec (.updateContact id r.name contact req.channel
                    (decide (r.contact ≠ some contact)))
                  -- the reply shows the row as it is now
                  let _ ← query (.heir id)
                  return ()

/-! ## §3 Callbacks and edits in any interleaving -/

inductive PostRequest where
  | callback (ev : DeliveryEvent)
  | updateVaultHeir (id : VaultId) (req : UpdateHeirRequest)

/-- What happens beside the handlers: time passes, vaults are created, messages are queued,
and the notifier stores the id under which a provider took one. Providers use an id once. -/
inductive PostDrift where
  | pass (d : Nat)
  | createVault (id : VaultId) (heirDerived : Bool) (name contact channel ownerEmail : Option String)
  | enqueue (vaultId : VaultId) (kind channel recipient : String)
  | accepted (id : Nat) (p : String)

def PostDrift.apply : PostDrift → Post → Post
  | pass d, w => { w with clock := w.clock + d }
  | createVault id heirDerived name contact channel ownerEmail, w =>
      match w.vaults.insert? ⟨id, heirDerived, name, contact, channel, ownerEmail, none, none⟩ with
      | some vaults => { w with vaults := vaults }
      | none => w
  | enqueue vaultId kind channel recipient, w => w.queue vaultId kind channel recipient
  | accepted id p, w =>
      if (w.byProviderId p).isSome then w
      else
        { w with
          mails := w.mails.update
            (fun m => decide (m.id = id) && m.providerMessageId.isNone) (Mail.taken p) fun _ => rfl }

def PostRequest.program (S : Server) : PostRequest → PostProg (Option Recorded)
  | callback ev => (recordDelivery ev).bind fun r => .done (some r)
  | updateVaultHeir id req => (Delivery.updateVaultHeir S id req).bind fun _ => .done none

/-- Any number of callbacks and edits. -/
def postroom (S : Server) :
    System PostAction PostAction.Response ApiError (Option Recorded) Post Luck PostDrift
      PostRequest where
  program := PostRequest.program S
  mayStart _ _ := true
  perform := PostAction.perform
  drift := PostDrift.apply
  restart := id

abbrev PostStep :=
  Step PostAction PostAction.Response ApiError (Option Recorded) Post PostDrift PostRequest

abbrev PostTrace := List PostStep

/-! ## §4 What one handler does -/

abbrev PostEv := Event PostAction PostAction.Response

section Handler

/-- The handler has found `m` under the callback's message id. -/
def Found (h : PostHist) (ev : DeliveryEvent) (m : Option Mail) : Prop :=
  (⟨.query (.byProviderId ev.providerMessageId), .ok m⟩ : PostEv) ∈ h

/-- The handler has entered the callback's id, which was new. -/
def Entered (h : PostHist) (ev : DeliveryEvent) : Prop :=
  ∃ nid t n, (⟨.exec (.claimEvent ⟨ev.provider, ev.eventId, nid, ev.status, t⟩), .ok n⟩ : PostEv) ∈ h
    ∧ n ≠ 0

/-- The handler has written the callback's verdict to the message's row. -/
def Moved (h : PostHist) (ev : DeliveryEvent) (m : Mail) : Prop :=
  ∃ t n, (⟨.exec (.updateVerdict m.id ev.status ev.detail t), .ok n⟩ : PostEv) ∈ h

/-- The handler has found the message and moved its verdict. -/
def Applied (h : PostHist) (ev : DeliveryEvent) (m : Mail) : Prop :=
  Found h ev (some m) ∧ Moved h ev m

def FeedEntry.isUndelivered (e : FeedEntry) : Prop := e.kind = "notification_undelivered"

/-- What a callback's handler has seen before its next action. -/
def Sound (ev : DeliveryEvent) (h : PostHist) : PostAction → Prop
  | .query (.byProviderId p) => p = ev.providerMessageId ∧
      ∀ r n, (⟨.exec (.claimEvent r), n⟩ : PostEv) ∉ h
  | .exec (.claimEvent r) => r.key = ev.key ∧ r.status = ev.status ∧ ∃ m, Found h ev m
  | .exec (.updateVerdict id status detail _) =>
      status = ev.status ∧ detail = ev.detail ∧ (∃ m, Found h ev (some m) ∧ m.id = id) ∧
        Entered h ev ∧
        ∀ id' status' detail' t' r,
          (⟨.exec (.updateVerdict id' status' detail' t'), r⟩ : PostEv) ∉ h
  | .exec (.insertEvent e) => e.isUndelivered → isNegativeVerdict ev.status = true ∧
      (∃ m, Applied h ev m) ∧
        ∀ e' r, e'.isUndelivered → (⟨.exec (.insertEvent e'), r⟩ : PostEv) ∉ h
  | .exec (.stampVerified id _) => provesDelivery ev.status = true ∧
      ∃ m, Applied h ev m ∧ m.vaultId = id ∧ isHeirDirected m.kind = true
  | .exec (.clearAlert id) => provesDelivery ev.status = true ∧
      ∃ m, Applied h ev m ∧ m.vaultId = id ∧ isHeirDirected m.kind = true
  | .exec (.stampAlerted id _) => isNegativeVerdict ev.status = true ∧
      ∃ m, Applied h ev m ∧ m.vaultId = id ∧ isHeirDirected m.kind = true
  | .exec (.updateContact _ _ _ _ _) => False
  | _ => True

/-- No verdict has been written. -/
def Unmoved (h : PostHist) : Prop :=
  ∀ id status detail t r, (⟨.exec (.updateVerdict id status detail t), r⟩ : PostEv) ∉ h

/-- The verdict is moved, and what it means is told. -/
def Finished (ev : DeliveryEvent) (h : PostHist) : Prop :=
  ∃ m, Applied h ev m ∧
    (isNegativeVerdict ev.status = true →
      ∃ e r, e.isUndelivered ∧ (⟨.exec (.insertEvent e), r⟩ : PostEv) ∈ h) ∧
    (provesDelivery ev.status = true → isHeirDirected m.kind = true →
      (∃ t e, (⟨.exec (.stampVerified m.vaultId t), .error e⟩ : PostEv) ∈ h) ∨
        ∃ r, (⟨.exec (.clearAlert m.vaultId), r⟩ : PostEv) ∈ h)

/-- What can become of a callback whose id is entered. -/
inductive Closed (ev : DeliveryEvent) (h : PostHist) : Prop
  | unknown (found : Found h ev none) (unmoved : Unmoved h)
  | stale (m : Mail) (found : Found h ev (some m))
      (stronger : deliveryRank ev.status ≤ previousRank m.deliveryStatus) (unmoved : Unmoved h)
  | failed (id : Nat) (t : Instant) (e : DbError)
      (lost : (⟨.exec (.updateVerdict id ev.status ev.detail t), .error e⟩ : PostEv) ∈ h)
  | finished (finished : Finished ev h)

/-- How a handler ends. A reply that is no error has tried to enter the callback's id. -/
def Replied (ev : DeliveryEvent) (h : PostHist) (r : Except ApiError (Option Recorded)) : Prop :=
  (Entered h ev → Closed ev h) ∧
    (∀ x, r = .ok x → ∃ nid t n,
      (⟨.exec (.claimEvent ⟨ev.provider, ev.eventId, nid, ev.status, t⟩), .ok n⟩ : PostEv) ∈ h)

/-- Nothing the claims look at. -/
def Aside : PostAction → Prop
  | .now => True
  | .query (.heir _) => True
  | .exec (.enqueue _ _ _ _) => True
  | _ => False

variable {ev : DeliveryEvent} {h g : PostHist} {m : Mail}

theorem sound_of_aside {a : PostAction} (aside : Aside a) : Sound ev h a := by
  cases a with
  | now => trivial
  | query q => cases q <;> trivial
  | exec st => cases st <;> trivial

theorem Applied.mono (applied : Applied h ev m) (sub : h ⊆ g) : Applied g ev m := by
  obtain ⟨found, t, n, moved⟩ := applied
  exact ⟨sub found, t, n, sub moved⟩

theorem Finished.mono (finished : Finished ev h) (sub : h ⊆ g) : Finished ev g := by
  obtain ⟨m, applied, told, cleared⟩ := finished
  refine ⟨m, applied.mono sub, fun negative => ?_, fun proves directed => ?_⟩
  · obtain ⟨e, r, kind, mem⟩ := told negative
    exact ⟨e, r, kind, sub mem⟩
  · rcases cleared proves directed with ⟨t, e, mem⟩ | ⟨r, mem⟩
    · exact .inl ⟨t, e, sub mem⟩
    · exact .inr ⟨r, sub mem⟩

/-- What keeps to actions aside leaves finished what is. -/
theorem meets_aside {α : Type} {p : PostProg α} (only : p.Only Aside) (finished : Finished ev h) :
    Meets (fun h e => Sound ev h e.action) (fun g _ => h <+: g ∧ Finished ev g) p h := by
  refine (only.adds h).mono (fun g e aside => sound_of_aside aside) ?_
  rintro g r ⟨more, rfl, -⟩
  exact ⟨List.prefix_append h more, finished.mono (List.subset_append_left h more)⟩

theorem aside_enqueueOwnerEmail (id : VaultId) : (enqueueOwnerEmail id).Only Aside := by
  refine .bind ⟨trivial, fun r => by cases r <;> trivial⟩ fun row => ?_
  cases row.bind HeirFile.ownerEmail with
  | none => trivial
  | some address => exact ⟨trivial, fun r => by cases r <;> trivial⟩


/-- No status is both. -/
theorem not_provesDelivery (negative : isNegativeVerdict ev.status = true) :
    provesDelivery ev.status ≠ true := by
  intro proves
  simp only [provesDelivery, isNegativeVerdict, decide_eq_true_eq, List.mem_cons, List.not_mem_nil,
    or_false] at proves negative
  rcases proves with same | same <;> simp [same] at negative

/-- A negative verdict is told in the feed, and to the owner. -/
theorem meets_negative {t : Instant} (applied : Applied h ev m)
    (negative : isNegativeVerdict ev.status = true)
    (untold : ∀ e r, e.isUndelivered → (⟨.exec (.insertEvent e), r⟩ : PostEv) ∉ h) :
    Meets (fun h e => Sound ev h e.action) (fun g _ => h <+: g ∧ Finished ev g)
      ((recordEvent m.vaultId "notification_undelivered"
          [("notification_kind", some m.kind), ("status", some ev.status),
            ("error_code", ev.detail)]).bind fun _ =>
        (alertOwnerHeirUnreachable m.vaultId m.kind t).bind fun _ => .done Recorded.applied) h := by
  intro t'
  let entry : FeedEntry := ⟨m.vaultId, "notification_undelivered",
    [("notification_kind", some m.kind), ("status", some ev.status), ("error_code", ev.detail)], t'⟩
  have later := applied.mono (List.subset_append_left h [⟨.now, t'⟩])
  refine ⟨trivial, fun answer => ⟨fun _ => ⟨negative, ⟨m, later⟩, ?_⟩, ?_⟩⟩
  -- the entry is the first of this event
  · intro e r kind mem
    rcases List.mem_append.1 mem with old | new
    · exact untold e r kind old
    · cases List.mem_singleton.1 new
  -- it finishes the event, and what follows only adds to it
  · have grown : h <+: h ++ [⟨.now, t'⟩] ++ [⟨.exec (.insertEvent entry), answer⟩] :=
      (List.prefix_append _ _).trans (List.prefix_append _ _)
    have finished : Finished ev (h ++ [⟨.now, t'⟩] ++ [⟨.exec (.insertEvent entry), answer⟩]) :=
      ⟨m, applied.mono grown.subset, fun _ => ⟨entry, answer, rfl, by simp⟩,
        fun proves => absurd proves (not_provesDelivery negative)⟩
    revert grown finished
    generalize h ++ [⟨.now, t'⟩] ++ [⟨.exec (.insertEvent entry), answer⟩] = g
    intro grown finished
    cases answer with
    | error e => exact ⟨grown, finished⟩
    | ok n =>
      show Meets _ _ ((alertOwnerHeirUnreachable m.vaultId m.kind t).bind fun _ => _) g
      unfold alertOwnerHeirUnreachable
      split
      · exact ⟨grown, finished⟩
      -- a message to the heir: the owner is alerted, once a stamp is taken
      · next directed =>
        intro answer
        refine ⟨⟨negative, m, applied.mono grown.subset, rfl, by simpa using directed⟩, ?_⟩
        have longer := grown.trans
          (List.prefix_append g [⟨.exec (.stampAlerted m.vaultId t), answer⟩])
        have finished := finished.mono
          (List.subset_append_left g [⟨.exec (.stampAlerted m.vaultId t), answer⟩])
        cases answer with
        | error e => exact ⟨longer, finished⟩
        | ok n =>
          show Meets _ _ ((if n = 0 then Program.done () else
            ((enqueueOwnerEmail m.vaultId).attempt : PostProg (Except ApiError Bool)).bind
              fun _ => .done ()).bind fun _ => .done Recorded.applied) _
          split
          · exact ⟨longer, finished⟩
          · refine (meets_aside ?_ finished).mono (fun _ _ sound => sound) ?_
            · exact .bind (.bind (aside_enqueueOwnerEmail m.vaultId).attempt fun _ => trivial)
                fun _ => trivial
            · exact fun g' _ ended => ⟨longer.trans ended.1, ended.2⟩

/-- A verdict that is not negative counts for the heir, if the message was the heir's. -/
theorem meets_positive {t : Instant} (applied : Applied h ev m)
    (positive : isNegativeVerdict ev.status = false) :
    Meets (fun h e => Sound ev h e.action) (fun g _ => h <+: g ∧ Finished ev g)
      ((recordHeirReachable m.vaultId m.kind ev.status t).bind fun _ => .done Recorded.applied)
      h := by
  -- both stamps must have been tried, or the first has failed
  have finishes : ∀ g, h <+: g → (provesDelivery ev.status = true →
      isHeirDirected m.kind = true →
        (∃ t e, (⟨.exec (.stampVerified m.vaultId t), .error e⟩ : PostEv) ∈ g) ∨
          ∃ r, (⟨.exec (.clearAlert m.vaultId), r⟩ : PostEv) ∈ g) → Finished ev g :=
    fun g grown cleared => ⟨m, applied.mono grown.subset, by simp [positive], cleared⟩
  unfold recordHeirReachable
  split
  -- not a proof of delivery, or not a message to the heir
  · next other =>
    refine ⟨List.prefix_refl h, finishes h (List.prefix_refl h) fun proves directed => ?_⟩
    simp [proves, directed] at other
  · next both =>
    have both : isHeirDirected m.kind = true ∧ provesDelivery ev.status = true := by
      simpa using both
    intro stamped
    refine ⟨⟨both.2, m, applied, rfl, both.1⟩, ?_⟩
    have grown := List.prefix_append h [⟨.exec (.stampVerified m.vaultId t), stamped⟩]
    cases stamped with
    | error e => exact ⟨grown, finishes _ grown fun _ _ => .inl ⟨t, e, by simp⟩⟩
    | ok n =>
      intro cleared
      refine ⟨⟨both.2, m, applied.mono grown.subset, rfl, both.1⟩, ?_⟩
      have grown := grown.trans (List.prefix_append _ [⟨.exec (.clearAlert m.vaultId), cleared⟩])
      have finished := finishes _ grown fun _ _ => .inr ⟨cleared, by simp⟩
      cases cleared with
      | error e => exact ⟨grown, finished⟩
      | ok n' =>
        show Meets _ _ ((if n > 0 then recordEvent m.vaultId "heir_contact_verified"
          [("via", some m.kind)] else .done ()).bind fun _ => .done Recorded.applied) _
        split
        · intro t'
          refine ⟨trivial, fun answer => ⟨fun kind => ?_, ?_⟩⟩
          · exact absurd kind (by simp [FeedEntry.isUndelivered])
          · have tail := (List.prefix_append
                (h ++ [⟨.exec (.stampVerified m.vaultId t), .ok n⟩] ++
                  [⟨.exec (.clearAlert m.vaultId), .ok n'⟩]) [⟨.now, t'⟩]).trans
              (List.prefix_append _ [⟨.exec (.insertEvent
                ⟨m.vaultId, "heir_contact_verified", [("via", some m.kind)], t'⟩), answer⟩])
            cases answer <;> exact ⟨grown.trans tail, finished.mono tail.subset⟩
        · exact ⟨grown, finished⟩

/-- What a handler has done when its callback's id is entered. -/
private def opening (ev : DeliveryEvent) (t : Instant) (row : Option Mail) (n : Nat) : PostHist :=
  [] ++ [⟨.now, t⟩] ++ [⟨.query (.byProviderId ev.providerMessageId), .ok row⟩] ++
    [⟨.exec (.claimEvent ⟨ev.provider, ev.eventId, row.map Mail.id, ev.status, t⟩), .ok n⟩]

/-- From there on the callback is the handler's to close. -/
theorem meets_applyVerdict (ev : DeliveryEvent) (t : Instant) (row : Option Mail) {n : Nat}
    (new : n ≠ 0) :
    Meets (fun h e => Sound ev h e.action) (fun g _ => opening ev t row n <+: g ∧ Closed ev g)
      (applyVerdict ev t row) (opening ev t row n) := by
  have found : Found (opening ev t row n) ev row := by simp [Found, opening]
  -- so far no verdict was written and nothing told
  have unmoved : Unmoved (opening ev t row n) := by
    intro id status detail t' r mem
    simp only [opening, List.nil_append, List.cons_append, List.mem_cons, List.not_mem_nil,
      or_false] at mem
    rcases mem with same | same | same <;> cases same
  cases row with
  | none => exact ⟨List.prefix_refl _, .unknown found unmoved⟩
  | some m =>
    show Meets _ _ (if deliveryRank ev.status ≤ previousRank m.deliveryStatus then _ else _ :
      PostProg Recorded) _
    split
    -- an older verdict than the one on file
    · next stale => exact ⟨List.prefix_refl _, .stale m found stale unmoved⟩
    · intro answer
      have entered : Entered (opening ev t (some m) n) ev :=
        ⟨some m.id, t, n, by simp [opening], new⟩
      refine ⟨⟨rfl, rfl, ⟨m, found, rfl⟩, entered, fun id s d t' r => unmoved id s d t' r⟩, ?_⟩
      have grown := List.prefix_append (opening ev t (some m) n)
        [⟨.exec (.updateVerdict m.id ev.status ev.detail t), answer⟩]
      have untold : ∀ e r, e.isUndelivered → (⟨.exec (.insertEvent e), r⟩ : PostEv) ∉
          opening ev t (some m) n ++
            [⟨.exec (.updateVerdict m.id ev.status ev.detail t), answer⟩] := by
        intro e r _ mem
        simp only [opening, List.nil_append, List.cons_append, List.mem_cons, List.not_mem_nil,
          or_false] at mem
        rcases mem with same | same | same | same <;> cases same
      cases answer with
      | error e => exact ⟨grown, .failed m.id t e (by simp)⟩
      | ok k =>
        -- the verdict is written; what follows depends on its sign
        have applied : Applied (opening ev t (some m) n ++
            [⟨.exec (.updateVerdict m.id ev.status ev.detail t), .ok k⟩]) ev m :=
          ⟨grown.subset found, t, k, by simp⟩
        show Meets _ _ (if isNegativeVerdict ev.status = true then _ else _ : PostProg Recorded) _
        split
        · next negative =>
          exact (meets_negative applied negative untold).mono (fun _ _ sound => sound)
            fun g _ ended => ⟨grown.trans ended.1, .finished ended.2⟩
        · next positive =>
          exact (meets_positive applied (by simpa using positive)).mono (fun _ _ sound => sound)
            fun g _ ended => ⟨grown.trans ended.1, .finished ended.2⟩

/-- A callback's handler, from its first statement to its reply. -/
theorem meets_recordDelivery (ev : DeliveryEvent) :
    Meets (fun h e => Sound ev h e.action) (Replied ev)
      ((recordDelivery ev).bind fun r => .done (some r)) [] := by
  intro t
  refine ⟨trivial, fun row => ⟨⟨rfl, fun r n mem => ?_⟩, ?_⟩⟩
  · cases List.mem_singleton.1 mem
  cases row with
  -- nothing was claimed, so nothing is owed
  | error e =>
    refine ⟨?_, by rintro x ⟨⟩⟩
    rintro ⟨nid, t', n, mem, -⟩
    simp only [List.nil_append, List.cons_append, List.mem_cons, List.not_mem_nil, or_false] at mem
    rcases mem with same | same <;> cases same
  | ok row =>
    intro claimed
    refine ⟨⟨rfl, rfl, row, by simp [Found]⟩, ?_⟩
    cases claimed with
    | error e =>
      refine ⟨?_, by rintro x ⟨⟩⟩
      rintro ⟨nid, t', n, mem, -⟩
      simp only [List.nil_append, List.cons_append, List.mem_cons, List.not_mem_nil, or_false]
        at mem
      rcases mem with same | same | same <;> cases same
    | ok n =>
      -- the event is on file, whoever filed it
      have tried : ∀ g, opening ev t row n <+: g → ∃ nid t n, (⟨.exec (.claimEvent
          ⟨ev.provider, ev.eventId, nid, ev.status, t⟩), .ok n⟩ : PostEv) ∈ g := fun g grown =>
        ⟨row.map Mail.id, t, n, grown.subset (by simp [opening])⟩
      show Meets _ _ ((if n = 0 then Program.done Recorded.duplicate else applyVerdict ev t row).bind
        _) (opening ev t row n)
      split
      -- a duplicate: filed by an earlier callback
      · next zero =>
        refine ⟨?_, fun _ _ => tried _ (List.prefix_refl _)⟩
        rintro ⟨nid, t', n', mem, new⟩
        simp only [opening, List.nil_append, List.cons_append, List.mem_cons, List.not_mem_nil,
          or_false] at mem
        rcases mem with same | same | same <;> cases same
        exact absurd zero new
      · next new =>
        refine Meets.bind (meets_applyVerdict ev t row new) (fun g r _ ended => ?_)
          fun g e _ ended => ?_
        all_goals exact ⟨fun _ => ended.2, fun _ _ => tried g ended.1⟩

/-- What the handler of an edit does. -/
def Edits (id : VaultId) (req : UpdateHeirRequest) (h : PostHist) : PostAction → Prop
  | .query (.heir id') => id' = id
  | .exec (.updateContact id' name contact channel contactChanged) =>
      id' = id ∧ contact = trim req.contact ∧ channel = req.channel ∧
        ∃ r, (⟨.query (.heir id), .ok (some r)⟩ : PostEv) ∈ h ∧ name = r.name ∧
          contactChanged = decide (r.contact ≠ some contact)
  | _ => False

theorem meets_updateVaultHeir (S : Server) (id : VaultId) (req : UpdateHeirRequest) :
    Meets (fun h e => Edits id req h e.action) (fun _ _ => True)
      ((updateVaultHeir S id req).bind fun _ => .done (none : Option Recorded)) [] := by
  unfold updateVaultHeir
  split
  · trivial
  · dsimp only
    split
    · trivial
    · split
      · trivial
      · intro row
        refine ⟨rfl, ?_⟩
        cases row with
        | error e => trivial
        | ok row =>
          cases row with
          | none => trivial
          | some r =>
            show Meets _ _ ((if _ then Program.fail _ else _ : PostProg Unit).bind fun _ => _) _
            split
            · trivial
            · intro answer
              refine ⟨⟨rfl, rfl, rfl, r, by simp, rfl, rfl⟩, ?_⟩
              cases answer with
              | error e => trivial
              | ok n =>
                intro shown
                refine ⟨rfl, ?_⟩
                cases shown <;> trivial

/-- What a handler does, by its request. -/
def Conduct (q : PostRequest) (h : PostHist) (a : PostAction) : Prop :=
  match q with
  | .callback ev => Sound ev h a
  | .updateVaultHeir id req => Edits id req h a

/-- How a handler ends, by its request. -/
def Ends (q : PostRequest) (h : PostHist) (r : Except ApiError (Option Recorded)) : Prop :=
  match q with
  | .callback ev => Replied ev h r
  | .updateVaultHeir _ _ => True

theorem meets_program (S : Server) (q : PostRequest) :
    Meets (fun h e => Conduct q h e.action) (Ends q) ((postroom S).program q) [] := by
  cases q with
  | callback ev => exact meets_recordDelivery ev
  | updateVaultHeir id req => exact meets_updateVaultHeir S id req

end Handler

/-! ## §5 What one step does -/

/-- A run of callbacks and edits on an empty database. -/
abbrev PostRun (S : Server) (clock : Instant) (tr : PostTrace)
    (c : Config PostAction PostAction.Response ApiError (Option Recorded) Post PostRequest) : Prop :=
  Run (postroom S) (System.boot (Post.start clock)) tr c

/-- What may change in a message's row beside its verdict: a provider id is stored once. -/
structure Mail.Continues (m m' : Mail) : Prop where
  id : m'.id = m.id
  vaultId : m'.vaultId = m.vaultId
  kind : m'.kind = m.kind
  channel : m'.channel = m.channel
  recipient : m'.recipient = m.recipient
  providerMessageId : ∀ p, m.providerMessageId = some p → m'.providerMessageId = some p

namespace Mail.Continues

variable {m m' m'' : Mail}

theorem refl (m : Mail) : m.Continues m := ⟨rfl, rfl, rfl, rfl, rfl, fun _ h => h⟩

theorem trans (first : m.Continues m') (second : m'.Continues m'') : m.Continues m'' :=
  ⟨second.id.trans first.id, second.vaultId.trans first.vaultId, second.kind.trans first.kind,
    second.channel.trans first.channel, second.recipient.trans first.recipient,
    fun p h => second.providerMessageId p (first.providerMessageId p h)⟩

end Mail.Continues

namespace Post

/-- The recorded verdict on the message a provider calls `p`. -/
def verdict (w : Post) (p : String) : Option String := (w.byProviderId p).bind Mail.deliveryStatus

/-- A provider id names one message, and a message without one has no verdict. -/
structure Tidy (w : Post) : Prop where
  named : ∀ m ∈ w.mails.rows, ∀ m' ∈ w.mails.rows, ∀ p,
    m.providerMessageId = some p → m'.providerMessageId = some p → m.id = m'.id
  silent : ∀ m ∈ w.mails.rows, m.providerMessageId = none → m.deliveryStatus = none

variable {w w' : Post} {m : Mail} {p : String}

theorem byProviderId_mem (found : w.byProviderId p = some m) :
    m ∈ w.mails.rows ∧ m.providerMessageId = some p :=
  ⟨List.mem_of_find?_eq_some found, by simpa using List.find?_some found⟩

theorem mail?_of_byProviderId (found : w.byProviderId p = some m) : w.mail? m.id = some m :=
  KeyedTable.find?_of_mem (byProviderId_mem found).1

theorem Tidy.byProviderId (tidy : w.Tidy) {n : Nat} (here : w.mail? n = some m)
    (called : m.providerMessageId = some p) : w.byProviderId p = some m := by
  have mem : m ∈ w.mails.rows := KeyedTable.find?_mem here
  cases found : w.byProviderId p with
  | none =>
    have absent := List.find?_eq_none.1 found m mem
    simp [called] at absent
  | some m' =>
    obtain ⟨mem', called'⟩ := byProviderId_mem found
    have same := tidy.named m' mem' m mem p called' called
    have one : w.mails.find? m.id = some m' := by
      rw [← same]
      exact KeyedTable.find?_of_mem mem'
    rw [show w.mails.find? m.id = some m from KeyedTable.find?_of_mem mem] at one
    exact one.symm

theorem Tidy.of_mails (tidy : w.Tidy) (same : w'.mails = w.mails) : w'.Tidy :=
  ⟨same ▸ tidy.named, same ▸ tidy.silent⟩

theorem byProviderId_of_mails (same : w'.mails = w.mails) (p : String) :
    w'.byProviderId p = w.byProviderId p := by
  unfold byProviderId
  rw [same]

theorem byProviderId_of_rows {f : Mail → Mail} (rows : w'.mails.rows = w.mails.rows.map f)
    (kept : ∀ m, (f m).providerMessageId = m.providerMessageId) (p : String) :
    w'.byProviderId p = (w.byProviderId p).map f := by
  unfold byProviderId
  rw [rows, List.find?_map]
  congr 2
  funext m
  simp [kept m]

/-- A queued message is a new row. -/
theorem queue_cases (w : Post) (vaultId : VaultId) (kind channel recipient : String) :
    (w.queue vaultId kind channel recipient).mails = w.mails ∨
    w.mails.insert? ⟨w.nextId, vaultId, kind, channel, recipient, none, none, none, none⟩ =
      some (w.queue vaultId kind channel recipient).mails := by
  unfold queue
  split
  · next mails inserted => exact .inr inserted
  · exact .inl rfl

end Post

section Runs

variable {S : Server} {clock : Instant} {tr : PostTrace} {s : PostStep} {k : Nat}
variable {c : Config PostAction PostAction.Response ApiError (Option Recorded) Post PostRequest}

/-- A step that changes the world is an executed statement, or drift. -/
theorem step_cases (explains : (postroom S).Explains s) :
    s.after = s.before ∨
    (∃ i st, s.label = .acted i ⟨.exec st, .ok (s.before.run st).2⟩ ∧
      s.after = (s.before.run st).1) ∨
    ∃ d, s.label = .drifted d ∧ s.after = PostDrift.apply d s.before := by
  obtain ⟨before, label, after⟩ := s
  cases label with
  | started i q => exact .inl explains
  | returned i r => exact .inl explains
  | halted => exact .inl explains
  | drifted d => exact .inr (.inr ⟨d, rfl, explains⟩)
  | acted i e =>
    obtain ⟨a, answer⟩ := e
    obtain ⟨o, performed⟩ := explains
    cases a with
    | now => exact .inl (congrArg Prod.snd performed).symm
    | query q => exact .inl (congrArg Prod.snd performed).symm
    | exec st =>
      change (if o.dbFails then (Except.error DbError.unavailable, before)
        else (.ok (before.run st).2, (before.run st).1)) = (answer, after) at performed
      split at performed
      · exact .inl (congrArg Prod.snd performed).symm
      · cases performed
        exact .inr (.inl ⟨i, st, rfl, rfl⟩)

theorem queried (explains : (postroom S).Explains s) {i : Nat} {q : PostQuery} {r : q.Result}
    (label : s.label = .acted i ⟨.query q, .ok r⟩) : r = q.eval s.before ∧ s.after = s.before := by
  unfold System.Explains at explains
  rw [label] at explains
  obtain ⟨o, performed⟩ := explains
  have answer : (if o.dbFails then Except.error DbError.unavailable else .ok (q.eval s.before) :
      Except DbError q.Result) = .ok r := congrArg Prod.fst performed
  refine ⟨?_, (congrArg Prod.snd performed).symm⟩
  split at answer
  · cases answer
  · exact (Except.ok.inj answer).symm

theorem executed (explains : (postroom S).Explains s) {i n : Nat} {st : PostStmt}
    (label : s.label = .acted i ⟨.exec st, .ok n⟩) :
    n = (s.before.run st).2 ∧ s.after = (s.before.run st).1 := by
  unfold System.Explains at explains
  rw [label] at explains
  obtain ⟨o, performed⟩ := explains
  have answer : (if o.dbFails then (Except.error DbError.unavailable, s.before)
      else (.ok (s.before.run st).2, (s.before.run st).1) : Except DbError Nat × Post) =
        (.ok n, s.after) := performed
  split at answer
  · cases answer
  · obtain ⟨same, ran⟩ := Prod.mk.inj answer
    exact ⟨(Except.ok.inj same).symm, ran.symm⟩

/-- What a step may do to `notifications`. -/
inductive MailsStep (s : PostStep) : Prop
  | same (same : s.after.mails = s.before.mails)
  | queued (m : Mail) (fresh : m.providerMessageId = none) (silent : m.deliveryStatus = none)
      (inserted : s.before.mails.insert? m = some s.after.mails)
  | judged (i id : Nat) (status : String) (detail : Option String) (t : Instant) (n : Nat)
      (label : s.label = .acted i ⟨.exec (.updateVerdict id status detail t), .ok n⟩)
      (rows : s.after.mails.rows = s.before.mails.rows.map fun m =>
        if m.id = id then m.judged status detail t else m)
  | taken (id : Nat) (p : String) (unused : s.before.byProviderId p = none)
      (rows : s.after.mails.rows = s.before.mails.rows.map fun m =>
        if m.id = id ∧ m.providerMessageId = none then m.taken p else m)

theorem mails_step (explains : (postroom S).Explains s) : MailsStep s := by
  -- a message is queued by a request or by the rest of the server
  have queued : ∀ vaultId kind channel recipient,
      s.after = s.before.queue vaultId kind channel recipient → MailsStep s := by
    intro vaultId kind channel recipient ran
    rcases s.before.queue_cases vaultId kind channel recipient with same | inserted
    · exact .same (ran ▸ same)
    · exact .queued _ rfl rfl (ran ▸ inserted)
  rcases step_cases explains with same | ⟨i, st, label, ran⟩ | ⟨d, -, drifted⟩
  · exact .same (by rw [same])
  -- of the handler's statements only two reach the table
  · cases st with
    | claimEvent r =>
      refine .same ?_
      rw [ran]
      unfold Post.run
      dsimp only
      split <;> rfl
    | updateVerdict id status detail t =>
      refine .judged i id status detail t _ label ?_
      rw [ran]
      simp [Post.run, KeyedTable.update]
    | enqueue vaultId kind channel recipient => exact queued vaultId kind channel recipient ran
    | _ =>
      refine .same ?_
      rw [ran]
      rfl
  -- of the drifts, those that queue and hand off
  · cases d with
    | pass d =>
      refine .same ?_
      rw [drifted]
      rfl
    | createVault id heirDerived name contact channel ownerEmail =>
      refine .same ?_
      rw [drifted]
      simp only [PostDrift.apply]
      split <;> rfl
    | enqueue vaultId kind channel recipient => exact queued vaultId kind channel recipient drifted
    | accepted id p =>
      simp only [PostDrift.apply] at drifted
      split at drifted
      · exact .same (by rw [drifted])
      · next unused =>
        refine .taken id p (by simpa using unused) ?_
        rw [drifted]
        simp [KeyedTable.update]

/-- An UPDATE of messages leaves their rows in place. -/
theorem mail_of_rows {w w' : Post} {f : Mail → Mail} {n : Nat} {m : Mail}
    (rows : w'.mails.rows = w.mails.rows.map f) (cont : ∀ m : Mail, m.Continues (f m))
    (here : w.mail? n = some m) : w'.mail? n = some (f m) := by
  have mem : f m ∈ w'.mails.rows := by
    rw [rows]
    exact List.mem_map_of_mem (KeyedTable.find?_mem here)
  rw [← KeyedTable.find?_key here, ← (cont m).id]
  exact KeyedTable.find?_of_mem mem

theorem mail_after (explains : (postroom S).Explains s) {n : Nat} {m : Mail}
    (here : s.before.mail? n = some m) : ∃ m', s.after.mail? n = some m' ∧ m.Continues m' := by
  cases mails_step explains with
  | same same =>
    refine ⟨m, ?_, .refl m⟩
    unfold Post.mail? at here ⊢
    rw [same]
    exact here
  -- a new message has an identifier of its own
  | queued m' fresh silent inserted =>
    refine ⟨m, (KeyedTable.find?_insert? inserted n).trans ?_, .refl m⟩
    split
    · next same =>
      have absent := KeyedTable.find?_eq_none_of_insert? inserted
      rw [← same, show s.before.mails.find? n = some m from here] at absent
      cases absent
    · exact here
  -- verdicts and provider ids are written beside the rest of the row
  | judged i id status detail t _ label rows =>
    have cont : ∀ m : Mail, m.Continues (if m.id = id then m.judged status detail t else m) := by
      intro m
      split
      · exact ⟨rfl, rfl, rfl, rfl, rfl, fun _ h => h⟩
      · exact .refl m
    exact ⟨_, mail_of_rows rows cont here, cont m⟩
  | taken id p unused rows =>
    have cont : ∀ m : Mail,
        m.Continues (if m.id = id ∧ m.providerMessageId = none then m.taken p else m) := by
      intro m
      split
      · next picked => exact ⟨rfl, rfl, rfl, rfl, rfl, fun q h => by rw [picked.2] at h; cases h⟩
      · exact .refl m
    exact ⟨_, mail_of_rows rows cont here, cont m⟩

/-- A message's row stays. -/
theorem mail_since (run : PostRun S clock tr c) {j : Nat} {t : PostStep} {n : Nat} {m : Mail}
    (at_j : tr[j]? = some t) (here : t.after.mail? n = some m) (lt : j < k) (at_k : tr[k]? = some s) :
    ∃ m', s.before.mail? n = some m' ∧ m.Continues m' := by
  refine run.since (P := fun w => ∃ m', w.mail? n = some m' ∧ m.Continues m') at_j
    ⟨m, here, .refl m⟩ ?_ lt at_k
  rintro a u - - at_a ⟨m', now, cont⟩
  obtain ⟨m'', later, cont'⟩ := mail_after (run.explains_at at_a) now
  exact ⟨m'', later, cont.trans cont'⟩

/-- The message a handler has found is there, under the callback's message id. -/
theorem found_row (run : PostRun S clock tr c) {i : Nat} {ev : DeliveryEvent} {m : Mail}
    (found : Found (history i k tr) ev (some m)) (at_k : tr[k]? = some s) :
    ∃ m', s.before.mail? m.id = some m' ∧ m.Continues m' ∧
      m'.providerMessageId = some ev.providerMessageId := by
  obtain ⟨j, t, lt, at_j, label⟩ := mem_history.1 found
  obtain ⟨here, same⟩ := queried (run.explains_at at_j) label
  have here : t.before.byProviderId ev.providerMessageId = some m := here.symm
  have row := Post.mail?_of_byProviderId here
  rw [← same] at row
  obtain ⟨m', now, cont⟩ := mail_since run at_j row lt at_k
  exact ⟨m', now, cont, cont.providerMessageId _ (Post.byProviderId_mem here).2⟩

theorem conduct_at (run : PostRun S clock tr c) (at_k : tr[k]? = some s) {i : Nat} {e : PostEv}
    (label : s.label = .acted i e) :
    ∃ q, Started i q (tr.take k) ∧ Conduct q (history i k tr) e.action :=
  run.acted_at (I := fun q h e => Conduct q h e.action) (F := Ends) (meets_program S) at_k label

/-- A verdict is only ever written by the handler of a callback that has found the message. -/
theorem judging (run : PostRun S clock tr c) (at_k : tr[k]? = some s) {i id : Nat}
    {status : String} {detail : Option String} {t : Instant} {r : Except DbError Nat}
    (label : s.label = .acted i ⟨.exec (.updateVerdict id status detail t), r⟩) :
    ∃ ev, Started i (.callback ev) (tr.take k) ∧
      Sound ev (history i k tr) (.exec (.updateVerdict id status detail t)) := by
  obtain ⟨q, started, conduct⟩ := conduct_at run at_k label
  cases q with
  | callback ev => exact ⟨ev, started, conduct⟩
  | updateVaultHeir id req => exact conduct.elim

theorem tidy_after (run : PostRun S clock tr c) (at_k : tr[k]? = some s)
    (tidy : s.before.Tidy) : s.after.Tidy := by
  cases mails_step (run.explains_at at_k) with
  | same same => exact tidy.of_mails same
  | queued m fresh silent inserted =>
    have rows : ∀ m' ∈ s.after.mails.rows, m' = m ∨ m' ∈ s.before.mails.rows := by
      intro m' mem
      have there := (KeyedTable.find?_insert? inserted _).symm.trans (KeyedTable.find?_of_mem mem)
      split at there
      · exact .inl (Option.some.inj there).symm
      · exact .inr (KeyedTable.find?_mem there)
    refine ⟨fun m₁ mem₁ m₂ mem₂ p called₁ called₂ => ?_, fun m₁ mem₁ uncalled => ?_⟩
    · rcases rows m₁ mem₁ with rfl | old₁
      · rw [fresh] at called₁
        cases called₁
      · rcases rows m₂ mem₂ with rfl | old₂
        · rw [fresh] at called₂
          cases called₂
        · exact tidy.named m₁ old₁ m₂ old₂ p called₁ called₂
    · rcases rows m₁ mem₁ with rfl | old₁
      · exact silent
      · exact tidy.silent m₁ old₁ uncalled
  | judged i id status detail t n label rows =>
    -- the message has a provider id: it was found under it
    have called : ∀ m ∈ s.before.mails.rows, m.id = id → m.providerMessageId ≠ none := by
      intro m mem same
      obtain ⟨ev, -, -, -, ⟨m₀, found, here⟩, -⟩ := judging run at_k label
      obtain ⟨m', row, -, named⟩ := found_row run found at_k
      have one := KeyedTable.find?_of_mem mem
      rw [same, ← here, show s.before.mails.find? m₀.id = some m' from row] at one
      cases one
      simp [named]
    have kept : ∀ m : Mail, (if m.id = id then m.judged status detail t else m).id = m.id ∧
        (if m.id = id then m.judged status detail t else m).providerMessageId =
          m.providerMessageId := by
      intro m
      split <;> exact ⟨rfl, rfl⟩
    refine ⟨fun m₁ mem₁ m₂ mem₂ p called₁ called₂ => ?_, fun m₁ mem₁ uncalled => ?_⟩
    · rw [rows] at mem₁ mem₂
      obtain ⟨n₁, old₁, rfl⟩ := List.mem_map.1 mem₁
      obtain ⟨n₂, old₂, rfl⟩ := List.mem_map.1 mem₂
      rw [(kept n₁).2] at called₁
      rw [(kept n₂).2] at called₂
      rw [(kept n₁).1, (kept n₂).1]
      exact tidy.named n₁ old₁ n₂ old₂ p called₁ called₂
    · rw [rows] at mem₁
      obtain ⟨n₁, old₁, rfl⟩ := List.mem_map.1 mem₁
      rw [(kept n₁).2] at uncalled
      split
      · next same => exact absurd uncalled (called n₁ old₁ same)
      · exact tidy.silent n₁ old₁ uncalled
  | taken id p unused rows =>
    have free : ∀ m ∈ s.before.mails.rows, m.providerMessageId ≠ some p := by
      intro m mem same
      have absent := List.find?_eq_none.1 unused m mem
      simp [same] at absent
    -- a row called `q` was called so before, or is the one taken
    have origin : ∀ m ∈ s.after.mails.rows, ∃ m₀ ∈ s.before.mails.rows, m.id = m₀.id ∧
        ((m.providerMessageId = m₀.providerMessageId ∧ m.deliveryStatus = m₀.deliveryStatus) ∨
          m₀.id = id ∧ m.providerMessageId = some p) := by
      intro m mem
      rw [rows] at mem
      obtain ⟨m₀, old, rfl⟩ := List.mem_map.1 mem
      refine ⟨m₀, old, ?_⟩
      split
      · next picked => exact ⟨rfl, .inr ⟨picked.1, rfl⟩⟩
      · exact ⟨rfl, .inl ⟨rfl, rfl⟩⟩
    refine ⟨fun m₁ mem₁ m₂ mem₂ q called₁ called₂ => ?_, fun m₁ mem₁ uncalled => ?_⟩
    · obtain ⟨n₁, old₁, same₁, how₁⟩ := origin m₁ mem₁
      obtain ⟨n₂, old₂, same₂, how₂⟩ := origin m₂ mem₂
      rw [same₁, same₂]
      rcases how₁ with ⟨kept₁, -⟩ | ⟨here₁, new₁⟩ <;> rcases how₂ with ⟨kept₂, -⟩ | ⟨here₂, new₂⟩
      · rw [kept₁] at called₁
        rw [kept₂] at called₂
        exact tidy.named n₁ old₁ n₂ old₂ q called₁ called₂
      · rw [new₂, Option.some.injEq] at called₂
        rw [kept₁, ← called₂] at called₁
        exact absurd called₁ (free n₁ old₁)
      · rw [new₁, Option.some.injEq] at called₁
        rw [kept₂, ← called₁] at called₂
        exact absurd called₂ (free n₂ old₂)
      · rw [here₁, here₂]
    · obtain ⟨n₁, old₁, -, ⟨kept, status⟩ | ⟨-, new⟩⟩ := origin m₁ mem₁
      · rw [status]
        exact tidy.silent n₁ old₁ (kept ▸ uncalled)
      · rw [new] at uncalled
        cases uncalled

theorem tidy_at (run : PostRun S clock tr c) (at_k : tr[k]? = some s) : s.before.Tidy := by
  refine ((run.invariant_at (P := fun _ w => w.Tidy) ?_ fun k s at_k _ before =>
    tidy_after run at_k before).1 k s at_k).1
  exact ⟨fun m mem => absurd mem List.not_mem_nil, fun m mem => absurd mem List.not_mem_nil⟩

/-- The thread `i`, for the callback `ev`, writes its verdict on `m` at position `k`. -/
structure Moves (tr : PostTrace) (k i : Nat) (ev : DeliveryEvent) (m : Mail) : Prop where
  started : Started i (.callback ev) (tr.take k)
  found : Found (history i k tr) ev (some m)
  writes : ∃ s t n, tr[k]? = some s ∧
    s.label = .acted i ⟨.exec (.updateVerdict m.id ev.status ev.detail t), .ok n⟩

theorem moves_of_judged (run : PostRun S clock tr c) (at_k : tr[k]? = some s) {i id n : Nat}
    {status : String} {detail : Option String} {t : Instant}
    (label : s.label = .acted i ⟨.exec (.updateVerdict id status detail t), .ok n⟩) :
    ∃ ev m, Moves tr k i ev m ∧ m.id = id ∧ ev.status = status := by
  obtain ⟨ev, started, same, same', ⟨m, found, here⟩, -⟩ := judging run at_k label
  refine ⟨ev, m, ⟨started, found, s, t, n, at_k, ?_⟩, here, same.symm⟩
  rw [label, same, same', here]

/-- Where a message's verdict stands after its handler has written it. -/
theorem Moves.verdict {i : Nat} {ev : DeliveryEvent} {m : Mail} (moves : Moves tr k i ev m)
    (run : PostRun S clock tr c) (at_k : tr[k]? = some s) :
    s.after.verdict ev.providerMessageId = some ev.status := by
  obtain ⟨s', t, n, at_k', label⟩ := moves.writes
  rw [at_k] at at_k'
  cases at_k'
  obtain ⟨m', row, -, called⟩ := found_row run moves.found at_k
  have there := (tidy_at run at_k).byProviderId row called
  have rows : s.after.mails.rows = s.before.mails.rows.map fun m₀ =>
      if m₀.id = m.id then m₀.judged ev.status ev.detail t else m₀ := by
    rw [(executed (run.explains_at at_k) label).2]
    simp [Post.run, KeyedTable.update]
  unfold Post.verdict
  rw [Post.byProviderId_of_rows rows (fun m₀ => by split <;> rfl), there]
  simp [KeyedTable.find?_key row, Mail.judged]

/-- A message's verdict changes only when the handler of one of its callbacks writes it. -/
theorem verdict_after (run : PostRun S clock tr c) (at_k : tr[k]? = some s) (p : String) :
    s.after.verdict p = s.before.verdict p ∨
    ∃ i ev m, Moves tr k i ev m ∧ ev.providerMessageId = p := by
  have tidy := tidy_at run at_k
  cases mails_step (run.explains_at at_k) with
  | same same =>
    left
    unfold Post.verdict
    rw [Post.byProviderId_of_mails same]
  | queued m fresh silent inserted =>
    left
    unfold KeyedTable.insert? at inserted
    split at inserted
    · cases inserted
    · have rows := congrArg KeyedTable.rows (Option.some.inj inserted)
      unfold Post.verdict Post.byProviderId
      rw [← rows, List.find?_append, List.find?_cons_of_neg (by simp [fresh]), List.find?_nil,
        Option.or_none]
  | judged i id status detail t n label rows =>
    obtain ⟨ev, m, moves, here, -⟩ := moves_of_judged run at_k label
    by_cases same : ev.providerMessageId = p
    · exact .inr ⟨i, ev, m, moves, same⟩
    · left
      unfold Post.verdict
      rw [Post.byProviderId_of_rows rows (fun m₀ => by split <;> rfl)]
      cases found : s.before.byProviderId p with
      | none => rfl
      | some m₁ =>
        -- the row that is written has another provider id
        have other : m₁.id ≠ id := by
          intro eq
          obtain ⟨m', row, -, called⟩ := found_row run moves.found at_k
          have row₁ := Post.mail?_of_byProviderId found
          rw [eq, ← here, row, Option.some.injEq] at row₁
          have called₁ := (Post.byProviderId_mem found).2
          rw [← row₁, called, Option.some.injEq] at called₁
          exact same called₁
        simp [other]
  | taken id q unused rows =>
    left
    by_cases same : q = p
    · subst same
      -- the message taken has no verdict yet
      have empty : s.before.verdict q = none := by
        unfold Post.verdict
        rw [unused]
        rfl
      rw [empty]
      unfold Post.verdict
      cases found : s.after.byProviderId q with
      | none => rfl
      | some m =>
        obtain ⟨mem, called⟩ := Post.byProviderId_mem found
        rw [rows] at mem
        obtain ⟨m₀, old, rfl⟩ := List.mem_map.1 mem
        split at called
        · next picked =>
          rw [if_pos picked]
          exact tidy.silent m₀ old picked.2
        · have absent := List.find?_eq_none.1 unused m₀ old
          simp [called] at absent
    · unfold Post.verdict Post.byProviderId
      have kept : (fun m : Mail => decide (m.providerMessageId = some p)) ∘
          (fun m => if m.id = id ∧ m.providerMessageId = none then m.taken q else m) =
            fun m => decide (m.providerMessageId = some p) := by
        funext m
        simp only [Function.comp_apply]
        split
        · next picked => simp [Mail.taken, picked.2, same]
        · rfl
      rw [rows, List.find?_map, kept]
      cases s.before.mails.rows.find? fun m => decide (m.providerMessageId = some p) with
      | none => rfl
      | some m =>
        rw [Option.map_some, Option.bind_some, Option.bind_some]
        split <;> rfl

/-- A callback's id is entered at position `k`. -/
def EnteredAt (tr : PostTrace) (k : Nat) (key : String × String) : Prop :=
  ∃ s i r n, tr[k]? = some s ∧ s.label = .acted i ⟨.exec (.claimEvent r), .ok n⟩ ∧ n ≠ 0 ∧
    r.key = key

/-- What a step may do to `notification_delivery_events`. -/
theorem receipts_after (run : PostRun S clock tr c) (at_k : tr[k]? = some s)
    (key : String × String) :
    s.after.receipts.find? key ≠ none ↔
      s.before.receipts.find? key ≠ none ∨ EnteredAt tr k key := by
  have explains := run.explains_at at_k
  -- nothing else is entered by a step that leaves the table as it is
  have quiet : s.after.receipts = s.before.receipts → ¬ EnteredAt tr k key →
      (s.after.receipts.find? key ≠ none ↔
        s.before.receipts.find? key ≠ none ∨ EnteredAt tr k key) := by
    intro same nothing
    rw [same]
    exact ⟨.inl, fun h => h.resolve_right nothing⟩
  by_cases entering : ∃ i r n, s.label = .acted i ⟨.exec (.claimEvent r), .ok n⟩
  · obtain ⟨i, r, n, label⟩ := entering
    obtain ⟨count, ran⟩ := executed explains label
    have entered : EnteredAt tr k key ↔ n ≠ 0 ∧ r.key = key := by
      constructor
      · rintro ⟨s', i', r', n', at_k', label', new, same⟩
        rw [at_k] at at_k'
        cases at_k'
        rw [label] at label'
        cases label'
        exact ⟨new, same⟩
      · rintro ⟨new, same⟩
        exact ⟨s, i, r, n, at_k, label, new, same⟩
    rw [entered, ran, count]
    simp only [Post.run]
    split
    · next receipts inserted =>
      simp only [KeyedTable.find?_insert? inserted key]
      split
      · next same => simp [same]
      · next other => simp [Ne.symm other]
    · simp
  · refine quiet ?_ ?_
    · rcases step_cases explains with same | ⟨i, st, label, ran⟩ | ⟨d, -, drifted⟩
      · rw [same]
      · cases st with
        | claimEvent r => exact absurd ⟨i, r, _, label⟩ entering
        | enqueue vaultId kind channel recipient =>
          rw [ran]
          simp only [Post.run, Post.queue]
          split <;> rfl
        | _ =>
          rw [ran]
          rfl
      · rw [drifted]
        cases d with
        | pass d => rfl
        | createVault id heirDerived name contact channel ownerEmail =>
          simp only [PostDrift.apply]
          split <;> rfl
        | enqueue vaultId kind channel recipient =>
          simp only [PostDrift.apply, Post.queue]
          split <;> rfl
        | accepted id p =>
          simp only [PostDrift.apply]
          split <;> rfl
    · rintro ⟨s', i, r, n, at_k', label, -⟩
      rw [at_k] at at_k'
      cases at_k'
      exact entering ⟨i, r, n, label⟩

/-- The table holds the ids entered so far. -/
theorem receipt_iff (run : PostRun S clock tr c) (at_k : tr[k]? = some s)
    (key : String × String) :
    s.before.receipts.find? key ≠ none ↔ ∃ j, j < k ∧ EnteredAt tr j key := by
  refine ((run.invariant_at (P := fun n w => w.receipts.find? key ≠ none ↔
    ∃ j, j < n ∧ EnteredAt tr j key) ?_ fun n s at_n _ before => ?_).1 k s at_k).1
  · constructor
    · exact fun held => absurd rfl held
    · rintro ⟨j, lt, -⟩
      exact absurd lt (Nat.not_lt_zero j)
  · rw [receipts_after run at_n, before]
    constructor
    · rintro (⟨j, lt, entered⟩ | entered)
      · exact ⟨j, Nat.lt_succ_of_lt lt, entered⟩
      · exact ⟨n, Nat.lt_succ_self n, entered⟩
    · rintro ⟨j, lt, entered⟩
      rcases Nat.lt_or_eq_of_le (Nat.le_of_lt_succ lt) with earlier | rfl
      · exact .inl ⟨j, earlier, entered⟩
      · exact .inr entered

/-- A callback's id is entered once. -/
theorem entered_once (run : PostRun S clock tr c) {j : Nat} {key : String × String}
    (first : EnteredAt tr j key) (second : EnteredAt tr k key) : j = k := by
  have later : ∀ {j k : Nat}, EnteredAt tr j key → EnteredAt tr k key → ¬ j < k := by
    rintro j k first ⟨s, i, r, n, at_k, label, new, same⟩ lt
    have held := (receipt_iff run at_k key).2 ⟨j, lt, first⟩
    obtain ⟨count, -⟩ := executed (run.explains_at at_k) label
    simp only [Post.run] at count
    split at count
    · next receipts inserted =>
      rw [← same] at held
      exact held (KeyedTable.find?_eq_none_of_insert? inserted)
    · exact new count
  exact Nat.le_antisymm (Nat.not_lt.1 (later second first)) (Nat.not_lt.1 (later first second))

/-- An id that is not new was entered before. -/
theorem entered_before (run : PostRun S clock tr c) (at_k : tr[k]? = some s) {i : Nat}
    {r : Receipt} (label : s.label = .acted i ⟨.exec (.claimEvent r), .ok 0⟩) :
    ∃ j, j < k ∧ EnteredAt tr j r.key := by
  refine (receipt_iff run at_k r.key).1 fun absent => ?_
  obtain ⟨count, -⟩ := executed (run.explains_at at_k) label
  obtain ⟨t', inserted, -⟩ := KeyedTable.exists_insert? absent
  simp [Post.run, inserted] at count

end Runs

end Delivery

end GhostKey

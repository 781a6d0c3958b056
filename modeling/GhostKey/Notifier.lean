import GhostKey.PushGuard
import GhostKey.Server
import GhostKey.Foundation.Worker
import Mathlib.Data.List.Sort

/-!
# The Notification Worker

One worker takes the due rows of the notification queue, marks each as being sent, opens
it, hands it to the provider of its channel and writes down what came of it. Any statement
can fail, which ends the tick, and the process can halt between any two of its steps. A web
push goes to every subscription of the vault; the rows of a vault that is deleted go with it.

Layers:
1. the queue, its statements and the worker's tick, as the notifier has them;
2. the books the worker keeps: `Ledger`, and what moves them; `Beside`, the moves beside it;
3. one row, from its claim over the dispatch (`safe_dispatchSend`) to its bookkeeping:
   `safe_handleRow`, and one tick;
4. `queueHolds_of_smooth`: the promises, where no claimed row is dropped and every claimed
   row can be sent, and `stuck_forever`: a row that was dropped is never taken up again.
-/

namespace GhostKey

namespace Notifier

open Foundation Program

/-! ## §1 The queue -/

/-- `notifications.status`. -/
inductive QueueStatus where
  | pending
  | sending
  | sent
  | failedPermanent
  deriving DecidableEq

/-- `notifications`, as far as the worker reads and writes it. -/
structure QueueRow where
  id : Nat
  vaultId : VaultId
  channel : String
  recipientCiphertext : String
  recipientNonce : String
  subjectCiphertext : Option String
  subjectNonce : Option String
  bodyCiphertext : String
  bodyNonce : String
  status : QueueStatus
  attempts : Nat
  lastError : Option String
  scheduledAt : Instant
  sentAt : Option Instant
  providerMessageId : Option String
  deriving DecidableEq

/-- `MAX_ATTEMPTS`. -/
def maxAttempts : Nat := 6

/-- `BACKOFF_BASE_SECS`. -/
def backoffBaseSecs : Nat := 30

/-- `BACKOFF_CAP_SECS`. -/
def backoffCapSecs : Nat := 3600

def backoffSecs (attempt : Nat) : Nat :=
  min (backoffBaseSecs * 2 ^ min attempt 12) backoffCapSecs

/-- The statements that write a row the queue holds. -/
inductive QueueStmt where
  | claim (id : Nat)
  | markPermanent (id : Nat) (err : String)
  | reschedule (id : Nat) (attempts : Nat) (scheduledAt : Instant) (err : String)
  | markSent (id : Nat) (sentAt : Instant) (providerMessageId : Option String)
  deriving DecidableEq

namespace QueueStmt

def id : QueueStmt → Nat
  | claim id => id
  | markPermanent id _ => id
  | reschedule id _ _ _ => id
  | markSent id _ _ => id

/-- What the WHERE clause asks beside the id. -/
def guard : QueueStmt → QueueRow → Bool
  | claim _, r => r.status = .pending
  | _, _ => true

/-- The SET clause. -/
def set : QueueStmt → QueueRow → QueueRow
  | claim _, r => { r with status := .sending }
  | markPermanent _ err, r =>
      { r with status := .failedPermanent, attempts := r.attempts + 1, lastError := some err }
  | reschedule _ attempts scheduledAt err, r =>
      { r with status := .pending, attempts := attempts, scheduledAt := scheduledAt,
               lastError := some err }
  | markSent _ sentAt providerMessageId, r =>
      { r with status := .sent, sentAt := some sentAt, attempts := r.attempts + 1,
               providerMessageId := providerMessageId }

theorem set_id (st : QueueStmt) (r : QueueRow) : (st.set r).id = r.id := by
  cases st <;> rfl

end QueueStmt

/-- `push_subscriptions`. -/
structure SubscriptionRow where
  id : Nat
  vaultId : VaultId
  endpoint : String
  p256dh : String
  auth : String
  deriving DecidableEq

/-- The worker's surroundings. AUTOINCREMENT gives no id out again; the last ones are kept.
The rows that were handed to a provider are the providers' record, one entry for each
hand-off; no code reads it. -/
structure Queue where
  clock : Instant
  rows : KeyedTable QueueRow Nat QueueRow.id
  lastId : Nat
  subscriptions : KeyedTable SubscriptionRow Nat SubscriptionRow.id
  lastSubscriptionId : Nat
  handedOff : List Nat

namespace Queue

def start (clock : Instant) : Queue := ⟨clock, .empty, 0, .empty, 0, []⟩

def row? (w : Queue) (id : Nat) : Option QueueRow := w.rows.find? id

/-- How often the row was handed to a provider. -/
def handOffs (w : Queue) (id : Nat) : Nat := w.handedOff.count id

/-- `ORDER BY scheduled_at ASC LIMIT 16`. -/
def dueRows (w : Queue) (now : Instant) : List QueueRow :=
  ((w.rows.select fun r => r.status = .pending && r.scheduledAt ≤ now).insertionSort
    fun a b => a.scheduledAt ≤ b.scheduledAt).take 16

def run (st : QueueStmt) (w : Queue) : Queue × Nat :=
  let where_ := fun r : QueueRow => decide (r.id = st.id) && st.guard r
  ({ w with rows := w.rows.update where_ st.set st.set_id }, w.rows.affected where_)

/-- `SELECT … FROM push_subscriptions WHERE vault_id = ?`. -/
def subscriptionsOf (w : Queue) (vaultId : VaultId) : List SubscriptionRow :=
  w.subscriptions.select fun sub => sub.vaultId = vaultId

/-- The provider of a row was asked to send it. -/
def handOver (w : Queue) (id : Nat) : Queue := { w with handedOff := w.handedOff ++ [id] }

end Queue

/-! ## §2 The worker -/

/-- `DraftPayload`. -/
structure DraftPayload where
  recipient : String
  subject : String
  body : String
  deriving DecidableEq

/-- `SendError`. -/
inductive SendError where
  | build (msg : String)
  | smtp (msg : String) (permanent : Bool)
  | twilio (msg : String) (permanent : Bool)
  | webPush (msg : String)
  deriving DecidableEq

namespace SendError

/-- `impl Display for SendError`. -/
def text : SendError → String
  | build msg => "smtp build: " ++ msg
  | smtp msg _ => "smtp: " ++ msg
  | twilio msg _ => "twilio: " ++ msg
  | webPush msg => "webpush: " ++ msg

def isPermanent : SendError → Bool
  | build _ => true
  | smtp _ permanent => permanent
  | twilio _ permanent => permanent
  | webPush _ => false

end SendError

/-- `TwilioConfig`, as far as the dispatch looks at it. -/
structure TwilioConfig where
  smsFrom : Option String
  whatsappFrom : Option String

def TwilioConfig.senderFor (cfg : TwilioConfig) : Channel → Option String
  | .sms => cfg.smsFrom
  | .whatsapp => cfg.whatsappFrom
  | .email => none
  | .webPush => none

/-- `Backends`: which of them are configured. -/
structure Backends where
  smtp : Bool
  twilio : Option TwilioConfig
  vapid : Bool

def Backends.channelDeliverable (b : Backends) : Channel → Bool
  | .email => b.smtp
  | .sms => b.twilio.any fun cfg => (cfg.senderFor .sms).isSome
  | .whatsapp => b.twilio.any fun cfg => (cfg.senderFor .whatsapp).isSome
  | .webPush => b.vapid

def undeliverableReason : Channel → String
  | .email => "SMTP not configured; email undeliverable"
  | .sms => "no usable Twilio SMS sender; sms undeliverable"
  | .whatsapp => "no usable Twilio WhatsApp sender; whatsapp undeliverable"
  | .webPush => "VAPID keys not configured; web push undeliverable"

/-- What a deployment gives the worker; errors by their texts. -/
structure Setup where
  /-- `open_for_vault` and `from_utf8`. -/
  openForVault : VaultId → String → String → Except String String
  backends : Backends
  /-- The mail of a row with its Message-ID, and the transport to the relay. -/
  buildEmail : Nat → DraftPayload → Except String String
  /-- `reqwest::Client::builder().build()`. -/
  httpClient : Except String Unit
  /-- `impl Display for sqlx::Error`. -/
  dbText : DbError → String

/-- `decrypt_draft`. -/
def Setup.decryptDraft (N : Setup) (r : QueueRow) : Except String DraftPayload := do
  let recipient ← N.openForVault r.vaultId r.recipientCiphertext r.recipientNonce
  let subject ← match r.subjectCiphertext, r.subjectNonce with
    | some ct, some nn => N.openForVault r.vaultId ct nn
    | _, _ => .ok ""
  let body ← N.openForVault r.vaultId r.bodyCiphertext r.bodyNonce
  return ⟨recipient, subject, body⟩

/-- Why the relay or Twilio did not take a message. -/
structure Refusal where
  msg : String
  permanent : Bool

/-- How `push::send` went: it posts to the push service unless something fails before. -/
inductive PushOutcome where
  | unposted (e : PushGuard.PushError)
  | answered (r : Except PushGuard.PushError Unit)

def PushOutcome.result : PushOutcome → Except PushGuard.PushError Unit
  | unposted e => .error e
  | answered r => r

inductive QueueAction where
  | now
  | due (now : Instant)
  | exec (st : QueueStmt)
  /-- The SMTP relay or Twilio, by the channel. -/
  | handOff (id : Nat) (channel : Channel) (draft : DraftPayload)
  /-- The subscriptions of the vault, for a row. -/
  | subscriptions (id : Nat) (vaultId : VaultId)
  /-- `push::send` for a row. -/
  | push (id : Nat) (sub : SubscriptionRow) (body : String)
  /-- `DELETE FROM push_subscriptions WHERE id = ?`. -/
  | prune (subId : Nat)

def QueueAction.Response : QueueAction → Type
  | now => Instant
  | due _ => Except DbError (List QueueRow)
  | exec _ => Except DbError Nat
  | handOff _ _ _ => Except Refusal (Option String)
  | subscriptions _ _ => Except DbError (List SubscriptionRow)
  | push _ _ _ => PushOutcome
  | prune _ => Except DbError Unit

/-- How the database and the providers take the next action. -/
structure Fate where
  dbFails : Bool
  handOff : Except Refusal (Option String)
  push : PushOutcome

def QueueAction.perform : (a : QueueAction) → Fate → Queue → a.Response × Queue
  | now, _, w => (w.clock, w)
  | due t, o, w => (if o.dbFails then .error .unavailable else .ok (w.dueRows t), w)
  | exec st, o, w =>
      if o.dbFails then (.error .unavailable, w)
      else (.ok (w.run st).2, (w.run st).1)
  | handOff id _ _, o, w => (o.handOff, w.handOver id)
  | subscriptions _ vaultId, o, w =>
      (if o.dbFails then .error .unavailable else .ok (w.subscriptionsOf vaultId), w)
  | push id _ _, o, w =>
      match o.push with
      | .unposted e => (.unposted e, w)
      | .answered r => (.answered r, w.handOver id)
  | prune subId, o, w =>
      if o.dbFails then (.error .unavailable, w)
      else (.ok (), { w with subscriptions := w.subscriptions.delete fun sub => sub.id = subId })

abbrev WorkerProg (α : Type) := Program QueueAction QueueAction.Response DbError α

def now : WorkerProg Instant := .act .now .done

/-- The due rows; a failure ends the tick. -/
def due (t : Instant) : WorkerProg (List QueueRow) :=
  .act (.due t) fun
    | .ok rows => .done rows
    | .error e => .fail e

/-- A statement, whose failure ends the tick. -/
def exec (st : QueueStmt) : WorkerProg Nat :=
  .act (.exec st) fun
    | .ok n => .done n
    | .error e => .fail e

def markPermanent (id : Nat) (err : String) : WorkerProg Unit := do
  let _ ← exec (.markPermanent id err)
  return ()

def reschedule (id attempts delaySecs : Nat) (err : String) : WorkerProg Unit := do
  let t ← now
  let _ ← exec (.reschedule id attempts (t + seconds delaySecs) err)
  return ()

def handOff (id : Nat) (channel : Channel) (draft : DraftPayload) :
    WorkerProg (Except Refusal (Option String)) :=
  .act (.handOff id channel draft) .done

def sendEmail (N : Setup) (id : Nat) (draft : DraftPayload) :
    WorkerProg (Except SendError (Option String)) :=
  match N.buildEmail id draft with
  | .error e => .done (.error (.build e))
  | .ok messageId => do
      match ← handOff id .email draft with
      | .ok _ => return .ok (some messageId)
      | .error r => return .error (.smtp r.msg r.permanent)

def sendTwilio (N : Setup) (channel : Channel) (id : Nat) (draft : DraftPayload) :
    WorkerProg (Except SendError (Option String)) :=
  match N.httpClient with
  | .error e => .done (.error (.twilio ("client build: " ++ e) true))
  | .ok _ => do
      match ← handOff id channel draft with
      | .ok sid => return .ok sid
      | .error r => return .error (.twilio r.msg r.permanent)

/-- `impl Display for PushError`. -/
def pushErrorText : PushGuard.PushError → String
  | .gone => "subscription gone (push service returned 404/410)"
  | .transient reason => "transient: " ++ reason
  | .permanent reason => "permanent: " ++ reason

/-- The loop of `send_webpush`: how many were delivered, and the last error. -/
def pushEach (id : Nat) (body : String) :
    List SubscriptionRow → Nat → Option String → WorkerProg (Nat × Option String)
  | [], delivered, lastErr => .done (delivered, lastErr)
  | sub :: subs, delivered, lastErr =>
      .act (.push id sub body) fun outcome =>
        match outcome.result with
        | .ok _ => pushEach id body subs (delivered + 1) lastErr
        -- a subscription that is gone is deleted, and a failure to do so is only logged
        | .error .gone => .act (.prune sub.id) fun _ => pushEach id body subs delivered lastErr
        | .error e => pushEach id body subs delivered (some (pushErrorText e))

def sendWebpush (N : Setup) (row : QueueRow) (draft : DraftPayload) :
    WorkerProg (Except SendError Unit) :=
  .act (.subscriptions row.id row.vaultId) fun
    | .error e => .done (.error (.webPush ("load subscriptions: " ++ N.dbText e)))
    | .ok subs => do
        if subs.isEmpty then return .ok ()
        match ← pushEach row.id draft.body subs 0 none with
        | (0, some err) => return .error (.webPush err)
        | _ => return .ok ()

/-- `dispatch_send`: `none` where the channel has no backend. -/
def dispatchSend (N : Setup) (channel : Channel) (row : QueueRow) (draft : DraftPayload) :
    WorkerProg (Option (Except SendError (Option String))) :=
  match channel with
  | .email => if N.backends.smtp then do return some (← sendEmail N row.id draft) else return none
  | .sms | .whatsapp =>
      match N.backends.twilio with
      | none => return none
      | some cfg =>
          match cfg.senderFor channel with
          | none => return none
          | some _ => do return some (← sendTwilio N channel row.id draft)
  | .webPush =>
      -- a push goes to many endpoints, so there is no one id to keep
      if N.backends.vapid then do return some ((← sendWebpush N row draft).map fun _ => none)
      else return none

/-- One row of `tick_once`. -/
def handleRow (N : Setup) (t : Instant) (row : QueueRow) : WorkerProg Unit := do
  let claimed ← exec (.claim row.id)
  if claimed ≠ 1 then return ()
  match N.decryptDraft row with
  | .error e => markPermanent row.id ("decrypt: " ++ e)
  | .ok draft =>
      match Channel.fromStr row.channel with
      | none => markPermanent row.id "unknown channel"
      | some channel =>
          let dispatch ← dispatchSend N channel row draft
          match dispatch with
          | none => markPermanent row.id (undeliverableReason channel)
          | some (.ok providerId) => do
              let _ ← exec (.markSent row.id t providerId)
              return ()
          | some (.error e) =>
              if e.isPermanent ∨ row.attempts + 1 ≥ maxAttempts then
                markPermanent row.id e.text
              else
                reschedule row.id (row.attempts + 1) (backoffSecs (row.attempts + 1)) e.text

def tickOnce (N : Setup) : WorkerProg Unit := do
  let t ← now
  let rows ← due t
  forEach rows (handleRow N t)

/-- What happens beside the worker: time passes, messages are queued, vaults are deleted, and
browsers subscribe and unsubscribe. -/
inductive QueueDrift where
  | pass (d : Nat)
  | enqueue (vaultId : VaultId) (channel recipientCiphertext recipientNonce subjectCiphertext
      subjectNonce bodyCiphertext bodyNonce : String)
  | deleteVault (vaultId : VaultId)
  | subscribe (vaultId : VaultId) (endpoint p256dh auth : String)
  | unsubscribe (vaultId : VaultId) (endpoint : String)

namespace QueueDrift

/-- `enqueue`. -/
def applyEnqueue (vaultId : VaultId) (channel rcptCt rcptNn subjCt subjNn bodyCt bodyNn : String)
    (w : Queue) : Queue :=
  let row : QueueRow :=
    ⟨w.lastId + 1, vaultId, channel, rcptCt, rcptNn, some subjCt, some subjNn, bodyCt, bodyNn,
      .pending, 0, none, w.clock, none, none⟩
  match w.rows.insert? row with
  | some rows => { w with rows := rows, lastId := w.lastId + 1 }
  | none => w

/-- `push_subscribe`'s upsert. -/
def applySubscribe (vaultId : VaultId) (endpoint p256dh auth : String) (w : Queue) : Queue :=
  let known := fun sub : SubscriptionRow => sub.vaultId = vaultId && sub.endpoint = endpoint
  if (w.subscriptions.select known).isEmpty then
    match w.subscriptions.insert? ⟨w.lastSubscriptionId + 1, vaultId, endpoint, p256dh, auth⟩ with
    | some subscriptions =>
        { w with subscriptions := subscriptions, lastSubscriptionId := w.lastSubscriptionId + 1 }
    | none => w
  else
    { w with
      subscriptions := w.subscriptions.update known
        (fun sub => { sub with p256dh := p256dh, auth := auth }) fun _ => rfl }

def apply : QueueDrift → Queue → Queue
  | pass d, w => { w with clock := w.clock + d }
  | enqueue vaultId channel rcptCt rcptNn subjCt subjNn bodyCt bodyNn, w =>
      applyEnqueue vaultId channel rcptCt rcptNn subjCt subjNn bodyCt bodyNn w
  -- ON DELETE CASCADE
  | deleteVault vaultId, w =>
      { w with
        rows := w.rows.delete fun r => r.vaultId = vaultId
        subscriptions := w.subscriptions.delete fun sub => sub.vaultId = vaultId }
  | subscribe vaultId endpoint p256dh auth, w => applySubscribe vaultId endpoint p256dh auth w
  -- `push_unsubscribe`
  | unsubscribe vaultId endpoint, w =>
      { w with
        subscriptions := w.subscriptions.delete fun sub =>
          sub.vaultId = vaultId && sub.endpoint = endpoint }

end QueueDrift

/-- The worker's loop: a tick starts when the one before has ended. -/
def worker (N : Setup) :
    System QueueAction QueueAction.Response DbError Unit Queue Fate QueueDrift Unit where
  program _ := tickOnce N
  mayStart _ running := running.isEmpty
  perform := QueueAction.perform
  drift := QueueDrift.apply
  restart := id

abbrev QueueStep := Step QueueAction QueueAction.Response DbError Unit Queue QueueDrift Unit

abbrev QueueTrace := List QueueStep

abbrev QueueConfig := Config QueueAction QueueAction.Response DbError Unit Queue Unit

/-! ## §3 What the queue promises -/

/-- A thread performed `a` in this step and was answered `r`. -/
def Acted (a : QueueAction) (r : a.Response) (s : QueueStep) : Prop :=
  ∃ i, s.label = .acted i ⟨a, r⟩

/-- The step hands the row to a provider. -/
def HandsOver (id : Nat) (s : QueueStep) : Prop :=
  (∃ channel draft answer, Acted (.handOff id channel draft) answer s) ∨
    ∃ sub body answer, Acted (.push id sub body) (.answered answer) s

/-- What is left of a row a tick has dealt with. -/
def Advanced (x r : QueueRow) : Prop :=
  match r.status with
  | .pending => r.attempts = x.attempts + 1
  | .sending => False
  | .sent => True
  | .failedPermanent => True

/-- In some continuation the row leaves `sending`. -/
def PickedUp (N : Setup) (c : QueueConfig) (id : Nat) : Prop :=
  ∃ tr c' r, Run (worker N) c tr c' ∧ c'.world.row? id = some r ∧ r.status ≠ .sending

/-- The promises, in the state `c` a run with the trace `tr` reaches. -/
structure QueueHolds (N : Setup) (tr : QueueTrace) (c : QueueConfig) : Prop where
  /-- No row is lost, but with its vault. -/
  kept : ∀ (k : Nat) s id r, tr[k]? = some s → s.before.row? id = some r →
    (∃ r', c.world.row? id = some r') ∨
      ∃ (m : Nat) (t : QueueStep), k ≤ m ∧ tr[m]? = some t ∧
        t.label = .drifted (.deleteVault r.vaultId)
  /-- A row that is being sent while no worker is at it is taken up again. -/
  unstuck : c.Idle → ∀ id r, c.world.row? id = some r → r.status = .sending → PickedUp N c id
  /-- A tick that goes through has dealt with every row it found due that is still there. -/
  dealt : ∀ (k : Nat) s i, tr[k]? = some s → s.label = .returned i (.ok ()) →
    ∀ t rows, (⟨.due t, .ok rows⟩ : Event QueueAction QueueAction.Response) ∈ history i k tr →
      ∀ x ∈ rows, ∀ r, s.before.row? x.id = some r → Advanced x r
  atMost : ∀ id, c.world.handOffs id ≤ maxAttempts
  /-- What was marked as sent is not handed over again. -/
  never_again : ∀ (j k : Nat) s t id sentAt providerId n, j < k → tr[j]? = some s →
    tr[k]? = some t → Acted (.exec (.markSent id sentAt providerId)) (.ok n) s → ¬ HandsOver id t
  /-- The attempts of a row that is not just being sent are its hand-offs. -/
  counted : ∀ id r, c.world.row? id = some r → r.status ≠ .sending →
    r.attempts = c.world.handOffs id

/-! ## §4 What is asked of the runs -/

/-- The message gets as far as the provider of the channel, if it has one of its own. -/
def Setup.builds (N : Setup) (id : Nat) (draft : DraftPayload) : Channel → Bool
  | .email => (N.buildEmail id draft).isOk
  | .sms | .whatsapp => N.httpClient.isOk
  | .webPush => true

/-- The row can be opened, its channel has a backend, and its message can be built. -/
def Setup.sendable (N : Setup) (r : QueueRow) : Bool :=
  match N.decryptDraft r, Channel.fromStr r.channel with
  | .ok draft, some channel => N.backends.channelDeliverable channel && N.builds r.id draft channel
  | _, _ => false

def QueueStmt.isClaim : QueueStmt → Bool
  | .claim _ => true
  | _ => false

/-- One subscription is found, or the row is gone and so are its vault's. -/
def lone (w : Queue) (id : Nat) : Except DbError (List SubscriptionRow) → Bool
  | .ok [] => (w.row? id).isNone
  | .ok [_] => true
  | _ => false

/-- Whether an answered action went smoothly: no bookkeeping fails, what is claimed can be
sent, and a push goes to one subscription and is posted. -/
def smoothAction (N : Setup) (w : Queue) : Event QueueAction QueueAction.Response → Bool
  | ⟨.exec st, .error _⟩ => st.isClaim
  | ⟨.exec (.claim id), .ok 1⟩ => (w.row? id).all N.sendable
  | ⟨.subscriptions id _, found⟩ => lone w id found
  | ⟨.push _ _ _, .unposted _⟩ => false
  | _ => true

/-- No bookkeeping statement fails, the process does not halt with a row in its hands, every
row the worker claims can be sent, and every push goes to one subscription and is posted. -/
def smooth (N : Setup) (s : QueueStep) : Bool :=
  match s.label with
  | .acted _ e => smoothAction N s.before e
  | .halted => s.before.rows.rows.all fun r => r.status ≠ .sending
  | _ => true

/-! ## §5 The books -/

section Rows

variable {w w' : Queue} {r : QueueRow} {id : Nat}

theorem row?_run (st : QueueStmt) (w : Queue) (id : Nat) :
    (w.run st).1.row? id =
      (w.row? id).map fun r => if decide (r.id = st.id) && st.guard r then st.set r else r :=
  KeyedTable.find?_update w.rows _ st.set st.set_id id

/-- A statement leaves the rows it does not name alone. -/
theorem row?_run_other {st : QueueStmt} (other : id ≠ st.id) :
    (w.run st).1.row? id = w.row? id := by
  rw [row?_run]
  cases found : w.row? id with
  | none => rfl
  | some r =>
    have named : r.id ≠ st.id := by
      rw [KeyedTable.find?_key found]
      exact other
    simp [named]

/-- The row it names and may write, it sets. -/
theorem row?_run_hit (st : QueueStmt) (found : w.row? st.id = some r)
    (allowed : st.guard r = true) : (w.run st).1.row? st.id = some (st.set r) := by
  have named : r.id = st.id := KeyedTable.find?_key found
  rw [row?_run, found]
  simp [named, allowed]

theorem run_affected (st : QueueStmt) (found : w.row? st.id = some r)
    (allowed : st.guard r = true) : (w.run st).2 = 1 :=
  (KeyedTable.affected_eq_one_iff w.rows st.id st.guard).2 ⟨r, found, allowed⟩

/-- A statement adds no row. -/
theorem row?_of_run {st : QueueStmt} (found : (w.run st).1.row? id = some r) :
    ∃ r', w.row? id = some r' := by
  rw [row?_run, Option.map_eq_some_iff] at found
  obtain ⟨r', found, -⟩ := found
  exact ⟨r', found⟩

theorem perform_exec {st : QueueStmt} {o : Fate} {r : Except DbError Nat}
    (answer : QueueAction.perform (.exec st) o w = (r, w')) :
    r = .error .unavailable ∧ w' = w ∨ r = .ok (w.run st).2 ∧ w' = (w.run st).1 := by
  have answer : (if o.dbFails then ((.error .unavailable, w) : Except DbError Nat × Queue)
    else (.ok (w.run st).2, (w.run st).1)) = (r, w') := answer
  split at answer
  · cases answer
    exact .inl ⟨rfl, rfl⟩
  · cases answer
    exact .inr ⟨rfl, rfl⟩

theorem perform_push {sub : SubscriptionRow} {body : String} {o : Fate} {r : PushOutcome}
    (answer : QueueAction.perform (.push id sub body) o w = (r, w')) :
    (∃ e, r = .unposted e) ∧ w' = w ∨ (∃ e, r = .answered e) ∧ w' = w.handOver id := by
  have answer : (match o.push with
    | .unposted e => ((.unposted e, w) : PushOutcome × Queue)
    | .answered r => (.answered r, w.handOver id)) = (r, w') := answer
  split at answer
  · cases answer
    exact .inl ⟨⟨_, rfl⟩, rfl⟩
  · cases answer
    exact .inr ⟨⟨_, rfl⟩, rfl⟩

theorem perform_prune {subId : Nat} {o : Fate} {r : Except DbError Unit}
    (answer : QueueAction.perform (.prune subId) o w = (r, w')) :
    w'.handedOff = w.handedOff ∧ w'.lastId = w.lastId ∧ w'.rows = w.rows := by
  have answer : (if o.dbFails then ((.error .unavailable, w) : Except DbError Unit × Queue)
    else (.ok (), { w with subscriptions := w.subscriptions.delete fun sub => sub.id = subId })) =
      (r, w') := answer
  split at answer
  · cases answer
    exact ⟨rfl, rfl, rfl⟩
  · cases answer
    exact ⟨rfl, rfl, rfl⟩

/-- What is due is pending, and in the queue as it was read. -/
theorem row?_of_due {t : Instant} (mem : r ∈ w.dueRows t) :
    w.row? r.id = some r ∧ r.status = .pending := by
  have sorted := List.mem_of_mem_take mem
  rw [List.mem_insertionSort] at sorted
  obtain ⟨found, due⟩ := KeyedTable.mem_select.1 sorted
  simp only [Bool.and_eq_true, decide_eq_true_eq] at due
  exact ⟨found, due.1⟩

theorem nodup_dueRows (w : Queue) (t : Instant) : ((w.dueRows t).map QueueRow.id).Nodup := by
  have chosen : ((w.rows.select fun r => r.status = .pending && r.scheduledAt ≤ t).map
      QueueRow.id).Nodup :=
    w.rows.nodup.sublist (List.filter_sublist.map QueueRow.id)
  have sorted := ((List.perm_insertionSort (fun a b : QueueRow => a.scheduledAt ≤ b.scheduledAt)
    _).map QueueRow.id).nodup_iff.2 chosen
  exact sorted.sublist ((List.take_sublist 16 _).map QueueRow.id)

end Rows

/-- What the environment makes of the queue: rows are added under new ids and go, and none is
changed. -/
structure Beside (w w' : Queue) : Prop where
  handedOff : w'.handedOff = w.handedOff
  grown : w.lastId ≤ w'.lastId
  rows : ∀ id r, w'.row? id = some r → w.row? id = some r ∨
    w.lastId < id ∧ id ≤ w'.lastId ∧ r.status = .pending ∧ r.attempts = 0

theorem Beside.refl (w : Queue) : Beside w w := ⟨rfl, Nat.le_refl _, fun _ _ found => .inl found⟩

/-- What leaves the rows and their ids alone. -/
theorem Beside.of_rows {w w' : Queue} (handedOff : w'.handedOff = w.handedOff)
    (lastId : w'.lastId = w.lastId) (rows : w'.rows = w.rows) : Beside w w' := by
  refine ⟨handedOff, Nat.le_of_eq lastId.symm, fun id r found => .inl ?_⟩
  unfold Queue.row? at found ⊢
  rwa [rows] at found

theorem Beside.trans {u v w : Queue} (first : Beside u v) (second : Beside v w) : Beside u w := by
  refine ⟨second.handedOff.trans first.handedOff, first.grown.trans second.grown,
    fun id r found => ?_⟩
  rcases second.rows id r found with there | ⟨fresh, le, new⟩
  · rcases first.rows id r there with there | ⟨fresh, le, new⟩
    · exact .inl there
    · exact .inr ⟨fresh, le.trans second.grown, new⟩
  · exact .inr ⟨Nat.lt_of_le_of_lt first.grown fresh, le, new⟩

/-- A statement that finds no row changes nothing. -/
theorem beside_missed (st : QueueStmt) {w : Queue} (gone : w.row? st.id = none) :
    Beside w (w.run st).1 := by
  refine ⟨rfl, Nat.le_refl _, fun id r found => .inl ?_⟩
  by_cases same : id = st.id
  · rw [same, row?_run, gone] at found
    cases found
  · rwa [row?_run_other same] at found

theorem beside_prune {subId : Nat} {o : Fate} {r : Except DbError Unit} {w w' : Queue}
    (performed : QueueAction.perform (.prune subId) o w = (r, w')) : Beside w w' := by
  obtain ⟨handedOff, lastId, rows⟩ := perform_prune performed
  exact .of_rows handedOff lastId rows

theorem beside_drift (d : QueueDrift) (w : Queue) : Beside w (d.apply w) := by
  cases d with
  | pass d => exact .of_rows rfl rfl rfl
  | unsubscribe vaultId endpoint => exact .of_rows rfl rfl rfl
  | subscribe vaultId endpoint p256dh auth =>
    unfold QueueDrift.apply QueueDrift.applySubscribe
    dsimp only
    split
    · split
      · exact .of_rows rfl rfl rfl
      · exact .refl w
    · exact .of_rows rfl rfl rfl
  | deleteVault vaultId =>
    -- what is left was there before
    refine ⟨rfl, Nat.le_refl _, fun id r found => .inl ?_⟩
    have kept : (w.rows.delete fun r => r.vaultId = vaultId).find? id = some r := found
    rw [KeyedTable.find?_delete] at kept
    exact (Option.filter_eq_some_iff.1 kept).1
  | enqueue vaultId channel rcptCt rcptNn subjCt subjNn bodyCt bodyNn =>
    unfold QueueDrift.apply QueueDrift.applyEnqueue
    dsimp only
    split
    -- a new row has an identifier above all the others
    · next rows inserted =>
      refine ⟨rfl, Nat.le_succ _, fun id r found => ?_⟩
      have here := (KeyedTable.find?_insert? inserted id).symm.trans found
      split at here
      · next same =>
        cases here
        cases same
        exact .inr ⟨Nat.lt_succ_self _, Nat.le_refl _, rfl, rfl⟩
      · exact .inl here
    · exact .refl w

/-- The row is for web push. -/
def QueueRow.isPush (r : QueueRow) : Bool := Channel.fromStr r.channel = some .webPush

/-- How a row stands that no worker is at, after `n` hand-offs. A push may go to any number
of subscriptions; a row that was dropped while being sent is there only where not everything
went smoothly. -/
structure Settled (calm : Prop) (n : Nat) (r : QueueRow) : Prop where
  resting : calm → r.status ≠ .sending
  counted : calm → r.attempts = n
  most : r.isPush = false → n ≤ maxAttempts
  due : r.isPush = false → r.status = .pending → n ≤ r.attempts
  room : r.status = .pending → r.attempts < maxAttempts

/-- The books while the worker has the row `busy` in hand; the rows in `orphans` are being
sent and no worker is at them. -/
structure Ledger (calm : Prop) (orphans : Nat → Prop) (busy : Option Nat) (w : Queue) : Prop where
  settled : ∀ id r, w.row? id = some r → busy ≠ some id → Settled calm (w.handOffs id) r
  inHand : ∀ id r, busy = some id → w.row? id = some r →
    r.status = .sending ∧ (r.isPush = false → w.handOffs id ≤ maxAttempts)
  held : ∀ id, busy = some id → id ≤ w.lastId
  known : ∀ id r, w.row? id = some r → id ≤ w.lastId
  fresh : ∀ id, w.lastId < id → w.handOffs id = 0
  atMost : calm → ∀ id, w.handOffs id ≤ maxAttempts
  stays : ∀ id, orphans id → busy ≠ some id ∧ id ≤ w.lastId ∧
    ∀ r, w.row? id = some r → r.status = .sending

section Books

variable {calm : Prop} {orphans : Nat → Prop} {busy : Option Nat} {w w' : Queue} {id : Nat}

theorem Beside.handOffs (beside : Beside w w') (id : Nat) : w'.handOffs id = w.handOffs id := by
  unfold Queue.handOffs
  rw [beside.handedOff]

/-- A row whose id was given out before was there before. -/
theorem Beside.known (beside : Beside w w') (old : id ≤ w.lastId) {r : QueueRow}
    (found : w'.row? id = some r) : w.row? id = some r :=
  (beside.rows id r found).resolve_right fun new => absurd old (Nat.not_le_of_lt new.1)

theorem Ledger.beside (books : Ledger calm orphans busy w) (beside : Beside w w') :
    Ledger calm orphans busy w' where
  settled id r found free := by
    rw [beside.handOffs]
    rcases beside.rows id r found with there | ⟨new, -, pending, untried⟩
    · exact books.settled id r there free
    · -- a row that was just queued
      rw [books.fresh id new]
      refine ⟨fun _ => by rw [pending]; decide, fun _ => untried, fun _ => Nat.zero_le _,
        fun _ _ => Nat.zero_le _, fun _ => ?_⟩
      rw [untried]
      decide
  inHand id r held found := by
    rw [beside.handOffs]
    exact books.inHand id r held (beside.known (books.held id held) found)
  held id held := (books.held id held).trans beside.grown
  known id r found := by
    rcases beside.rows id r found with there | ⟨-, le, -⟩
    · exact (books.known id r there).trans beside.grown
    · exact le
  fresh id new := by
    rw [beside.handOffs]
    exact books.fresh id (Nat.lt_of_le_of_lt beside.grown new)
  atMost calm id := by
    rw [beside.handOffs]
    exact books.atMost calm id
  stays id gone := by
    obtain ⟨free, old, sending⟩ := books.stays id gone
    exact ⟨free, old.trans beside.grown, fun r found => sending r (beside.known old found)⟩

/-- The worker takes a pending row in hand. -/
theorem Ledger.claimed {r : QueueRow} (books : Ledger calm orphans none w)
    (found : w.row? id = some r) (pending : r.status = .pending) :
    Ledger calm orphans (some id) (w.run (.claim id)).1 := by
  have hit := row?_run_hit (.claim id) found (by simp [QueueStmt.guard, pending])
  have hit : (w.run (.claim id)).1.row? id = some { r with status := .sending } := hit
  have settled := books.settled id r found (by simp)
  refine ⟨fun id' r' found' free => ?_, fun id' r' held found' => ?_, fun id' held => ?_,
    fun id' r' found' => ?_, books.fresh, books.atMost, fun id' gone => ?_⟩
  · have other : id' ≠ id := fun same => free (by rw [same])
    rw [row?_run_other other] at found'
    exact books.settled id' r' found' (by simp)
  · cases held
    rw [hit] at found'
    cases found'
    exact ⟨rfl, settled.most⟩
  · cases held
    exact books.known id r found
  · obtain ⟨r₀, found₀⟩ := row?_of_run found'
    exact books.known id' r₀ found₀
  · obtain ⟨-, old, sending⟩ := books.stays id' gone
    -- an orphan is in `sending`, so it is not the one taken
    have other : id' ≠ id := by
      rintro rfl
      have wrong := sending r found
      rw [pending] at wrong
      cases wrong
    refine ⟨fun same => other (Option.some.inj same).symm, old, fun r' found' => ?_⟩
    rw [row?_run_other other] at found'
    exact sending r' found'

theorem handOffs_handOver (w : Queue) (id : Nat) :
    (w.handOver id).handOffs id = w.handOffs id + 1 := by
  simp [Queue.handOffs, Queue.handOver]

theorem handOffs_handOver_other {id' : Nat} (other : id' ≠ id) :
    (w.handOver id).handOffs id' = w.handOffs id' := by
  simp [Queue.handOffs, Queue.handOver, Ne.symm other]

/-- The worker hands the row over once more. -/
theorem Ledger.handed (books : Ledger calm orphans (some id) w)
    (left : calm → w.handOffs id < maxAttempts)
    (left' : ∀ r, w.row? id = some r → r.isPush = false → w.handOffs id < maxAttempts) :
    Ledger calm orphans (some id) (w.handOver id) where
  settled id' r found free := by
    rw [handOffs_handOver_other fun same => free (by rw [same])]
    exact books.settled id' r found free
  inHand id' r held found := by
    cases held
    refine ⟨(books.inHand id r rfl found).1, fun single => ?_⟩
    rw [handOffs_handOver]
    exact left' r found single
  held := books.held
  known := books.known
  fresh id' new := by
    have other : id' ≠ id := by
      rintro rfl
      exact absurd (books.held id' rfl) (Nat.not_le_of_lt new)
    rw [handOffs_handOver_other other]
    exact books.fresh id' new
  atMost calm id' := by
    by_cases same : id' = id
    · rw [same, handOffs_handOver]
      exact left calm
    · rw [handOffs_handOver_other same]
      exact books.atMost calm id'
  stays := books.stays

/-- The worker writes down what came of the row in its hands, if it is still there. -/
theorem Ledger.closed {st : QueueStmt} (books : Ledger calm orphans (some st.id) w)
    (settled : ∀ r, (w.run st).1.row? st.id = some r → Settled calm (w.handOffs st.id) r) :
    Ledger calm orphans none (w.run st).1 := by
  refine ⟨fun id r found _ => ?_, by simp, by simp, fun id r found => ?_, books.fresh,
    books.atMost, fun id gone => ?_⟩
  · by_cases same : id = st.id
    · rw [same] at found ⊢
      exact settled r found
    · rw [row?_run_other same] at found
      exact books.settled id r found fun held => same (Option.some.inj held).symm
  · obtain ⟨r₀, found₀⟩ := row?_of_run found
    exact books.known id r₀ found₀
  · obtain ⟨free, old, sending⟩ := books.stays id gone
    refine ⟨by simp, old, fun r found => ?_⟩
    rw [row?_run_other fun same => free (by rw [same])] at found
    exact sending r found

/-- The row in hand is dropped, or was gone with its vault. -/
theorem Ledger.dropped (books : Ledger calm orphans busy w)
    (rough : ∀ id r, busy = some id → w.row? id = some r → ¬ calm) :
    Ledger calm orphans none w := by
  refine ⟨fun id r found _ => ?_, by simp, by simp, books.known, books.fresh, books.atMost,
    fun id gone => ⟨by simp, (books.stays id gone).2⟩⟩
  by_cases held : busy = some id
  · obtain ⟨sending, most⟩ := books.inHand id r held found
    refine ⟨fun calm => absurd calm (rough id r held found),
      fun calm => absurd calm (rough id r held found), most, fun _ pending => ?_,
      fun pending => ?_⟩
    · rw [sending] at pending
      cases pending
    · rw [sending] at pending
      cases pending
  · exact books.settled id r found held

end Books

/-! ## §6 One row -/

/-- What the worker has heard when it asks a provider to send the row: its claim took the
row, and it has not marked it as sent. -/
structure MaySend (id : Nat) (h : History QueueAction QueueAction.Response) : Prop where
  claimed : (⟨.exec (.claim id), .ok 1⟩ : Event QueueAction QueueAction.Response) ∈ h
  unmarked : ∀ e ∈ h, ∀ sentAt providerId, e.action ≠ .exec (.markSent id sentAt providerId)

/-- The id was given out, and if the row is still there it is being sent. -/
def Sending (w : Queue) (id : Nat) : Prop :=
  id ≤ w.lastId ∧ ∀ r, w.row? id = some r → r.status = .sending

/-- The terms the worker works on: calm ones grant it that all goes smoothly. -/
def terms (N : Setup) (calm : Prop) (orphans : Nat → Prop) :
    Terms QueueAction QueueAction.Response Queue where
  rely := Beside
  grant w e _ := calm → smoothAction N w e = true
  inv w := ∃ busy, Ledger calm orphans busy w
  owes w h
    | .exec st => st.id ≤ w.lastId ∧ (st.isClaim = false → Sending w st.id)
    | .handOff id _ _ => MaySend id h
    | .push id _ _ => MaySend id h
    | _ => True
  rely_refl := Beside.refl
  rely_trans := Beside.trans

/-- The only due rows the tick has read are `rows`, and it has marked none of `xs` as sent. -/
structure Heard (rows xs : List QueueRow) (h : History QueueAction QueueAction.Response) :
    Prop where
  read : ∀ t rows', (⟨.due t, .ok rows'⟩ : Event QueueAction QueueAction.Response) ∈ h →
    rows' = rows
  unmarked : ∀ x ∈ xs, ∀ e ∈ h, ∀ sentAt providerId,
    e.action ≠ .exec (.markSent x.id sentAt providerId)

theorem Heard.snoc {rows xs ys : List QueueRow} {h : History QueueAction QueueAction.Response}
    {e : Event QueueAction QueueAction.Response} (heard : Heard rows xs h)
    (fewer : ∀ y ∈ ys, y ∈ xs) (other : ∀ t, e.action ≠ .due t)
    (unmarks : ∀ y ∈ ys, ∀ sentAt providerId,
      e.action ≠ .exec (.markSent y.id sentAt providerId)) : Heard rows ys (h ++ [e]) := by
  refine ⟨fun t rows' mem => ?_, fun y listed e' mem => ?_⟩
  · rcases List.mem_append.1 mem with old | new
    · exact heard.read t rows' old
    · rw [List.mem_singleton] at new
      rw [← new] at other
      exact absurd rfl (other t)
  · rcases List.mem_append.1 mem with old | new
    · exact heard.unmarked y (fewer y listed) e' old
    · rw [List.mem_singleton] at new
      rw [new]
      exact unmarks y listed

theorem MaySend.snoc {id : Nat} {h : History QueueAction QueueAction.Response}
    {e : Event QueueAction QueueAction.Response} (maySend : MaySend id h)
    (unmarks : ∀ sentAt providerId, e.action ≠ .exec (.markSent id sentAt providerId)) :
    MaySend id (h ++ [e]) := by
  refine ⟨List.mem_append_left _ maySend.claimed, fun e' mem => ?_⟩
  rcases List.mem_append.1 mem with old | new
  · exact maySend.unmarked e' old
  · rw [List.mem_singleton] at new
    rw [new]
    exact unmarks

/-- What has become of the rows of a tick when those in `xs` are still to come. -/
structure Progress (rows xs : List QueueRow) (free : Nat → Prop) (w : Queue) : Prop where
  known : ∀ y ∈ rows, y.id ≤ w.lastId
  todo : ∀ x ∈ xs, x ∈ rows ∧ x.status = .pending ∧ ∀ r, w.row? x.id = some r → r = x
  distinct : (xs.map QueueRow.id).Nodup
  rest : ∀ y ∈ rows, free y.id → y ∈ xs ∨ ∀ r, w.row? y.id = some r → Advanced y r

/-- Between two rows of a tick. -/
structure Between (calm : Prop) (orphans : Nat → Prop) (rows xs : List QueueRow) (w : Queue) :
    Prop where
  books : Ledger calm orphans none w
  unique : ∀ x ∈ rows, ∀ y ∈ rows, x.id = y.id → x = y
  progress : Progress rows xs (fun _ => True) w

/-- With the row `x` in hand, handed over `n` times since its claim. -/
structure InHand (calm : Prop) (orphans : Nat → Prop) (rows xs : List QueueRow) (x : QueueRow)
    (n : Nat) (w : Queue) : Prop where
  books : Ledger calm orphans (some x.id) w
  unique : ∀ x ∈ rows, ∀ y ∈ rows, x.id = y.id → x = y
  progress : Progress rows xs (fun id => id ≠ x.id) w
  mem : x ∈ rows
  later : ∀ y ∈ xs, y.id ≠ x.id
  row : ∀ r, w.row? x.id = some r → r = { x with status := .sending }
  count : calm → w.handOffs x.id = x.attempts + n
  most : x.isPush = false → w.handOffs x.id ≤ x.attempts + n
  room : x.attempts < maxAttempts

/-- The hand-offs since the claim are the one attempt that is to be booked, if the row is
still there; a push may have gone to more subscriptions. -/
structure Closes (calm : Prop) (x : QueueRow) (n : Nat) (w : Queue) : Prop where
  counted : calm → ∀ r, w.row? x.id = some r → n = 1
  most : x.isPush = false → n ≤ 1

/-- A statement that closes a row asks for nothing but its id, and the row is not being sent
any more. -/
theorem QueueStmt.books (st : QueueStmt) (book : st.isClaim = false) (r : QueueRow) :
    st.guard r = true ∧ (st.set r).status ≠ .sending ∧ (st.set r).isPush = r.isPush := by
  cases st with
  | claim => cases book
  | markPermanent | reschedule | markSent => exact ⟨rfl, by simp [QueueStmt.set], rfl⟩

section Row

variable {N : Setup} {calm : Prop} {orphans : Nat → Prop} {rows xs : List QueueRow} {x : QueueRow}
variable {w w' : Queue} {n : Nat} {h : History QueueAction QueueAction.Response} {t : Instant}

theorem Progress.beside {free : Nat → Prop} (progress : Progress rows xs free w)
    (beside : Beside w w') : Progress rows xs free w' := by
  refine ⟨fun y mem => (progress.known y mem).trans beside.grown, fun x mem => ?_,
    progress.distinct, fun y mem allowed => ?_⟩
  · obtain ⟨listed, pending, same⟩ := progress.todo x mem
    exact ⟨listed, pending, fun r found => same r (beside.known (progress.known x listed) found)⟩
  · refine (progress.rest y mem allowed).imp_right fun advanced r found => ?_
    exact advanced r (beside.known (progress.known y mem) found)

theorem Between.beside (between : Between calm orphans rows xs w) (beside : Beside w w') :
    Between calm orphans rows xs w' :=
  ⟨between.books.beside beside, between.unique, between.progress.beside beside⟩

theorem InHand.beside (held : InHand calm orphans rows xs x n w) (beside : Beside w w') :
    InHand calm orphans rows xs x n w' :=
  { held with
    books := held.books.beside beside
    progress := held.progress.beside beside
    row := fun r found => held.row r (beside.known (held.progress.known x held.mem) found)
    count := by rw [beside.handOffs]; exact held.count
    most := by rw [beside.handOffs]; exact held.most }

theorem InHand.sending (held : InHand calm orphans rows xs x n w) : Sending w x.id :=
  ⟨held.progress.known x held.mem, fun r found => by rw [held.row r found]⟩

theorem Closes.beside (closes : Closes calm x n w) (beside : Beside w w') (old : x.id ≤ w.lastId) :
    Closes calm x n w' :=
  ⟨fun calm r found => closes.counted calm r (beside.known old found), closes.most⟩

/-- What a statement that names the row `x` leaves of the other rows of a tick. -/
theorem Progress.run {st : QueueStmt} {free : Nat → Prop} (progress : Progress rows xs free w)
    (later : ∀ y ∈ xs, y.id ≠ st.id)
    (advanced : ∀ y ∈ rows, y.id = st.id → ∀ r, (w.run st).1.row? y.id = some r → Advanced y r)
    (other : ∀ id, id ≠ st.id → free id) : Progress rows xs (fun _ => True) (w.run st).1 := by
  refine ⟨progress.known, fun y mem => ?_, progress.distinct, fun y mem _ => ?_⟩
  · obtain ⟨listed, pending, same⟩ := progress.todo y mem
    refine ⟨listed, pending, fun r found => same r ?_⟩
    rwa [row?_run_other (later y mem)] at found
  · by_cases named : y.id = st.id
    · exact .inr (advanced y mem named)
    · refine (progress.rest y mem (other y.id named)).imp_right fun advanced' r found => ?_
      rw [row?_run_other named] at found
      exact advanced' r found

/-- The next row is pending, so the claim takes it in hand, or it is gone with its vault. -/
theorem Between.claim (between : Between calm orphans rows (x :: xs) w) :
    (w.run (.claim x.id)).2 = 1 ∧ w.row? x.id = some x ∧
        InHand calm orphans rows xs x 0 (w.run (.claim x.id)).1 ∨
      (w.run (.claim x.id)).2 ≠ 1 ∧ Between calm orphans rows xs (w.run (.claim x.id)).1 := by
  obtain ⟨books, unique, progress⟩ := between
  obtain ⟨listed, pending, same⟩ := progress.todo x List.mem_cons_self
  have distinct := progress.distinct
  rw [List.map_cons, List.nodup_cons] at distinct
  have later : ∀ y ∈ xs, y.id ≠ x.id := fun y mem eq =>
    distinct.1 (eq ▸ List.mem_map_of_mem mem)
  have behind : Progress rows xs (fun id => id ≠ x.id) w := by
    refine ⟨progress.known, fun y mem => progress.todo y (List.mem_cons_of_mem x mem), distinct.2,
      fun y mem other => (progress.rest y mem trivial).imp_left fun next => ?_⟩
    exact (List.mem_cons.1 next).resolve_left fun eq => other (congrArg QueueRow.id eq)
  cases found : w.row? x.id with
  | some r =>
    cases same r found
    have allowed : QueueStmt.guard (.claim x.id) x = true := by simp [QueueStmt.guard, pending]
    have hit := row?_run_hit (.claim x.id) found allowed
    have settled := books.settled x.id x found (by simp)
    refine .inl ⟨run_affected (.claim x.id) found allowed, rfl, books.claimed found pending, unique,
      ⟨progress.known, fun y mem => ?_, distinct.2, fun y mem other => ?_⟩, listed, later,
      fun r found' => ?_, fun calm => (settled.counted calm).symm,
      fun single => settled.due single pending, settled.room pending⟩
    · obtain ⟨listed', pending', same'⟩ := behind.todo y mem
      refine ⟨listed', pending', fun r found' => same' r ?_⟩
      rwa [row?_run_other (later y mem)] at found'
    · refine (behind.rest y mem other).imp_right fun advanced r found' => advanced r ?_
      rwa [row?_run_other other] at found'
    · exact Option.some.inj (found'.symm.trans hit)
  | none =>
    -- the row is not there to be taken, now or later
    have missed := beside_missed (.claim x.id) found
    refine .inr ⟨fun one => ?_, books.beside missed, unique, ?_⟩
    · obtain ⟨r, there, -⟩ :=
        (KeyedTable.affected_eq_one_iff w.rows x.id (QueueStmt.guard (.claim x.id))).1 one
      exact absurd (found.symm.trans there) (by simp)
    · have behind := behind.beside missed
      refine ⟨behind.known, behind.todo, behind.distinct, fun y mem _ => ?_⟩
      by_cases other : y.id = x.id
      · refine .inr fun r there => ?_
        rw [other] at there
        exact absurd (found.symm.trans (missed.known (progress.known x listed) there)) (by simp)
      · exact behind.rest y mem other

/-- A hand-off counts. -/
theorem InHand.handed (held : InHand calm orphans rows xs x n w) (first : calm → n = 0)
    (first' : x.isPush = false → n = 0) :
    InHand calm orphans rows xs x (n + 1) (w.handOver x.id) := by
  have room := held.room
  have books := held.books.handed
    (fun calm => by rw [held.count calm, first calm]; exact room)
    (fun r found single => by
      rw [held.row r found] at single
      have most := held.most single
      rw [first' single] at most
      omega)
  refine { held with
    books := books
    progress := ⟨held.progress.known, held.progress.todo, held.progress.distinct,
      held.progress.rest⟩
    row := held.row
    count := fun calm => ?_
    most := fun single => ?_ }
  · rw [handOffs_handOver, held.count calm, Nat.add_assoc]
  · rw [handOffs_handOver, ← Nat.add_assoc]
    exact Nat.succ_le_succ (held.most single)

/-- The bookkeeping closes the row: it counts one attempt, and what is tried again has one
left. -/
theorem InHand.closed {st : QueueStmt} (held : InHand calm orphans rows xs x n w)
    (closes : Closes calm x n w) (named : st.id = x.id) (book : st.isClaim = false)
    (attempts : (st.set { x with status := .sending }).attempts = x.attempts + 1)
    (again : (st.set { x with status := .sending }).status = .pending →
      x.attempts + 1 < maxAttempts) :
    Between calm orphans rows xs (w.run st).1 := by
  obtain ⟨allowed, ended, channel⟩ := QueueStmt.books st book { x with status := .sending }
  -- what is found afterwards is what the statement makes of the row in hand
  have after : ∀ r, (w.run st).1.row? x.id = some r →
      (∃ r₀, w.row? x.id = some r₀) ∧ r = st.set { x with status := .sending } := by
    intro r found
    obtain ⟨r₀, found₀⟩ := row?_of_run found
    have here : w.row? st.id = some { x with status := .sending } := by
      rw [named, found₀, held.row r₀ found₀]
    have hit := row?_run_hit st here allowed
    rw [named] at hit
    exact ⟨⟨r₀, found₀⟩, Option.some.inj (found.symm.trans hit)⟩
  have books : Ledger calm orphans (some st.id) w := named ▸ held.books
  refine ⟨books.closed fun r found => ?_, held.unique,
    held.progress.run (by rw [named]; exact held.later) (fun y mem same r found => ?_)
      (by rw [named]; exact fun id other => other)⟩
  · rw [named] at found ⊢
    obtain ⟨⟨r₀, found₀⟩, rfl⟩ := after r found
    have most : x.isPush = false → w.handOffs x.id ≤ x.attempts + 1 := fun single =>
      (held.most single).trans (Nat.add_le_add_left (closes.most single) _)
    refine ⟨fun _ => ended, fun calm => ?_, fun single => ?_, fun single _ => ?_, fun pending => ?_⟩
    · rw [attempts, held.count calm, closes.counted calm r₀ found₀]
    · exact (most (channel.symm.trans single)).trans held.room
    · rw [attempts]
      exact most (channel.symm.trans single)
    · rw [attempts]
      exact again pending
  · cases held.unique y mem x held.mem (same.trans named)
    obtain ⟨-, rfl⟩ := after r found
    unfold Advanced
    split
    · exact attempts
    · exact ended ‹_›
    · trivial
    · trivial

/-- How a round of the loop ends. -/
def RoundEnd (calm : Prop) (orphans : Nat → Prop) (rows xs : List QueueRow) (w : Queue)
    (h : History QueueAction QueueAction.Response) : Except DbError Unit → Prop
  | .ok _ => Between calm orphans rows xs w ∧ Heard rows xs h
  | .error _ => Ledger calm orphans none w

abbrev Round (N : Setup) (calm : Prop) (orphans : Nat → Prop) (rows xs : List QueueRow) :
    WorkerProg Unit → Queue → History QueueAction QueueAction.Response → Prop :=
  Safe (terms N calm orphans) QueueAction.perform (RoundEnd calm orphans rows xs)

theorem round_done (between : Between calm orphans rows xs w) (heard : Heard rows xs h) :
    Round N calm orphans rows xs (.done ()) w h := by
  intro w' beside
  have between := between.beside beside
  exact ⟨⟨none, between.books⟩, between, heard⟩

theorem round_fail {e : DbError} (books : Ledger calm orphans none w) :
    Round N calm orphans rows xs (.fail e) w h := by
  intro w' beside
  have books := books.beside beside
  exact ⟨⟨none, books⟩, books⟩

/-- The last statement of a round. -/
theorem round_book (st : QueueStmt) (held : InHand calm orphans rows xs x n w)
    (heard : Heard rows (x :: xs) h) (closes : Closes calm x n w) (named : st.id = x.id)
    (book : st.isClaim = false)
    (attempts : (st.set { x with status := .sending }).attempts = x.attempts + 1)
    (again : (st.set { x with status := .sending }).status = .pending →
      x.attempts + 1 < maxAttempts) :
    Round N calm orphans rows xs ((exec st).bind fun _ => .done ()) w h := by
  intro w' beside
  have closes := closes.beside beside held.sending.1
  have held := held.beside beside
  have sending : Sending w' st.id := named ▸ held.sending
  refine ⟨⟨_, held.books⟩, ⟨sending.1, fun _ => sending⟩, ?_⟩
  intro o r w'' answer granted
  rcases perform_exec answer with ⟨rfl, rfl⟩ | ⟨rfl, rfl⟩
  · -- a failed statement drops the row
    refine round_fail (held.books.dropped fun _ _ _ _ calm => ?_)
    have claim : st.isClaim = true := granted calm
    rw [book] at claim
    cases claim
  · refine round_done (held.closed closes named book attempts again) (heard.snoc
      (fun y mem => List.mem_cons_of_mem x mem) (by simp) fun y mem sentAt id same => ?_)
    -- the only row that is marked is the one in hand
    injection same with same
    exact held.later y mem (by rw [← named, same]; rfl)

/-- A row is given up, rightly if its one attempt is counted. -/
theorem round_markPermanent {err : String} (held : InHand calm orphans rows xs x n w)
    (heard : Heard rows (x :: xs) h) (closes : Closes calm x n w) :
    Round N calm orphans rows xs (markPermanent x.id err) w h :=
  round_book (.markPermanent x.id err) held heard closes rfl rfl rfl (by simp [QueueStmt.set])

/-- A row whose hand-off failed is tried again later, or given up. -/
theorem round_refused {e : SendError} (held : InHand calm orphans rows xs x n w)
    (heard : Heard rows (x :: xs) h) (closes : Closes calm x n w) :
    Round N calm orphans rows xs
      (if e.isPermanent ∨ x.attempts + 1 ≥ maxAttempts then markPermanent x.id e.text
        else reschedule x.id (x.attempts + 1) (backoffSecs (x.attempts + 1)) e.text) w h := by
  split
  · exact round_markPermanent held heard closes
  · next left =>
    intro w' beside
    have closes := closes.beside beside held.sending.1
    have held := held.beside beside
    refine ⟨⟨_, held.books⟩, trivial, fun o t w'' answer _ => ?_⟩
    cases answer
    refine round_book (.reschedule x.id (x.attempts + 1) _ e.text) held
      (heard.snoc (fun _ mem => mem) (by simp) (by simp)) closes rfl rfl rfl fun _ => ?_
    omega

/-- How a dispatch ends: it never fails, and the hand-offs it made are the attempt that is
to be booked. -/
def DispatchEnd {β : Type} (calm : Prop) (orphans : Nat → Prop) (rows xs : List QueueRow)
    (x : QueueRow) (w : Queue) (h : History QueueAction QueueAction.Response) :
    Except DbError β → Prop
  | .ok _ => ∃ n, InHand calm orphans rows xs x n w ∧ Heard rows (x :: xs) h ∧ Closes calm x n w
  | .error _ => False

abbrev Dispatch {β : Type} (N : Setup) (calm : Prop) (orphans : Nat → Prop)
    (rows xs : List QueueRow) (x : QueueRow) :
    WorkerProg β → Queue → History QueueAction QueueAction.Response → Prop :=
  Safe (terms N calm orphans) QueueAction.perform (DispatchEnd calm orphans rows xs x)

theorem dispatch_done {β : Type} {b : β} (held : InHand calm orphans rows xs x n w)
    (heard : Heard rows (x :: xs) h) (closes : Closes calm x n w) :
    Dispatch N calm orphans rows xs x (.done b) w h := by
  intro w' beside
  have closes := closes.beside beside held.sending.1
  have held := held.beside beside
  exact ⟨⟨_, held.books⟩, n, held, heard, closes⟩

/-- What was not handed over is booked as an attempt only where not all goes smoothly. -/
theorem dispatch_unsent {β : Type} {b : β} (held : InHand calm orphans rows xs x 0 w)
    (heard : Heard rows (x :: xs) h) (rough : ¬ calm) :
    Dispatch N calm orphans rows xs x (.done b) w h :=
  dispatch_done held heard ⟨fun calm => absurd calm rough, fun _ => Nat.zero_le 1⟩

theorem dispatch_map {β γ : Type} {p : WorkerProg β} (f : β → γ)
    (safe : Dispatch N calm orphans rows xs x p w h) :
    Dispatch N calm orphans rows xs x (p.bind fun b => .done (f b)) w h :=
  Safe.bind safe (fun _ _ _ ended => by
    obtain ⟨n, held, heard, closes⟩ := ended
    exact dispatch_done held heard closes) fun _ _ _ failed => failed.elim

/-- The relay and Twilio are asked once. -/
theorem dispatch_handOff {β : Type} {channel : Channel} {draft : DraftPayload}
    {f : Except Refusal (Option String) → WorkerProg β} (ends : ∀ answer, ∃ b, f answer = .done b)
    (held : InHand calm orphans rows xs x 0 w) (heard : Heard rows (x :: xs) h)
    (maySend : MaySend x.id h) :
    Dispatch N calm orphans rows xs x ((handOff x.id channel draft).bind f) w h := by
  intro w' beside
  have held := held.beside beside
  refine ⟨⟨_, held.books⟩, maySend, fun o answer w'' performed _ => ?_⟩
  cases performed
  obtain ⟨b, done⟩ := ends o.handOff
  have heard := heard.snoc (e := ⟨.handOff x.id channel draft, o.handOff⟩) (fun _ mem => mem)
    (by simp) (by simp)
  show Dispatch N calm orphans rows xs x (f o.handOff) _ _
  rw [done]
  exact dispatch_done (held.handed (fun _ => rfl) fun _ => rfl) heard
    ⟨fun _ _ _ => rfl, fun _ => Nat.le_refl 1⟩

theorem safe_sendEmail {draft : DraftPayload} (held : InHand calm orphans rows xs x 0 w)
    (heard : Heard rows (x :: xs) h) (maySend : MaySend x.id h)
    (builds : calm → N.builds x.id draft .email = true) :
    Dispatch N calm orphans rows xs x (sendEmail N x.id draft) w h := by
  unfold sendEmail
  cases built : N.buildEmail x.id draft with
  | error e =>
    refine dispatch_unsent held heard fun calm => ?_
    have builds := builds calm
    unfold Setup.builds at builds
    rw [built] at builds
    cases builds
  | ok messageId =>
    refine dispatch_handOff (fun answer => ?_) held heard maySend
    cases answer with
    | ok _ => exact ⟨_, rfl⟩
    | error _ => exact ⟨_, rfl⟩

theorem safe_sendTwilio {channel : Channel} {draft : DraftPayload}
    (held : InHand calm orphans rows xs x 0 w) (heard : Heard rows (x :: xs) h)
    (maySend : MaySend x.id h) (builds : calm → N.httpClient.isOk = true) :
    Dispatch N calm orphans rows xs x (sendTwilio N channel x.id draft) w h := by
  unfold sendTwilio
  cases built : N.httpClient with
  | error e =>
    refine dispatch_unsent held heard fun calm => ?_
    have builds := builds calm
    rw [built] at builds
    cases builds
  | ok _ =>
    refine dispatch_handOff (fun answer => ?_) held heard maySend
    cases answer with
    | ok _ => exact ⟨_, rfl⟩
    | error _ => exact ⟨_, rfl⟩

/-- How the loop over the subscriptions ends: calm ones were posted to `total` in all. -/
def PushEnd (calm : Prop) (orphans : Nat → Prop) (rows xs : List QueueRow) (x : QueueRow)
    (total : Nat) (w : Queue) (h : History QueueAction QueueAction.Response) :
    Except DbError (Nat × Option String) → Prop
  | .ok _ => ∃ n, InHand calm orphans rows xs x n w ∧ Heard rows (x :: xs) h ∧ (calm → n = total)
  | .error _ => False

/-- A post to one subscription. -/
theorem InHand.pushed {sub : SubscriptionRow} {body : String} {o : Fate} {outcome : PushOutcome}
    (held : InHand calm orphans rows xs x n w) (push : x.isPush = true)
    (first : calm → n = 0)
    (performed : QueueAction.perform (.push x.id sub body) o w = (outcome, w'))
    (granted : calm → smoothAction N w ⟨.push x.id sub body, outcome⟩ = true) :
    ∃ n', InHand calm orphans rows xs x n' w' ∧ (calm → n' = n + 1) := by
  rcases perform_push performed with ⟨⟨e, rfl⟩, rfl⟩ | ⟨-, rfl⟩
  · exact ⟨n, held, fun calm => absurd (granted calm) (by simp [smoothAction])⟩
  · refine ⟨n + 1, held.handed first fun single => ?_, fun _ => rfl⟩
    rw [push] at single
    cases single

/-- The loop over the subscriptions, by induction on those still to come. -/
theorem safe_pushEach {body : String} {total : Nat} (push : x.isPush = true)
    (few : calm → total ≤ 1) :
    ∀ (subs : List SubscriptionRow) (n delivered : Nat) (lastErr : Option String) (w : Queue)
      (h : History QueueAction QueueAction.Response), InHand calm orphans rows xs x n w →
      Heard rows (x :: xs) h → MaySend x.id h → (calm → n + subs.length = total) →
      Safe (terms N calm orphans) QueueAction.perform (PushEnd calm orphans rows xs x total)
        (pushEach x.id body subs delivered lastErr) w h
  | [], n, delivered, lastErr, w, h, held, heard, _, whole => by
    intro w' beside
    have held := held.beside beside
    exact ⟨⟨_, held.books⟩, n, held, heard, whole⟩
  | sub :: subs, n, delivered, lastErr, w, h, held, heard, maySend, whole => by
    intro w' beside
    have held := held.beside beside
    refine ⟨⟨_, held.books⟩, maySend, fun o outcome w'' performed granted => ?_⟩
    -- where all goes smoothly there is one subscription, so this is the first POST
    have first : calm → n = 0 := fun calm => by
      have few := few calm
      have whole := whole calm
      rw [List.length_cons] at whole
      omega
    obtain ⟨n', held', one_more⟩ := held.pushed push first performed granted
    have whole : calm → n' + subs.length = total := fun calm => by
      have whole := whole calm
      rw [List.length_cons] at whole
      rw [one_more calm]
      omega
    have heard' := heard.snoc (e := ⟨.push x.id sub body, outcome⟩) (fun _ mem => mem) (by simp)
      (by simp)
    have maySend' := maySend.snoc (e := ⟨.push x.id sub body, outcome⟩) (by simp)
    show Safe _ _ _ (match outcome.result with
      | .ok _ => pushEach x.id body subs (delivered + 1) lastErr
      | .error .gone => .act (.prune sub.id) fun _ => pushEach x.id body subs delivered lastErr
      | .error e => pushEach x.id body subs delivered (some (pushErrorText e))) _ _
    -- a subscription that is gone is pruned on the way
    cases outcome.result with
    | ok _ => exact safe_pushEach push few subs n' _ _ _ _ held' heard' maySend' whole
    | error e =>
      cases e with
      | transient | permanent =>
        exact safe_pushEach push few subs n' _ _ _ _ held' heard' maySend' whole
      | gone =>
        intro v beside
        have held' := held'.beside beside
        refine ⟨⟨_, held'.books⟩, trivial, fun o' answer v' performed' _ => ?_⟩
        exact safe_pushEach push few subs n' _ _ _ _ (held'.beside (beside_prune performed'))
          (heard'.snoc (fun _ mem => mem) (by simp) (by simp)) (maySend'.snoc (by simp)) whole

theorem safe_sendWebpush {draft : DraftPayload} (held : InHand calm orphans rows xs x 0 w)
    (heard : Heard rows (x :: xs) h) (maySend : MaySend x.id h) (push : x.isPush = true) :
    Dispatch N calm orphans rows xs x (sendWebpush N x draft) w h := by
  intro w' beside
  have held := held.beside beside
  refine ⟨⟨_, held.books⟩, trivial, fun o found w'' performed granted => ?_⟩
  have performed : ((if o.dbFails then .error .unavailable else .ok (w'.subscriptionsOf x.vaultId) :
    Except DbError (List SubscriptionRow)), w') = (found, w'') := performed
  have same : w' = w'' := congrArg Prod.snd performed
  subst same
  have heard := heard.snoc (e := ⟨.subscriptions x.id x.vaultId, found⟩) (fun _ mem => mem)
    (by simp) (by simp)
  have maySend := maySend.snoc (e := ⟨.subscriptions x.id x.vaultId, found⟩) (by simp)
  have lone : calm → lone w' x.id found = true := granted
  cases found with
  | error e =>
    exact dispatch_unsent held heard fun calm => absurd (lone calm) (by simp [Notifier.lone])
  | ok subs =>
    cases subs with
    | nil =>
      -- no subscription is left of a vault that is gone
      refine dispatch_done held heard ⟨fun calm r there => ?_, fun _ => Nat.zero_le 1⟩
      have gone := lone calm
      unfold Notifier.lone at gone
      dsimp only at gone
      rw [there] at gone
      cases gone
    | cons sub subs =>
      have one : calm → subs = [] := by
        intro calm
        have lone := lone calm
        cases subs with
        | nil => rfl
        | cons => simp [Notifier.lone] at lone
      have few : calm → (sub :: subs).length ≤ 1 := fun calm => by simp [one calm]
      refine Safe.bind (safe_pushEach push few (sub :: subs) 0 0 none w' _ held heard maySend
        fun _ => by simp) (fun v g a ended => ?_) fun _ _ _ failed => failed.elim
      obtain ⟨n, held, heard, total⟩ := ended
      have closes : Closes calm x n v := by
        refine ⟨fun calm _ _ => ?_, fun single => ?_⟩
        · rw [total calm, one calm]
          rfl
        · rw [push] at single
          cases single
      split
      · exact dispatch_done held heard closes
      · exact dispatch_done held heard closes

/-- The dispatch hands the row over as often as is to be booked. -/
theorem safe_dispatchSend {channel : Channel} {draft : DraftPayload}
    (held : InHand calm orphans rows xs x 0 w) (heard : Heard rows (x :: xs) h)
    (maySend : MaySend x.id h) (known : Channel.fromStr x.channel = some channel)
    (able : calm → N.backends.channelDeliverable channel = true ∧
      N.builds x.id draft channel = true) :
    Dispatch N calm orphans rows xs x (dispatchSend N channel x draft) w h := by
  -- a channel without a backend is not deliverable
  have unable (missing : N.backends.channelDeliverable channel ≠ true) :
      Dispatch N calm orphans rows xs x
        (.done (none : Option (Except SendError (Option String)))) w h :=
    dispatch_unsent held heard fun calm => missing (able calm).1
  unfold dispatchSend
  cases channel with
  | email =>
    dsimp only
    split
    · exact dispatch_map some (safe_sendEmail held heard maySend fun calm => (able calm).2)
    · exact unable (by assumption)
  | webPush =>
    have push : x.isPush = true := by
      unfold QueueRow.isPush
      rw [known]
      rfl
    dsimp only
    split
    · exact dispatch_map (fun r => some (r.map fun _ => none))
        (safe_sendWebpush held heard maySend push)
    · exact unable (by assumption)
  | sms =>
    dsimp only
    cases twilio : N.backends.twilio with
    | none => exact unable (by simp [Backends.channelDeliverable, twilio])
    | some cfg =>
      dsimp only
      cases sender : cfg.senderFor .sms with
      | none => exact unable (by simp [Backends.channelDeliverable, twilio, sender])
      | some _ =>
        exact dispatch_map some (safe_sendTwilio held heard maySend fun calm => (able calm).2)
  | whatsapp =>
    dsimp only
    cases twilio : N.backends.twilio with
    | none => exact unable (by simp [Backends.channelDeliverable, twilio])
    | some cfg =>
      dsimp only
      cases sender : cfg.senderFor .whatsapp with
      | none => exact unable (by simp [Backends.channelDeliverable, twilio, sender])
      | some _ =>
        exact dispatch_map some (safe_sendTwilio held heard maySend fun calm => (able calm).2)

/-- One row, from its claim to its bookkeeping. -/
theorem safe_handleRow (between : Between calm orphans rows (x :: xs) w)
    (heard : Heard rows (x :: xs) h) : Round N calm orphans rows xs (handleRow N t x) w h := by
  intro w' beside
  have between := between.beside beside
  have old := between.progress.known x (between.progress.todo x List.mem_cons_self).1
  refine ⟨⟨none, between.books⟩, ⟨old, by simp [QueueStmt.isClaim]⟩, ?_⟩
  intro o r w'' answer granted
  rcases perform_exec answer with ⟨rfl, rfl⟩ | ⟨rfl, rfl⟩
  · exact round_fail between.books
  rcases between.claim with ⟨one, found, held⟩ | ⟨not_one, between⟩
  · rw [one] at granted ⊢
    have sendable : calm → N.sendable x = true := by
      intro calm
      have smooth : (w'.row? x.id).all N.sendable = true := granted calm
      rw [found] at smooth
      exact smooth
    have maySend : MaySend x.id (h ++ [⟨.exec (.claim x.id), .ok 1⟩]) := by
      refine ⟨by simp, fun e mem sentAt providerId => ?_⟩
      rcases List.mem_append.1 mem with earlier | last
      · exact heard.unmarked x List.mem_cons_self e earlier sentAt providerId
      · rw [List.mem_singleton] at last
        simp [last]
    have heard := heard.snoc (e := ⟨.exec (.claim x.id), .ok 1⟩) (fun _ mem => mem) (by simp)
      (by simp)
    -- what cannot be opened or has no known channel is given up without a hand-off
    have unsent : ∀ err, ¬ calm → Round N calm orphans rows xs
        (markPermanent x.id err) (w'.run (.claim x.id)).1 _ := fun err rough =>
      round_markPermanent held heard ⟨fun calm => absurd calm rough, fun _ => Nat.zero_le 1⟩
    show Round N calm orphans rows xs (match N.decryptDraft x with
      | .error e => markPermanent x.id ("decrypt: " ++ e)
      | .ok draft => _) _ _
    unfold Setup.sendable at sendable
    cases opened : N.decryptDraft x with
    | error e =>
      refine unsent _ fun calm => ?_
      have sendable := sendable calm
      rw [opened] at sendable
      cases sendable
    | ok draft =>
      rw [opened] at sendable
      dsimp only
      cases known : Channel.fromStr x.channel with
      | none =>
        refine unsent _ fun calm => ?_
        have sendable := sendable calm
        rw [known] at sendable
        cases sendable
      | some channel =>
        rw [known] at sendable
        have able : calm → N.backends.channelDeliverable channel = true ∧
            N.builds x.id draft channel = true := fun calm => by
          have sendable := sendable calm
          dsimp only at sendable
          rwa [Bool.and_eq_true] at sendable
        refine Safe.bind (safe_dispatchSend held heard maySend known able)
          (fun v g outcome ended => ?_) fun _ _ _ failed => failed.elim
        obtain ⟨n, held, heard, closes⟩ := ended
        cases outcome with
        | none => exact round_markPermanent held heard closes
        | some sent =>
          cases sent with
          | ok providerId =>
            exact round_book (.markSent x.id t providerId) held heard closes rfl rfl rfl
              (by simp [QueueStmt.set])
          | error e => exact round_refused held heard closes
  · -- another statement took the row or its vault is gone
    have skipped : ∀ p : WorkerProg Unit, Round N calm orphans rows xs
        (if (w'.run (.claim x.id)).2 ≠ 1 then .done () else p) (w'.run (.claim x.id)).1
        (h ++ [⟨.exec (.claim x.id), .ok (w'.run (.claim x.id)).2⟩]) := by
      intro p
      rw [if_pos not_one]
      exact round_done between (heard.snoc (fun y mem => List.mem_cons_of_mem x mem) (by simp)
        (by simp))
    exact skipped _


end Row

/-! ## §7 One tick -/

section Tick

variable {N : Setup} {calm : Prop} {orphans : Nat → Prop} {w : Queue}

/-- How a tick ends: no row is in hand, and if it went through it has dealt with every row
it found due that is still there. -/
def TickEnd (calm : Prop) (orphans : Nat → Prop) (w : Queue)
    (h : History QueueAction QueueAction.Response) (r : Except DbError Unit) : Prop :=
  Ledger calm orphans none w ∧ (r = .ok () → ∀ t rows,
    (⟨.due t, .ok rows⟩ : Event QueueAction QueueAction.Response) ∈ h →
      ∀ x ∈ rows, ∀ r, w.row? x.id = some r → Advanced x r)

/-- What a tick finds due is all still to come. -/
theorem between_dueRows (books : Ledger calm orphans none w) (t : Instant) :
    Between calm orphans (w.dueRows t) (w.dueRows t) w := by
  refine ⟨books, fun x mem y mem' same => ?_, ⟨fun x mem => ?_, fun x mem => ?_,
    nodup_dueRows w t, fun y mem _ => .inl mem⟩⟩
  · exact List.inj_on_of_nodup_map (nodup_dueRows w t) mem mem' same
  · exact books.known x.id x (row?_of_due mem).1
  · obtain ⟨found, pending⟩ := row?_of_due mem
    exact ⟨mem, pending, fun r found' => Option.some.inj (found'.symm.trans found)⟩

theorem safe_tickOnce (books : Ledger calm orphans none w) :
    Safe (terms N calm orphans) QueueAction.perform (TickEnd calm orphans) (tickOnce N) w [] := by
  intro w₁ beside
  have books := books.beside beside
  refine ⟨⟨none, books⟩, trivial, fun o t w₁' answer _ => ?_⟩
  cases answer
  intro w₂ beside
  have books := books.beside beside
  refine ⟨⟨none, books⟩, trivial, fun o answer w₂' performed _ => ?_⟩
  have performed : ((if o.dbFails then .error .unavailable else .ok (w₂.dueRows w₁.clock) :
    Except DbError (List QueueRow)), w₂) = (answer, w₂') := performed
  cases performed
  cases o.dbFails with
  | true =>
    intro w₃ beside
    have books := books.beside beside
    exact ⟨⟨none, books⟩, books, by simp⟩
  | false =>
    -- the loop, whose assertion speaks of the rows still to come
    let rows := w₂.dueRows w₁.clock
    show Safe _ _ _ (forEach rows (handleRow N w₁.clock)) _ _
    refine Safe.forEach (L := fun xs w h => Between calm orphans rows xs w ∧ Heard rows xs h)
      (fun x xs w h here => ?_) (fun w h here w' beside => ?_) rows _ _ ⟨?_, ?_⟩
    · refine (safe_handleRow here.1 here.2).weaken fun w h r ended => ?_
      cases r with
      | ok _ => exact ended
      | error e => exact ⟨ended, by simp⟩
    · obtain ⟨between, heard⟩ := here
      have between := between.beside beside
      refine ⟨⟨none, between.books⟩, between.books, fun _ t rows' mem x listed => ?_⟩
      rw [heard.read t rows' mem] at listed
      exact (between.progress.rest x listed trivial).resolve_left List.not_mem_nil
    · exact between_dueRows books w₁.clock
    · refine ⟨fun t rows' mem => ?_, fun x _ e mem => ?_⟩
      · rcases List.mem_append.1 mem with clock | read
        · cases List.mem_singleton.1 clock
        · rw [List.mem_singleton] at read
          cases read
          rfl
      · rcases List.mem_append.1 mem with clock | read
        · cases List.mem_singleton.1 clock
          simp
        · rw [List.mem_singleton.1 read]
          simp

/-- The worker works alone, and leaves no row in hand unless it is dropped. -/
theorem solo (N : Setup) (calm : Prop) (orphans : Nat → Prop) :
    Solo (worker N) (terms N calm orphans) (Ledger calm orphans none)
      (fun s => calm → smooth N s = true) (TickEnd calm orphans) where
  alone _ running allowed := List.isEmpty_iff.1 allowed
  starts _ _ books := safe_tickOnce books
  ends _ _ _ ended := ended.1
  inv _ books := ⟨none, books⟩
  grants s i e cond label calm := by
    have smooth := cond calm
    unfold Notifier.smooth at smooth
    rwa [label] at smooth
  drifts := beside_drift
  rests d w books := books.beside (beside_drift d w)
  halts s cond label := by
    rintro ⟨busy, books⟩
    refine books.dropped fun id r held found calm => ?_
    have smooth := cond calm
    unfold Notifier.smooth at smooth
    rw [label] at smooth
    have other := List.all_eq_true.1 smooth r (KeyedTable.find?_mem found)
    simp [(books.inHand id r held found).1] at other

end Tick

/-! ## §8 The promises -/

section Promises

variable {N : Setup} {t₀ : Instant} {tr tr' : QueueTrace} {c c' : QueueConfig} {s t : QueueStep}
variable {j k id : Nat}

theorem idle_boot (w : Queue) : (System.boot w : QueueConfig).Idle := by
  intro i q p at_i
  simp [System.boot] at at_i

theorem ledger_start (calm : Prop) (t₀ : Instant) :
    Ledger calm (fun _ => False) none (Queue.start t₀) := by
  refine ⟨fun id r found _ => ?_, by simp, by simp, fun id r found => ?_, fun id _ => rfl,
    fun _ id => Nat.zero_le _, fun id gone => gone.elim⟩
  · cases found
  · cases found

/-- The books of the run, as far as it went smoothly. -/
theorem books_of_run (calm : Prop) (run : Run (worker N) (System.boot (Queue.start t₀)) tr c)
    (cond : calm → ∀ s ∈ tr, smooth N s = true) :
    (∃ busy, Ledger calm (fun _ => False) busy c.world) ∧
      (c.Idle → Ledger calm (fun _ => False) none c.world) :=
  run.solo (solo N calm fun _ => False) (idle_boot _) (ledger_start calm t₀)
    fun s mem calm => cond calm s mem

/-- What the worker owes before an action, in any run. -/
theorem owed_at (run : Run (worker N) (System.boot (Queue.start t₀)) tr c)
    (at_k : tr[k]? = some s) {i : Nat} {e : Event QueueAction QueueAction.Response}
    (label : s.label = .acted i e) :
    (terms N False fun _ => False).owes s.before (history i k tr) e.action := by
  rw [split_at at_k] at run
  exact run.solo_acted (solo N False fun _ => False) (idle_boot _) (ledger_start False t₀)
    (fun s mem => False.elim) label

/-- What one step does to the rows: a statement runs, the environment moves, or nothing. -/
theorem step_cases (explains : (worker N).Explains s) :
    (∃ i st, s.label = .acted i ⟨.exec st, .ok (s.before.run st).2⟩ ∧
      s.after = (s.before.run st).1) ∨
    (∃ d, s.label = .drifted d ∧ s.after = d.apply s.before) ∨
    s.after.rows = s.before.rows ∧ s.after.lastId = s.before.lastId := by
  unfold System.Explains at explains
  split at explains
  · next i e label =>
    obtain ⟨a, answer⟩ := e
    obtain ⟨o, performed⟩ := explains
    -- one case per action: a statement, or something that leaves the rows
    cases a with
    | now | due | subscriptions =>
      rw [show s.after = s.before from (congrArg Prod.snd performed).symm]
      exact .inr (.inr ⟨rfl, rfl⟩)
    | handOff id' channel draft =>
      rw [show s.after = s.before.handOver id' from (congrArg Prod.snd performed).symm]
      exact .inr (.inr ⟨rfl, rfl⟩)
    | push id' sub body =>
      refine .inr (.inr ?_)
      rcases perform_push performed with ⟨-, same⟩ | ⟨-, handed⟩
      · rw [same]
        exact ⟨rfl, rfl⟩
      · rw [handed]
        exact ⟨rfl, rfl⟩
    | prune subId =>
      obtain ⟨-, lastId, rows⟩ := perform_prune performed
      exact .inr (.inr ⟨rows, lastId⟩)
    | exec st =>
      rcases perform_exec performed with ⟨-, same⟩ | ⟨rfl, after⟩
      · rw [same]
        exact .inr (.inr ⟨rfl, rfl⟩)
      · exact .inl ⟨i, st, label, after⟩
  · next d label => exact .inr (.inl ⟨d, label, explains⟩)
  · rw [explains]
    exact .inr (.inr ⟨rfl, rfl⟩)
  · rw [explains]
    exact .inr (.inr ⟨rfl, rfl⟩)

/-- The environment removes a row only with its vault. -/
theorem row?_drift {r : QueueRow} {w : Queue} (found : w.row? id = some r) (d : QueueDrift) :
    d = .deleteVault r.vaultId ∨ (d.apply w).row? id = some r := by
  cases d with
  | pass d => exact .inr found
  | unsubscribe vaultId endpoint => exact .inr found
  | subscribe vaultId endpoint p256dh auth =>
    refine .inr ?_
    unfold QueueDrift.apply QueueDrift.applySubscribe
    dsimp only
    split
    · split
      · exact found
      · exact found
    · exact found
  -- the cascade
  | deleteVault vaultId =>
    by_cases same : vaultId = r.vaultId
    · exact .inl (by rw [same])
    · refine .inr ?_
      show (w.rows.delete fun r => r.vaultId = vaultId).find? id = some r
      rw [KeyedTable.find?_delete, show w.rows.find? id = some r from found]
      simp [Ne.symm same]
  | enqueue vaultId channel rcptCt rcptNn subjCt subjNn bodyCt bodyNn =>
    refine .inr ?_
    unfold QueueDrift.apply QueueDrift.applyEnqueue
    dsimp only
    split
    · next rows inserted =>
      -- a new row takes an id that nobody has
      have absent := KeyedTable.find?_eq_none_of_insert? inserted
      show rows.find? id = some r
      rw [KeyedTable.find?_insert? inserted id]
      split
      · next same =>
        rw [← same] at absent
        exact absurd (absent.symm.trans found) (by simp)
      · exact found
    · exact found

/-- A row stays, under its vault, until the vault is deleted. -/
theorem row_after {r : QueueRow} (explains : (worker N).Explains s)
    (found : s.before.row? id = some r) :
    s.label = .drifted (.deleteVault r.vaultId) ∨
      ∃ r', s.after.row? id = some r' ∧ r'.vaultId = r.vaultId := by
  rcases step_cases explains with ⟨i, st, -, after⟩ | ⟨d, label, after⟩ | ⟨rows, -⟩
  · refine .inr ⟨if decide (r.id = st.id) && st.guard r then st.set r else r, ?_, ?_⟩
    · rw [after, row?_run, found]
      rfl
    · split
      · cases st <;> rfl
      · rfl
  · rcases row?_drift found d with rfl | still
    · exact .inl label
    · exact .inr ⟨r, by rw [after]; exact still, rfl⟩
  · refine .inr ⟨r, ?_, rfl⟩
    unfold Queue.row? at found ⊢
    rwa [rows]

/-- No row is lost, but with its vault. -/
theorem kept_of_run {r : QueueRow} (run : Run (worker N) (System.boot (Queue.start t₀)) tr c)
    (at_k : tr[k]? = some s) (found : s.before.row? id = some r) :
    (∃ r', c.world.row? id = some r') ∨
      ∃ m t, k ≤ m ∧ tr[m]? = some t ∧ t.label = .drifted (.deleteVault r.vaultId) := by
  by_contra lost
  rw [not_or] at lost
  obtain ⟨gone, undeleted⟩ := lost
  -- from `k` on every step keeps the row
  have kept : ∀ m t, k ≤ m → tr[m]? = some t →
      (∃ r', t.before.row? id = some r' ∧ r'.vaultId = r.vaultId) →
      ∃ r', t.after.row? id = some r' ∧ r'.vaultId = r.vaultId := by
    intro m t le at_m
    rintro ⟨r', here, same⟩
    rcases row_after (run.explains_at at_m) here with deleted | ⟨r'', there, same'⟩
    · rw [same] at deleted
      exact absurd ⟨m, t, le, at_m, deleted⟩ undeleted
    · exact ⟨r'', there, same'.trans same⟩
  obtain ⟨r', there, -⟩ := run.since_end
    (P := fun w => ∃ r', w.row? id = some r' ∧ r'.vaultId = r.vaultId) at_k
    (kept k s (Nat.le_refl k) at_k ⟨r, found, rfl⟩)
    fun m t later at_m here => kept m t (Nat.le_of_lt later) at_m here
  exact gone ⟨r', there⟩

/-- The row was sent, and is still so if it is there. -/
def SentOrGone (id : Nat) (w : Queue) : Prop :=
  id ≤ w.lastId ∧ ∀ r, w.row? id = some r → r.status = .sent

/-- What is sent stays sent: the statements that would say otherwise are owed a row that is
being sent. -/
theorem sent_stays (run : Run (worker N) (System.boot (Queue.start t₀)) tr c)
    (at_k : tr[k]? = some s) (sent : SentOrGone id s.before) : SentOrGone id s.after := by
  obtain ⟨old, sent⟩ := sent
  rcases step_cases (run.explains_at at_k) with ⟨i, st, label, after⟩ | ⟨d, -, after⟩ | ⟨rows, last⟩
  · rw [after]
    refine ⟨old, fun r found => ?_⟩
    by_cases other : id = st.id
    · subst other
      obtain ⟨r₀, found₀⟩ := row?_of_run found
      have sent₀ := sent r₀ found₀
      cases st with
      | claim id' =>
        -- a claim asks for a pending row
        rw [row?_run, found₀] at found
        simp [QueueStmt.guard, sent₀] at found
        rw [← found]
        exact sent₀
      | markPermanent | reschedule | markSent =>
        have sending := ((owed_at run at_k label).2 rfl).2 r₀ found₀
        rw [sent₀] at sending
        cases sending
    · rw [row?_run_other other] at found
      exact sent r found
  · rw [after]
    have beside := beside_drift d s.before
    exact ⟨old.trans beside.grown, fun r found => sent r (beside.known old found)⟩
  · refine ⟨last ▸ old, fun r found => sent r ?_⟩
    unfold Queue.row? at found ⊢
    rwa [rows] at found

/-- A row is sent when it was marked so. -/
theorem sent_marked (run : Run (worker N) (System.boot (Queue.start t₀)) tr c)
    (at_k : tr[k]? = some s) {i n : Nat} {sentAt : Instant} {providerId : Option String}
    (label : s.label = .acted i ⟨.exec (.markSent id sentAt providerId), .ok n⟩) :
    SentOrGone id s.after := by
  have owed := owed_at run at_k label
  have explains := run.explains_at at_k
  unfold System.Explains at explains
  rw [label] at explains
  obtain ⟨o, performed⟩ := explains
  rcases perform_exec performed with ⟨failed, -⟩ | ⟨-, after⟩
  · cases failed
  · rw [after]
    refine ⟨owed.1, fun r found => ?_⟩
    obtain ⟨r₀, found₀⟩ := row?_of_run found
    have hit := row?_run_hit (.markSent id sentAt providerId) found₀ rfl
    rw [Option.some.inj (found.symm.trans hit)]
    rfl

/-- A claim takes a pending row. -/
theorem claimed_pending (run : Run (worker N) (System.boot (Queue.start t₀)) tr c)
    (at_k : tr[k]? = some s) {i : Nat} (label : s.label = .acted i ⟨.exec (.claim id), .ok 1⟩) :
    ∃ r, s.before.row? id = some r ∧ r.status = .pending := by
  have explains := run.explains_at at_k
  unfold System.Explains at explains
  rw [label] at explains
  obtain ⟨o, performed⟩ := explains
  rcases perform_exec performed with ⟨failed, -⟩ | ⟨one, -⟩
  · cases failed
  · have one : (s.before.run (.claim id)).2 = 1 := (Except.ok.inj one).symm
    obtain ⟨r, found, pending⟩ := (KeyedTable.affected_eq_one_iff s.before.rows id
      (QueueStmt.guard (.claim id))).1 one
    exact ⟨r, found, by simpa [QueueStmt.guard] using pending⟩

/-- Who hands a row over has claimed it, and has not marked it as sent. -/
theorem maySend_of_handsOver (run : Run (worker N) (System.boot (Queue.start t₀)) tr c)
    (at_k : tr[k]? = some s) (hands : HandsOver id s) :
    ∃ i e, s.label = .acted i e ∧ MaySend id (history i k tr) := by
  rcases hands with ⟨channel, draft, answer, i, label⟩ | ⟨sub, body, answer, i, label⟩
  · exact ⟨i, _, label, owed_at run at_k label⟩
  · exact ⟨i, _, label, owed_at run at_k label⟩

/-- What was marked as sent is not handed over again. -/
theorem never_handed_again (run : Run (worker N) (System.boot (Queue.start t₀)) tr c)
    (lt : j < k) (at_j : tr[j]? = some s) (at_k : tr[k]? = some t) {sentAt : Instant}
    {providerId : Option String} {n : Nat}
    (marked : Acted (.exec (.markSent id sentAt providerId)) (.ok n) s) : ¬ HandsOver id t := by
  intro hands
  obtain ⟨i, marked⟩ := marked
  obtain ⟨i', e, handed, maySend⟩ := maySend_of_handsOver run at_k hands
  obtain ⟨m, u, m_lt, at_m, claimed⟩ := mem_history.1 maySend.claimed
  rcases Nat.lt_trichotomy j m with after | same | before
  · -- a row that is sent is not claimed
    obtain ⟨r, found, pending⟩ := claimed_pending run at_m claimed
    have sent := run.since (P := SentOrGone id) at_j (sent_marked run at_j marked)
      (fun n u _ _ at_n here => sent_stays run at_n here) after at_m
    rw [sent.2 r found] at pending
    cases pending
  -- one step does not both claim and mark
  · rw [same, at_m] at at_j
    cases at_j
    rw [claimed] at marked
    cases marked
  · -- nobody else works between a claim and its hand-over
    by_cases mine : i = i'
    · subst mine
      exact maySend.unmarked _ (mem_history.2 ⟨j, s, lt, at_j, marked⟩) _ _ rfl
    · obtain ⟨⟨⟩, started⟩ := run.started_acted at_m claimed
      obtain ⟨⟨⟩, started'⟩ := run.started_acted at_j marked
      have ended := run.ended_before (fun running mem => by
        cases running with
        | nil => cases mem
        | cons => rfl) before at_j marked started started' (Ne.symm mine)
      exact (run.silent_at at_k (Nat.le_of_lt lt) ended).1 e handed

/-- A tick that goes through has dealt with what it found due. -/
theorem dealt_at (run : Run (worker N) (System.boot (Queue.start t₀)) tr c)
    (at_k : tr[k]? = some s) {i : Nat} (label : s.label = .returned i (.ok ())) {u : Instant}
    {rows : List QueueRow}
    (read : (⟨.due u, .ok rows⟩ : Event QueueAction QueueAction.Response) ∈ history i k tr) :
    ∀ x ∈ rows, ∀ r, s.before.row? x.id = some r → Advanced x r := by
  rw [split_at at_k] at run
  have ended := run.solo_returned (solo N False fun _ => False) (idle_boot _)
    (ledger_start False t₀) (fun s mem => False.elim) label
  exact ended.2 rfl u rows read

/-- The promises, in the runs in which no row is dropped and all can be sent. -/
theorem queueHolds_of_smooth (run : Run (worker N) (System.boot (Queue.start t₀)) tr c)
    (calm : ∀ s ∈ tr, smooth N s = true) :
    QueueHolds N tr c ∧ (c.Idle → ∀ id r, c.world.row? id = some r → r.status ≠ .sending) := by
  obtain ⟨⟨busy, books⟩, at_rest⟩ := books_of_run True run fun _ => calm
  have none_dropped : c.Idle → ∀ id r, c.world.row? id = some r → r.status ≠ .sending :=
    fun idle id r found => ((at_rest idle).settled id r found (by simp)).resting trivial
  refine ⟨⟨?_, ?_, ?_, books.atMost trivial, ?_, ?_⟩, none_dropped⟩
  · intro k s id r at_k found
    exact kept_of_run run at_k found
  · intro idle id r found sending
    exact absurd sending (none_dropped idle id r found)
  · intro k s i at_k label u rows read
    exact dealt_at run at_k label read
  · intro j k s t id sentAt providerId n lt at_j at_k marked
    exact never_handed_again run lt at_j at_k marked
  · intro id r found other
    have free : busy ≠ some id := fun held => other (books.inHand id r held found).1
    exact (books.settled id r found free).counted trivial

/-- However the run goes, no row in the queue is handed over more than `maxAttempts` times,
but a push. -/
theorem handOffs_le {r : QueueRow} (run : Run (worker N) (System.boot (Queue.start t₀)) tr c)
    (found : c.world.row? id = some r) (single : r.isPush = false) :
    c.world.handOffs id ≤ maxAttempts := by
  obtain ⟨⟨busy, books⟩, -⟩ := books_of_run False run False.elim
  by_cases held : busy = some id
  · exact (books.inHand id r held found).2 single
  · exact (books.settled id r found held).most single

/-- A row that was dropped while being sent is never taken up again. -/
theorem stuck_forever {r : QueueRow}
    (run : Run (worker N) (System.boot (Queue.start t₀)) tr c) (idle : c.Idle)
    (found : c.world.row? id = some r) (sending : r.status = .sending)
    (later : Run (worker N) c tr' c') {r' : QueueRow} (found' : c'.world.row? id = some r') :
    r'.status = .sending := by
  have books := (books_of_run False run False.elim).2 idle
  have orphaned : Ledger False (fun id' => id' = id) none c.world := by
    refine { books with stays := ?_ }
    rintro id' rfl
    refine ⟨by simp, books.known id' r found, fun r₀ found₀ => ?_⟩
    rw [Option.some.inj (found₀.symm.trans found)]
    exact sending
  obtain ⟨⟨busy, after⟩, -⟩ := later.solo (solo N False fun id' => id' = id) idle orphaned
    fun s mem => False.elim
  exact (after.stays id rfl).2.2 r' found'

end Promises

/-! ## §9 The dropped claim -/

section Dropped

/-- A relay for mail and nothing else; what is sealed is the text itself. -/
def mailer : Setup where
  openForVault _ ct _ := .ok ct
  backends := ⟨true, none, false⟩
  buildEmail _ _ := .ok "m-1"
  httpClient := .ok ()
  dbText _ := "unavailable"

/-- A mail is queued. -/
def queued : Move Fate QueueDrift Unit :=
  .drift (.enqueue "v" "email" "heir@mail" "n1" "subject" "n2" "body" "n3")

/-- `n` steps of thread `i`, with what the relay answers. -/
def work (i n : Nat) (answer : Except Refusal (Option String)) :
    List (Move Fate QueueDrift Unit) :=
  List.replicate n (.step i ⟨false, answer, .answered (.ok ())⟩)

/-- The relay is busy at the first try and takes the mail at the second. -/
def secondTry : List (Move Fate QueueDrift Unit) :=
  [queued, .start ()] ++ work 0 7 (.error ⟨"busy", false⟩) ++
    [.drift (.pass 60000000000), .start ()] ++ work 1 6 (.ok none)

/-- The process halts between the claim of the mail and its hand-off. -/
def haltAfterClaim : List (Move Fate QueueDrift Unit) :=
  [queued, .start ()] ++ work 0 3 (.ok none) ++ [.halt]

theorem idle_of_all {c : QueueConfig} (none_left : c.threads.all (·.rest.isNone) = true) :
    c.Idle := by
  intro i q p at_i
  have here := List.all_eq_true.1 none_left _ (List.mem_of_getElem? at_i)
  cases here

/-- A played run with a property the kernel computes is a run of the worker. -/
theorem exists_played (N : Setup) (ms : List (Move Fate QueueDrift Unit))
    (P : QueueTrace → QueueConfig → Bool)
    (check : ((worker N).play ms (System.boot (Queue.start 0))).any (fun r => P r.1 r.2) = true) :
    ∃ tr c, Run (worker N) (System.boot (Queue.start 0)) tr c ∧ P tr c = true :=
  Run.exists_of_play check

/-- The mail arrives at the second try, with both tries counted. -/
theorem queueHolds_of_smooth_twice : ∃ tr c r,
    Run (worker mailer) (System.boot (Queue.start 0)) tr c ∧ c.world.row? 1 = some r ∧
      r.status = .sent ∧ r.attempts = 2 ∧ c.world.handOffs 1 = 2 ∧ QueueHolds mailer tr c := by
  obtain ⟨tr, c, run, check⟩ := exists_played mailer secondTry
    (fun tr c => tr.all (smooth mailer) &&
      (c.world.row? 1).any (fun r => r.status = .sent && r.attempts = 2) &&
      c.world.handOffs 1 = 2)
    (by decide +kernel)
  simp only [Bool.and_eq_true, Option.any_eq_true, decide_eq_true_eq] at check
  obtain ⟨⟨calm, r, found, sent, attempts⟩, count⟩ := check
  refine ⟨tr, c, r, run, found, sent, attempts, count, ?_⟩
  exact (queueHolds_of_smooth run (List.all_eq_true.1 calm)).1

/-- A claimed row is not taken up again after a halt. -/
theorem not_queueHolds : ¬ ∀ (N : Setup) (t₀ : Instant) (tr : QueueTrace) (c : QueueConfig),
    Run (worker N) (System.boot (Queue.start t₀)) tr c → QueueHolds N tr c := by
  intro holds
  obtain ⟨tr, c, run, check⟩ := exists_played mailer haltAfterClaim
    (fun _ c => c.threads.all (·.rest.isNone) &&
      (c.world.row? 1).any fun r => r.status = .sending)
    (by decide +kernel)
  simp only [Bool.and_eq_true, Option.any_eq_true, decide_eq_true_eq] at check
  obtain ⟨none_left, r, found, sending⟩ := check
  have idle := idle_of_all none_left
  obtain ⟨tr', c', r', later, found', other⟩ :=
    (holds mailer 0 tr c run).unstuck idle 1 r found sending
  exact other (stuck_forever run idle found sending later found')

end Dropped

end Notifier

end GhostKey

import GhostKey.Foundation.Interleaving
import GhostKey.Sql

/-!
# Atomic Actions of the Running Server

A handler is a `Prog`: a program over the actions below, each of which happens in
one instant while nothing else runs. Reading the clock is an action, so is every
query, statement and transaction, every question to a service, and every access
to the two pieces of process memory (the explorer pause and the Lightning gate).
Between two actions of one handler the rest of the server, and time, may move.

A database action may always fail; it then changes nothing and the handler sees
the error.
-/

namespace GhostKey

open Foundation

/-! ## §1 Process memory -/

/-- `psbt_routes::ExplorerBackoff`. -/
structure ExplorerBackoff where
  failures : Nat
  retryAt : Option Instant
  deriving DecidableEq

namespace ExplorerBackoff

def default : ExplorerBackoff := ⟨0, none⟩

def baseSecs : Nat := 60

/-- `MATURITY_CACHE_TTL_SECS`, which is also the longest pause. -/
def maxSecs : Nat := 600

def remainingSecs (b : ExplorerBackoff) (now : Instant) : Option Int :=
  match b.retryAt with
  | none => none
  | some retryAt =>
      let left := (retryAt - now).tdiv 1000000000
      if left > 0 then some left else none

def recordFailure (b : ExplorerBackoff) (now : Instant) : ExplorerBackoff :=
  let failures := b.failures + 1
  let doublings := min (failures - 1) 16
  let secs := min (baseSecs * 2 ^ doublings) maxSecs
  ⟨failures, some (now + seconds secs)⟩

def recordSuccess (_ : ExplorerBackoff) : ExplorerBackoff := default

end ExplorerBackoff

/-- `scheduler::LnGate`. -/
structure LnGate where
  unhealthySince : Option Instant
  suppressUntil : Option Instant
  deriving DecidableEq

namespace LnGate

def default : LnGate := ⟨none, none⟩

/-- `MAX_RECOVERY_GRACE_SECS`. -/
def maxRecoveryGrace : Int := seconds (24 * 60 * 60)

/-- The recovery grace a healthy probe at `now` grants, if it ends an outage. -/
def recover (gate : LnGate) (now : Instant) (maxGrace : Int) : LnGate :=
  match gate.unhealthySince with
  | none => gate
  | some since =>
      let outage := now - since
      ⟨none, some (now + if outage < maxGrace then outage else maxGrace)⟩

/-- `update_ln_gate`: the new gate and whether heir contact is suppressed. -/
def update (gate : LnGate) (lnHealthy : Bool) (now : Instant) (maxGrace : Int) : LnGate × Bool :=
  if lnHealthy then
    let gate := gate.recover now maxGrace
    match gate.suppressUntil with
    | some until_ => if now < until_ then (gate, true) else ({ gate with suppressUntil := none }, false)
    | none => (gate, false)
  else
    (match gate.unhealthySince with
      | none => { gate with unhealthySince := some now }
      | some _ => gate, true)

end LnGate

/-! ## §2 The world -/

/-- An unspent output of the vault with that external descriptor. -/
structure Coin where
  outpoint : String
  descriptorExternal : String
  deriving DecidableEq

/-- The chain's coins stand beside the server's own state: no handler reads them,
only the explorer's answers are about them. -/
structure World where
  clock : Instant
  db : Db
  backoff : ExplorerBackoff
  lnGate : LnGate
  coins : List Coin

namespace World

def start (clock : Instant) : World := ⟨clock, .empty, .default, .default, []⟩

def vault? (w : World) (id : VaultId) : Option VaultRow := w.db.vault? id

/-- The outputs the vault holds on the chain. -/
def unspent (w : World) (r : VaultRow) : List String :=
  (w.coins.filter fun c => c.descriptorExternal = r.settings.descriptorExternal).map Coin.outpoint

def spend (w : World) (tx : Tx) : World :=
  { w with coins := w.coins.filter fun c => c.outpoint ∉ tx.inputs }

end World

/-- What happens without a modelled request: time passes, the chain moves, and
the requests that only write contact columns or push subscriptions write anything
there. -/
inductive Drift where
  | pass (d : Nat)
  | chain (coins : List Coin)
  | contacts (id : VaultId) (c : Contacts)
  | push (subs : List PushSubscription)

namespace Drift

def apply : Drift → World → World
  | pass d, w => { w with clock := w.clock + d }
  | chain coins, w => { w with coins := coins }
  | contacts id c, w =>
      { w with
        db := w.db.updateVaults (fun r => r.id = id) (fun r => { r with contacts := c })
          fun _ => rfl }
  | push subs, w => { w with db := { w.db with pushSubscriptions := subs } }

end Drift

/-! ## §3 Actions -/

inductive Action where
  | now
  | query (q : Query)
  | exec (s : Stmt)
  | payCheckin (paymentHash : String) (now : Instant)
  | payPanic (paymentHash : String) (now : Instant)
  | ask (x : External)
  | explorerPause (now : Instant)
  | explorerFailed (now : Instant)
  | explorerAnswered
  | updateLnGate (lnHealthy : Bool) (now : Instant)

def Action.Response : Action → Type
  | .now => Instant
  | .query q => Except DbError q.Result
  | .exec _ => Except DbError Nat
  | .payCheckin _ _ => Except DbError PaidOutcome
  | .payPanic _ _ => Except DbError PanicOutcome
  | .ask x => x.Answer
  | .explorerPause _ => Option Int
  | .explorerFailed _ => Unit
  | .explorerAnswered => Unit
  | .updateLnGate _ _ => Bool

/-- What a step depends on beside the world: whether the database answers, and
what a service says. -/
structure Oracle where
  dbFails : Bool
  answer : (x : External) → x.Answer

/-- What a service's answer does to the world: only a broadcast moves coins. -/
def External.effect (x : External) (a : x.Answer) (w : World) : World :=
  match x, a with
  | .broadcast _ tx, .ok () => w.spend tx
  | _, _ => w

/-- Perform one action. -/
def Action.perform : (a : Action) → Oracle → World → a.Response × World
  | .now, _, w => (w.clock, w)
  | .query q, o, w => (if o.dbFails then .error .unavailable else q.eval w.db, w)
  | .exec s, o, w =>
      if o.dbFails then (.error .unavailable, w)
      else
        match s.run w.db with
        | .ok (db, n) => (.ok n, { w with db := db })
        | .error e => (.error e, w)
  | .payCheckin paymentHash t, o, w =>
      if o.dbFails then (.error .unavailable, w)
      else
        let paid := w.db.markPaidAndCheckinTx paymentHash t
        (.ok paid.2, { w with db := paid.1 })
  | .payPanic paymentHash t, o, w =>
      if o.dbFails then (.error .unavailable, w)
      else
        let paid := w.db.markPanicPaidTx paymentHash t
        (.ok paid.2, { w with db := paid.1 })
  | .ask x, o, w => (o.answer x, x.effect (o.answer x) w)
  | .explorerPause t, _, w => (w.backoff.remainingSecs t, w)
  | .explorerFailed t, _, w => ((), { w with backoff := w.backoff.recordFailure t })
  | .explorerAnswered, _, w => ((), { w with backoff := w.backoff.recordSuccess })
  | .updateLnGate lnHealthy t, _, w =>
      let r := w.lnGate.update lnHealthy t LnGate.maxRecoveryGrace
      (r.2, { w with lnGate := r.1 })

/-- No action takes time. -/
theorem Action.perform_clock (a : Action) (o : Oracle) (w : World) :
    (a.perform o w).2.clock = w.clock := by
  cases a <;> simp only [perform]
  case exec st => split <;> [rfl; (split <;> rfl)]
  case payCheckin => split <;> rfl
  case payPanic => split <;> rfl
  case ask x =>
    unfold External.effect
    split <;> rfl

section Failures

variable {o : Oracle} {w : World} {e : DbError}

/-- A database action that fails changes nothing. -/
theorem Action.perform_exec_error {st : Stmt}
    (failed : ((Action.exec st).perform o w).1 = .error e) :
    ((Action.exec st).perform o w).2 = w := by
  simp only [Action.perform] at failed ⊢
  split at failed
  · next fails => rw [if_pos fails]
  · next reliable =>
    rw [if_neg reliable]
    split at failed
    · cases failed
    · rfl

theorem Action.perform_payCheckin_error {paymentHash : String} {t : Instant}
    (failed : ((Action.payCheckin paymentHash t).perform o w).1 = .error e) :
    ((Action.payCheckin paymentHash t).perform o w).2 = w := by
  simp only [Action.perform] at failed ⊢
  split at failed
  · next fails => rw [if_pos fails]
  · cases failed

theorem Action.perform_payPanic_error {paymentHash : String} {t : Instant}
    (failed : ((Action.payPanic paymentHash t).perform o w).1 = .error e) :
    ((Action.payPanic paymentHash t).perform o w).2 = w := by
  simp only [Action.perform] at failed ⊢
  split at failed
  · next fails => rw [if_pos fails]
  · cases failed

end Failures

/-! ## §4 Programs -/

abbrev Ev := Event Action Action.Response

abbrev Hist := History Action Action.Response

/-- A handler or a part of one. -/
abbrev Prog (α : Type) := Program Action Action.Response ApiError α

namespace Prog

open Program

def now : Prog Instant := Program.perform Action.now

def ask (x : External) : Prog x.Answer := Program.perform (Action.ask x)

/-- `.await?` on a query. -/
def query (q : Query) : Prog q.Result :=
  .act (.query q) fun
    | .ok r => .done r
    | .error e => .fail (.db e)

/-- `.await?` on a statement: the rows affected. -/
def exec (s : Stmt) : Prog Nat :=
  .act (.exec s) fun
    | .ok n => .done n
    | .error e => .fail (.db e)

def update (id : VaultId) (u : VaultUpdate) : Prog Nat := exec (.updateVault id u)

/-- A result whose error is returned to the caller, `?`. -/
def ofExcept {α : Type} : Except ApiError α → Prog α
  | .ok a => .done a
  | .error e => .fail e

/-- `.ok_or(e)?`. -/
def okOr {α : Type} (e : ApiError) : Option α → Prog α
  | some a => .done a
  | none => .fail e

/-- `.map_err(ApiError::Validation)?` with a prefix. -/
def validated {α : Type} (pre : String) : Except String α → Prog α
  | .ok a => .done a
  | .error e => .fail (.validation (pre ++ e))

/-- `?` on a sealing or opening. -/
def crypto {α : Type} : Except Unit α → Prog α
  | .ok a => .done a
  | .error _ => .fail .crypto

/-- `if let Err(e) = … { warn }`: a failure is logged and ignored. -/
def logged {α : Type} (p : Prog α) : Prog Unit := do
  let _ ← (p.attempt : Prog (Except ApiError α))
  pure ()

/-- `routes::record_event`. -/
def recordEvent (id : VaultId) (kind : EventKind) (detail : Detail) : Prog Unit := do
  let t ← now
  let _ ← exec (.insertEvent ⟨id, kind, detail, t⟩)
  pure ()

/-- `notifier::enqueue`. The texts are sealed first, which fails without a key. -/
def enqueue (S : Server) (id : VaultId) (kind : NotificationKind) (channel : Channel)
    (recipient : String) (link : Option String) : Prog Unit := do
  let _ ← crypto (S.sealForVault id recipient)
  let t ← now
  let _ ← exec (.insertNotification ⟨id, kind, channel, recipient, link, t⟩)
  pure ()

end Prog

end GhostKey

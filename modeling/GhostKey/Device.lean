import GhostKey.Foundation.Record
import Mathlib.Data.List.Induction

/-!
# Credentials on the Owner's Device

The browser keeps the bearer token of each vault in one of three places: live in the
session's storage, in the vault's record in local storage, or encrypted under a password
in that record. Every write may fail, and a failed write is swallowed.

Layers:
1. the two storages and the five calls that change them;
2. runs of calls, and what they owe every vault: `DeviceHolds`;
3. what one call does to one vault's credentials;
4. the calls that keep them: `deviceHolds_iff`.
-/

namespace GhostKey

namespace Device

open Foundation

/-! ## §1 The storages -/

/-- `LockedOwnerToken`. -/
structure LockedOwnerToken where
  passwordSalt : String
  memKiB : Nat
  iters : Nat
  ct : String
  nonce : String
  ownerEmailHash : String
  validated : Bool
  deriving DecidableEq

/-- `VaultMeta`, as far as credentials go. -/
structure VaultMeta where
  id : String
  ownerToken : Option String
  ownerTokenLock : Option LockedOwnerToken
  deriving DecidableEq

/-- `gk:vaults` and `gk:activeVaultId` of the local storage, `gk:liveOwnerTokens` of the
session's. -/
structure Store where
  vaults : Record VaultMeta
  active : Option String
  live : Record String
  deriving DecidableEq

def Store.empty : Store := ⟨[], none, []⟩

/-- Which writes of a call are taken: none of the calls writes a key twice. -/
structure Writes where
  live : Bool
  vaults : Bool
  active : Bool
  deriving DecidableEq

/-- An absent or empty text is falsy. -/
def truthy (text : Option String) : Bool := text.any (· ≠ "")

namespace Store

def writeLiveTokens (w : Writes) (map : Record String) (s : Store) : Store :=
  if w.live then { s with live := map } else s

def writeAll (w : Writes) (map : Record VaultMeta) (s : Store) : Store :=
  if w.vaults then { s with vaults := map } else s

def setActiveVaultId (w : Writes) (id : Option String) (s : Store) : Store :=
  if w.active then { s with active := id } else s

def setLiveToken (w : Writes) (id token : String) (s : Store) : Store :=
  s.writeLiveTokens w (s.live.set id token)

def deleteLiveToken (w : Writes) (id : String) (s : Store) : Store :=
  if (s.live.get? id).isSome then s.writeLiveTokens w (s.live.erase id) else s

def getVaultOwnerToken (s : Store) (id : String) : Option String :=
  (s.live.get? id).or ((s.vaults.get? id).bind VaultMeta.ownerToken)

end Store

/-- The token and its encrypted replacement come together. -/
def VaultMeta.validatedToken (meta_ : VaultMeta) : Bool :=
  truthy meta_.ownerToken && meta_.ownerTokenLock.any LockedOwnerToken.validated

def saveVaultMeta (w : Writes) (meta_ : VaultMeta) (s : Store) : Store :=
  let map := s.vaults
  if meta_.validatedToken then
    let s := s.setLiveToken w meta_.id (meta_.ownerToken.getD "")
    (s.writeAll w (map.set meta_.id { meta_ with ownerToken := none })).setActiveVaultId w meta_.id
  else (s.writeAll w (map.set meta_.id meta_)).setActiveVaultId w meta_.id

def saveVaultCredentialLock (w : Writes) (id : String) (lock : LockedOwnerToken) (s : Store) :
    Store × Bool :=
  match s.vaults.get? id with
  | none => (s, false)
  | some meta_ =>
      if truthy meta_.ownerToken then
        (s.writeAll w (s.vaults.set id { meta_ with ownerTokenLock := some lock }), true)
      else (s, false)

/-- The record may be missing; it is then made of the two properties that are set. -/
def lockVaultCredential (w : Writes) (id : String) (lock : LockedOwnerToken) (s : Store) :
    Store × Bool :=
  if !truthy (s.getVaultOwnerToken id) || !lock.validated then (s, false)
  else
    let meta_ := (s.vaults.get? id).getD ⟨id, none, none⟩
    let map := s.vaults.set id { meta_ with ownerToken := none, ownerTokenLock := some lock }
    ((s.deleteLiveToken w id).writeAll w map, true)

/-- The record of a vault whose token was just decrypted. -/
def VaultMeta.unlocked (meta_ : VaultMeta) : VaultMeta :=
  { meta_ with
    ownerToken := none
    ownerTokenLock := meta_.ownerTokenLock.map fun lock => { lock with validated := true } }

def unlockVaultCredentials (w : Writes) (tokens : Record String) (s : Store) : Store × Bool :=
  let allowed := tokens.all fun p =>
    ((s.vaults.get? p.1).bind VaultMeta.ownerTokenLock).isSome && truthy (some p.2)
  if allowed then
    let live := tokens.foldl (fun r p => r.set p.1 p.2) s.live
    let map := tokens.foldl (fun r p => r.modify p.1 VaultMeta.unlocked) s.vaults
    ((s.writeLiveTokens w live).writeAll w map, true)
  else (s, false)

def removeVaultMeta (w : Writes) (id : String) (s : Store) : Store × Bool :=
  if (s.vaults.get? id).isSome then
    let map := s.vaults.erase id
    let s := (s.deleteLiveToken w id).writeAll w map
    if s.active = some id then (s.setActiveVaultId w map.keys.head?, true)
    else (s, true)
  else (s, false)

/-! ## §2 Runs of calls -/

inductive Call where
  | saveVaultMeta (meta_ : VaultMeta)
  | saveVaultCredentialLock (id : String) (lock : LockedOwnerToken)
  | lockVaultCredential (id : String) (lock : LockedOwnerToken)
  | unlockVaultCredentials (tokens : Record String)
  | removeVaultMeta (id : String)
  deriving DecidableEq

def Call.run : Call → Writes → Store → Store
  | saveVaultMeta meta_, w, s => Device.saveVaultMeta w meta_ s
  | saveVaultCredentialLock id lock, w, s => (Device.saveVaultCredentialLock w id lock s).1
  | lockVaultCredential id lock, w, s => (Device.lockVaultCredential w id lock s).1
  | unlockVaultCredentials tokens, w, s => (Device.unlockVaultCredentials w tokens s).1
  | removeVaultMeta id, w, s => (Device.removeVaultMeta w id s).1

/-- The vaults a call is about. -/
def Call.concerns (v : String) : Call → Bool
  | saveVaultMeta meta_ => meta_.id = v
  | saveVaultCredentialLock id _ => id = v
  | lockVaultCredential id _ => id = v
  | unlockVaultCredentials tokens => tokens.any fun p => p.1 = v
  | removeVaultMeta id => id = v

/-- The storages after some calls on a fresh device, each with the writes it got. -/
def after (calls : List (Call × Writes)) : Store :=
  calls.foldl (fun s c => c.1.run c.2 s) .empty

/-- What the device holds for one vault. -/
structure Credentials where
  live : Option String
  atRest : Option String
  lock : Option LockedOwnerToken
  deriving DecidableEq

def Store.credentials (s : Store) (v : String) : Credentials :=
  ⟨s.live.get? v, (s.vaults.get? v).bind VaultMeta.ownerToken,
    (s.vaults.get? v).bind VaultMeta.ownerTokenLock⟩

namespace Credentials

def validatedLock (c : Credentials) : Bool := c.lock.any LockedOwnerToken.validated

/-- A live token, a token at rest, or a validated lock. -/
def recoverable (c : Credentials) : Bool := truthy c.live || truthy c.atRest || c.validatedLock

/-- The plaintext token beside its validated lock. -/
def exposed (c : Credentials) : Bool := c.validatedLock && truthy c.atRest

end Credentials

/-- What the device owes every vault. -/
structure DeviceHolds (calls : List (Call × Writes)) : Prop where
  kept : ∀ pre mid post v, calls = pre ++ mid ++ post →
    ((after pre).credentials v).recoverable = true → (∀ c ∈ mid, c.1 ≠ .removeVaultMeta v) →
      ((after (pre ++ mid)).credentials v).recoverable = true
  hidden : ∀ pre post v, calls = pre ++ post → ((after pre).credentials v).exposed = false
  apart : ∀ pre c post v, calls = pre ++ c :: post → c.1.concerns v = false →
    (after (pre ++ [c])).credentials v = (after pre).credentials v

/-! ## §3 What one call does to one vault -/

section Effects

variable (w : Writes) (s : Store) (id v : String)

namespace Store

@[simp] theorem writeLiveTokens_live (map : Record String) :
    (s.writeLiveTokens w map).live = if w.live then map else s.live := by
  unfold writeLiveTokens
  split <;> rfl

@[simp] theorem writeLiveTokens_vaults (map : Record String) :
    (s.writeLiveTokens w map).vaults = s.vaults := by
  unfold writeLiveTokens
  split <;> rfl

@[simp] theorem writeAll_live (map : Record VaultMeta) : (s.writeAll w map).live = s.live := by
  unfold writeAll
  split <;> rfl

@[simp] theorem writeAll_vaults (map : Record VaultMeta) :
    (s.writeAll w map).vaults = if w.vaults then map else s.vaults := by
  unfold writeAll
  split <;> rfl

@[simp] theorem setActiveVaultId_live (a : Option String) :
    (s.setActiveVaultId w a).live = s.live := by
  unfold setActiveVaultId
  split <;> rfl

@[simp] theorem setActiveVaultId_vaults (a : Option String) :
    (s.setActiveVaultId w a).vaults = s.vaults := by
  unfold setActiveVaultId
  split <;> rfl

@[simp] theorem setLiveToken_get? (token : String) :
    (s.setLiveToken w id token).live.get? v =
      if w.live ∧ v = id then some token else s.live.get? v := by
  unfold setLiveToken
  rw [writeLiveTokens_live]
  by_cases taken : w.live = true
  · simp [taken, Record.get?_set]
  · simp [taken]

@[simp] theorem setLiveToken_vaults (token : String) :
    (s.setLiveToken w id token).vaults = s.vaults := by
  simp [setLiveToken]

/-- There is nothing to delete where the key is missing. -/
@[simp] theorem deleteLiveToken_get? :
    (s.deleteLiveToken w id).live.get? v =
      if w.live ∧ v = id then none else s.live.get? v := by
  unfold deleteLiveToken
  split
  · rw [writeLiveTokens_live]
    by_cases taken : w.live = true
    · simp [taken, Record.get?_erase]
    · simp [taken]
  · next missing =>
    split
    · next here => simpa [here.2] using missing
    · rfl

@[simp] theorem deleteLiveToken_vaults : (s.deleteLiveToken w id).vaults = s.vaults := by
  unfold deleteLiveToken
  split <;> simp

/-- The credentials of a vault are read off its live token and its record. -/
theorem credentials_congr {s' : Store} (live : s'.live.get? v = s.live.get? v)
    (vaults : s'.vaults.get? v = s.vaults.get? v) : s'.credentials v = s.credentials v := by
  rw [credentials, credentials, live, vaults]

end Store

open Store

theorem saveVaultMeta_live (m : VaultMeta) :
    (saveVaultMeta w m s).live.get? v =
      if m.validatedToken ∧ w.live ∧ v = m.id then some (m.ownerToken.getD "")
      else s.live.get? v := by
  unfold saveVaultMeta
  by_cases both : m.validatedToken = true <;> simp [both]

theorem saveVaultMeta_vaults (m : VaultMeta) :
    (saveVaultMeta w m s).vaults.get? v =
      if w.vaults ∧ v = m.id then
        some (if m.validatedToken then { m with ownerToken := none } else m)
      else s.vaults.get? v := by
  unfold saveVaultMeta
  by_cases both : m.validatedToken = true <;> by_cases taken : w.vaults = true <;>
    simp [both, taken, Record.get?_set]

theorem saveVaultCredentialLock_live (lock : LockedOwnerToken) :
    (saveVaultCredentialLock w id lock s).1.live = s.live := by
  unfold saveVaultCredentialLock
  split
  · rfl
  · split <;> simp

/-- The record as it stands after a candidate lock was offered for it. -/
def offered (lock : LockedOwnerToken) (m : VaultMeta) : VaultMeta :=
  if truthy m.ownerToken then { m with ownerTokenLock := some lock } else m

theorem saveVaultCredentialLock_vaults (lock : LockedOwnerToken) :
    (saveVaultCredentialLock w id lock s).1.vaults.get? v =
      if w.vaults ∧ v = id then (s.vaults.get? v).map (offered lock) else s.vaults.get? v := by
  unfold saveVaultCredentialLock
  split
  · next missing =>
    split
    · next here => rw [here.2, missing, Option.map_none]
    · rfl
  · next m found =>
    by_cases taken : w.vaults = true
    · by_cases same : v = id
      · subst same
        split <;> simp_all [offered, Record.get?_set]
      · split <;> simp [taken, same, Record.get?_set]
    · split <;> simp [taken]

/-- What lets `lockVaultCredential` through. -/
def lockable (lock : LockedOwnerToken) : Bool :=
  truthy (s.getVaultOwnerToken id) && lock.validated

theorem lockVaultCredential_live (lock : LockedOwnerToken) :
    (lockVaultCredential w id lock s).1.live.get? v =
      if lockable s id lock ∧ w.live ∧ v = id then none else s.live.get? v := by
  unfold lockVaultCredential lockable
  by_cases token : truthy (s.getVaultOwnerToken id) = true <;>
    by_cases validated : lock.validated = true <;> simp [token, validated]

theorem lockVaultCredential_vaults (lock : LockedOwnerToken) :
    (lockVaultCredential w id lock s).1.vaults.get? v =
      if lockable s id lock ∧ w.vaults ∧ v = id then
        some { (s.vaults.get? id).getD ⟨id, none, none⟩ with
          ownerToken := none, ownerTokenLock := some lock }
      else s.vaults.get? v := by
  unfold lockVaultCredential lockable
  by_cases token : truthy (s.getVaultOwnerToken id) = true <;>
    by_cases validated : lock.validated = true <;> by_cases taken : w.vaults = true <;>
      simp [token, validated, taken, Record.get?_set]

/-- What lets `unlockVaultCredentials` through. -/
def unlockable (tokens : Record String) : Bool :=
  tokens.all fun p =>
    ((s.vaults.get? p.1).bind VaultMeta.ownerTokenLock).isSome && truthy (some p.2)

theorem unlockVaultCredentials_eq (tokens : Record String) :
    unlockVaultCredentials w tokens s =
      if unlockable s tokens then
        ((s.writeLiveTokens w (tokens.foldl (fun r p => r.set p.1 p.2) s.live)).writeAll w
          (tokens.foldl (fun r p => r.modify p.1 VaultMeta.unlocked) s.vaults), true)
      else (s, false) :=
  rfl

theorem unlockVaultCredentials_vaults (tokens : Record String) :
    (unlockVaultCredentials w tokens s).1.vaults.get? v =
      if unlockable s tokens ∧ w.vaults ∧ (tokens.any fun p => p.1 = v) then
        (s.vaults.get? v).map VaultMeta.unlocked
      else s.vaults.get? v := by
  have idem : ∀ m : VaultMeta, m.unlocked.unlocked = m.unlocked := by
    intro m
    cases m with
    | mk id token lock => cases lock <;> rfl
  rw [unlockVaultCredentials_eq]
  by_cases allowed : unlockable s tokens = true
  · by_cases taken : w.vaults = true
    · simp only [allowed, if_true, writeAll_vaults, taken, true_and]
      rw [Record.get?_foldl_modify Prod.fst idem]
    · simp only [allowed, if_true, writeAll_vaults, taken, writeLiveTokens_vaults, false_and,
        and_false, if_false, Bool.false_eq_true]
  · simp only [allowed, false_and, if_false, Bool.false_eq_true]

theorem unlockVaultCredentials_live_of_not (tokens : Record String)
    (idle : ¬ (unlockable s tokens = true ∧ w.live = true ∧ ∃ p ∈ tokens, p.1 = v)) :
    (unlockVaultCredentials w tokens s).1.live.get? v = s.live.get? v := by
  rw [unlockVaultCredentials_eq]
  split
  · next allowed =>
    rw [writeAll_live, writeLiveTokens_live]
    split
    · next taken =>
      refine Record.get?_foldl_set Prod.fst (fun _ p => p.2) v tokens s.live fun p mem same => ?_
      exact idle ⟨allowed, taken, p, mem, same⟩
    · rfl
  · rfl

/-- A token that is restored is not empty. -/
theorem unlockVaultCredentials_live (tokens : Record String) (allowed : unlockable s tokens = true)
    (taken : w.live = true) (here : ∃ p ∈ tokens, p.1 = v) :
    truthy ((unlockVaultCredentials w tokens s).1.live.get? v) = true := by
  have nonempty : ∀ p ∈ tokens, ∀ _ : Record String, p.1 = v → truthy (some p.2) = true := by
    intro p mem _ _
    have both := List.all_eq_true.1 allowed p mem
    exact (Bool.and_eq_true_iff.1 both).2
  obtain ⟨token, found, holds⟩ :=
    Record.get?_foldl_set_of_mem Prod.fst (fun _ p => p.2) (P := fun t => truthy (some t) = true)
      (r := s.live) nonempty here
  rw [unlockVaultCredentials_eq, if_pos allowed, writeAll_live, writeLiveTokens_live, if_pos taken]
  exact found ▸ holds

theorem removeVaultMeta_live (other : v ≠ id) :
    (removeVaultMeta w id s).1.live.get? v = s.live.get? v := by
  unfold removeVaultMeta
  dsimp only
  split
  · split <;> simp [other]
  · rfl

theorem removeVaultMeta_vaults :
    (removeVaultMeta w id s).1.vaults.get? v =
      if w.vaults ∧ v = id then none else s.vaults.get? v := by
  unfold removeVaultMeta
  dsimp only
  split
  · by_cases taken : w.vaults = true <;> split <;> simp [taken, Record.get?_erase]
  · next missing =>
    split
    · next here => simpa [here.2] using missing
    · rfl

end Effects

/-- No call reaches into another vault. -/
theorem Call.run_elsewhere (c : Call) (w : Writes) (s : Store) {v : String}
    (other : c.concerns v = false) : (c.run w s).credentials v = s.credentials v := by
  apply Store.credentials_congr
  -- first the live tokens, then what is at rest
  · cases c with
    | saveVaultMeta m =>
      have apart : ¬ v = m.id := fun same => by simp [concerns, same] at other
      rw [run, saveVaultMeta_live, if_neg fun h => apart h.2.2]
    | saveVaultCredentialLock id lock => rw [run, saveVaultCredentialLock_live]
    | lockVaultCredential id lock =>
      have apart : ¬ v = id := fun same => by simp [concerns, same] at other
      rw [run, lockVaultCredential_live, if_neg fun h => apart h.2.2]
    | unlockVaultCredentials tokens =>
      refine unlockVaultCredentials_live_of_not w s v tokens ?_
      rintro ⟨-, -, p, mem, same⟩
      have here : (tokens.any fun p => p.1 = v) = true :=
        List.any_eq_true.2 ⟨p, mem, by simpa using same⟩
      rw [concerns, here] at other
      cases other
    | removeVaultMeta id =>
      have apart : v ≠ id := fun same => by simp [concerns, same] at other
      exact removeVaultMeta_live w s id v apart
  · cases c with
    | saveVaultMeta m =>
      have apart : ¬ v = m.id := fun same => by simp [concerns, same] at other
      rw [run, saveVaultMeta_vaults, if_neg fun h => apart h.2]
    | saveVaultCredentialLock id lock =>
      have apart : ¬ v = id := fun same => by simp [concerns, same] at other
      rw [run, saveVaultCredentialLock_vaults, if_neg fun h => apart h.2]
    | lockVaultCredential id lock =>
      have apart : ¬ v = id := fun same => by simp [concerns, same] at other
      rw [run, lockVaultCredential_vaults, if_neg fun h => apart h.2.2]
    | unlockVaultCredentials tokens =>
      rw [concerns] at other
      rw [run, unlockVaultCredentials_vaults, other]
      simp
    | removeVaultMeta id =>
      have apart : v ≠ id := fun same => by simp [concerns, same] at other
      rw [run, removeVaultMeta_vaults, if_neg fun h => apart h.2]

/-! ## §4 The calls that keep what the device owes -/

/-- A record with a credential in it. -/
def VaultMeta.usable (m : VaultMeta) : Bool :=
  truthy m.ownerToken || m.ownerTokenLock.any LockedOwnerToken.validated

/-- A save puts the whole record in the place of the old one, with its token at rest and its
lock; a lock deletes the live token before the write that is to replace it. -/
def keepsCredential (s : Store) (w : Writes) : Call → Bool
  | .saveVaultMeta m =>
      let held := s.credentials m.id
      !held.recoverable || !w.vaults || m.usable || truthy held.live
  | .lockVaultCredential id lock =>
      let held := s.credentials id
      !lockable s id lock || !w.live || w.vaults || truthy held.atRest || held.validatedLock
  | _ => true

/-- A lock that comes validated is put beside the token it encrypts. -/
def hidesToken (s : Store) (w : Writes) : Call → Bool
  | .saveVaultCredentialLock id lock =>
      !truthy (s.credentials id).atRest || !w.vaults || !lock.validated
  | _ => true

/-- What a call must meet in the storages it finds. -/
structure Careful (s : Store) (c : Call × Writes) : Prop where
  keeps : keepsCredential s c.2 c.1 = true
  hides : hidesToken s c.2 c.1 = true

/-- A token that may be locked is live or at rest. -/
theorem recoverable_of_lockable {s : Store} {id : String} {lock : LockedOwnerToken}
    (h : lockable s id lock = true) : (s.credentials id).recoverable = true := by
  have token : truthy (s.getVaultOwnerToken id) = true := (Bool.and_eq_true_iff.1 h).1
  unfold Store.getVaultOwnerToken at token
  unfold Credentials.recoverable Store.credentials
  cases live : s.live.get? id with
  | none =>
    rw [live, Option.none_or] at token
    simp [token]
  | some t =>
    rw [live, Option.some_or] at token
    simp [token]

theorem recoverable_saveVaultMeta (w : Writes) (s : Store) (m : VaultMeta)
    (held : (s.credentials m.id).recoverable = true) :
    ((saveVaultMeta w m s).credentials m.id).recoverable = true ↔
      keepsCredential s w (.saveVaultMeta m) = true := by
  by_cases both : m.validatedToken = true
  -- a validated token goes to the live ones
  · have usable : m.usable = true := by
      rw [VaultMeta.usable, (Bool.and_eq_true_iff.1 both).2, Bool.or_true]
    have token : truthy (some (m.ownerToken.getD "")) = true := by
      have t := (Bool.and_eq_true_iff.1 both).1
      cases own : m.ownerToken with
      | none => rw [own] at t; cases t
      | some x => rwa [own] at t
    have lock := (Bool.and_eq_true_iff.1 both).2
    have kept : ((saveVaultMeta w m s).credentials m.id).recoverable = true := by
      unfold Credentials.recoverable Credentials.validatedLock Store.credentials at held ⊢
      rw [saveVaultMeta_live, saveVaultMeta_vaults]
      by_cases live : w.live = true
      · simp [both, live, token]
      · by_cases vaults : w.vaults = true
        · simp [both, live, vaults, lock]
        · simpa [both, live, vaults] using held
    exact iff_of_true kept (by simp [keepsCredential, usable])
  -- otherwise the entry is saved as it is given
  · have apart : ((saveVaultMeta w m s).credentials m.id) =
        if w.vaults then ⟨s.live.get? m.id, m.ownerToken, m.ownerTokenLock⟩
        else s.credentials m.id := by
      unfold Store.credentials
      rw [saveVaultMeta_live, saveVaultMeta_vaults]
      by_cases vaults : w.vaults = true <;> simp [both, vaults]
    rw [apart, keepsCredential]
    by_cases vaults : w.vaults = true
    · simp only [vaults, if_true, held, Bool.not_true, Bool.false_or]
      simp only [Credentials.recoverable, Credentials.validatedLock, VaultMeta.usable,
        Store.credentials, Bool.or_eq_true]
      tauto
    · simp [vaults, held]

theorem recoverable_lockVaultCredential (w : Writes) (s : Store) (id : String)
    (lock : LockedOwnerToken) (held : (s.credentials id).recoverable = true) :
    ((lockVaultCredential w id lock s).1.credentials id).recoverable = true ↔
      keepsCredential s w (.lockVaultCredential id lock) = true := by
  by_cases through : lockable s id lock = true
  · have validated : lock.validated = true := (Bool.and_eq_true_iff.1 through).2
    unfold Credentials.recoverable Credentials.validatedLock Store.credentials at held ⊢
    rw [lockVaultCredential_live, lockVaultCredential_vaults, keepsCredential]
    by_cases vaults : w.vaults = true
    · simp [through, vaults, validated]
    · by_cases live : w.live = true
      · simp [through, vaults, live, Credentials.validatedLock, Store.credentials, truthy]
      · simpa [through, vaults, live] using held
  · have same : (lockVaultCredential w id lock s).1.credentials id = s.credentials id := by
      apply Store.credentials_congr
      · rw [lockVaultCredential_live, if_neg fun h => through h.1]
      · rw [lockVaultCredential_vaults, if_neg fun h => through h.1]
    rw [same]
    exact iff_of_true held (by simp [keepsCredential, through])

/-- The other calls keep a credential whatever writes they get. -/
theorem recoverable_saveVaultCredentialLock (w : Writes) (s : Store) (id : String)
    (lock : LockedOwnerToken) (held : (s.credentials id).recoverable = true) :
    ((saveVaultCredentialLock w id lock s).1.credentials id).recoverable = true := by
  unfold Credentials.recoverable Credentials.validatedLock Store.credentials at held ⊢
  rw [saveVaultCredentialLock_live, saveVaultCredentialLock_vaults]
  by_cases vaults : w.vaults = true
  · cases found : s.vaults.get? id with
    | none => simpa [vaults, found] using held
    | some m =>
      by_cases token : truthy m.ownerToken = true
      · simp [vaults, offered, token]
      · simpa [vaults, offered, token, found] using held
  · simpa [vaults] using held

theorem recoverable_unlockVaultCredentials (w : Writes) (s : Store) (v : String)
    (tokens : Record String) (held : (s.credentials v).recoverable = true)
    (here : ∃ p ∈ tokens, p.1 = v) :
    ((unlockVaultCredentials w tokens s).1.credentials v).recoverable = true := by
  have any : (tokens.any fun p => p.1 = v) = true := by
    obtain ⟨p, mem, same⟩ := here
    exact List.any_eq_true.2 ⟨p, mem, by simpa using same⟩
  by_cases through : unlockable s tokens = true
  · by_cases live : w.live = true
    · unfold Credentials.recoverable Store.credentials
      rw [unlockVaultCredentials_live w s v tokens through live here, Bool.true_or, Bool.true_or]
    · have kept := unlockVaultCredentials_live_of_not w s v tokens fun h => live h.2.1
      unfold Credentials.recoverable Credentials.validatedLock Store.credentials at held ⊢
      rw [kept, unlockVaultCredentials_vaults]
      by_cases vaults : w.vaults = true
      · obtain ⟨p, mem, rfl⟩ := here
        have locked := (Bool.and_eq_true_iff.1 (List.all_eq_true.1 through p mem)).1
        obtain ⟨lock, found⟩ := Option.isSome_iff_exists.1 locked
        obtain ⟨m, record, own⟩ := Option.bind_eq_some_iff.1 found
        simp [through, vaults, any, record, VaultMeta.unlocked, own]
      · simpa [vaults] using held
  · have same : (unlockVaultCredentials w tokens s).1 = s := by
      rw [unlockVaultCredentials_eq, if_neg through]
    rwa [same]

/-- One step: what was recoverable stays so in every vault the call does not remove. -/
theorem keeps_iff (s : Store) (w : Writes) (c : Call) :
    (∀ v, c ≠ .removeVaultMeta v → (s.credentials v).recoverable = true →
      ((c.run w s).credentials v).recoverable = true) ↔ keepsCredential s w c = true := by
  constructor
  -- the vault the call is about shows the condition
  · intro keeps
    cases c with
    | saveVaultMeta m =>
      cases held : (s.credentials m.id).recoverable with
      | false => simp [keepsCredential, held]
      | true =>
        exact (recoverable_saveVaultMeta w s m held).1 (keeps m.id (fun h => by cases h) held)
    | saveVaultCredentialLock id lock => rfl
    | lockVaultCredential id lock =>
      cases through : lockable s id lock with
      | false => simp [keepsCredential, through]
      | true =>
        have held := recoverable_of_lockable through
        exact (recoverable_lockVaultCredential w s id lock held).1
          (keeps id (fun h => by cases h) held)
    | unlockVaultCredentials tokens => rfl
    | removeVaultMeta id => rfl
  -- any vault: the call is not about it, or the condition applies
  · intro keeps v kept held
    cases concerned : c.concerns v with
    | false => rwa [c.run_elsewhere w s concerned]
    | true =>
      cases c with
      | saveVaultMeta m =>
        obtain rfl : m.id = v := by simpa [Call.concerns] using concerned
        exact (recoverable_saveVaultMeta w s m held).2 keeps
      | saveVaultCredentialLock id lock =>
        obtain rfl : id = v := by simpa [Call.concerns] using concerned
        exact recoverable_saveVaultCredentialLock w s id lock held
      | lockVaultCredential id lock =>
        obtain rfl : id = v := by simpa [Call.concerns] using concerned
        exact (recoverable_lockVaultCredential w s id lock held).2 keeps
      | unlockVaultCredentials tokens =>
        have here : ∃ p ∈ tokens, p.1 = v := by simpa [Call.concerns] using concerned
        exact recoverable_unlockVaultCredentials w s v tokens held here
      | removeVaultMeta id =>
        obtain rfl : id = v := by simpa [Call.concerns] using concerned
        exact absurd rfl kept

/-- What a call leaves at rest of a vault is what it found, without a token, or saved. -/
theorem exposed_run (s : Store) (w : Writes) (c : Call) {v : String}
    (hidden : (s.credentials v).exposed = false) (hides : hidesToken s w c = true) :
    ((c.run w s).credentials v).exposed = false := by
  -- a call about other vaults changes nothing of this one
  cases concerned : c.concerns v with
  | false => rwa [c.run_elsewhere w s concerned]
  | true =>
    unfold Credentials.exposed Credentials.validatedLock Store.credentials at hidden ⊢
    cases c with
    -- a token that comes with its validated lock is saved without its text
    | saveVaultMeta m =>
      rw [Call.run, saveVaultMeta_vaults]
      by_cases taken : w.vaults = true ∧ v = m.id
      · by_cases both : m.validatedToken = true
        · simp [taken, both, truthy]
        · have apart := both
          rw [VaultMeta.validatedToken, Bool.and_comm] at apart
          simpa [taken, both] using apart
      · simpa only [if_neg taken] using hidden
    -- the one call the condition is about: a lock put beside a token
    | saveVaultCredentialLock id lock =>
      obtain rfl : id = v := by simpa [Call.concerns] using concerned
      rw [Call.run, saveVaultCredentialLock_vaults]
      cases found : s.vaults.get? id with
      | none => simp
      | some m =>
        rw [hidesToken, Store.credentials, found] at hides
        rw [found] at hidden
        by_cases taken : w.vaults = true
        · by_cases token : truthy m.ownerToken = true
          · have fresh : lock.validated = false := by simpa [taken, token] using hides
            simp [taken, offered, token, fresh]
          · simp [taken, offered, token]
        · simpa [taken] using hidden
    | lockVaultCredential id lock =>
      rw [Call.run, lockVaultCredential_vaults]
      split
      · simp [truthy]
      · exact hidden
    | unlockVaultCredentials tokens =>
      rw [Call.run, unlockVaultCredentials_vaults]
      split
      · cases found : s.vaults.get? v with
        | none => simp
        | some m => simp [VaultMeta.unlocked, truthy]
      · exact hidden
    | removeVaultMeta id =>
      rw [Call.run, removeVaultMeta_vaults]
      split
      · simp
      · exact hidden

/-- One step: a validated lock is not put beside the token. -/
theorem hides_iff (s : Store) (w : Writes) (c : Call)
    (hidden : ∀ v, (s.credentials v).exposed = false) :
    (∀ v, ((c.run w s).credentials v).exposed = false) ↔ hidesToken s w c = true := by
  refine ⟨fun after => ?_, fun hides v => exposed_run s w c (hidden v) hides⟩
  cases c with
  | saveVaultCredentialLock id lock =>
    have out := after id
    unfold Credentials.exposed Credentials.validatedLock Store.credentials at out
    rw [Call.run, saveVaultCredentialLock_vaults] at out
    rw [hidesToken, Store.credentials]
    cases found : s.vaults.get? id with
    | none => simp [truthy]
    | some m =>
      by_cases taken : w.vaults = true
      · by_cases token : truthy m.ownerToken = true
        · simpa [taken, token, found, offered] using out
        · simp [token]
      · simp [taken]
  | saveVaultMeta m => rfl
  | lockVaultCredential id lock => rfl
  | unlockVaultCredentials tokens => rfl
  | removeVaultMeta id => rfl

theorem after_snoc (calls : List (Call × Writes)) (c : Call × Writes) :
    after (calls ++ [c]) = c.1.run c.2 (after calls) := by
  rw [after, after, List.foldl_append, List.foldl_cons, List.foldl_nil]

/-- Every call is careful in the storages it finds. -/
def CarefulRun (calls : List (Call × Writes)) : Prop :=
  ∀ pre c post, calls = pre ++ c :: post → Careful (after pre) c

/-- Induction on the calls made so far. -/
theorem CarefulRun.hidden {calls : List (Call × Writes)} (careful : CarefulRun calls) (v : String)
    (pre : List (Call × Writes)) :
    ∀ post, calls = pre ++ post → ((after pre).credentials v).exposed = false := by
  induction pre using List.reverseRecOn with
  | nil => exact fun _ _ => rfl
  | append_singleton pre c ih =>
    intro post split
    have here : calls = pre ++ c :: post := by simpa using split
    rw [after_snoc]
    exact exposed_run _ _ _ (ih (c :: post) here) (careful pre c post here).hides

/-- Induction on the calls made since. -/
theorem CarefulRun.kept {calls : List (Call × Writes)} (careful : CarefulRun calls) {v : String}
    {pre : List (Call × Writes)} (held : ((after pre).credentials v).recoverable = true)
    (mid : List (Call × Writes)) :
    ∀ post, calls = pre ++ mid ++ post → (∀ c ∈ mid, c.1 ≠ .removeVaultMeta v) →
      ((after (pre ++ mid)).credentials v).recoverable = true := by
  induction mid using List.reverseRecOn with
  | nil => intro _ _ _; rwa [List.append_nil]
  | append_singleton mid c ih =>
    intro post split remains
    have here : calls = (pre ++ mid) ++ c :: post := by simpa using split
    have before := ih (c :: post) here fun d mem => remains d (List.mem_append_left [c] mem)
    rw [← List.append_assoc, after_snoc]
    exact (keeps_iff _ _ _).2 (careful (pre ++ mid) c post here).keeps v
      (remains c (List.mem_append_right mid List.mem_cons_self)) before

/-- The device holds what it owes exactly over the careful runs. -/
theorem deviceHolds_iff (calls : List (Call × Writes)) :
    DeviceHolds calls ↔ CarefulRun calls := by
  constructor
  · intro holds pre c post split
    have next : calls = (pre ++ [c]) ++ post := by simpa using split
    refine ⟨(keeps_iff _ _ _).1 fun v remains held => ?_, (hides_iff _ _ _ ?_).1 fun v => ?_⟩
    · rw [← after_snoc]
      refine holds.kept pre [c] post v next held fun d mem => ?_
      rwa [List.mem_singleton.1 mem]
    · exact fun v => holds.hidden pre (c :: post) v split
    · rw [← after_snoc]
      exact holds.hidden (pre ++ [c]) post v next
  · intro careful
    refine ⟨fun pre mid post v split held remains => careful.kept held mid post split remains,
      fun pre post v split => careful.hidden v pre post split, fun pre c post v _ other => ?_⟩
    rw [after_snoc]
    exact c.1.run_elsewhere c.2 (after pre) other

/-- A vault is kept with its token, and is then found on sign-in as one whose token was never
sealed: it is saved again without. -/
theorem not_deviceHolds :
    ¬ ∀ calls : List (Call × Writes), DeviceHolds calls := by
  intro holds
  have kept := (holds [(.saveVaultMeta ⟨"a", some "token", none⟩, ⟨true, true, true⟩),
    (.saveVaultMeta ⟨"a", none, none⟩, ⟨true, true, true⟩)]).kept
      [(.saveVaultMeta ⟨"a", some "token", none⟩, ⟨true, true, true⟩)]
      [(.saveVaultMeta ⟨"a", none, none⟩, ⟨true, true, true⟩)] [] "a" rfl (by decide)
      (by simp)
  revert kept
  decide

end Device

end GhostKey

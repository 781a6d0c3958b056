import GhostKey.Foundation.Dialogue
import GhostKey.Link

/-!
# The Kit's Explorer

The spend panel of the recovery kit asks a block explorer about the vault's addresses. Whom it
asks depends on the text in a box: a host of the reader's own is asked alone, and one of the
published mirrors, or an empty box, lets the panel walk the list of mirrors until one is of use.

Layers:
1. hosts, and the verdicts on their replies;
2. `onFind`, the search, as a program of requests, and the broadcast;
3. the panel, over any moves of the reader;
4. what the panel may contact, and when it keeps to that: `discreet_iff`.

Main results:
- `onFind_discreet_iff`: a search keeps to the hosts it must ask exactly when no host refuses
  that has another behind it.
- `discreet_iff`: the same of a whole session.
-/

namespace GhostKey

open Foundation Program

namespace Explorer

/-! ## §1 Hosts -/

/-- `EXPLORER_MIRRORS` -/
def EXPLORER_MIRRORS : Network → List Text
  | .bitcoin => ["https://blockstream.info/api".toList, "https://mempool.space/api".toList,
      "https://mempool.emzy.de/api".toList, "https://mempool.bitaroo.net/api".toList]
  | .testnet =>
      ["https://blockstream.info/testnet/api".toList, "https://mempool.space/testnet/api".toList]
  | .signet => ["https://mempool.space/signet/api".toList]
  | .regtest => []

/-- `typed.trim().replace(/\/+$/, "")`: what both `explorerCandidates` and `explorerBase` make of
the box. -/
def explorerBase (typed : Text) : Text := (jsTrim typed).rdropWhile fun c => c = '/'

def defaultExplorer (network : Network) : Text := (EXPLORER_MIRRORS network).headD []

def explorerCandidates (network : Network) (typed : Text) : List Text :=
  let cleaned := explorerBase typed
  let mirrors := EXPLORER_MIRRORS network
  if cleaned = [] then mirrors
  else if cleaned ∉ mirrors then [cleaned]
  else cleaned :: mirrors.filter fun m => m ≠ cleaned

inductive ExplorerVerdict where
  | usable
  | tryAnother
  | answered
  deriving DecidableEq

def classifyStatus (status : ℕ) : ExplorerVerdict :=
  if 200 ≤ status ∧ status < 300 then .usable
  else if status = 429 ∨ 500 ≤ status then .tryAnother
  else .answered

/-- A reply of a host, whose body may be cut off, or that there was none. -/
inductive Reply where
  | unreachable (reason : String)
  | replied (status : ℕ) (body : Except String Text)

/-- The verdict on the host that replied. -/
def Reply.verdict : Reply → ExplorerVerdict
  | .unreachable _ => .tryAnother
  | .replied status _ => classifyStatus status

/-! ## §2 The search -/

inductive Query where
  | probe
  | utxos (address : Text)
  | hex (txid : Text)
  | tip
  | broadcast (txHex : Text)
  deriving DecidableEq

/-- A request to a host, which is known by its API's base. -/
structure Request where
  base : Text
  query : Query
  deriving DecidableEq

/-- The address of a request; a transaction to broadcast is its body. -/
def Request.url (r : Request) : Text :=
  r.base ++ match r.query with
    | .probe | .tip => "/blocks/tip/height".toList
    | .utxos address => "/address/".toList ++ address ++ "/utxo".toList
    | .hex txid => "/tx/".toList ++ txid ++ "/hex".toList
    | .broadcast _ => "/tx".toList

abbrev Net (α : Type) := Program Request (fun _ => Reply) String α

/-- Replies that come one after the other, whatever is asked. -/
def inTurn (replies : ℕ → Reply) : ℕ → Request → Reply := fun n _ => replies n

structure EsploraUtxo where
  txid : Text
  vout : ℕ
  value : ℕ
  confirmed : Bool
  blockHeight : Option ℕ
  deriving DecidableEq

structure FundingInput where
  txHex : Text
  confirmationHeight : ℕ
  deriving DecidableEq

/-- What the panel is built for, with the addresses `deriveAddresses` makes of its descriptors and
the readers of the explorers' JSON. -/
structure Params where
  network : Network
  addresses : Except String (List Text × List Text)
  utxosOf : Text → Except String (List EsploraUtxo)
  heightOf : Text → Except String ℕ

/-- One explorer that didn't work out. -/
structure ExplorerFailure where
  url : Text
  reason : String
  reachable : Bool
  deriving DecidableEq

/-- The first usable one of the candidates, in order. -/
def pickExplorer : List Text → List ExplorerFailure → Net (Except (List ExplorerFailure) Text)
  | [], failures => done (.error failures)
  | base :: rest, failures => act ⟨base, .probe⟩ fun
    | .unreachable reason => pickExplorer rest (failures ++ [⟨base, reason, false⟩])
    | .replied status _ =>
      if classifyStatus status = .usable then done (.ok base)
      else pickExplorer rest (failures ++ [⟨base, s!"error {status}", true⟩])

/-- `GAP_LIMIT` -/
def gapLimit : ℕ := 20

/-- `r.ok` -/
def ok (status : ℕ) : Prop := 200 ≤ status ∧ status < 300

instance (status : ℕ) : Decidable (ok status) := inferInstanceAs (Decidable (_ ∧ _))

def getJson {β : Type} (r : Request) (decode : Text → Except String β) : Net β :=
  act r fun
    | .unreachable reason => fail reason
    | .replied status body =>
      if ok status then
        match body.bind decode with
        | .ok b => done b
        | .error e => fail e
      else
        let url := String.ofList r.url
        fail s!"explorer returned {status} for {url}"

/-- The coins of a keychain, up to the gap limit. -/
def scanList (p : Params) (base : Text) : ℕ → List Text → Net (List EsploraUtxo)
  | _, [] => done []
  | gap, addr :: rest => (getJson ⟨base, .utxos addr⟩ p.utxosOf).bind fun found =>
    if found = [] then
      if gapLimit ≤ gap + 1 then done [] else scanList p base (gap + 1) rest
    else (scanList p base 0 rest).bind fun more => done (found ++ more)

/-- The height at which each transaction was confirmed; a coin of a transaction seen before
overwrites its height. -/
def byTxid (confirmed : List EsploraUtxo) : List (Text × ℕ) :=
  confirmed.foldl (fun heights u =>
    let height := u.blockHeight.getD 0
    if u.txid ∈ heights.map Prod.fst then
      heights.map fun entry => if entry.1 = u.txid then (entry.1, height) else entry
    else heights ++ [(u.txid, height)]) []

def fetchFunding (base : Text) : List (Text × ℕ) → Net (List FundingInput)
  | [] => done []
  | (txid, height) :: rest => act ⟨base, .hex txid⟩ fun
    | .unreachable reason => fail reason
    | .replied status body =>
      if ok status then
        match body with
        | .ok text => (fetchFunding base rest).bind fun more =>
          done (⟨jsTrim text, height⟩ :: more)
        | .error e => fail e
      else
        let name := String.ofList txid
        fail s!"could not fetch transaction {name} ({status})"

/-- What a search finds. -/
inductive Found where
  | noConfirmed
  | coins (funding : List FundingInput) (chainTip : ℕ) (count total : ℕ)

/-- The part of `onFind` behind the choice of a host. -/
def lookUp (p : Params) (base : Text) : Net Found :=
  match p.addresses with
  | .error e => fail e
  | .ok (external, internal) =>
    (scanList p base 0 external).bind fun first =>
    (scanList p base 0 internal).bind fun second =>
    let confirmed := (first ++ second).filter fun u => u.confirmed && u.blockHeight.getD 0 ≠ 0
    if confirmed = [] then done .noConfirmed
    else
      (fetchFunding base (byTxid confirmed)).bind fun funding =>
      (getJson ⟨base, .tip⟩ p.heightOf).bind fun chainTip =>
      done (.coins funding chainTip confirmed.length (confirmed.map EsploraUtxo.value).sum)

inductive Ending where
  | failures (failures : List ExplorerFailure)
  | scan (result : Except String Found)

/-- What a search leaves behind: the host it shows in the box, and what it tells the reader. -/
structure Search where
  picked : Option Text
  ending : Ending

def lookUpAt (p : Params) : Except (List ExplorerFailure) Text → Net Search
  | .error failures => done ⟨none, .failures failures⟩
  | .ok base => (lookUp p base).attempt.bind fun result => done ⟨some base, .scan result⟩

/-- `onFind`, with that text in the box. With nothing to try it contacts nobody. -/
def onFind (p : Params) (typed : Text) : Net Search :=
  (pickExplorer (explorerCandidates p.network typed) []).bind (lookUpAt p)

/-- What comes of a broadcast: the id to show. -/
def sentTxid (txid : Text) : Reply → Except String Text
  | .unreachable reason => .error reason
  | .replied status body => do
    let text ← body
    let body := jsTrim text
    if ok status then .ok (if body = [] then txid else body)
    else .error (if body = [] then s!"explorer returned {status}" else String.ofList body)

/-- The handler of the broadcast button, with that text in the box. -/
def broadcast (typed txHex txid : Text) : Net Text :=
  act ⟨explorerBase typed, .broadcast txHex⟩ fun reply =>
    match sentTxid txid reply with
    | .ok id => done id
    | .error e => fail e

/-! ## §3 The panel -/

/-- The box, and the host of the last search that got as far as to pick one. -/
structure Panel where
  box : Text
  picked : Option Text

/-- What the reader does. A search reads the box when it begins and sets it when it picks a host,
so what is typed in between can as well be typed before the search, or behind it. A broadcast is
offered after a search that picked a host. -/
inductive Move where
  | edit (text : Text)
  | find (replies : ℕ → Reply)
  | broadcast (txHex txid : Text) (reply : Reply)

def Panel.start (network : Network) : Panel := ⟨defaultExplorer network, none⟩

abbrev Contacts := History Request fun _ => Reply

/-- The requests of a move, each with its reply. -/
def contacts (p : Params) (panel : Panel) : Move → Contacts
  | .edit _ => []
  | .find replies => (onFind p panel.box).heard (inTurn replies)
  | .broadcast txHex txid reply => match panel.picked with
    | some _ => (broadcast panel.box txHex txid).heard fun _ _ => reply
    | none => []

def Panel.step (p : Params) (panel : Panel) : Move → Panel
  | .edit text => { panel with box := text }
  | .find replies => match (onFind p panel.box).outcome (inTurn replies) with
    | .ok ⟨some base, _⟩ => ⟨base, some base⟩
    | _ => panel
  | .broadcast _ _ _ => panel

/-- The moves of a session, each with the panel it is made on. -/
def trace (p : Params) : Panel → List Move → List (Panel × Move)
  | _, [] => []
  | panel, move :: moves => (panel, move) :: trace p (panel.step p move) moves

/-! ## §4 What may be contacted -/

/-- Overloaded, broken, or not there. -/
def StepPast (r : Reply) : Prop := r.verdict = .tryAnother

/-- A real answer, and it is no. -/
def Refuses (r : Reply) : Prop := r.verdict = .answered

/-- The host a base names: slashes and white space behind it are no part of it. -/
def site (base : Text) : Text := (jsTrim base).rdropWhile fun c => c = '/' || isJsSpace c

/-- A search contacts the hosts it must: a host of the reader's own alone, else published mirrors,
in order; it goes on from a host to another only where it probed that host and got nothing of use
from it; and it looks things up at the host whose probe was usable. -/
structure Discreet (network : Network) (typed : Text) (h : Contacts) : Prop where
  alone : explorerBase typed ≠ [] → explorerBase typed ∉ EXPLORER_MIRRORS network →
    ∀ e ∈ h, e.action.base = explorerBase typed
  published : explorerBase typed = [] ∨ explorerBase typed ∈ EXPLORER_MIRRORS network →
    ∀ e ∈ h, e.action.base ∈ EXPLORER_MIRRORS network
  ordered : (h.filter fun e => e.action.query = .probe).map (fun e => e.action.base) <+:
    explorerCandidates network typed
  steps : h.Pairwise fun e e' => e'.action.base ≠ e.action.base →
    e.action.query = .probe ∧ StepPast e.response
  lookups : ∀ e ∈ h, e.action.query ≠ .probe → ∃ probe ∈ h, probe.action = ⟨e.action.base, .probe⟩ ∧
    probe.response.verdict = .usable

/-- The first host that is not stepped past does not refuse, or it is the last one. -/
def Heeded (candidates : List Text) (replies : ℕ → Reply) : Prop :=
  ∀ i, (∀ j < i, StepPast (replies j)) → Refuses (replies i) → candidates.length ≤ i + 1

theorem heeded_cons_iff {c : Text} {cs : List Text} {replies : ℕ → Reply} :
    Heeded (c :: cs) replies ↔
      (Refuses (replies 0) → cs = []) ∧ (StepPast (replies 0) → Heeded cs (later replies)) := by
  constructor
  · intro heeded
    constructor
    · intro refuses
      have short := heeded 0 (fun j before => absurd before (Nat.not_lt_zero j)) refuses
      exact List.length_eq_zero_iff.1 (by simpa using short)
    · intro past i before refuses
      have short := heeded (i + 1) (fun j earlier => by
        cases j with
        | zero => exact past
        | succ j => exact before j (by omega)) refuses
      simpa using short
  · rintro ⟨first, others⟩ i before refuses
    cases i with
    | zero => simp [first refuses]
    | succ i =>
      have short := others (before 0 (by omega)) i (fun j earlier => before (j + 1) (by omega))
        refuses
      simpa using short

/-! ## §5 The candidates -/

theorem nodup_candidates (network : Network) (typed : Text) :
    (explorerCandidates network typed).Nodup := by
  have mirrors : (EXPLORER_MIRRORS network).Nodup := by cases network <;> decide
  simp only [explorerCandidates]
  split
  · exact mirrors
  · split
    · exact List.nodup_singleton _
    · exact List.nodup_cons.2 ⟨by simp, mirrors.filter _⟩

/-- A host of the reader's own is the only candidate. -/
theorem candidates_own {network : Network} {typed : Text} (nonempty : explorerBase typed ≠ [])
    (own : explorerBase typed ∉ EXPLORER_MIRRORS network) :
    explorerCandidates network typed = [explorerBase typed] := by
  simp only [explorerCandidates, nonempty, own, if_false, if_true, not_false_eq_true]

/-- Else all are mirrors. -/
theorem mem_mirrors_of_mem {network : Network} {typed base : Text}
    (published : explorerBase typed = [] ∨ explorerBase typed ∈ EXPLORER_MIRRORS network)
    (mem : base ∈ explorerCandidates network typed) : base ∈ EXPLORER_MIRRORS network := by
  by_cases empty : explorerBase typed = []
  · simpa only [explorerCandidates, empty, if_true] using mem
  · have inside := published.resolve_left empty
    simp only [explorerCandidates, empty, inside, if_false, not_true_eq_false] at mem
    rcases List.mem_cons.1 mem with rfl | other
    · exact inside
    · exact (List.mem_filter.1 other).1

/-! ## §6 One search -/

section Walk

variable {p : Params}

/-- The search of a list of candidates. -/
def walk (p : Params) (cs : List Text) (fs : List ExplorerFailure) : Net Search :=
  (pickExplorer cs fs).bind (lookUpAt p)

/-- A probe, and then either the lookups or the search of the others. -/
theorem heard_walk_cons (c : Text) (cs : List Text) (fs : List ExplorerFailure)
    (replies : ℕ → Reply) : ∃ fs', (walk p (c :: cs) fs).heard (inTurn replies) =
      ⟨⟨c, .probe⟩, replies 0⟩ ::
        if (replies 0).verdict = .usable then (lookUpAt p (.ok c)).heard (inTurn (later replies))
        else (walk p cs fs').heard (inTurn (later replies)) := by
  have turn : later (inTurn replies) = inTurn (later replies) := rfl
  cases reply : replies 0 with
  | unreachable reason =>
    refine ⟨fs ++ [⟨c, reason, false⟩], ?_⟩
    rw [walk, pickExplorer, act_bind, heard, inTurn, reply, turn]
    rfl
  | replied status body =>
    refine ⟨fs ++ [⟨c, s!"error {status}", true⟩], ?_⟩
    rw [walk, pickExplorer, act_bind, heard, inTurn, reply, turn]
    by_cases usable : classifyStatus status = .usable
    · simp only [Reply.verdict, usable, if_true, done_bind]
    · simp only [Reply.verdict, usable, if_false, walk]

theorem only_getJson {β : Type} {ok : Request → Prop} {r : Request} (good : ok r)
    (decode : Text → Except String β) : Only ok (getJson r decode) := by
  refine ⟨good, fun reply => ?_⟩
  cases reply with
  | unreachable reason => exact .fail _
  | replied status body =>
    dsimp only
    split
    · split <;> trivial
    · trivial

/-- A request of the lookups at a host. -/
def AtHost (base : Text) (r : Request) : Prop := r.base = base ∧ r.query ≠ .probe

theorem only_scanList (base : Text) (gap : ℕ) (addrs : List Text) :
    Only (AtHost base) (scanList p base gap addrs) := by
  induction addrs generalizing gap with
  | nil => trivial
  | cons addr rest ih =>
    apply Only.bind
    · exact only_getJson ⟨rfl, by simp⟩ _
    · intro found
      split
      · split
        · trivial
        · exact ih _
      · exact (ih 0).bind fun more => trivial

theorem only_fetchFunding (base : Text) (heights : List (Text × ℕ)) :
    Only (AtHost base) (fetchFunding base heights) := by
  induction heights with
  | nil => trivial
  | cons entry rest ih =>
    refine ⟨⟨rfl, by simp⟩, fun reply => ?_⟩
    cases reply with
    | unreachable reason => trivial
    | replied status body =>
      dsimp only
      split
      · cases body with
        | error e => trivial
        | ok text => exact ih.bind fun more => trivial
      · trivial

/-- All lookups go to the host that was picked. -/
theorem only_lookUpAt (base : Text) : Only (AtHost base) (lookUpAt p (.ok base)) := by
  have only : Only (AtHost base) (lookUp p base) := by
    unfold lookUp
    split
    · trivial
    · apply Only.bind (only_scanList base 0 _)
      intro first
      apply Only.bind (only_scanList base 0 _)
      intro second
      dsimp only
      split
      · trivial
      · apply Only.bind (only_fetchFunding base _)
        intro funding
        exact (only_getJson ⟨rfl, by simp⟩ _).bind fun tip => trivial
  exact only.attempt.bind fun result => trivial

theorem mem_base_walk {cs : List Text} {fs : List ExplorerFailure} {replies : ℕ → Reply} :
    ∀ e ∈ (walk p cs fs).heard (inTurn replies), e.action.base ∈ cs := by
  induction cs generalizing fs replies with
  | nil =>
    intro e mem
    cases mem
  | cons c cs ih =>
    intro e mem
    obtain ⟨fs', shape⟩ := heard_walk_cons (p := p) c cs fs replies
    rw [shape] at mem
    rcases List.mem_cons.1 mem with rfl | inside
    · exact .head cs
    · split at inside
      · have at_c := ((only_lookUpAt c).heard _ e inside).1
        rw [at_c]
        exact .head cs
      · exact .tail c (ih e inside)

theorem probes_walk (cs : List Text) (fs : List ExplorerFailure) (replies : ℕ → Reply) :
    (((walk p cs fs).heard (inTurn replies)).filter fun e => e.action.query = .probe).map
      (fun e => e.action.base) <+: cs := by
  induction cs generalizing fs replies with
  | nil => exact List.prefix_rfl
  | cons c cs ih =>
    obtain ⟨fs', shape⟩ := heard_walk_cons (p := p) c cs fs replies
    rw [shape, List.filter_cons_of_pos (by simp), List.map_cons, List.cons_prefix_cons]
    refine ⟨rfl, ?_⟩
    split
    · -- no lookup is a probe
      have none : ((lookUpAt p (.ok c)).heard (inTurn (later replies))).filter
          (fun e => e.action.query = .probe) = [] := by
        apply List.filter_eq_nil_iff.2
        intro e mem
        simpa using ((only_lookUpAt c).heard _ e mem).2
      rw [none]
      exact List.nil_prefix
    · exact ih fs' _

theorem lookups_walk (cs : List Text) (fs : List ExplorerFailure) (replies : ℕ → Reply) :
    ∀ e ∈ (walk p cs fs).heard (inTurn replies), e.action.query ≠ .probe →
      ∃ probe ∈ (walk p cs fs).heard (inTurn replies), probe.action = ⟨e.action.base, .probe⟩ ∧
        probe.response.verdict = .usable := by
  induction cs generalizing fs replies with
  | nil =>
    intro e mem
    cases mem
  | cons c cs ih =>
    intro e mem lookup
    obtain ⟨fs', shape⟩ := heard_walk_cons (p := p) c cs fs replies
    rw [shape] at mem ⊢
    rcases List.mem_cons.1 mem with rfl | inside
    · exact absurd rfl lookup
    · by_cases usable : (replies 0).verdict = .usable
      · rw [if_pos usable] at inside
        have at_c := ((only_lookUpAt c).heard _ e inside).1
        exact ⟨_, .head _, by rw [at_c], usable⟩
      · rw [if_neg usable] at inside ⊢
        obtain ⟨probe, mem', same, good⟩ := ih fs' _ e inside lookup
        exact ⟨probe, .tail _ mem', same, good⟩

/-- The search steps past hosts of no use only, exactly when no host refuses before another. -/
theorem steps_walk_iff {cs : List Text} (distinct : cs.Nodup) (fs : List ExplorerFailure)
    (replies : ℕ → Reply) :
    ((walk p cs fs).heard (inTurn replies)).Pairwise (fun e e' => e'.action.base ≠ e.action.base →
      e.action.query = .probe ∧ StepPast e.response) ↔ Heeded cs replies := by
  induction cs generalizing fs replies with
  | nil => exact iff_of_true List.Pairwise.nil fun i _ _ => Nat.zero_le _
  | cons c cs ih =>
    obtain ⟨fresh, rest⟩ := List.nodup_cons.1 distinct
    obtain ⟨fs', shape⟩ := heard_walk_cons (p := p) c cs fs replies
    rw [shape, List.pairwise_cons, heeded_cons_iff]
    cases verdict : (replies 0).verdict with
    | usable =>
      -- everything after the probe goes to its host
      rw [if_pos rfl]
      have at_c := fun e mem => ((only_lookUpAt (p := p) c).heard (inTurn (later replies)) e mem).1
      refine iff_of_true ⟨fun e' mem other => absurd (at_c e' mem) other, ?_⟩ ⟨?_, ?_⟩
      · apply List.pairwise_of_forall_mem_list
        intro e mem e' mem' other
        exact absurd ((at_c e' mem').trans (at_c e mem).symm) other
      · intro refuses
        cases verdict.symm.trans refuses
      · intro past
        cases verdict.symm.trans past
    | tryAnother =>
      rw [if_neg (by decide), ih rest]
      constructor
      · rintro ⟨-, others⟩
        exact ⟨fun refuses => absurd (verdict.symm.trans refuses) (by decide), fun _ => others⟩
      · rintro ⟨-, others⟩
        exact ⟨fun _ _ _ => ⟨rfl, verdict⟩, others verdict⟩
    | answered =>
      rw [if_neg (by decide), ih rest]
      constructor
      · rintro ⟨first, -⟩
        refine ⟨fun _ => ?_, fun past => absurd (verdict.symm.trans past) (by decide)⟩
        -- the next host, which is another, would be asked
        cases cs with
        | nil => rfl
        | cons c' cs' =>
          obtain ⟨fs'', shape'⟩ := heard_walk_cons (p := p) c' cs' fs' (later replies)
          have other : c' ≠ c := fun eq => fresh (eq ▸ .head cs')
          have past := (first _ (by rw [shape']; exact .head _) other).2
          cases verdict.symm.trans past
      · rintro ⟨last, -⟩
        obtain rfl := last verdict
        exact ⟨fun e' mem => absurd mem List.not_mem_nil, fun i _ _ => Nat.zero_le _⟩

/-- A search keeps to the hosts it must ask exactly when no host refuses that has another behind
it. -/
theorem onFind_discreet_iff (typed : Text) (replies : ℕ → Reply) :
    Discreet p.network typed ((onFind p typed).heard (inTurn replies)) ↔
      Heeded (explorerCandidates p.network typed) replies := by
  have steps := steps_walk_iff (p := p) (nodup_candidates p.network typed) [] replies
  constructor
  · intro discreet
    exact steps.1 discreet.steps
  · intro heeded
    constructor
    · intro nonempty own e mem
      have inside := mem_base_walk e mem
      rw [candidates_own nonempty own] at inside
      exact List.mem_singleton.1 inside
    · intro published e mem
      exact mem_mirrors_of_mem published (mem_base_walk e mem)
    · exact probes_walk _ _ _
    · exact steps.2 heeded
    · exact lookups_walk _ _ _

end Walk

/-! ## §7 A session -/

/-- The box, cleaned, names the same host. -/
theorem site_explorerBase (typed : Text) : site (explorerBase typed) = site typed := by
  have front : (explorerBase typed).dropWhile isJsSpace = explorerBase typed := by
    apply Text.dropWhile_prefix (List.rdropWhile_prefix _ _)
    exact Text.dropWhile_prefix (List.rdropWhile_prefix _ _) (List.dropWhile_idempotent _ _)
  rw [site, jsTrim, Text.trimBy, front, Text.rdropWhile_rdropWhile (by simp +contextual),
    explorerBase, Text.rdropWhile_rdropWhile (by simp +contextual), site]

/-- What a move may contact: a search as above, a broadcast the host that was picked. -/
def Private (p : Params) (panel : Panel) : Move → Prop
  | .edit text => contacts p panel (.edit text) = []
  | .find replies => Discreet p.network panel.box (contacts p panel (.find replies))
  | .broadcast txHex txid reply => ∀ base, panel.picked = some base →
      ∀ e ∈ contacts p panel (.broadcast txHex txid reply), site e.action.base = site base

/-- What a move takes for that: no host refuses a search that has another to try, and the box is
not made to name another host between a search and the broadcast. -/
def Careful (p : Params) (panel : Panel) : Move → Prop
  | .edit _ => True
  | .find replies => Heeded (explorerCandidates p.network panel.box) replies
  | .broadcast _ _ _ => ∀ base, panel.picked = some base → site panel.box = site base

theorem private_iff (p : Params) (panel : Panel) (move : Move) :
    Private p panel move ↔ Careful p panel move := by
  cases move with
  | edit text => exact iff_of_true rfl trivial
  | find replies => exact onFind_discreet_iff panel.box replies
  | broadcast txHex txid reply =>
    apply forall_congr'
    intro base
    apply imp_congr_right
    intro picked
    have sent : contacts p panel (.broadcast txHex txid reply) =
        [⟨⟨explorerBase panel.box, .broadcast txHex⟩, reply⟩] := by
      simp only [contacts, picked, broadcast, heard]
      cases sentTxid txid reply <;> rfl
    rw [sent, List.forall_mem_singleton, site_explorerBase]

/-- In a session the panel keeps to the hosts it must contact exactly when the reader and the
hosts' replies let every search and every broadcast do so. -/
theorem discreet_iff (p : Params) (moves : List Move) :
    (∀ entry ∈ trace p (.start p.network) moves, Private p entry.1 entry.2) ↔
      ∀ entry ∈ trace p (.start p.network) moves, Careful p entry.1 entry.2 :=
  forall₂_congr fun entry _ => private_iff p entry.1 entry.2

/-- A search whose first host refuses asks the next one. -/
theorem not_discreet : ¬ ∀ (p : Params) (moves : List Move),
    ∀ entry ∈ trace p (.start p.network) moves, Private p entry.1 entry.2 := by
  intro always
  have kept := always ⟨.bitcoin, .error "", fun _ => .error "", fun _ => .error ""⟩
    [.find fun _ => .replied 404 (.ok [])] _ (.head _)
  have heeded := (private_iff _ _ _).1 kept
  have short := heeded 0 (fun j before => absurd before (Nat.not_lt_zero j)) rfl
  exact absurd short (by decide)

end Explorer

end GhostKey

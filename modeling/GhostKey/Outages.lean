import GhostKey.Actions
import Mathlib.Order.Defs.LinearOrder

/-!
# Lightning Outages

On every tick the scheduler probes Lightning and asks its gate whether heirs may be contacted.
The gate keeps the start of an outage and the end of one recovery grace. An outage that ends
while the grace of an earlier one is running sets that end anew.

Layers:
1. `seen`: the outages a sequence of probes shows, in order;
2. `gateAfter`: the gate, which knows the last of them: `Tracks`;
3. `suppressed_iff`: when the gate lets heirs be contacted;
4. `kept_iff`: when every outage gets its grace.
-/

namespace GhostKey

namespace Outages

/-! ## §1 Probes and outages -/

/-- What a tick found out about Lightning, and when. -/
structure Probe where
  healthy : Bool
  now : Instant
  deriving DecidableEq

/-- An outage, from the first probe that failed to the one that found Lightning back. -/
structure Outage where
  since : Instant
  recovered : Instant
  deriving DecidableEq

namespace Outage

def lasted (o : Outage) : Int := o.recovered - o.since

/-- When the grace it earns is over. -/
def graceEnd (maxGrace : Int) (o : Outage) : Instant := o.recovered + min o.lasted maxGrace

end Outage

/-- The outage under way, by its start, and those that are over. -/
structure Seen where
  down : Option Instant
  past : List Outage

def Seen.next (s : Seen) (p : Probe) : Seen :=
  if p.healthy then
    match s.down with
    | some since => ⟨none, s.past ++ [⟨since, p.now⟩]⟩
    | none => s
  else ⟨some (s.down.getD p.now), s.past⟩

/-- What a sequence of probes shows. -/
def seen (probes : List Probe) : Seen := probes.foldl Seen.next ⟨none, []⟩

theorem seen_snoc (probes : List Probe) (p : Probe) :
    seen (probes ++ [p]) = (seen probes).next p :=
  List.foldl_append

/-- What is over stays over. -/
theorem past_prefix (before after : List Probe) :
    (seen before).past <+: (seen (before ++ after)).past := by
  induction after using List.reverseRecOn with
  | nil => simp only [List.append_nil, List.prefix_rfl]
  | append_singleton after p ih =>
    rw [← List.append_assoc, seen_snoc]
    refine ih.trans ?_
    unfold Seen.next
    split
    · split
      · exact List.prefix_append _ _
      · exact List.prefix_refl _
    · exact List.prefix_refl _

/-! ## §2 The gate -/

/-- The gate of a process, after these probes. -/
def gateAfter (maxGrace : Int) (probes : List Probe) : LnGate :=
  probes.foldl (fun gate p => (gate.update p.healthy p.now maxGrace).1) .default

/-- The answer to the probe that comes next. -/
def suppressed (maxGrace : Int) (before : List Probe) (p : Probe) : Bool :=
  ((gateAfter maxGrace before).update p.healthy p.now maxGrace).2

theorem gateAfter_snoc (maxGrace : Int) (probes : List Probe) (p : Probe) :
    gateAfter maxGrace (probes ++ [p]) =
      ((gateAfter maxGrace probes).update p.healthy p.now maxGrace).1 :=
  List.foldl_append

/-- The gate knows of the outage under way, and of the last one that is over until a probe has
come after its grace. -/
structure Tracks (maxGrace : Int) (probes : List Probe) (gate : LnGate) : Prop where
  down : gate.unhealthySince = (seen probes).down
  fresh : (seen probes).past.getLast? = none → gate.suppressUntil = none
  last : ∀ o, (seen probes).past.getLast? = some o →
    gate.suppressUntil = some (o.graceEnd maxGrace) ∨
      gate.suppressUntil = none ∧ ∃ p ∈ probes, o.graceEnd maxGrace ≤ p.now

/-- A probe that finds Lightning down. -/
theorem Tracks.lost {maxGrace : Int} {probes : List Probe} {gate : LnGate}
    (tracks : Tracks maxGrace probes gate) {p : Probe} (failed : p.healthy = false) :
    Tracks maxGrace (probes ++ [p]) (gate.update p.healthy p.now maxGrace).1 := by
  have next : seen (probes ++ [p]) = ⟨some ((seen probes).down.getD p.now), (seen probes).past⟩ := by
    rw [seen_snoc, Seen.next, failed]
    rfl
  have until_ : (gate.update p.healthy p.now maxGrace).1.suppressUntil = gate.suppressUntil := by
    rw [failed, LnGate.update]
    cases gate.unhealthySince <;> rfl
  constructor
  · rw [next, ← tracks.down, failed, LnGate.update]
    cases down : gate.unhealthySince with
    | none => rfl
    | some since => exact down
  · rw [next, until_]
    exact tracks.fresh
  · intro o found
    rw [next] at found
    rw [until_]
    rcases tracks.last o found with running | ⟨dropped, q, mem, passed⟩
    · exact .inl running
    · exact .inr ⟨dropped, q, List.mem_append_left _ mem, passed⟩

/-- A probe that finds it working, before the grace is looked at. -/
theorem Tracks.recover {maxGrace : Int} {probes : List Probe} {gate : LnGate}
    (tracks : Tracks maxGrace probes gate) {p : Probe} (works : p.healthy = true) :
    Tracks maxGrace (probes ++ [p]) (gate.recover p.now maxGrace) := by
  have down := tracks.down
  cases since : gate.unhealthySince with
  | none =>
    -- there was no outage: all is as it was
    rw [since] at down
    have next : seen (probes ++ [p]) = seen probes := by
      rw [seen_snoc, Seen.next, works, ← down]
      rfl
    have same : gate.recover p.now maxGrace = gate := by rw [LnGate.recover, since]
    rw [same]
    constructor
    · rw [next]
      exact tracks.down
    · rw [next]
      exact tracks.fresh
    · intro o found
      rw [next] at found
      rcases tracks.last o found with running | ⟨dropped, q, mem, passed⟩
      · exact .inl running
      · exact .inr ⟨dropped, q, List.mem_append_left _ mem, passed⟩
  | some start =>
    rw [since] at down
    have next : seen (probes ++ [p]) = ⟨none, (seen probes).past ++ [⟨start, p.now⟩]⟩ := by
      rw [seen_snoc, Seen.next, works, ← down]
      rfl
    have gate_eq : gate.recover p.now maxGrace =
        ⟨none, some (Outage.graceEnd maxGrace ⟨start, p.now⟩)⟩ := by
      have least : (if p.now - start < maxGrace then p.now - start else maxGrace) =
          min (p.now - start) maxGrace := by
        split
        · next shorter => exact (min_eq_left (le_of_lt shorter)).symm
        · next longer => exact (min_eq_right (not_lt.1 longer)).symm
      rw [LnGate.recover, since]
      dsimp only
      rw [least]
      rfl
    rw [gate_eq]
    constructor
    · rw [next]
    · intro empty
      rw [next, List.getLast?_concat] at empty
      cases empty
    · intro o found
      rw [next, List.getLast?_concat] at found
      obtain rfl := Option.some.inj found
      exact .inl rfl

/-- The answer to such a probe. -/
theorem update_healthy (gate : LnGate) (now : Instant) (maxGrace : Int) :
    gate.update true now maxGrace = match (gate.recover now maxGrace).suppressUntil with
      | some until_ => if now < until_ then (gate.recover now maxGrace, true)
        else ({ gate.recover now maxGrace with suppressUntil := none }, false)
      | none => (gate.recover now maxGrace, false) :=
  rfl

/-- It keeps what the gate knows: a grace that is dropped is over by then. -/
theorem Tracks.next {maxGrace : Int} {probes : List Probe} {gate : LnGate}
    (tracks : Tracks maxGrace probes gate) (p : Probe) :
    Tracks maxGrace (probes ++ [p]) (gate.update p.healthy p.now maxGrace).1 := by
  cases works : p.healthy with
  | false => simpa only [works] using tracks.lost works
  | true =>
    have after := tracks.recover works
    rw [update_healthy]
    cases until_ : (gate.recover p.now maxGrace).suppressUntil with
    | none => exact after
    | some end_ =>
      dsimp only
      -- a grace that is over is dropped by this probe
      by_cases running : p.now < end_
      · rw [if_pos running]
        exact after
      · rw [if_neg running]
        constructor
        · exact after.down
        · intro _
          rfl
        · intro o found
          refine .inr ⟨rfl, p, List.mem_append_right _ (.head _), ?_⟩
          rcases after.last o found with same | ⟨dropped, -⟩
          · rw [until_] at same
            rw [← Option.some.inj same]
            exact Int.not_lt.1 running
          · rw [until_] at dropped
            cases dropped

theorem tracks_gateAfter (maxGrace : Int) (probes : List Probe) :
    Tracks maxGrace probes (gateAfter maxGrace probes) := by
  induction probes using List.reverseRecOn with
  | nil => exact ⟨rfl, fun _ => rfl, fun o found => by cases found⟩
  | append_singleton probes p ih =>
    rw [gateAfter_snoc]
    exact ih.next p

/-! ## §3 Its answers -/

/-- It is yes while Lightning is down. -/
theorem suppressed_of_down {maxGrace : Int} {before : List Probe} {p : Probe}
    (failed : p.healthy = false) : suppressed maxGrace before p = true := by
  rw [suppressed, failed]
  rfl

/-- When Lightning works it is no from the end of the last outage's grace on. -/
theorem suppressed_eq_false_iff {maxGrace : Int} {before : List Probe} {p : Probe}
    (ordered : ∀ q ∈ before, q.now ≤ p.now) (works : p.healthy = true) :
    suppressed maxGrace before p = false ↔
      ∀ o, (seen (before ++ [p])).past.getLast? = some o → o.graceEnd maxGrace ≤ p.now := by
  have after := (tracks_gateAfter maxGrace before).recover works
  have latest : ∀ q ∈ before ++ [p], q.now ≤ p.now := by
    intro q mem
    rcases List.mem_append.1 mem with earlier | this
    · exact ordered q earlier
    · rw [List.mem_singleton.1 this]
  rw [suppressed, works, update_healthy]
  cases until_ : ((gateAfter maxGrace before).recover p.now maxGrace).suppressUntil with
  | none =>
    refine iff_of_true rfl fun o found => ?_
    rcases after.last o found with running | ⟨-, q, mem, passed⟩
    · rw [until_] at running
      cases running
    · exact le_trans passed (latest q mem)
  | some end_ =>
    -- that is the end of the last outage's grace
    obtain ⟨o, found⟩ : ∃ o, (seen (before ++ [p])).past.getLast? = some o := by
      cases last : (seen (before ++ [p])).past.getLast? with
      | some o => exact ⟨o, rfl⟩
      | none =>
        have fresh := after.fresh last
        rw [until_] at fresh
        cases fresh
    have same : end_ = o.graceEnd maxGrace := by
      rcases after.last o found with running | ⟨dropped, -⟩
      · exact Option.some.inj (until_.symm.trans running)
      · rw [until_] at dropped
        cases dropped
    have answer : (if p.now < end_ then ((gateAfter maxGrace before).recover p.now maxGrace, true)
        else ({ (gateAfter maxGrace before).recover p.now maxGrace with
          suppressUntil := none }, false)).2 = decide (p.now < end_) := by
      split
      · next running => exact (decide_eq_true running).symm
      · next ended => exact (decide_eq_false ended).symm
    dsimp only
    rw [answer, decide_eq_false_iff_not, same, found]
    constructor
    · intro passed o' eq
      rw [← Option.some.inj eq]
      exact Int.not_lt.1 passed
    · intro ended
      exact Int.not_lt.2 (ended o rfl)

/-! ## §4 The graces of all outages -/

/-- While Lightning is down heirs are not contacted, and when they are, the grace of every outage
before that is over. -/
def Kept (maxGrace : Int) (probes : List Probe) : Prop :=
  ∀ before p after, probes = before ++ p :: after →
    (p.healthy = false → suppressed maxGrace before p = true) ∧
      (suppressed maxGrace before p = false →
        ∀ o ∈ (seen (before ++ [p])).past, o.graceEnd maxGrace ≤ p.now)

/-- No probe that finds Lightning working comes after the grace of the last outage, but before the
end of an earlier outage's. -/
def Unshortened (maxGrace : Int) (probes : List Probe) : Prop :=
  ∀ before p after, probes = before ++ p :: after → p.healthy = true →
    (∀ last, (seen (before ++ [p])).past.getLast? = some last → last.graceEnd maxGrace ≤ p.now) →
      ∀ o ∈ (seen (before ++ [p])).past, o.graceEnd maxGrace ≤ p.now

/-- Where the graces end in turn, none is shortened. -/
theorem unshortened_of_inTurn {maxGrace : Int} {probes : List Probe}
    (inTurn : (seen probes).past.Pairwise fun o o' => o.graceEnd maxGrace ≤ o'.graceEnd maxGrace) :
    Unshortened maxGrace probes := by
  rintro before p after rfl - ended o mem
  have past := past_prefix (before ++ [p]) after
  rw [List.append_assoc] at past
  have ordered := inTurn.sublist past.sublist
  have found := List.getLast?_eq_some_getLast (List.ne_nil_of_mem mem)
  generalize (seen (before ++ [p])).past.getLast (List.ne_nil_of_mem mem) = last at found
  obtain ⟨earlier, whole⟩ := List.getLast?_eq_some_iff.1 found
  rw [whole] at ordered mem
  rcases List.mem_append.1 mem with old | new
  · have turn := (List.pairwise_append.1 ordered).2.2 o old last List.mem_cons_self
    exact turn.trans (ended last found)
  · rw [List.mem_singleton.1 new]
    exact ended last found

/-- Every outage gets its grace exactly when no probe falls between a later grace and an earlier
one that is longer. -/
theorem kept_iff {maxGrace : Int} {probes : List Probe}
    (ordered : probes.Pairwise fun p q => p.now ≤ q.now) :
    Kept maxGrace probes ↔ Unshortened maxGrace probes := by
  have answer : ∀ before p after, probes = before ++ p :: after → p.healthy = true →
      (suppressed maxGrace before p = false ↔
        ∀ o, (seen (before ++ [p])).past.getLast? = some o → o.graceEnd maxGrace ≤ p.now) := by
    intro before p after eq works
    rw [eq] at ordered
    have earlier := (List.pairwise_append.1 ordered).2.2
    exact suppressed_eq_false_iff (fun q mem => earlier q mem p (.head after)) works
  constructor
  · intro kept before p after eq works ended
    exact (kept before p after eq).2 ((answer before p after eq works).2 ended)
  · intro unshortened before p after eq
    refine ⟨suppressed_of_down, fun no => ?_⟩
    cases works : p.healthy with
    | false =>
      rw [suppressed_of_down works] at no
      cases no
    | true => exact unshortened before p after eq works ((answer before p after eq works).1 no)

/-- An outage of a minute, and then one of an hour, whose grace is over in the end. -/
def longAfterShort : List Probe :=
  [⟨false, 0⟩, ⟨true, seconds 60⟩, ⟨false, seconds 90⟩, ⟨true, seconds 3690⟩,
    ⟨true, seconds 7290⟩]

theorem kept_iff_longAfterShort : Kept LnGate.maxRecoveryGrace longAfterShort ∧
    suppressed LnGate.maxRecoveryGrace (longAfterShort.take 4) ⟨true, seconds 7290⟩ = false :=
  ⟨(kept_iff (by decide)).2 (unshortened_of_inTurn (by decide)), by decide⟩

/-- An outage of an hour, and then, half an hour into its grace, one of a minute. -/
def shortAfterLong : List Probe :=
  [⟨false, 0⟩, ⟨true, seconds 3600⟩, ⟨false, seconds 5400⟩, ⟨true, seconds 5460⟩,
    ⟨true, seconds 5520⟩]

/-- Two minutes after the second one heirs are contacted, in the middle of the first one's grace. -/
theorem not_kept : ¬ Kept LnGate.maxRecoveryGrace shortAfterLong := by
  intro kept
  have ended := (kept [⟨false, 0⟩, ⟨true, seconds 3600⟩, ⟨false, seconds 5400⟩,
    ⟨true, seconds 5460⟩] ⟨true, seconds 5520⟩ [] rfl).2 (by decide) ⟨0, seconds 3600⟩ (by decide)
  exact absurd ended (by decide)

end Outages

end GhostKey

import GhostKey.Foundation.TokenBucket
import GhostKey.Vault
import Mathlib.Data.List.Induction
import Mathlib.Data.Rat.Floor

/-!
# Rate Limits

Every client of an open route has a bucket of tokens, which refills with time; a request takes one
token or is told when to come back. The tokens are floats in the server and exact rationals here. A
bucket that was not touched for an hour is replaced by a full one. At a rate that takes longer than
an hour to fill a bucket this is more than the refill, and an idle client gains by it.

Layers:
1. `Limiter.tryAcquire`: one request;
2. `verdicts`: any requests of any clients, in the order in which they get hold of the buckets;
3. `granted_eq`: a client's requests draw on a bucket of the library;
4. `Throttles`, `throttles`: what the limiter allows.
-/

namespace GhostKey

open Foundation

namespace RateLimit

/-! ## §1 One request -/

/-- `LimiterInner`, as `Limiter::new` lets it be built. -/
structure Limiter where
  capacity : ℚ
  refillPerSec : ℚ
  one_le_capacity : 1 ≤ capacity
  refill_pos : 0 < refillPerSec

structure Bucket where
  tokens : ℚ
  lastRefill : Instant
  deriving DecidableEq

/-- The map from clients to buckets. -/
abbrev Buckets := String → Option Bucket

/-- `STALE_AFTER`, in nanoseconds. -/
def staleAfter : ℕ := 3600 * 1000000000

/-- `Instant::duration_since`, which is zero for a later instant. -/
def durationSince (now earlier : Instant) : ℕ := (now - earlier).toNat

/-- `Duration::as_secs_f64`, exactly. -/
def asSecs (d : ℕ) : ℚ := d / 1000000000

namespace Limiter

variable (l : Limiter)

/-- A client's first bucket, and the one that replaces a stale one. -/
def fresh (now : Instant) : Bucket := ⟨l.capacity, now⟩

/-- The bucket a request goes by, before it is refilled. -/
def entry (b : Option Bucket) (now : Instant) : Bucket :=
  let bucket := b.getD (l.fresh now)
  if staleAfter < durationSince now bucket.lastRefill then l.fresh now else bucket

/-- The tokens of a bucket, refilled. -/
def refill (bucket : Bucket) (now : Instant) : ℚ :=
  let elapsed := asSecs (durationSince now bucket.lastRefill)
  min (bucket.tokens + elapsed * l.refillPerSec) l.capacity

/-- After how many seconds there will be a token. The cast to `u64` saturates. -/
def retryAfter (tokens : ℚ) : ℕ :=
  let need := 1 - tokens
  min (max ⌈need / l.refillPerSec⌉₊ 1) (2 ^ 64 - 1)

/-- `try_acquire`, on the client's entry of the map. -/
def take (b : Option Bucket) (now : Instant) : Except ℕ Unit × Bucket :=
  let tokens := l.refill (l.entry b now) now
  if 1 ≤ tokens then (.ok (), ⟨tokens - 1, now⟩) else (.error (l.retryAfter tokens), ⟨tokens, now⟩)

/-- `try_acquire`. -/
def tryAcquire (map : Buckets) (client : String) (now : Instant) : Except ℕ Unit × Buckets :=
  let taken := l.take (map client) now
  (taken.1, Function.update map client (some taken.2))

end Limiter

/-! ## §2 Any requests -/

structure Request where
  client : String
  now : Instant
  deriving DecidableEq

/-- The map after some requests. -/
def bucketsAfter (l : Limiter) (reqs : List Request) : Buckets :=
  reqs.foldl (fun map q => (l.tryAcquire map q.client q.now).2) fun _ => none

/-- The requests, each with whether it is accepted. -/
def verdicts (l : Limiter) : Buckets → List Request → List (Request × Bool)
  | _, [] => []
  | map, q :: qs =>
      let answer := l.tryAcquire map q.client q.now
      (q, answer.1.isOk) :: verdicts l answer.2 qs

/-- The times of a client's requests. -/
def times (client : String) (reqs : List Request) : List Instant :=
  (reqs.filter fun q => q.client = client).map Request.now

/-- How many of a client's requests are accepted. -/
def accepted (l : Limiter) (map : Buckets) (client : String) (reqs : List Request) : ℕ :=
  (verdicts l map reqs).countP fun v => v.2 && v.1.client = client

/-- How many of a client's requests are accepted from `a` to `a + T`. -/
def acceptedWithin (l : Limiter) (reqs : List Request) (client : String) (a : Instant) (T : ℕ) : ℕ :=
  (verdicts l (fun _ => none) reqs).countP fun v =>
    v.2 && v.1.client = client && a ≤ v.1.now && v.1.now ≤ a + T

/-- The requests of the client come in the order of their times. -/
def InOrder (client : String) (reqs : List Request) : Prop := (times client reqs).Pairwise (· ≤ ·)

/-- The time that passes from each request to the next. -/
def gaps (ts : List Instant) : List ℕ := ts.tail.zipWith durationSince ts

/-- How many of the requests come after an hour without one. -/
def idles (ts : List Instant) : ℕ := (gaps ts).countP fun g => staleAfter < g

/-- What a fresh bucket has more than an hour's refill. -/
def Limiter.windfall (l : Limiter) : ℚ := max 0 (l.capacity - 3600 * l.refillPerSec)

/-! ## §3 A client's bucket -/

namespace Limiter

variable (l : Limiter)

/-- What flows into a bucket in a gap between two requests. -/
def inflow (gap : ℕ) : ℚ :=
  asSecs gap * l.refillPerSec + if staleAfter < gap then l.windfall else 0

/-- A bucket with no more than it can hold. -/
def Held (bucket : Bucket) : Prop := 0 ≤ bucket.tokens ∧ bucket.tokens ≤ l.capacity

/-- How many requests of one client are accepted, counting those at the times of a window. -/
def count (window : Instant → Bool) : Option Bucket → List Instant → ℕ
  | _, [] => 0
  | b, t :: ts =>
      let taken := l.take b t
      (if taken.1.isOk && window t then 1 else 0) + count window (some taken.2) ts

/-- What the requests of one client leave. -/
def bucketAfter (b : Option Bucket) (ts : List Instant) : Option Bucket :=
  ts.foldl (fun b t => some (l.take b t).2) b

end Limiter

theorem asSecs_nonneg (d : ℕ) : 0 ≤ asSecs d := by
  unfold asSecs
  positivity

theorem asSecs_add (d e : ℕ) : asSecs (d + e) = asSecs d + asSecs e := by
  unfold asSecs
  push_cast
  ring

theorem asSecs_mono {d e : ℕ} (le : d ≤ e) : asSecs d ≤ asSecs e := by
  unfold asSecs
  have cast : (d : ℚ) ≤ e := by exact_mod_cast le
  linarith

theorem asSecs_seconds (s : ℕ) : asSecs (s * 1000000000) = s := by
  unfold asSecs
  push_cast
  ring

@[simp] theorem durationSince_self (now : Instant) : durationSince now now = 0 := by
  simp [durationSince]

@[simp] theorem gaps_cons_cons (t u : Instant) (ts : List Instant) :
    gaps (t :: u :: ts) = durationSince u t :: gaps (u :: ts) := rfl

section
variable {l : Limiter} {b : Option Bucket} {bucket : Bucket} {now : Instant}

theorem capacity_nonneg (l : Limiter) : 0 ≤ l.capacity := by
  have one := l.one_le_capacity
  linarith

theorem windfall_nonneg (l : Limiter) : 0 ≤ l.windfall := le_max_left _ _

theorem inflow_nonneg (l : Limiter) (gap : ℕ) : 0 ≤ l.inflow gap := by
  have refilled := mul_nonneg (asSecs_nonneg gap) l.refill_pos.le
  have windfall := windfall_nonneg l
  unfold Limiter.inflow
  split <;> linarith

theorem sum_inflow (l : Limiter) (gs : List ℕ) :
    (gs.map l.inflow).sum =
      asSecs gs.sum * l.refillPerSec + gs.countP (fun g => staleAfter < g) * l.windfall := by
  induction gs with
  | nil => simp [asSecs]
  | cons g gs ih =>
    rw [List.map_cons, List.sum_cons, ih, List.sum_cons, asSecs_add, List.countP_cons,
      Limiter.inflow]
    -- a gap of an hour brings the windfall once
    split
    · simp [*]
      ring
    · simp [*]
      ring

/-- After an hour the fresh bucket is what the refill and the windfall come to. -/
theorem capacity_le_of_stale {gap : ℕ} (nonneg : 0 ≤ bucket.tokens) (stale : staleAfter < gap) :
    l.capacity ≤ bucket.tokens + l.inflow gap := by
  have hour : asSecs staleAfter = 3600 := asSecs_seconds 3600
  have idle := mul_le_mul_of_nonneg_right (asSecs_mono stale.le) l.refill_pos.le
  have windfall : l.capacity - 3600 * l.refillPerSec ≤ l.windfall := le_max_right _ _
  rw [hour] at idle
  rw [Limiter.inflow, if_pos stale]
  linarith

/-- What a request finds is what the gap has left of its inflow in the bucket. -/
theorem refill_entry (nonneg : 0 ≤ bucket.tokens) :
    l.refill (l.entry (some bucket) now) now =
      TokenBucket.filled l.capacity bucket.tokens
        (l.inflow (durationSince now bucket.lastRefill)) := by
  unfold Limiter.refill Limiter.entry TokenBucket.filled
  by_cases stale : staleAfter < durationSince now bucket.lastRefill
  · have full := capacity_le_of_stale (l := l) nonneg stale
    simp [stale, Limiter.fresh, asSecs, full]
  · simp [stale, Limiter.inflow]

theorem take_isOk (nonneg : 0 ≤ bucket.tokens) :
    (l.take (some bucket) now).1.isOk = true ↔
      1 ≤ TokenBucket.filled l.capacity bucket.tokens
        (l.inflow (durationSince now bucket.lastRefill)) := by
  rw [← refill_entry nonneg, Limiter.take]
  split
  · simp [Except.isOk, Except.toBool, *]
  · simp [Except.isOk, Except.toBool, *]

theorem take_bucket (nonneg : 0 ≤ bucket.tokens) :
    (l.take (some bucket) now).2 =
      ⟨TokenBucket.left l.capacity bucket.tokens
        (l.inflow (durationSince now bucket.lastRefill)), now⟩ := by
  rw [TokenBucket.left, ← refill_entry nonneg, Limiter.take]
  split <;> rfl

theorem fresh_held (l : Limiter) (now : Instant) : l.Held (l.fresh now) :=
  ⟨capacity_nonneg l, le_refl l.capacity⟩

/-- One request: the bucket it leaves holds no more than it can. -/
theorem take_some_held (now : Instant) (held : l.Held bucket) :
    l.Held (l.take (some bucket) now).2 := by
  rw [take_bucket held.1]
  exact TokenBucket.left_mem (capacity_nonneg l) held.1 (inflow_nonneg l _)

theorem take_held (held : ∀ bucket, b = some bucket → l.Held bucket) :
    l.Held (l.take b now).2 := by
  cases b with
  | none => exact take_some_held now (fresh_held l now)
  | some bucket => exact take_some_held now (held bucket rfl)

/-- The requests of one client draw on a bucket of tokens. -/
theorem granted_eq (ts : List Instant) (held : l.Held bucket) :
    l.count (fun _ => true) (some bucket) ts =
      TokenBucket.granted l.capacity bucket.tokens
        ((gaps (bucket.lastRefill :: ts)).map l.inflow) := by
  induction ts generalizing bucket with
  | nil => rfl
  | cons t ts ih =>
    have rest := ih (take_some_held t held)
    rw [take_bucket held.1] at rest
    rw [gaps_cons_cons, List.map_cons, TokenBucket.granted, Limiter.count, take_bucket held.1, rest]
    simp only [Bool.and_true, take_isOk held.1]

/-- A client's requests from the first of them on, whatever it did before. -/
theorem count_le (ts : List Instant) (held : ∀ bucket, b = some bucket → l.Held bucket) :
    (l.count (fun _ => true) b ts : ℚ) ≤
      l.capacity + l.refillPerSec * asSecs (gaps ts).sum + idles ts * l.windfall := by
  have refilled := mul_nonneg l.refill_pos.le (asSecs_nonneg (gaps ts).sum)
  have idles_nonneg : (0 : ℚ) ≤ idles ts := Nat.cast_nonneg' (idles ts)
  have windfalls := mul_nonneg idles_nonneg (windfall_nonneg l)
  cases ts with
  | nil =>
    have cap := capacity_nonneg l
    rw [Limiter.count, Nat.cast_zero]
    linarith
  | cons t ts =>
    -- the first request is one on some bucket, its own or a fresh one
    have first : ∀ bucket, l.Held bucket →
        (l.count (fun _ => true) (some bucket) (t :: ts) : ℚ) ≤
          l.capacity + ((gaps (t :: ts)).map l.inflow).sum := by
      intro bucket held
      rw [granted_eq _ held, gaps_cons_cons, List.map_cons]
      apply TokenBucket.granted_cons_le (capacity_nonneg l) held.1 (inflow_nonneg l _)
      intro e mem
      obtain ⟨gap, -, rfl⟩ := List.mem_map.1 mem
      exact inflow_nonneg l gap
    have bound : (l.count (fun _ => true) b (t :: ts) : ℚ) ≤
        l.capacity + ((gaps (t :: ts)).map l.inflow).sum := by
      cases b with
      | none => exact first _ (fresh_held l t)
      | some bucket => exact first _ (held bucket rfl)
    rw [sum_inflow] at bound
    rw [idles]
    linarith

end

/-! ## §4 A client among others -/

section
variable {l : Limiter} {map : Buckets} {client : String} {now : Instant}

/-- A request touches the bucket of its own client only. -/
theorem tryAcquire_self : (l.tryAcquire map client now).2 client = some (l.take (map client) now).2 :=
  Function.update_self client _ map

theorem tryAcquire_other {other : String} (ne : other ≠ client) :
    (l.tryAcquire map client now).2 other = map other :=
  Function.update_of_ne ne _ map

theorem times_own (q : Request) (qs : List Request) :
    times q.client (q :: qs) = q.now :: times q.client qs := by
  simp [times]

theorem times_foreign {q : Request} (ne : q.client ≠ client) (qs : List Request) :
    times client (q :: qs) = times client qs := by
  simp [times, ne]

/-- The accepted requests of a client at the times of a window, with all the others between. -/
theorem countP_verdicts (map : Buckets) (window : Instant → Bool) (reqs : List Request) :
    (verdicts l map reqs).countP (fun v => v.2 && v.1.client = client && window v.1.now) =
      l.count window (map client) (times client reqs) := by
  induction reqs generalizing map with
  | nil => rfl
  | cons q qs ih =>
    rw [verdicts, List.countP_cons, ih]
    by_cases own : q.client = client
    · subst own
      rw [tryAcquire_self, times_own, Limiter.count, Nat.add_comm]
      simp [Limiter.tryAcquire]
    · rw [tryAcquire_other (Ne.symm own), times_foreign own]
      simp [own]

theorem bucketsAfter_append (l : Limiter) (before reqs : List Request) :
    bucketsAfter l (before ++ reqs) =
      reqs.foldl (fun map q => (l.tryAcquire map q.client q.now).2) (bucketsAfter l before) :=
  List.foldl_append

/-- Along a run every bucket holds no more than it can. -/
theorem bucketsAfter_held (l : Limiter) (reqs : List Request) (client : String) (bucket : Bucket)
    (entry : bucketsAfter l reqs client = some bucket) : l.Held bucket := by
  induction reqs using List.reverseRecOn generalizing client bucket with
  | nil => cases entry
  | append_singleton reqs q ih =>
    rw [bucketsAfter_append] at entry
    change (l.tryAcquire (bucketsAfter l reqs) q.client q.now).2 client = some bucket at entry
    by_cases own : client = q.client
    · rw [own, tryAcquire_self] at entry
      cases entry
      exact take_held fun bucket found => ih q.client bucket found
    · rw [tryAcquire_other own] at entry
      exact ih client bucket entry

/-- Requests of other clients leave a client's bucket as it is. -/
theorem others_keep {others : List Request} (ne : ∀ q ∈ others, q.client ≠ client) :
    others.foldl (fun map q => (l.tryAcquire map q.client q.now).2) map client = map client := by
  induction others generalizing map with
  | nil => rfl
  | cons q qs ih =>
    rw [List.foldl_cons, ih fun x mem => ne x (List.mem_cons_of_mem q mem)]
    exact tryAcquire_other (ne q List.mem_cons_self).symm

end

/-! ## §5 Intervals -/

section
variable {ts us : List Instant} {a z : Instant} {gs : List ℕ}

theorem count_append (l : Limiter) (window : Instant → Bool) (b : Option Bucket)
    (ts us : List Instant) :
    l.count window b (ts ++ us) =
      l.count window b ts + l.count window (l.bucketAfter b ts) us := by
  induction ts generalizing b with
  | nil => exact (Nat.zero_add _).symm
  | cons t ts ih =>
    rw [List.cons_append, Limiter.count, ih, Limiter.count, Nat.add_assoc]
    rfl

theorem count_outside (l : Limiter) {window : Instant → Bool} (b : Option Bucket)
    (outside : ∀ t ∈ ts, window t = false) : l.count window b ts = 0 := by
  induction ts generalizing b with
  | nil => rfl
  | cons t ts ih =>
    rw [Limiter.count, ih _ fun x mem => outside x (List.mem_cons_of_mem t mem),
      outside t List.mem_cons_self]
    simp

theorem count_inside (l : Limiter) {window : Instant → Bool} (b : Option Bucket)
    (inside : ∀ t ∈ ts, window t = true) : l.count window b ts = l.count (fun _ => true) b ts := by
  induction ts generalizing b with
  | nil => rfl
  | cons t ts ih =>
    rw [Limiter.count, Limiter.count, ih _ fun x mem => inside x (List.mem_cons_of_mem t mem),
      inside t List.mem_cons_self]

theorem bucketAfter_held {l : Limiter} {b : Option Bucket} (ts : List Instant)
    (held : ∀ bucket, b = some bucket → l.Held bucket) :
    ∀ bucket, l.bucketAfter b ts = some bucket → l.Held bucket := by
  induction ts generalizing b with
  | nil => exact held
  | cons t ts ih =>
    apply ih
    rintro bucket ⟨⟩
    exact take_held held

/-- Times in order are cut in two by any time. -/
theorem exists_cut (a : Instant) (sorted : ts.Pairwise (· ≤ ·)) :
    ∃ early late, ts = early ++ late ∧ (∀ t ∈ early, t < a) ∧ ∀ t ∈ late, a ≤ t := by
  induction ts with
  | nil => exact ⟨[], [], rfl, by simp, by simp⟩
  | cons t ts ih =>
    obtain ⟨first, rest⟩ := List.pairwise_cons.1 sorted
    rcases lt_or_ge t a with before | after
    · obtain ⟨early, late, rfl, below, above⟩ := ih rest
      exact ⟨t :: early, late, rfl, List.forall_mem_cons.2 ⟨before, below⟩, above⟩
    · refine ⟨[], t :: ts, rfl, by simp, List.forall_mem_cons.2 ⟨after, fun u mem => ?_⟩⟩
      exact le_trans after (first u mem)

/-- The gaps between times in order come to no more than the time from the first to the end. -/
theorem sum_gaps_le {t : Instant} (sorted : (t :: ts).Pairwise (· ≤ ·)) (ends : ∀ u ∈ t :: ts, u ≤ z) :
    ((gaps (t :: ts)).sum : ℤ) ≤ z - t := by
  induction ts generalizing t with
  | nil =>
    have le : t ≤ z := ends t List.mem_cons_self
    exact Int.sub_nonneg_of_le le
  | cons u us ih =>
    obtain ⟨first, rest⟩ := List.pairwise_cons.1 sorted
    have later := ih rest fun x mem => ends x (List.mem_cons_of_mem t mem)
    have gap : (durationSince u t : ℤ) = u - t :=
      Int.toNat_of_nonneg (Int.sub_nonneg_of_le (first u List.mem_cons_self))
    rw [gaps_cons_cons, List.sum_cons, Nat.cast_add, gap]
    linarith

/-- Long gaps take their time. -/
theorem countP_long_mul_le (k : ℕ) (gs : List ℕ) : gs.countP (fun g => k < g) * k ≤ gs.sum := by
  induction gs with
  | nil => simp
  | cons g gs ih =>
    rw [List.countP_cons, List.sum_cons, Nat.add_mul]
    split
    · next long =>
      have le : k < g := by simpa using long
      omega
    · omega

/-- In an interval there is room for so many idle hours only. -/
theorem idles_le {T : ℕ} (short : (gaps ts).sum ≤ T) : idles ts ≤ T / staleAfter := by
  rw [Nat.le_div_iff_mul_le (by decide)]
  exact le_trans (countP_long_mul_le staleAfter (gaps ts)) short

/-- Times in order within an interval of length `T` are no further apart than that. -/
theorem sum_gaps_within {T : ℕ} (sorted : ts.Pairwise (· ≤ ·)) (starts : ∀ t ∈ ts, a ≤ t)
    (ends : ∀ t ∈ ts, t ≤ a + T) : (gaps ts).sum ≤ T := by
  cases ts with
  | nil => exact Nat.zero_le T
  | cons t ts =>
    have spread := sum_gaps_le sorted ends
    have start : a ≤ t := starts t List.mem_cons_self
    have bound : ((gaps (t :: ts)).sum : ℤ) ≤ T := by linarith
    exact_mod_cast bound

/-- What a client is granted in an interval is what it is granted in the stretch of its requests
that fall into it. -/
theorem count_interval_le {l : Limiter} {b : Option Bucket} (a : Instant) (T : ℕ)
    (held : ∀ bucket, b = some bucket → l.Held bucket) (sorted : ts.Pairwise (· ≤ ·)) :
    (l.count (fun t => a ≤ t && t ≤ a + T) b ts : ℚ) ≤
      l.capacity + l.refillPerSec * asSecs T + (T / staleAfter : ℕ) * l.windfall := by
  obtain ⟨early, rest, rfl, before, from_start⟩ := exists_cut a sorted
  obtain ⟨-, rest_sorted, -⟩ := List.pairwise_append.1 sorted
  obtain ⟨within, late, rfl, inside, after⟩ := exists_cut (a + T + 1) rest_sorted
  obtain ⟨within_sorted, -, -⟩ := List.pairwise_append.1 rest_sorted
  have starts : ∀ t ∈ within, a ≤ t := fun t mem => from_start t (List.mem_append_left late mem)
  have ends : ∀ t ∈ within, t ≤ a + T := fun t mem => Int.lt_add_one_iff.1 (inside t mem)
  -- only the middle stretch counts
  have early_out : ∀ t ∈ early, (decide (a ≤ t) && decide (t ≤ a + T)) = false := by
    intro t mem
    simp [not_le.2 (before t mem)]
  have late_out : ∀ t ∈ late, (decide (a ≤ t) && decide (t ≤ a + T)) = false := by
    intro t mem
    have beyond : a + T < t := Int.lt_of_add_one_le (after t mem)
    simp [not_le.2 beyond]
  have within_in : ∀ t ∈ within, (decide (a ≤ t) && decide (t ≤ a + T)) = true := by
    intro t mem
    simp [starts t mem, ends t mem]
  rw [count_append, count_append, count_outside l _ early_out, count_outside l _ late_out,
    count_inside l _ within_in, Nat.zero_add, Nat.add_zero]
  have bound := count_le within (bucketAfter_held early held)
  have short := sum_gaps_within within_sorted starts ends
  have time := mul_le_mul_of_nonneg_left (asSecs_mono short) l.refill_pos.le
  have idle : (idles within : ℚ) ≤ (T / staleAfter : ℕ) := by exact_mod_cast idles_le short
  have windfalls := mul_le_mul_of_nonneg_right idle (windfall_nonneg l)
  linarith

end

/-! ## §6 What the limiter allows -/

section
variable {l : Limiter} {bucket : Bucket} {now later : Instant} {s : ℕ}

theorem take_error (refused : (l.take (some bucket) now).1 = .error s) (held : l.Held bucket) :
    ∃ tokens, 0 ≤ tokens ∧ s = l.retryAfter tokens ∧
      (l.take (some bucket) now).2 = ⟨tokens, now⟩ := by
  have next := take_some_held now held
  by_cases one : 1 ≤ l.refill (l.entry (some bucket) now) now
  · rw [Limiter.take, if_pos one] at refused
    cases refused
  · rw [Limiter.take, if_neg one] at refused next ⊢
    cases refused
    exact ⟨_, next.1, rfl, rfl⟩

/-- The waiting time is enough for a token, except where it is more than an hour. -/
theorem one_le_after {tokens : ℚ} (hour : l.retryAfter tokens ≤ 3600) :
    1 ≤ tokens + l.retryAfter tokens * l.refillPerSec := by
  -- the cast to u64 has not cut it off
  have whole : l.retryAfter tokens = max ⌈(1 - tokens) / l.refillPerSec⌉₊ 1 := by
    unfold Limiter.retryAfter at hour ⊢
    dsimp only at hour ⊢
    omega
  have waited : (1 - tokens) / l.refillPerSec ≤ l.retryAfter tokens := by
    apply le_trans (Nat.le_ceil _)
    rw [whole]
    exact_mod_cast le_max_left _ 1
  have refilled := (div_le_iff₀ l.refill_pos).1 waited
  linarith

/-- A refused request is accepted when it comes again after the waiting time. -/
theorem take_again {tokens : ℚ} (nonneg : 0 ≤ tokens) (s_eq : s = l.retryAfter tokens)
    (waits : now + s * 1000000000 ≤ later) :
    (l.take (some ⟨tokens, now⟩) later).1.isOk = true := by
  apply (take_isOk nonneg).2
  apply le_min _ l.one_le_capacity
  have gap : s * 1000000000 ≤ durationSince later now := by
    have wait : (s * 1000000000 : ℤ) ≤ later - now := by linarith
    exact Int.le_toNat (by omega) |>.2 (by exact_mod_cast wait)
  by_cases stale : staleAfter < durationSince later now
  · apply le_trans l.one_le_capacity
    exact capacity_le_of_stale nonneg stale
  · have hour : s ≤ 3600 := by
      unfold staleAfter at stale
      omega
    have enough := one_le_after (s_eq ▸ hour : l.retryAfter tokens ≤ 3600)
    have time := mul_le_mul_of_nonneg_right (asSecs_mono gap) l.refill_pos.le
    rw [asSecs_seconds, s_eq] at time
    rw [Limiter.inflow, if_neg stale]
    linarith

theorem accepted_eq (l : Limiter) (map : Buckets) (client : String) (reqs : List Request) :
    accepted l map client reqs = l.count (fun _ => true) (map client) (times client reqs) := by
  rw [← countP_verdicts, accepted]
  simp only [Bool.and_true]

theorem acceptedWithin_eq (l : Limiter) (reqs : List Request) (client : String) (a : Instant)
    (T : ℕ) :
    acceptedWithin l reqs client a T =
      l.count (fun t => a ≤ t && t ≤ a + T) none (times client reqs) := by
  rw [acceptedWithin, ← countP_verdicts fun _ => none]
  simp only [Bool.and_assoc]

theorem acceptedWithin_le (l : Limiter) {reqs : List Request} {client : String}
    (sorted : InOrder client reqs) (a : Instant) (T : ℕ) :
    (acceptedWithin l reqs client a T : ℚ) ≤
      l.capacity + l.refillPerSec * asSecs T + (T / staleAfter : ℕ) * l.windfall := by
  rw [acceptedWithin_eq]
  apply count_interval_le a T _ sorted
  rintro bucket ⟨⟩

/-- A bucket that an hour fills is worth nothing more when it is replaced. -/
theorem windfall_eq_zero (hourly : l.capacity ≤ 3600 * l.refillPerSec) : l.windfall = 0 :=
  max_eq_left (sub_nonpos.2 hourly)

/-- What the limiter allows, with any requests of any clients on its buckets. -/
structure Throttles (l : Limiter) : Prop where
  /-- In an interval: a full bucket, the refill, and the windfall of every idle hour. -/
  interval : ∀ reqs client, InOrder client reqs → ∀ (a : Instant) (T : ℕ),
    (acceptedWithin l reqs client a T : ℚ) ≤
      l.capacity + l.refillPerSec * asSecs T + (T / staleAfter : ℕ) * l.windfall
  /-- Where an hour fills a bucket there is no windfall. -/
  steady : l.capacity ≤ 3600 * l.refillPerSec →
    ∀ reqs client, InOrder client reqs → ∀ (a : Instant) (T : ℕ),
      (acceptedWithin l reqs client a T : ℚ) ≤ l.capacity + l.refillPerSec * asSecs T
  /-- Requests that get hold of their bucket in any order, counted along the run. -/
  stretch : ∀ before reqs client,
    (accepted l (bucketsAfter l before) client reqs : ℚ) ≤
      l.capacity + l.refillPerSec * asSecs (gaps (times client reqs)).sum +
        idles (times client reqs) * l.windfall
  /-- No bucket ever holds less than nothing or more than it can. -/
  held : ∀ reqs client bucket, bucketsAfter l reqs client = some bucket → l.Held bucket
  /-- A refused client that waits as it is told is accepted, whatever others do meanwhile. -/
  retry : ∀ reqs client now s others later,
    (l.tryAcquire (bucketsAfter l reqs) client now).1 = .error s →
      (∀ q ∈ others, q.client ≠ client) → now + s * 1000000000 ≤ later →
        (l.tryAcquire (bucketsAfter l (reqs ++ ⟨client, now⟩ :: others)) client later).1.isOk = true

theorem throttles (l : Limiter) : Throttles l := by
  constructor
  case interval => exact fun reqs client sorted a T => acceptedWithin_le l sorted a T
  case steady =>
    intro hourly reqs client sorted a T
    have bound := acceptedWithin_le l sorted a T
    rwa [windfall_eq_zero hourly, mul_zero, add_zero] at bound
  case stretch =>
    intro before reqs client
    rw [accepted_eq]
    exact count_le _ (bucketsAfter_held l before client)
  case held => exact bucketsAfter_held l
  case retry =>
    intro reqs client now s others later refused foreign waits
    have again : ∀ bucket, l.Held bucket → (l.take (some bucket) now).1 = .error s →
        (l.take (some (l.take (some bucket) now).2) later).1.isOk = true := by
      intro bucket held refused
      obtain ⟨tokens, nonneg, s_eq, bucket_eq⟩ := take_error refused held
      rw [bucket_eq]
      exact take_again nonneg s_eq waits
    -- the others have not touched the bucket that the refused request left
    have kept : bucketsAfter l (reqs ++ ⟨client, now⟩ :: others) client =
        some (l.take (bucketsAfter l reqs client) now).2 := by
      rw [bucketsAfter_append, List.foldl_cons, others_keep foreign, tryAcquire_self]
    change (l.take (bucketsAfter l reqs client) now).1 = .error s at refused
    change (l.take (bucketsAfter l (reqs ++ ⟨client, now⟩ :: others) client) later).1.isOk = true
    rw [kept]
    cases entry : bucketsAfter l reqs client with
    | none =>
      rw [entry] at refused
      exact again _ (fresh_held l now) refused
    | some bucket =>
      rw [entry] at refused
      exact again bucket (bucketsAfter_held l reqs client bucket entry) refused

/-- A bucket of two, with a token every two hours. -/
def slow : Limiter where
  capacity := 2
  refillPerSec := 1 / 7200
  one_le_capacity := by norm_num
  refill_pos := by norm_num

/-- Two requests at once, and two more after an idle hour. -/
def burstTwice : List Request :=
  [⟨"a", 0⟩, ⟨"a", 0⟩, ⟨"a", 3601 * 1000000000⟩, ⟨"a", 3601 * 1000000000⟩]

/-- All four are accepted, where the capacity and the refill come to less than three. -/
theorem not_bounded : ¬ ∀ l reqs client, InOrder client reqs → ∀ (a : Instant) (T : ℕ),
    (acceptedWithin l reqs client a T : ℚ) ≤ l.capacity + l.refillPerSec * asSecs T := by
  intro bounded
  have sorted : InOrder "a" burstTwice := by
    unfold InOrder burstTwice
    decide
  have four : acceptedWithin slow burstTwice "a" 0 (3601 * 1000000000) = 4 := by
    decide +kernel
  have bound := bounded slow burstTwice "a" sorted 0 (3601 * 1000000000)
  rw [four, asSecs_seconds] at bound
  norm_num [slow] at bound

end

end RateLimit

end GhostKey

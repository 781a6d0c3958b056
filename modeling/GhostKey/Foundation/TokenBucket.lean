import Mathlib.Algebra.BigOperators.Group.List.Basic
import Mathlib.Algebra.Order.Field.Basic
import Mathlib.Tactic.Linarith

/-!
# Token Buckets

A bucket holds at most `cap` tokens. Before each request something flows in, and what does not fit
is lost; the request takes a token, or is refused where there is less than one. What is granted is
paid for by what was in the bucket and by what has flowed in since.

Main results:
- `left_mem`: a bucket never holds less than nothing nor more than `cap`.
- `granted_le`: a bucket grants no more than it held and was given.
- `granted_cons_le`: counted from the first request on, no more than `cap` and what flowed in later.
-/

namespace GhostKey.Foundation

namespace TokenBucket

variable {K : Type*} [Field K] [LinearOrder K]

/-- What a request finds in the bucket. -/
def filled (cap level inflow : K) : K := min (level + inflow) cap

/-- What a request leaves in the bucket. -/
def left (cap level inflow : K) : K :=
  if 1 ≤ filled cap level inflow then filled cap level inflow - 1 else filled cap level inflow

/-- How many of the requests are granted. -/
def granted (cap : K) : K → List K → ℕ
  | _, [] => 0
  | level, e :: es => (if 1 ≤ filled cap level e then 1 else 0) + granted cap (left cap level e) es

/-- One request: what it takes and what it leaves are what it found. -/
theorem granted_add_left (cap level e : K) :
    ((if 1 ≤ filled cap level e then 1 else 0 : ℕ) : K) + left cap level e =
      filled cap level e := by
  unfold left
  split
  · rw [Nat.cast_one, add_sub_cancel]
  · rw [Nat.cast_zero, zero_add]

variable [IsStrictOrderedRing K] {cap level e : K} {es : List K}

theorem filled_nonneg (cap_nonneg : 0 ≤ cap) (level_nonneg : 0 ≤ level) (e_nonneg : 0 ≤ e) :
    0 ≤ filled cap level e :=
  le_min (add_nonneg level_nonneg e_nonneg) cap_nonneg

theorem left_mem (cap_nonneg : 0 ≤ cap) (level_nonneg : 0 ≤ level) (e_nonneg : 0 ≤ e) :
    0 ≤ left cap level e ∧ left cap level e ≤ cap := by
  have top : filled cap level e ≤ cap := min_le_right _ _
  unfold left
  split
  · next one => exact ⟨sub_nonneg.2 one, by linarith⟩
  · exact ⟨filled_nonneg cap_nonneg level_nonneg e_nonneg, top⟩

theorem granted_le (cap_nonneg : 0 ≤ cap) (level_nonneg : 0 ≤ level) (es_nonneg : ∀ e ∈ es, 0 ≤ e) :
    (granted cap level es : K) ≤ level + es.sum := by
  induction es generalizing level with
  | nil => simpa [granted] using level_nonneg
  | cons e es ih =>
    have e_nonneg := es_nonneg e List.mem_cons_self
    have rest := ih (left_mem cap_nonneg level_nonneg e_nonneg).1
      fun x mem => es_nonneg x (List.mem_cons_of_mem e mem)
    have found : filled cap level e ≤ level + e := min_le_left _ _
    have spent := granted_add_left cap level e
    rw [granted, Nat.cast_add, List.sum_cons]
    linarith

theorem granted_cons_le (cap_nonneg : 0 ≤ cap) (level_nonneg : 0 ≤ level) (e_nonneg : 0 ≤ e)
    (es_nonneg : ∀ x ∈ es, 0 ≤ x) : (granted cap level (e :: es) : K) ≤ cap + es.sum := by
  have rest := granted_le cap_nonneg (left_mem cap_nonneg level_nonneg e_nonneg).1 es_nonneg
  have found : filled cap level e ≤ cap := min_le_right _ _
  have spent := granted_add_left cap level e
  rw [granted, Nat.cast_add]
  linarith

end TokenBucket

end GhostKey.Foundation

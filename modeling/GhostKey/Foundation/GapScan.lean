import Mathlib.Data.List.Basic

/-!
# Scanning with a Gap Limit

A scan walks along indices until it has met `limit` of them in a row that hold nothing.

Main result: `gapScan_eq`, the indices a scan of a window visits are those of the window
that no such gap lies before.
-/

namespace GhostKey.Foundation

/-- No gap of `limit` indices lies before `i`. -/
def Reaches (limit : Nat) (hit : Nat → Bool) (i : Nat) : Prop :=
  ∀ j, j + limit ≤ i → ∃ m, j ≤ m ∧ m < j + limit ∧ hit m = true

instance (limit : Nat) (hit : Nat → Bool) (i : Nat) : Decidable (Reaches limit hit i) :=
  decidable_of_iff (∀ j, j < i + 1 → j + limit ≤ i → ∃ m, m < j + limit ∧ j ≤ m ∧ hit m = true)
    ⟨fun all j le => by
      obtain ⟨m, lt, ge, here⟩ := all j (by omega) le
      exact ⟨m, ge, lt, here⟩,
    fun all j _ le => by
      obtain ⟨m, ge, lt, here⟩ := all j le
      exact ⟨m, lt, ge, here⟩⟩

theorem Reaches.mono {limit : Nat} {hit : Nat → Bool} {i j : Nat} (reaches : Reaches limit hit j)
    (le : i ≤ j) : Reaches limit hit i :=
  fun k fits => reaches k (Nat.le_trans fits le)

/-- The indices a scan visits of the `n` that start at `i`, when the last `gap` held nothing. -/
def gapScan (limit : Nat) (hit : Nat → Bool) : (n i gap : Nat) → List Nat
  | 0, _, _ => []
  | n + 1, i, gap =>
      i :: if hit i then gapScan limit hit n (i + 1) 0
        else if limit ≤ gap + 1 then [] else gapScan limit hit n (i + 1) (gap + 1)

/-- The last `gap` indices held nothing, and the one before them did, if there is one. -/
structure AtGap (hit : Nat → Bool) (i gap : Nat) : Prop where
  fits : gap ≤ i
  missed : ∀ m, i - gap ≤ m → m < i → hit m = false
  edge : gap = i ∨ hit (i - gap - 1) = true

theorem AtGap.hit {hit : Nat → Bool} {i gap : Nat} (_ : AtGap hit i gap) (here : hit i = true) :
    AtGap hit (i + 1) 0 where
  fits := Nat.zero_le _
  missed := fun m ge lt => by omega
  edge := .inr (by simpa using here)

theorem AtGap.miss {hit : Nat → Bool} {i gap : Nat} (at_gap : AtGap hit i gap)
    (here : hit i = false) : AtGap hit (i + 1) (gap + 1) where
  fits := Nat.succ_le_succ at_gap.fits
  missed := fun m ge lt => by
    by_cases last : m = i
    · exact last ▸ here
    · exact at_gap.missed m (by omega) (by omega)
  edge := by
    rcases at_gap.edge with all | edge
    · exact .inl (by omega)
    · exact .inr (by rwa [show i + 1 - (gap + 1) - 1 = i - gap - 1 by omega])

/-- While the gap is short, the next index is still reached. -/
theorem AtGap.reaches {limit : Nat} {hit : Nat → Bool} {i gap : Nat} (at_gap : AtGap hit i gap)
    (open_ : gap < limit) (before : Reaches limit hit (i - gap)) : Reaches limit hit i := by
  intro j le
  by_cases early : j + limit ≤ i - gap
  · exact before j early
  · rcases at_gap.edge with all | edge
    · have := at_gap.fits
      omega
    · exact ⟨i - gap - 1, by omega, by omega, edge⟩

/-- By induction on the window; a full gap keeps every later index out. -/
theorem gapScan_eq {limit : Nat} {hit : Nat → Bool} :
    ∀ {n i gap : Nat}, AtGap hit i gap → gap < limit → Reaches limit hit i →
      gapScan limit hit n i gap = (List.range' i n).filter fun m => Reaches limit hit m
  | 0, _, _, _, _, _ => rfl
  | n + 1, i, gap, at_gap, open_, reaches => by
    rw [gapScan, List.range'_succ, List.filter_cons_of_pos (by simpa using reaches)]
    congr 1
    -- a hit closes the gap, a miss widens it
    by_cases here : hit i = true
    · rw [if_pos here]
      refine gapScan_eq (at_gap.hit here) (by omega) ?_
      intro j le
      by_cases last : j + limit ≤ i
      · exact reaches j last
      · exact ⟨i, by omega, by omega, here⟩
    · have missed : hit i = false := by simpa using here
      rw [if_neg here]
      have next := at_gap.miss missed
      split
      · next full =>
        refine (List.filter_eq_nil_iff.2 fun m mem => ?_).symm
        have later : i + 1 ≤ m := (List.mem_range'_1.1 mem).1
        -- the misses on file rule the later indices out
        have gap_before : ¬ Reaches limit hit m := by
          intro all
          obtain ⟨k, ge, lt, held⟩ := all (i + 1 - limit) (by have := at_gap.fits; omega)
          have := next.missed k (by omega) (by have := at_gap.fits; omega)
          rw [this] at held
          cases held
        simpa using gap_before
      · next short =>
        refine gapScan_eq next (by omega) (next.reaches (by omega) ?_)
        rw [show i + 1 - (gap + 1) = i - gap by omega]
        exact reaches.mono (Nat.sub_le i gap)

/-- A scan from the first index on. -/
theorem gapScan_zero {limit : Nat} (hit : Nat → Bool) (pos : 0 < limit) (n : Nat) :
    gapScan limit hit n 0 0 = (List.range n).filter fun m => Reaches limit hit m := by
  rw [List.range_eq_range']
  refine gapScan_eq ⟨Nat.zero_le 0, fun m _ lt => absurd lt (Nat.not_lt_zero m), .inl rfl⟩ pos ?_
  intro j le
  omega

end GhostKey.Foundation

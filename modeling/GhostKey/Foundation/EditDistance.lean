import Mathlib.Data.List.Basic
import Mathlib.Order.Bounds.Basic

/-!
# Edit Distance

The least number of single-letter edits between two words: a letter replaced, left out or put
in. The program for it keeps one row of the table and computes the next from it.

Layers:
1. `Edit`, `Edits`: the edits, one after the other and anywhere in the word;
2. `Aligned`: the same from left to right;
3. `lev`: the least cost of an alignment, by recursion on both words;
4. `editDistance`: the two rolling rows.

Main results:
- `isLeast_lev`: `lev` is the least number of edits.
- `editDistance_eq_lev`: what the rolling rows compute.
-/

namespace GhostKey.Foundation

namespace Edits

variable {α : Type}

/-! ## §1 Edits -/

/-- One edit of one letter. -/
inductive Edit : List α → List α → Prop
  | substitute (x y : α) (s : List α) : Edit (x :: s) (y :: s)
  | delete (x : α) (s : List α) : Edit (x :: s) s
  | insert (y : α) (s : List α) : Edit s (y :: s)
  | cons (x : α) {s t : List α} (later : Edit s t) : Edit (x :: s) (x :: t)

/-- From one word to the other in `n` edits. -/
inductive Steps : Nat → List α → List α → Prop
  | refl (s : List α) : Steps 0 s s
  | tail {n : Nat} {s t u : List α} (steps : Steps n s t) (edit : Edit t u) : Steps (n + 1) s u

theorem Steps.cons (x : α) {n : Nat} {s t : List α} (steps : Steps n s t) :
    Steps n (x :: s) (x :: t) := by
  induction steps with
  | refl s => exact .refl _
  | tail _ edit ih => exact .tail ih (.cons x edit)

/-- An edit inside a longer word. -/
theorem Edit.append (p : List α) {s t : List α} (edit : Edit s t) : Edit (p ++ s) (p ++ t) := by
  induction p with
  | nil => exact edit
  | cons x p ih => exact .cons x ih

theorem Edit.append_right {s t : List α} (edit : Edit s t) (q : List α) :
    Edit (s ++ q) (t ++ q) := by
  induction edit with
  | substitute x y s => exact .substitute x y _
  | delete x s => exact .delete x _
  | insert y s => exact .insert y _
  | cons x later ih => exact .cons x ih

theorem Edit.reverse {s t : List α} (edit : Edit s t) : Edit s.reverse t.reverse := by
  induction edit with
  | substitute x y s =>
    simp only [List.reverse_cons]
    exact Edit.append _ (.substitute x y [])
  | delete x s =>
    simpa only [List.reverse_cons, List.append_nil] using Edit.append s.reverse (.delete x [])
  | insert y s =>
    simpa only [List.reverse_cons, List.append_nil] using Edit.append s.reverse (.insert y [])
  | cons x later ih =>
    simp only [List.reverse_cons]
    exact ih.append_right [x]

theorem Steps.reverse {n : Nat} {s t : List α} (steps : Steps n s t) :
    Steps n s.reverse t.reverse := by
  induction steps with
  | refl s => exact .refl _
  | tail _ edit ih => exact .tail ih edit.reverse

theorem steps_reverse {n : Nat} {s t : List α} :
    Steps n s.reverse t.reverse ↔ Steps n s t := by
  refine ⟨fun steps => ?_, Steps.reverse⟩
  simpa using steps.reverse

/-! ## §2 Alignments -/

/-- A word written over another, letter by letter, with `n` of them unlike. -/
inductive Aligned : Nat → List α → List α → Prop
  | nil : Aligned 0 [] []
  | keep (x : α) {n : Nat} {s t : List α} (rest : Aligned n s t) : Aligned n (x :: s) (x :: t)
  | substitute (x y : α) {n : Nat} {s t : List α} (rest : Aligned n s t) :
      Aligned (n + 1) (x :: s) (y :: t)
  | delete (x : α) {n : Nat} {s t : List α} (rest : Aligned n s t) : Aligned (n + 1) (x :: s) t
  | insert (y : α) {n : Nat} {s t : List α} (rest : Aligned n s t) : Aligned (n + 1) s (y :: t)

theorem Aligned.refl (s : List α) : Aligned 0 s s := by
  induction s with
  | nil => exact .nil
  | cons x s ih => exact .keep x ih

theorem aligned_nil_left (t : List α) : Aligned t.length [] t := by
  induction t with
  | nil => exact .nil
  | cons y t ih => exact .insert y ih

theorem aligned_nil_right (s : List α) : Aligned s.length s [] := by
  induction s with
  | nil => exact .nil
  | cons x s ih => exact .delete x ih

theorem Aligned.steps {n : Nat} {s t : List α} (aligned : Aligned n s t) : Steps n s t := by
  induction aligned with
  | nil => exact .refl _
  | keep x rest ih => exact ih.cons x
  | substitute x y rest ih => exact .tail (ih.cons x) (.substitute x y _)
  | delete x rest ih => exact .tail (ih.cons x) (.delete x _)
  | insert y rest ih => exact .tail ih (.insert y _)

theorem Aligned.min {m n : Nat} {s t : List α} (first : Aligned m s t) (second : Aligned n s t) :
    Aligned (min m n) s t := by
  rcases Nat.le_total m n with le | le
  · rwa [Nat.min_eq_left le]
  · rwa [Nat.min_eq_right le]

/-- One more edit is taken up by the alignment. -/
theorem Aligned.edit {n : Nat} {s t u : List α} (aligned : Aligned n s t) (edit : Edit t u) :
    ∃ m ≤ n + 1, Aligned m s u := by
  induction aligned generalizing u with
  | nil =>
    cases edit with
    | insert y => exact ⟨1, by omega, .insert y .nil⟩
  | @keep x n s t rest ih =>
    cases edit with
    | substitute _ y => exact ⟨n + 1, by omega, .substitute x y rest⟩
    | delete => exact ⟨n + 1, by omega, .delete x rest⟩
    | insert y => exact ⟨n + 1, by omega, .insert y (.keep x rest)⟩
    | cons _ later =>
      obtain ⟨m, le, aligned⟩ := ih later
      exact ⟨m, le, .keep x aligned⟩
  | @substitute x y n s t rest ih =>
    cases edit with
    | substitute _ z => exact ⟨n + 1, by omega, .substitute x z rest⟩
    | delete => exact ⟨n + 1, by omega, .delete x rest⟩
    | insert z => exact ⟨n + 2, by omega, .insert z (.substitute x y rest)⟩
    | cons _ later =>
      obtain ⟨m, le, aligned⟩ := ih later
      exact ⟨m + 1, by omega, .substitute x y aligned⟩
  | delete x rest ih =>
    -- the edit is one of the rest
    obtain ⟨m, le, aligned⟩ := ih edit
    exact ⟨m + 1, by omega, .delete x aligned⟩
  | @insert y n s t rest ih =>
    cases edit with
    | substitute _ z => exact ⟨n + 1, by omega, .insert z rest⟩
    | delete => exact ⟨n, by omega, rest⟩
    | insert z => exact ⟨n + 2, by omega, .insert z (.insert y rest)⟩
    | cons _ later =>
      obtain ⟨m, le, aligned⟩ := ih later
      exact ⟨m + 1, by omega, .insert y aligned⟩

theorem Steps.aligned {n : Nat} {s t : List α} (steps : Steps n s t) :
    ∃ m ≤ n, Aligned m s t := by
  induction steps with
  | refl s => exact ⟨0, le_rfl, .refl s⟩
  | tail _ edit ih =>
    obtain ⟨m, le, aligned⟩ := ih
    obtain ⟨m', le', aligned'⟩ := aligned.edit edit
    exact ⟨m', by omega, aligned'⟩

/-! ## §3 The least cost -/

variable [DecidableEq α]

/-- What a pair of letters costs. -/
def cost (x y : α) : Nat := if x = y then 0 else 1

def lev : List α → List α → Nat
  | [], t => t.length
  | s, [] => s.length
  | x :: s, y :: t => min (min (lev s t + cost x y) (lev s (y :: t) + 1)) (lev (x :: s) t + 1)

@[simp] theorem lev_nil_left (t : List α) : lev [] t = t.length := by
  cases t <;> rw [lev]

@[simp] theorem lev_nil_right (s : List α) : lev s [] = s.length := by
  cases s with
  | nil => rw [lev]
  | cons x s => rw [lev]; exact nofun

theorem lev_cons_cons (x y : α) (s t : List α) :
    lev (x :: s) (y :: t) =
      min (min (lev s t + cost x y) (lev s (y :: t) + 1)) (lev (x :: s) t + 1) := by
  rw [lev]

theorem lev_cons_left_le (x : α) (s t : List α) : lev (x :: s) t ≤ lev s t + 1 := by
  cases t with
  | nil => simp
  | cons y t =>
    rw [lev_cons_cons]
    exact (Nat.min_le_left _ _).trans (Nat.min_le_right _ _)

theorem lev_cons_right_le (y : α) (s t : List α) : lev s (y :: t) ≤ lev s t + 1 := by
  cases s with
  | nil => simp
  | cons x s =>
    rw [lev_cons_cons]
    exact Nat.min_le_right _ _

theorem lev_cons_cons_le (x y : α) (s t : List α) :
    lev (x :: s) (y :: t) ≤ lev s t + cost x y := by
  rw [lev_cons_cons]
  exact (Nat.min_le_left _ _).trans (Nat.min_le_left _ _)

/-- Some alignment costs that much. -/
theorem aligned_lev (s t : List α) : Aligned (lev s t) s t := by
  induction s generalizing t with
  | nil => simpa using aligned_nil_left t
  | cons x s ih =>
    induction t with
    | nil => simpa using aligned_nil_right (x :: s)
    | cons y t ih' =>
      rw [lev_cons_cons]
      have paired : Aligned (lev s t + cost x y) (x :: s) (y :: t) := by
        unfold cost
        split
        · next same => exact same ▸ .keep x (ih t)
        · exact .substitute x y (ih t)
      have deleted := (ih (y :: t)).delete x
      have inserted := ih'.insert y
      exact (paired.min deleted).min inserted

/-- And none costs less. -/
theorem Aligned.lev_le {n : Nat} {s t : List α} (aligned : Aligned n s t) : lev s t ≤ n := by
  induction aligned with
  | nil => simp
  | @keep x n s t rest ih =>
    have := lev_cons_cons_le x x s t
    simp only [cost, if_true] at this
    omega
  | @substitute x y n s t rest ih =>
    have := lev_cons_cons_le x y s t
    have : cost x y ≤ 1 := by unfold cost; split <;> omega
    omega
  | @delete x n s t rest ih => exact (lev_cons_left_le x s t).trans (by omega)
  | @insert y n s t rest ih => exact (lev_cons_right_le y s t).trans (by omega)

theorem isLeast_lev (s t : List α) : IsLeast {n | Steps n s t} (lev s t) := by
  refine ⟨(aligned_lev s t).steps, fun n steps => ?_⟩
  obtain ⟨m, le, aligned⟩ := steps.aligned
  exact aligned.lev_le.trans le

/-- The words may as well be read backwards. -/
theorem lev_reverse (s t : List α) : lev s.reverse t.reverse = lev s t := by
  refine IsLeast.unique (isLeast_lev s.reverse t.reverse) ?_
  simpa only [steps_reverse] using isLeast_lev s t

/-! ## §4 Two rolling rows -/

/-- The cells of the row of `x` after the first, from left to right: `left` is the last one
written, and the row above begins over it. -/
def cells (x : α) : Nat → List α → List Nat → List Nat
  | left, y :: t, diagonal :: above :: row =>
      let cell := min (min (diagonal + cost x y) (above + 1)) (left + 1)
      cell :: cells x cell t (above :: row)
  | _, _, _ => []

/-- The row of the letter `x`, the `i`th. -/
def nextRow (t : List α) (x : α) (i : Nat) (row : List Nat) : List Nat := i :: cells x i t row

/-- The rows of `s`, from the one numbered `i`. -/
def lastRow (t : List α) : List α → Nat → List Nat → List Nat
  | [], _, row => row
  | x :: s, i, row => lastRow t s (i + 1) (nextRow t x i row)

def editDistance (s t : List α) : Nat :=
  ((lastRow t s 1 (List.range (t.length + 1)))[t.length]?).getD 0

/-- What a row is to hold: the distances of `s` from what is before each place of `t`. -/
def levRow (s : List α) : List α → List α → List Nat
  | u, [] => [lev s u]
  | u, y :: t => lev s u :: levRow s (y :: u) t

theorem levRow_nil (u t : List α) : levRow [] u t = List.range' u.length (t.length + 1) := by
  induction t generalizing u with
  | nil => simp [levRow]
  | cons y t ih => simp [levRow, ih, List.range'_succ]

theorem levRow_last (s u t : List α) : (levRow s u t)[t.length]? = some (lev s (t.reverse ++ u)) := by
  induction t generalizing u with
  | nil => rfl
  | cons y t ih => simpa [levRow] using ih (y :: u)

/-- Every cell is computed from three that are right. -/
theorem cells_levRow (x : α) (s u t : List α) :
    lev (x :: s) u :: cells x (lev (x :: s) u) t (levRow s u t) = levRow (x :: s) u t := by
  induction t generalizing u with
  | nil => simp [cells, levRow]
  | cons y t ih =>
    have step : levRow s u (y :: t) = lev s u :: levRow s (y :: u) t := rfl
    have split : ∃ row, levRow s (y :: u) t = lev s (y :: u) :: row := by
      cases t <;> exact ⟨_, rfl⟩
    obtain ⟨row, split⟩ := split
    rw [step, split, cells, ← lev_cons_cons, ← split, ih]
    rfl

theorem lastRow_levRow (t s p : List α) :
    lastRow t s (p.length + 1) (levRow p [] t) = levRow (s.reverse ++ p) [] t := by
  induction s generalizing p with
  | nil => rfl
  | cons x s ih =>
    have row : nextRow t x (p.length + 1) (levRow p [] t) = levRow (x :: p) [] t := by
      simpa [nextRow] using cells_levRow x p [] t
    rw [lastRow, row]
    simpa using ih (x :: p)

theorem editDistance_eq_lev (s t : List α) : editDistance s t = lev s t := by
  have first : List.range (t.length + 1) = levRow ([] : List α) [] t := by
    rw [levRow_nil, List.range_eq_range']
    rfl
  have last := lastRow_levRow t s []
  simp only [List.length_nil, Nat.zero_add, List.append_nil] at last
  rw [editDistance, first, last, levRow_last, List.append_nil, Option.getD_some, lev_reverse]

/-- The program computes the least number of edits. -/
theorem isLeast_editDistance (s t : List α) : IsLeast {n | Steps n s t} (editDistance s t) := by
  rw [editDistance_eq_lev]
  exact isLeast_lev s t

end Edits

end GhostKey.Foundation

import Mathlib.Data.List.Nodup
import Mathlib.Data.List.Sort

/-!
# Records

An object of a scripting language used as a map from strings: its properties in the order
they were first set. Setting a property that is there keeps its place.

Main results:
- `get?_set`, `get?_erase`: a record after a change, read at any key.
- `get?_foldl_set`, `get?_foldl_modify`, `mem_foldl_set`: a record after a loop of changes.
- `nodup_foldl_set`: no key comes twice.
-/

namespace GhostKey.Foundation

abbrev Record (α : Type) := List (String × α)

namespace Record

variable {α : Type}

def get? (r : Record α) (k : String) : Option α := (r.find? fun p => p.1 = k).map Prod.snd

def set (r : Record α) (k : String) (a : α) : Record α :=
  if r.any fun p => p.1 = k then r.map fun p => if p.1 = k then (k, a) else p
  else r ++ [(k, a)]

/-- Set a property that is there to what `f` makes of it. -/
def modify (r : Record α) (k : String) (f : α → α) : Record α :=
  match get? r k with
  | some a => set r k (f a)
  | none => r

def erase (r : Record α) (k : String) : Record α := r.filter fun p => p.1 ≠ k

/-- The array index a key is the numeral of. -/
def arrayIndex? (k : String) : Option Nat :=
  match k.toList with
  | [] => none
  | ['0'] => some 0
  | '0' :: _ => none
  | digits =>
    let n := digits.foldl (fun n c => 10 * n + (c.toNat - '0'.toNat)) 0
    if digits.all Char.isDigit ∧ n < 4294967295 then some n else none

/-- The keys as they are listed: array indices in their order, then the others as first set. -/
def keys (r : Record α) : List String :=
  let indexed := r.filterMap fun p => (arrayIndex? p.1).map fun n => (n, p.1)
  (indexed.insertionSort fun a b => a.1 ≤ b.1).map Prod.snd ++
    (r.map Prod.fst).filter fun k => (arrayIndex? k).isNone

theorem get?_cons (p : String × α) (r : Record α) (k : String) :
    get? (p :: r) k = if p.1 = k then some p.2 else get? r k := by
  unfold get?
  by_cases here : p.1 = k <;> simp [here]

theorem get?_append_singleton (r : Record α) (k : String) (a : α) (q : String) :
    get? (r ++ [(k, a)]) q = (get? r q).or (if k = q then some a else none) := by
  induction r with
  | nil => by_cases here : k = q <;> simp [get?, here]
  | cons p r ih =>
    rw [List.cons_append, get?_cons, get?_cons, ih]
    split <;> simp

theorem get?_eq_none_iff {r : Record α} {k : String} : get? r k = none ↔ ∀ p ∈ r, p.1 ≠ k := by
  simp [get?]

/-- Replacing in place. -/
private theorem get?_map_replace (r : Record α) (k : String) (a : α) (q : String) :
    get? (r.map fun p => if p.1 = k then (k, a) else p) q =
      if q = k then (get? r q).map fun _ => a else get? r q := by
  induction r with
  | nil => simp [get?]
  | cons p r ih =>
    rw [List.map_cons, get?_cons, get?_cons, ih]
    by_cases here : p.1 = k
    · by_cases same : q = k
      · simp [here, same]
      · have other : ¬ k = q := fun eq => same eq.symm
        simp [here, same, other]
    · by_cases same : p.1 = q
      · have other : ¬ q = k := fun eq => here (same.trans eq)
        simp [same, other]
      · simp [here, same]

theorem get?_set (r : Record α) (k : String) (a : α) (q : String) :
    get? (set r k a) q = if q = k then some a else get? r q := by
  unfold set
  split
  · next there =>
    rw [get?_map_replace]
    split
    · next same =>
      subst same
      cases found : get? r q with
      | none =>
        have absent := get?_eq_none_iff.1 found
        obtain ⟨p, mem, key⟩ := List.any_eq_true.1 there
        exact absurd (by simpa using key) (absent p mem)
      | some b => rfl
    · rfl
  · next missing =>
    rw [get?_append_singleton]
    by_cases same : q = k
    · subst same
      have absent : get? r q = none := by
        rw [get?_eq_none_iff]
        intro p mem key
        exact missing (List.any_eq_true.2 ⟨p, mem, by simpa using key⟩)
      simp [absent]
    · have other : ¬ k = q := fun eq => same eq.symm
      simp [same, other]

theorem get?_erase (r : Record α) (k q : String) :
    get? (erase r k) q = if q = k then none else get? r q := by
  unfold erase
  induction r with
  | nil => simp [get?]
  | cons p r ih =>
    rw [List.filter_cons]
    by_cases here : p.1 = k
    · rw [if_neg (by simpa using here), ih, get?_cons]
      by_cases same : q = k
      · simp [same]
      · have other : ¬ p.1 = q := fun eq => same (eq.symm.trans here)
        simp [same, other]
    · rw [if_pos (by simpa using here), get?_cons, ih, get?_cons]
      by_cases same : p.1 = q
      · have other : ¬ q = k := fun eq => here (same.trans eq)
        simp [same, other]
      · simp [same]

theorem get?_modify (r : Record α) (k : String) (f : α → α) (q : String) :
    get? (modify r k f) q = if q = k then (get? r q).map f else get? r q := by
  unfold modify
  split
  · next a found =>
    rw [get?_set]
    split
    · next same => rw [same, found, Option.map_some]
    · rfl
  · next missing =>
    split
    · next same => rw [same, missing, Option.map_none]
    · rfl

/-- A loop that modifies properties once and for all. -/
theorem get?_foldl_modify {σ : Type} (key : σ → String) {f : α → α} (idem : ∀ a, f (f a) = f a)
    (q : String) : ∀ (xs : List σ) (r : Record α),
      get? (xs.foldl (fun r x => modify r (key x) f) r) q =
        if xs.any fun x => key x = q then (get? r q).map f else get? r q
  | [], _ => rfl
  | x :: xs, r => by
    rw [List.foldl_cons, get?_foldl_modify key idem q xs, get?_modify, List.any_cons]
    by_cases here : key x = q
    · subst here
      cases found : get? r (key x) <;> simp [idem]
    · have other : ¬ q = key x := fun eq => here eq.symm
      simp [here, other]

/-- A loop that sets properties leaves those alone that it does not come across. -/
theorem get?_foldl_set {σ : Type} (key : σ → String) (value : Record α → σ → α) (q : String) :
    ∀ (xs : List σ) (r : Record α), (∀ x ∈ xs, key x ≠ q) →
      get? (xs.foldl (fun r x => set r (key x) (value r x)) r) q = get? r q
  | [], _, _ => rfl
  | x :: xs, r, apart => by
    rw [List.foldl_cons, get?_foldl_set key value q xs _ fun y mem =>
      apart y (List.mem_cons_of_mem x mem), get?_set,
      if_neg (Ne.symm (apart x List.mem_cons_self))]

/-- What a loop that sets properties leaves at a key satisfies what every round of it does. -/
theorem get?_foldl_set_of_mem {σ : Type} (key : σ → String) (value : Record α → σ → α)
    {P : α → Prop} {q : String} : ∀ {xs : List σ} {r : Record α},
      (∀ x ∈ xs, ∀ r, key x = q → P (value r x)) → (∃ x ∈ xs, key x = q) →
        ∃ a, get? (xs.foldl (fun r x => set r (key x) (value r x)) r) q = some a ∧ P a
  | [], _, _, ⟨_, mem, _⟩ => absurd mem List.not_mem_nil
  | x :: xs, r, holds, there => by
    rw [List.foldl_cons]
    by_cases later : ∃ y ∈ xs, key y = q
    · exact get?_foldl_set_of_mem key value (fun y mem => holds y (List.mem_cons_of_mem x mem)) later
    · have here : key x = q := by
        obtain ⟨y, mem, eq⟩ := there
        rcases List.mem_cons.1 mem with rfl | mem
        · exact eq
        · exact absurd ⟨y, mem, eq⟩ later
      refine ⟨value r x, ?_, holds x List.mem_cons_self r here⟩
      rw [get?_foldl_set key value q xs _ fun y mem eq => later ⟨y, mem, eq⟩, get?_set,
        if_pos here.symm]

theorem mem_of_get? {r : Record α} {k : String} {a : α} (found : get? r k = some a) :
    (k, a) ∈ r := by
  obtain ⟨p, at_k, rfl⟩ := Option.map_eq_some_iff.1 found
  have key : p.1 = k := by simpa using List.find?_some at_k
  rw [← key]
  exact List.mem_of_find?_eq_some at_k

theorem keys_set (r : Record α) (k : String) (a : α) :
    (set r k a).map Prod.fst =
      if k ∈ r.map Prod.fst then r.map Prod.fst else r.map Prod.fst ++ [k] := by
  have there : (r.any fun p => p.1 = k) = true ↔ k ∈ r.map Prod.fst := by
    simp only [List.any_eq_true, List.mem_map, decide_eq_true_eq]
  unfold set
  by_cases mem : k ∈ r.map Prod.fst
  · rw [if_pos mem, if_pos (there.2 mem), List.map_map]
    refine List.map_congr_left fun p _ => ?_
    by_cases here : p.1 = k <;> simp [here]
  · rw [if_neg mem, if_neg fun any => mem (there.1 any), List.map_append]
    rfl

theorem nodup_set {r : Record α} (k : String) (a : α) (distinct : (r.map Prod.fst).Nodup) :
    ((set r k a).map Prod.fst).Nodup := by
  rw [keys_set]
  split
  · exact distinct
  · next fresh =>
    refine distinct.append (List.nodup_singleton k) fun q mem single => ?_
    exact fresh (List.mem_singleton.1 single ▸ mem)

theorem nodup_foldl_set {σ : Type} (key : σ → String) (value : σ → α) (xs : List σ) :
    ∀ {r : Record α}, (r.map Prod.fst).Nodup →
      ((xs.foldl (fun r x => set r (key x) (value x)) r).map Prod.fst).Nodup := by
  induction xs with
  | nil => exact id
  | cons x xs ih => exact fun distinct => ih (nodup_set (key x) (value x) distinct)

theorem mem_set {r : Record α} {k : String} {a : α} {p : String × α} (mem : p ∈ set r k a) :
    p ∈ r ∨ p = (k, a) := by
  unfold set at mem
  split at mem
  · obtain ⟨q, inside, rfl⟩ := List.mem_map.1 mem
    by_cases here : q.1 = k
    · exact .inr (if_pos here)
    · exact .inl ((if_neg here : (if q.1 = k then (k, a) else q) = q).symm ▸ inside)
  · rcases List.mem_append.1 mem with inside | last
    · exact .inl inside
    · exact .inr (List.mem_singleton.1 last)

theorem mem_foldl_set {σ : Type} (key : σ → String) (value : σ → α) {p : String × α}
    (xs : List σ) : ∀ {r : Record α}, p ∈ xs.foldl (fun r x => set r (key x) (value x)) r →
      p ∈ r ∨ ∃ x ∈ xs, p = (key x, value x) := by
  induction xs with
  | nil => exact fun mem => .inl mem
  | cons x xs ih =>
    intro r mem
    rcases ih mem with before | ⟨y, later, same⟩
    · rcases mem_set before with old | new
      · exact .inl old
      · exact .inr ⟨x, List.mem_cons_self, new⟩
    · exact .inr ⟨y, List.mem_cons_of_mem x later, same⟩

end Record

end GhostKey.Foundation

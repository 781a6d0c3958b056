import Mathlib.Data.List.Nodup
import Mathlib.Data.List.Basic

/-!
# Tables with a Primary Key

A table is a list of rows together with a proof that no two rows share a key,
so a table that violates its primary key cannot be built. The operations are
the ones a single SQL statement performs: `update` (UPDATE … SET … WHERE …),
`delete` (DELETE … WHERE …), `insert?` (INSERT, refused on a key conflict) and
the read `find?` by key.

Main results:
- `find?_update`, `find?_delete`, `find?_insert?` describe a statement by what it
  does to the row of one key.
- `affected_eq_one_iff`: a statement that names one key reports one affected row
  exactly when that row exists and passes the rest of the WHERE clause.
-/

namespace GhostKey.Foundation

/-- Rows in insertion order, no two with the same `key`. -/
structure KeyedTable (ρ κ : Type) (key : ρ → κ) where
  rows : List ρ
  nodup : (rows.map key).Nodup

namespace KeyedTable

variable {ρ κ : Type} {key : ρ → κ} [DecidableEq κ]

/-! ## Operations -/

def empty : KeyedTable ρ κ key := ⟨[], List.nodup_nil⟩

/-- The row of a key. -/
def find? (t : KeyedTable ρ κ key) (k : κ) : Option ρ :=
  t.rows.find? fun r => key r = k

/-- The rows a WHERE clause selects, in table order. -/
def select (t : KeyedTable ρ κ key) (p : ρ → Bool) : List ρ :=
  t.rows.filter p

/-- How many rows a WHERE clause matches. -/
def affected (t : KeyedTable ρ κ key) (p : ρ → Bool) : Nat :=
  t.rows.countP p

omit [DecidableEq κ] in
private theorem keys_map_of_keeps {f : ρ → ρ} (keeps : ∀ r, key (f r) = key r)
    (p : ρ → Bool) (rows : List ρ) :
    (rows.map fun r => if p r then f r else r).map key = rows.map key := by
  rw [List.map_map]
  apply List.map_congr_left
  intro r _
  by_cases hp : p r <;> simp [hp, keeps]

/-- `UPDATE … SET f WHERE p`; the assignment may not touch the key. -/
def update (t : KeyedTable ρ κ key) (p : ρ → Bool) (f : ρ → ρ)
    (keeps : ∀ r, key (f r) = key r) : KeyedTable ρ κ key :=
  ⟨t.rows.map fun r => if p r then f r else r, by
    rw [keys_map_of_keeps keeps]; exact t.nodup⟩

/-- `DELETE … WHERE p`. -/
def delete (t : KeyedTable ρ κ key) (p : ρ → Bool) : KeyedTable ρ κ key :=
  ⟨t.rows.filter fun r => !p r, t.nodup.sublist (List.filter_sublist.map key)⟩

/-- `INSERT`; `none` is the uniqueness error. -/
def insert? (t : KeyedTable ρ κ key) (r : ρ) : Option (KeyedTable ρ κ key) :=
  if fresh : key r ∈ t.rows.map key then none
  else some ⟨t.rows ++ [r], by
    rw [List.map_append, List.nodup_append]
    refine ⟨t.nodup, List.nodup_singleton _, ?_⟩
    intro k hk k' hk' same
    rw [List.map_singleton, List.mem_singleton] at hk'
    exact fresh (hk' ▸ same ▸ hk)⟩

/-! ## Reading by key -/

@[simp] theorem find?_empty (k : κ) : (empty : KeyedTable ρ κ key).find? k = none := rfl

theorem find?_key {t : KeyedTable ρ κ key} {k : κ} {r : ρ} (h : t.find? k = some r) :
    key r = k := by
  have found := List.find?_some h
  simpa using found

theorem find?_mem {t : KeyedTable ρ κ key} {k : κ} {r : ρ} (h : t.find? k = some r) :
    r ∈ t.rows :=
  List.mem_of_find?_eq_some h

private theorem find?_of_mem_rows : ∀ {rows : List ρ} {r : ρ},
    (rows.map key).Nodup → r ∈ rows → rows.find? (fun x => key x = key r) = some r
  | first :: rest, r, nodup, mem => by
    rw [List.map_cons, List.nodup_cons] at nodup
    rcases List.mem_cons.1 mem with rfl | mem
    · simp
    · have differs : key first ≠ key r := by
        intro same
        exact nodup.1 (same ▸ List.mem_map_of_mem mem)
      rw [List.find?_cons_of_neg (by simpa using differs)]
      exact find?_of_mem_rows nodup.2 mem

/-- A row of the table is the row found under its key. -/
theorem find?_of_mem {t : KeyedTable ρ κ key} {r : ρ} (mem : r ∈ t.rows) :
    t.find? (key r) = some r :=
  find?_of_mem_rows t.nodup mem

theorem mem_rows_iff {t : KeyedTable ρ κ key} {r : ρ} :
    r ∈ t.rows ↔ t.find? (key r) = some r :=
  ⟨find?_of_mem, find?_mem⟩

/-! ## Statements seen from one key -/

private theorem find?_map_rows {f : ρ → ρ} (keeps : ∀ r, key (f r) = key r) (p : ρ → Bool)
    (k : κ) : ∀ rows : List ρ,
    (rows.map fun r => if p r then f r else r).find? (fun r => key r = k) =
      (rows.find? fun r => key r = k).map fun r => if p r then f r else r
  | [] => rfl
  | first :: rest => by
    have kept : key (if p first then f first else first) = key first := by
      by_cases hp : p first <;> simp [hp, keeps]
    by_cases hit : key first = k
    · rw [List.map_cons, List.find?_cons_of_pos (by simpa [kept] using hit),
        List.find?_cons_of_pos (by simpa using hit), Option.map_some]
    · rw [List.map_cons, List.find?_cons_of_neg (by simpa [kept] using hit),
        List.find?_cons_of_neg (by simpa using hit)]
      exact find?_map_rows keeps p k rest

theorem find?_update (t : KeyedTable ρ κ key) (p : ρ → Bool) (f : ρ → ρ)
    (keeps : ∀ r, key (f r) = key r) (k : κ) :
    (t.update p f keeps).find? k = (t.find? k).map fun r => if p r then f r else r :=
  find?_map_rows keeps p k t.rows

omit [DecidableEq κ] in
/-- A statement that selects no row changes none. -/
theorem update_of_none {t : KeyedTable ρ κ key} {p : ρ → Bool} {f : ρ → ρ}
    {keeps : ∀ r, key (f r) = key r} (none : ∀ r ∈ t.rows, p r = false) : t.update p f keeps = t := by
  have same : (t.rows.map fun r => if p r then f r else r) = t.rows := by
    refine (List.map_congr_left fun r mem => ?_).trans (List.map_id t.rows)
    rw [none r mem]
    rfl
  cases t
  simp only [update, same]

/-- The row of a key after a deletion is gone exactly when the clause selects it. -/
theorem find?_delete (t : KeyedTable ρ κ key) (p : ρ → Bool) (k : κ) :
    (t.delete p).find? k = (t.find? k).filter fun r => !p r := by
  cases found : t.find? k with
  | none =>
    have absent : ∀ r ∈ t.rows, ¬ key r = k := by simpa [find?] using found
    have gone : (t.delete p).find? k = none := by
      simp only [find?, delete, List.find?_eq_none, List.mem_filter, decide_eq_true_eq]
      intro r mem
      exact absent r mem.1
    rw [gone]; rfl
  | some r =>
    have hk : key r = k := find?_key found
    by_cases hp : p r
    · have gone : (t.delete p).find? k = none := by
        simp only [find?, delete, List.find?_eq_none, List.mem_filter, decide_eq_true_eq]
        intro x mem same
        have hx : t.find? (key x) = some x := find?_of_mem mem.1
        rw [same, found, Option.some.injEq] at hx
        subst hx
        simp [hp] at mem
      rw [gone]; simp [Option.filter, hp]
    · have kept : r ∈ (t.delete p).rows := by
        simp only [delete, List.mem_filter]
        exact ⟨find?_mem found, by simp [hp]⟩
      rw [← hk, find?_of_mem kept]; simp [Option.filter, hp]

theorem find?_insert? {t t' : KeyedTable ρ κ key} {r : ρ} (h : t.insert? r = some t') (k : κ) :
    t'.find? k = if k = key r then some r else t.find? k := by
  unfold insert? at h
  split at h
  · cases h
  · next fresh =>
    cases h
    have absent : ∀ x ∈ t.rows, ¬ key x = key r := by
      intro x mem same
      exact fresh (same ▸ List.mem_map_of_mem mem)
    by_cases hk : k = key r
    · subst hk
      have missing : t.rows.find? (fun x => key x = key r) = none := by simpa using absent
      simp only [find?, List.find?_append, missing]
      simp
    · have other : ¬ key r = k := fun same => hk same.symm
      simp [find?, List.find?_append, hk, other]

/-- An insertion succeeds only on a key the table does not hold. -/
theorem find?_eq_none_of_insert? {t t' : KeyedTable ρ κ key} {r : ρ}
    (h : t.insert? r = some t') : t.find? (key r) = none := by
  unfold insert? at h
  split at h
  · cases h
  · next fresh =>
    simp only [find?, List.find?_eq_none, decide_eq_true_eq]
    intro x mem same
    exact fresh (same ▸ List.mem_map_of_mem mem)

/-- On such a key it does. -/
theorem exists_insert? {t : KeyedTable ρ κ key} {r : ρ} (absent : t.find? (key r) = none) :
    ∃ t', t.insert? r = some t' ∧ r ∈ t'.rows := by
  have fresh : key r ∉ t.rows.map key := by
    intro mem
    obtain ⟨x, listed, same⟩ := List.mem_map.1 mem
    have found := find?_of_mem listed
    rw [same, absent] at found
    cases found
  unfold insert?
  rw [dif_neg fresh]
  exact ⟨_, rfl, List.mem_append_right _ (List.mem_singleton_self r)⟩

/-! ## Rows affected by a statement that names one key -/

private theorem countP_key_rows (k : κ) (p : ρ → Bool) : ∀ {rows : List ρ},
    (rows.map key).Nodup →
      rows.countP (fun r => decide (key r = k) && p r) =
        if (rows.find? fun r => key r = k).any p then 1 else 0
  | [], _ => rfl
  | first :: rest, nodup => by
    rw [List.map_cons, List.nodup_cons] at nodup
    by_cases hit : key first = k
    · have none_left : rest.countP (fun r => decide (key r = k) && p r) = 0 := by
        rw [List.countP_eq_zero]
        intro r mem hr
        have same : key r = k := by
          simp only [Bool.and_eq_true, decide_eq_true_eq] at hr
          exact hr.1
        exact nodup.1 (hit.trans same.symm ▸ List.mem_map_of_mem mem)
      rw [List.countP_cons, none_left, List.find?_cons_of_pos (by simpa using hit)]
      simp [hit]
    · rw [List.countP_cons, List.find?_cons_of_neg (by simpa using hit),
        countP_key_rows k p nodup.2]
      simp [hit]

theorem affected_key (t : KeyedTable ρ κ key) (k : κ) (p : ρ → Bool) :
    t.affected (fun r => decide (key r = k) && p r) = if (t.find? k).any p then 1 else 0 :=
  countP_key_rows k p t.nodup

theorem affected_eq_one_iff (t : KeyedTable ρ κ key) (k : κ) (p : ρ → Bool) :
    t.affected (fun r => decide (key r = k) && p r) = 1 ↔
      ∃ r, t.find? k = some r ∧ p r = true := by
  rw [affected_key]
  cases t.find? k with
  | none => simp
  | some r => by_cases hp : p r <;> simp [hp]

omit [DecidableEq κ] in
theorem nodup_select (t : KeyedTable ρ κ key) (p : ρ → Bool) : ((t.select p).map key).Nodup :=
  t.nodup.sublist (List.filter_sublist.map key)

theorem mem_select {t : KeyedTable ρ κ key} {p : ρ → Bool} {r : ρ} :
    r ∈ t.select p ↔ t.find? (key r) = some r ∧ p r = true := by
  simp only [select, List.mem_filter, mem_rows_iff]

end KeyedTable

end GhostKey.Foundation

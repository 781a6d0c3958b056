import GhostKey.Foundation.KeyedTable
import GhostKey.Foundation.Transaction
import Mathlib.Data.List.Count

/-!
# Sweeps over a Table

A data migration reads the rows of a table and goes through them one after the other, within
one transaction. A row is left alone, passed over and counted, or has one column rewritten by
an UPDATE of its own, which names the row's key and what the column held; or the row is
refused, and the transaction is given up.

Main results:
- `steady_sweep`: a sweep runs undisturbed or ends in a fault.
- `sweep_calm`: undisturbed, and if it refuses no row, it is one UPDATE of all the rows it
  rewrites, and it has counted them.
-/

namespace GhostKey.Foundation

/-- What a sweep makes of a row. -/
inductive Verdict (ε β : Type) where
  | leave
  | skip
  | put (value : β)
  | refuse (e : ε)

namespace Verdict

variable {ε β : Type}

def isPut : Verdict ε β → Bool
  | put _ => true
  | _ => false

def isSkip : Verdict ε β → Bool
  | skip => true
  | _ => false

def Refused (v : Verdict ε β) : Prop := ∃ e, v = refuse e

end Verdict

/-- A table of a store with the column a sweep rewrites. -/
structure Column (W ρ κ β : Type) (key : ρ → κ) where
  table : W → KeyedTable ρ κ key
  setTable : KeyedTable ρ κ key → W → W
  table_set : ∀ t w, table (setTable t w) = t
  set_set : ∀ t t' w, setTable t' (setTable t w) = setTable t' w
  set_table : ∀ w, setTable (table w) w = w
  put : β → ρ → ρ
  keeps : ∀ v r, key (put v r) = key r
  /-- The column of the second row holds what it held in the first. -/
  same : ρ → ρ → Bool
  same_refl : ∀ r, same r r = true

namespace Column

variable {W ρ κ β ε : Type} {key : ρ → κ} [DecidableEq κ] (col : Column W ρ κ β key)

/-- The WHERE clause of the UPDATE of one row. -/
def only (r x : ρ) : Bool := decide (key x = key r) && col.same r x

/-- The UPDATE of one row, with the rows it affects. -/
def rewrite (r : ρ) (v : β) : TxPart W ε Nat :=
  .stmt fun w =>
    ((col.table w).affected (col.only r),
      col.setTable ((col.table w).update (col.only r) (col.put v) (col.keeps v)) w)

/-- Go through the rows, counting those rewritten and those passed over. -/
def sweep (verdict : ρ → Verdict ε β) (changed : ρ → ε) :
    List ρ → Nat × Nat → TxPart W ε (Nat × Nat)
  | [], tally => .done tally
  | r :: rest, tally =>
      match verdict r with
      | .leave => sweep verdict changed rest tally
      | .skip => sweep verdict changed rest (tally.1, tally.2 + 1)
      | .refuse e => .fail e
      | .put v =>
          (col.rewrite r v).bind fun rows =>
            if rows ≠ 1 then .fail (changed r)
            else sweep verdict changed rest (tally.1 + 1, tally.2)

/-- The row as a sweep leaves it. -/
def swept (verdict : ρ → Verdict ε β) (r : ρ) : ρ :=
  match verdict r with
  | .put v => col.put v r
  | _ => r

omit [DecidableEq κ] in
theorem key_swept (verdict : ρ → Verdict ε β) (r : ρ) : key (col.swept verdict r) = key r := by
  unfold swept
  split
  · exact col.keeps _ r
  · rfl

omit [DecidableEq κ] in
theorem swept_of_not_put {verdict : ρ → Verdict ε β} {r : ρ} (other : (verdict r).isPut = false) :
    col.swept verdict r = r := by
  unfold swept
  split
  · next v put => simp [put, Verdict.isPut] at other
  · rfl

theorem steady_sweep (verdict : ρ → Verdict ε β) (changed : ρ → ε) (rows : List ρ)
    (tally : Nat × Nat) : TxPart.Steady (col.sweep verdict changed rows tally) := by
  induction rows generalizing tally with
  | nil => exact TxPart.steady_done tally
  | cons r rest ih =>
    unfold sweep
    split
    · exact ih tally
    · exact ih _
    · exact TxPart.steady_fail _
    · apply TxPart.steady_bind (TxPart.steady_stmt _)
      intro affected
      exact TxPart.steady_ite (TxPart.steady_fail _) (ih _)

/-- The store after a sweep of `p`. -/
def after (p : ρ → Bool) (verdict : ρ → Verdict ε β) (w : W) : W :=
  col.setTable ((col.table w).update p (col.swept verdict) (col.key_swept verdict)) w

theorem find?_after (p : ρ → Bool) (verdict : ρ → Verdict ε β) (w : W) (k : κ) :
    (col.table (col.after p verdict w)).find? k =
      ((col.table w).find? k).map fun r => if p r then col.swept verdict r else r := by
  rw [after, col.table_set, KeyedTable.find?_update]

omit [DecidableEq κ] in
theorem affected_after (p q : ρ → Bool) (verdict : ρ → Verdict ε β) (w : W) :
    (col.table (col.after p verdict w)).affected q =
      (col.table w).affected fun r => q (if p r then col.swept verdict r else r) := by
  rw [after, col.table_set]
  exact List.countP_map

omit [DecidableEq κ] in
/-- A sweep that rewrites nothing. -/
theorem after_eq_self {p : ρ → Bool} {verdict : ρ → Verdict ε β} {w : W}
    (none : ∀ r ∈ (col.table w).rows, p r = true → (verdict r).isPut = false) :
    col.after p verdict w = w := by
  have rows : ((col.table w).rows.map fun r => if p r then col.swept verdict r else r) =
      (col.table w).rows := by
    refine (List.map_congr_left fun r mem => ?_).trans (List.map_id _)
    split
    · next selected => exact col.swept_of_not_put (none r mem selected)
    · rfl
  have same : (col.table w).update p (col.swept verdict) (col.key_swept verdict) =
      col.table w := by
    unfold KeyedTable.update
    simp only [rows]
  unfold after
  rw [same, col.set_table]

/-- The UPDATE of a row in the middle of a table. -/
theorem map_only {r : ρ} {v : β} {before rest : List ρ}
    (nodup : ((before ++ r :: rest).map key).Nodup) :
    ((before ++ r :: rest).map fun x => if col.only r x then col.put v x else x) =
      before ++ col.put v r :: rest := by
  rw [List.map_append, List.map_cons, List.nodup_append, List.nodup_cons] at nodup
  obtain ⟨-, ⟨unlisted, -⟩, apart⟩ := nodup
  have others : ∀ x : ρ, key x ≠ key r → (if col.only r x then col.put v x else x) = x := by
    intro x other
    simp [only, other]
  have first : (before.map fun x => if col.only r x then col.put v x else x) = before := by
    refine (List.map_congr_left fun x mem => ?_).trans (List.map_id before)
    exact others x (apart (key x) (List.mem_map_of_mem mem) (key r) (.head _))
  have last : (rest.map fun x => if col.only r x then col.put v x else x) = rest := by
    refine (List.map_congr_left fun x mem => ?_).trans (List.map_id rest)
    exact others x fun same => unlisted (same ▸ List.mem_map_of_mem mem)
  have hit : col.only r r = true := by simp [only, col.same_refl]
  rw [List.map_append, List.map_cons, first, last, if_pos hit]

/-- What the sweep of the rest of a table comes to: a row is refused, or the rest is rewritten
behind the rows `before` it. -/
def SweepsRest (p : ρ → Bool) (verdict : ρ → Verdict ε β) (changed : ρ → ε) (w : W)
    (before rest : List ρ) (t : KeyedTable ρ κ key) (tally : Nat × Nat) (n : Nat) : Prop :=
  (∃ r e, r ∈ rest ∧ p r = true ∧ verdict r = .refuse e ∧
    col.sweep verdict changed (rest.filter p) tally TxPart.calm n (col.setTable t w) =
      .error e) ∨
  (∀ r ∈ rest, p r = true → ¬ (verdict r).Refused) ∧
  ∃ m t', t'.rows = before ++ rest.map (fun r => if p r then col.swept verdict r else r) ∧
    col.sweep verdict changed (rest.filter p) tally TxPart.calm n (col.setTable t w) =
      .ok ((tally.1 + rest.countP (fun r => p r && (verdict r).isPut),
        tally.2 + rest.countP (fun r => p r && (verdict r).isSkip)), m, col.setTable t' w)

theorem sweepsRest (p : ρ → Bool) (verdict : ρ → Verdict ε β) (changed : ρ → ε) (w : W)
    (rest before : List ρ) (t : KeyedTable ρ κ key) (tally : Nat × Nat) (n : Nat)
    (rows : t.rows = before ++ rest) :
    col.SweepsRest p verdict changed w before rest t tally n := by
  induction rest generalizing before t tally n with
  | nil => exact .inr ⟨fun r none => (List.not_mem_nil none).elim, n, t, rows, rfl⟩
  | cons r rest ih =>
    -- one row is dealt with and counted, then the rest
    have step : ∀ (t₁ : KeyedTable ρ κ key) (tally' : Nat × Nat) (n' : Nat),
        (p r = true → ¬ (verdict r).Refused) →
        t₁.rows = before ++ (if p r then col.swept verdict r else r) :: rest →
        col.sweep verdict changed ((r :: rest).filter p) tally TxPart.calm n (col.setTable t w) =
          col.sweep verdict changed (rest.filter p) tally' TxPart.calm n' (col.setTable t₁ w) →
        tally'.1 = tally.1 + (if p r && (verdict r).isPut then 1 else 0) →
        tally'.2 = tally.2 + (if p r && (verdict r).isSkip then 1 else 0) →
        col.SweepsRest p verdict changed w before (r :: rest) t tally n := by
      intro t₁ tally' n' accepted rows₁ same puts skips
      rcases ih _ t₁ tally' n' (rows₁.trans (List.append_cons _ _ _)) with
        ⟨x, e, mem, px, refused, ended⟩ | ⟨others, m, t', rows', ran⟩
      · exact .inl ⟨x, e, .tail _ mem, px, refused, same.trans ended⟩
      · refine .inr ⟨List.forall_mem_cons.2 ⟨accepted, others⟩, m, t', ?_, ?_⟩
        · rw [rows', List.map_cons, List.append_assoc]
          rfl
        · rw [same, ran, List.countP_cons, List.countP_cons, puts, skips]
          simp only [Nat.add_assoc, Nat.add_comm]
    cases selected : p r with
    | false =>
      refine step t tally n (by simp [selected]) ?_ ?_ ?_ ?_
      · simp [rows, selected]
      · rw [List.filter_cons_of_neg (by simp [selected])]
      · simp [selected]
      · simp [selected]
    | true =>
      have first : (r :: rest).filter p = r :: rest.filter p := List.filter_cons_of_pos selected
      cases decided : verdict r with
      | leave =>
        refine step t tally n (by simp [decided, Verdict.Refused]) ?_ ?_ ?_ ?_
        · simp [rows, selected, swept, decided]
        · rw [first, sweep, decided]
        · simp [decided, Verdict.isPut]
        · simp [decided, Verdict.isSkip]
      | skip =>
        refine step t (tally.1, tally.2 + 1) n (by simp [decided, Verdict.Refused]) ?_ ?_ ?_ ?_
        · simp [rows, selected, swept, decided]
        · rw [first, sweep, decided]
        · simp [decided, Verdict.isPut]
        · simp [selected, decided, Verdict.isSkip]
      | refuse e =>
        refine .inl ⟨r, e, .head _, selected, decided, ?_⟩
        rw [first, sweep, decided]
        rfl
      | put v =>
        have nodup : ((before ++ r :: rest).map key).Nodup := rows ▸ t.nodup
        let t₁ := t.update (col.only r) (col.put v) (col.keeps v)
        have rows₁ : t₁.rows = before ++ col.put v r :: rest := by
          show (t.rows.map fun x => if col.only r x then col.put v x else x) = _
          rw [rows, col.map_only nodup]
        have here : t.find? (key r) = some r := by
          apply KeyedTable.find?_of_mem
          rw [rows]
          exact List.mem_append_right _ (.head _)
        have one : t.affected (col.only r) = 1 :=
          (KeyedTable.affected_eq_one_iff t (key r) (col.same r)).2 ⟨r, here, col.same_refl r⟩
        refine step t₁ (tally.1 + 1, tally.2) (n + 1) (by simp [decided, Verdict.Refused])
          ?_ ?_ ?_ ?_
        · simp [rows₁, selected, swept, decided]
        · rw [first, sweep, decided]
          simp only [TxPart.bind_apply, rewrite, TxPart.stmt_calm, col.table_set, col.set_set, one]
          rfl
        · simp [selected, decided, Verdict.isPut]
        · simp [decided, Verdict.isSkip]

/-- Undisturbed, a sweep refuses a row or comes to one UPDATE, and has counted the rows. -/
theorem sweep_calm (p : ρ → Bool) (verdict : ρ → Verdict ε β) (changed : ρ → ε) (w : W) (n : Nat) :
    (∃ r e, r ∈ (col.table w).rows ∧ p r = true ∧ verdict r = .refuse e ∧
      col.sweep verdict changed ((col.table w).select p) (0, 0) TxPart.calm n w = .error e) ∨
    (∀ r ∈ (col.table w).rows, p r = true → ¬ (verdict r).Refused) ∧
    ∃ m, col.sweep verdict changed ((col.table w).select p) (0, 0) TxPart.calm n w =
      .ok (((col.table w).affected fun r => p r && (verdict r).isPut,
        (col.table w).affected fun r => p r && (verdict r).isSkip), m, col.after p verdict w) := by
  have swept := col.sweepsRest p verdict changed w (col.table w).rows [] (col.table w) (0, 0) n rfl
  unfold SweepsRest at swept
  rw [col.set_table] at swept
  rcases swept with refused | ⟨accepted, m, t', rows, ran⟩
  · exact .inl refused
  · have same : t' = (col.table w).update p (col.swept verdict) (col.key_swept verdict) := by
      cases t'
      cases rows
      rfl
    rw [same] at ran
    refine .inr ⟨accepted, m, ran.trans ?_⟩
    rw [Nat.zero_add, Nat.zero_add]
    rfl

end Column

end GhostKey.Foundation

import Mathlib.Data.List.Nodup
import Mathlib.Data.List.Perm.Subperm
import Mathlib.Data.Nat.Notation

/-!
# Trees of Thresholds

A spending condition as a tree: its leaves are single conditions, and a node asks for
some number of its children. A choice assigns children to nodes, by the nodes' ids; it
meets a tree if every node it reaches has an entry that is large enough, and every leaf it
reaches is one that can be satisfied.

Main results:
- `Meets.congr`: only the entries of a tree's own nodes matter.
- `meets_iff`: meeting a tree is filling its thresholds with leaves that can be satisfied.
- `Meets.all`: at a node that asks for all of its children, all of them are met.
-/

namespace GhostKey.Foundation

/-- A tree of thresholds over leaves. -/
inductive ThresholdTree (Id Leaf : Type) where
  | leaf (a : Leaf)
  | node (id : Id) (children : List (ThresholdTree Id Leaf)) (threshold : ℕ)

/-- The chosen children of some nodes. -/
abbrev Choice (Id : Type) := Id → Option (List ℕ)

namespace ThresholdTree

variable {Id Leaf : Type}

/-- Induction on a tree, with the hypothesis for every child. -/
@[elab_as_elim]
theorem induct {motive : ThresholdTree Id Leaf → Prop} (leaf : ∀ a, motive (.leaf a))
    (node : ∀ id children threshold, (∀ c ∈ children, motive c) →
      motive (.node id children threshold)) : ∀ t, motive t
  | .leaf a => leaf a
  | .node id children threshold =>
      node id children threshold fun c _ => induct leaf node c

mutual

/-- The ids of a tree's nodes. -/
def ids : ThresholdTree Id Leaf → List Id
  | .leaf _ => []
  | .node id children _ => id :: idsAll children

def idsAll : List (ThresholdTree Id Leaf) → List Id
  | [] => []
  | c :: cs => c.ids ++ idsAll cs

end

mutual

/-- Every node asks for one of its children or for all of them. -/
def AndOr : ThresholdTree Id Leaf → Prop
  | .leaf _ => True
  | .node _ children threshold =>
      (threshold = 1 ∨ 1 < threshold ∧ threshold = children.length) ∧ AndOrAll children

def AndOrAll : List (ThresholdTree Id Leaf) → Prop
  | [] => True
  | c :: cs => c.AndOr ∧ AndOrAll cs

end

theorem mem_idsAll {children : List (ThresholdTree Id Leaf)} {c : ThresholdTree Id Leaf}
    (mem : c ∈ children) {id : Id} (inside : id ∈ c.ids) : id ∈ idsAll children := by
  induction children with
  | nil => cases mem
  | cons d ds ih =>
    rw [idsAll, List.mem_append]
    rcases List.mem_cons.1 mem with rfl | later
    · exact .inl inside
    · exact .inr (ih later)

/-! ## §1 Meeting a tree -/

/-- Every node reached has an entry with enough children, and every leaf reached is `ok`. -/
inductive Meets (ok : Leaf → Prop) (path : Choice Id) : ThresholdTree Id Leaf → Prop
  | leaf {a : Leaf} (fine : ok a) : Meets ok path (.leaf a)
  | node {id : Id} {children : List (ThresholdTree Id Leaf)} {threshold : ℕ} {chosen : List ℕ}
      (entry : path id = some chosen) (distinct : chosen.Nodup)
      (inRange : ∀ i ∈ chosen, i < children.length) (enough : threshold ≤ chosen.length)
      (below : ∀ i ∈ chosen, ∀ c, children[i]? = some c → Meets ok path c) :
      Meets ok path (.node id children threshold)

/-- The leaves a choice reaches. -/
inductive Selects (path : Choice Id) : ThresholdTree Id Leaf → Leaf → Prop
  | leaf (a : Leaf) : Selects path (.leaf a) a
  | node {id : Id} {children : List (ThresholdTree Id Leaf)} {threshold i : ℕ} {chosen : List ℕ}
      {c : ThresholdTree Id Leaf} {a : Leaf} (entry : path id = some chosen) (mem : i ∈ chosen)
      (child : children[i]? = some c) (below : Selects path c a) :
      Selects path (.node id children threshold) a

/-- Enough children everywhere, whatever the leaves. -/
abbrev Fills (path : Choice Id) (t : ThresholdTree Id Leaf) : Prop := Meets (fun _ => True) path t

variable {ok : Leaf → Prop} {path path' : Choice Id} {t : ThresholdTree Id Leaf}

/-- Meeting a tree is filling its thresholds with leaves that are `ok`. -/
theorem meets_iff : Meets ok path t ↔ Fills path t ∧ ∀ a, Selects path t a → ok a := by
  constructor
  · intro meets
    induction meets with
    | leaf fine =>
      refine ⟨.leaf trivial, fun a selects => ?_⟩
      cases selects
      exact fine
    | node entry distinct inRange enough _ ih =>
      refine ⟨.node entry distinct inRange enough fun i mem c child => (ih i mem c child).1,
        fun a selects => ?_⟩
      cases selects with
      | node entry' mem child below =>
        obtain rfl := Option.some.inj (entry.symm.trans entry')
        exact (ih _ mem _ child).2 a below
  · rintro ⟨fills, fine⟩
    induction fills with
    | leaf _ => exact .leaf (fine _ (.leaf _))
    | node entry distinct inRange enough _ ih =>
      exact .node entry distinct inRange enough fun i mem c child =>
        ih i mem c child fun a below => fine a (.node entry mem child below)

/-- Only the entries of a tree's own nodes matter. -/
theorem Meets.congr (meets : Meets ok path t) (agree : ∀ id ∈ t.ids, path' id = path id) :
    Meets ok path' t := by
  induction meets with
  | leaf fine => exact .leaf fine
  | node entry distinct inRange enough _ ih =>
    simp only [ids, List.forall_mem_cons] at agree
    refine .node (agree.1.trans entry) distinct inRange enough fun i mem c child => ?_
    exact ih i mem c child fun id inside =>
      agree.2 id (mem_idsAll (List.mem_of_getElem? child) inside)

/-- One child that is met is enough where one is asked for. -/
theorem Meets.of_one {id : Id} {children : List (ThresholdTree Id Leaf)} {i : ℕ}
    {c : ThresholdTree Id Leaf} (entry : path id = some [i]) (child : children[i]? = some c)
    (meets : Meets ok path c) : Meets ok path (.node id children 1) := by
  refine .node entry (List.nodup_singleton i) ?_ (by simp) ?_
  · intro j mem
    rw [List.mem_singleton.1 mem]
    exact (List.getElem?_eq_some_iff.1 child).1
  · intro j mem d child'
    rw [List.mem_singleton.1 mem, child] at child'
    exact Option.some.inj child' ▸ meets

/-- All children that are met are enough where all are asked for. -/
theorem Meets.of_all {id : Id} {children : List (ThresholdTree Id Leaf)}
    (entry : path id = some (List.range children.length))
    (meets : ∀ c ∈ children, Meets ok path c) :
    Meets ok path (.node id children children.length) :=
  .node entry List.nodup_range (fun _ mem => List.mem_range.1 mem) (by simp)
    fun _ _ c child => meets c (List.mem_of_getElem? child)

/-- A list of distinct indices as long as the range holds all of it. -/
theorem mem_of_full {chosen : List ℕ} {n : ℕ} (distinct : chosen.Nodup)
    (inRange : ∀ i ∈ chosen, i < n) (enough : n ≤ chosen.length) {i : ℕ} (lt : i < n) :
    i ∈ chosen := by
  have sub : chosen ⊆ List.range n := fun j mem => List.mem_range.2 (inRange j mem)
  have perm := (List.subperm_of_subset distinct sub).perm_of_length_le (by simpa using enough)
  exact perm.mem_iff.2 (List.mem_range.2 lt)

theorem Meets.entered {id : Id} {children : List (ThresholdTree Id Leaf)} {threshold : ℕ}
    (meets : Meets ok path (.node id children threshold)) : path id ≠ none := by
  cases meets with
  | node entry => simp [entry]

theorem Meets.child {id : Id} {children : List (ThresholdTree Id Leaf)} {threshold i : ℕ}
    {chosen : List ℕ} {c : ThresholdTree Id Leaf}
    (meets : Meets ok path (.node id children threshold)) (entry : path id = some chosen)
    (mem : i ∈ chosen) (at_i : children[i]? = some c) : Meets ok path c := by
  cases meets with
  | node entry' _ _ _ below =>
    obtain rfl := Option.some.inj (entry'.symm.trans entry)
    exact below i mem c at_i

/-- A part of the tree that is met, and whose selected leaves are selected in the tree. -/
structure Under (ok : Leaf → Prop) (path : Choice Id) (t part : ThresholdTree Id Leaf) : Prop where
  meets : Meets ok path part
  selects : ∀ a, Selects path part a → Selects path t a

theorem Meets.under (meets : Meets ok path t) : Under ok path t t := ⟨meets, fun _ => id⟩

theorem Under.trans {part part' : ThresholdTree Id Leaf} (first : Under ok path t part)
    (second : Under ok path part part') : Under ok path t part' :=
  ⟨second.meets, fun a selects => first.selects a (second.selects a selects)⟩

/-- At a node that asks for all of its children, all of them are met. -/
theorem Meets.all {id : Id} {children : List (ThresholdTree Id Leaf)}
    (meets : Meets ok path (.node id children children.length)) :
    ∀ c ∈ children, Under ok path (.node id children children.length) c := by
  cases meets with
  | node entry distinct inRange enough below =>
    intro c mem
    obtain ⟨i, lt, rfl⟩ := List.mem_iff_getElem.1 mem
    have chosen := mem_of_full distinct inRange enough lt
    have child := List.getElem?_eq_getElem lt
    exact ⟨below i chosen _ child, fun a selects => .node entry chosen child selects⟩

/-- At a node that asks for one of its children, one of them is met. -/
theorem Meets.some {id : Id} {children : List (ThresholdTree Id Leaf)}
    (meets : Meets ok path (.node id children 1)) :
    ∃ c ∈ children, Under ok path (.node id children 1) c := by
  cases meets with
  | node entry _ inRange enough below =>
    obtain ⟨i, mem⟩ := List.exists_mem_of_length_pos (Nat.lt_of_lt_of_le Nat.one_pos enough)
    have lt := inRange i mem
    have child := List.getElem?_eq_getElem lt
    exact ⟨_, List.getElem_mem lt, below i mem _ child,
      fun a selects => .node entry mem child selects⟩

end ThresholdTree

end GhostKey.Foundation

import GhostKey.Foundation.Thresholds
import GhostKey.Splice

/-!
# Policy Paths

`ghostkey-core/psbt.rs` tells BDK which branch of a descriptor to spend by walking the
descriptor's policy tree and writing down, for the `Thresh` nodes it passes, the indices
of the children to satisfy. There are three walks: for the owner, for the heir's timelock
branch, and for the heir with a guardian. The owner's and the guardian's differ only in
the leaves they take; the timelock walk looks for the leaf `older(N)`, and enters nothing
where a chosen child does not contain it.

Main results:
- `walk_sound`, `walk_complete`: the walk that takes usable leaves finds a path if there
  is one.
- `resolves_iff`: when a resolver's path is the one its branch needs.
-/

namespace GhostKey

open Foundation ThresholdTree

/-! ## §1 Policies -/

/-- The leaves of `descriptor::policy::SatisfiableItem`. A signature names the party, or
nobody for the internal key. -/
inductive SatisfiableItem where
  | schnorrSignature (key : Option Party)
  | ecdsaSignature (key : Option Party)
  | multisig
  | sha256Preimage
  | hash256Preimage
  | ripemd160Preimage
  | hash160Preimage
  | absoluteTimelock (height : Nat)
  | relativeTimelock (blocks : Nat)
  deriving DecidableEq

/-- `descriptor::policy::Condition`. -/
structure Condition where
  csv : Option Nat
  timelock : Option Nat
  deriving DecidableEq

/-- `descriptor::policy::Satisfaction`; of a leaf it is complete or none. -/
inductive Satisfaction where
  | complete (condition : Condition)
  | partiallyComplete
  | partially
  | none
  deriving DecidableEq

/-- A leaf of a policy, with what the wallet contributes to it. -/
structure PolicyLeaf where
  item : SatisfiableItem
  contribution : Satisfaction
  deriving DecidableEq

abbrev PolicyId := Text

/-- `descriptor::policy::Policy`. -/
abbrev Policy := ThresholdTree PolicyId PolicyLeaf

/-- `BTreeMap<String, Vec<usize>>`. -/
abbrev PolicyPath := Choice PolicyId

/-! ## §2 The walks -/

def emptyPath : PolicyPath := fun _ => none

def PolicyPath.insert (out : PolicyPath) (id : PolicyId) (chosen : List Nat) : PolicyPath :=
  Function.update out id (some chosen)

section Walk

variable (usable : PolicyLeaf → Bool)

mutual

/-- The walk of `resolve_owner_policy_path` and of `resolve_guardian_policy_path`: at a
leaf, whether it is usable; at a conjunction, all children; at a disjunction, the first
child that resolves, tried on a scratch map. -/
def walk : Policy → PolicyPath → Bool × PolicyPath
  | .leaf a, out => (usable a, out)
  | .node id items threshold, out =>
    if threshold > 1 then
      match walkAll items out with
      | (true, out) => (true, PolicyPath.insert out id (List.range items.length))
      | (false, out) => (false, out)
    else walkFirst id items 0 out

/-- The loop of a conjunction; it stops at the first child that does not resolve. -/
def walkAll : List Policy → PolicyPath → Bool × PolicyPath
  | [], out => (true, out)
  | child :: items, out =>
    match walk child out with
    | (true, out) => walkAll items out
    | (false, out) => (false, out)

/-- The loop of a disjunction, from its `i`th child on. -/
def walkFirst (id : PolicyId) : List Policy → Nat → PolicyPath → Bool × PolicyPath
  | [], _, out => (false, out)
  | child :: items, i, out =>
    match walk child out with
    | (true, scratch) => (true, PolicyPath.insert scratch id [i])
    | (false, _) => walkFirst id items (i + 1) out

end

end Walk

/-- `is_complete_no_csv`, on a signature; the other leaves are not in the owner's path. -/
def ownerUsable (a : PolicyLeaf) : Bool :=
  match a.item with
  | .schnorrSignature _ | .ecdsaSignature _ | .multisig =>
      match a.contribution with
      | .complete condition => condition.csv.isNone
      | _ => false
  | _ => false

/-- `is_satisfiable`, on a signature; a timelock needs no key, and a hash preimage is not
in the guardian's path. -/
def guardianUsable (a : PolicyLeaf) : Bool :=
  match a.item with
  | .relativeTimelock _ | .absoluteTimelock _ => true
  | .schnorrSignature _ | .ecdsaSignature _ | .multisig =>
      match a.contribution with
      | .complete _ => true
      | _ => false
  | _ => false

def isRelativeTimelock (a : PolicyLeaf) : Bool :=
  match a.item with
  | .relativeTimelock _ => true
  | _ => false

mutual

/-- `contains_relative_timelock_node`. -/
def containsRelativeTimelock : Policy → Bool
  | .leaf a => isRelativeTimelock a
  | .node _ items _ => anyRelativeTimelock items

def anyRelativeTimelock : List Policy → Bool
  | [] => false
  | child :: items => containsRelativeTimelock child || anyRelativeTimelock items

end

/-- The indices of the children that contain a relative timelock. -/
def timelockChildren (items : List Policy) : List Nat :=
  (List.range items.length).filter fun i => (items[i]?.map containsRelativeTimelock).getD false

mutual

/-- The walk of `resolve_timelock_policy_path`. -/
def timelockWalk : Policy → PolicyPath → Bool × PolicyPath
  | .leaf a, out => (isRelativeTimelock a, out)
  | .node id items threshold, out =>
    if (timelockChildren items).isEmpty then (false, out)
    else
      let chosen :=
        if threshold > 1 then List.range items.length else timelockChildren items
      -- what the recursive calls return is ignored
      (true, PolicyPath.insert (timelockWalkChosen (threshold > 1) items out) id chosen)

/-- The recursive calls into the chosen children: all of them, or those that contain a
relative timelock. -/
def timelockWalkChosen (all : Bool) : List Policy → PolicyPath → PolicyPath
  | [], out => out
  | child :: items, out =>
    timelockWalkChosen all items
      (if all || containsRelativeTimelock child then (timelockWalk child out).2 else out)

end

/-- `ghostkey_core::Error`, as the resolvers raise it. -/
inductive PathError where
  | invalidDescriptor (reason : Text)
  | psbt (reason : String)
  deriving DecidableEq

/-- What the resolvers share: `wallet.policies(keychain)`, and the walk from an empty map. -/
def resolvePolicyPath (walk : Policy → PolicyPath → Bool × PolicyPath) (unresolved : String)
    (policies : Except Text (Option Policy)) : Except PathError PolicyPath :=
  match policies with
  | .error e => .error (.invalidDescriptor e)
  | .ok none => .error (.invalidDescriptor "wallet has no policy".toList)
  | .ok (some policy) =>
    match walk policy emptyPath with
    | (true, out) => .ok out
    | (false, _) => .error (.psbt unresolved)

def resolveGuardianPolicyPath : Except Text (Option Policy) → Except PathError PolicyPath :=
  resolvePolicyPath (walk guardianUsable)
    "could not resolve the guardian claim path (needs the heir + one guardian)"

def resolveTimelockPolicyPath : Except Text (Option Policy) → Except PathError PolicyPath :=
  resolvePolicyPath timelockWalk "could not find a script-path branch with a relative timelock"

def resolveOwnerPolicyPath : Except Text (Option Policy) → Except PathError PolicyPath :=
  resolvePolicyPath (walk ownerUsable)
    "no owner branch (signature-only, no CSV) is satisfiable in this policy"

/-! ## §3 What the walk finds -/

section WalkFacts

variable {usable : PolicyLeaf → Bool}

theorem PolicyPath.insert_self (out : PolicyPath) (id : PolicyId) (chosen : List Nat) :
    PolicyPath.insert out id chosen id = some chosen := by
  simp [PolicyPath.insert]

theorem PolicyPath.insert_of_ne (out : PolicyPath) {id id' : PolicyId} (ne : id' ≠ id)
    (chosen : List Nat) : PolicyPath.insert out id chosen id' = out id' := by
  simp [PolicyPath.insert, ne]

mutual

/-- A walk enters only the nodes of its tree. -/
theorem walk_frame : ∀ (t : Policy) (out : PolicyPath) (id : PolicyId), id ∉ t.ids →
    (walk usable t out).2 id = out id
  | .leaf _, _, _, _ => rfl
  | .node root items threshold, out, id, outside => by
    simp only [ids, List.mem_cons, not_or] at outside
    rw [walk]
    split_ifs
    · have here := walkAll_frame items out id outside.2
      cases walked : walkAll usable items out with
      | mk found out' =>
        rw [walked] at here
        cases found with
        | true => simpa [PolicyPath.insert_of_ne _ outside.1] using here
        | false => exact here
    · exact walkFirst_frame root items 0 out id outside.1 outside.2

theorem walkAll_frame : ∀ (items : List Policy) (out : PolicyPath) (id : PolicyId),
    id ∉ idsAll items → (walkAll usable items out).2 id = out id
  | [], _, _, _ => rfl
  | child :: items, out, id, outside => by
    simp only [idsAll, List.mem_append, not_or] at outside
    have here := walk_frame child out id outside.1
    rw [walkAll]
    cases walked : walk usable child out with
    | mk found out' =>
      rw [walked] at here
      cases found with
      | true => exact (walkAll_frame items out' id outside.2).trans here
      | false => exact here

theorem walkFirst_frame (root : PolicyId) : ∀ (items : List Policy) (i : Nat) (out : PolicyPath)
    (id : PolicyId), id ≠ root → id ∉ idsAll items →
      (walkFirst usable root items i out).2 id = out id
  | [], _, _, _, _, _ => rfl
  | child :: items, i, out, id, ne, outside => by
    simp only [idsAll, List.mem_append, not_or] at outside
    have here := walk_frame child out id outside.1
    rw [walkFirst]
    cases walked : walk usable child out with
    | mk found out' =>
      rw [walked] at here
      cases found with
      | true => simpa [PolicyPath.insert_of_ne _ ne] using here
      | false => exact walkFirst_frame root items (i + 1) out id ne outside.2

end

mutual

/-- **What the walk returns meets its tree with usable leaves.** -/
theorem walk_sound : ∀ (t : Policy), t.AndOr → t.ids.Nodup → ∀ (out out' : PolicyPath),
    walk usable t out = (true, out') → Meets (fun a => usable a = true) out' t
  | .leaf a, _, _, out, out', walked => by
    simp only [walk, Prod.mk.injEq] at walked
    exact .leaf walked.1
  | .node root items threshold, andOr, nodup, out, out', walked => by
    rw [AndOr] at andOr
    rw [ids, List.nodup_cons] at nodup
    rw [walk] at walked
    split_ifs at walked with conjunction
    · -- a conjunction asks for all of its children
      have full : threshold = items.length := by
        rcases andOr.1 with one | ⟨_, full⟩
        · omega
        · exact full
      cases walkedAll : walkAll usable items out with
      | mk found mid =>
        rw [walkedAll] at walked
        cases found with
        | false => cases walked
        | true =>
          obtain rfl : PolicyPath.insert mid root (List.range items.length) = out' := by
            simpa using walked
          have below := walkAll_sound items andOr.2 nodup.2 out mid walkedAll
          subst full
          refine .of_all (PolicyPath.insert_self mid root _) fun c inside => ?_
          refine (below c inside).congr fun id mem => PolicyPath.insert_of_ne _ ?_ _
          rintro rfl
          exact nodup.1 (mem_idsAll inside mem)
    -- otherwise one child is enough
    · have one : threshold = 1 := by omega
      obtain ⟨i, c, child, entry, below⟩ :=
        walkFirst_sound root items andOr.2 nodup 0 out out' walked
      rw [Nat.zero_add] at entry
      subst one
      exact .of_one entry child below

theorem walkAll_sound : ∀ (items : List Policy), AndOrAll items → (idsAll items).Nodup →
    ∀ (out out' : PolicyPath), walkAll usable items out = (true, out') →
      ∀ c ∈ items, Meets (fun a => usable a = true) out' c
  | [], _, _, _, _, _ => by simp
  | child :: items, andOr, nodup, out, out', walked => by
    rw [AndOrAll] at andOr
    rw [idsAll, List.nodup_append] at nodup
    rw [walkAll] at walked
    cases walkedChild : walk usable child out with
    | mk found mid =>
      rw [walkedChild] at walked
      cases found with
      | false => cases walked
      | true =>
        intro c mem
        rcases List.mem_cons.1 mem with eq | later
        · -- the later children leave its entries as they are
          rw [eq]
          have met := walk_sound child andOr.1 nodup.1 out mid walkedChild
          refine met.congr fun id inside => ?_
          have kept : (walkAll usable items mid).2 id = mid id :=
            walkAll_frame items mid id fun other => nodup.2.2 id inside id other rfl
          rw [show walkAll usable items mid = (true, out') from walked] at kept
          exact kept
        · exact walkAll_sound items andOr.2 nodup.2.1 mid out' walked c later

theorem walkFirst_sound (root : PolicyId) : ∀ (items : List Policy), AndOrAll items →
    root ∉ idsAll items ∧ (idsAll items).Nodup → ∀ (i : Nat) (out out' : PolicyPath),
      walkFirst usable root items i out = (true, out') →
        ∃ j c, items[j]? = some c ∧ out' root = some [i + j] ∧
          Meets (fun a => usable a = true) out' c
  | [], _, _, _, _, _, walked => by cases walked
  | child :: items, andOr, nodup, i, out, out', walked => by
    rw [AndOrAll] at andOr
    rw [idsAll, List.mem_append, not_or, List.nodup_append] at nodup
    rw [walkFirst] at walked
    cases walkedChild : walk usable child out with
    | mk found mid =>
      rw [walkedChild] at walked
      cases found with
      | true =>
        obtain rfl : PolicyPath.insert mid root [i] = out' := by simpa using walked
        have met := walk_sound child andOr.1 nodup.2.1 out mid walkedChild
        refine ⟨0, child, rfl, PolicyPath.insert_self mid root _, met.congr fun id inside => ?_⟩
        -- the entry of the parent is none of the child's
        have ne : id ≠ root := by
          rintro rfl
          exact nodup.1.1 inside
        exact PolicyPath.insert_of_ne _ ne _
      | false =>
        obtain ⟨j, c, at_j, entry, met⟩ := walkFirst_sound root items andOr.2
          ⟨nodup.1.2, nodup.2.2.1⟩ (i + 1) out out' walked
        refine ⟨j + 1, c, by simpa using at_j, ?_, met⟩
        rw [entry]
        congr 2
        omega

end

mutual

/-- **If some path meets the tree with usable leaves, the walk finds one.** -/
theorem walk_complete (path : PolicyPath) : ∀ (t : Policy), t.AndOr →
    Meets (fun a => usable a = true) path t → ∀ out, (walk usable t out).1 = true
  | .leaf a, _, meets, out => by
    cases meets with
    | leaf fine => exact fine
  | .node root items threshold, andOr, meets, out => by
    rw [AndOr] at andOr
    rw [walk]
    split_ifs with conjunction
    · have full : threshold = items.length := by
        rcases andOr.1 with one | ⟨_, full⟩
        · omega
        · exact full
      subst full
      have all := walkAll_complete path items andOr.2 (fun c mem => (meets.all c mem).meets) out
      cases walkedAll : walkAll usable items out with
      | mk found mid =>
        rw [walkedAll] at all
        cases found with
        | true => rfl
        | false => cases all
    · obtain rfl : threshold = 1 := by
        rcases andOr.1 with one | ⟨more, _⟩
        · exact one
        · omega
      obtain ⟨c, mem, under⟩ := meets.some
      exact walkFirst_complete path root items andOr.2 mem under.meets 0 out

theorem walkAll_complete (path : PolicyPath) : ∀ (items : List Policy), AndOrAll items →
    (∀ c ∈ items, Meets (fun a => usable a = true) path c) → ∀ out,
      (walkAll usable items out).1 = true
  | [], _, _, _ => rfl
  | child :: items, andOr, meets, out => by
    rw [AndOrAll] at andOr
    have here := walk_complete path child andOr.1 (meets child (by simp)) out
    rw [walkAll]
    cases walked : walk usable child out with
    | mk found mid =>
      rw [walked] at here
      cases found with
      | true =>
        exact walkAll_complete path items andOr.2
          (fun c mem => meets c (by simp [mem])) mid
      | false => cases here

theorem walkFirst_complete (path : PolicyPath) (root : PolicyId) : ∀ (items : List Policy),
    AndOrAll items → ∀ {c : Policy}, c ∈ items → Meets (fun a => usable a = true) path c →
      ∀ (i : Nat) (out : PolicyPath), (walkFirst usable root items i out).1 = true
  | [], _, _, mem, _, _, _ => by cases mem
  | child :: items, andOr, c, mem, met, i, out => by
    rw [AndOrAll] at andOr
    rw [walkFirst]
    cases walked : walk usable child out with
    | mk found mid =>
      cases found with
      | true => rfl
      | false =>
        rcases List.mem_cons.1 mem with eq | later
        · have here := walk_complete path child andOr.1 (eq ▸ met) out
          rw [walked] at here
          cases here
        · exact walkFirst_complete path root items andOr.2 later met (i + 1) out

end

end WalkFacts

/-! ## §4 The policy of a descriptor -/

/-- The miniscript fragments the builders use, over the parties' keys. -/
inductive Miniscript where
  | pk (who : Party)
  | older (blocks : Nat)
  | after (height : Nat)
  | andV (a b : Miniscript)
  | orD (a b : Miniscript)
  | orB (a b : Miniscript)
  | verify (m : Miniscript)
  | swap (m : Miniscript)
  deriving DecidableEq

/-- A fragment's name and its arguments. -/
def call (name : String) (args : Text) : Text := name.toList ++ '(' :: args ++ [')']

/-- A miniscript's text around the parties' key fragments. -/
def Miniscript.text (fragment : Party → Text) : Miniscript → Text
  | .pk who => call "pk" (fragment who)
  | .older blocks => call "older" (decimal blocks)
  | .after height => call "after" (decimal height)
  | .andV a b => call "and_v" (a.text fragment ++ ',' :: b.text fragment)
  | .orD a b => call "or_d" (a.text fragment ++ ',' :: b.text fragment)
  | .orB a b => call "or_b" (a.text fragment ++ ',' :: b.text fragment)
  | .verify m => 'v' :: ':' :: m.text fragment
  | .swap m => 's' :: ':' :: m.text fragment

/-- The guardians' keys, behind the absolute lock if there is one. -/
def guardianGate : Option Nat → Miniscript
  | none => .orB (.pk .guardian1) (.swap (.pk .guardian2))
  | some h => .andV (.verify (.after h)) (.orB (.pk .guardian1) (.swap (.pk .guardian2)))

/-- The leaf script of a vault. -/
def ClaimBranch.leaf (branch : ClaimBranch) : Miniscript :=
  match branch.kind with
  | .standard =>
      .orD (.pk .owner) (.andV (.verify (.pk .heir)) (.older branch.timelockBlocks))
  | .guardian =>
      .orD (.pk .owner) (.andV (.verify (.pk .heir))
        (.andV (.verify (.older branch.timelockBlocks)) (guardianGate branch.unlockHeight)))

/-- The builders write the leaf script. -/
theorem VaultKeys.render_eq_text (v : VaultKeys) (key : Party → Text) (chain : Chain) :
    v.render key chain = .ok (call "tr" (unspendableNumsXonly ++ ',' :: v.leaf.text fun who =>
      fragmentAround (v.fingerprint who) (vaultAccountPath v.network) (key who) chain)) := by
  cases kind : v.kind with
  | standard =>
    have valid : validateLocks v.timelockBlocks none = .ok () := v.standard kind ▸ v.valid
    unfold render ClaimBranch.leaf
    simp only [kind, buildDescriptorString, DescriptorParams.validate, valid, ok_bind]
    simp [Miniscript.text, call]
  | guardian =>
    cases unlock : v.unlockHeight with
    | none =>
      have valid : validateLocks v.timelockBlocks none = .ok () := unlock ▸ v.valid
      unfold render ClaimBranch.leaf
      simp only [kind, unlock, buildGuardianDescriptorString, GuardianDescriptorParams.validate,
        valid, ok_bind, guardianGate]
      simp [Miniscript.text, call]
    | some h =>
      have valid : validateLocks v.timelockBlocks (some h) = .ok () := unlock ▸ v.valid
      unfold render ClaimBranch.leaf
      simp only [kind, unlock, buildGuardianDescriptorString, GuardianDescriptorParams.validate,
        valid, ok_bind, guardianGate]
      simp [Miniscript.text, call]

/-- A signature leaf: complete if the wallet holds a signer for the key. -/
def signatureLeaf (key : Option Party) (held : Bool) : PolicyLeaf :=
  ⟨.schnorrSignature key, if held then .complete ⟨none, none⟩ else .none⟩

def olderLeaf (blocks : Nat) : PolicyLeaf :=
  ⟨.relativeTimelock blocks, .complete ⟨some blocks, none⟩⟩

def afterLeaf (height : Nat) : PolicyLeaf :=
  ⟨.absoluteTimelock height, .complete ⟨none, some height⟩⟩

/-- BDK's `extract_policy`, for a leaf script and for a `tr` descriptor with one leaf. A
conjunction is a `Thresh` of two, a disjunction a `Thresh` of one, and so is a `tr`, over
its internal key and its leaf. The wallet holds signers for some of the parties' keys. The
ids of the `Thresh` nodes are checksums of what is below them. -/
structure PolicyLib where
  extract : (Party → Bool) → Miniscript → Policy
  extractTr : (Party → Bool) → Miniscript → Policy
  pk : ∀ held who, extract held (.pk who) = .leaf (signatureLeaf (some who) (held who))
  older : ∀ held blocks, extract held (.older blocks) = .leaf (olderLeaf blocks)
  after : ∀ held height, extract held (.after height) = .leaf (afterLeaf height)
  andV : ∀ held a b, ∃ id, extract held (.andV a b) = .node id [extract held a, extract held b] 2
  orD : ∀ held a b, ∃ id, extract held (.orD a b) = .node id [extract held a, extract held b] 1
  orB : ∀ held a b, ∃ id, extract held (.orB a b) = .node id [extract held a, extract held b] 1
  verify : ∀ held m, extract held (.verify m) = extract held m
  swap : ∀ held m, extract held (.swap m) = extract held m
  tr : ∀ held m, ∃ id,
    extractTr held m = .node id [.leaf (signatureLeaf none false), extract held m] 1
  distinct : ∀ held (branch : ClaimBranch), (extractTr held branch.leaf).ids.Nodup

namespace PolicyLib

variable (lib : PolicyLib) (held : Party → Bool)

theorem extract_andOr (m : Miniscript) : (lib.extract held m).AndOr := by
  induction m with
  | pk who => rw [lib.pk]; trivial
  | older blocks => rw [lib.older]; trivial
  | after height => rw [lib.after]; trivial
  | andV a b iha ihb =>
    obtain ⟨id, eq⟩ := lib.andV held a b
    simp [eq, AndOr, AndOrAll, iha, ihb]
  | orD a b iha ihb =>
    obtain ⟨id, eq⟩ := lib.orD held a b
    simp [eq, AndOr, AndOrAll, iha, ihb]
  | orB a b iha ihb =>
    obtain ⟨id, eq⟩ := lib.orB held a b
    simp [eq, AndOr, AndOrAll, iha, ihb]
  | verify m ih => rwa [lib.verify]
  | swap m ih => rwa [lib.swap]

theorem extractTr_andOr (m : Miniscript) : (lib.extractTr held m).AndOr := by
  obtain ⟨id, eq⟩ := lib.tr held m
  simp [eq, AndOr, AndOrAll, lib.extract_andOr held m]

/-- The leaves a policy can have. -/
def Leaf (a : PolicyLeaf) : Prop :=
  (∃ key isHeld, a = signatureLeaf key isHeld) ∨ (∃ blocks, a = olderLeaf blocks) ∨
    ∃ height, a = afterLeaf height

variable {lib held} {path : PolicyPath} {a : PolicyLeaf}

theorem leaf_of_pair {id : PolicyId} {l r : Policy} {k : Nat}
    (left : Selects path l a → Leaf a) (right : Selects path r a → Leaf a)
    (selects : Selects path (.node id [l, r] k) a) : Leaf a := by
  cases selects with
  | @node _ _ _ i _ _ _ _ mem child below =>
    match i, child with
    | 0, child =>
      obtain rfl := Option.some.inj child
      exact left below
    | 1, child =>
      obtain rfl := Option.some.inj child
      exact right below

theorem leaf_of_extract {m : Miniscript} (selects : Selects path (lib.extract held m) a) :
    Leaf a := by
  induction m with
  | pk who =>
    rw [lib.pk] at selects
    cases selects
    exact .inl ⟨_, _, rfl⟩
  | older blocks =>
    rw [lib.older] at selects
    cases selects
    exact .inr (.inl ⟨_, rfl⟩)
  | after height =>
    rw [lib.after] at selects
    cases selects
    exact .inr (.inr ⟨_, rfl⟩)
  | andV l r ihl ihr =>
    obtain ⟨id, eq⟩ := lib.andV held l r
    exact leaf_of_pair ihl ihr (eq ▸ selects)
  | orD l r ihl ihr =>
    obtain ⟨id, eq⟩ := lib.orD held l r
    exact leaf_of_pair ihl ihr (eq ▸ selects)
  | orB l r ihl ihr =>
    obtain ⟨id, eq⟩ := lib.orB held l r
    exact leaf_of_pair ihl ihr (eq ▸ selects)
  | verify m ih => exact ih (lib.verify held m ▸ selects)
  | swap m ih => exact ih (lib.swap held m ▸ selects)

theorem leaf_of_extractTr {m : Miniscript} (selects : Selects path (lib.extractTr held m) a) :
    Leaf a := by
  obtain ⟨id, eq⟩ := lib.tr held m
  refine leaf_of_pair (fun internal => ?_) leaf_of_extract (eq ▸ selects)
  cases internal
  exact .inl ⟨_, _, rfl⟩

end PolicyLib

/-! ## §5 The paths of the branches -/

def PolicyLeaf.IsTimelock (a : PolicyLeaf) : Prop :=
  match a.item with
  | .relativeTimelock _ | .absoluteTimelock _ => True
  | _ => False

/-- The wallet can satisfy the leaf: a signature it completes, or a timelock. -/
def PolicyLeaf.Held (a : PolicyLeaf) : Prop :=
  a.IsTimelock ∨ ∃ condition, a.contribution = .complete condition

inductive Resolver where
  | owner
  | heir
  | guardian
  deriving DecidableEq

def Resolver.resolve : Resolver → Except Text (Option Policy) → Except PathError PolicyPath
  | .owner => resolveOwnerPolicyPath
  | .heir => resolveTimelockPolicyPath
  | .guardian => resolveGuardianPolicyPath

/-- The leaves a resolver's path must or must not select. -/
def Resolver.Aims (r : Resolver) (branch : ClaimBranch) (policy : Policy) (path : PolicyPath) :
    Prop :=
  match r with
  | .owner => ∀ a, Selects path policy a → ¬ a.IsTimelock
  | .heir | .guardian =>
      (∃ a, Selects path policy a ∧ a.item = .relativeTimelock branch.timelockBlocks) ∧
        ∀ h ∈ branch.unlockHeight, ∃ a, Selects path policy a ∧ a.item = .absoluteTimelock h

/-- A path with an entry, large enough, for every `Thresh` it reaches, to the leaves of the
resolver's branch. -/
structure PathFor (r : Resolver) (branch : ClaimBranch) (policy : Policy) (path : PolicyPath) :
    Prop where
  fills : Fills path policy
  aims : r.Aims branch policy path

/-- What the resolver returns is a path for its branch; if it returns an error, there is
none for the loaded keys. -/
def Resolves (lib : PolicyLib) (branch : ClaimBranch) (held : Party → Bool) (r : Resolver) :
    Prop :=
  let policy := lib.extractTr held branch.leaf
  match r.resolve (.ok (some policy)) with
  | .ok path => PathFor r branch policy path
  | .error _ => ¬ ∃ path, PathFor r branch policy path ∧ ∀ a, Selects path policy a → a.Held

section Branches

variable {lib : PolicyLib} {held : Party → Bool} {branch : ClaimBranch} {path : PolicyPath}

theorem not_held (key : Option Party) : ¬ (signatureLeaf key false).Held := by
  rintro (timelock | ⟨condition, complete⟩)
  · exact timelock
  · cases complete

theorem resolvePolicyPath_some {walk : Policy → PolicyPath → Bool × PolicyPath}
    {unresolved : String} {policy : Policy} :
    resolvePolicyPath walk unresolved (.ok (some policy)) =
      if (walk policy emptyPath).1 then .ok (walk policy emptyPath).2
      else .error (.psbt unresolved) := by
  rw [resolvePolicyPath]
  cases walk policy emptyPath with
  | mk found out => cases found <;> rfl

/-- A walk over usable leaves resolves a branch, if usable leaves make a path for it, and
the leaves of a path for it that are held are usable. -/
theorem resolves_of_walk {usable : PolicyLeaf → Bool} {unresolved : String} {r : Resolver}
    (is : r.resolve = resolvePolicyPath (walk usable) unresolved)
    (aims : ∀ path, Meets (fun a => usable a = true) path (lib.extractTr held branch.leaf) →
      r.Aims branch (lib.extractTr held branch.leaf) path)
    (usableHeld : ∀ path a, r.Aims branch (lib.extractTr held branch.leaf) path →
      Selects path (lib.extractTr held branch.leaf) a → a.Held → usable a = true) :
    Resolves lib branch held r := by
  simp only [Resolves, is, resolvePolicyPath_some]
  have andOr := lib.extractTr_andOr held branch.leaf
  by_cases found : (walk usable (lib.extractTr held branch.leaf) emptyPath).1 = true
  · have meets := walk_sound _ andOr (lib.distinct held branch) emptyPath _
      (Prod.ext found rfl)
    simp only [found, if_true]
    exact ⟨(meets_iff.1 meets).1, aims _ meets⟩
  · simp only [found]
    rintro ⟨path, isPath, holds⟩
    apply found
    refine walk_complete path _ andOr (meets_iff.2 ⟨isPath.fills, fun a selects => ?_⟩) emptyPath
    exact usableHeld path a isPath.aims selects (holds a selects)

/-- The owner's path is found whenever the owner's key is there. -/
theorem resolves_owner (lib : PolicyLib) (branch : ClaimBranch) (held : Party → Bool) :
    Resolves lib branch held .owner := by
  apply resolves_of_walk rfl
  · intro path meets a selects timelock
    have usable := (meets_iff.1 meets).2 a selects
    unfold ownerUsable at usable
    unfold PolicyLeaf.IsTimelock at timelock
    cases item : a.item <;> simp [item] at usable timelock
  · intro path a aims selects holds
    rcases PolicyLib.leaf_of_extractTr selects with ⟨key, isHeld, rfl⟩ | ⟨_, rfl⟩ | ⟨_, rfl⟩
    · cases isHeld with
      | true => rfl
      | false => exact absurd holds (not_held key)
    · exact absurd trivial (aims _ selects)
    · exact absurd trivial (aims _ selects)

/-- Both sides of a conjunction are met. -/
theorem under_and {ok : PolicyLeaf → Prop} {l r : Miniscript}
    (meets : Meets ok path (lib.extract held (.andV l r))) :
    Under ok path (lib.extract held (.andV l r)) (lib.extract held l) ∧
      Under ok path (lib.extract held (.andV l r)) (lib.extract held r) := by
  obtain ⟨id, eq⟩ := lib.andV held l r
  rw [eq] at meets ⊢
  exact ⟨meets.all _ (by simp), meets.all _ (by simp)⟩

/-- A disjunction whose first side is not met is met by its second. -/
theorem under_or {ok : PolicyLeaf → Prop} {l r : Miniscript}
    (meets : Meets ok path (lib.extract held (.orD l r)))
    (not_left : ¬ Meets ok path (lib.extract held l)) :
    Under ok path (lib.extract held (.orD l r)) (lib.extract held r) := by
  obtain ⟨id, eq⟩ := lib.orD held l r
  rw [eq] at meets ⊢
  obtain ⟨c, mem, under⟩ := meets.some
  simp only [List.mem_cons, List.not_mem_nil, or_false] at mem
  rcases mem with rfl | rfl
  · exact absurd under.meets not_left
  · exact under

/-- The internal key has no signer, so a descriptor is met by its leaf script. -/
theorem under_tr {ok : PolicyLeaf → Prop} {m : Miniscript}
    (meets : Meets ok path (lib.extractTr held m)) (unusable : ¬ ok (signatureLeaf none false)) :
    Under ok path (lib.extractTr held m) (lib.extract held m) := by
  obtain ⟨id, eq⟩ := lib.tr held m
  rw [eq] at meets ⊢
  obtain ⟨c, mem, under⟩ := meets.some
  simp only [List.mem_cons, List.not_mem_nil, or_false] at mem
  rcases mem with rfl | rfl
  · cases under.meets with
    | leaf fine => exact absurd fine unusable
  · exact under

theorem selects_older {ok : PolicyLeaf → Prop} {t : Policy} {blocks : Nat}
    (under : Under ok path t (lib.extract held (.older blocks))) :
    ∃ a, Selects path t a ∧ a.item = .relativeTimelock blocks :=
  ⟨olderLeaf blocks, under.selects _ (lib.older held blocks ▸ .leaf _), rfl⟩

theorem selects_after {ok : PolicyLeaf → Prop} {t : Policy} {height : Nat}
    (under : Under ok path t (lib.extract held (.after height))) :
    ∃ a, Selects path t a ∧ a.item = .absoluteTimelock height :=
  ⟨afterLeaf height, under.selects _ (lib.after held height ▸ .leaf _), rfl⟩

/-- A path that meets the descriptor without the owner's key goes through the claim
branch, and so through its locks. -/
theorem aims_of_meets {ok : PolicyLeaf → Prop} (internal : ¬ ok (signatureLeaf none false))
    (owner : ¬ ok (signatureLeaf (some .owner) (held .owner)))
    (meets : Meets ok path (lib.extractTr held branch.leaf)) :
    Resolver.guardian.Aims branch (lib.extractTr held branch.leaf) path := by
  have script := under_tr meets internal
  have not_owner : ¬ Meets ok path (lib.extract held (.pk .owner)) := by
    intro met
    rw [lib.pk] at met
    cases met with
    | leaf fine => exact owner fine
  -- down the tree: not the internal key, not the owner's arm
  cases kind : branch.kind with
  | standard =>
    simp only [ClaimBranch.leaf, kind] at script ⊢
    have claim := script.trans (under_or script.meets not_owner)
    have lock := claim.trans (under_and claim.meets).2
    exact ⟨selects_older lock, by simp [branch.standard kind]⟩
  | guardian =>
    simp only [ClaimBranch.leaf, kind] at script ⊢
    have claim := script.trans (under_or script.meets not_owner)
    have gated := claim.trans (under_and claim.meets).2
    have lock := gated.trans (under_and gated.meets).1
    have gate := gated.trans (under_and gated.meets).2
    refine ⟨selects_older (lib.verify held _ ▸ lock), fun h asks => ?_⟩
    rw [Option.mem_def.1 asks, guardianGate] at gate
    have unlock := gate.trans (under_and gate.meets).1
    rw [lib.verify] at unlock
    obtain ⟨a, selects, item⟩ := selects_after unlock
    rw [Option.mem_def.1 asks, guardianGate]
    exact ⟨a, selects, item⟩

/-- The guardian's path is the claim branch's unless the owner's key is loaded too. -/
theorem resolves_guardian (absent : held .owner = false) :
    Resolves lib branch held .guardian := by
  apply resolves_of_walk rfl
  · intro path meets
    exact aims_of_meets (by decide) (by rw [absent]; decide) meets
  · intro path a _ selects holds
    rcases PolicyLib.leaf_of_extractTr selects with ⟨key, isHeld, rfl⟩ | ⟨_, rfl⟩ | ⟨_, rfl⟩
    · cases isHeld with
      | true => rfl
      | false => exact absurd holds (not_held key)
    · rfl
    · rfl

/-- A descriptor's policy: the internal key beside the owner's key beside the claim. -/
theorem policy_eq (lib : PolicyLib) (held : Party → Bool) (claim : Miniscript) :
    ∃ root script, lib.extractTr held (.orD (.pk .owner) claim) =
      .node root [.leaf (signatureLeaf none false), .node script
        [.leaf (signatureLeaf (some .owner) (held .owner)), lib.extract held claim] 1] 1 := by
  obtain ⟨root, tr⟩ := lib.tr held (.orD (.pk .owner) claim)
  obtain ⟨script, orD⟩ := lib.orD held (.pk .owner) claim
  exact ⟨root, script, by rw [tr, orD, lib.pk]⟩

theorem leaf_eq (branch : ClaimBranch) : ∃ claim, branch.leaf = .orD (.pk .owner) claim := by
  unfold ClaimBranch.leaf
  cases branch.kind <;> exact ⟨_, rfl⟩

/-- With the owner's key loaded the guardian's walk takes the owner's arm. -/
theorem not_resolves_guardian (present : held .owner = true) :
    ¬ Resolves lib branch held .guardian := by
  obtain ⟨claim, leaf⟩ := leaf_eq branch
  obtain ⟨root, script, policy⟩ := policy_eq lib held claim
  have distinct := lib.distinct held branch
  rw [leaf, policy] at distinct
  simp only [ids, idsAll, List.nil_append, List.append_nil, List.nodup_cons, List.mem_cons,
    not_or] at distinct
  have walked : walk guardianUsable (lib.extractTr held branch.leaf) emptyPath =
      (true, PolicyPath.insert (PolicyPath.insert emptyPath script [0]) root [1]) := by
    rw [leaf, policy, present]
    rfl
  -- the walk has come to the owner's key, and no lock stands there
  intro resolves
  simp only [Resolves, Resolver.resolve, resolveGuardianPolicyPath, resolvePolicyPath_some, walked,
    if_true] at resolves
  obtain ⟨a, selects, item⟩ := resolves.aims.1
  rw [leaf, policy, present] at selects
  cases selects with
  | node entry mem child below =>
    rw [PolicyPath.insert_self] at entry
    cases entry
    obtain rfl := List.mem_singleton.1 mem
    obtain rfl := Option.some.inj child
    cases below with
    | node entry mem child below =>
      rw [PolicyPath.insert_of_ne _ (Ne.symm distinct.1.1), PolicyPath.insert_self] at entry
      cases entry
      obtain rfl := List.mem_singleton.1 mem
      obtain rfl := Option.some.inj child
      cases below
      cases item

theorem resolves_heir (standard : branch.kind = .standard) : Resolves lib branch held .heir := by
  have leaf : branch.leaf = .orD (.pk .owner)
      (.andV (.verify (.pk .heir)) (.older branch.timelockBlocks)) := by
    simp only [ClaimBranch.leaf, standard]
  obtain ⟨root, script, policy⟩ := policy_eq lib held
    (.andV (.verify (.pk .heir)) (.older branch.timelockBlocks))
  obtain ⟨both, claim⟩ := lib.andV held (.verify (.pk .heir)) (.older branch.timelockBlocks)
  rw [lib.verify, lib.pk, lib.older] at claim
  rw [claim] at policy
  have distinct := lib.distinct held branch
  rw [leaf, policy] at distinct
  simp only [ids, idsAll, List.nil_append, List.append_nil, List.nodup_cons, List.mem_cons,
    not_or] at distinct
  -- the walk ends in the script, at both of its conditions
  have walked : timelockWalk (lib.extractTr held branch.leaf) emptyPath =
      (true, PolicyPath.insert (PolicyPath.insert (PolicyPath.insert emptyPath both [0, 1])
        script [1]) root [1]) := by
    rw [leaf, policy]
    rfl
  -- the map sends each of the three nodes to its own choice
  have atRoot : PolicyPath.insert (PolicyPath.insert (PolicyPath.insert emptyPath both [0, 1])
      script [1]) root [1] root = some [1] := PolicyPath.insert_self ..
  have atScript : PolicyPath.insert (PolicyPath.insert (PolicyPath.insert emptyPath both [0, 1])
      script [1]) root [1] script = some [1] := by
    rw [PolicyPath.insert_of_ne _ (Ne.symm distinct.1.1), PolicyPath.insert_self]
  have atBoth : PolicyPath.insert (PolicyPath.insert (PolicyPath.insert emptyPath both [0, 1])
      script [1]) root [1] both = some [0, 1] := by
    rw [PolicyPath.insert_of_ne _ (Ne.symm distinct.1.2.1),
      PolicyPath.insert_of_ne _ (Ne.symm distinct.2.1.1), PolicyPath.insert_self]
  simp only [Resolves, Resolver.resolve, resolveTimelockPolicyPath, resolvePolicyPath_some, walked,
    if_true]
  rw [leaf, policy]
  constructor
  · apply Meets.of_one atRoot rfl
    apply Meets.of_one atScript rfl
    apply Meets.of_all atBoth
    intro c mem
    simp only [List.mem_cons, List.not_mem_nil, or_false] at mem
    rcases mem with rfl | rfl <;> exact .leaf trivial
  · refine ⟨⟨olderLeaf branch.timelockBlocks, ?_, rfl⟩, by simp [branch.standard standard]⟩
    apply Selects.node atRoot (List.mem_singleton.2 rfl) rfl
    apply Selects.node atScript (List.mem_singleton.2 rfl) rfl
    apply Selects.node atBoth (i := 1) (by simp) rfl
    exact .leaf _

/-- The gate of the guardians is a node without a relative timelock. -/
theorem gate_eq (lib : PolicyLib) (held : Party → Bool) (unlock : Option Nat) :
    ∃ gate items threshold, lib.extract held (guardianGate unlock) = .node gate items threshold ∧
      (timelockChildren items).isEmpty = true ∧ anyRelativeTimelock items = false := by
  cases unlock with
  | none =>
    obtain ⟨gate, orB⟩ := lib.orB held (.pk .guardian1) (.swap (.pk .guardian2))
    rw [lib.swap, lib.pk, lib.pk] at orB
    exact ⟨gate, _, _, orB, rfl, rfl⟩
  | some h =>
    obtain ⟨either, orB⟩ := lib.orB held (.pk .guardian1) (.swap (.pk .guardian2))
    obtain ⟨gate, andV⟩ := lib.andV held (.verify (.after h))
      (.orB (.pk .guardian1) (.swap (.pk .guardian2)))
    rw [lib.swap, lib.pk, lib.pk] at orB
    rw [lib.verify, lib.after, orB] at andV
    exact ⟨gate, _, _, andV, rfl, rfl⟩

/-- The timelock walk enters nothing for the guardians' gate, which its own choices reach. -/
theorem not_resolves_heir (guardian : branch.kind = .guardian) :
    ¬ Resolves lib branch held .heir := by
  have leaf : branch.leaf = .orD (.pk .owner) (.andV (.verify (.pk .heir))
      (.andV (.verify (.older branch.timelockBlocks)) (guardianGate branch.unlockHeight))) := by
    simp only [ClaimBranch.leaf, guardian]
  obtain ⟨root, script, policy⟩ := policy_eq lib held (.andV (.verify (.pk .heir))
    (.andV (.verify (.older branch.timelockBlocks)) (guardianGate branch.unlockHeight)))
  obtain ⟨both, claim⟩ := lib.andV held (.verify (.pk .heir))
    (.andV (.verify (.older branch.timelockBlocks)) (guardianGate branch.unlockHeight))
  obtain ⟨locked, lock⟩ := lib.andV held (.verify (.older branch.timelockBlocks))
    (guardianGate branch.unlockHeight)
  obtain ⟨gate, items, threshold, gateEq, none_below, lockless⟩ :=
    gate_eq lib held branch.unlockHeight
  rw [lib.verify, lib.pk, lock, lib.verify, lib.older, gateEq] at claim
  rw [claim] at policy
  have distinct := lib.distinct held branch
  rw [leaf, policy] at distinct
  simp only [ids, idsAll, List.nil_append, List.append_nil, List.nodup_cons, List.mem_cons,
    not_or] at distinct
  -- the gate is chosen with the lock, and the walk into it enters nothing
  have atLock : ∀ out, timelockWalk (.node locked
      [.leaf (olderLeaf branch.timelockBlocks), .node gate items threshold] 2) out =
        (true, PolicyPath.insert out locked [0, 1]) := by
    intro out
    have chosen : timelockChildren [.leaf (olderLeaf branch.timelockBlocks),
        .node gate items threshold] = [0] := by
      simp [timelockChildren, List.range_succ, lockless, containsRelativeTimelock, olderLeaf,
        isRelativeTimelock]
    simp [timelockWalk, chosen, timelockWalkChosen, none_below, List.range_succ]
  have walked : timelockWalk (lib.extractTr held branch.leaf) emptyPath =
      (true, PolicyPath.insert (PolicyPath.insert (PolicyPath.insert (PolicyPath.insert emptyPath
        locked [0, 1]) both [0, 1]) script [1]) root [1]) := by
    rw [leaf, policy]
    have enter : (timelockWalk (.node locked
        [.leaf (olderLeaf branch.timelockBlocks), .node gate items threshold] 2) emptyPath).2 =
          PolicyPath.insert emptyPath locked [0, 1] := by rw [atLock]
    rw [← enter]
    rfl
  obtain ⟨⟨root_script, root_both, root_locked, root_gate, _⟩,
    ⟨script_both, script_locked, script_gate, _⟩, ⟨both_locked, both_gate, _⟩,
    ⟨locked_gate, _⟩, _⟩ := distinct
  intro resolves
  simp only [Resolves, Resolver.resolve, resolveTimelockPolicyPath, resolvePolicyPath_some, walked,
    if_true] at resolves
  have fills := resolves.fills
  rw [leaf, policy] at fills
  have atScript := fills.child (PolicyPath.insert_self ..) (List.mem_singleton.2 rfl) rfl
  have atBoth := atScript.child
    (by rw [PolicyPath.insert_of_ne _ (Ne.symm root_script), PolicyPath.insert_self])
    (List.mem_singleton.2 rfl) rfl
  have atLocked := atBoth.child (i := 1)
    (by rw [PolicyPath.insert_of_ne _ (Ne.symm root_both),
      PolicyPath.insert_of_ne _ (Ne.symm script_both), PolicyPath.insert_self]) (by simp) rfl
  have atGate := atLocked.child (i := 1)
    (by rw [PolicyPath.insert_of_ne _ (Ne.symm root_locked),
      PolicyPath.insert_of_ne _ (Ne.symm script_locked),
      PolicyPath.insert_of_ne _ (Ne.symm both_locked), PolicyPath.insert_self]) (by simp) rfl
  apply atGate.entered
  rw [PolicyPath.insert_of_ne _ (Ne.symm root_gate), PolicyPath.insert_of_ne _ (Ne.symm script_gate),
    PolicyPath.insert_of_ne _ (Ne.symm both_gate), PolicyPath.insert_of_ne _ (Ne.symm locked_gate)]
  rfl

/-- **When a resolver's path is the one its branch needs**, where the branch is what the
builders write for a vault: the owner's always, the heir's in a standard vault, the guardian's
unless the owner's key is loaded too. -/
theorem resolves_iff (lib : PolicyLib) (branch : ClaimBranch) (held : Party → Bool)
    (r : Resolver) :
    (∀ v : VaultKeys, v.toClaimBranch = branch → ∀ key chain, v.render key chain =
      .ok (call "tr" (unspendableNumsXonly ++ ',' :: branch.leaf.text fun who =>
        fragmentAround (v.fingerprint who) (vaultAccountPath v.network) (key who) chain))) ∧
    (Resolves lib branch held r ↔
      match r with
      | .owner => True
      | .heir => branch.kind = .standard
      | .guardian => held .owner = false) := by
  constructor
  · rintro v rfl key chain
    exact v.render_eq_text key chain
  · cases r with
    | owner => exact iff_of_true (resolves_owner lib branch held) trivial
    | heir =>
      cases kind : branch.kind with
      | standard => exact iff_of_true (resolves_heir kind) rfl
      | guardian => exact iff_of_false (not_resolves_heir kind) (by simp)
    | guardian =>
      cases owner : held .owner with
      | false => exact iff_of_true (resolves_guardian owner) rfl
      | true => exact iff_of_false (not_resolves_guardian owner) (by simp)

end Branches

/-! ## §6 A guardian vault -/

/-- How many `Thresh` nodes lie on the longest way down. -/
def Miniscript.height : Miniscript → Nat
  | .pk _ | .older _ | .after _ => 0
  | .andV a b | .orD a b | .orB a b => max a.height b.height + 1
  | .verify m | .swap m => m.height

/-- `extract_policy`, with a node's height for the checksum that is its id. -/
def extractByHeight (held : Party → Bool) : Miniscript → Policy
  | .pk who => .leaf (signatureLeaf (some who) (held who))
  | .older blocks => .leaf (olderLeaf blocks)
  | .after height => .leaf (afterLeaf height)
  | .andV a b => .node (List.replicate (max a.height b.height) '|')
      [extractByHeight held a, extractByHeight held b] 2
  | .orD a b => .node (List.replicate (max a.height b.height) '|')
      [extractByHeight held a, extractByHeight held b] 1
  | .orB a b => .node (List.replicate (max a.height b.height) '|')
      [extractByHeight held a, extractByHeight held b] 1
  | .verify m => extractByHeight held m
  | .swap m => extractByHeight held m

/-- The vaults' scripts nest, so the heights of their nodes differ. -/
def heightLib : PolicyLib where
  extract := extractByHeight
  extractTr held m := .node (List.replicate m.height '|')
    [.leaf (signatureLeaf none false), extractByHeight held m] 1
  pk _ _ := rfl
  older _ _ := rfl
  after _ _ := rfl
  andV _ _ _ := ⟨_, rfl⟩
  orD _ _ _ := ⟨_, rfl⟩
  orB _ _ _ := ⟨_, rfl⟩
  verify _ _ := rfl
  swap _ _ := rfl
  tr _ _ := ⟨_, rfl⟩
  distinct held branch := by
    obtain ⟨kind, blocks, unlock, _, _⟩ := branch
    cases kind with
    | standard => simp [ClaimBranch.leaf, extractByHeight, ids, idsAll, Miniscript.height]
    | guardian =>
      cases unlock <;>
        simp [ClaimBranch.leaf, guardianGate, extractByHeight, ids, idsAll, Miniscript.height]

/-- A guardian vault with a lock of a day. -/
def guardianBranch : ClaimBranch where
  kind := .guardian
  timelockBlocks := 144
  unlockHeight := none
  valid := validateLocks_day
  standard := by simp

/-- The heir's resolver leaves the guardians' disjunction without an entry. -/
theorem not_resolves : ¬ ∀ (lib : PolicyLib) (branch : ClaimBranch) (held : Party → Bool)
    (r : Resolver), Resolves lib branch held r := fun resolves =>
  not_resolves_heir rfl (resolves heightLib guardianBranch (fun _ => false) .heir)

end GhostKey

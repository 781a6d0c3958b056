import GhostKey.Derivation
import GhostKey.Foundation.EditDistance
import Mathlib.Data.Prod.Lex
import Mathlib.Data.String.Basic

/-!
# Addresses That May Be Mistyped

What the server says of an address while it is being typed: whether it has a domain, and
whether the domain is close to a common one. It is advice; nothing is stored.

Main result:
- `checkAddress_advises`: what is said, in terms of the edits between the domains, and that
  an address that takes the advice is given no more.
-/

namespace GhostKey

open Foundation

namespace Deliverability

/-! ## §1 The source's functions -/

/-- `COMMON_MAIL_DOMAINS`. -/
def commonMailDomains : List String :=
  ["gmail.com", "googlemail.com", "yahoo.com", "yahoo.co.uk", "hotmail.com", "hotmail.co.uk",
    "outlook.com", "live.com", "msn.com", "icloud.com", "me.com", "aol.com", "protonmail.com",
    "proton.me", "gmx.com", "zoho.com", "yandex.com", "mail.com"]

def editDistance (a b : String) : Nat := Edits.editDistance a.toList b.toList

/-- How far from a listed domain still counts as close. -/
def allowed (candidate : String) : Nat := if candidate.utf8ByteSize ≤ 8 then 1 else 2

/-- The listed domains close to `domain`, with their distances. -/
def candidates (domain : String) : List (Nat ×ₗ String) :=
  commonMailDomains.filterMap fun candidate =>
    let d := editDistance domain candidate
    if d ≤ allowed candidate then some (toLex (d, candidate)) else none

def suggestDomain (domain : String) : Option String :=
  let domain := toAsciiLowercase (trim domain)
  if domain ∈ commonMailDomains then none
  else (candidates domain).min?.map fun pair => (ofLex pair).2

/-- `str::rsplit_once`, at a letter. -/
def rsplitOnce (c : Char) (s : List Char) : Option (List Char × List Char) :=
  (Text.rfind c s).map fun i => (s.take i, s.drop (i + 1))

/-- `str::trim_end_matches`, of a letter. -/
def trimEndMatches (c : Char) (s : String) : String := .ofList (s.toList.rdropWhile (· = c))

/-- What is left of the text behind the `@`. -/
def normalized (domain : List Char) : String :=
  toAsciiLowercase (trimEndMatches '.' (trim (.ofList domain)))

def domainOf (address : String) : Option String :=
  match rsplitOnce '@' (trim address).toList with
  | none => none
  | some (owner, domain) =>
    if owner = [] then none
    else if normalized domain ≠ "" ∧ '.' ∈ (normalized domain).toList then some (normalized domain)
    else none

structure AddressCheck where
  ok : Bool
  message : String
  suggestion : Option String
  deriving DecidableEq

def checkAddress (address : String) : AddressCheck :=
  match domainOf address with
  | none => ⟨false, "That doesn't look like an email address.", none⟩
  | some domain =>
    match suggestDomain domain with
    | some better => ⟨true, "Did you mean " ++ better ++ "?", some better⟩
    | none => ⟨true, "", none⟩

/-! ## §2 What they say -/

/-- The listed domain nearest to `domain`, `n` edits away; of two as near, the first by the
alphabet. -/
structure Nearest (domain candidate : String) (n : Nat) : Prop where
  listed : candidate ∈ commonMailDomains
  edits : IsLeast {n | Edits.Steps n domain.toList candidate.toList} n
  near : n ≤ allowed candidate
  first : ∀ other ∈ commonMailDomains, ∀ m ≤ allowed other,
    Edits.Steps m domain.toList other.toList → n < m ∨ n = m ∧ candidate ≤ other

/-- The address is `owner` and `domain` around its last `@`. -/
structure Parts (address : String) (owner domain : List Char) : Prop where
  whole : (trim address).toList = owner ++ '@' :: domain
  owned : owner ≠ []
  last : '@' ∉ domain

/-- What is said of an address. -/
structure Advises (address : String) (check : AddressCheck) : Prop where
  /-- It is well formed where its domain has a dot, once the dots at the end are off. -/
  ok : check.ok = true ↔ ∃ owner domain, Parts address owner domain ∧
    '.' ∈ (normalized domain).toList
  /-- The suggestion is the nearest listed domain, where that is not the domain itself. -/
  suggestion : ∀ better, check.suggestion = some better ↔ ∃ owner domain,
    Parts address owner domain ∧ '.' ∈ (normalized domain).toList ∧
      toAsciiLowercase (trim (normalized domain)) ∉ commonMailDomains ∧
        ∃ n, Nearest (toAsciiLowercase (trim (normalized domain))) better n
  message : check.message = if check.ok then
    (check.suggestion.elim "" fun better => "Did you mean " ++ better ++ "?") else
      "That doesn't look like an email address."
  /-- Who takes the advice is given no more. -/
  taken : ∀ better owner domain, check.suggestion = some better → Parts address owner domain →
    checkAddress (.ofList (owner ++ '@' :: better.toList)) = ⟨true, "", none⟩

/-! ## §3 Suggestions -/

theorem isLeast_editDistance (a b : String) :
    IsLeast {n | Edits.Steps n a.toList b.toList} (editDistance a b) :=
  Edits.isLeast_editDistance a.toList b.toList

theorem mem_candidates {domain : String} {pair : Nat ×ₗ String} :
    pair ∈ candidates domain ↔ (ofLex pair).2 ∈ commonMailDomains ∧
      (ofLex pair).1 = editDistance domain (ofLex pair).2 ∧
        (ofLex pair).1 ≤ allowed (ofLex pair).2 := by
  simp only [candidates, List.mem_filterMap, Option.ite_none_right_eq_some, Option.some.injEq]
  constructor
  · rintro ⟨candidate, listed, near, rfl⟩
    exact ⟨listed, rfl, near⟩
  · rintro ⟨listed, distance, near⟩
    exact ⟨_, listed, distance ▸ near, by rw [← distance]; rfl⟩

theorem min_candidates_iff {domain better : String} {n : Nat} :
    (candidates domain).min? = some (toLex (n, better)) ↔ Nearest domain better n := by
  rw [List.min?_eq_some_iff]
  simp only [mem_candidates, ofLex_toLex]
  constructor
  · rintro ⟨⟨listed, rfl, near⟩, least⟩
    refine ⟨listed, isLeast_editDistance _ _, near, fun other listed' m within edits => ?_⟩
    have le : editDistance domain other ≤ m := (isLeast_editDistance domain other).2 edits
    have here := least (toLex (editDistance domain other, other)) ⟨listed', rfl, le.trans within⟩
    rw [Prod.Lex.toLex_le_toLex] at here
    rcases here with lt | ⟨same, before⟩
    · exact .inl (Nat.lt_of_lt_of_le lt le)
    · rcases Nat.lt_or_eq_of_le le with lt | same'
      · exact .inl (Eq.trans_lt same lt)
      · exact .inr ⟨Eq.trans same same', before⟩
  · intro nearest
    have distance := nearest.edits.unique (isLeast_editDistance domain better)
    refine ⟨⟨nearest.listed, distance, nearest.near⟩, fun pair ⟨listed, distance', near'⟩ => ?_⟩
    have edits := (isLeast_editDistance domain (ofLex pair).2).1
    have first := nearest.first _ listed _ (distance' ▸ near') edits
    rw [← distance'] at first
    exact Prod.Lex.toLex_le_toLex.2 first

theorem suggestDomain_eq_some_iff {domain better : String} :
    suggestDomain domain = some better ↔
      toAsciiLowercase (trim domain) ∉ commonMailDomains ∧
        ∃ n, Nearest (toAsciiLowercase (trim domain)) better n := by
  simp only [suggestDomain]
  by_cases listed : toAsciiLowercase (trim domain) ∈ commonMailDomains
  · simp [listed]
  · simp only [listed, if_false, Option.map_eq_some_iff, not_false_eq_true, true_and]
    constructor
    · rintro ⟨pair, least, rfl⟩
      exact ⟨(ofLex pair).1, min_candidates_iff.1 least⟩
    · rintro ⟨n, nearest⟩
      exact ⟨toLex (n, better), min_candidates_iff.2 nearest, rfl⟩

/-! ## §4 Domains -/

theorem rsplitOnce_last {c : Char} {a b : List Char} (last : c ∉ b) :
    rsplitOnce c (a ++ c :: b) = some (a, b) := by
  simp [rsplitOnce, Text.rfind_last last]

theorem rsplitOnce_eq_some_iff {c : Char} {s a b : List Char} :
    rsplitOnce c s = some (a, b) ↔ s = a ++ c :: b ∧ c ∉ b := by
  constructor
  · intro split
    have mem : c ∈ s := by
      by_contra absent
      simp [rsplitOnce, Text.rfind_eq_none absent] at split
    -- the last `c` is the first one from behind
    obtain ⟨b', a', backwards, last⟩ := List.eq_append_cons_of_mem (List.mem_reverse.2 mem)
    have whole : s = a'.reverse ++ c :: b'.reverse := by
      rw [← List.reverse_reverse s, backwards]
      simp
    rw [whole, rsplitOnce_last (by simpa using last)] at split
    cases split
    exact ⟨whole, by simpa using last⟩
  · rintro ⟨rfl, last⟩
    exact rsplitOnce_last last

theorem rsplitOnce_address {address : String} {owner domain : List Char} :
    rsplitOnce '@' (trim address).toList = some (owner, domain) ∧ owner ≠ [] ↔
      Parts address owner domain := by
  rw [rsplitOnce_eq_some_iff]
  exact ⟨fun ⟨⟨whole, last⟩, owned⟩ => ⟨whole, owned, last⟩,
    fun ⟨whole, owned, last⟩ => ⟨⟨whole, last⟩, owned⟩⟩

theorem domainOf_eq_some_iff {address domain : String} :
    domainOf address = some domain ↔ ∃ owner rest, Parts address owner rest ∧
      domain = normalized rest ∧ '.' ∈ domain.toList := by
  simp only [← rsplitOnce_address]
  unfold domainOf
  constructor
  · intro found
    split at found
    · cases found
    · next owner rest split =>
      split at found
      · cases found
      · next owned =>
        split at found
        · next good =>
          simp only [Option.some.injEq] at found
          subst found
          exact ⟨owner, rest, ⟨split, owned⟩, rfl, good.2⟩
        · cases found
  · rintro ⟨owner, rest, ⟨split, owned⟩, rfl, dotted⟩
    have nonempty : normalized rest ≠ "" := fun empty => by simp [empty] at dotted
    simp [split, owned, nonempty, dotted]

/-- The letters of the listed domains. -/
def plain (c : Char) : Bool := (decide (97 ≤ c.toNat) && decide (c.toNat ≤ 122)) || c = '.'

theorem isWhiteSpace_of_plain {c : Char} (letter : plain c = true) : isWhiteSpace c = false := by
  simp only [plain, Bool.or_eq_true, Bool.and_eq_true, decide_eq_true_eq] at letter
  rcases letter with ⟨low, high⟩ | rfl
  · simp only [isWhiteSpace, Bool.or_eq_false_iff, Bool.and_eq_false_iff, decide_eq_false_iff_not]
    omega
  · decide

theorem toLower_of_plain {c : Char} (letter : plain c = true) : c.toLower = c := by
  simp only [plain, Bool.or_eq_true, Bool.and_eq_true, decide_eq_true_eq] at letter
  rcases letter with ⟨low, -⟩ | rfl
  · have above : ¬ (c.val ≥ 'A'.val ∧ c.val ≤ 'Z'.val) := fun upper => by
      have high : c.toNat ≤ 90 := upper.2
      omega
    exact dif_neg above
  · decide

theorem listed_plain : ∀ better ∈ commonMailDomains,
    (better.toList.all plain) = true ∧ '.' ∈ better.toList ∧ better.toList.getLast? ≠ some '.' := by
  decide +kernel

/-- The listed domains are in normal form. -/
theorem listed_clean {better : String} (listed : better ∈ commonMailDomains) :
    '@' ∉ better.toList ∧ normalized better.toList = better ∧
      toAsciiLowercase (trim better) = better := by
  obtain ⟨letters, dotted, last⟩ := listed_plain better listed
  rw [List.all_eq_true] at letters
  have solid : ∀ c ∈ better.toList, isWhiteSpace c = false := fun c mem =>
    isWhiteSpace_of_plain (letters c mem)
  have trimmed : trim better = better := by
    have inner : trim better = .ofList (Text.trimBy isWhiteSpace better.toList) := rfl
    rw [inner, Text.trimBy_solid solid, String.ofList_toList]
  have lowered : toAsciiLowercase better = better := by
    have same : better.toList.map Char.toLower = better.toList :=
      (List.map_congr_left fun c mem => toLower_of_plain (letters c mem)).trans (List.map_id _)
    rw [toAsciiLowercase, same, String.ofList_toList]
  have ended : trimEndMatches '.' better = better := by
    have same : better.toList.rdropWhile (· = '.') = better.toList := by
      apply List.rdropWhile_eq_self_iff.2
      intro nonempty
      simpa [List.getLast?_eq_some_getLast nonempty] using last
    rw [trimEndMatches, same, String.ofList_toList]
  refine ⟨fun mem => ?_, ?_, ?_⟩
  · have := letters _ mem
    revert this
    decide
  · rw [normalized, String.ofList_toList, trimmed, ended, lowered]
  · rw [trimmed, lowered]

/-- An address that takes the advice has the parts that were advised. -/
theorem Parts.replaced {address better : String} {owner domain : List Char}
    (parts : Parts address owner domain) (listed : better ∈ commonMailDomains) :
    Parts (.ofList (owner ++ '@' :: better.toList)) owner better.toList := by
  obtain ⟨letters, dotted, -⟩ := listed_plain better listed
  rw [List.all_eq_true] at letters
  have solid : ∀ c ∈ better.toList, isWhiteSpace c = false := fun c mem =>
    isWhiteSpace_of_plain (letters c mem)
  have trimmed : ∀ t, (trim t).toList = Text.trimBy isWhiteSpace t.toList := fun t =>
    String.toList_ofList
  refine ⟨?_, parts.owned, (listed_clean listed).1⟩
  have front : (owner ++ ['@']).dropWhile isWhiteSpace = owner ++ ['@'] := by
    refine Text.dropWhile_prefix (s := (trim address).toList) ⟨domain, ?_⟩ ?_
    · rw [parts.whole]
      simp
    · rw [trimmed, Text.trimBy]
      exact Text.dropWhile_prefix (List.rdropWhile_prefix isWhiteSpace _)
        (List.dropWhile_idempotent _ _)
  have nonempty : better.toList ≠ [] := fun empty => by simp [empty] at dotted
  have kept := Text.trimBy_append solid nonempty (owner ++ ['@'])
  rw [front] at kept
  rw [trimmed, String.toList_ofList]
  simpa using kept

theorem suggestDomain_listed {better : String} (listed : better ∈ commonMailDomains) :
    suggestDomain better = none := by
  simp [suggestDomain, (listed_clean listed).2.2, listed]

/-! ## §5 The check -/

theorem checkAddress_of_none {address : String} (undefined : domainOf address = none) :
    checkAddress address = ⟨false, "That doesn't look like an email address.", none⟩ := by
  simp only [checkAddress, undefined]

theorem checkAddress_of_some {address domain : String} (found : domainOf address = some domain) :
    checkAddress address = ⟨true, (suggestDomain domain).elim "" fun better =>
      "Did you mean " ++ better ++ "?", suggestDomain domain⟩ := by
  simp only [checkAddress, found]
  cases suggestDomain domain with
  | none => rfl
  | some better => rfl

theorem checkAddress_replaced {address better : String} {owner domain : List Char}
    (parts : Parts address owner domain) (listed : better ∈ commonMailDomains) :
    checkAddress (.ofList (owner ++ '@' :: better.toList)) = ⟨true, "", none⟩ := by
  have found : domainOf (.ofList (owner ++ '@' :: better.toList)) = some better :=
    domainOf_eq_some_iff.2 ⟨owner, better.toList, parts.replaced listed,
      (listed_clean listed).2.1.symm, (listed_plain better listed).2.1⟩
  rw [checkAddress_of_some found, suggestDomain_listed listed]
  rfl

theorem checkAddress_ok (address : String) :
    (checkAddress address).ok = (domainOf address).isSome := by
  cases found : domainOf address with
  | none => rw [checkAddress_of_none found]; rfl
  | some domain => rw [checkAddress_of_some found]; rfl

theorem checkAddress_suggestion (address : String) :
    (checkAddress address).suggestion = (domainOf address).bind suggestDomain := by
  cases found : domainOf address with
  | none => rw [checkAddress_of_none found]; rfl
  | some domain => simp only [checkAddress_of_some found, Option.bind_some]

theorem checkAddress_advises (address : String) : Advises address (checkAddress address) where
  ok := by
    rw [checkAddress_ok, Option.isSome_iff_exists]
    simp only [domainOf_eq_some_iff]
    constructor
    · rintro ⟨_, owner, domain, parts, rfl, dotted⟩
      exact ⟨owner, domain, parts, dotted⟩
    · rintro ⟨owner, domain, parts, dotted⟩
      exact ⟨_, owner, domain, parts, rfl, dotted⟩
  suggestion better := by
    rw [checkAddress_suggestion, Option.bind_eq_some_iff]
    simp only [domainOf_eq_some_iff, suggestDomain_eq_some_iff]
    constructor
    · rintro ⟨_, ⟨owner, domain, parts, rfl, dotted⟩, unlisted, nearest⟩
      exact ⟨owner, domain, parts, dotted, unlisted, nearest⟩
    · rintro ⟨owner, domain, parts, dotted, unlisted, nearest⟩
      exact ⟨_, ⟨owner, domain, parts, rfl, dotted⟩, unlisted, nearest⟩
  message := by
    cases found : domainOf address with
    | none => rw [checkAddress_of_none found, if_neg Bool.false_ne_true]
    | some domain => rw [checkAddress_of_some found, if_pos rfl]
  taken better owner domain suggested parts := by
    rw [checkAddress_suggestion, Option.bind_eq_some_iff] at suggested
    obtain ⟨domain', -, suggested⟩ := suggested
    obtain ⟨-, n, nearest⟩ := suggestDomain_eq_some_iff.1 suggested
    exact checkAddress_replaced parts nearest.listed

example : checkAddress " ada@gmial.com. " =
    ⟨true, "Did you mean gmail.com?", some "gmail.com"⟩ := by decide +kernel

end Deliverability

end GhostKey

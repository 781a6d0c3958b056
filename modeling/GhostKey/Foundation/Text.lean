import Mathlib.Data.List.DropRight
import Mathlib.Data.List.Infix
import Mathlib.Data.List.TakeWhile
import Mathlib.Data.Nat.Notation

/-!
# Searching Texts

Where a word first occurs in a text. A search passes a stretch of text that no
occurrence begins in (`Clear`); the lemmas say which stretches are of that kind: one
without the word's first letter, one too short for the word before a letter the word
lacks, and any sequence of such stretches.

Main results:
- `find_of_clear`: behind a clear stretch, a word is found where it stands.
- `Clear.append`, `clear_of_head`, `clear_of_absent`, `clear_of_short`: clear stretches.
- `replaceAll_of_clear`: replacing a word that occurs once.
- `findLast_weave`: a word is last found where too few letters follow for another.
- `trimBy_append`, `trimBy_trimBy`: trimming takes nothing off a solid end, and nothing
  the second time.
- `Spares.infix_flatMap_iff`: a translation that spares the letters of a word neither makes
  an occurrence of it nor takes one away.
-/

namespace GhostKey.Foundation.Text

variable {α : Type*}

/-- What a computation finds of every letter of a text holds of each of them. -/
theorem forall_mem_of_all {P : α → Prop} [DecidablePred P] {s : List α}
    (checked : (s.all fun a => decide (P a)) = true) : ∀ a ∈ s, P a := by
  intro a mem
  exact of_decide_eq_true (List.all_eq_true.1 checked a mem)

/-! ## §1 Clear stretches -/

/-- No occurrence of `word` begins inside `a` when `s` follows it. -/
def Clear (word a s : List α) : Prop := ∀ t, t ≠ [] → t <:+ a → ¬ word <+: t ++ s

theorem clear_nil (word s : List α) : Clear word [] s :=
  fun _ nonempty suffix => absurd (List.suffix_nil.1 suffix) nonempty

theorem Clear.tail {word a s : List α} {c : α} (clear : Clear word (c :: a) s) : Clear word a s :=
  fun t nonempty suffix => clear t nonempty (suffix.trans (List.suffix_cons c a))

theorem clear_cons {word a s : List α} {c : α} (here : ¬ word <+: c :: (a ++ s))
    (later : Clear word a s) : Clear word (c :: a) s := by
  intro t nonempty suffix
  rcases List.suffix_cons_iff.1 suffix with rfl | inside
  · simpa using here
  · exact later t nonempty inside

theorem Clear.append {word a b s : List α} (first : Clear word a (b ++ s))
    (second : Clear word b s) : Clear word (a ++ b) s := by
  induction a with
  | nil => simpa using second
  | cons c cs ih =>
    apply clear_cons
    · simpa using first (c :: cs) (by simp) List.suffix_rfl
    · exact ih first.tail

/-- A stretch without the word's first letter is clear. -/
theorem clear_of_head {c : α} {w a : List α} (absent : c ∉ a) (s : List α) :
    Clear (c :: w) a s := by
  intro t nonempty suffix occurs
  cases t with
  | nil => exact nonempty rfl
  | cons x xs =>
    have eq : c = x := (List.cons_prefix_cons.1 occurs).1
    exact absent (suffix.mem (by simp [eq]))

/-- So is one the word does not occur in, before a letter the word lacks. -/
theorem clear_of_absent {word b : List α} {d : α} (lacks : d ∉ word) (absent : ¬ word <:+: b)
    (s : List α) : Clear word (b ++ [d]) s := by
  intro t nonempty suffix occurs
  obtain ⟨b', rfl, inside⟩ : ∃ b', t = b' ++ [d] ∧ b' <:+ b := by
    rcases List.suffix_concat_iff.1 suffix with rfl | ⟨b', rfl, inside⟩
    · exact absurd rfl nonempty
    · exact ⟨b', by simp, inside⟩
  rw [List.append_assoc] at occurs
  obtain ⟨rest, eq⟩ := occurs
  -- the occurrence ends before `d`
  rcases List.append_eq_append_iff.1 eq with ⟨c, rfl, -⟩ | ⟨c, rfl, tail⟩
  · exact absent ((List.prefix_append word c).isInfix.trans inside.isInfix)
  · cases c with
    | nil => exact absent (by simpa using inside.isInfix)
    | cons x c =>
      have same := (List.cons.inj tail).1
      exact lacks (by simp [← same])

/-- Whether a stretch before the word is clear does not depend on what follows the word. -/
theorem Clear.append_right {word a : List α} (clear : Clear word a word) (s : List α) :
    Clear word a (word ++ s) := by
  intro t nonempty suffix occurs
  rw [← List.append_assoc] at occurs
  apply clear t nonempty suffix
  apply List.prefix_of_prefix_length_le occurs (List.prefix_append _ s)
  rw [List.length_append]
  exact Nat.le_add_left _ _

/-- So is one no longer than the word, before a letter the word lacks: an occurrence that
began in it would run into that letter. -/
theorem clear_of_short {word b : List α} {d : α} (lacks : d ∉ word)
    (short : b.length ≤ word.length) (other : b ≠ word) (s : List α) :
    Clear word (b ++ [d]) s := by
  intro t nonempty suffix occurs
  obtain ⟨b', rfl, inside⟩ : ∃ b', t = b' ++ [d] ∧ b' <:+ b := by
    rcases List.suffix_concat_iff.1 suffix with rfl | ⟨b', rfl, inside⟩
    · exact absurd rfl nonempty
    · exact ⟨b', by simp, inside⟩
  rcases Nat.lt_or_ge b'.length word.length with shorter | longer
  · -- the letter after `b'` is one of the word's
    have at_d : word[b'.length]? = some d := by
      obtain ⟨rest, eq⟩ := occurs
      have both : (word ++ rest)[b'.length]? = some d := by rw [eq]; simp
      rwa [List.getElem?_append_left shorter] at both
    exact lacks (List.mem_of_getElem? at_d)
  · -- `b'` is all of `b`, and as long as the word
    have len := inside.length_le
    have whole : b' = b := inside.eq_of_length (by omega)
    subst whole
    rw [List.append_assoc] at occurs
    have eq : word = b' := by
      have pre : word <+: b' := List.prefix_of_prefix_length_le occurs (List.prefix_append b' _)
        (by omega)
      exact pre.eq_of_length (by omega)
    exact other eq.symm

/-! ## §2 Searches -/

variable [DecidableEq α]

/-- Where `word` first occurs. -/
def find (word : List α) : List α → Option ℕ
  | [] => if word = [] then some 0 else none
  | c :: cs => if word <+: c :: cs then some 0 else (find word cs).map (· + 1)

/-- Where `c` last occurs. -/
def rfind (c : α) : List α → Option ℕ
  | [] => none
  | x :: xs => match rfind c xs with
    | some i => some (i + 1)
    | none => if x = c then some 0 else none

/-- Where `word` last occurs. -/
def findLast (word : List α) : List α → Option ℕ
  | [] => if word = [] then some 0 else none
  | c :: cs => match findLast word cs with
    | some i => some (i + 1)
    | none => if word <+: c :: cs then some 0 else none

theorem find_self (word rest : List α) : find word (word ++ rest) = some 0 := by
  cases word with
  | nil => cases rest <;> simp [find]
  | cons c w => simp [find]

theorem rfind_eq_none {c : α} {s : List α} (absent : c ∉ s) : rfind c s = none := by
  induction s with
  | nil => rfl
  | cons x xs ih =>
    simp only [List.mem_cons, not_or] at absent
    simp [rfind, ih absent.2, Ne.symm absent.1]

theorem rfind_append {c : α} {s : List α} {i : ℕ} (found : rfind c s = some i) (a : List α) :
    rfind c (a ++ s) = some (a.length + i) := by
  induction a with
  | nil => simpa using found
  | cons x xs ih =>
    simp only [List.cons_append, rfind, ih, List.length_cons, Option.some.injEq]
    omega

/-- The last `c` is the one that no other follows. -/
theorem rfind_last {c : α} {s : List α} (absent : c ∉ s) (a : List α) :
    rfind c (a ++ c :: s) = some a.length := by
  have head : rfind c (c :: s) = some 0 := by simp [rfind, rfind_eq_none absent]
  simpa using rfind_append head a

/-- A search passes a clear stretch. -/
theorem find_skip {word a s : List α} (clear : Clear word a s) :
    find word (a ++ s) = (find word s).map (a.length + ·) := by
  induction a with
  | nil => cases h : find word s <;> simp [h]
  | cons c cs ih =>
    have here : ¬ word <+: c :: (cs ++ s) := by
      simpa using clear (c :: cs) (by simp) List.suffix_rfl
    rw [List.cons_append, find, if_neg here, ih clear.tail, Option.map_map]
    congr 1
    funext i
    simp only [Function.comp_apply, List.length_cons]
    omega

/-- Behind a clear stretch, a word is found where it stands. -/
theorem find_of_clear {word a s : List α} (clear : Clear word a (word ++ s)) :
    find word (a ++ (word ++ s)) = some a.length := by
  rw [find_skip clear, find_self]
  rfl

theorem find_eq_none_iff {word : List α} (nonempty : word ≠ []) (s : List α) :
    find word s = none ↔ ¬ word <:+: s := by
  induction s with
  | nil => simp [find, nonempty]
  | cons c cs ih =>
    rw [find, List.infix_cons_iff]
    by_cases here : word <+: c :: cs
    · simp [here]
    · simp [here, ih]

/-- A word does not occur where one of its letters is too rare. -/
theorem findLast_eq_none {word s : List α} {c : α} (few : s.count c < word.count c) :
    findLast word s = none := by
  induction s with
  | nil =>
    have nonempty : word ≠ [] := by
      rintro rfl
      simp at few
    simp [findLast, nonempty]
  | cons x xs ih =>
    have fewer : xs.count c < word.count c :=
      lt_of_le_of_lt ((List.sublist_cons_self x xs).count_le c) few
    have here : ¬ word <+: x :: xs := fun occurs =>
      absurd (occurs.sublist.count_le c) (by omega)
    simp [findLast, ih fewer, here]

theorem findLast_append {word s : List α} {i : ℕ} (found : findLast word s = some i)
    (a : List α) : findLast word (a ++ s) = some (a.length + i) := by
  induction a with
  | nil => simpa using found
  | cons x xs ih =>
    simp only [List.cons_append, findLast, ih, List.length_cons, Option.some.injEq]
    omega

/-- A word is last found where too few letters follow for another. -/
theorem findLast_weave {c d : α} {w s : List α}
    (few : (w ++ s).count d < (c :: w).count d) (a : List α) :
    findLast (c :: w) (a ++ (c :: w ++ s)) = some a.length := by
  have here : findLast (c :: w) (c :: w ++ s) = some 0 := by
    have later : findLast (c :: w) (w ++ s) = none := findLast_eq_none few
    have occurs : c :: w <+: c :: (w ++ s) := ⟨s, rfl⟩
    simp only [List.cons_append, findLast, later, occurs, if_true]
  exact findLast_append here a

/-- The pieces of a text between the occurrences of a word; `n` is how many there may be. -/
def splitAt (word : List α) : ℕ → List α → List (List α)
  | 0, s => [s]
  | n + 1, s => match find word s with
    | none => [s]
    | some i => s.take i :: splitAt word n (s.drop (i + word.length))

/-- A text with every occurrence of a word replaced. -/
def replaceAll (word new s : List α) : List α :=
  new.intercalate (splitAt word s.length s)

/-- The only occurrence of a word is replaced, and all around it stays. -/
theorem replaceAll_of_clear {word a s : List α} (nonempty : word ≠ [])
    (clear : Clear word a (word ++ s)) (last : ¬ word <:+: s) (new : List α) :
    replaceAll word new (a ++ (word ++ s)) = a ++ (new ++ s) := by
  have rest : ∀ n, splitAt word n s = [s] := by
    intro n
    cases n with
    | zero => rfl
    | succ n => rw [splitAt, (find_eq_none_iff nonempty s).2 last]
  have front : (a ++ (word ++ s)).take a.length = a := List.take_left
  have back : (a ++ (word ++ s)).drop (a.length + word.length) = s := by
    rw [← List.append_assoc, ← List.length_append, List.drop_left]
  have long : (a ++ (word ++ s)).length = a.length + (word.length + s.length) := by
    simp only [List.length_append]
  have pieces : splitAt word (a ++ (word ++ s)).length (a ++ (word ++ s)) = [a, s] := by
    cases len : (a ++ (word ++ s)).length with
    | zero =>
      have pos : 0 < word.length := List.length_pos_iff.2 nonempty
      omega
    | succ n =>
      rw [splitAt, find_of_clear clear]
      dsimp only
      rw [front, back, rest]
  rw [replaceAll, pieces]
  simp [List.intercalate, List.intersperse]

/-! ## §3 Trimming -/

/-- A text without the letters of some kind that it begins and ends with. -/
def trimBy (p : α → Bool) (s : List α) : List α := (s.dropWhile p).rdropWhile p

omit [DecidableEq α] in
theorem dropWhile_solid {p : α → Bool} {s : List α} (solid : ∀ c ∈ s, p c = false) :
    s.dropWhile p = s :=
  List.dropWhile_eq_self_iff.2 fun inside => by simp [solid _ (List.getElem_mem inside)]

omit [DecidableEq α] in
/-- Trimming takes nothing off a solid end. -/
theorem trimBy_append {p : α → Bool} {b : List α} (solid : ∀ c ∈ b, p c = false)
    (nonempty : b ≠ []) (a : List α) : trimBy p (a ++ b) = a.dropWhile p ++ b := by
  have front : (a ++ b).dropWhile p = a.dropWhile p ++ b := by
    rw [List.dropWhile_append]
    split
    · next empty => rw [List.isEmpty_iff.1 empty, dropWhile_solid solid, List.nil_append]
    · rfl
  rw [trimBy, front]
  apply List.rdropWhile_eq_self_iff.2
  intro whole
  rw [List.getLast_append_of_ne_nil whole nonempty]
  simp [solid _ (List.getLast_mem nonempty)]

omit [DecidableEq α] in
theorem trimBy_solid {p : α → Bool} {s : List α} (solid : ∀ c ∈ s, p c = false) :
    trimBy p s = s := by
  cases s with
  | nil => rfl
  | cons c cs => simpa using trimBy_append solid (by simp) []

omit [DecidableEq α] in
/-- The beginning of a text with a solid front has one too. -/
theorem dropWhile_prefix {p : α → Bool} {a s : List α} (pre : a <+: s)
    (solid : s.dropWhile p = s) : a.dropWhile p = a := by
  obtain ⟨rest, rfl⟩ := pre
  apply List.dropWhile_eq_self_iff.2
  intro inside
  have long : 0 < (a ++ rest).length := by
    rw [List.length_append]
    exact Nat.lt_of_lt_of_le inside (Nat.le_add_right _ _)
  have first := List.dropWhile_eq_self_iff.1 solid long
  rwa [List.getElem_append_left inside] at first

omit [DecidableEq α] in
/-- What is trimmed has nothing left to trim. -/
theorem trimBy_trimBy (p : α → Bool) (s : List α) : trimBy p (trimBy p s) = trimBy p s := by
  have front : (trimBy p s).dropWhile p = trimBy p s :=
    dropWhile_prefix (List.rdropWhile_prefix (p := p) (l := s.dropWhile p))
      (List.dropWhile_idempotent p s)
  rw [trimBy, front, trimBy, List.rdropWhile_idempotent]

omit [DecidableEq α] in
/-- Dropping more than was dropped from an end. -/
theorem rdropWhile_rdropWhile {p q : α → Bool} (wider : ∀ c, p c = true → q c = true)
    (s : List α) : (s.rdropWhile p).rdropWhile q = s.rdropWhile q := by
  induction s using List.reverseRecOn with
  | nil => rfl
  | append_singleton s c ih =>
    rw [List.rdropWhile_concat]
    cases drops : p c with
    | true => rw [if_pos rfl, ih, List.rdropWhile_concat, if_pos (wider c drops)]
    | false => rw [if_neg (by decide)]

omit [DecidableEq α] in
/-- What is not of the kind stays. -/
theorem mem_trimBy {p : α → Bool} {s : List α} {c : α} (mem : c ∈ s) (solid : p c = false) :
    c ∈ trimBy p s := by
  have stays : ∀ t : List α, c ∈ t → c ∈ t.dropWhile p := by
    intro t inside
    rw [← List.takeWhile_append_dropWhile (p := p) (l := t)] at inside
    rcases List.mem_append.1 inside with front | back
    · exact absurd (List.mem_takeWhile_imp front) (by simp [solid])
    · exact back
  exact List.mem_reverse.2 (stays _ (List.mem_reverse.2 (stays s mem)))

/-! ## §4 Words inside a text -/

section Inside

variable {α β : Type*}

/-- An occurrence does not run across a letter the word lacks. -/
theorem infix_append_cons_iff {word a b : List α} {d : α} (lacks : d ∉ word) :
    word <:+: a ++ d :: b ↔ word <:+: a ∨ word <:+: b := by
  constructor
  · rintro ⟨s, t, eq⟩
    rw [List.append_assoc] at eq
    rcases List.append_eq_append_iff.1 eq with ⟨a', rfl, rest⟩ | ⟨s', rfl, rest⟩
    · -- the word begins before the letter, and ends there too
      rcases List.append_eq_append_iff.1 rest with ⟨t', rfl, -⟩ | ⟨w', rfl, rest'⟩
      · exact .inl ⟨s, t', by simp⟩
      · cases w' with
        | nil => exact .inl ⟨s, [], by simp⟩
        | cons x w' =>
          have same := (List.cons.inj rest').1
          exact absurd (by simp [same]) lacks
    · cases s' with
      | nil =>
        cases word with
        | nil => exact .inl (List.nil_infix)
        | cons x w =>
          have same := (List.cons.inj rest).1
          exact absurd (by simp [same]) lacks
      | cons x s' =>
        have tail := (List.cons.inj rest).2
        exact .inr ⟨s', t, by rw [tail]; simp⟩
  · rintro (inside | inside)
    · exact inside.trans (List.infix_append_left)
    · exact inside.trans ((List.suffix_cons d b).isInfix.trans (List.suffix_append a _).isInfix)

/-- Nor does it begin in a stretch of such letters. -/
theorem infix_append_iff_of_absent {word a s : List α} (nonempty : word ≠ [])
    (absent : ∀ x ∈ a, x ∉ word) : word <:+: a ++ s ↔ word <:+: s := by
  induction a with
  | nil => rfl
  | cons x a ih =>
    have here : ¬ word <+: x :: (a ++ s) := by
      intro pre
      cases word with
      | nil => exact nonempty rfl
      | cons y w =>
        have same := (List.cons_prefix_cons.1 pre).1
        exact absent x (.head _) (same ▸ .head _)
    rw [List.cons_append, List.infix_cons_iff, ih fun y mem => absent y (.tail _ mem)]
    simp [here]

/-- A letter-by-letter translation of a text: the letters of the word stand for themselves, and
every other letter is written with letters the word lacks. -/
structure Spares (word : List α) (f : β → List α) (g : α → β) : Prop where
  plain : ∀ a ∈ word, f (g a) = [a]
  other : ∀ b, (∃ a ∈ word, b = g a) ∨ f b ≠ [] ∧ ∀ x ∈ f b, x ∉ word

namespace Spares

variable {word : List α} {f : β → List α} {g : α → β} (spares : Spares word f g)

include spares

theorem injective {a a' : α} (mem : a ∈ word) (mem' : a' ∈ word) (same : g a = g a') : a = a' := by
  have eq := spares.plain a mem
  rw [same, spares.plain a' mem'] at eq
  exact (List.cons.inj eq).1.symm

theorem prefix_flatMap_iff {w : List α} (part : ∀ a ∈ w, a ∈ word) (s : List β) :
    w <+: s.flatMap f ↔ w.map g <+: s := by
  induction s generalizing w with
  | nil => simp
  | cons b s ih =>
    cases w with
    | nil => simp
    | cons x w =>
      have mem := part x (.head _)
      rw [List.flatMap_cons, List.map_cons]
      rcases spares.other b with ⟨a, mem', rfl⟩ | ⟨nonempty, absent⟩
      · rw [spares.plain a mem', List.singleton_append, List.cons_prefix_cons,
          List.cons_prefix_cons, ih fun y inside => part y (.tail _ inside)]
        exact and_congr_left' ⟨congrArg g, spares.injective mem mem'⟩
      · cases written : f b with
        | nil => exact absurd written nonempty
        | cons y ys =>
          rw [List.cons_append, List.cons_prefix_cons, List.cons_prefix_cons]
          constructor
          · rintro ⟨rfl, -⟩
            exact absurd mem (absent x (written ▸ .head _))
          · rintro ⟨rfl, -⟩
            rw [spares.plain x mem] at absent
            exact absurd mem (absent x (.head _))

/-- The word occurs in the translation where it occurs in the text. -/
theorem infix_flatMap_iff (nonempty : word ≠ []) (s : List β) :
    word <:+: s.flatMap f ↔ word.map g <:+: s := by
  induction s with
  | nil => simp
  | cons b s ih =>
    have front := spares.prefix_flatMap_iff (fun _ mem => mem) (b :: s)
    rw [List.infix_cons_iff, ← front, ← ih, List.flatMap_cons]
    rcases spares.other b with ⟨a, mem, rfl⟩ | ⟨-, absent⟩
    · rw [spares.plain a mem, List.singleton_append, List.infix_cons_iff]
    · rw [infix_append_iff_of_absent nonempty absent]
      refine ⟨.inr, fun either => either.elim (fun pre => ?_) id⟩
      have whole := pre.isInfix
      rwa [infix_append_iff_of_absent nonempty absent] at whole

end Spares

end Inside

end GhostKey.Foundation.Text

import GhostKey.Foundation.Miniscript

/-!
# Miniscript Fragments as Texts

A reader of the notation in which descriptors write miniscript: a name with its arguments
in parentheses, and wrappers in front, each with its colon. A key is whatever stands between
the parentheses of its `pk`, a number is a decimal without superfluous zeros.

Main results:
- `Fragment.read_text`: what is written is read back, whatever follows it.
- `readTr_text`: the same for the one leaf of a `tr` descriptor.
-/

namespace GhostKey.Foundation

/-! ## §1 Writing -/

/-- A letter that may stand in a key. -/
def keyChar (c : Char) : Bool := c ∉ "(){},".toList

def nameChar (c : Char) : Bool := c.isAlphanum || c = '_'

namespace Fragment

/-- A name and its arguments. -/
def written (name : String) (args : List Char) : List Char := name.toList ++ '(' :: (args ++ [')'])

/-- The text of a fragment whose keys are texts. -/
def text : Fragment (List Char) → List Char
  | pk k => written "pk" k
  | older n => written "older" (Nat.toDigits 10 n)
  | after n => written "after" (Nat.toDigits 10 n)
  | andV a b => written "and_v" (a.text ++ ',' :: b.text)
  | orD a b => written "or_d" (a.text ++ ',' :: b.text)
  | orB a b => written "or_b" (a.text ++ ',' :: b.text)
  | verify m => 'v' :: ':' :: m.text
  | swap m => 's' :: ':' :: m.text

/-- Keys that end where their parenthesis closes, and numbers of 32 bits. -/
def Plain : Fragment (List Char) → Prop
  | pk k => k ≠ [] ∧ ∀ c ∈ k, keyChar c = true
  | older n => n < 2 ^ 32
  | after n => n < 2 ^ 32
  | andV a b | orD a b | orB a b => a.Plain ∧ b.Plain
  | verify m | swap m => m.Plain

/-- How deep the calls of a fragment are nested. -/
def depth {K : Type} : Fragment K → Nat
  | pk _ | older _ | after _ => 1
  | andV a b | orD a b | orB a b => max a.depth b.depth + 1
  | verify m | swap m => m.depth + 1

end Fragment

/-! ## §2 Reading -/

/-- A closing parenthesis. -/
def readClose {α : Type} (a : α) : List Char → Option (α × List Char)
  | ')' :: rest => some (a, rest)
  | _ => none

/-- A number and its closing parenthesis. -/
def readNumber {α : Type} (f : Nat → α) (s : List Char) : Option (α × List Char) :=
  let digits := s.takeWhile Char.isDigit
  let n := Nat.ofDigitChars 10 digits 0
  if digits = Nat.toDigits 10 n ∧ n < 2 ^ 32 then readClose (f n) (s.dropWhile Char.isDigit)
  else none

/-- A key and its closing parenthesis. -/
def readKey {α : Type} (f : List Char → α) (s : List Char) : Option (α × List Char) :=
  let key := s.takeWhile keyChar
  if key = [] then none else readClose (f key) (s.dropWhile keyChar)

/-- Two fragments, a comma between them, and the closing parenthesis. -/
def readPair {α : Type} (read : List Char → Option (α × List Char)) (f : α → α → α)
    (s : List Char) : Option (α × List Char) :=
  match read s with
  | some (a, ',' :: rest) => (read rest).bind fun (b, rest) => readClose (f a b) rest
  | _ => none

/-- The fragment a text begins with, and what is left of it. -/
def Fragment.read : Nat → List Char → Option (Fragment (List Char) × List Char)
  | 0, _ => none
  | fuel + 1, 'v' :: ':' :: rest => (read fuel rest).map fun (m, rest) => (.verify m, rest)
  | fuel + 1, 's' :: ':' :: rest => (read fuel rest).map fun (m, rest) => (.swap m, rest)
  | fuel + 1, s =>
      match s.dropWhile nameChar with
      | '(' :: args =>
          match s.takeWhile nameChar with
          | ['p', 'k'] => readKey .pk args
          | ['o', 'l', 'd', 'e', 'r'] => readNumber .older args
          | ['a', 'f', 't', 'e', 'r'] => readNumber .after args
          | ['a', 'n', 'd', '_', 'v'] => readPair (read fuel) .andV args
          | ['o', 'r', '_', 'd'] => readPair (read fuel) .orD args
          | ['o', 'r', '_', 'b'] => readPair (read fuel) .orB args
          | _ => none
      | _ => none

/-- The internal key and the leaf of a `tr` descriptor with one leaf. -/
def readTr : List Char → Option (List Char × Fragment (List Char))
  | 't' :: 'r' :: '(' :: rest =>
      match rest.dropWhile keyChar with
      | ',' :: tree =>
          match Fragment.read tree.length tree with
          | some (leaf, [')']) => some (rest.takeWhile keyChar, leaf)
          | _ => none
      | _ => none
  | _ => none

/-! ## §3 What is written is read back -/

section Spans

variable {p : Char → Bool} {a rest : List Char} {c : Char}

/-- A stretch ends at the first letter of another kind. -/
theorem takeWhile_stop (inside : ∀ x ∈ a, p x = true) (stop : p c = false) :
    (a ++ c :: rest).takeWhile p = a := by
  rw [List.takeWhile_append_of_pos inside]
  simp [stop]

theorem dropWhile_stop (inside : ∀ x ∈ a, p x = true) (stop : p c = false) :
    (a ++ c :: rest).dropWhile p = c :: rest := by
  rw [List.dropWhile_append_of_pos inside]
  simp [stop]

end Spans

section RoundTrip

variable {α : Type}

theorem readNumber_text (f : Nat → α) (rest : List Char) {n : Nat} (small : n < 2 ^ 32) :
    readNumber f (Nat.toDigits 10 n ++ ')' :: rest) = some (f n, rest) := by
  have inside : ∀ c ∈ Nat.toDigits 10 n, c.isDigit = true := fun c mem =>
    Nat.isDigit_of_mem_toDigits (by decide) (by decide) mem
  have stop : Char.isDigit ')' = false := by decide
  simp only [readNumber, takeWhile_stop inside stop, dropWhile_stop inside stop,
    Nat.ofDigitChars_ten_toDigits]
  rw [if_pos ⟨trivial, small⟩]
  rfl

theorem readKey_text (f : List Char → α) (rest : List Char) {key : List Char}
    (nonempty : key ≠ []) (inside : ∀ c ∈ key, keyChar c = true) :
    readKey f (key ++ ')' :: rest) = some (f key, rest) := by
  have stop : keyChar ')' = false := by decide
  simp only [readKey, takeWhile_stop inside stop, dropWhile_stop inside stop]
  simp [nonempty, readClose]

theorem readPair_text {read : List Char → Option (α × List Char)} (f : α → α → α)
    (rest : List Char) {a b : α} {s t : List Char} (first : ∀ rest, read (s ++ rest) = some (a, rest))
    (second : ∀ rest, read (t ++ rest) = some (b, rest)) :
    readPair read f (s ++ ',' :: t ++ ')' :: rest) = some (f a b, rest) := by
  have whole : s ++ ',' :: t ++ ')' :: rest = s ++ (',' :: (t ++ ')' :: rest)) := by simp
  rw [whole]
  simp only [readPair, first, second, Option.bind_some]
  rfl

namespace Fragment

/-- A fragment's text is read back, whatever follows it. -/
theorem read_text (m : Fragment (List Char)) (plain : m.Plain) (fuel : Nat)
    (enough : m.depth ≤ fuel) (rest : List Char) : read fuel (m.text ++ rest) = some (m, rest) := by
  -- on the fragment: one unit of fuel a level, the arguments read back by the induction
  induction m generalizing fuel rest with
  | pk k =>
    obtain ⟨fuel, rfl⟩ := Nat.exists_eq_add_of_le' enough
    have args := readKey_text Fragment.pk rest plain.1 plain.2
    rw [text, written, List.append_assoc, List.cons_append, List.append_assoc]
    exact args
  | older n =>
    obtain ⟨fuel, rfl⟩ := Nat.exists_eq_add_of_le' enough
    have args := readNumber_text (Fragment.older (K := List Char)) rest plain
    rw [text, written, List.append_assoc, List.cons_append, List.append_assoc]
    exact args
  | after n =>
    obtain ⟨fuel, rfl⟩ := Nat.exists_eq_add_of_le' enough
    have args := readNumber_text (Fragment.after (K := List Char)) rest plain
    rw [text, written, List.append_assoc, List.cons_append, List.append_assoc]
    exact args
  -- the combinators with two arguments
  | andV a b iha ihb =>
    obtain ⟨fuel, rfl⟩ := Nat.exists_eq_add_of_le' (Nat.le_trans (Nat.le_add_left 1 _) enough)
    rw [depth, Nat.add_le_add_iff_right, Nat.max_le] at enough
    have args := readPair_text Fragment.andV rest (iha plain.1 fuel enough.1)
      (ihb plain.2 fuel enough.2)
    rw [text, written, List.append_assoc, List.cons_append, List.append_assoc]
    exact args
  | orD a b iha ihb =>
    obtain ⟨fuel, rfl⟩ := Nat.exists_eq_add_of_le' (Nat.le_trans (Nat.le_add_left 1 _) enough)
    rw [depth, Nat.add_le_add_iff_right, Nat.max_le] at enough
    have args := readPair_text Fragment.orD rest (iha plain.1 fuel enough.1)
      (ihb plain.2 fuel enough.2)
    rw [text, written, List.append_assoc, List.cons_append, List.append_assoc]
    exact args
  | orB a b iha ihb =>
    obtain ⟨fuel, rfl⟩ := Nat.exists_eq_add_of_le' (Nat.le_trans (Nat.le_add_left 1 _) enough)
    rw [depth, Nat.add_le_add_iff_right, Nat.max_le] at enough
    have args := readPair_text Fragment.orB rest (iha plain.1 fuel enough.1)
      (ihb plain.2 fuel enough.2)
    rw [text, written, List.append_assoc, List.cons_append, List.append_assoc]
    exact args
  -- the wrappers, written as a letter before the colon
  | verify m ih =>
    obtain ⟨fuel, rfl⟩ := Nat.exists_eq_add_of_le' (Nat.le_trans (Nat.le_add_left 1 _) enough)
    have below := ih plain fuel (Nat.le_of_add_le_add_right enough) rest
    show (read fuel (m.text ++ rest)).map _ = _
    rw [below]
    rfl
  | swap m ih =>
    obtain ⟨fuel, rfl⟩ := Nat.exists_eq_add_of_le' (Nat.le_trans (Nat.le_add_left 1 _) enough)
    have below := ih plain fuel (Nat.le_of_add_le_add_right enough) rest
    show (read fuel (m.text ++ rest)).map _ = _
    rw [below]
    rfl

/-- A text is longer than its calls are nested. -/
theorem depth_le_length (m : Fragment (List Char)) : m.depth ≤ m.text.length := by
  induction m with
  | pk k => simp [depth, text, written]
  | older n => simp [depth, text, written]
  | after n => simp [depth, text, written]
  | andV a b iha ihb | orD a b iha ihb | orB a b iha ihb =>
    simp only [depth, text, written, List.length_append, List.length_cons]
    omega
  | verify m ih | swap m ih =>
    simp only [depth, text, List.length_cons]
    omega

end Fragment

/-- A `tr` descriptor with one leaf is read back. -/
theorem readTr_text {key : List Char} (inside : ∀ c ∈ key, keyChar c = true)
    {leaf : Fragment (List Char)} (plain : leaf.Plain) :
    readTr (Fragment.written "tr" (key ++ ',' :: leaf.text)) = some (key, leaf) := by
  have stop : keyChar ',' = false := by decide
  have whole : Fragment.written "tr" (key ++ ',' :: leaf.text) =
      't' :: 'r' :: '(' :: (key ++ ',' :: (leaf.text ++ [')'])) := by
    simp [Fragment.written]
  have enough : leaf.depth ≤ (leaf.text ++ [')']).length := by
    rw [List.length_append]
    exact Nat.le_trans leaf.depth_le_length (Nat.le_add_right _ _)
  rw [whole]
  simp only [readTr, dropWhile_stop inside stop, takeWhile_stop inside stop,
    leaf.read_text plain _ enough]

end RoundTrip

end GhostKey.Foundation

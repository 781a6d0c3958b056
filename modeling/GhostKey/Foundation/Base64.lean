import GhostKey.Foundation.Text
import Mathlib.Data.List.Basic
import Mathlib.Data.List.Nodup
import Mathlib.Data.List.Infix
import Mathlib.Data.Nat.Notation
import Mathlib.Tactic.IntervalCases

/-!
# Base 64

Three bytes are four groups of six bits, and a group is a letter of an alphabet of 64.
Texts are written with or without padding; the decoder here is the forgiving one of the
web platform (`atob`), which takes either.

Main results:
- `bytes_groups`: the groups of some bytes give the bytes back.
- `atob_btoa`: so does the decoder.
- `mem_encode`: the letters of an encoding are those of its groups.
-/

namespace GhostKey.Foundation.Base64

abbrev Byte := Fin 256

/-- Six bits. -/
abbrev Group := Fin 64

/-! ## §1 Groups of six bits -/

/-- The six-bit groups of some bytes; the last one is filled up with zero bits. -/
def groups : List Byte → List Group
  | [] => []
  | [a] => [⟨a / 4, by omega⟩, ⟨a % 4 * 16, by omega⟩]
  | [a, b] => [⟨a / 4, by omega⟩, ⟨a % 4 * 16 + b / 16, by omega⟩, ⟨b % 16 * 4, by omega⟩]
  | a :: b :: c :: rest =>
    ⟨a / 4, by omega⟩ :: ⟨a % 4 * 16 + b / 16, by omega⟩ :: ⟨b % 16 * 4 + c / 64, by omega⟩ ::
      ⟨c % 64, by omega⟩ :: groups rest

theorem high_lt (p q : Group) : p.val * 4 + q.val / 16 < 256 := by omega

theorem middle_lt (q r : Group) : q.val % 16 * 16 + r.val / 4 < 256 := by omega

theorem low_lt (r s : Group) : r.val % 4 * 64 + s.val < 256 := by omega

/-- The bytes that groups hold; bits that fill no byte are dropped. -/
def bytes : List Group → List Byte
  | p :: q :: r :: s :: rest =>
    ⟨p * 4 + q / 16, high_lt p q⟩ :: ⟨q % 16 * 16 + r / 4, middle_lt q r⟩ ::
      ⟨r % 4 * 64 + s, low_lt r s⟩ :: bytes rest
  | [p, q, r] => [⟨p * 4 + q / 16, high_lt p q⟩, ⟨q % 16 * 16 + r / 4, middle_lt q r⟩]
  | [p, q] => [⟨p * 4 + q / 16, high_lt p q⟩]
  | _ => []

/-- The groups of some bytes give the bytes back. -/
theorem bytes_groups (bs : List Byte) : bytes (groups bs) = bs := by
  induction bs using groups.induct with
  | case1 => rfl
  | case2 a =>
    simp only [groups, bytes, List.cons.injEq, and_true, Fin.ext_iff]
    omega
  | case3 a b =>
    simp only [groups, bytes, List.cons.injEq, and_true, Fin.ext_iff]
    omega
  | case4 a b c rest ih =>
    simp only [groups, bytes, ih, List.cons.injEq, and_true, Fin.ext_iff]
    omega

theorem length_groups (bs : List Byte) : (groups bs).length = (4 * bs.length + 2) / 3 := by
  induction bs using groups.induct with
  | case1 => rfl
  | case2 a => simp [groups]
  | case3 a b => simp [groups]
  | case4 a b c rest ih =>
    simp only [groups, List.length_cons, ih]
    omega

/-! ## §2 Alphabets -/

/-- Sixty-four letters, none of them the padding character. -/
structure Alphabet where
  letters : List Char
  length_eq : letters.length = 64
  nodup : letters.Nodup
  pad_not_mem : '=' ∉ letters

namespace Alphabet

variable (A : Alphabet)

def letter (x : Group) : Char := A.letters.get (x.cast A.length_eq.symm)

/-- The group a letter stands for. -/
def group (c : Char) : Option Group :=
  if h : A.letters.idxOf c < A.letters.length then
    some ⟨A.letters.idxOf c, by rw [← A.length_eq]; exact h⟩
  else none

theorem letter_mem (x : Group) : A.letter x ∈ A.letters := List.get_mem _ _

theorem letter_injective : Function.Injective A.letter := by
  intro x y eq
  have same := (List.Nodup.get_inj_iff A.nodup).1 eq
  simpa [Fin.ext_iff] using same

theorem group_letter (x : Group) : A.group (A.letter x) = some x := by
  have at_x : A.letters.idxOf (A.letter x) = x := by
    simp only [letter, List.get_eq_getElem]
    exact A.nodup.idxOf_getElem _ _
  have inside : (x : ℕ) < A.letters.length := by
    rw [A.length_eq]
    exact x.isLt
  simp only [group, at_x, inside, dite_true]

/-- The unpadded text of some bytes. -/
def encode (bs : List Byte) : List Char := (groups bs).map A.letter

theorem length_encode (bs : List Byte) : (A.encode bs).length = (4 * bs.length + 2) / 3 := by
  rw [encode, List.length_map, length_groups]

/-- The letters of an encoding are those of its groups. -/
theorem mem_encode {bs : List Byte} {x : Group} : A.letter x ∈ A.encode bs ↔ x ∈ groups bs := by
  rw [encode, List.mem_map_of_injective A.letter_injective]

theorem letter_of_mem_encode {bs : List Byte} {c : Char} (mem : c ∈ A.encode bs) :
    c ∈ A.letters := by
  obtain ⟨x, -, rfl⟩ := List.mem_map.1 mem
  exact A.letter_mem x

/-- A translation of one alphabet into another, letter by letter. -/
theorem map_letter {A B : Alphabet} {f : Char → Char} (eq : A.letters.map f = B.letters)
    (x : Group) : f (A.letter x) = B.letter x := by
  simp only [letter, List.get_eq_getElem, ← eq, List.getElem_map, Fin.val_cast]

theorem mapM_group (gs : List Group) : (gs.map A.letter).mapM A.group = some gs := by
  induction gs with
  | nil => rfl
  | cons x xs ih => simp [List.mapM_cons, A.group_letter, ih]

/-- Read an unpadded text. A text that is not what its bytes encode to is refused: a letter too
many, or bits set in the last letter that belong to no byte. -/
def decode (s : List Char) : Option (List Byte) :=
  (s.mapM A.group).bind fun gs => if groups (bytes gs) = gs then some (bytes gs) else none

theorem decode_encode (bs : List Byte) : A.decode (A.encode bs) = some bs := by
  unfold decode encode
  rw [mapM_group, Option.bind_some, bytes_groups, if_pos rfl]

end Alphabet

/-- Consecutive letters, from `first` on. -/
def run (first : Char) (n : ℕ) : List Char :=
  (List.range n).map fun i => Char.ofNat (first.toNat + i)

/-- What both alphabets begin with: `A` to `Z`, `a` to `z` and `0` to `9`. -/
def alphanumerics : List Char := run 'A' 26 ++ run 'a' 26 ++ run '0' 10

def standard : Alphabet where
  letters := alphanumerics ++ ['+', '/']
  length_eq := by decide
  nodup := by decide +kernel
  pad_not_mem := by decide

def urlSafe : Alphabet where
  letters := alphanumerics ++ ['-', '_']
  length_eq := by decide
  nodup := by decide +kernel
  pad_not_mem := by decide

/-! ## §3 The platform's encoder and decoder -/

/-- What fills `n` letters up to a multiple of four. -/
def padding (n : ℕ) : List Char := List.replicate ((4 - n % 4) % 4) '='

/-- `btoa`. -/
def btoa (bs : List Byte) : List Char :=
  standard.encode bs ++ padding (standard.encode bs).length

def isAsciiWhitespace (c : Char) : Bool := c ∈ ['\t', '\n', '\x0c', '\r', ' ']

/-- A text without the one or two padding characters it ends in. -/
def unpad (s : List Char) : List Char :=
  match s.reverse with
  | '=' :: '=' :: rest => rest.reverse
  | '=' :: rest => rest.reverse
  | _ => s

/-- `atob`, or the exception it throws. -/
def atob (s : List Char) : Option (List Byte) :=
  let data := s.filter fun c => !isAsciiWhitespace c
  let data := if data.length % 4 = 0 then unpad data else data
  if data.length % 4 = 1 then none else (data.mapM standard.group).map bytes

theorem unpad_eq_self {s : List Char} (absent : '=' ∉ s) : unpad s = s := by
  unfold unpad
  split
  · next rest eq => exact absurd (List.mem_reverse.1 (by rw [eq]; simp)) absent
  · next rest eq => exact absurd (List.mem_reverse.1 (by rw [eq]; simp)) absent
  · rfl

/-- At most two padding characters are taken off again. -/
theorem unpad_append {s : List Char} (absent : '=' ∉ s) {k : ℕ} (few : k ≤ 2) :
    unpad (s ++ List.replicate k '=') = s := by
  interval_cases k
  · simpa using unpad_eq_self absent
  · -- the letter in front of the one is not another
    unfold unpad
    simp only [List.replicate_succ, List.replicate_zero, List.reverse_append, List.reverse_cons,
      List.reverse_nil, List.nil_append, List.cons_append]
    split
    · next rest eq =>
      simp only [List.cons.injEq, true_and] at eq
      exact absurd (List.mem_reverse.1 (by rw [eq]; simp)) absent
    · next rest eq =>
      simp only [List.cons.injEq, true_and] at eq
      rw [← eq, List.reverse_reverse]
    · next none => exact absurd rfl (none _)
  · simp [unpad, List.replicate_succ]

theorem standard_not_whitespace : ∀ c ∈ standard.letters, isAsciiWhitespace c = false :=
  Text.forall_mem_of_all (by decide)

theorem mem_padding {n : ℕ} {c : Char} (mem : c ∈ padding n) : c = '=' :=
  List.eq_of_mem_replicate mem

/-- The decoder gives the bytes back. -/
theorem atob_btoa (bs : List Byte) : atob (btoa bs) = some bs := by
  have len := standard.length_encode bs
  have visible : (btoa bs).filter (fun c => !isAsciiWhitespace c) = btoa bs := by
    apply List.filter_eq_self.2
    intro c mem
    rcases List.mem_append.1 mem with inside | pad
    · simp [standard_not_whitespace c (standard.letter_of_mem_encode inside)]
    · rw [mem_padding pad]
      decide
  have whole : (btoa bs).length % 4 = 0 := by
    simp only [btoa, padding, List.length_append, List.length_replicate]
    omega
  have bare : unpad (btoa bs) = standard.encode bs := by
    apply unpad_append
    · intro mem
      exact standard.pad_not_mem (standard.letter_of_mem_encode mem)
    · omega
  have fits : ¬ (standard.encode bs).length % 4 = 1 := by omega
  simp only [atob, visible, whole, if_true, bare, fits, if_false]
  rw [Alphabet.encode, standard.mapM_group, Option.map_some, bytes_groups]

end GhostKey.Foundation.Base64

import Mathlib.Data.List.Basic
import Mathlib.Data.Nat.Notation

/-!
# Compact JSON Objects

Objects whose members are strings or null, written without white space: what a
serializer makes of a flat record. Strings are escaped as JSON serializers commonly do,
with the short escapes where there is one and `\u00XX` for the other control characters.

Main results:
- `readString_quote`: a quoted string is read back, whatever follows it.
- `readObject_object`: so is an object.
- `mem_quote`: what needs no escape stands in a quoted string as it is.
-/

namespace GhostKey.Foundation.Json

/-! ## §1 Writing -/

/-- The characters with a short escape, and its letter. -/
def shorts : List (Char × Char) :=
  [('"', '"'), ('\\', '\\'), ('\n', 'n'), ('\r', 'r'), ('\t', 't'), ('\x08', 'b'), ('\x0c', 'f')]

def escape (c : Char) : List Char :=
  match shorts.find? fun p => p.1 = c with
  | some p => ['\\', p.2]
  | none =>
    if c.toNat < 0x20 then
      ['\\', 'u', '0', '0', Nat.digitChar (c.toNat / 16), Nat.digitChar (c.toNat % 16)]
    else [c]

def quote (s : List Char) : List Char := '"' :: (s.flatMap escape ++ ['"'])

def value : Option (List Char) → List Char
  | none => ['n', 'u', 'l', 'l']
  | some s => quote s

def member (f : List Char × Option (List Char)) : List Char := quote f.1 ++ ':' :: value f.2

def members : List (List Char × Option (List Char)) → List Char
  | [] => []
  | [f] => member f
  | f :: g :: fs => member f ++ ',' :: members (g :: fs)

/-- The text of an object. -/
def object (fields : List (List Char × Option (List Char))) : List Char :=
  '{' :: (members fields ++ ['}'])

/-! ## §2 Reading -/

/-- The value of a hex digit, in lower case. -/
def hexDigit (c : Char) : Option ℕ :=
  (List.range 16).find? fun n => Nat.digitChar n = c

/-- One character of a string, and the rest. -/
def readChar : List Char → Option (Char × List Char)
  | '\\' :: 'u' :: '0' :: '0' :: high :: low :: rest => do
    let h ← hexDigit high
    let l ← hexDigit low
    some (Char.ofNat (16 * h + l), rest)
  | '\\' :: e :: rest => (shorts.find? fun p => p.2 = e).map fun p => (p.1, rest)
  | c :: rest => if c = '\\' ∨ c.toNat < 0x20 then none else some (c, rest)
  | [] => none

/-- A string up to its closing quote, and the rest. -/
def readBody : ℕ → List Char → Option (List Char × List Char)
  | 0, _ => none
  | n + 1, text =>
    match text with
    | '"' :: rest => some ([], rest)
    | _ => do
      let (c, rest) ← readChar text
      let (s, rest) ← readBody n rest
      some (c :: s, rest)

def readString : List Char → Option (List Char × List Char)
  | '"' :: rest => readBody rest.length rest
  | _ => none

def readValue (text : List Char) : Option (Option (List Char) × List Char) :=
  match text with
  | 'n' :: 'u' :: 'l' :: 'l' :: rest => some (none, rest)
  | _ => (readString text).map fun (s, rest) => (some s, rest)

def readMembers : ℕ → List Char → Option (List (List Char × Option (List Char)))
  | 0, _ => none
  | n + 1, text => do
    let (key, rest) ← readString text
    match rest with
    | ':' :: rest =>
      let (val, rest) ← readValue rest
      match rest with
      | ['}'] => some [(key, val)]
      | ',' :: rest => (readMembers n rest).map ((key, val) :: ·)
      | _ => none
    | _ => none

/-- The members of an object's text. -/
def readObject : List Char → Option (List (List Char × Option (List Char)))
  | ['{', '}'] => some []
  | '{' :: rest => readMembers rest.length rest
  | _ => none

/-! ## §3 Reading what is written -/

theorem escape_of_plain {c : Char} (long : shorts.find? (fun p => p.1 = c) = none)
    (printable : ¬ c.toNat < 0x20) : escape c = [c] := by
  simp [escape, long, printable]

/-- What needs no escape stands in a quoted string as it is. -/
theorem mem_quote {c : Char} {s : List Char} (mem : c ∈ s) (plain : escape c = [c]) :
    c ∈ quote s := by
  have inside : c ∈ s.flatMap escape := List.mem_flatMap.2 ⟨c, mem, by simp [plain]⟩
  simp [quote, inside]

theorem escape_ne_nil (c : Char) : escape c ≠ [] := by
  unfold escape
  split
  · simp
  · split <;> simp

theorem hexDigit_digitChar : ∀ n < 16, hexDigit (Nat.digitChar n) = some n := by decide

/-- An escaped character is read back. -/
theorem readChar_escape (c : Char) (rest : List Char) :
    readChar (escape c ++ rest) = some (c, rest) := by
  have pairs : ∀ p ∈ shorts, p.2 ≠ 'u' ∧ shorts.find? (fun q => q.2 = p.2) = some p := by decide
  -- a short form, a `\u00..` form, or the character itself
  cases short : shorts.find? fun p => p.1 = c with
  | some p =>
    have named : p.1 = c := by simpa using List.find?_some short
    obtain ⟨other, back⟩ := pairs p (List.mem_of_find?_eq_some short)
    have written : escape c = ['\\', p.2] := by simp [escape, short]
    rw [written, List.cons_append, List.cons_append, List.nil_append, readChar, back, ← named]
    · rfl
    · intro high low rest' eq
      exact absurd eq other
  | none =>
    by_cases control : c.toNat < 0x20
    · have written : escape c = ['\\', 'u', '0', '0', Nat.digitChar (c.toNat / 16),
          Nat.digitChar (c.toNat % 16)] := by simp [escape, short, control]
      have whole : 16 * (c.toNat / 16) + c.toNat % 16 = c.toNat := Nat.div_add_mod _ _
      simp only [written, List.cons_append, List.nil_append, readChar,
        hexDigit_digitChar _ (show c.toNat / 16 < 16 by omega),
        hexDigit_digitChar _ (show c.toNat % 16 < 16 by omega), Option.bind_eq_bind,
        Option.bind_some, whole, Char.ofNat_toNat]
    · have other : c ≠ '\\' := by
        rintro rfl
        cases short
      rw [escape_of_plain short control, List.singleton_append, readChar]
      · simp [other, control]
      · rintro high low rest' rfl
        exact absurd rfl other
      · rintro e rest' rfl
        exact absurd rfl other

/-- Inside a string no quote stands in front. -/
theorem escape_head (c : Char) (rest : List Char) :
    ∀ rest', escape c ++ rest ≠ '"' :: rest' := by
  intro rest' eq
  unfold escape at eq
  split at eq
  · simp at eq
  · next long =>
    split at eq
    · simp at eq
    · have named : c = '"' := (List.cons.inj eq).1
      subst named
      cases long

theorem readBody_escaped (s rest : List Char) {n : ℕ} (enough : s.length < n) :
    readBody n (s.flatMap escape ++ '"' :: rest) = some (s, rest) := by
  induction s generalizing n with
  | nil =>
    cases n with
    | zero => simp at enough
    | succ n => rfl
  | cons c cs ih =>
    cases n with
    | zero => simp at enough
    | succ n =>
      rw [List.flatMap_cons, List.append_assoc, readBody]
      · rw [readChar_escape]
        simp only [Option.bind_eq_bind, Option.bind_some]
        rw [ih (by simpa using enough)]
        rfl
      · intro rest' eq
        exact escape_head c _ rest' eq

theorem length_le_escaped (s : List Char) : s.length ≤ (s.flatMap escape).length := by
  induction s with
  | nil => simp
  | cons c cs ih =>
    have head : 0 < (escape c).length := List.length_pos_iff.2 (escape_ne_nil c)
    simp only [List.flatMap_cons, List.length_append, List.length_cons]
    omega

/-- A quoted string is read back, whatever follows it. -/
theorem readString_quote (s rest : List Char) :
    readString (quote s ++ rest) = some (s, rest) := by
  have enough := length_le_escaped s
  have shape : quote s ++ rest = '"' :: (s.flatMap escape ++ '"' :: rest) := by simp [quote]
  rw [shape, readString]
  apply readBody_escaped
  simp only [List.length_append, List.length_cons]
  omega

theorem readValue_value (v : Option (List Char)) (rest : List Char) :
    readValue (value v ++ rest) = some (v, rest) := by
  cases v with
  | none => rfl
  | some s =>
    rw [value, readValue, readString_quote]
    · rfl
    · intro rest' eq
      simp [quote] at eq

theorem readMembers_members (f : List Char × Option (List Char))
    (fs : List (List Char × Option (List Char))) {n : ℕ} (enough : fs.length < n) :
    readMembers n (members (f :: fs) ++ ['}']) = some (f :: fs) := by
  induction fs generalizing f n with
  | nil =>
    cases n with
    | zero => simp at enough
    | succ n =>
      have shape : members [f] ++ ['}'] = quote f.1 ++ ':' :: (value f.2 ++ ['}']) := by
        simp [members, member]
      rw [shape, readMembers, readString_quote]
      simp only [Option.bind_eq_bind, Option.bind_some, readValue_value]
  | cons g gs ih =>
    cases n with
    | zero => simp at enough
    | succ n =>
      have shape : members (f :: g :: gs) ++ ['}'] =
          quote f.1 ++ ':' :: (value f.2 ++ ',' :: (members (g :: gs) ++ ['}'])) := by
        simp [members, member]
      rw [shape, readMembers, readString_quote]
      simp only [Option.bind_eq_bind, Option.bind_some, readValue_value]
      rw [ih g (by simpa using enough)]
      rfl

theorem length_le_members (fs : List (List Char × Option (List Char))) :
    fs.length ≤ (members fs).length := by
  match fs with
  | [] => simp
  | [f] =>
    simp only [members, member, List.length_append, List.length_cons, List.length_nil]
    omega
  | f :: g :: gs =>
    have rest := length_le_members (g :: gs)
    simp only [members, List.length_append, List.length_cons] at *
    omega

/-- An object's text is read back. -/
theorem readObject_object (fields : List (List Char × Option (List Char))) :
    readObject (object fields) = some fields := by
  cases fields with
  | nil => rfl
  | cons f fs =>
    have enough := length_le_members (f :: fs)
    rw [object, readObject]
    · apply readMembers_members
      simp only [List.length_append, List.length_cons] at *
      omega
    · intro eq
      have len := congrArg List.length eq
      simp only [List.length_append, List.length_cons, List.length_nil] at len enough
      omega

end GhostKey.Foundation.Json

import GhostKey.Foundation.Json
import GhostKey.Foundation.Text

/-!
# JSON over an Alphabet of Its Own

Objects whose members are strings, natural numbers or null, where the strings are over an
alphabet that need not be that of the text: a language's strings may hold units no text
can, and a text may be escaped further than it has to be. How a unit is written and read
back is an `Escaping`.

Main results:
- `readString_quote`: a quoted string is read back, whatever follows it.
- `readObject_object`: so is an object.
- `flatMap_object`: to replace characters of an object's text that stand in its strings only
  is to escape those strings in another way.
- `infix_object_iff`: a word that is all of one string's letters occurs in the text where it
  occurs in a string.
-/

namespace GhostKey.Foundation.JsonText

/-- How the units of a string are written inside quotes, and read. -/
structure Escaping (γ : Type*) where
  write : γ → List Char
  read : List Char → Option (γ × List Char)
  read_write : ∀ c rest, read (write c ++ rest) = some (c, rest)
  head : ∀ c rest rest', write c ++ rest ≠ '"' :: rest'

inductive Val (γ : Type*) where
  | null
  | text (s : List γ)
  | number (n : ℕ)
  deriving DecidableEq

/-- The members of an object, in order. -/
abbrev Object (γ : Type*) := List (List γ × Val γ)

variable {γ : Type*} (E : Escaping γ)

/-! ## §1 Writing -/

def quote (s : List γ) : List Char := '"' :: (s.flatMap E.write ++ ['"'])

def value : Val γ → List Char
  | .null => ['n', 'u', 'l', 'l']
  | .text s => quote E s
  | .number n => Nat.toDigits 10 n

def member (f : List γ × Val γ) : List Char := quote E f.1 ++ ':' :: value E f.2

def members : Object γ → List Char
  | [] => []
  | [f] => member E f
  | f :: g :: fs => member E f ++ ',' :: members (g :: fs)

/-- The text of an object. -/
def object (fields : Object γ) : List Char := '{' :: (members E fields ++ ['}'])

/-! ## §2 Reading -/

section Read

variable (read : List Char → Option (γ × List Char))

/-- A string up to its closing quote, and the rest. -/
def readBody : ℕ → List Char → Option (List γ × List Char)
  | 0, _ => none
  | n + 1, text =>
    match text with
    | '"' :: rest => some ([], rest)
    | _ => do
      let (c, rest) ← read text
      let (s, rest) ← readBody n rest
      some (c :: s, rest)

def readString : List Char → Option (List γ × List Char)
  | '"' :: rest => readBody read rest.length rest
  | _ => none

def readNumber (text : List Char) : Option (ℕ × List Char) :=
  match text.takeWhile Char.isDigit with
  | [] => none
  | digits => some (Nat.ofDigitChars 10 digits 0, text.dropWhile Char.isDigit)

def readValue (text : List Char) : Option (Val γ × List Char) :=
  match text with
  | 'n' :: 'u' :: 'l' :: 'l' :: rest => some (.null, rest)
  | '"' :: _ => (readString read text).map fun (s, rest) => (.text s, rest)
  | _ => (readNumber text).map fun (n, rest) => (.number n, rest)

def readMembers : ℕ → List Char → Option (Object γ)
  | 0, _ => none
  | n + 1, text => do
    let (key, rest) ← readString read text
    match rest with
    | ':' :: rest =>
      let (val, rest) ← readValue read rest
      match rest with
      | ['}'] => some [(key, val)]
      | ',' :: rest => (readMembers n rest).map ((key, val) :: ·)
      | _ => none
    | _ => none

/-- The members of an object's text. -/
def readObject : List Char → Option (Object γ)
  | ['{', '}'] => some []
  | '{' :: rest => readMembers read rest.length rest
  | _ => none

end Read

/-! ## §3 Reading what is written -/

theorem write_ne_nil (c : γ) : E.write c ≠ [] := by
  intro empty
  have head := E.head c ['"'] []
  rw [empty] at head
  exact head rfl

theorem readBody_written (s : List γ) (rest : List Char) {n : ℕ} (enough : s.length < n) :
    readBody E.read n (s.flatMap E.write ++ '"' :: rest) = some (s, rest) := by
  induction s generalizing n with
  | nil =>
    cases n with
    | zero => simp at enough
    | succ n => rfl
  | cons c cs ih =>
    cases n with
    | zero => simp at enough
    | succ n =>
      rw [List.flatMap_cons, List.append_assoc, readBody]
      · rw [E.read_write]
        simp only [Option.bind_eq_bind, Option.bind_some]
        rw [ih (by simpa using enough)]
        rfl
      · intro rest' eq
        exact E.head c _ rest' eq

theorem length_le_written (s : List γ) : s.length ≤ (s.flatMap E.write).length := by
  induction s with
  | nil => simp
  | cons c cs ih =>
    have head : 0 < (E.write c).length := List.length_pos_iff.2 (write_ne_nil E c)
    simp only [List.flatMap_cons, List.length_append, List.length_cons]
    omega

/-- A quoted string is read back, whatever follows it. -/
theorem readString_quote (s : List γ) (rest : List Char) :
    readString E.read (quote E s ++ rest) = some (s, rest) := by
  have enough := length_le_written E s
  have shape : quote E s ++ rest = '"' :: (s.flatMap E.write ++ '"' :: rest) := by simp [quote]
  rw [shape, readString]
  apply readBody_written
  simp only [List.length_append, List.length_cons]
  omega

/-- A number is read back when no digit follows it. -/
theorem readNumber_toDigits (n : ℕ) {d : Char} (stops : d.isDigit = false) (rest : List Char) :
    readNumber (Nat.toDigits 10 n ++ d :: rest) = some (n, d :: rest) := by
  have digits : ∀ c ∈ Nat.toDigits 10 n, c.isDigit = true :=
    fun c mem => Nat.isDigit_of_mem_toDigits (by decide) (by decide) mem
  have front : (Nat.toDigits 10 n ++ d :: rest).takeWhile Char.isDigit = Nat.toDigits 10 n := by
    rw [List.takeWhile_append_of_pos digits, List.takeWhile_cons_of_neg (by simp [stops]),
      List.append_nil]
  have back : (Nat.toDigits 10 n ++ d :: rest).dropWhile Char.isDigit = d :: rest := by
    rw [List.dropWhile_append_of_pos digits, List.dropWhile_cons_of_neg (by simp [stops])]
  unfold readNumber
  rw [front, back]
  cases written : Nat.toDigits 10 n with
  | nil => exact absurd written Nat.toDigits_ne_nil
  | cons c cs =>
    dsimp only
    rw [← written, Nat.ofDigitChars_toDigits (by decide) (by decide)]

theorem readValue_value (v : Val γ) {d : Char} (stops : d.isDigit = false) (rest : List Char) :
    readValue E.read (value E v ++ d :: rest) = some (v, d :: rest) := by
  cases v with
  | null => rfl
  | text s =>
    have shape : value E (.text s) ++ d :: rest =
        '"' :: (s.flatMap E.write ++ ['"'] ++ d :: rest) := by simp [value, quote]
    have read := readString_quote E s (d :: rest)
    rw [shape, readValue]
    rw [show quote E s ++ d :: rest = '"' :: (s.flatMap E.write ++ ['"'] ++ d :: rest) from
      shape] at read
    rw [read]
    rfl
  | number n =>
    have read := readNumber_toDigits n stops rest
    -- a digit begins neither of the other two kinds of value
    obtain ⟨c, cs, written, digit⟩ : ∃ c cs, Nat.toDigits 10 n = c :: cs ∧ c.isDigit = true := by
      cases written : Nat.toDigits 10 n with
      | nil => exact absurd written Nat.toDigits_ne_nil
      | cons c cs =>
        have mem : c ∈ Nat.toDigits 10 n := by rw [written]; exact .head cs
        exact ⟨c, cs, rfl, Nat.isDigit_of_mem_toDigits (by decide) (by decide) mem⟩
    rw [value, readValue]
    · rw [read]
      rfl
    · intro rest' eq
      rw [written] at eq
      rw [(List.cons.inj eq).1] at digit
      cases digit
    · intro rest' eq
      rw [written] at eq
      rw [(List.cons.inj eq).1] at digit
      cases digit

theorem readMembers_members (f : List γ × Val γ) (fs : Object γ) {n : ℕ}
    (enough : fs.length < n) :
    readMembers E.read n (members E (f :: fs) ++ ['}']) = some (f :: fs) := by
  induction fs generalizing f n with
  | nil =>
    cases n with
    | zero => simp at enough
    | succ n =>
      have shape : members E [f] ++ ['}'] = quote E f.1 ++ ':' :: (value E f.2 ++ ['}']) := by
        simp [members, member]
      rw [shape, readMembers, readString_quote]
      simp only [Option.bind_eq_bind, Option.bind_some]
      rw [readValue_value E f.2 (by decide)]
      rfl
  | cons g gs ih =>
    cases n with
    | zero => simp at enough
    | succ n =>
      have shape : members E (f :: g :: gs) ++ ['}'] =
          quote E f.1 ++ ':' :: (value E f.2 ++ ',' :: (members E (g :: gs) ++ ['}'])) := by
        simp [members, member]
      rw [shape, readMembers, readString_quote]
      simp only [Option.bind_eq_bind, Option.bind_some]
      rw [readValue_value E f.2 (by decide)]
      simp only [Option.bind_some]
      rw [ih g (by simpa using enough)]
      rfl

theorem length_le_members (fs : Object γ) : fs.length ≤ (members E fs).length := by
  match fs with
  | [] => simp
  | [f] =>
    simp only [members, member, List.length_append, List.length_cons, List.length_nil]
    omega
  | f :: g :: gs =>
    have rest := length_le_members (g :: gs)
    simp only [members, List.length_append, List.length_cons] at *
    omega

/-- An object's text is read back. -/
theorem readObject_object (fields : Object γ) :
    readObject E.read (object E fields) = some fields := by
  cases fields with
  | nil => rfl
  | cons f fs =>
    have enough := length_le_members E (f :: fs)
    rw [object, readObject]
    · apply readMembers_members
      simp only [List.length_append, List.length_cons] at *
      omega
    · intro eq
      have len := congrArg List.length eq
      simp only [List.length_append, List.length_cons, List.length_nil] at len enough
      omega

/-! ## §4 What stands in the text -/

/-- The characters that stand in an object's text outside its strings. -/
def Structural (c : Char) : Prop :=
  c ∈ ['{', '}', ',', ':', '"', 'n', 'u', 'l'] ∨ c.isDigit = true

theorem structural_of_mem_toDigits {n : ℕ} {c : Char} (mem : c ∈ Nat.toDigits 10 n) :
    Structural c :=
  .inr (Nat.isDigit_of_mem_toDigits (by decide) (by decide) mem)

theorem structural_of_mem_null {c : Char} (mem : c ∈ ['n', 'u', 'l', 'l']) : Structural c :=
  .inl (Text.forall_mem_of_all (by decide) c mem)

section Letters

variable {E}

theorem mem_quote {s : List γ} {x : Char} (mem : x ∈ quote E s) :
    Structural x ∨ ∃ c, x ∈ E.write c := by
  rw [quote, List.mem_cons, List.mem_append, List.mem_flatMap, List.mem_singleton] at mem
  rcases mem with rfl | ⟨c, -, inside⟩ | rfl
  · exact .inl (.inl (by decide))
  · exact .inr ⟨c, inside⟩
  · exact .inl (.inl (by decide))

theorem mem_value {v : Val γ} {x : Char} (mem : x ∈ value E v) :
    Structural x ∨ ∃ c, x ∈ E.write c := by
  cases v with
  | null =>
    exact .inl (structural_of_mem_null mem)
  | text s => exact mem_quote mem
  | number n => exact .inl (structural_of_mem_toDigits mem)

theorem mem_members {fs : Object γ} {x : Char} (mem : x ∈ members E fs) :
    Structural x ∨ ∃ c, x ∈ E.write c := by
  have inMember : ∀ f, x ∈ member E f → Structural x ∨ ∃ c, x ∈ E.write c := by
    intro f inside
    rw [member, List.mem_append, List.mem_cons] at inside
    rcases inside with key | rfl | val
    · exact mem_quote key
    · exact .inl (.inl (by decide))
    · exact mem_value val
  match fs with
  | [] => cases mem
  | [f] => exact inMember f mem
  | f :: g :: fs =>
    rw [members, List.mem_append, List.mem_cons] at mem
    rcases mem with first | rfl | rest
    · exact inMember f first
    · exact .inl (.inl (by decide))
    · exact mem_members rest

/-- Every character of an object's text is structural or stands for a unit of a string. -/
theorem mem_object {fields : Object γ} {x : Char} (mem : x ∈ object E fields) :
    Structural x ∨ ∃ c, x ∈ E.write c := by
  rw [object, List.mem_cons, List.mem_append, List.mem_singleton] at mem
  rcases mem with rfl | inside | rfl
  · exact .inl (.inl (by decide))
  · exact mem_members inside
  · exact .inl (.inl (by decide))

end Letters

section Replace

variable {E} {E' : Escaping γ} {r : Char → List Char}
  (spared : ∀ c, Structural c → r c = [c]) (again : ∀ c, E'.write c = (E.write c).flatMap r)

include spared again

theorem flatMap_quote (s : List γ) : (quote E s).flatMap r = quote E' s := by
  have quoted : r '"' = ['"'] := spared _ (.inl (by decide))
  have body : (s.flatMap E.write).flatMap r = s.flatMap E'.write := by
    rw [List.flatMap_assoc]
    exact List.flatMap_congr fun c _ => (again c).symm
  simp only [quote, List.flatMap_cons, List.flatMap_append, List.flatMap_nil, quoted, body]
  rfl

theorem flatMap_value (v : Val γ) : (value E v).flatMap r = value E' v := by
  cases v with
  | null =>
    have n : r 'n' = ['n'] := spared _ (.inl (by decide))
    have u : r 'u' = ['u'] := spared _ (.inl (by decide))
    have l : r 'l' = ['l'] := spared _ (.inl (by decide))
    simp only [value, List.flatMap_cons, List.flatMap_nil, n, u, l]
    rfl
  | text s => exact flatMap_quote spared again s
  | number n =>
    have same : (Nat.toDigits 10 n).flatMap r = (Nat.toDigits 10 n).flatMap fun c => [c] :=
      List.flatMap_congr fun c mem => spared c (structural_of_mem_toDigits mem)
    exact same.trans (List.flatMap_singleton' _)

theorem flatMap_member (f : List γ × Val γ) : (member E f).flatMap r = member E' f := by
  have colon : r ':' = [':'] := spared _ (.inl (by decide))
  rw [member, List.flatMap_append, List.flatMap_cons, colon, flatMap_quote spared again,
    flatMap_value spared again]
  rfl

theorem flatMap_members (fs : Object γ) : (members E fs).flatMap r = members E' fs := by
  match fs with
  | [] => rfl
  | [f] => exact flatMap_member spared again f
  | f :: g :: fs =>
    have comma : r ',' = [','] := spared _ (.inl (by decide))
    have rest := flatMap_members (g :: fs)
    rw [members, List.flatMap_append, List.flatMap_cons, comma, flatMap_member spared again, rest]
    rfl

/-- Replacing characters in an object's text is escaping its strings in another way, when none
of those characters stands outside the strings. -/
theorem flatMap_object (fields : Object γ) : (object E fields).flatMap r = object E' fields := by
  have opens : r '{' = ['{'] := spared _ (.inl (by decide))
  have closes : r '}' = ['}'] := spared _ (.inl (by decide))
  rw [object, List.flatMap_cons, List.flatMap_append, List.flatMap_cons, List.flatMap_nil, opens,
    closes, flatMap_members spared again]
  rfl

end Replace

section Words

variable {E} {word : List Char} {g : Char → γ} (nonempty : word ≠ [])
  (letters : ∀ c ∈ word, ¬ Structural c) (spares : Text.Spares word E.write g)

include nonempty letters

theorem not_infix_structural {s : List Char} (structural : ∀ c ∈ s, Structural c) :
    ¬ word <:+: s := by
  intro inside
  cases word with
  | nil => exact nonempty rfl
  | cons c w => exact letters c (.head w) (structural c (inside.subset (.head w)))

include spares

theorem infix_quote_iff (s : List γ) : word <:+: quote E s ↔ word.map g <:+: s := by
  have quoted : '"' ∉ word := fun mem => letters _ mem (.inl (by decide))
  have front : quote E s = [] ++ '"' :: (s.flatMap E.write ++ '"' :: []) := rfl
  rw [front, Text.infix_append_cons_iff quoted, Text.infix_append_cons_iff quoted,
    spares.infix_flatMap_iff nonempty]
  simp [nonempty]

theorem infix_value_iff (v : Val γ) :
    word <:+: value E v ↔ ∃ s, v = .text s ∧ word.map g <:+: s := by
  cases v with
  | null =>
    have none := not_infix_structural nonempty letters fun c mem => structural_of_mem_null mem
    simp [value, none]
  | text s =>
    rw [value, infix_quote_iff nonempty letters spares]
    simp
  | number n =>
    have none := not_infix_structural nonempty letters (s := Nat.toDigits 10 n)
      fun c mem => structural_of_mem_toDigits mem
    simp [value, none]

/-- The word stands in a member: in its name or in its string. -/
def InMember (word : List γ) (f : List γ × Val γ) : Prop :=
  word <:+: f.1 ∨ ∃ s, f.2 = .text s ∧ word <:+: s

theorem infix_member_iff (f : List γ × Val γ) :
    word <:+: member E f ↔ InMember (word.map g) f := by
  have colon : ':' ∉ word := fun mem => letters _ mem (.inl (by decide))
  rw [member, Text.infix_append_cons_iff colon, infix_quote_iff nonempty letters spares,
    infix_value_iff nonempty letters spares, InMember]

theorem infix_members_iff (fs : Object γ) :
    word <:+: members E fs ↔ ∃ f ∈ fs, InMember (word.map g) f := by
  match fs with
  | [] => simp [members, nonempty]
  | [f] => simp [members, infix_member_iff nonempty letters spares]
  | f :: h :: fs =>
    have comma : ',' ∉ word := fun mem => letters _ mem (.inl (by decide))
    rw [members, Text.infix_append_cons_iff comma, infix_member_iff nonempty letters spares,
      infix_members_iff (h :: fs)]
    simp

/-- Such a word occurs in an object's text where it occurs in a name or a string. -/
theorem infix_object_iff (fields : Object γ) :
    word <:+: object E fields ↔ ∃ f ∈ fields, InMember (word.map g) f := by
  have opens : '{' ∉ word := fun mem => letters _ mem (.inl (by decide))
  have closes : '}' ∉ word := fun mem => letters _ mem (.inl (by decide))
  have front : object E fields = [] ++ '{' :: (members E fields ++ '}' :: []) := rfl
  rw [front, Text.infix_append_cons_iff opens, Text.infix_append_cons_iff closes,
    infix_members_iff nonempty letters spares]
  simp [nonempty]

end Words

end GhostKey.Foundation.JsonText

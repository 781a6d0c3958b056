import GhostKey.Foundation.Numeral
import GhostKey.PushGuard

/-!
# Addresses as Texts

How the standard library reads an IP address from a text and writes it down. An IPv6 address is
written with its first longest run of zero groups left out, and may be read in many other ways.

Layers:
1. the parser, a function on texts that gives what it read and what is left;
2. `Display`;
3. `parse_text`: what is written is read back, so that two addresses never look the same.
-/

namespace GhostKey

open Foundation PushGuard

namespace IpText

/-! ## §1 Reading -/

/-- `read_given_char`. -/
def readGivenChar (target : Char) : List Char → Option (List Char)
  | c :: s => if c = target then some s else none
  | [] => none

/-- `read_separator`, before all parts but the first. -/
def readSeparator {α : Type} (sep : Char) (first : Bool)
    (inner : List Char → Option (α × List Char)) (s : List Char) : Option (α × List Char) :=
  if first then inner s else (readGivenChar sep s).bind inner

/-- `read_number`, of a type whose values are below `bound`. -/
def readNumber (radix maxDigits : ℕ) (allowZeroPrefix : Bool) (bound : ℕ) (s : List Char) :
    Option (ℕ × List Char) :=
  let digits := s.takeWhile (Numeral.isDigit radix)
  if maxDigits < digits.length then none
  else if digits = [] then none
  else if !allowZeroPrefix && s.head? = some '0' && 1 < digits.length then none
  else if Numeral.value radix digits < bound then
    some (Numeral.value radix digits, s.dropWhile (Numeral.isDigit radix))
  else none

/-- `read_ipv4_addr`. -/
def readIpv4Addr (s : List Char) : Option (Ipv4Addr × List Char) :=
  let octet := fun first => readSeparator '.' first (readNumber 10 3 false 256)
  (octet true s).bind fun (a, s) => (octet false s).bind fun (b, s) =>
    (octet false s).bind fun (c, s) => (octet false s).bind fun (d, s) =>
      some (⟨.ofNat a, .ofNat b, .ofNat c, .ofNat d⟩, s)

/-- The two groups of an embedded IPv4 address. -/
def v4Groups (ip : Ipv4Addr) : List UInt16 :=
  [ip.o0.toUInt16 * 256 + ip.o1.toUInt16, ip.o2.toUInt16 * 256 + ip.o3.toUInt16]

/-- `read_groups`, with room for `room` more of them. -/
def readGroups (first : Bool) : ℕ → List Char → List UInt16 × Bool × List Char
  | 0, s => ([], false, s)
  | room + 1, s =>
      -- an IPv4 address needs room for two groups
      match if 0 < room then readSeparator ':' first readIpv4Addr s else none with
      | some (ip, s) => (v4Groups ip, true, s)
      | none =>
          match readSeparator ':' first (readNumber 16 4 true 65536) s with
          | some (g, s) =>
              let (gs, v4, s) := readGroups false room s
              (.ofNat g :: gs, v4, s)
          | none => ([], false, s)

/-- The address of eight groups. -/
def ofGroups (gs : List UInt16) : Ipv6Addr :=
  ⟨gs.getD 0 0, gs.getD 1 0, gs.getD 2 0, gs.getD 3 0, gs.getD 4 0, gs.getD 5 0, gs.getD 6 0,
    gs.getD 7 0⟩

/-- `read_ipv6_addr`. -/
def readIpv6Addr (s : List Char) : Option (Ipv6Addr × List Char) :=
  let (head, head_v4, s) := readGroups true 8 s
  if head.length = 8 then some (ofGroups head, s)
  -- an IPv4 address before the double colon
  else if head_v4 then none
  else
    (readGivenChar ':' s).bind fun s => (readGivenChar ':' s).bind fun s =>
      let (tail, _, s) := readGroups true (8 - (head.length + 1)) s
      some (ofGroups (head ++ List.replicate (8 - head.length - tail.length) 0 ++ tail), s)

/-- `read_ip_addr`. -/
def readIpAddr (s : List Char) : Option (IpAddr × List Char) :=
  match readIpv4Addr s with
  | some (ip, s) => some (.v4 ip, s)
  | none => (readIpv6Addr s).map fun (ip, s) => (.v6 ip, s)

/-- `IpAddr::from_str`: nothing may be left. -/
def parse (s : List Char) : Option IpAddr :=
  match readIpAddr s with
  | some (ip, []) => some ip
  | _ => none

/-! ## §2 Writing -/

def segments (ip : Ipv6Addr) : List UInt16 :=
  [ip.s0, ip.s1, ip.s2, ip.s3, ip.s4, ip.s5, ip.s6, ip.s7]

structure Span where
  start : ℕ
  len : ℕ
  deriving DecidableEq

/-- The longest run of zeros, the first of that length; `i` groups have been seen. -/
def longestZeros (i : ℕ) (longest current : Span) : List UInt16 → Span
  | [] => longest
  | g :: gs =>
      if g = 0 then
        let current := ⟨if current.len = 0 then i else current.start, current.len + 1⟩
        longestZeros (i + 1) (if longest.len < current.len then current else longest) current gs
      else longestZeros (i + 1) longest ⟨0, 0⟩ gs

def dec (o : UInt8) : List Char := Nat.toDigits 10 o.toNat

def hex (g : UInt16) : List Char := Nat.toDigits 16 g.toNat

/-- `fmt_subslice`. -/
def fmtSubslice : List UInt16 → List Char
  | [] => []
  | first :: tail => hex first ++ tail.flatMap fun g => ':' :: hex g

def v4Text (ip : Ipv4Addr) : List Char :=
  dec ip.o0 ++ '.' :: (dec ip.o1 ++ '.' :: (dec ip.o2 ++ '.' :: dec ip.o3))

def v6Text (ip : Ipv6Addr) : List Char :=
  match ip.toIpv4Mapped with
  | some v4 => "::ffff:".toList ++ v4Text v4
  | none =>
      let zeroes := longestZeros 0 ⟨0, 0⟩ ⟨0, 0⟩ (segments ip)
      if 1 < zeroes.len then
        fmtSubslice ((segments ip).take zeroes.start) ++
          ':' :: ':' :: fmtSubslice ((segments ip).drop (zeroes.start + zeroes.len))
      else fmtSubslice (segments ip)

/-- `IpAddr::to_string`. -/
def text : IpAddr → List Char
  | .v4 ip => v4Text ip
  | .v6 ip => v6Text ip

/-! ## §3 Numbers and octets -/

/-- What comes after a number: nothing, or a letter that is no digit. -/
def Stops (radix : ℕ) (rest : List Char) : Prop :=
  ∀ c ∈ rest.head?, Numeral.isDigit radix c = false

theorem stops_nil (radix : ℕ) : Stops radix [] := by
  rintro c ⟨⟩

theorem stops_cons {radix : ℕ} {c : Char} (stop : Numeral.isDigit radix c = false)
    (s : List Char) : Stops radix (c :: s) := by
  rintro d ⟨⟩
  exact stop

theorem readNumber_digits {radix max bound n : ℕ} (allow : Bool) {rest : List Char}
    (one_lt : 1 < radix) (le : radix ≤ 16) (short : n < radix ^ max) (max_pos : 0 < max)
    (small : n < bound) (stop : Stops radix rest) :
    readNumber radix max allow bound (Nat.toDigits radix n ++ rest) = some (n, rest) := by
  have length_le := (Nat.length_toDigits_le_iff one_lt max_pos).2 short
  have padded : (!allow && (Nat.toDigits radix n ++ rest).head? = some '0' &&
      1 < (Nat.toDigits radix n).length) = false := by
    rcases Nat.eq_zero_or_pos n with rfl | pos
    · simp [Nat.toDigits_zero]
    · have head := Numeral.head_toDigits one_lt le pos
      rw [List.head?_append_of_ne_nil _ Nat.toDigits_ne_nil]
      simp [head]
  unfold readNumber
  simp only [Numeral.takeWhile_digits one_lt le stop, Numeral.dropWhile_digits one_lt le stop,
    Numeral.value_toDigits one_lt le, padded, Nat.toDigits_ne_nil, small, Nat.not_lt.2 length_le]
  simp

/-- No number is read where no digit stands. -/
theorem readNumber_stop (max bound : ℕ) (allow : Bool) {radix : ℕ} {rest : List Char}
    (stop : Stops radix rest) : readNumber radix max allow bound rest = none := by
  have nothing : rest.takeWhile (Numeral.isDigit radix) = [] := by
    cases rest with
    | nil => rfl
    | cons c rest => simp [stop c rfl]
  simp [readNumber, nothing]

theorem readNumber_left {radix max bound n : ℕ} {allow : Bool} {s rest : List Char}
    (read : readNumber radix max allow bound s = some (n, rest)) :
    rest = s.dropWhile (Numeral.isDigit radix) := by
  unfold readNumber at read
  simp only at read
  split_ifs at read
  cases read
  rfl

theorem readOctet_dec (o : UInt8) {rest : List Char} (stop : Stops 10 rest) :
    readNumber 10 3 false 256 (dec o ++ rest) = some (o.toNat, rest) := by
  have lt := o.toNat_lt
  exact readNumber_digits false (by decide) (by decide) (by omega) (by decide) lt stop

theorem readGroup_hex (g : UInt16) {rest : List Char} (stop : Stops 16 rest) :
    readNumber 16 4 true 65536 (hex g ++ rest) = some (g.toNat, rest) := by
  have lt := g.toNat_lt
  exact readNumber_digits true (by decide) (by decide) (by omega) (by decide) lt stop

/-! ## §4 IPv4 addresses -/

theorem readIpv4Addr_text (ip : Ipv4Addr) {rest : List Char} (stop : Stops 10 rest) :
    readIpv4Addr (v4Text ip ++ rest) = some (ip, rest) := by
  have dot : ∀ s, Stops 10 ('.' :: s) := stops_cons (by decide)
  have whole : v4Text ip ++ rest =
      dec ip.o0 ++ '.' :: (dec ip.o1 ++ '.' :: (dec ip.o2 ++ '.' :: (dec ip.o3 ++ rest))) := by
    simp [v4Text]
  have octet : ∀ (o : UInt8) (s : List Char), Stops 10 s →
      readSeparator '.' false (readNumber 10 3 false 256) ('.' :: (dec o ++ s)) =
        some (o.toNat, s) := by
    intro o s stop
    simp [readSeparator, readGivenChar, readOctet_dec o stop]
  have first : readSeparator '.' true (readNumber 10 3 false 256)
      (dec ip.o0 ++ '.' :: (dec ip.o1 ++ '.' :: (dec ip.o2 ++ '.' :: (dec ip.o3 ++ rest)))) =
        some (ip.o0.toNat, '.' :: (dec ip.o1 ++ '.' :: (dec ip.o2 ++ '.' :: (dec ip.o3 ++ rest)))) :=
    readOctet_dec ip.o0 (dot _)
  rw [whole, readIpv4Addr]
  simp only [first, Option.bind_some, octet ip.o1 _ (dot _), octet ip.o2 _ (dot _),
    octet ip.o3 _ stop, UInt8.ofNat_toNat]

/-- What comes after a group: nothing, or a colon. -/
def Bounded (rest : List Char) : Prop := ∀ c ∈ rest.head?, c = ':'

theorem bounded_nil : Bounded [] := by
  rintro c ⟨⟩

theorem bounded_cons (s : List Char) : Bounded (':' :: s) := by
  rintro c ⟨⟩
  rfl

theorem Bounded.stops {radix : ℕ} {rest : List Char} (bounded : Bounded rest)
    (le : radix ≤ 36) : Stops radix rest := by
  intro c mem
  rw [bounded c mem, Numeral.isDigit, decide_eq_false_iff_not]
  exact Nat.not_lt.2 le

/-- A group of hexadecimal digits is no beginning of an IPv4 address. -/
theorem readIpv4Addr_hex (g : UInt16) {rest : List Char} (bounded : Bounded rest) :
    readIpv4Addr (hex g ++ rest) = none := by
  have dotless : ∀ c ∈ hex g, c ≠ '.' := by
    rintro c mem rfl
    exact absurd (Numeral.isDigit_of_mem (by decide) (by decide) mem) (by decide)
  -- what the first octet leaves begins with a digit or a colon
  have head : ∀ c ∈ ((hex g ++ rest).dropWhile (Numeral.isDigit 10)).head?, c ≠ '.' := by
    intro c mem
    rw [List.dropWhile_append] at mem
    split at mem
    · cases rest with
      | nil => cases mem
      | cons d rest =>
        rw [bounded d rfl] at mem
        cases mem
        decide
    · next left =>
      have nonempty : (hex g).dropWhile (Numeral.isDigit 10) ≠ [] := by simpa using left
      rw [List.head?_append_of_ne_nil _ nonempty] at mem
      exact dotless c (List.dropWhile_sublist _ |>.subset (List.mem_of_mem_head? mem))
  unfold readIpv4Addr
  simp only [Option.bind_eq_none_iff]
  rintro ⟨a, s⟩ read
  have left := readNumber_left read
  have none : readSeparator '.' false (readNumber 10 3 false 256) s = none := by
    rw [readSeparator, if_neg (by decide), left]
    cases shape : (hex g ++ rest).dropWhile (Numeral.isDigit 10) with
    | nil => rfl
    | cons c s =>
      rw [shape] at head
      rw [readGivenChar, if_neg (head c rfl), Option.bind_none]
  rintro ⟨b, s⟩ second
  rw [none] at second
  cases second

theorem readIpv4Addr_stop {rest : List Char} (stop : Stops 10 rest) : readIpv4Addr rest = none := by
  simp [readIpv4Addr, readSeparator, readNumber_stop 3 256 false stop]

/-! ## §5 Groups -/

/-- What separates a group from the one before it. -/
def sep (first : Bool) : List Char := if first then [] else [':']

theorem readSeparator_sep {α : Type} (first : Bool) (inner : List Char → Option (α × List Char))
    (s : List Char) : readSeparator ':' first inner (sep first ++ s) = inner s := by
  cases first
  · simp [readSeparator, readGivenChar, sep]
  · rfl

theorem readGroups_cons (first : Bool) (room : ℕ) (g : UInt16) {rest : List Char}
    (bounded : Bounded rest) :
    readGroups first (room + 1) (sep first ++ (hex g ++ rest)) =
      (g :: (readGroups false room rest).1, (readGroups false room rest).2) := by
  have no_v4 : (if 0 < room then readSeparator ':' first readIpv4Addr (sep first ++ (hex g ++ rest))
      else none) = none := by
    rw [readSeparator_sep, readIpv4Addr_hex g bounded, ite_self]
  rw [readGroups, no_v4]
  simp only [readSeparator_sep, readGroup_hex g (bounded.stops (by decide)), UInt16.ofNat_toNat]

/-- What comes after the groups: nothing, or a double colon. -/
def Ends (rest : List Char) : Prop := rest = [] ∨ ∃ s, rest = ':' :: ':' :: s

theorem Ends.bounded {rest : List Char} (ends : Ends rest) : Bounded rest := by
  rcases ends with rfl | ⟨s, rfl⟩
  · exact bounded_nil
  · exact bounded_cons _

theorem readGroups_end (first : Bool) (room : ℕ) {rest : List Char} (ends : Ends rest) :
    readGroups first room rest = ([], false, rest) := by
  have colon : ∀ radix ≤ 36, ∀ s, Stops radix (':' :: s) := fun radix le s =>
    (bounded_cons s).stops le
  cases room with
  | zero => rfl
  | succ room =>
    -- neither an address nor a number begins at the end or at the second colon
    have no_v4 : readSeparator ':' first readIpv4Addr rest = none := by
      rcases ends with rfl | ⟨s, rfl⟩ <;> cases first
      · rfl
      · exact readIpv4Addr_stop (stops_nil 10)
      · exact readIpv4Addr_stop (colon 10 (by decide) s)
      · exact readIpv4Addr_stop (colon 10 (by decide) (':' :: s))
    have no_group : readSeparator ':' first (readNumber 16 4 true 65536) rest = none := by
      rcases ends with rfl | ⟨s, rfl⟩ <;> cases first
      · rfl
      · rfl
      · exact readNumber_stop 4 65536 true (colon 16 (by decide) s)
      · exact readNumber_stop 4 65536 true (colon 16 (by decide) (':' :: s))
    rw [readGroups, no_v4, ite_self, no_group]

theorem readGroups_tail (room : ℕ) (gs : List UInt16) {rest : List Char} (ends : Ends rest)
    (fits : gs.length ≤ room) :
    readGroups false room ((gs.flatMap fun g => ':' :: hex g) ++ rest) = (gs, false, rest) := by
  induction gs generalizing room with
  | nil => exact readGroups_end false room ends
  | cons g gs ih =>
    obtain ⟨room, rfl⟩ := Nat.exists_eq_add_of_le' (Nat.le_trans (Nat.le_add_left 1 _) fits)
    have later := ih room (by simpa using fits)
    have bounded : Bounded ((gs.flatMap fun g => ':' :: hex g) ++ rest) := by
      cases gs with
      | nil => exact ends.bounded
      | cons h gs => exact bounded_cons _
    have whole : ((g :: gs).flatMap fun g => ':' :: hex g) ++ rest =
        sep false ++ (hex g ++ ((gs.flatMap fun g => ':' :: hex g) ++ rest)) := by
      simp [sep]
    rw [whole, readGroups_cons false room g bounded, later]

/-- Written groups are read, as long as there is room for them. -/
theorem readGroups_text (room : ℕ) (gs : List UInt16) {rest : List Char} (ends : Ends rest)
    (fits : gs.length ≤ room) :
    readGroups true room (fmtSubslice gs ++ rest) = (gs, false, rest) := by
  cases gs with
  | nil => exact readGroups_end true room ends
  | cons g gs =>
    obtain ⟨room, rfl⟩ := Nat.exists_eq_add_of_le' (Nat.le_trans (Nat.le_add_left 1 _) fits)
    have later := readGroups_tail room gs ends (by simpa using fits)
    have bounded : Bounded ((gs.flatMap fun g => ':' :: hex g) ++ rest) := by
      cases gs with
      | nil => exact ends.bounded
      | cons h gs => exact bounded_cons _
    have whole : fmtSubslice (g :: gs) ++ rest =
        sep true ++ (hex g ++ ((gs.flatMap fun g => ':' :: hex g) ++ rest)) := by
      simp [sep, fmtSubslice]
    rw [whole, readGroups_cons true room g bounded, later]

/-! ## §6 IPv6 addresses -/

/-- A run of zeros within some groups. -/
def IsRun (gs : List UInt16) (span : Span) : Prop :=
  ∀ k, span.start ≤ k → k < span.start + span.len → gs[k]? = some 0

theorem isRun_longestZeros {gs : List UInt16} (seen rest : List UInt16) (whole : gs = seen ++ rest)
    {longest current : Span} (longest_run : IsRun gs longest) (current_run : IsRun gs current)
    (up : current.len = 0 ∨ current.start + current.len = seen.length) :
    IsRun gs (longestZeros seen.length longest current rest) := by
  induction rest generalizing seen longest current with
  | nil => exact longest_run
  | cons g rest ih =>
    have next := @ih (seen ++ [g]) (by rw [whole, List.append_assoc]; rfl)
    simp only [List.length_append, List.length_singleton] at next
    rw [longestZeros]
    split
    · next zero =>
      have here : gs[seen.length]? = some 0 := by
        rw [whole, List.getElem?_append_right (Nat.le_refl _), Nat.sub_self]
        exact congrArg some zero
      -- the current run goes on by one, or begins here
      have grown : IsRun gs
          ⟨if current.len = 0 then seen.length else current.start, current.len + 1⟩ := by
        intro k low high
        dsimp only at low high
        by_cases at_end : k = seen.length
        · rw [at_end]
          exact here
        · by_cases empty : current.len = 0
          · rw [if_pos empty] at low high
            omega
          · rw [if_neg empty] at low high
            exact current_run k low (by omega)
      apply next _ grown
      · right
        dsimp only
        split <;> omega
      · rcases Nat.lt_or_ge longest.len (current.len + 1) with longer | not_longer
        · rw [if_pos longer]
          exact grown
        · rw [if_neg (Nat.not_lt.2 not_longer)]
          exact longest_run
    · apply next longest_run _ (.inl rfl)
      intro k low high
      exact absurd high (Nat.not_lt.2 low)

/-- A run of zeros may be left out. -/
theorem split_run {gs : List UInt16} {span : Span} (run : IsRun gs span) :
    gs = gs.take span.start ++ (List.replicate span.len 0 ++ gs.drop (span.start + span.len)) := by
  have zeros : (gs.drop span.start).take span.len = List.replicate span.len 0 := by
    apply List.ext_getElem?
    intro k
    rw [List.getElem?_take, List.getElem?_drop, List.getElem?_replicate]
    split
    · next lt => exact run (span.start + k) (Nat.le_add_right _ _) (by omega)
    · rfl
  rw [← zeros, ← List.drop_drop, List.take_append_drop, List.take_append_drop]

theorem ofGroups_segments (ip : Ipv6Addr) : ofGroups (segments ip) = ip := rfl

theorem group_eq (g : UInt16) :
    (g / 256).toUInt8.toUInt16 * 256 + (g % 256).toUInt8.toUInt16 = g := by
  have lt := g.toNat_lt
  apply UInt16.toNat_inj.1
  simp
  omega

theorem v4Groups_ofSegments (hi lo : UInt16) : v4Groups (.ofSegments hi lo) = [hi, lo] := by
  simp only [v4Groups, Ipv4Addr.ofSegments, group_eq]

/-- The groups around a double colon are read, and zeros put in between them. -/
theorem readIpv6Addr_split (before : List UInt16) {after : List UInt16} {s : List Char} {v4 : Bool}
    (short : before.length < 8)
    (read : readGroups true (8 - (before.length + 1)) s = (after, v4, [])) :
    readIpv6Addr (fmtSubslice before ++ ':' :: ':' :: s) =
      some (ofGroups (before ++ List.replicate (8 - before.length - after.length) 0 ++ after),
        []) := by
  have head := readGroups_text 8 before (.inr ⟨s, rfl⟩) (Nat.le_of_lt short)
  simp only [readIpv6Addr, head, if_neg (Nat.ne_of_lt short), readGivenChar, if_pos, Option.bind_some, read,
    Bool.false_eq_true, if_false]

/-- An address that maps an IPv4 address is read as written. -/
theorem readIpv6Addr_mapped {ip : Ipv6Addr} {v4 : Ipv4Addr} (mapped : ip.toIpv4Mapped = some v4) :
    readIpv6Addr ("::ffff:".toList ++ v4Text v4) = some (ip, []) := by
  have embedded : readGroups false 6 (':' :: v4Text v4) = (v4Groups v4, true, []) := by
    have text := readIpv4Addr_text v4 (stops_nil 10)
    rw [List.append_nil] at text
    have first := readSeparator_sep false readIpv4Addr (v4Text v4)
    rw [text] at first
    change readSeparator ':' false readIpv4Addr (':' :: v4Text v4) = _ at first
    rw [readGroups, if_pos (by decide), first]
  have tail : readGroups true 7 ("ffff:".toList ++ v4Text v4) =
      (0xffff :: v4Groups v4, true, []) := by
    have group := readGroups_cons true 6 0xffff (bounded_cons (v4Text v4))
    rw [embedded] at group
    exact group
  have read := readIpv6Addr_split [] (by decide) tail
  obtain ⟨s0, s1, s2, s3, s4, s5, s6, s7⟩ := ip
  unfold Ipv6Addr.toIpv4Mapped at mapped
  dsimp only at mapped
  split at mapped
  · next zeros =>
    obtain ⟨rfl, rfl, rfl, rfl, rfl, rfl⟩ := zeros
    cases mapped
    rw [v4Groups_ofSegments] at read
    exact read
  · cases mapped

/-- One that does not is read as written, with or without a double colon. -/
theorem readIpv6Addr_plain {ip : Ipv6Addr} (plain : ip.toIpv4Mapped = none) :
    readIpv6Addr (v6Text ip) = some (ip, []) := by
  have run : IsRun (segments ip) (longestZeros 0 ⟨0, 0⟩ ⟨0, 0⟩ (segments ip)) := by
    apply isRun_longestZeros [] (segments ip) rfl _ _ (.inl rfl)
    · intro k low high
      exact absurd high (Nat.not_lt.2 low)
    · intro k low high
      exact absurd high (Nat.not_lt.2 low)
  unfold v6Text
  rw [plain]
  dsimp only
  revert run
  generalize longestZeros 0 ⟨0, 0⟩ ⟨0, 0⟩ (segments ip) = zeroes
  intro run
  split
  · next long =>
    have whole := split_run run
    -- the run ends within the address
    have last := run (zeroes.start + zeroes.len - 1) (by omega) (by omega)
    obtain ⟨inside, -⟩ := List.getElem?_eq_some_iff.1 last
    have eight : (segments ip).length = 8 := rfl
    have before : ((segments ip).take zeroes.start).length = zeroes.start := by
      rw [List.length_take]
      omega
    have after : ((segments ip).drop (zeroes.start + zeroes.len)).length =
        8 - (zeroes.start + zeroes.len) := by
      rw [List.length_drop, eight]
    have tail := readGroups_text (8 - (zeroes.start + 1))
      ((segments ip).drop (zeroes.start + zeroes.len)) (.inl rfl) (by omega)
    rw [List.append_nil] at tail
    have read := readIpv6Addr_split ((segments ip).take zeroes.start) (by omega)
      (by rw [before]; exact tail)
    rw [before, after] at read
    have len : 8 - zeroes.start - (8 - (zeroes.start + zeroes.len)) = zeroes.len := by omega
    rw [len, List.append_assoc, ← whole, ofGroups_segments] at read
    exact read
  · have all := readGroups_text 8 (segments ip) (.inl rfl) (Nat.le_refl 8)
    rw [List.append_nil] at all
    rw [readIpv6Addr, all]
    rfl

/-! ## §7 What is written is read back -/

theorem readIpv6Addr_text (ip : Ipv6Addr) : readIpv6Addr (v6Text ip) = some (ip, []) := by
  cases mapped : ip.toIpv4Mapped with
  | none => exact readIpv6Addr_plain mapped
  | some v4 =>
    rw [v6Text, mapped]
    exact readIpv6Addr_mapped mapped

/-- An IPv6 address begins with a group or a colon. -/
theorem readIpv4Addr_v6Text (ip : Ipv6Addr) : readIpv4Addr (v6Text ip) = none := by
  have groups : ∀ gs rest, gs ≠ [] → Bounded rest → readIpv4Addr (fmtSubslice gs ++ rest) = none := by
    intro gs rest nonempty bounded
    cases gs with
    | nil => exact absurd rfl nonempty
    | cons g gs =>
      rw [fmtSubslice, List.append_assoc]
      apply readIpv4Addr_hex
      cases gs with
      | nil => exact bounded
      | cons h gs => exact bounded_cons _
  have colon : ∀ s, readIpv4Addr (':' :: s) = none := fun s =>
    readIpv4Addr_stop ((bounded_cons s).stops (by decide))
  unfold v6Text
  split
  · exact colon _
  · dsimp only
    split
    · cases front : (segments ip).take _ with
      | nil => exact colon _
      | cons g gs => exact groups (g :: gs) _ (List.cons_ne_nil g gs) (bounded_cons _)
    · have whole := groups (segments ip) [] (List.cons_ne_nil _ _) bounded_nil
      rwa [List.append_nil] at whole

/-- The text of an address is read back as that address. -/
theorem parse_text (ip : IpAddr) : parse (text ip) = some ip := by
  cases ip with
  | v4 ip =>
    have read := readIpv4Addr_text ip (stops_nil 10)
    rw [List.append_nil] at read
    rw [parse, readIpAddr, text, read]
  | v6 ip =>
    rw [parse, readIpAddr, text, readIpv4Addr_v6Text, readIpv6Addr_text]
    rfl

/-- Two addresses never look the same. -/
theorem text_injective {a b : IpAddr} (same : text a = text b) : a = b := by
  have read := parse_text a
  rw [same, parse_text b] at read
  exact (Option.some.inj read).symm

end IpText

end GhostKey

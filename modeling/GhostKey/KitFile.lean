import GhostKey.Foundation.JsonText
import GhostKey.Foundation.Script
import GhostKey.Link

/-!
# The Kit's Data Slot

A recovery file is the page of the kit with one vault's data spliced in where the page has a
placeholder. The page reads the data back when it is opened, and shows itself as the unfilled
template when it still finds the placeholder in its slot.

Layers:
1. strings of the page's language, and how they are written as JSON;
2. `spliceKit`, over the built page;
3. `readKitData`, over the parser of the page.

Main results:
- `faithful_iff`: the slot gives the data back, for all data that does not hold the text of
  the placeholder, and the data never gets out of the slot.
- `not_faithful`: a vault whose label is the placeholder.
-/

namespace GhostKey

open Foundation

namespace KitFile

/-! ## §1 Strings -/

/-- A code point of a string: a character, or a surrogate that is not one of a pair. -/
inductive CodePoint where
  | scalar (c : Char)
  | lone (n : Fin 0x800)
  deriving DecidableEq

/-- A string by its code points. No high surrogate stands right before a low one in it: those
two are one character. -/
abbrev JsString := List CodePoint

/-- A string without lone surrogates. -/
def js (s : List Char) : JsString := s.map .scalar

def CodePoint.ofNat (n : ℕ) : CodePoint :=
  if h : n - 0xD800 < 0x800 ∧ 0xD800 ≤ n then .lone ⟨n - 0xD800, h.1⟩ else .scalar (Char.ofNat n)

/-- Four hex digits. -/
def hex (n : ℕ) : List Char :=
  [Nat.digitChar (n / 4096 % 16), Nat.digitChar (n / 256 % 16), Nat.digitChar (n / 16 % 16),
    Nat.digitChar (n % 16)]

/-- One unit of a string by `JSON.stringify`: lone surrogates are escaped. -/
def writeUnit : CodePoint → List Char
  | .scalar c => Json.escape c
  | .lone n => '\\' :: 'u' :: hex (0xD800 + n)

/-- One unit of a string by `JSON.parse`; two escaped surrogates in a row are left apart. -/
def readUnit : List Char → Option (CodePoint × List Char)
  | '\\' :: 'u' :: a :: b :: c :: d :: rest => do
    let a ← Json.hexDigit a.toLower
    let b ← Json.hexDigit b.toLower
    let c ← Json.hexDigit c.toLower
    let d ← Json.hexDigit d.toLower
    some (.ofNat (4096 * a + 256 * b + 16 * c + d), rest)
  | '\\' :: e :: rest => (Json.shorts.find? fun p => p.2 = e).map fun p => (.scalar p.1, rest)
  | c :: rest => if c = '\\' ∨ c.toNat < 0x20 then none else some (.scalar c, rest)
  | [] => none

theorem toLower_digitChar : ∀ n < 16, (Nat.digitChar n).toLower = Nat.digitChar n := by decide

theorem hexDigit_digitChar {n : ℕ} (digit : n < 16) :
    Json.hexDigit (Nat.digitChar n).toLower = some n := by
  rw [toLower_digitChar n digit, Json.hexDigit_digitChar n digit]

theorem readUnit_hex {n : ℕ} (small : n < 0x10000) (rest : List Char) :
    readUnit ('\\' :: 'u' :: (hex n ++ rest)) = some (.ofNat n, rest) := by
  have whole : 4096 * (n / 4096 % 16) + 256 * (n / 256 % 16) + 16 * (n / 16 % 16) + n % 16 = n := by
    omega
  simp only [hex, List.cons_append, List.nil_append, readUnit,
    hexDigit_digitChar (Nat.mod_lt _ (by decide : 0 < 16)), Option.bind_eq_bind, Option.bind_some,
    whole]

theorem ofNat_lone (n : Fin 0x800) : CodePoint.ofNat (0xD800 + n) = .lone n := by
  simp only [CodePoint.ofNat, Nat.add_sub_cancel_left, n.isLt, Nat.le_add_right, and_self,
    dite_true]

/-- What is no surrogate is a character. -/
theorem ofNat_small {n : ℕ} (small : n < 0xD800) : CodePoint.ofNat n = .scalar (Char.ofNat n) :=
  dif_neg fun inside => absurd inside.2 (Nat.not_le.2 small)

theorem readUnit_writeUnit (c : CodePoint) (rest : List Char) :
    readUnit (writeUnit c ++ rest) = some (c, rest) := by
  cases c with
  | lone n =>
    have small : 0xD800 + (n : ℕ) < 0x10000 :=
      lt_of_lt_of_le (Nat.add_lt_add_left n.isLt _) (by decide)
    exact (readUnit_hex small rest).trans (by rw [ofNat_lone])
  | scalar c =>
    -- the short escapes are read back by their letters
    have pairs : ∀ p ∈ Json.shorts,
        p.2 ≠ 'u' ∧ Json.shorts.find? (fun q => q.2 = p.2) = some p := by decide
    cases short : Json.shorts.find? fun p => p.1 = c with
    | some p =>
      have named : p.1 = c := by simpa using List.find?_some short
      obtain ⟨other, back⟩ := pairs p (List.mem_of_find?_eq_some short)
      have written : Json.escape c = ['\\', p.2] := by simp [Json.escape, short]
      rw [writeUnit, written, List.cons_append, List.cons_append, List.nil_append, readUnit, back,
        ← named]
      · rfl
      · intro a b c d rest' eq
        exact absurd eq other
    | none =>
      by_cases control : c.toNat < 0x20
      -- a control character as four hexadecimal digits
      · have written : Json.escape c = '\\' :: 'u' :: hex c.toNat := by
          have zeros : c.toNat / 4096 % 16 = 0 ∧ c.toNat / 256 % 16 = 0 ∧
              c.toNat / 16 % 16 = c.toNat / 16 := by omega
          simp only [Json.escape, short, control, if_true, hex, zeros]
          rfl
        rw [writeUnit, written, List.cons_append, List.cons_append, readUnit_hex (by omega),
          ofNat_small (by omega), Char.ofNat_toNat]
      -- anything else stands for itself
      · have other : c ≠ '\\' := by
          rintro rfl
          cases short
        rw [writeUnit, Json.escape_of_plain short control, List.singleton_append, readUnit]
        · simp [other, control]
        · rintro a b c d rest' rfl
          exact absurd rfl other
        · rintro e rest' rfl
          exact absurd rfl other

theorem writeUnit_head (c : CodePoint) (rest rest' : List Char) :
    writeUnit c ++ rest ≠ '"' :: rest' := by
  cases c with
  | lone n => simp [writeUnit]
  | scalar c => exact Json.escape_head c rest rest'

/-- How `JSON.stringify` writes strings and `JSON.parse` reads them. -/
def jsonEscaping : JsonText.Escaping CodePoint where
  write := writeUnit
  read := readUnit
  read_write := readUnit_writeUnit
  head := writeUnit_head

/-- The characters of escapes. -/
def escapeLetters : List Char :=
  ['\\', '"', 'n', 'r', 't', 'b', 'f', 'u', '0', '1', '2', '3', '4', '5', '6', '7', '8', '9', 'a',
    'c', 'd', 'e']

theorem digitChar_mem : ∀ n < 16, Nat.digitChar n ∈ escapeLetters := by decide

/-- A unit is written as the character it is, or escaped. -/
theorem mem_writeUnit {c : CodePoint} {x : Char} (mem : x ∈ writeUnit c) :
    (c = .scalar x ∧ 0x20 ≤ x.toNat) ∨ x ∈ escapeLetters := by
  have digit : ∀ n, Nat.digitChar (n % 16) ∈ escapeLetters :=
    fun n => digitChar_mem _ (Nat.mod_lt n (by decide))
  cases c with
  -- a lone surrogate is escaped
  | lone n =>
    simp only [writeUnit, hex, List.mem_cons, List.not_mem_nil, or_false] at mem
    rcases mem with rfl | rfl | rfl | rfl | rfl | rfl
    · exact .inr (by decide)
    · exact .inr (by decide)
    all_goals exact .inr (digit _)
  | scalar c =>
    -- a character is escaped by its letter, by its digits, or not at all
    have named : ∀ p ∈ Json.shorts, p.2 ∈ escapeLetters := by decide
    cases short : Json.shorts.find? fun p => p.1 = c with
    | some p =>
      simp only [writeUnit, Json.escape, short, List.mem_cons, List.not_mem_nil, or_false] at mem
      rcases mem with rfl | rfl
      · exact .inr (by decide)
      · exact .inr (named p (List.mem_of_find?_eq_some short))
    | none =>
      by_cases control : c.toNat < 0x20
      · simp only [writeUnit, Json.escape, short, control, if_true, List.mem_cons,
          List.not_mem_nil, or_false] at mem
        rcases mem with rfl | rfl | rfl | rfl | rfl | rfl
        · exact .inr (by decide)
        · exact .inr (by decide)
        · exact .inr (by decide)
        · exact .inr (by decide)
        · exact .inr (digitChar_mem _ (by omega))
        · exact .inr (digit _)
      · rw [writeUnit, Json.escape_of_plain short control, List.mem_singleton] at mem
        subst mem
        exact .inl ⟨rfl, Nat.not_lt.1 control⟩

/-! ## §2 The slot -/

/-- `replace(/</g, "\\u003c")` -/
def escapeLt (c : Char) : List Char :=
  if c = '<' then ['\\', 'u', '0', '0', '3', 'c'] else [c]

theorem flatMap_escapeLt {s : List Char} (without : '<' ∉ s) : s.flatMap escapeLt = s := by
  induction s with
  | nil => rfl
  | cons c s ih =>
    obtain ⟨first, rest⟩ := not_or.1 (fun either => without (List.mem_cons.2 either))
    have same : escapeLt c = [c] := if_neg (Ne.symm first)
    rw [List.flatMap_cons, same, ih rest]
    rfl

def kitWrite (c : CodePoint) : List Char := (writeUnit c).flatMap escapeLt

/-- Only `<` itself is written in another way. -/
theorem kitWrite_of_ne {c : CodePoint} (other : c ≠ .scalar '<') : kitWrite c = writeUnit c := by
  apply flatMap_escapeLt
  intro mem
  rcases mem_writeUnit mem with ⟨eq, -⟩ | escaped
  · exact other eq
  · exact absurd escaped (by decide)

theorem mem_kitWrite {c : CodePoint} {x : Char} (mem : x ∈ kitWrite c) :
    (c = .scalar x ∧ 0x20 ≤ x.toNat ∧ x ≠ '<') ∨ x ∈ escapeLetters := by
  by_cases lt : c = .scalar '<'
  · have letters : ∀ y ∈ kitWrite (.scalar '<'), y ∈ escapeLetters :=
      Text.forall_mem_of_all (by decide)
    exact .inr (letters x (lt ▸ mem))
  · rw [kitWrite_of_ne lt] at mem
    rcases mem_writeUnit mem with ⟨rfl, printable⟩ | escaped
    · exact .inl ⟨rfl, printable, fun eq => lt (congrArg CodePoint.scalar eq)⟩
    · exact .inr escaped

/-- How the strings of the slot are written: an escaped `<` is read as any other escape. -/
def kitEscaping : JsonText.Escaping CodePoint where
  write := kitWrite
  read := readUnit
  read_write := by
    intro c rest
    by_cases lt : c = .scalar '<'
    · subst lt
      rfl
    · rw [kitWrite_of_ne lt, readUnit_writeUnit]
  head := by
    intro c rest rest'
    by_cases lt : c = .scalar '<'
    · subst lt
      simp [kitWrite, writeUnit, Json.escape, Json.shorts, escapeLt]
    · rw [kitWrite_of_ne lt]
      exact writeUnit_head c rest rest'

/-! ## §3 Filling the kit -/

def PLACEHOLDER : List Char := "__GHOSTKEY_KIT_DATA__".toList

/-- The start tag of the data slot. -/
def openTag : List Char := "<script type=\"application/json\" id=\"ghostkey-kit-data\">".toList

/-- The built page, around its placeholder: the placeholder and the slot's tag occur once. -/
structure Template where
  before : List Char
  after : List Char
  tag_once : Text.Clear openTag before openTag
  before_clean : ¬ PLACEHOLDER <:+: before ++ openTag
  after_clean : ¬ PLACEHOLDER <:+: after
  closed : Script.endTag <+: after

namespace Template

/-- The page up to its slot. -/
def head (t : Template) : List Char := t.before ++ openTag

def text (t : Template) : List Char := t.head ++ (PLACEHOLDER ++ t.after)

end Template

inductive Role where
  | owner
  | heir
  deriving DecidableEq

def Role.text : Role → List Char
  | owner => "owner".toList
  | heir => "heir".toList

/-- A whole number that a `number` holds exactly: a count of blocks, or a KDF parameter. -/
abbrev SafeInt := Fin (2 ^ 53)

structure KitData where
  role : Role
  generated_at : JsString
  label : Option JsString
  vault_id : JsString
  network : JsString
  timelock_blocks : SafeInt
  descriptor_external : JsString
  descriptor_internal : JsString
  password_salt_b64 : JsString
  password_kdf_mem_kib : SafeInt
  password_kdf_iters : SafeInt
  owner_xprv_ct_b64 : JsString
  owner_xprv_nonce_b64 : JsString
  deriving DecidableEq

namespace KitData

/-- The object the kit is given, whose version is 1. -/
def entries (data : KitData) : JsonText.Object CodePoint :=
  [(js "v".toList, .number 1),
    (js "role".toList, .text (js data.role.text)),
    (js "generated_at".toList, .text data.generated_at),
    (js "label".toList, data.label.elim .null .text),
    (js "vault_id".toList, .text data.vault_id),
    (js "network".toList, .text data.network),
    (js "timelock_blocks".toList, .number data.timelock_blocks),
    (js "descriptor_external".toList, .text data.descriptor_external),
    (js "descriptor_internal".toList, .text data.descriptor_internal),
    (js "password_salt_b64".toList, .text data.password_salt_b64),
    (js "password_kdf_mem_kib".toList, .number data.password_kdf_mem_kib),
    (js "password_kdf_iters".toList, .number data.password_kdf_iters),
    (js "owner_xprv_ct_b64".toList, .text data.owner_xprv_ct_b64),
    (js "owner_xprv_nonce_b64".toList, .text data.owner_xprv_nonce_b64)]

/-- Some text of the data holds the text of the placeholder. -/
def Marked (data : KitData) : Prop :=
  ∃ key s, (key, .text s) ∈ data.entries ∧ js PLACEHOLDER <:+: s

/-- The object says what the data is. -/
theorem entries_injective {data data' : KitData} (same : data.entries = data'.entries) :
    data = data' := by
  have roles : ∀ r r' : Role, js r.text = js r'.text → r = r' := by
    intro r r' eq
    cases r <;> cases r' <;> first | rfl | exact absurd eq (by decide)
  have labels : ∀ l l' : Option JsString,
      l.elim JsonText.Val.null .text = l'.elim JsonText.Val.null .text → l = l' := by
    intro l l' eq
    cases l <;> cases l' <;> simp_all
  cases data
  cases data'
  simp only [entries, List.cons.injEq, Prod.mk.injEq, true_and, and_true, JsonText.Val.text.injEq,
    JsonText.Val.number.injEq, Fin.val_inj] at same
  obtain ⟨role, rfl, label, rfl, rfl, rfl, rfl, rfl, rfl, rfl, rfl, rfl, rfl⟩ := same
  rw [roles _ _ role, labels _ _ label]

end KitData

/-- What is written into the slot. -/
def slot (data : KitData) : List Char :=
  (JsonText.object jsonEscaping data.entries).flatMap escapeLt

/-- `fetchTemplate`, of what was served. -/
def fetchTemplate (template : List Char) : Except String (List Char) :=
  if PLACEHOLDER <:+: template then .ok template
  else .error "The recovery template looks corrupted. Try a hard reload."

def spliceKit (template : List Char) (data : KitData) : List Char :=
  Text.replaceAll PLACEHOLDER (slot data) template

/-! ## §4 Reading it -/

/-- The text of the slot's element, which is empty where the page has none. -/
def rawKitData (page : List Char) : List Char :=
  match Text.find openTag page with
  | some i => (Script.textContent (page.drop (i + openTag.length))).1
  | none => []

/-- `readKitData`, on an opened page. -/
def readKitData (page : List Char) : Option (JsonText.Object CodePoint) :=
  let raw := rawKitData page
  if jsTrim raw = [] ∨ PLACEHOLDER <:+: raw then none else JsonText.readObject readUnit raw

/-! ## §5 The slot's text -/

theorem not_structural_lt : ¬ JsonText.Structural '<' := by
  rintro (mem | digit)
  · exact absurd mem (by decide)
  · exact absurd digit (by decide)

theorem slot_eq (data : KitData) : slot data = JsonText.object kitEscaping data.entries := by
  apply JsonText.flatMap_object
  · intro c structural
    apply if_neg
    rintro rfl
    exact not_structural_lt structural
  · intro c
    rfl

theorem mem_slot {data : KitData} {x : Char} (mem : x ∈ slot data) :
    x ≠ '<' ∧ 0x20 ≤ x.toNat := by
  rw [slot_eq] at mem
  rcases JsonText.mem_object mem with structural | ⟨c, inside⟩
  · refine ⟨fun eq => not_structural_lt (eq ▸ structural), ?_⟩
    rcases structural with outside | digit
    · have printable : ∀ c ∈ ['{', '}', ',', ':', '"', 'n', 'u', 'l'], 0x20 ≤ c.toNat :=
        Text.forall_mem_of_all (by decide)
      exact printable x outside
    · have low := (Char.isDigit_iff_toNat.1 digit).1
      exact le_trans (by decide) low
  · rcases mem_kitWrite inside with ⟨-, printable, other⟩ | escaped
    · exact ⟨other, printable⟩
    · have letters : ∀ y ∈ escapeLetters, y ≠ '<' ∧ 0x20 ≤ y.toNat :=
        Text.forall_mem_of_all (by decide)
      exact letters x escaped

theorem lt_notin_slot (data : KitData) : '<' ∉ slot data := fun mem => (mem_slot mem).1 rfl

/-- The placeholder's letters stand for themselves, and no escape has any of them. -/
theorem spares_placeholder : Text.Spares PLACEHOLDER kitWrite .scalar where
  plain := Text.forall_mem_of_all (by decide)
  other := by
    intro c
    by_cases letter : ∃ a ∈ PLACEHOLDER, c = .scalar a
    · exact .inl letter
    · refine .inr ⟨JsonText.write_ne_nil kitEscaping c, fun x mem inside => ?_⟩
      rcases mem_kitWrite mem with ⟨rfl, -⟩ | escaped
      · exact letter ⟨x, inside, rfl⟩
      · have apart : ∀ y ∈ escapeLetters, y ∉ PLACEHOLDER :=
          Text.forall_mem_of_all (by decide)
        exact apart x escaped inside

theorem placeholder_ne_nil : PLACEHOLDER ≠ [] := by decide

/-- The placeholder occurs in the slot where it occurs in a text of the data. -/
theorem placeholder_infix_slot_iff (data : KitData) :
    PLACEHOLDER <:+: slot data ↔ data.Marked := by
  have letters : ∀ c ∈ PLACEHOLDER, ¬ JsonText.Structural c := by
    unfold JsonText.Structural
    exact Text.forall_mem_of_all (by decide)
  have names : ∀ f ∈ data.entries, ¬ js PLACEHOLDER <:+: f.1 := by
    simp only [KitData.entries, List.forall_mem_cons, List.not_mem_nil, IsEmpty.forall_iff,
      implies_true, and_true]
    decide
  have inside : PLACEHOLDER <:+: slot data ↔
      ∃ f ∈ data.entries, JsonText.InMember (js PLACEHOLDER) f := by
    rw [slot_eq]
    exact JsonText.infix_object_iff (E := kitEscaping) placeholder_ne_nil letters
      spares_placeholder data.entries
  rw [inside]
  constructor
  · rintro ⟨⟨key, val⟩, mem, name | ⟨s, rfl, occurs⟩⟩
    · exact absurd name (names _ mem)
    · exact ⟨key, s, mem, occurs⟩
  · rintro ⟨key, s, mem, occurs⟩
    exact ⟨(key, .text s), mem, .inr ⟨s, rfl, occurs⟩⟩

/-! ## §6 The file -/

variable (t : Template)

theorem fetchTemplate_text : fetchTemplate t.text = .ok t.text :=
  if_pos ⟨t.head, t.after, by simp [Template.text]⟩

theorem clear_head : Text.Clear PLACEHOLDER t.head (PLACEHOLDER ++ t.after) := by
  obtain ⟨start, tag⟩ : ∃ start, openTag = start ++ ['>'] :=
    ⟨"<script type=\"application/json\" id=\"ghostkey-kit-data\"".toList, by decide⟩
  have ends : t.head = (t.before ++ start) ++ ['>'] := by
    rw [Template.head, tag, List.append_assoc]
  have clean : ¬ PLACEHOLDER <:+: t.before ++ start := fun occurs =>
    t.before_clean (by
      rw [tag, ← List.append_assoc]
      exact occurs.trans (List.prefix_append _ _).isInfix)
  rw [ends]
  exact Text.clear_of_absent (by decide) clean _

/-- The data takes the place of the placeholder, and the page around it stays. -/
theorem spliceKit_text (data : KitData) :
    spliceKit t.text data = t.head ++ (slot data ++ t.after) :=
  Text.replaceAll_of_clear placeholder_ne_nil (clear_head t) t.after_clean (slot data)

/-- The slot's element ends where its text does, when that text has no `<`. -/
theorem textContent_after {s : List Char} (plain : '<' ∉ s) (nonzero : '\x00' ∉ s) :
    Script.textContent (s ++ t.after) = (s, t.after) := by
  obtain ⟨rest, after⟩ := t.closed
  rw [← after]
  exact Script.textContent_of_plain plain nonzero rest

theorem rawKitData_head {s : List Char} (plain : '<' ∉ s) (nonzero : '\x00' ∉ s) :
    rawKitData (t.head ++ (s ++ t.after)) = s := by
  have found : Text.find openTag (t.before ++ (openTag ++ (s ++ t.after))) =
      some t.before.length := Text.find_of_clear (t.tag_once.append_right _)
  have rest : (t.before ++ (openTag ++ (s ++ t.after))).drop
      (t.before.length + openTag.length) = s ++ t.after := by
    rw [← List.append_assoc, ← List.length_append, List.drop_left]
  rw [Template.head, List.append_assoc, rawKitData, found]
  dsimp only
  rw [rest, textContent_after t plain nonzero]

theorem zero_notin_slot (data : KitData) : '\x00' ∉ slot data :=
  fun mem => absurd (mem_slot mem).2 (by decide)

theorem rawKitData_splice (data : KitData) : rawKitData (spliceKit t.text data) = slot data := by
  rw [spliceKit_text]
  exact rawKitData_head t (lt_notin_slot data) (zero_notin_slot data)

/-- The slot is not blank. -/
theorem jsTrim_slot (data : KitData) : jsTrim (slot data) ≠ [] := by
  have brace : '{' ∈ slot data := by
    rw [slot_eq, JsonText.object]
    exact .head _
  exact List.ne_nil_of_mem (Text.mem_trimBy brace (by decide))

/-- A kit whose data holds the placeholder shows itself as the unfilled template. -/
theorem readKitData_of_marked {data : KitData} (marked : data.Marked) :
    readKitData (spliceKit t.text data) = none := by
  have inside := (placeholder_infix_slot_iff data).2 marked
  simp only [readKitData, rawKitData_splice, inside, or_true, if_true]

/-- Any other gives its data back. -/
theorem readKitData_of_unmarked {data : KitData} (unmarked : ¬ data.Marked) :
    readKitData (spliceKit t.text data) = some data.entries := by
  have clean := mt (placeholder_infix_slot_iff data).1 unmarked
  simp only [readKitData, rawKitData_splice, jsTrim_slot, clean, or_self, if_false]
  rw [slot_eq]
  exact JsonText.readObject_object kitEscaping data.entries

/-- The page of the kit, before it is filled, is read as the unfilled template. -/
theorem readKitData_text : readKitData t.text = none := by
  have raw : rawKitData t.text = PLACEHOLDER := rawKitData_head t (by decide) (by decide)
  have inside : PLACEHOLDER <:+: PLACEHOLDER := List.infix_rfl
  simp only [readKitData, raw, inside, or_true, if_true]

/-- The file keeps its data: the template is taken for one, the page around the slot is the
template's, the slot holds no markup and its element ends behind it, and the page reads the
data back and no other. -/
structure Faithful (data : KitData) : Prop where
  fetched : fetchTemplate t.text = .ok t.text
  outside : spliceKit t.text data = t.head ++ (slot data ++ t.after)
  inert : '<' ∉ slot data
  ends : Script.textContent (slot data ++ t.after) = (slot data, t.after)
  back : readKitData (spliceKit t.text data) = some data.entries
  only : ∀ data' : KitData, readKitData (spliceKit t.text data) = some data'.entries → data' = data

/-- A file keeps its data exactly when no text of the data holds the placeholder. -/
theorem faithful_iff (data : KitData) : Faithful t data ↔ ¬ data.Marked := by
  constructor
  · intro faithful marked
    have unread := faithful.back
    rw [readKitData_of_marked t marked] at unread
    cases unread
  · intro unmarked
    have back := readKitData_of_unmarked t unmarked
    refine ⟨fetchTemplate_text t, spliceKit_text t data, lt_notin_slot data,
      textContent_after t (lt_notin_slot data) (zero_notin_slot data), back, fun data' other => ?_⟩
    exact KitData.entries_injective (Option.some.inj (other.symm.trans back))

/-- A page of its slot alone. -/
def bare : Template where
  before := []
  after := Script.endTag
  tag_once := Text.clear_nil _ _
  before_clean := by decide
  after_clean := by decide
  closed := List.prefix_rfl

/-- A vault that is called like the placeholder. -/
def namedMarker : KitData where
  role := .owner
  generated_at := js "2026-01-01T00:00:00.000Z".toList
  label := some (js PLACEHOLDER)
  vault_id := js "6f9619ff-8b86-4d01-b42d-00cf4fc964ff".toList
  network := js "bitcoin".toList
  timelock_blocks := 52560
  descriptor_external := js "wsh(pk(A))".toList
  descriptor_internal := js "wsh(pk(B))".toList
  password_salt_b64 := js "c2FsdA==".toList
  password_kdf_mem_kib := 65536
  password_kdf_iters := 3
  owner_xprv_ct_b64 := js "Y3Q=".toList
  owner_xprv_nonce_b64 := js "bm9uY2U=".toList

/-- Its file reads as the unfilled template. -/
theorem not_faithful : ¬ ∀ (t : Template) (data : KitData), Faithful t data := by
  intro always
  have marked : namedMarker.Marked :=
    ⟨js "label".toList, js PLACEHOLDER, by simp [KitData.entries, namedMarker], List.infix_rfl⟩
  have unread := (always bare namedMarker).back
  rw [readKitData_of_marked bare marked] at unread
  cases unread

end KitFile

end GhostKey

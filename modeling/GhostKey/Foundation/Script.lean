import Mathlib.Data.List.Basic
import Mathlib.Data.Nat.Notation

/-!
# The Text of a Script Element

An HTML parser reads the text of a script element character by character until an end tag
closes it. A text may open a comment, and in it another script element, whose end tag then
does not count; all of that starts with `<`.

Main results:
- `textContent_of_plain`: a text without `<` is read as it stands, up to the end tag behind it.
-/

namespace GhostKey.Foundation.Script

/-! ## §1 The states of the parser -/

inductive State where
  | scriptData
  | lessThan
  | endTagOpen
  | endTagName (buffer : List Char)
  | escapeStart
  | escapeStartDash
  | escaped
  | escapedDash
  | escapedDashDash
  | escapedLessThan
  | escapedEndTagOpen
  | escapedEndTagName (buffer : List Char)
  | doubleEscapeStart (buffer : List Char)
  | doubleEscaped
  | doubleEscapedDash
  | doubleEscapedDashDash
  | doubleEscapedLessThan
  | doubleEscapeEnd (buffer : List Char)
  | closed
  deriving DecidableEq

def script : List Char := ['s', 'c', 'r', 'i', 'p', 't']

/-- What may follow the name of a tag. -/
def delimits (c : Char) : Bool := c ∈ ['\t', '\n', '\x0c', ' ', '/', '>']

namespace State

def ofScriptData (c : Char) : State := if c = '<' then lessThan else scriptData

def ofEndTagName (buffer : List Char) (c : Char) : State :=
  if delimits c ∧ buffer = script then closed
  else if c.isAlpha then endTagName (buffer ++ [c.toLower])
  else ofScriptData c

def ofEscaped (c : Char) : State :=
  if c = '-' then escapedDash else if c = '<' then escapedLessThan else escaped

def ofEscapedEndTagName (buffer : List Char) (c : Char) : State :=
  if delimits c ∧ buffer = script then closed
  else if c.isAlpha then escapedEndTagName (buffer ++ [c.toLower])
  else ofEscaped c

def ofDoubleEscapeStart (buffer : List Char) (c : Char) : State :=
  if delimits c then if buffer = script then doubleEscaped else escaped
  else if c.isAlpha then doubleEscapeStart (buffer ++ [c.toLower])
  else ofEscaped c

def ofDoubleEscaped (c : Char) : State :=
  if c = '-' then doubleEscapedDash
  else if c = '<' then doubleEscapedLessThan
  else doubleEscaped

/-- The state after the next character. -/
def step : State → Char → State
  | scriptData, c => ofScriptData c
  | lessThan, c =>
      if c = '/' then endTagOpen else if c = '!' then escapeStart else ofScriptData c
  | endTagOpen, c => if c.isAlpha then ofEndTagName [] c else ofScriptData c
  | endTagName buffer, c => ofEndTagName buffer c
  | escapeStart, c => if c = '-' then escapeStartDash else ofScriptData c
  | escapeStartDash, c => if c = '-' then escapedDashDash else ofScriptData c
  | escaped, c => ofEscaped c
  | escapedDash, c => if c = '-' then escapedDashDash else ofEscaped c
  | escapedDashDash, c =>
      if c = '-' then escapedDashDash else if c = '>' then scriptData else ofEscaped c
  | escapedLessThan, c =>
      if c = '/' then escapedEndTagOpen
      else if c.isAlpha then ofDoubleEscapeStart [] c
      else ofEscaped c
  | escapedEndTagOpen, c => if c.isAlpha then ofEscapedEndTagName [] c else ofEscaped c
  | escapedEndTagName buffer, c => ofEscapedEndTagName buffer c
  | doubleEscapeStart buffer, c => ofDoubleEscapeStart buffer c
  | doubleEscaped, c => ofDoubleEscaped c
  | doubleEscapedDash, c => if c = '-' then doubleEscapedDashDash else ofDoubleEscaped c
  | doubleEscapedDashDash, c =>
      if c = '-' then doubleEscapedDashDash
      else if c = '>' then scriptData
      else ofDoubleEscaped c
  | doubleEscapedLessThan, c => if c = '/' then doubleEscapeEnd [] else ofDoubleEscaped c
  | doubleEscapeEnd buffer, c =>
      if delimits c then if buffer = script then escaped else doubleEscaped
      else if c.isAlpha then doubleEscapeEnd (buffer ++ [c.toLower])
      else ofDoubleEscaped c
  | closed, _ => closed

end State

/-- How many characters are read until the element is closed. -/
def closes : State → List Char → Option ℕ
  | _, [] => none
  | s, c :: text =>
      if s.step c = .closed then some 1 else (closes (s.step c) text).map (· + 1)

/-- A null character is read as the replacement character. -/
def clean (c : Char) : Char := if c = '\x00' then '\uFFFD' else c

/-- The text of the element that starts here, and what is left from its end tag on: the tag's
name and the character that ends it have been read too. -/
def textContent (text : List Char) : List Char × List Char :=
  match closes .scriptData text with
  | some n => ((text.take (n - (script.length + 3))).map clean,
      text.drop (n - (script.length + 3)))
  | none => (text.map clean, [])

/-- `</script>` -/
def endTag : List Char := '<' :: '/' :: (script ++ ['>'])

/-! ## §2 Plain texts -/

theorem closes_append {s : List Char} (plain : '<' ∉ s) (rest : List Char) :
    closes .scriptData (s ++ rest) = (closes .scriptData rest).map (· + s.length) := by
  induction s with
  | nil => simp
  | cons c s ih =>
    obtain ⟨first, others⟩ := not_or.1 (fun either => plain (List.mem_cons.2 either))
    -- the parser stays where it is
    have stays : State.scriptData.step c = .scriptData := if_neg (Ne.symm first)
    rw [List.cons_append, closes, stays, if_neg (by decide), ih others, Option.map_map]
    rfl

/-- A text without `<` is what the element holds, up to its end tag. -/
theorem textContent_of_plain {s : List Char} (plain : '<' ∉ s) (nonzero : '\x00' ∉ s)
    (rest : List Char) : textContent (s ++ (endTag ++ rest)) = (s, endTag ++ rest) := by
  have nine : closes .scriptData (endTag ++ rest) = some 9 := rfl
  have read : closes .scriptData (s ++ (endTag ++ rest)) = some (9 + s.length) := by
    rw [closes_append plain, nine]
    rfl
  have start : 9 + s.length - (script.length + 3) = s.length := Nat.add_sub_cancel_left 9 _
  have same : s.map clean = s := by
    refine (List.map_congr_left fun c mem => ?_).trans (List.map_id s)
    exact if_neg fun zero : c = '\x00' => nonzero (zero ▸ mem)
  unfold textContent
  rw [read]
  dsimp only
  rw [start, List.take_left, List.drop_left, same]

end GhostKey.Foundation.Script

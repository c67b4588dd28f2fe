import SequentCalculus.Text.Blank
import SequentCalculus.Text.Quoted

/-!
# Text/Loose — texts in which half of a surrogate pair may stand alone

A configuration file may write a character by two escaped halves, and nothing keeps it from writing
one half without the other.  A *loose* text is a sequence of characters and such halves.  Symbols come
from such files, so whatever is written in symbols or read in them is a loose text.

A loose text without halves is a text (`text?_ofString`), and it is quoted as the text is
(`quoted_ofString`); a half is quoted by its number.
-/

namespace SequentCalculus

namespace Text

/-- A character, or half of a surrogate pair that stands alone. -/
inductive Code where
  | char (c : Char)
  | half (number : Nat)
  deriving DecidableEq, Repr

namespace Code

/-- The character, `none` for a half. -/
def char? : Code → Option Char
  | char c => some c
  | half _ => none

/-- Whether a code is a blank character. -/
def isBlank : Code → Bool
  | char c => Text.isBlank c
  | half _ => false

/-- The character that shows a code: a half shows as the replacement character. -/
def shown : Code → Char
  | char c => c
  | half _ => '�'

/-- A code inside a quoted text. -/
def escape (quote : Char) : Code → List Char
  | char c => escapeChar quote c
  | half number => '\\' :: 'u' :: hexDigits 4 number

end Code

end Text

/-- A sequence of characters and halves. -/
abbrev LooseText := List Text.Code

/-- Loose texts are compared as a table compares its keys. -/
instance : BEq LooseText := instBEqOfDecidableEq

namespace LooseText

/-- A text as a loose text. -/
def ofString (s : String) : LooseText := s.toList.map .char

instance : Coe String LooseText := ⟨ofString⟩

/-- The characters, `none` if there is a half. -/
def chars? : LooseText → Option (List Char)
  | [] => some []
  | .char c :: t => (chars? t).map (c :: ·)
  | .half _ :: _ => none

/-- The text without halves that a loose text is. -/
def text? (t : LooseText) : Option String := (chars? t).map String.ofList

/-- The text that shows a loose text. -/
def shown (t : LooseText) : String := String.ofList (t.map Text.Code.shown)

/-- The loose text between quotes. -/
def quoted (t : LooseText) : String :=
  let quote := Text.quoteFor (t.filterMap Text.Code.char?)
  String.ofList (quote :: t.flatMap (Text.Code.escape quote) ++ [quote])

/-- The loose text without the blanks at either end. -/
def trim (t : LooseText) : LooseText := Text.trimEnds Text.Code.isBlank t

theorem chars?_map_char (cs : List Char) : chars? (cs.map .char) = some cs := by
  induction cs with
  | nil => rfl
  | cons c cs ih => simp [chars?, ih]

/-- **A text read as a loose text is still the text.** -/
theorem text?_ofString (s : String) : (ofString s).text? = some s := by
  simp [text?, ofString, chars?_map_char]

/-- **A text is quoted as a loose text as it is on its own.** -/
theorem quoted_ofString (s : String) : (ofString s).quoted = Text.quoted s := by
  have hchars : (ofString s).filterMap Text.Code.char? = s.toList := by
    simp only [ofString, List.filterMap_map]
    exact List.filterMap_some
  rw [quoted, hchars, ofString, List.flatMap_map]
  rfl

end LooseText

end SequentCalculus

import SequentCalculus.Text.Alphanumeric
import SequentCalculus.Text.DecimalDigit
import SequentCalculus.Text.Loose
import SequentCalculus.Text.LowerCase

/-!
# Text/Word — words, and names that start a word

A word is a run of letters, numeric characters and underscores.  A *name* is a word that does not
start with a decimal digit, with any number of primes behind it: `A`, `x_1`, `²A`, `p''`.  Half of a
surrogate pair belongs to neither.
-/

namespace SequentCalculus

namespace Text

/-- Whether a character may stand in a word. -/
def isWordChar (c : Char) : Bool := isAlphanumeric c || c == '_'

/-- Whether a character may start a name. -/
def isNameStart (c : Char) : Bool := isWordChar c && !isDecimalDigit c

/-- Whether a text is one word. -/
def isWord (s : String) : Bool := !s.toList.isEmpty && s.toList.all isWordChar

namespace Code

/-- Whether a code may stand in a word. -/
def isWordChar : Code → Bool
  | char c => Text.isWordChar c
  | half _ => false

/-- Whether a code may start a name. -/
def isNameStart : Code → Bool
  | char c => Text.isNameStart c
  | half _ => false

end Code

end Text

namespace LooseText

/-- Whether a loose text is one word. -/
def isWord (t : LooseText) : Bool := t.text?.any Text.isWord

/-- The longest name at the front of a loose text: word characters, then primes.  Empty if no name
starts there. -/
def nameFront : LooseText → LooseText
  | [] => []
  | c :: cs =>
    if c.isNameStart then
      c :: (cs.takeWhile Text.Code.isWordChar
        ++ (cs.dropWhile Text.Code.isWordChar).takeWhile (· == .char '\''))
    else []

/-- What is left behind `nameFront`. -/
def nameRest : LooseText → LooseText
  | [] => []
  | c :: cs =>
    if c.isNameStart then (cs.dropWhile Text.Code.isWordChar).dropWhile (· == .char '\'')
    else c :: cs

/-- **A name and what is left behind it make up the text.** -/
theorem nameFront_append_nameRest (cs : LooseText) : nameFront cs ++ nameRest cs = cs := by
  cases cs with
  | nil => rfl
  | cons c cs =>
    by_cases h : c.isNameStart = true
    · simp only [nameFront, nameRest, if_pos h, List.cons_append, List.append_assoc,
        List.takeWhile_append_dropWhile]
    · simp only [nameFront, nameRest, if_neg h, List.nil_append]

/-- A name that starts leaves at most what stands behind its first code. -/
theorem length_nameRest_le {c : Text.Code} (h : c.isNameStart = true) (cs : LooseText) :
    (nameRest (c :: cs)).length ≤ cs.length := by
  rw [nameRest, if_pos h]
  exact Nat.le_trans (List.dropWhile_suffix _).length_le (List.dropWhile_suffix _).length_le

end LooseText

end SequentCalculus

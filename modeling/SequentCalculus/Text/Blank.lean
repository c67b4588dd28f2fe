import SequentCalculus.Text.CodeRange

/-!
# Text/Blank — white space, and trimming texts of it

The class has the separators of Unicode and the layout controls, the four information separators
`U+001C`–`U+001F` among them.  The zero-width space and the byte order mark are not blank.
-/

namespace SequentCalculus.Text

/-- The white space of Unicode 14, with the information separators. -/
def blankRanges : CodeRanges :=
  [ (0x9, 0xD), (0x1C, 0x20), (0x85, 0x85), (0xA0, 0xA0), (0x1680, 0x1680), (0x2000, 0x200A),
    (0x2028, 0x2029), (0x202F, 0x202F), (0x205F, 0x205F), (0x3000, 0x3000) ]

/-- Whether a character is white space. -/
def isBlank (c : Char) : Bool := blankRanges.covers c.toNat

/-- A list without the elements at either end that pass a test. -/
def trimEnds {α : Type} (p : α → Bool) (l : List α) : List α :=
  ((l.dropWhile p).reverse.dropWhile p).reverse

/-- The characters without the blanks at either end. -/
def trimBlanks (cs : List Char) : List Char := trimEnds isBlank cs

/-- The text without the blanks at either end. -/
def strip (s : String) : String := String.ofList (trimBlanks s.toList)

/-- The first word of a text and the rest after the blanks that end the word, both without blanks at
either end; `none` if the text is blank. -/
def firstWord? (s : String) : Option (String × String) :=
  match trimBlanks s.toList with
  | [] => none
  | c :: cs =>
    let word := (c :: cs).takeWhile (!isBlank ·)
    let rest := (c :: cs).dropWhile (!isBlank ·)
    some (String.ofList word, String.ofList (trimBlanks rest))

theorem strip_toList (s : String) : (strip s).toList = trimBlanks s.toList := by
  simp [strip]

end SequentCalculus.Text

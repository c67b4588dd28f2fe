import SequentCalculus.Text.Blank

/-!
# Text/Lines — texts as lines

A text file may end its lines by a line feed, a carriage return or both.  An input stream ends its
lines by line feeds only, and `takeLine?` takes the next line off it with its line feed.
-/

namespace SequentCalculus.Text

/-- Whether a character ends a line of a text file. -/
def isLineBreak (c : Char) : Bool := c == '\n' || c == '\r'

/-- The pieces between line breaks.  Between the two characters of a double break lies an empty
piece. -/
def splitLines : List Char → List (List Char)
  | [] => [[]]
  | c :: cs =>
    if isLineBreak c then [] :: splitLines cs
    else
      match splitLines cs with
      | [] => [[c]]
      | line :: lines => (c :: line) :: lines

/-- The lines of a text file that are not blank, trimmed. -/
def fileLines (s : String) : List String :=
  ((splitLines s.toList).map trimBlanks).filterMap fun line =>
    if line.isEmpty then none else some (String.ofList line)

/-- Every line break of a text file as one line feed. -/
def normalizeBreaks : List Char → List Char
  | '\r' :: '\n' :: cs => '\n' :: normalizeBreaks cs
  | c :: cs => (if c = '\r' then '\n' else c) :: normalizeBreaks cs
  | [] => []

/-- The next line of a stream, its line feed included, and the rest; `none` at the end. -/
def takeLine? (cs : List Char) : Option (List Char × List Char) :=
  if cs.isEmpty then none
  else some (cs.takeWhile (· != '\n') ++ (cs.dropWhile (· != '\n')).take 1,
    (cs.dropWhile (· != '\n')).drop 1)

/-- **A line and what follows it make up the stream.** -/
theorem append_of_takeLine? {cs line rest : List Char} (h : takeLine? cs = some (line, rest)) :
    line ++ rest = cs := by
  unfold takeLine? at h
  split at h
  · cases h
  · obtain ⟨rfl, rfl⟩ := Prod.mk.inj (Option.some.inj h)
    rw [List.append_assoc, List.take_append_drop, List.takeWhile_append_dropWhile]

/-- A line taken off a stream shortens it. -/
theorem length_lt_of_takeLine? {cs line rest : List Char} (h : takeLine? cs = some (line, rest)) :
    rest.length < cs.length := by
  unfold takeLine? at h
  split at h
  · cases h
  · rename_i hne
    obtain ⟨-, rfl⟩ := Prod.mk.inj (Option.some.inj h)
    cases cs with
    | nil => simp at hne
    | cons c cs =>
      rw [List.length_drop]
      have hle : ((c :: cs).dropWhile (· != '\n')).length ≤ (c :: cs).length :=
        (List.dropWhile_suffix _).length_le
      simp only [List.length_cons] at hle ⊢
      omega

end SequentCalculus.Text

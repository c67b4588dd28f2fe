import SequentCalculus.Document.Basic
import SequentCalculus.Progress

/-!
# Document/Reader — reading JSON

The reader takes JSON with three additions: `NaN`, `Infinity` and `-Infinity` are numbers.  A fault
is reported with the place where it was noticed, counted in characters and in lines and columns.
-/

namespace SequentCalculus.Document

/-- What can be wrong with a JSON text. -/
inductive Fault where
  | expectedValue
  | expectedName
  | expectedColon
  | expectedComma
  | unterminatedText
  | controlCharacter
  | badEscape
  | badUnicodeEscape
  | trailingText
  | byteOrderMark
  /-- An integer with more digits than are read. -/
  | longInteger (digits : Nat)
  deriving DecidableEq, Repr

/-- The words for a fault. -/
def Fault.words : Fault → String
  | expectedValue => "Expecting value"
  | expectedName => "Expecting property name enclosed in double quotes"
  | expectedColon => "Expecting ':' delimiter"
  | expectedComma => "Expecting ',' delimiter"
  | unterminatedText => "Unterminated string starting at"
  | controlCharacter => "Invalid control character at"
  | badEscape => "Invalid \\escape"
  | badUnicodeEscape => "Invalid \\uXXXX escape"
  | trailingText => "Extra data"
  | byteOrderMark => "Unexpected UTF-8 BOM (decode using utf-8-sig)"
  | longInteger digits =>
    "Exceeds the limit (4300 digits) for integer string conversion: value has "
      ++ toString digits ++ " digits; use sys.set_int_max_str_digits() to increase the limit"

/-- A fault noticed when some characters were left to read. -/
structure Stop where
  fault : Fault
  left : Nat
  deriving DecidableEq, Repr

/-- A step of the reader. -/
abbrev Read (α : Type) (n : Nat) := Except Stop (Progress Char α n)

/-- Whether a character may stand between the parts of a document. -/
def isGap (c : Char) : Bool := c == ' ' || c == '\t' || c == '\n' || c == '\r'

/-- The characters behind a gap. -/
def skipGap (cs : List Char) : List Char := cs.dropWhile isGap

theorem length_skipGap_le (cs : List Char) : (skipGap cs).length ≤ cs.length :=
  (List.dropWhile_suffix _).length_le

/-! ## Texts -/

/-- The value of a hexadecimal digit. -/
def hexValue? (c : Char) : Option Nat :=
  if '0' ≤ c ∧ c ≤ '9' then some (c.toNat - '0'.toNat)
  else if 'a' ≤ c ∧ c ≤ 'f' then some (c.toNat - 'a'.toNat + 10)
  else if 'A' ≤ c ∧ c ≤ 'F' then some (c.toNat - 'A'.toNat + 10)
  else none

/-- The number that four hexadecimal digits write, if they do not end the text. -/
def hexFour? : List Char → Option Nat
  | a :: b :: c :: d :: _ :: _ => do
    let a ← hexValue? a
    let b ← hexValue? b
    let c ← hexValue? c
    let d ← hexValue? d
    pure (((a * 16 + b) * 16 + c) * 16 + d)
  | _ => none

/-- The character that a single letter behind a backslash stands for. -/
def shortEscape? : Char → Option Char
  | '"' => some '"'
  | '\\' => some '\\'
  | '/' => some '/'
  | 'b' => some '\x08'
  | 'f' => some '\x0c'
  | 'n' => some '\n'
  | 'r' => some '\r'
  | 't' => some '\t'
  | _ => none

/-- The second half of a pair of code units, if one follows: the unit behind `\u`, when more text
follows it. -/
def lowUnit? : List Char → Option (Option Nat)
  | '\\' :: 'u' :: a :: b :: c :: d :: e :: rest => some (hexFour? (a :: b :: c :: d :: e :: rest))
  | _ => none

/-- The code of a unit of its own. -/
def ofUnit (n : Nat) : Text.Code := if n.isValidChar then .char (Char.ofNat n) else .half n

/-- What the escape behind `\u` writes: a character, by one unit or by the two halves of a pair, or
a half without its other half. -/
def readUnicode (cs : List Char) : Read Text.Code (cs.length + 1) :=
  match hexFour? cs with
  | none => .error ⟨.badUnicodeEscape, cs.length + 1⟩
  | some high =>
    let rest := cs.drop 4
    let alone : Progress Char Text.Code (cs.length + 1) :=
      ⟨ofUnit high, rest, by simp only [rest, List.length_drop]; omega⟩
    if 0xD800 ≤ high ∧ high ≤ 0xDBFF then
      match lowUnit? rest with
      | none => .ok alone
      | some none => .error ⟨.badUnicodeEscape, rest.length - 1⟩
      | some (some low) =>
        if 0xDC00 ≤ low ∧ low ≤ 0xDFFF then
          .ok ⟨.char (Char.ofNat (0x10000 + (high - 0xD800) * 0x400 + (low - 0xDC00))),
            rest.drop 6, by simp only [rest, List.length_drop]; omega⟩
        else .ok alone
    else .ok alone

/-- What the escape behind a backslash writes; `start` characters were left at the opening quote. -/
def readEscape (start : Nat) : (cs : List Char) → Read Text.Code (cs.length + 1)
  | [] => .error ⟨.unterminatedText, start⟩
  | c :: cs =>
    if c = 'u' then (readUnicode cs).map (·.weaken (by simp))
    else
      match shortEscape? c with
      | some d => .ok ⟨.char d, cs, by simp only [List.length_cons]; omega⟩
      | none => .error ⟨.badEscape, cs.length + 2⟩

/-- The text up to the closing quote; `start` characters were left at the opening one. -/
def readCodes (start : Nat) (cs : List Char) : Read LooseText (cs.length + 1) :=
  match cs with
  | [] => .error ⟨.unterminatedText, start⟩
  | c :: cs =>
    if c = '"' then .ok ⟨[], cs, by simp only [List.length_cons]; omega⟩
    else if c = '\\' then do
      let d ← readEscape start cs
      let more ← readCodes start d.rest
      pure ⟨d.value :: more.value, more.rest, by
        have := d.short
        have := more.short
        simp only [List.length_cons]
        omega⟩
    else if c.toNat < 0x20 then .error ⟨.controlCharacter, cs.length + 1⟩
    else do
      let more ← readCodes start cs
      pure ⟨.char c :: more.value, more.rest, by
        have := more.short
        simp only [List.length_cons]
        omega⟩
termination_by cs.length
decreasing_by
  · have := d.short
    simp only [List.length_cons]
    omega
  · simp only [List.length_cons]
    omega

/-- The text behind an opening quote. -/
def readText (cs : List Char) : Read LooseText (cs.length + 1) := readCodes (cs.length + 1) cs

/-! ## Numbers -/

/-- The digits at the front. -/
def digitsFront (cs : List Char) : List Char := cs.takeWhile Char.isDigit

/-- The number that decimal digits write. -/
def digitsValue (ds : List Char) : Nat := ds.foldl (fun n d => 10 * n + (d.toNat - '0'.toNat)) 0

/-- The digits of a whole part: a zero alone, or digits that do not start with one. -/
def wholeFront : List Char → List Char
  | [] => []
  | c :: cs => if c = '0' then ['0'] else digitsFront (c :: cs)

/-- A point with the digits behind it, if there are any. -/
def placesFront : List Char → List Char
  | '.' :: cs => if (digitsFront cs).isEmpty then [] else '.' :: digitsFront cs
  | _ => []

/-- An exponent: the letter, a sign if there is one, and digits; empty if no digits follow. -/
def exponentFront : List Char → List Char
  | c :: cs =>
    if c = 'e' ∨ c = 'E' then
      let sign := match cs with
        | '-' :: _ => ['-']
        | '+' :: _ => ['+']
        | _ => []
      let digits := digitsFront (cs.drop sign.length)
      if digits.isEmpty then [] else c :: sign ++ digits
    else []
  | [] => []

/-- The value of an exponent part. -/
def exponentValue (part : List Char) : Int :=
  match part.drop 1 with
  | '-' :: ds => -(digitsValue ds : Int)
  | '+' :: ds => digitsValue ds
  | ds => digitsValue ds

/-- The largest number of digits of an integer. -/
def integerDigits : Nat := 4300

/-- A number, if one starts here. -/
def readNumber (cs : List Char) : Read Document cs.length :=
  let sign := match cs with
    | '-' :: _ => ['-']
    | _ => []
  let afterSign := cs.drop sign.length
  let whole := wholeFront afterSign
  let places := placesFront (afterSign.drop whole.length)
  let exponent := exponentFront (afterSign.drop (whole.length + places.length))
  let rest := afterSign.drop (whole.length + places.length + exponent.length)
  if h : rest.length < cs.length ∧ !whole.isEmpty then
    if places.isEmpty && exponent.isEmpty then
      if integerDigits < whole.length then .error ⟨.longInteger whole.length, cs.length⟩
      else
        let n : Int := digitsValue whole
        .ok ⟨.int (if sign.isEmpty then n else -n), rest, h.1⟩
    else
      let digits := digitsValue (whole ++ places.drop 1)
      let scale := exponentValue exponent - ((places.drop 1).length : Int)
      .ok ⟨.float (.ofDecimal (!sign.isEmpty) digits scale), rest, h.1⟩
  else .error ⟨.expectedValue, cs.length⟩

/-- The values that are written as a word. -/
def wordValues : List (String × Document) :=
  [("null", .null), ("true", .bool true), ("false", .bool false), ("NaN", .float .nan),
    ("Infinity", .float (.infinite false)), ("-Infinity", .float (.infinite true))]

/-- The value of the word at the front, with the length of the word. -/
def wordFront? (cs : List Char) : Option (Nat × Document) :=
  (wordValues.find? fun (w, _) => w.toList.isPrefixOf cs).map fun (w, d) => (w.length, d)

/-- A word or a number. -/
def readScalar (cs : List Char) : Read Document cs.length :=
  match wordFront? cs with
  | some (n, d) =>
    if h : (cs.drop n).length < cs.length then .ok ⟨d, cs.drop n, h⟩
    else .error ⟨.expectedValue, cs.length⟩
  | none => readNumber cs

/-! ## Values -/

mutual

/-- A value. -/
def readValue (cs : List Char) : Read Document cs.length :=
  match cs with
  | [] => .error ⟨.expectedValue, 0⟩
  | c :: cs =>
    if c = '"' then (readText cs).map (·.map .text)
    else if c = '[' then
      match _h : skipGap cs with
      | [] => .error ⟨.expectedValue, 0⟩
      | d :: rest =>
        have hle := length_skipGap_le cs
        have hlen : rest.length + 1 ≤ cs.length := by rw [_h] at hle; simpa using hle
        if d = ']' then .ok ⟨.list [], rest, by simp only [List.length_cons]; omega⟩
        else
          (readItems (d :: rest)).map fun p =>
            (p.map .list).weaken (by simp only [List.length_cons]; omega)
    else if c = '\x7b' then
      match _h : skipGap cs with
      | [] => .error ⟨.expectedName, 0⟩
      | d :: rest =>
        have hle := length_skipGap_le cs
        have hlen : rest.length + 1 ≤ cs.length := by rw [_h] at hle; simpa using hle
        if d = '\x7d' then .ok ⟨.object [], rest, by simp only [List.length_cons]; omega⟩
        else
          (readFields (d :: rest)).map fun p =>
            (p.map fun fields => .object (Table.ofList fields).entries).weaken
              (by simp only [List.length_cons]; omega)
    else readScalar (c :: cs)
termination_by 2 * cs.length
decreasing_by all_goals (simp only [List.length_cons]; omega)

/-- The items of a list up to its closing bracket. -/
def readItems (cs : List Char) : Read (List Document) cs.length := do
  let item ← readValue cs
  have hitem := item.short
  match _h : skipGap item.rest with
  | [] => .error ⟨.expectedComma, 0⟩
  | d :: rest =>
    have hle := length_skipGap_le item.rest
    have hlen : rest.length + 1 ≤ item.rest.length := by rw [_h] at hle; simpa using hle
    if d = ']' then pure ⟨[item.value], rest, by omega⟩
    else if d = ',' then do
      have hgap := length_skipGap_le rest
      let more ← readItems (skipGap rest)
      pure ⟨item.value :: more.value, more.rest, by have := more.short; omega⟩
    else .error ⟨.expectedComma, rest.length + 1⟩
termination_by 2 * cs.length + 1
decreasing_by
  · omega
  · omega

/-- The fields of an object up to its closing brace. -/
def readFields (cs : List Char) : Read (List (LooseText × Document)) cs.length :=
  match cs with
  | [] => .error ⟨.expectedName, 0⟩
  | q :: cs =>
    if q = '"' then do
      let name ← readText cs
      have hname := name.short
      match _h : skipGap name.rest with
      | [] => .error ⟨.expectedColon, 0⟩
      | d :: rest =>
        have hle := length_skipGap_le name.rest
        have hlen : rest.length + 1 ≤ name.rest.length := by rw [_h] at hle; simpa using hle
        if d = ':' then do
          have hgap := length_skipGap_le rest
          let value ← readValue (skipGap rest)
          have hvalue := value.short
          match _h' : skipGap value.rest with
          | [] => .error ⟨.expectedComma, 0⟩
          | e :: rest =>
            have hle' := length_skipGap_le value.rest
            have hlen' : rest.length + 1 ≤ value.rest.length := by
              rw [_h'] at hle'
              simpa using hle'
            if e = '\x7d' then
              pure ⟨[(name.value, value.value)], rest, by simp only [List.length_cons]; omega⟩
            else if e = ',' then do
              have hgap' := length_skipGap_le rest
              let more ← readFields (skipGap rest)
              pure ⟨(name.value, value.value) :: more.value, more.rest, by
                have := more.short
                simp only [List.length_cons]
                omega⟩
            else .error ⟨.expectedComma, rest.length + 1⟩
        else .error ⟨.expectedColon, rest.length + 1⟩
    else .error ⟨.expectedName, cs.length + 1⟩
termination_by 2 * cs.length + 1
decreasing_by all_goals (simp only [List.length_cons]; omega)

end

/-- A fault in a text, at a number of characters from its start. -/
structure ReadError where
  text : List Char
  fault : Fault
  offset : Nat
  deriving DecidableEq, Repr

namespace ReadError

/-- Whether the fault is one of the syntax, and not a limit on numbers. -/
def isSyntax (e : ReadError) : Bool :=
  match e.fault with
  | .longInteger _ => false
  | _ => true

/-- The text of the error: the fault with its line, column and offset. -/
def message (e : ReadError) : String :=
  if e.isSyntax then
    let before := e.text.take e.offset
    let line := before.count '\n' + 1
    let column := (before.reverse.takeWhile (· != '\n')).length + 1
    s!"{e.fault.words}: line {line} column {column} (char {e.offset})"
  else e.fault.words

end ReadError

/-- The document that a whole text writes. -/
def readAll (cs : List Char) : Except Stop Document := do
  if cs.head? = some '\ufeff' then throw ⟨.byteOrderMark, cs.length⟩
  let p ← readValue (skipGap cs)
  let rest := skipGap p.rest
  if rest.isEmpty then pure p.value else throw ⟨.trailingText, rest.length⟩

/-- The document that a JSON text stands for. -/
def ofJson (cs : List Char) : Except ReadError Document :=
  (readAll cs).mapError fun stop => ⟨cs, stop.fault, cs.length - stop.left⟩

end SequentCalculus.Document

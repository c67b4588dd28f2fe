import SequentCalculus.Distinct
import SequentCalculus.Registry.Basic

/-!
# Token — the tokens of a sequent text

A text is cut into names, symbols and punctuation; blanks separate and are dropped.  At each place a
name goes first, then the longest symbol: one of the registry's, a turnstile or the arrow.  A name
that the registry knows is a connective, any other name is an atom.

The arrow `->` may be a connective of the registry and separates a sequent all the same, so a token
keeps the text it was cut from.
-/

namespace SequentCalculus

/-- What is wrong with a text that is no sequent or no formula. -/
inductive SyntaxError where
  | emptyFormula
  | emptySequent
  | unexpectedEnd
  | unexpected (text : LooseText)
  | expectedClosing (found : Option LooseText)
  | unexpectedCharacter (c : Text.Code)
  | turnstileInside (text : LooseText)
  | manyTurnstiles
  | unknownConnective (e : UnknownConnective)
  deriving DecidableEq, Repr

/-- The text of the error. -/
def SyntaxError.message : SyntaxError → LooseText
  | emptyFormula => "empty formula"
  | emptySequent => "empty sequent"
  | unexpectedEnd => "unexpected end of input"
  | unexpected text => "unexpected '" ++ text ++ "'"
  | expectedClosing found => "expected ')' but found '" ++ found.getD "end of input" ++ "'"
  | unexpectedCharacter c => "unexpected character '" ++ [c] ++ "'"
  | turnstileInside text => "'" ++ text ++ "' inside parentheses"
  | manyTurnstiles => "more than one turnstile"
  | unknownConnective e => e.message

/-- The kind of a token. -/
inductive Tag where
  | atom
  | opening
  | closing
  | comma
  | turnstile
  | arrow
  | connective (c : Connective)
  deriving DecidableEq, Repr

/-- The name of a kind of token. -/
def Tag.name : Tag → String
  | atom => "atom"
  | opening => "("
  | closing => ")"
  | comma => ","
  | turnstile => "turnstile"
  | arrow => "arrow"
  | connective c => c.label

/-- A token with the text it was cut from. -/
structure Token where
  tag : Tag
  text : LooseText
  deriving DecidableEq, Repr

namespace Token

/-- The turnstiles. -/
def turnstiles : List LooseText := ["|-", "⊢"]

/-- The arrow that separates a sequent without a turnstile. -/
def arrowText : LooseText := "->"

/-- The symbols that are looked for, longest first. -/
def symbols (r : Registry) : List LooseText :=
  Symbol.longestFirst (appendNew r.operators (turnstiles ++ [arrowText]))

/-- The first of some symbols that a text starts with. -/
def symbolFront? (symbols : List LooseText) (cs : LooseText) : Option LooseText :=
  symbols.find? fun s => s.isPrefixOf cs

/-- The token of a punctuation character. -/
def punctuation? (c : Text.Code) : Option Token :=
  if c = .char '(' then some ⟨.opening, "("⟩
  else if c = .char ')' then some ⟨.closing, ")"⟩
  else if c = .char ',' then some ⟨.comma, ","⟩
  else none

/-- The token of a name. -/
def ofName (r : Registry) (name : LooseText) : Token :=
  match r.lookup? name with
  | some c => ⟨.connective c, name⟩
  | none => ⟨.atom, name⟩

/-- The token of a symbol. -/
def ofSymbol (r : Registry) (symbol : LooseText) : Token :=
  if symbol ∈ turnstiles then ⟨.turnstile, symbol⟩
  else
    match r.lookup? symbol with
    | some c => ⟨.connective c, symbol⟩
    | none => ⟨.arrow, symbol⟩

/-- The text up to a blank, a word or punctuation. -/
def symbolRun (cs : LooseText) : LooseText :=
  cs.takeWhile fun c => !c.isWordChar && !c.isBlank && !isPunctuation c

/-- The error at a text that starts with no token. -/
def scanError (c : Text.Code) (cs : LooseText) : SyntaxError :=
  if c.isWordChar then .unexpectedCharacter c
  else .unknownConnective (.unregistered (symbolRun (c :: cs)))

/-- The tokens of a text, given the symbols to look for. -/
def scanWith (r : Registry) (symbols : List LooseText) : LooseText → Except SyntaxError (List Token)
  | [] => .ok []
  | c :: cs =>
    if c.isBlank then scanWith r symbols cs
    else
      match punctuation? c with
      | some t => (scanWith r symbols cs).map (t :: ·)
      | none =>
        if _h : c.isNameStart then
          let name := LooseText.nameFront (c :: cs)
          (scanWith r symbols (LooseText.nameRest (c :: cs))).map (ofName r name :: ·)
        else
          match symbolFront? symbols (c :: cs) with
          | some s => (scanWith r symbols (cs.drop (s.length - 1))).map (ofSymbol r s :: ·)
          | none => .error (scanError c cs)
termination_by cs => cs.length
decreasing_by
  · simp
  · simp
  · have := LooseText.length_nameRest_le _h cs
    simp only [List.length_cons]
    omega
  · simp only [List.length_drop, List.length_cons]
    omega

/-- The tokens of a text. -/
def scan (r : Registry) (text : LooseText) : Except SyntaxError (List Token) :=
  scanWith r (symbols r) text

/-- The depth of parentheses behind a token. -/
def depthAfter (t : Token) (depth : Int) : Int :=
  match t.tag with
  | .opening => depth + 1
  | .closing => depth - 1
  | _ => depth

end Token

end SequentCalculus

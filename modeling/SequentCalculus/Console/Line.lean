import SequentCalculus.Countermodel
import SequentCalculus.Derivation.Basic
import SequentCalculus.Registry.Basic

/-!
# Console/Line — the lines that the console writes

A line is kept as what it says until it is written: its content has one case for each thing that a
report may say, and the text of each case stands in one place.
-/

namespace SequentCalculus.Console

/-- What a line says. -/
inductive Content where
  | blank
  /-- Words that depend on nothing. -/
  | words (text : String)
  | proofOf (text : LooseText)
  | valuationsOf (text : LooseText)
  | unknownConnective (e : UnknownConnective)
  | notSequent
  | fileMissing (path : String)
  | node (sequent : LooseText)
  | mark (status : Status)
  | valid
  | notValid
  | counterExample (sequent : LooseText)
  | valuation (index : Nat) (observation : String × Bool)
  /-- A text of several lines. -/
  | code (text : String)
  deriving DecidableEq, Repr

/-- An example of a sequent. -/
def exampleText : String := "A & B -> B | C, D"

/-- The text of a line without its indentation. -/
def Content.text : Content → LooseText
  | blank => ""
  | words text => text
  | proofOf text => "Proof tree of: " ++ text
  | valuationsOf text => "Falsifying valuations of: " ++ text
  | unknownConnective e => e.message ++ "."
  | notSequent => "Not a valid sequent. Ex: " ++ exampleText
  | fileMissing path => "File not found - " ++ path
  | node sequent => "sequent = " ++ sequent
  | mark status => s!"          ** {status.name} node **"
  | valid => "Formula is valid."
  | notValid => "Formula is not valid, details below."
  | counterExample sequent => sequent
  | valuation index observation => observationText index observation
  | code text => text

/-- A line with its indentation. -/
structure Line where
  indent : String
  content : Content
  deriving DecidableEq, Repr

namespace Line

/-- A line without indentation. -/
def plain (content : Content) : Line := ⟨"", content⟩

/-- An empty line. -/
def blank : Line := plain .blank

/-- The text of a line. -/
def text (l : Line) : LooseText := l.indent ++ l.content.text

/-- Lines of fixed words. -/
def ofWords (texts : List String) : List Line := texts.map fun text => plain (.words text)

/-- One line for each observation, numbered from zero. -/
def ofObservations (indent : String) (os : List (String × Bool)) : List Line :=
  os.zipIdx.map fun (o, i) => ⟨indent, .valuation i o⟩

end Line

end SequentCalculus.Console

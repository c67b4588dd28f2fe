import SequentCalculus.Decimal.Floating
import SequentCalculus.Table
import SequentCalculus.Text.Loose

/-!
# Document/Basic — values of a configuration file

A document is what a JSON text stands for.  Objects list their fields in the order in which they
first occur; a repeated field keeps its place and takes the last value.  Integers are exact, and
numbers with a point or an exponent are double-precision.  Texts are loose: an escape may write half
of a surrogate pair.
-/

namespace SequentCalculus

/-- A value in a configuration file. -/
inductive Document where
  | null
  | bool (value : Bool)
  | int (value : Int)
  | float (value : Floating)
  | text (value : LooseText)
  | list (items : List Document)
  | object (fields : List (LooseText × Document))
  deriving Repr

namespace Document

/-- The value of a field of an object. -/
def field? (name : String) : Document → Option Document
  | object fields => Table.valueOf? (.ofString name) fields
  | _ => none

mutual

/-- A document on one line, texts between quotes. -/
def literal : Document → String
  | null => "None"
  | bool true => "True"
  | bool false => "False"
  | int n => toString n
  | float x => x.text
  | text t => t.quoted
  | list items => "[" ++ ", ".intercalate (literals items) ++ "]"
  | object fields => "\x7b" ++ ", ".intercalate (fieldLiterals fields) ++ "\x7d"

/-- The literals of a list of documents. -/
def literals : List Document → List String
  | [] => []
  | d :: ds => literal d :: literals ds

/-- The literals of the fields of an object. -/
def fieldLiterals : List (LooseText × Document) → List String
  | [] => []
  | (name, d) :: fields => (name.quoted ++ ": " ++ literal d) :: fieldLiterals fields

end

/-- What a document names: a text names itself, any other value is named by its literal. -/
def name : Document → LooseText
  | text t => t
  | d => literal d

end Document

end SequentCalculus

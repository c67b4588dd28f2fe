import SequentCalculus.Document.Reader
import SequentCalculus.Files
import SequentCalculus.Registry.Basic
import SequentCalculus.Text.Lines

/-!
# Registry/Load — symbols from a configuration file

A configuration file is a JSON object whose field `symbols` gives connectives, by their labels, for
further symbols.  The file is taken as a whole or not at all: a file that cannot be used leaves the
registry as it was, with a warning.  Only a label that names no connective is an error, and so is a
file that is no text.
-/

namespace SequentCalculus.Registry

/-- Why a configuration file stops the program. -/
inductive LoadError where
  /-- The file is no text. -/
  | notText (e : DecodeError)
  /-- A symbol is given something that names no connective. -/
  | unknownName (path : String) (symbol : LooseText) (value : Document)
  /-- A number in the file has too many digits. -/
  | number (e : Document.ReadError)
  deriving Repr

/-- The text of the error. -/
def LoadError.message : LoadError → LooseText
  | notText e => e.message
  | unknownName path symbol value =>
    path ++ ": '" ++ symbol ++ "' maps to unknown connective '" ++ value.name ++ "'"
  | number e => e.message

/-- Why a configuration file is left out. -/
inductive Neglect where
  | unreadable (e : FileError)
  | malformed (e : Document.ReadError)
  | symbolsNotObject
  | symbols (e : SymbolError)
  deriving Repr

/-- The text of a warning about the file at a path. -/
def Neglect.message (path : String) (why : Neglect) : String :=
  let reason := match why with
    | unreadable e => e.message path
    | malformed e => e.message
    | symbolsNotObject => "'symbols' is not an object"
    | symbols e => e.message
  s!"ignoring connective configuration {path}: {reason}"

/-- A registry, and why the file was left out of it, if it was. -/
structure Loaded where
  registry : Registry
  neglect : Option Neglect

/-- The connectives that the fields of an object name, or the first field that names none. -/
def resolveNames (path : String) :
    List (LooseText × Document) → Except LoadError (List (LooseText × Connective))
  | [] => .ok []
  | (symbol, value) :: fields =>
    match value.name.text?.bind Connective.ofLabel? with
    | none => .error (.unknownName path symbol value)
    | some c => (resolveNames path fields).map ((symbol, c) :: ·)

/-- The registry extended by the symbols of a document. -/
def loadDocument (path : String) (base : Registry) (d : Document) : Except LoadError Loaded :=
  match d.field? "symbols" with
  | none => extendBy []
  | some (.object fields) => do extendBy (← resolveNames path fields)
  | some _ => .ok ⟨base, some .symbolsNotObject⟩
where
  /-- The registry extended by symbols, or as it was if one of them is refused. -/
  extendBy (symbols : List (LooseText × Connective)) : Except LoadError Loaded :=
    match base.extend symbols with
    | .ok r => .ok ⟨r, none⟩
    | .error e => .ok ⟨base, some (.symbols e)⟩

/-- The registry extended by the configuration file that a path leads to. -/
def load (files : Files) (path : String) (base : Registry) : Except LoadError Loaded :=
  match files path with
  | .error .isDirectory => .ok ⟨base, some (.unreadable .isDirectory)⟩
  | .error _ => .ok ⟨base, none⟩
  | .ok bytes =>
    match decodeText bytes with
    | .error e => .error (.notText e)
    | .ok text =>
      match Document.ofJson (Text.normalizeBreaks text.toList) with
      | .error e => if e.isSyntax then .ok ⟨base, some (.malformed e)⟩ else .error (.number e)
      | .ok d => loadDocument path base d

end SequentCalculus.Registry

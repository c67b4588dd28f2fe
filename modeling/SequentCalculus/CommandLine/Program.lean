import SequentCalculus.CommandLine.Options
import SequentCalculus.Console.Command
import SequentCalculus.Registry.Load

/-!
# CommandLine/Program — the program from its arguments to its exit status

With sequents or a file to work on, the program reports on each of them and its status tells the
outcome: `2` if some text is no sequent, otherwise `0` if all sequents are valid and `1` if not.
Without work it runs a session on its input.
-/

namespace SequentCalculus.Program

open SequentCalculus.Console

/-- How the program uses its arguments. -/
def usageLines : List String := [
  "usage: sequent-prover [-h] [-f] [--file FILE] [--symbols SYMBOLS] [--latex]",
  "                      [-v] [--gui]",
  "                      [sequents ...]"]

/-- What the arguments mean. -/
def helpLines : List String := usageLines ++ [
  "",
  "Decide propositional sequents with Gentzen proof trees and list countermodels.",
  "",
  "positional arguments:",
  "  sequents           sequents to prove, e.g. '" ++ exampleText ++ "'",
  "",
  "options:",
  "  -h, --help         show this help message and exit",
  "  -f, --falsify      list falsifying valuations instead of proof trees",
  "  --file FILE        prove every line of a file, or falsify it with --falsify",
  "  --symbols SYMBOLS  JSON file with extra connective symbols",
  "  --latex            also print proof trees as LaTeX",
  "  -v, --verbose      log every decomposition step",
  "  --gui              open the desktop viewer"]

/-- How the program ends. -/
inductive Ending where
  /-- It has done its work. -/
  | finished (status : Nat)
  /-- It stops at its arguments. -/
  | exited (status : Nat)
  /-- A run has failed. -/
  | failed (e : Failure)
  /-- The symbol file cannot be used. -/
  | symbolsFailed (e : Registry.LoadError)
  deriving Repr

/-- What the program does and how it ends. -/
structure Outcome where
  events : List Event
  verbose : Bool
  ending : Ending

namespace Outcome

/-- The output. -/
def output (o : Outcome) : LooseText := o.events.flatMap Event.output

/-- The error output. -/
def errorOutput (o : Outcome) : LooseText := o.events.flatMap (Event.errorOutput o.verbose)

/-- The program stops at an error in its arguments. -/
def ofArgumentError (verbose : Bool) (e : ArgumentError) : Outcome :=
  let usage := String.join (usageLines.map (· ++ "\n"))
  ⟨[.complaint (usage ++ "sequent-prover: error: " ++ e.message ++ "\n")], verbose, .exited 2⟩

/-- The program ends with a run. -/
def ofRun (before : List Event) (verbose : Bool) (r : Run Nat) : Outcome :=
  ⟨before ++ r.events, verbose,
    match r.result with
    | .ok status => .finished status
    | .error e => .failed e⟩

end Outcome

/-- The status for the verdicts on all texts, `none` for a text that is no sequent. -/
def statusOf (verdicts : List (Option Bool)) : Nat :=
  if verdicts.any (·.isNone) then 2 else if verdicts.all (· = some true) then 0 else 1

/-- The verdict on a text, from its proof report. -/
def proveVerdict (c : Console) (latex : Bool) (text : String) : Run (Option Bool) := do
  pure ((← c.prove latex text).map (·.isClosed))

/-- The verdict on a text, from its falsification report. -/
def falsifyVerdict (c : Console) (text : String) : Run (Option Bool) := do
  pure ((← c.falsify "" text).map (·.isEmpty))

/-- The verdict on a text, in the mode that the options ask for. -/
def verdict (c : Console) (o : Options) (text : String) : Run (Option Bool) :=
  if o.falsify then falsifyVerdict c text else proveVerdict c o.latex text

/-- Reports on the file and the sequents of the options. -/
def work (c : Console) (o : Options) : Run Nat := do
  let fromFile ← match o.file with
    | none => pure (some [])
    | some path => c.onFile (verdict c o) path
  match fromFile with
  | none => pure 2
  | some verdicts => do
    let more ← o.sequents.mapM (verdict c o)
    pure (statusOf (verdicts ++ more))

/-- Whether the options leave the program to its input. -/
def isSession (o : Options) : Bool := !o.viewer && o.sequents.isEmpty && o.file.isNone

/-- What the program does in a setting, given its options and its input. -/
def perform (c : Console) (o : Options) (input : List Char) : Run Nat :=
  if o.viewer then pure 0
  else if isSession o then do
    c.session input
    pure 0
  else work c o

/-- The registry that the options ask for, and what loading it logs. -/
def registryFor (files : Files) (o : Options) :
    Except Outcome (Registry × List Event) :=
  match o.symbols with
  | none => .ok (.default, [])
  | some path =>
    if (files path).isFile then
      match Registry.load files path .default with
      | .ok loaded =>
        .ok (loaded.registry, (loaded.neglect.map fun why =>
          Event.log ⟨.warning, .symbols, why.message path⟩).toList)
      | .error (.unknownName path symbol value) =>
        .error (.ofArgumentError o.verbose
          (.symbolFile (Registry.LoadError.unknownName path symbol value).message))
      | .error e => .error ⟨[], o.verbose, .symbolsFailed e⟩
    else .error (.ofArgumentError o.verbose (.symbolFileMissing path))

/-- A program that is ready to work. -/
structure Setup where
  options : Options
  console : Console
  /-- What has been done so far. -/
  events : List Event

/-- Gets the program ready for its arguments. -/
def setUp (files : Files) (terminal : Bool) (args : List String) : Except Outcome Setup :=
  match Options.ofArguments args with
  | .error .help => .error ⟨(Line.ofWords helpLines).map .line, false, .exited 0⟩
  | .error (.error e) => .error (.ofArgumentError false e)
  | .ok o => do
    let (registry, events) ← registryFor files o
    pure ⟨o, ⟨registry, files, terminal⟩, events⟩

/-- The files that the arguments name. -/
def paths (args : List String) : List String :=
  match Options.ofArguments args with
  | .error _ => []
  | .ok o => o.symbols.toList ++ o.file.toList

/-- The program, from its arguments and its input to its end. -/
def run (files : Files) (terminal : Bool) (args : List String) (input : List Char) : Outcome :=
  match setUp files terminal args with
  | .error outcome => outcome
  | .ok setup =>
    .ofRun setup.events setup.options.verbose (perform setup.console setup.options input)

end SequentCalculus.Program

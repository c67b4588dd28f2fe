import SequentCalculus.Console.Report

/-!
# Console/Command — command lines and sessions

The first word of a command line says what to do, the rest of the line is its argument.  A session
reads command lines from a stream until one says to quit or the stream ends.
-/

namespace SequentCalculus

/-- A command. -/
inductive Command where
  | nothing
  | quit
  | help
  | clear
  | prove (text : String)
  | falsify (text : String)
  | proveFile (path : String)
  | missingArgument
  | unknown
  deriving DecidableEq, Repr

namespace Command

/-- A command with an argument, if there is one. -/
def withArgument (command : String → Command) (argument : String) : Command :=
  if argument.isEmpty then missingArgument else command argument

/-- The command with a name and an argument. -/
def ofWords (name argument : String) : Command :=
  if name = "q" then quit
  else if name = "h" then help
  else if name = "c" then clear
  else if name = "." then withArgument proveFile argument
  else if name = "?" then withArgument prove argument
  else if name = "f" then withArgument falsify argument
  else unknown

/-- The command that a line gives. -/
def ofLine (line : String) : Command :=
  match Text.firstWord? line with
  | none => nothing
  | some (name, argument) => ofWords name argument

/-- The file that a command reads. -/
def path? : Command → Option String
  | proveFile path => some path
  | _ => none

end Command

namespace Console

/-- The help. -/
def helpLines : List Line :=
  Line.ofWords [
    "Help",
    "==================",
    "",
    "? [sequent]     to load a sequent from input and show proof tree.",
    "f [sequent]     to load a sequent from input and list all falsifying valuations.",
    ". [path]        to load a sequent from file.",
    "c               to clear console.",
    "h               to help.",
    "q               to quit.",
    ""]

/-- The control sequence that clears a terminal. -/
def clearScreen : String := "\x1b[2J\x1b[H"

/-- Runs a command; the result says whether to go on. -/
def perform (c : Console) : Command → Run Bool
  | .nothing => pure true
  | .quit => pure false
  | .help => do
    Run.write helpLines
    pure true
  | .clear => do
    if c.terminal then Run.writePiece clearScreen
    pure true
  | .prove text => do
    let _ ← c.prove false text
    pure true
  | .falsify text => do
    let _ ← c.falsify "" text
    pure true
  | .proveFile path => do
    let _ ← c.proveFile false path
    pure true
  | .missingArgument => do
    Run.write (Line.ofWords ["Required parameter is missing, type 'h' for help.", ""])
    pure true
  | .unknown => do
    Run.write (Line.ofWords [
      "Invalid input, type 'h' for help.",
      "Hint: to prove a propositional formula, use '? [sequent]' command.",
      ""])
    pure true

/-- Runs the command that a line gives. -/
def execute (c : Console) (line : String) : Run Bool := c.perform (Command.ofLine line)

/-- What asks for the next command. -/
def prompt : String := ": "

/-- Prompts and runs the command on the next line; at the end of the stream there is none. -/
def turn (c : Console) (line? : Option String) : Run Bool := do
  Run.writePiece prompt
  match line? with
  | none => pure false
  | some line => c.execute line

/-- Whether a session goes on behind a turn. -/
def goesOn (r : Run Bool) : Bool :=
  match r.result with
  | .ok again => again
  | .error _ => false

/-- The turns of a session on a stream. -/
def turns (c : Console) (input : List Char) : List (Run Bool) :=
  match _h : Text.takeLine? input with
  | none => [c.turn none]
  | some (line, rest) =>
    let r := c.turn (some (String.ofList line))
    if goesOn r then r :: turns c rest else [r]
termination_by input.length
decreasing_by exact Text.length_lt_of_takeLine? _h

/-- Runs one after the other, up to the first failure. -/
def inOrder : List (Run Bool) → Run Unit
  | [] => pure ()
  | r :: rs => do
    let _ ← r
    inOrder rs

/-- A whole session. -/
def session (c : Console) (input : List Char) : Run Unit := inOrder (c.turns input)

end Console

end SequentCalculus

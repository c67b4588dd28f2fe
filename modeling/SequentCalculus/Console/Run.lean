import SequentCalculus.Console.Line
import SequentCalculus.Files
import SequentCalculus.Sequent.Decomposition

/-!
# Console/Run — what a piece of the program does

A run writes, logs and reports in some order and ends in a result or in a failure.  Runs are
composed as a monad: the events of the parts follow each other, and a failure ends the whole.
-/

namespace SequentCalculus.Console

/-- How much a log record matters. -/
inductive Level where
  | debug
  | warning
  deriving DecidableEq, Repr

/-- The name of a level. -/
def Level.name : Level → String
  | debug => "DEBUG"
  | warning => "WARNING"

/-- The part of the program that a log record comes from. -/
inductive Channel where
  | search
  | symbols
  | console
  deriving DecidableEq, Repr

/-- The name of a channel. -/
def Channel.name : Channel → String
  | search => "sequentSolver"
  | symbols => "sequentSyntax"
  | console => "sequentShell"

/-- A message in the log. -/
structure LogRecord where
  level : Level
  channel : Channel
  message : LooseText
  deriving DecidableEq, Repr

/-- The line of a log record. -/
def LogRecord.text (r : LogRecord) : LooseText :=
  r.level.name ++ " " ++ r.channel.name ++ ": " ++ r.message ++ "\n"

/-- One thing that a run does. -/
inductive Event where
  /-- A line of output. -/
  | line (l : Line)
  /-- A piece of output that ends no line. -/
  | piece (text : String)
  /-- A log record. -/
  | log (r : LogRecord)
  /-- A text for the error output. -/
  | complaint (text : LooseText)
  deriving DecidableEq, Repr

namespace Event

/-- What an event adds to the output. -/
def output : Event → LooseText
  | line l => l.text ++ "\n"
  | piece text => text
  | _ => ""

/-- What an event adds to the error output.  Records below a warning show up only on demand. -/
def errorOutput (verbose : Bool) : Event → LooseText
  | log r => if r.level = .warning ∨ verbose then r.text else ""
  | complaint text => text
  | _ => ""

/-- The line that an event writes. -/
def line? : Event → Option Line
  | line l => some l
  | _ => none

end Event

/-- Why a run ends without a result. -/
inductive Failure where
  /-- A connective cannot be written. -/
  | unwritable (e : UnknownConnective)
  /-- A premise is not less complex than its conclusion. -/
  | growth (e : Sequent.GrowthError)
  /-- A leaf describes no countermodel. -/
  | reducible (e : Sequent.ReducibleError)
  /-- A file is no text. -/
  | notText (e : DecodeError)
  deriving DecidableEq, Repr

/-- The text of a failure. -/
def Failure.message : Failure → LooseText
  | unwritable e => e.message
  | growth e => e.message
  | reducible e => e.message
  | notText e => e.message

/-- The events of a run and what it ends in. -/
structure Run (α : Type) where
  events : List Event
  result : Except Failure α

namespace Run

variable {α β : Type}

/-- A run that goes on with the result of another. -/
def andThen (r : Run α) (f : α → Run β) : Run β :=
  match r.result with
  | .ok a =>
    let next := f a
    ⟨r.events ++ next.events, next.result⟩
  | .error e => ⟨r.events, .error e⟩

instance : Monad Run where
  pure a := ⟨[], .ok a⟩
  bind := andThen

/-- Writes lines. -/
def write (lines : List Line) : Run Unit := ⟨lines.map .line, .ok ()⟩

/-- Writes a piece of output that ends no line. -/
def writePiece (text : String) : Run Unit := ⟨[.piece text], .ok ()⟩

/-- Writes messages to the log. -/
def log (level : Level) (channel : Channel) (messages : List LooseText) : Run Unit :=
  ⟨messages.map fun message => .log ⟨level, channel, message⟩, .ok ()⟩

/-- Ends in a failure. -/
def fail (e : Failure) : Run α := ⟨[], .error e⟩

/-- Goes on with a result that may be an error. -/
def ofExcept {ε : Type} (failure : ε → Failure) (r : Except ε α) : Run α := ⟨[], r.mapError failure⟩

/-- The lines that a run writes. -/
def lines (r : Run α) : List Line := r.events.filterMap Event.line?

/-- The output of a run. -/
def output (r : Run α) : LooseText := r.events.flatMap Event.output

@[simp] theorem events_pure (a : α) : (pure a : Run α).events = [] := rfl

@[simp] theorem result_pure (a : α) : (pure a : Run α).result = .ok a := rfl

theorem bind_of_ok {r : Run α} {a : α} (h : r.result = .ok a) (f : α → Run β) :
    r >>= f = ⟨r.events ++ (f a).events, (f a).result⟩ := by
  change andThen r f = _
  rw [andThen, h]

theorem bind_of_error {r : Run α} {e : Failure} (h : r.result = .error e) (f : α → Run β) :
    r >>= f = ⟨r.events, .error e⟩ := by
  change andThen r f = _
  rw [andThen, h]

end Run

end SequentCalculus.Console

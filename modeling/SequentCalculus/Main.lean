import SequentCalculus.CommandLine.Program

/-!
# Main — the program at the command line

The files that the arguments name are read before the program runs.  In a session each command is
answered before the next one is read, with the file that the command names.
-/

namespace SequentCalculus

/-- Why a file could not be read. -/
def fileErrorOf : IO.Error → FileError
  | .inappropriateType _ code _ => if code = 21 then .isDirectory else .notDirectory
  | .invalidArgument .. => .nameTooLong
  | _ => .missing

/-- Reads what a path leads to. -/
def readEntry (path : String) : IO FileEntry := do
  if path.toList.contains '\x00' then return .error .nullInName
  try
    let bytes ← IO.FS.readBinFile path
    return .ok bytes
  catch e => return .error (fileErrorOf e)

/-- Reads what some paths lead to. -/
def readFiles (paths : List String) : IO Files := do
  let entries ← paths.mapM fun path => do
    let entry ← readEntry path
    pure (path, entry)
  return fun path => (Table.valueOf? path entries).getD (.error .missing)

/-- Carries out events. -/
def emit (verbose : Bool) (events : List Console.Event) : IO Unit := do
  let output ← IO.getStdout
  let errorOutput ← IO.getStderr
  for e in events do
    output.putStr e.output.shown
    errorOutput.putStr (e.errorOutput verbose).shown
  output.flush

/-- Reports how the program ended. -/
def reportEnding : Program.Ending → IO UInt32
  | .finished status => return status.toUInt32
  | .exited status => return status.toUInt32
  | .failed e => do
    IO.eprintln e.message.shown
    return 1
  | .symbolsFailed e => do
    IO.eprintln e.message.shown
    return 1

/-- Answers commands until one of them ends the session. -/
partial def interact (setup : Program.Setup) : IO UInt32 := do
  emit false [.piece Console.prompt]
  let line ← (← IO.getStdin).getLine
  if line.isEmpty then return 0
  let files ← readFiles (Command.ofLine line).path?.toList
  let r := { setup.console with files := files }.execute line
  emit setup.options.verbose r.events
  match r.result with
  | .ok true => interact setup
  | .ok false => return 0
  | .error e => reportEnding (.failed e)

end SequentCalculus

open SequentCalculus in
/-- The program. -/
def main (args : List String) : IO UInt32 := do
  let files ← readFiles (Program.paths args)
  let terminal ← (← IO.getStdout).isTty
  match Program.setUp files terminal args with
  | .error outcome =>
    emit outcome.verbose outcome.events
    reportEnding outcome.ending
  | .ok setup =>
    if Program.isSession setup.options then
      emit setup.options.verbose setup.events
      interact setup
    else
      let outcome := Program.run files terminal args []
      emit outcome.verbose outcome.events
      reportEnding outcome.ending

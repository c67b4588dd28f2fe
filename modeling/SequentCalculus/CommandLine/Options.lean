import SequentCalculus.Text.DecimalDigit
import SequentCalculus.Text.Loose

/-!
# CommandLine/Options — what the arguments of the program ask for

Arguments are first told apart: options, operands, and the divider `--` behind which all are
operands.  A long option may be shortened as long as one option starts that way, and takes its value
behind `=` or from the next operand.  Flags of one letter may be joined.

Then they are taken in order.  The operands that stand together first are the sequents; any further
ones are left over, and so are unknown options.  Asking for help ends this at once, and what is left
over is an error at the end.
-/

namespace SequentCalculus

/-! ## Options and their names -/

/-- An option without a value. -/
inductive Flag where
  | help
  | falsify
  | latex
  | verbose
  | viewer
  deriving DecidableEq, Repr

/-- An option with a value. -/
inductive Setting where
  | file
  | symbols
  deriving DecidableEq, Repr

/-- An option. -/
inductive Switch where
  | flag (f : Flag)
  | setting (s : Setting)
  deriving DecidableEq, Repr

/-- The names of a flag. -/
def Flag.names : Flag → List String
  | help => ["-h", "--help"]
  | falsify => ["-f", "--falsify"]
  | latex => ["--latex"]
  | verbose => ["-v", "--verbose"]
  | viewer => ["--gui"]

/-- The name of a setting. -/
def Setting.name : Setting → String
  | file => "--file"
  | symbols => "--symbols"

namespace Switch

/-- The names of an option. -/
def names : Switch → List String
  | flag f => f.names
  | setting s => [s.name]

/-- All options, in the order in which they are explained. -/
def all : List Switch :=
  [flag .help, flag .falsify, setting .file, setting .symbols, flag .latex, flag .verbose,
    flag .viewer]

/-- All names of options, each with its option. -/
def named : List (String × Switch) := all.flatMap fun s => s.names.map (·, s)

/-- The option with a name. -/
def ofName? (name : String) : Option Switch :=
  (named.find? fun entry => entry.1 = name).map Prod.snd

end Switch

/-- The flag with a letter. -/
def Flag.ofLetter? (c : Char) : Option Flag :=
  match Switch.ofName? (String.ofList ['-', c]) with
  | some (.flag f) => some f
  | _ => none

/-! ## Errors -/

/-- Why the arguments are refused. -/
inductive ArgumentError where
  | ambiguous (arg : String) (candidates : List String)
  | ignoredValue (f : Flag) (value : String)
  | missingValue (s : Setting)
  | unrecognized (args : List String)
  | symbolFileMissing (path : String)
  | symbolFile (message : LooseText)
  deriving DecidableEq, Repr

/-- The text of the error. -/
def ArgumentError.message : ArgumentError → LooseText
  | ambiguous arg candidates =>
    "ambiguous option: " ++ arg ++ " could match " ++ ", ".intercalate candidates
  | ignoredValue f value =>
    "argument " ++ "/".intercalate f.names ++ ": ignored explicit argument " ++ Text.quoted value
  | missingValue s => "argument " ++ s.name ++ ": expected one argument"
  | unrecognized args => "unrecognized arguments: " ++ " ".intercalate args
  | symbolFileMissing path => "symbol file not found: " ++ path
  | symbolFile message => message

/-! ## Telling arguments apart -/

/-- An argument. -/
inductive Argument where
  | operand (text : String)
  | divider
  /-- An option under one of its names, and the value given with it. -/
  | switch (s : Switch) (name : String) (value : Option String)
  | unknown (text : String)
  deriving DecidableEq, Repr

namespace Argument

/-- Digits, or a decimal point with digits behind it. -/
def isNumeral (cs : List Char) : Bool :=
  let front := cs.takeWhile Text.isDecimalDigit
  match cs.dropWhile Text.isDecimalDigit with
  | [] => !front.isEmpty
  | '.' :: fraction => !fraction.isEmpty && fraction.all Text.isDecimalDigit
  | _ => false

/-- The characters without a line feed at the end. -/
def dropFinalBreak (cs : List Char) : List Char :=
  if cs.getLast? = some '\n' then cs.dropLast else cs

/-- The part in front of the first equals sign, and the part behind it. -/
def splitValue (arg : String) : String × Option String :=
  let cs := arg.toList
  (String.ofList (cs.takeWhile (· != '=')),
    match cs.dropWhile (· != '=') with
    | [] => none
    | _ :: value => some (String.ofList value))

/-- An argument behind a dash that names no option: one with a space and a negative number are
operands. -/
def stray (arg : String) (afterDash : List Char) : Argument :=
  if isNumeral (dropFinalBreak afterDash) || arg.toList.contains ' ' then operand arg
  else unknown arg

/-- An argument that starts with two dashes and is no whole name. -/
def shortened (arg : String) (afterDash : List Char) : Except ArgumentError Argument :=
  let (start, value) := splitValue arg
  match Switch.named.filter fun entry => start.toList.isPrefixOf entry.1.toList with
  | [] => .ok (stray arg afterDash)
  | [(name, s)] => .ok (switch s name value)
  | candidates => .error (.ambiguous arg (candidates.map Prod.fst))

/-- The kind of an argument in front of the divider. -/
def ofText (arg : String) : Except ArgumentError Argument :=
  match arg.toList with
  | '-' :: c :: cs =>
    match Switch.ofName? arg with
    | some s => .ok (switch s arg none)
    | none =>
      match splitValue arg with
      | (name, value) =>
        match value, Switch.ofName? name with
        | some value, some s => .ok (switch s name (some value))
        | _, _ =>
          if c = '-' then shortened arg (c :: cs)
          else
            let name := String.ofList ['-', c]
            match Switch.ofName? name with
            | some s => .ok (switch s name (some (String.ofList cs)))
            | none => .ok (stray arg (c :: cs))
  | _ => .ok (operand arg)

/-- The kinds of all arguments. -/
def ofTexts : List String → Except ArgumentError (List Argument)
  | [] => .ok []
  | arg :: args =>
    if arg = "--" then .ok (divider :: args.map operand)
    else do
      let first ← ofText arg
      let rest ← ofTexts args
      pure (first :: rest)

end Argument

/-! ## Taking arguments in order -/

/-- What the arguments ask for. -/
structure Options where
  sequents : List String := []
  falsify : Bool := false
  file : Option String := none
  symbols : Option String := none
  latex : Bool := false
  verbose : Bool := false
  viewer : Bool := false
  deriving DecidableEq, Repr

namespace Options

/-- Why arguments do not lead to options. -/
inductive Stop where
  /-- Help is asked for. -/
  | help
  | error (e : ArgumentError)
  deriving DecidableEq, Repr

/-- Sets a flag. -/
def setFlag (o : Options) : Flag → Except Stop Options
  | .help => .error .help
  | .falsify => .ok { o with falsify := true }
  | .latex => .ok { o with latex := true }
  | .verbose => .ok { o with verbose := true }
  | .viewer => .ok { o with viewer := true }

/-- Sets flags in order. -/
def setFlags (o : Options) : List Flag → Except Stop Options
  | [] => .ok o
  | f :: fs => do (← o.setFlag f).setFlags fs

/-- Gives a setting a value.  An empty value, and the divider in place of a value, take back what
was set before. -/
def set (o : Options) (s : Setting) (value : String) : Options :=
  let value := if value.isEmpty ∨ value = "--" then none else some value
  match s with
  | .file => { o with file := value }
  | .symbols => { o with symbols := value }

/-- The flags of letters joined to a flag of one letter. -/
def joinedFlags (f : Flag) : List Char → Except ArgumentError (List Flag)
  | [] => .error (.ignoredValue f "")
  | c :: cs =>
    match Flag.ofLetter? c with
    | none => .error (.ignoredValue f (String.ofList (c :: cs)))
    | some g => if cs.isEmpty then .ok [f, g] else (joinedFlags g cs).map (f :: ·)

/-- The flags of a flag under one of its names with the value given to it, which can only be further
letters. -/
def flagsWith (f : Flag) (name value : String) : Except ArgumentError (List Flag) :=
  if name.toList.take 2 = ['-', '-'] then .error (.ignoredValue f value)
  else joinedFlags f value.toList

/-- Where the sequents are among the operands taken so far. -/
inductive Place where
  | before
  | inside
  | behind
  deriving DecidableEq, Repr

/-- The place behind an option. -/
def Place.afterOption : Place → Place
  | before => before
  | _ => behind

/-- Takes arguments in order: the options so far, the arguments left over, and the place. -/
def take (o : Options) (extras : List String) (place : Place) :
    List Argument → Except Stop (Options × List String)
  | [] => .ok (o, extras)
  | .operand text :: args =>
    if place = .behind then take o (extras ++ [text]) .behind args
    else take { o with sequents := o.sequents ++ [text] } extras .inside args
  | .divider :: args =>
    if place = .behind then take o (extras ++ ["--"]) .behind args
    else take o extras .inside args
  | .unknown text :: args => take o (extras ++ [text]) place.afterOption args
  | .switch (.flag f) _ none :: args => do take (← o.setFlag f) extras place.afterOption args
  | .switch (.flag f) name (some value) :: args => do
    let flags ← (flagsWith f name value).mapError .error
    take (← o.setFlags flags) extras place.afterOption args
  | .switch (.setting s) _ (some value) :: args =>
    take (o.set s value) extras place.afterOption args
  | .switch (.setting s) _ none :: .operand value :: args =>
    take (o.set s value) extras place.afterOption args
  | .switch (.setting s) _ none :: _ => .error (.error (.missingValue s))

/-- The options that arguments ask for. -/
def ofArguments (args : List String) : Except Stop Options := do
  let args ← (Argument.ofTexts args).mapError .error
  let (o, extras) ← take {} [] .before args
  if extras.isEmpty then pure o else throw (.error (.unrecognized extras))

end Options

end SequentCalculus

/-!
# Reading the command line

The program is called as `scan FILE`, `repl` or `sample`. The first two take a
format, every command can be asked to be more verbose, and two dashes end the options
of a command. `Invocation.ofArgs` reads the arguments from left to right; what it makes
of an argument depends only on the `Stage` that the ones before it have led to.

Requests to be verbose may stand before the command and after it. They are not added
up: those after the command count, and those before it only if there are none after.
-/

namespace LoxFront

/-- How the result of a scan is printed: all tokens, or only the counts. -/
inductive Format where
  | tokens | summary
deriving DecidableEq, Repr

/-- What the program is asked to do. -/
inductive Command where
  | scan (file : String) (format : Format)
  | repl (format : Format)
  | sample
deriving DecidableEq, Repr

/-- A command line that was understood. -/
structure Invocation where
  verbosity : Nat
  command : Command
deriving DecidableEq, Repr

/-- Why a command line is refused. -/
inductive UsageError where
  | noCommand
  | unknownCommand (arg : String)
  | unknownOption (arg : String)
  | noFile
  | emptyFile
  | extraArgument (arg : String)
  | noFormat
  | unknownFormat (value : String)
  | repeatedFormat
deriving DecidableEq, Repr

def Format.ofName? : String → Option Format
  | "tokens" => some .tokens
  | "summary" => some .summary
  | _ => none

def UsageError.message : UsageError → String
  | noCommand => "a command is required: scan, repl or sample"
  | unknownCommand arg => "unknown command: " ++ arg
  | unknownOption arg => "unknown option: " ++ arg
  | noFile => "scan requires a file"
  | emptyFile => "the name of a file is not empty"
  | extraArgument arg => "unexpected argument: " ++ arg
  | noFormat => "a format is required: tokens or summary"
  | unknownFormat value => "unknown format: " ++ value
  | repeatedFormat => "the format is given twice"

namespace CommandLine

/-- A command by its name alone. -/
inductive Verb where
  | scan | repl | sample
deriving DecidableEq, Repr

def Verb.ofName? : String → Option Verb
  | "scan" => some .scan
  | "repl" => some .repl
  | "sample" => some .sample
  | _ => none

/-- What the next argument may be. -/
inductive Stage where
  /-- A command, or an option before it. -/
  | start
  /-- An option or an operand of a command. -/
  | command (verb : Verb)
  /-- The value of the format option. -/
  | format (verb : Verb)
  /-- Operands only, the options having been ended. -/
  | operands (verb : Verb)
deriving DecidableEq, Repr

/-- What the arguments read so far have said. -/
structure Reading where
  stage : Stage
  /-- Requests to be verbose before the command. -/
  before : Nat
  /-- Requests to be verbose after it. -/
  after : Nat
  format : Option Format
  file : Option String
deriving DecidableEq, Repr

namespace Reading

def start : Reading := ⟨.start, 0, 0, none, none⟩

def setFormat (r : Reading) (verb : Verb) (value : String) : Except UsageError Reading :=
  match r.format, Format.ofName? value with
  | some _, _ => .error .repeatedFormat
  | none, none => .error (.unknownFormat value)
  | none, some f => .ok { r with format := some f, stage := .command verb }

/-- Only `scan` takes an operand, a single one. -/
def addOperand (r : Reading) (verb : Verb) (arg : String) : Except UsageError Reading :=
  match verb, r.file with
  | .scan, none => if arg = "" then .error .emptyFile else .ok { r with file := some arg }
  | _, _ => .error (.extraArgument arg)

/-- The letters of a bundle of options after its dash: how often `v`, and what is attached to
an `f` that ends them. No other letter is an option. -/
def bundle? : List Char → Option (Nat × Option (List Char))
  | [] => some (0, none)
  | 'v' :: rest => (bundle? rest).map fun (n, attached) => (n + 1, attached)
  | 'f' :: rest => some (0, some rest)
  | _ :: _ => none

/-- An option of a command, given by what follows the first dash. A value attached to the
letter `f` may have an equals sign before it; a value that is not attached comes next. -/
def addOption (r : Reading) (verb : Verb) (arg : String) (rest : List Char) :
    Except UsageError Reading :=
  let takesFormat := verb = .scan ∨ verb = .repl
  if rest = "-verbose".toList then .ok { r with after := r.after + 1 }
  else if rest = "-format".toList ∧ takesFormat then .ok { r with stage := .format verb }
  else if "-format=".toList <+: rest ∧ takesFormat then
    r.setFormat verb (String.ofList (rest.drop "-format=".length))
  else match bundle? rest with
    | some (n, none) => .ok { r with after := r.after + n }
    | some (n, some attached) =>
      let louder := { r with after := r.after + n }
      if ¬takesFormat then .error (.unknownOption arg)
      else match attached with
        | [] => .ok { louder with stage := .format verb }
        | '=' :: value => louder.setFormat verb (String.ofList value)
        | value => louder.setFormat verb (String.ofList value)
    | none => .error (.unknownOption arg)

/-- **One argument.** A single dash is an operand like any other. -/
def step (r : Reading) (arg : String) : Except UsageError Reading :=
  match r.stage, arg.toList with
  | .start, '-' :: c :: rest =>
    if c :: rest = "-verbose".toList then .ok { r with before := r.before + 1 }
    else match bundle? (c :: rest) with
      | some (n, none) => .ok { r with before := r.before + n }
      | _ => .error (.unknownOption arg)
  | .start, _ =>
    match Verb.ofName? arg with
    | some verb => .ok { r with stage := .command verb }
    | none => .error (.unknownCommand arg)
  | .command verb, ['-', '-'] => .ok { r with stage := .operands verb }
  | .command verb, '-' :: c :: rest => r.addOption verb arg (c :: rest)
  | .command verb, _ => r.addOperand verb arg
  | .format verb, _ => r.setFormat verb arg
  | .operands verb, _ => r.addOperand verb arg

/-- What the whole command line asks for. -/
def finish (r : Reading) : Except UsageError Invocation :=
  let verbosity := if r.after = 0 then r.before else r.after
  let format := r.format.getD .tokens
  match r.stage with
  | .start => .error .noCommand
  | .format _ => .error .noFormat
  | .command verb | .operands verb =>
    match verb, r.file with
    | .scan, some file => .ok ⟨verbosity, .scan file format⟩
    | .scan, none => .error .noFile
    | .repl, _ => .ok ⟨verbosity, .repl format⟩
    | .sample, _ => .ok ⟨verbosity, .sample⟩

end Reading

end CommandLine

/-- **Understanding a command line**, the name of the program left out. -/
def Invocation.ofArgs (args : List String) : Except UsageError Invocation :=
  args.foldlM CommandLine.Reading.step CommandLine.Reading.start >>= CommandLine.Reading.finish

end LoxFront

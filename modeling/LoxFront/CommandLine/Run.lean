import LoxFront.CommandLine.Options
import LoxFront.Expr.Render
import LoxFront.Log
import LoxFront.Report
import LoxFront.Text.Blank

/-!
# Running a command

A run of the program is a list of `Write`s, in the order in which they happen, and an
exit code. Log records are writes of their own kind, so that what a run says on
standard error can be told apart from what it logs there.

* `scanWrites` is what one scanned text causes, in a file or in a session alike, and `scanFor`
  tells a reporter of its faults.
* `scanFile` scans a file, `repl` a session line by line, `run` any command.
* `replTurn` is one line of a session. One reporter serves all lines of it, and is reset after
  each (`session`).
-/

namespace LoxFront

/-- Something written while the program runs. -/
inductive Write where
  | out (text : String)
  | err (text : String)
  | log (record : Record)
deriving DecidableEq, Repr

structure Run where
  writes : List Write
  code : Nat
deriving DecidableEq, Repr

/-- Why a file or a line of input cannot be read. -/
inductive ReadError where
  | notFound
  | notADirectory
  | isADirectory
  | notUtf8
  | other (text : String)
deriving DecidableEq, Repr

def ReadError.message : ReadError → String
  | notFound => "No such file or directory (os error 2)"
  | notADirectory => "Not a directory (os error 20)"
  | isADirectory => "Is a directory (os error 21)"
  | notUtf8 => "stream did not contain valid UTF-8"
  | other text => text

namespace Run

/-- What a run writes to standard output. -/
def stdout (r : Run) : String :=
  String.join (r.writes.filterMap fun
    | .out text => some text
    | _ => none)

/-- What a run writes to standard error, log records among it. -/
def stderr (r : Run) : String :=
  String.join (r.writes.filterMap fun
    | .err text => some text
    | .log record => some record.line
    | .out _ => none)

end Run

/-- The text that bytes encode. -/
def decode (bytes : List UInt8) : Except ReadError String :=
  match String.fromUTF8? bytes.toByteArray with
  | some text => .ok text
  | none => .error .notUtf8

/-- The result of a scan as it is printed. -/
def Format.listing (s : Scanned) : Format → List Write
  | tokens => s.tokens.map fun t => .out (t.display ++ "\n")
  | summary => [.out (s.summary ++ "\n")]

/-- **What a scanned text causes**: its log, its diagnostics, then its listing. -/
def scanWrites (t : Threshold) (format : Format) (source : String) : List Write :=
  let scanned := scan source
  (scanLog t source).map .log
    ++ scanned.diagnostics.map (fun d => .err (d.display ++ "\n"))
    ++ format.listing scanned

/-- A text is scanned for a reporter: the writes, and the reporter when it was told of all
faults. -/
def scanFor (t : Threshold) (format : Format) (source : String) (reporter : Reporter) :
    List Write × Reporter :=
  (scanWrites t format source, (scan source).reportTo Reporter.report reporter)

/-- **Scanning a file.** The run fails if the file cannot be read or a fault was reported. -/
def scanFile (t : Threshold) (format : Format) (path : String)
    (content : Except ReadError (List UInt8)) : Run :=
  let announcement :=
    (t.emit .debug .program fun _ => "scanning " ++ Text.quotePath path).map Write.log
  match content >>= decode with
  | .error e => ⟨announcement ++ [.err (e.message ++ "\n")], 1⟩
  | .ok source =>
    let scanned := scanFor t format source .quiet
    ⟨announcement ++ scanned.1, if scanned.2.hadError then 1 else 0⟩

/-! ### Sessions -/

def prompt : Write := .out "> "

/-- The lines of an input, each with the line feed that ends it; the last may have none. -/
def inputLines : List UInt8 → List (List UInt8)
  | [] => []
  | b :: bs =>
    if b = 10 then [b] :: inputLines bs
    else match inputLines bs with
      | [] => [[b]]
      | line :: rest => (b :: line) :: rest

/-- What becomes of a session after a line. -/
inductive Turn where
  | next (writes : List Write) (reporter : Reporter)
  | stop (run : Run)
deriving DecidableEq, Repr

/-- **One line of a session.** Without its trailing white space it is scanned as a source of
its own, unless it is the word that ends the session. -/
def replTurn (t : Threshold) (format : Format) (reporter : Reporter) (line : List UInt8) : Turn :=
  match decode line with
  | .error e => .stop ⟨[.err (e.message ++ "\n")], 1⟩
  | .ok text =>
    let source := String.ofList (Text.trimEnd text.toList)
    if source = "exit" then .stop ⟨[], 0⟩
    else
      let scanned := scanFor t format source reporter
      .next scanned.1 scanned.2.reset

/-- **A session from some line on**, given the reporter: a prompt before each line, and one
before the end of the input. -/
def session (t : Threshold) (format : Format) : Reporter → List (List UInt8) → Run
  | _, [] => ⟨[prompt], 0⟩
  | reporter, line :: lines =>
    match replTurn t format reporter line with
    | .stop last => ⟨prompt :: last.writes, last.code⟩
    | .next writes reporter =>
      let later := session t format reporter lines
      ⟨prompt :: writes ++ later.writes, later.code⟩

/-- **A session**, which begins with a reporter of its own. -/
def repl (t : Threshold) (format : Format) (lines : List (List UInt8)) : Run :=
  session t format .quiet lines

/-- **A run of the program**, given how files are read and what stands on standard input. -/
def run (i : Invocation) (read : String → Except ReadError (List UInt8)) (stdin : List UInt8) :
    Run :=
  let t := Threshold.ofCount i.verbosity
  match i.command with
  | .scan file format => scanFile t format file (read file)
  | .repl format => repl t format (inputLines stdin)
  | .sample => ⟨[.out (Expr.sample.render ++ "\n")], 0⟩

end LoxFront

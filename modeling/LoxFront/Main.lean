import LoxFront.CommandLine.Run

/-!
# The program

Reads the arguments, the file and the standard input, and performs the writes of the
run. All decisions are those of `Invocation.ofArgs`, `scanFile`, `replTurn` and `run`.
-/

namespace LoxFront

/-- Performs writes in order. -/
def perform (writes : List Write) : IO Unit := do
  let stdout ← IO.getStdout
  let stderr ← IO.getStderr
  for write in writes do
    match write with
    | .out text => stdout.putStr text
    | .err text => stderr.putStr text
    | .log record => stderr.putStr record.line
  stdout.flush

/-- The cause of a failed read. -/
def ReadError.ofIO : IO.Error → ReadError
  | .noFileOrDirectory .. => .notFound
  | .inappropriateType _ code _ =>
    if code = 21 ∨ code = -21 then .isADirectory else .notADirectory
  | .permissionDenied .. => .other "Permission denied (os error 13)"
  | e => .other (toString e)

def readFile (path : String) : IO (Except ReadError (List UInt8)) := do
  try
    return .ok (← IO.FS.readBinFile path).data.toList
  catch e =>
    return .error (.ofIO e)

/-- The bytes up to and with the next line feed; none at the end of the input. -/
partial def readLine (input : IO.FS.Stream) (line : ByteArray) : IO ByteArray := do
  let byte ← input.read 1
  if byte.isEmpty then return line
  else if byte.data == #[10] then return line ++ byte
  else readLine input (line ++ byte)

/-- A session, each line read when its prompt is written. -/
partial def converse (t : Threshold) (format : Format) (reporter : Reporter)
    (input : IO.FS.Stream) : IO UInt32 := do
  perform [prompt]
  let line ← readLine input .empty
  if line.isEmpty then return 0
  match replTurn t format reporter line.data.toList with
  | .stop last =>
    perform last.writes
    return last.code.toUInt32
  | .next writes reporter =>
    perform writes
    converse t format reporter input

/-- Runs a command line that was understood. -/
def execute (i : Invocation) : IO UInt32 := do
  match i.command with
  | .repl format => converse (.ofCount i.verbosity) format .quiet (← IO.getStdin)
  | .scan file _ =>
    let content ← readFile file
    finish (run i (fun _ => content) [])
  | .sample => finish (run i (fun _ => .error .notFound) [])
where
  finish (r : Run) : IO UInt32 := do
    perform r.writes
    return r.code.toUInt32

end LoxFront

/-- A command line that is refused ends with code 2. -/
def main (args : List String) : IO UInt32 := do
  match LoxFront.Invocation.ofArgs args with
  | .ok invocation => LoxFront.execute invocation
  | .error e =>
    (← IO.getStderr).putStr ("error: " ++ e.message ++ "\n")
    return 2

import LoxFront.Scan
import LoxFront.Text.Quoted

/-!
# Log records

What the program tells about its own work is a list of `Record`s, each with a level.
A `Threshold` admits the records from a level on; a record that it does not admit is
never built (`Threshold.emit`).

* `scanLog` is the log of one scan: a record for each item, then the counts.
* `Record.line` is how a record is written.
-/

namespace LoxFront

inductive Level where
  | debug | trace
deriving DecidableEq, Repr

/-- The part of the program that a record is about. -/
inductive Topic where
  | program | scanner
deriving DecidableEq, Repr

structure Record where
  level : Level
  topic : Topic
  message : String
deriving DecidableEq, Repr

/-- How much is logged. -/
inductive Threshold where
  | silent | debug | trace
deriving DecidableEq, Repr

def Level.name : Level → String
  | debug => "DEBUG"
  | trace => "TRACE"

def Topic.name : Topic → String
  | program => "lox"
  | scanner => "lox::syntax::lexer"

namespace Threshold

def admits : Threshold → Level → Bool
  | silent, _ => false
  | debug, level => level == .debug
  | trace, _ => true

/-- The threshold for a number of requests to be more verbose. -/
def ofCount : Nat → Threshold
  | 0 => silent
  | 1 => debug
  | _ => trace

/-- A record if its level is admitted, else none. -/
def emit (t : Threshold) (level : Level) (topic : Topic) (message : Unit → String) :
    List Record :=
  if t.admits level then [⟨level, topic, message ()⟩] else []

end Threshold

/-- **A record as it is written.** Further lines of the message are indented. -/
def Record.line (r : Record) : String :=
  "[" ++ r.level.name ++ " " ++ r.topic.name ++ "] "
    ++ String.ofList (r.message.toList.flatMap fun c => if c = '\n' then "\n    ".toList else [c])
    ++ "\n"

/-- The record of an item: a token shows itself, a fault its line, its message and the
part of the source it was found in. -/
def Item.log (t : Threshold) : Item → List Record
  | token tok => t.emit .trace .scanner fun _ => tok.display
  | fault d lexeme => t.emit .debug .scanner fun _ =>
      "line " ++ toString d.line ++ ": " ++ d.message ++ " (" ++ Text.quote lexeme ++ ")"

/-- **The log of a scan**: the records of its items in order, then the counts. -/
def scanLog (t : Threshold) (source : String) : List Record :=
  (items source).flatMap (Item.log t)
    ++ t.emit .debug .scanner fun _ => "scanned " ++ (scan source).summary

end LoxFront

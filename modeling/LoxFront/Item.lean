import LoxFront.Diagnostic
import LoxFront.Segment.Split
import LoxFront.Token.Basic

/-!
# What a segment yields

Walking over its segments, a source yields **items**: a token for each lexeme, a
fault for each segment that the language has no place for, and the mark of the end.
Blanks and comments yield nothing.

* `Segment.item?` is the item of one segment that begins on a given line.
* `itemsFrom` is the item stream of a list of segments, `items` that of a source.

A token carries the line where it begins. A fault carries the line where it is
found: for a string that is never closed that is the last line of the source.
-/

namespace LoxFront

inductive Item where
  | token (t : Token)
  /-- A fault, with the part of the source it was found in. -/
  | fault (d : Diagnostic) (lexeme : String)
deriving DecidableEq

namespace Item

def token? : Item → Option Token
  | token t => some t
  | fault _ _ => none

def diagnostic? : Item → Option Diagnostic
  | token _ => none
  | fault d _ => some d

@[simp] theorem token?_token (t : Token) : (token t).token? = some t := rfl

@[simp] theorem token?_fault (d : Diagnostic) (lexeme : String) :
    (fault d lexeme).token? = none := rfl

@[simp] theorem diagnostic?_token (t : Token) : (token t).diagnostic? = none := rfl

@[simp] theorem diagnostic?_fault (d : Diagnostic) (lexeme : String) :
    (fault d lexeme).diagnostic? = some d := rfl

end Item

/-- A word is a keyword or an identifier. -/
def wordKind (word : String) : Kind :=
  match Keyword.ofText? word with
  | some k => .keyword k
  | none => .identifier

/-- A word has no literal. -/
theorem carriesLiteral_wordKind (word : String) : (wordKind word).carriesLiteral = false := by
  unfold wordKind
  split <;> rfl

namespace Segment

def lexeme (s : Segment) : String := String.ofList s.text

/-- **The item of a segment** that begins on line `line`. -/
def item? (line : Nat) (s : Segment) : Option Item :=
  match s with
  | blank _ | comment _ => none
  | operator op => some (.token ⟨.operator op, s.lexeme, none, line⟩)
  | string value => some (.token (.string s.lexeme (String.ofList value) line))
  | number numeral => some (.token (.number s.lexeme numeral.value.nearest line))
  | word _ => some (.token ⟨wordKind s.lexeme, s.lexeme, none, line⟩)
  | openString _ => some (.fault ⟨line + s.lineFeeds, .unterminatedString⟩ s.lexeme)
  | stray c => some (.fault ⟨line, .unexpectedCharacter c⟩ s.lexeme)

end Segment

/-- The items of segments the first of which begins on line `line`, and the mark of the
end. -/
def itemsFrom (line : Nat) : List Segment → List Item
  | [] => [.token (.eof line)]
  | s :: rest => (s.item? line).toList ++ itemsFrom (line + s.lineFeeds) rest

/-- **The item stream of a source**, whose first line is line 1. -/
def items (source : String) : List Item := itemsFrom 1 (segments source.toList)

@[simp] theorem itemsFrom_nil (line : Nat) : itemsFrom line [] = [.token (.eof line)] := rfl

@[simp] theorem itemsFrom_cons (line : Nat) (s : Segment) (rest : List Segment) :
    itemsFrom line (s :: rest) = (s.item? line).toList ++ itemsFrom (line + s.lineFeeds) rest :=
  rfl

end LoxFront

import LoxFront.Item

/-!
# Scanning item by item

A `Lexer` stands somewhere in a source and yields its items one at a time
(`Lexer.next?`): each call skips what yields nothing and stops after the next item.
The mark of the end comes once, and after it nothing more.

Beside the text still unread a lexer keeps two byte offsets, between which the
segment cut last lies.
-/

namespace LoxFront

structure Lexer where
  source : String
  /-- The text still unread. -/
  rest : List Char
  /-- The byte offset where the segment cut last begins. -/
  start : Nat
  /-- The byte offset where the text still unread begins. -/
  current : Nat
  /-- The line of the text still unread. -/
  line : Nat
  /-- Set once the mark of the end was yielded. -/
  done : Bool
deriving DecidableEq

namespace Lexer

/-- The beginning of a source. -/
def ofSource (source : String) : Lexer := ⟨source, source.toList, 0, 0, 1, false⟩

/-- Moves past a segment. -/
def advance (l : Lexer) (s : Segment) (rest : List Char) : Lexer :=
  { l with
    rest := rest
    start := l.current
    current := l.current + s.lexeme.utf8ByteSize
    line := l.line + s.lineFeeds }

/-- **The next item**, and the lexer after it. -/
def next? (l : Lexer) : Option Item × Lexer :=
  if l.done then (none, l)
  else match _unread : l.rest with
    | [] => (some (.token (.eof l.line)), { l with done := true })
    | c :: cs =>
      let cut := Segment.first c cs
      let after := l.advance cut.1 cut.2
      match cut.1.item? l.line with
      | some item => (some item, after)
      | none => after.next?
termination_by l.rest.length
decreasing_by
  rw [_unread]
  exact Segment.length_rest_first c cs

/-- **Calls in turn**: each index names the lexer that is asked for its next item. An index
that names none is answered as an exhausted lexer would. -/
def turns : List Lexer → List Nat → List (Option Item)
  | _, [] => []
  | lexers, i :: order =>
    match lexers[i]? with
    | none => none :: turns lexers order
    | some l =>
      let answer := l.next?
      answer.1 :: turns (lexers.set i answer.2) order

end Lexer

end LoxFront

import LoxFront.Decimal
import LoxFront.Token.Kind

/-!
# Segments

A source falls into consecutive **segments**: blanks and comments, which mean
nothing; lexemes, which become tokens; and two kinds of fault, a string that is
never closed and a character that begins nothing.

* `Segment.text` is the text of a segment.
* `Segment.WellFormed` states the shape of each class of segments, in terms of that
  text alone and without reference to how a source is cut.
-/

namespace LoxFront

/-- The characters that separate and mean nothing; a line feed also ends a line. -/
def isBlank (c : Char) : Bool := c == ' ' || c == '\r' || c == '\t' || c == '\n'

/-- ASCII letters and the underscore. -/
def isWordStart (c : Char) : Bool := c.isAlpha || c == '_'

/-- ASCII letters, ASCII digits and the underscore. -/
def isWordPart (c : Char) : Bool := isWordStart c || c.isDigit

inductive Segment where
  /-- One blank character. -/
  | blank (c : Char)
  /-- Two slashes and the text after them, up to the end of the line. -/
  | comment (body : List Char)
  | operator (op : Operator)
  /-- A text between two quotes. -/
  | string (value : List Char)
  | number (numeral : Numeral)
  /-- A keyword or an identifier. -/
  | word (text : List Char)
  /-- A quote that is never closed, and all the text after it. -/
  | openString (body : List Char)
  /-- A character that begins no other segment. -/
  | stray (c : Char)
deriving DecidableEq, Repr

namespace Segment

/-- The part of the source that a segment covers. -/
def text : Segment → List Char
  | blank c => [c]
  | comment body => '/' :: '/' :: body
  | operator op => op.text.toList
  | string value => '"' :: value ++ ['"']
  | number numeral => numeral.text
  | word text => text
  | openString body => '"' :: body
  | stray c => [c]

/-- **The shape of each class.** Lexemes of one class may be prefixes of each other;
which one a source holds is settled by taking the longest. -/
def WellFormed : Segment → Prop
  | blank c => isBlank c = true
  | comment body => '\n' ∉ body
  | operator _ => True
  | string value => '"' ∉ value
  | number ⟨whole, fraction⟩ =>
    whole ≠ [] ∧ (∀ c ∈ whole, c.isDigit = true) ∧ ∀ c ∈ fraction, c.isDigit = true
  | word text => (∃ c ∈ text.head?, isWordStart c = true) ∧ ∀ c ∈ text, isWordPart c = true
  | openString body => '"' ∉ body
  | stray c =>
    isBlank c = false ∧ c ≠ '"' ∧ isWordPart c = false ∧ Operator.ofChar? c = none

/-- The segments that become tokens. -/
def isLexeme : Segment → Bool
  | operator _ | string _ | number _ | word _ => true
  | _ => false

/-- The segments that the language has no place for. -/
def isFault : Segment → Bool
  | openString _ | stray _ => true
  | _ => false

/-- How many line feeds a segment holds. -/
def lineFeeds (s : Segment) : Nat := s.text.count '\n'

theorem WellFormed.text_ne_nil : ∀ {s : Segment}, s.WellFormed → s.text ≠ []
  | blank _, _ | comment _, _ | string _, _ | openString _, _ | stray _, _ => by simp [text]
  | operator op, _ => by cases op <;> decide
  | number ⟨whole, fraction⟩, h => by
    cases fraction <;> simp [text, h.1]
  | word _, h => by
    obtain ⟨⟨c, hc, -⟩, -⟩ := h
    rintro rfl
    simp at hc

end Segment

end LoxFront

import LoxFront.Binary64.Shortest
import LoxFront.Token.Kind

/-!
# Tokens

A `Token` has a kind, the text it was written as, the value of that text if it is a
string or a number, and the line where it begins. It is displayed as its kind,
lexeme and literal, with `nul` for no literal (`Token.display`).

Tokens are plain records: kind and lexeme of a constructed token need not agree.
Only `Token.bare?` refuses something, a kind whose tokens hold a literal.

`t == u` compares the numbers in tokens as IEEE 754 does; `t = u` says that the
tokens are identical.
-/

namespace LoxFront

/-- The value that a token was written for. -/
inductive Literal where
  | number (value : Binary64)
  | string (value : String)
deriving DecidableEq

structure Token where
  kind : Kind
  lexeme : String
  literal : Option Literal
  line : Nat
deriving DecidableEq

namespace Literal

def text : Literal → String
  | number value => value.text
  | string value => value

instance : BEq Literal where
  beq
    | number x, number y => x == y
    | string s, string t => s == t
    | _, _ => false

@[simp] theorem number_beq_number (x y : Binary64) : (number x == number y) = (x == y) := rfl

@[simp] theorem string_beq_string (s t : String) : (string s == string t) = (s == t) := rfl

@[simp] theorem number_beq_string (x : Binary64) (s : String) :
    (number x == string s) = false := rfl

@[simp] theorem string_beq_number (s : String) (x : Binary64) :
    (string s == number x) = false := rfl

end Literal

namespace Token

/-- A token without a literal. The kinds of strings and numbers have none such. -/
def bare? (kind : Kind) (lexeme : String) (line : Nat) : Option Token :=
  if kind.carriesLiteral then none else some ⟨kind, lexeme, none, line⟩

def number (lexeme : String) (value : Binary64) (line : Nat) : Token :=
  ⟨.number, lexeme, some (.number value), line⟩

def string (lexeme value : String) (line : Nat) : Token :=
  ⟨.string, lexeme, some (.string value), line⟩

/-- The mark of the end of the source, with an empty lexeme. -/
def eof (line : Nat) : Token := ⟨.eof, "", none, line⟩

/-- The text of the literal, `nul` if there is none. -/
def literalText (t : Token) : String := (t.literal.map Literal.text).getD "nul"

/-- **How a token is shown**: kind, lexeme and literal, with a space between. -/
def display (t : Token) : String := t.kind.name ++ " " ++ t.lexeme ++ " " ++ t.literalText

/-- Tokens compare field by field, numbers as IEEE 754 does. -/
instance : BEq Token where
  beq t u := t.kind == u.kind && t.lexeme == u.lexeme && t.literal == u.literal && t.line == u.line

theorem beq_def (t u : Token) :
    (t == u) =
      (t.kind == u.kind && t.lexeme == u.lexeme && t.literal == u.literal && t.line == u.line) :=
  rfl

theorem bare?_eq_none_iff (kind : Kind) (lexeme : String) (line : Nat) :
    bare? kind lexeme line = none ↔ kind.carriesLiteral = true := by
  simp [bare?]

theorem display_eof (line : Nat) : (eof line).display = "Eof  nul" := by
  simp [display, literalText, eof, Kind.name]

end Token

end LoxFront

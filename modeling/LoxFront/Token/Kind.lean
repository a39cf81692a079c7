/-!
# Kinds of tokens

A token is an operator, a keyword, an identifier, a string, a number, or the mark of
the end of the source. Operators and keywords are fixed texts:

* `Operator.text` and `Keyword.text` are their spellings, pairwise distinct;
* `Operator.withEqual?` extends a one-character operator by `=`;
* `Keyword.ofText?` finds the keyword of a whole word;
* `Kind.name` is the name under which a kind is displayed.
-/

namespace LoxFront

inductive Operator where
  | leftParen | rightParen | leftCurly | rightCurly | comma | dot | minus | plus | semicolon
  | slash | star | bang | bangEqual | equal | equalEqual | greater | greaterEqual | less
  | lessEqual
deriving DecidableEq, Repr

/-- The reserved words. -/
inductive Keyword where
  | kwAnd | kwClass | kwElse | kwFalse | kwTrue | kwFun | kwFor | kwNul | kwIf | kwOr | kwPrint
  | kwReturn | kwSuper | kwThis | kwVar | kwWhile
deriving DecidableEq, Repr

inductive Kind where
  | operator (op : Operator)
  | identifier
  | string
  | number
  | keyword (word : Keyword)
  | eof
deriving DecidableEq, Repr

namespace Operator

def all : List Operator :=
  [leftParen, rightParen, leftCurly, rightCurly, comma, dot, minus, plus, semicolon, slash, star,
   bang, bangEqual, equal, equalEqual, greater, greaterEqual, less, lessEqual]

def text : Operator → String
  | leftParen => "("
  | rightParen => ")"
  | leftCurly => "\x7b"
  | rightCurly => "\x7d"
  | comma => ","
  | dot => "."
  | minus => "-"
  | plus => "+"
  | semicolon => ";"
  | slash => "/"
  | star => "*"
  | bang => "!"
  | bangEqual => "!="
  | equal => "="
  | equalEqual => "=="
  | greater => ">"
  | greaterEqual => ">="
  | less => "<"
  | lessEqual => "<="

def name : Operator → String
  | leftParen => "LParen"
  | rightParen => "RParen"
  | leftCurly => "LCurly"
  | rightCurly => "RCurly"
  | comma => "Comma"
  | dot => "Dot"
  | minus => "Minus"
  | plus => "Plus"
  | semicolon => "Semicolon"
  | slash => "Slash"
  | star => "Star"
  | bang => "Bang"
  | bangEqual => "BangEq"
  | equal => "Eq"
  | equalEqual => "EqEq"
  | greater => "Gt"
  | greaterEqual => "GtEq"
  | less => "Lt"
  | lessEqual => "LtEq"

/-- The operator spelled by one character. -/
def ofChar? (c : Char) : Option Operator :=
  let text := String.singleton c
  all.find? fun op => op.text = text

/-- The operator spelled by a one-character operator and an equals sign. -/
def withEqual? : Operator → Option Operator
  | bang => some bangEqual
  | equal => some equalEqual
  | greater => some greaterEqual
  | less => some lessEqual
  | _ => none

theorem mem_all (op : Operator) : op ∈ all := by cases op <;> decide

theorem text_ofChar? {c : Char} {op : Operator} (h : ofChar? c = some op) :
    op.text = String.singleton c := by
  simpa using List.find?_some h

theorem text_withEqual? {op wide : Operator} (h : op.withEqual? = some wide) :
    wide.text.toList = op.text.toList ++ ['='] := by
  cases op <;> simp [withEqual?] at h <;> subst h <;> decide

end Operator

namespace Keyword

def all : List Keyword :=
  [kwAnd, kwClass, kwElse, kwFalse, kwTrue, kwFun, kwFor, kwNul, kwIf, kwOr, kwPrint, kwReturn,
   kwSuper, kwThis, kwVar, kwWhile]

def text : Keyword → String
  | kwAnd => "and"
  | kwClass => "class"
  | kwElse => "else"
  | kwFalse => "false"
  | kwTrue => "true"
  | kwFun => "fun"
  | kwFor => "for"
  | kwNul => "nul"
  | kwIf => "if"
  | kwOr => "or"
  | kwPrint => "print"
  | kwReturn => "return"
  | kwSuper => "super"
  | kwThis => "this"
  | kwVar => "var"
  | kwWhile => "while"

def name : Keyword → String
  | kwAnd => "And"
  | kwClass => "Class"
  | kwElse => "Else"
  | kwFalse => "False"
  | kwTrue => "True"
  | kwFun => "Fun"
  | kwFor => "For"
  | kwNul => "Nul"
  | kwIf => "If"
  | kwOr => "Or"
  | kwPrint => "Print"
  | kwReturn => "Return"
  | kwSuper => "Super"
  | kwThis => "This"
  | kwVar => "Var"
  | kwWhile => "While"

/-- The keyword that a word spells, as a whole and in lower case. -/
def ofText? (word : String) : Option Keyword := all.find? fun k => k.text = word

theorem mem_all (k : Keyword) : k ∈ all := by cases k <;> decide

theorem text_ofText? {word : String} {k : Keyword} (h : ofText? word = some k) :
    k.text = word := by
  simpa using List.find?_some h

@[simp] theorem ofText?_text (k : Keyword) : ofText? k.text = some k := by
  cases k <;> decide

end Keyword

namespace Kind

def all : List Kind :=
  Operator.all.map operator ++ [identifier, string, number] ++ Keyword.all.map keyword ++ [eof]

/-- The name of a kind, as it is displayed. -/
def name : Kind → String
  | operator op => op.name
  | identifier => "Id"
  | string => "Str"
  | number => "Number"
  | keyword word => word.name
  | eof => "Eof"

def ofName? (name : String) : Option Kind := all.find? fun kind => kind.name = name

def isKeyword : Kind → Bool
  | keyword _ => true
  | _ => false

/-- The kinds that may stand before an operand. -/
def isPrefixOperator : Kind → Bool
  | operator .minus | operator .bang => true
  | _ => false

/-- The kinds whose tokens hold a literal. -/
def carriesLiteral : Kind → Bool
  | string | number => true
  | _ => false

theorem mem_all (kind : Kind) : kind ∈ all := by
  rcases kind with op | _ | _ | _ | k | _
  case operator => cases op <;> decide
  case keyword => cases k <;> decide
  all_goals decide

@[simp] theorem ofName?_name (kind : Kind) : ofName? kind.name = some kind := by
  rcases kind with op | _ | _ | _ | k | _
  case operator => cases op <;> decide
  case keyword => cases k <;> decide
  all_goals decide

/-- Different kinds have different names. -/
theorem name_injective {a b : Kind} (h : a.name = b.name) : a = b := by
  -- The name determines the kind, since `ofName?` finds it again.
  rw [← Option.some_inj, ← ofName?_name a, ← ofName?_name b, h]

end Kind

end LoxFront

import LoxFront.Diagnostic
import LoxFront.Token.Basic

/-!
# Expression trees

An `Expr` is a literal, a grouping, or an operator applied to one operand or two.
The operators are tokens, and a tree may hold any token as one; only `Expr.prefixed`
checks that its operator may stand before an operand.

* `Expr.fold` computes over a whole tree with one handler for each shape of node, a
  `Visitor`.
* `e == f` compares structure, values and operators, numbers as IEEE 754 does.
-/

namespace LoxFront

/-- The value at a literal node. -/
inductive Value where
  | number (value : Binary64)
  | string (value : String)
  | bool (value : Bool)
deriving DecidableEq

namespace Value

def ofLiteral : Literal → Value
  | .number x => number x
  | .string s => string s

def text : Value → String
  | number x => x.text
  | string s => s
  | bool b => if b then "true" else "false"

instance : BEq Value where
  beq
    | number x, number y => x == y
    | string s, string t => s == t
    | bool a, bool b => a == b
    | _, _ => false

@[simp] theorem number_beq_number (x y : Binary64) : (number x == number y) = (x == y) := rfl

end Value

inductive Expr where
  /-- A literal without a value is `nul`. -/
  | literal (value : Option Value)
  | grouping (inner : Expr)
  | unary (op : Token) (operand : Expr)
  | binary (left : Expr) (op : Token) (right : Expr)
deriving DecidableEq

/-- What a computation over trees does at each shape of node, given its results on the
operands. -/
structure Visitor (α : Type) where
  literal : Option Value → α
  grouping : α → α
  unary : Token → α → α
  binary : α → Token → α → α

/-- A node without what is below it. -/
inductive Shape where
  /-- Says whether the literal has a value. -/
  | literal (present : Bool)
  | grouping
  | unary (op : Token)
  | binary (op : Token)
deriving DecidableEq

namespace Expr

/-- **Computing over a tree**: each node is handed to the handler for its shape. -/
def fold {α : Type} (v : Visitor α) : Expr → α
  | literal value => v.literal value
  | grouping inner => v.grouping (inner.fold v)
  | unary op operand => v.unary op (operand.fold v)
  | binary left op right => v.binary (left.fold v) op (right.fold v)

/-- An operator before its operand; fails unless the operator is one of those. -/
def prefixed (op : Token) (operand : Expr) : Except Fault Expr :=
  if op.kind.isPrefixOperator then .ok (unary op operand)
  else .error (.invalidPrefixOperator op.kind)

/-- The number of nodes on the longest path down from the root. -/
def depth : Expr → Nat :=
  fold { literal := fun _ => 1
         grouping := fun inner => inner + 1
         unary := fun _ operand => operand + 1
         binary := fun left _ right => max left right + 1 }

/-- The shape of the root. -/
def shape : Expr → Shape
  | literal value => .literal value.isSome
  | grouping _ => .grouping
  | unary op _ => .unary op
  | binary _ op _ => .binary op

/-- Structural comparison; the operators compare as tokens. -/
def beq : Expr → Expr → Bool
  | literal v, literal w => v == w
  | grouping e, grouping f => e.beq f
  | unary op e, unary op' e' => op == op' && e.beq e'
  | binary l op r, binary l' op' r' => l.beq l' && op == op' && r.beq r'
  | _, _ => false

instance : BEq Expr := ⟨beq⟩

theorem beq_def (e f : Expr) : (e == f) = e.beq f := rfl

/-- The tree of `(-123) * (45.67)`, its operators on line 1. -/
def sample : Expr :=
  binary
    (unary ⟨.operator .minus, "-", none, 1⟩
      (literal (some (.number (Decimal.nearest ⟨123, 0⟩)))))
    ⟨.operator .star, "*", none, 1⟩
    (grouping (literal (some (.number (Decimal.nearest ⟨4567, -2⟩)))))

theorem prefixed_eq_error_iff (op : Token) (operand : Expr) (f : Fault) :
    prefixed op operand = .error f ↔
      op.kind.isPrefixOperator = false ∧ f = .invalidPrefixOperator op.kind := by
  by_cases h : op.kind.isPrefixOperator = true <;> simp [prefixed, h, eq_comm (a := f)]

end Expr

end LoxFront

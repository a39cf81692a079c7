import LoxFront.Expr.Basic

/-!
# Trees as text

* `Expr.render` writes a tree with its operators in place: every node that is not a
  literal stands between `Begin:` and `:End`.
* `Expr.preorder` lists the nodes as they are entered, from the root down and from left
  to right.
-/

namespace LoxFront

/-- A node as it is listed on entry. -/
inductive Entry where
  | literal (value : Option Value)
  | group
  | unary (lexeme : String) (line : Nat)
  | binary (lexeme : String) (line : Nat)
deriving DecidableEq

namespace Expr

/-- The text of a literal node. -/
def literalText (value : Option Value) : String := (value.map Value.text).getD "nul"

/-- How each shape of node is written. An operator is written as its lexeme, whatever its
kind. -/
def renderer : Visitor String where
  literal := literalText
  grouping inner := "Begin: group " ++ inner ++ " :End"
  unary op operand := "Begin: " ++ op.lexeme ++ " " ++ operand ++ " :End"
  binary left op right := "Begin: " ++ left ++ " " ++ op.lexeme ++ " " ++ right ++ " :End"

/-- **The written form** of a tree. -/
def render : Expr → String := fold renderer

@[simp] theorem render_literal (value : Option Value) :
    (literal value).render = literalText value := rfl

@[simp] theorem render_grouping (e : Expr) :
    (grouping e).render = "Begin: group " ++ e.render ++ " :End" := rfl

@[simp] theorem render_unary (op : Token) (e : Expr) :
    (unary op e).render = "Begin: " ++ op.lexeme ++ " " ++ e.render ++ " :End" := rfl

@[simp] theorem render_binary (l : Expr) (op : Token) (r : Expr) :
    (binary l op r).render =
      "Begin: " ++ l.render ++ " " ++ op.lexeme ++ " " ++ r.render ++ " :End" := rfl

/-- What is listed for each shape of node: the node, then all below it. -/
def lister : Visitor (List Entry) where
  literal value := [.literal value]
  grouping inner := .group :: inner
  unary op operand := .unary op.lexeme op.line :: operand
  binary left op right := .binary op.lexeme op.line :: (left ++ right)

/-- **The nodes on entry**, a node before those below it and left before right. -/
def preorder : Expr → List Entry := fold lister

@[simp] theorem preorder_literal (value : Option Value) :
    (literal value).preorder = [.literal value] := rfl

@[simp] theorem preorder_grouping (e : Expr) :
    (grouping e).preorder = .group :: e.preorder := rfl

@[simp] theorem preorder_unary (op : Token) (e : Expr) :
    (unary op e).preorder = .unary op.lexeme op.line :: e.preorder := rfl

@[simp] theorem preorder_binary (l : Expr) (op : Token) (r : Expr) :
    (binary l op r).preorder = .binary op.lexeme op.line :: (l.preorder ++ r.preorder) := rfl

end Expr

end LoxFront

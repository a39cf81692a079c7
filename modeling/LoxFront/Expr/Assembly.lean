import LoxFront.Expr.Render
import LoxFront.Scan

/-!
# Assembling trees on a stack

Trees are put together from the leaves up on a stack: an `Edit` pushes a leaf, joins
the topmost trees under a new node, or rearranges the stack, and a `Query` looks at the
top. Operators are given by a `TokenSpec`, in words or by their place among the tokens
of a scanned source.

A step that fails leaves the stack as it was, with one exception: an operator that may
not stand before an operand has taken its operand off the stack by then.
-/

namespace LoxFront

/-- A request for a token. -/
inductive TokenSpec where
  | bare (kind : Kind) (lexeme : String) (line : Nat)
  | number (lexeme : String) (value : Binary64) (line : Nat)
  | string (lexeme value : String) (line : Nat)
  | eof (line : Nat)
  /-- A token of the scanned source, counted from zero. -/
  | scanned (index : Nat)

/-- Why a step fails. -/
inductive AssemblyError where
  /-- A token without a literal was requested of a kind that demands one. -/
  | literalRequired
  /-- The scanned source has no such token. -/
  | noSuchToken
  /-- The stack holds too few trees. -/
  | underflow
  /-- The token has no literal to push. -/
  | noLiteral
  | rejected (fault : Fault)
deriving DecidableEq

/-- The token that a request asks for, `tokens` being those of the scanned source. -/
def TokenSpec.token (tokens : List Token) : TokenSpec → Except AssemblyError Token
  | bare kind lexeme line =>
    match Token.bare? kind lexeme line with
    | some t => .ok t
    | none => .error .literalRequired
  | number lexeme value line => .ok (.number lexeme value line)
  | string lexeme value line => .ok (.string lexeme value line)
  | eof line => .ok (.eof line)
  | scanned index =>
    match tokens[index]? with
    | some t => .ok t
    | none => .error .noSuchToken

/-- A change of the stack. -/
inductive Edit where
  | push (value : Option Value)
  | sample
  /-- Pushes the literal of a token. -/
  | literalOf (spec : TokenSpec)
  | group
  /-- Puts an operator before the top, if the operator may stand there. -/
  | prefixed (op : TokenSpec)
  /-- Puts any token before the top. -/
  | unary (op : TokenSpec)
  /-- Joins the top, as the right operand, and the tree below it. -/
  | binary (op : TokenSpec)
  | dup
  | pop
  | swap

/-- A question about the top of the stack. -/
inductive Query where
  | render
  | depth
  /-- Are the topmost two trees equal? -/
  | equal
  | preorder
  | shape

inductive Step where
  | edit (e : Edit)
  | query (q : Query)

/-- What a step answers. -/
inductive Answer where
  | stack (trees : List Expr)
  | text (s : String)
  | count (n : Nat)
  | truth (b : Bool)
  | entries (es : List Entry)
  | shape (s : Shape)
  | failed (e : AssemblyError)

namespace Edit

/-- The stack after an edit, and what went wrong. A request for a token is met before the
stack is looked at. -/
def apply (tokens : List Token) (stack : List Expr) (edit : Edit) :
    List Expr × Option AssemblyError :=
  match edit, stack with
  | push value, _ => (.literal value :: stack, none)
  | sample, _ => (Expr.sample :: stack, none)
  | literalOf spec, _ =>
    match spec.token tokens with
    | .error e => (stack, some e)
    | .ok t =>
      match t.literal with
      | some l => (.literal (some (.ofLiteral l)) :: stack, none)
      | none => (stack, some .noLiteral)
  | prefixed spec, _ =>
    match spec.token tokens, stack with
    | .error e, _ => (stack, some e)
    | .ok _, [] => (stack, some .underflow)
    | .ok op, operand :: below =>
      match Expr.prefixed op operand with
      | .ok tree => (tree :: below, none)
      | .error fault => (below, some (.rejected fault))
  | unary spec, _ =>
    match spec.token tokens, stack with
    | .error e, _ => (stack, some e)
    | .ok op, operand :: below => (.unary op operand :: below, none)
    | .ok _, _ => (stack, some .underflow)
  | binary spec, _ =>
    match spec.token tokens, stack with
    | .error e, _ => (stack, some e)
    | .ok op, right :: left :: below => (.binary left op right :: below, none)
    | .ok _, _ => (stack, some .underflow)
  | group, top :: below => (.grouping top :: below, none)
  | dup, top :: _ => (top :: stack, none)
  | pop, _ :: below => (below, none)
  | swap, first :: second :: below => (second :: first :: below, none)
  | group, _ | dup, _ | pop, _ | swap, _ => (stack, some .underflow)

end Edit

/-- The answer to a question. -/
def Query.answer : Query → List Expr → Answer
  | render, top :: _ => .text top.render
  | depth, top :: _ => .count top.depth
  | equal, first :: second :: _ => .truth (first == second)
  | preorder, top :: _ => .entries top.preorder
  | shape, top :: _ => .shape top.shape
  | _, _ => .failed .underflow

/-- **A run of steps** on a stack, with the answer to each. It goes on after a failure. -/
def assemble (tokens : List Token) : List Expr → List Step → List Answer
  | _, [] => []
  | stack, .query q :: steps => q.answer stack :: assemble tokens stack steps
  | stack, .edit e :: steps =>
    let (stack', failure) := e.apply tokens stack
    (match failure with
      | some error => .failed error
      | none => .stack stack') :: assemble tokens stack' steps

end LoxFront

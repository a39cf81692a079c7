import LoxFront.Expr.Render
import Mathlib.Data.List.Basic

/-!
# Written trees are read back

The written form of a tree shows its skeleton and nothing else: the shapes of the nodes, the
texts of the literals and the lexemes of the operators. Where these are plain words, the
skeleton is read back from it.

* `Skeleton`, `Expr.skeleton` — what the written form shows of a tree;
* `Expr.Plain` — all words in a tree are plain, so that none is taken for a bracket or runs over
  a space;
* `Skeleton.read?` — the reader. It goes over the words from left to right with a stack
  (`Skeleton.shift`): a bracket that opens is put on it, a plain word is put on it as a literal,
  and a bracket that closes takes the words and trees above the bracket that opened for the
  parts of one node (`Skeleton.close?`);
* `Skeleton.Pushes text s` — the reader goes over `text` and has `s` on top of what was there
  before. It is proved for the written form of each shape of node from its operands.

Whether a word is an operator or a literal shows only when the bracket closes: one part above
the bracket more or less makes it stand before its operand or between two.

The main statement is `render_eq_iff_skeleton_eq`.
-/

namespace LoxFront

/-! ### Words -/

/-- The words of a text: its parts between spaces. -/
def Text.words (text : String) : List String := (text.toList.splitOn ' ').map String.ofList

open Text

theorem words_append_space (text more : String) :
    words (text ++ " " ++ more) = words text ++ words more := by
  unfold words
  rw [String.toList_append, String.toList_append, List.append_assoc]
  change (List.splitOn ' ' (text.toList ++ ' ' :: more.toList)).map String.ofList = _
  rw [List.splitOn_append_cons_self, List.map_append]

theorem words_eq_singleton {w : String} (h : ' ' ∉ w.toList) : words w = [w] := by
  unfold words
  rw [List.splitOn_eq_singleton h, List.map_singleton, String.ofList_toList]

/-- **A plain word** is one word, and no bracket. -/
structure Text.PlainWord (w : String) : Prop where
  ne_empty : w ≠ ""
  no_space : ' ' ∉ w.toList
  ne_begin : w ≠ "Begin:"
  ne_end : w ≠ ":End"

theorem plainWord_iff (w : String) :
    PlainWord w ↔ w ≠ "" ∧ ' ' ∉ w.toList ∧ w ≠ "Begin:" ∧ w ≠ ":End" :=
  ⟨fun h => ⟨h.1, h.2, h.3, h.4⟩, fun h => ⟨h.1, h.2.1, h.2.2.1, h.2.2.2⟩⟩

instance (w : String) : Decidable (PlainWord w) := decidable_of_iff' _ (plainWord_iff w)

/-! ### Skeletons -/

/-- **What the written form of a tree shows.** -/
inductive Skeleton where
  | literal (text : String)
  | grouping (inner : Skeleton)
  | unary (lexeme : String) (operand : Skeleton)
  | binary (left : Skeleton) (lexeme : String) (right : Skeleton)
deriving DecidableEq

/-- The written form of a tree with this skeleton. -/
def Skeleton.text : Skeleton → String
  | literal text => text
  | grouping inner => "Begin: group " ++ inner.text ++ " :End"
  | unary lexeme operand => "Begin: " ++ lexeme ++ " " ++ operand.text ++ " :End"
  | binary left lexeme right =>
    "Begin: " ++ left.text ++ " " ++ lexeme ++ " " ++ right.text ++ " :End"

namespace Expr

/-- **The skeleton of a tree**: shapes, texts of literals, and lexemes of operators. -/
def skeleton : Expr → Skeleton :=
  fold { literal := fun value => .literal (literalText value)
         grouping := fun inner => .grouping inner
         unary := fun op operand => .unary op.lexeme operand
         binary := fun left op right => .binary left op.lexeme right }

/-- **A plain tree**: its words are plain, and no operator that stands before its operand is
written as a grouping is. -/
def Plain : Expr → Prop
  | literal value => PlainWord (literalText value)
  | grouping inner => inner.Plain
  | unary op operand => PlainWord op.lexeme ∧ op.lexeme ≠ "group" ∧ operand.Plain
  | binary left op right => left.Plain ∧ PlainWord op.lexeme ∧ right.Plain

instance decidablePlain : (e : Expr) → Decidable e.Plain
  | literal value => inferInstanceAs (Decidable (PlainWord (literalText value)))
  | grouping inner => decidablePlain inner
  | unary op operand =>
    have := decidablePlain operand
    inferInstanceAs (Decidable (PlainWord op.lexeme ∧ op.lexeme ≠ "group" ∧ operand.Plain))
  | binary left op right =>
    have := decidablePlain left
    have := decidablePlain right
    inferInstanceAs (Decidable (left.Plain ∧ PlainWord op.lexeme ∧ right.Plain))

/-- The written form of a tree is that of its skeleton. -/
theorem text_skeleton (e : Expr) : e.skeleton.text = e.render := by
  induction e with
  | literal value => rfl
  | grouping inner ih =>
    rw [render_grouping, ← ih]
    rfl
  | unary op operand ih =>
    rw [render_unary, ← ih]
    rfl
  | binary left op right ihl ihr =>
    rw [render_binary, ← ihl, ← ihr]
    rfl

end Expr

/-! ### The reader -/

namespace Skeleton

/-- What the reader has on its stack. -/
inductive Piece where
  /-- A bracket that is still open. -/
  | opened
  | tree (s : Skeleton)
deriving DecidableEq

/-- **A bracket closes.** Above the one that opened lie an operator or the word of a grouping
and the operand, or an operator between two operands. -/
def close? : List Piece → Option (List Piece)
  | .tree operand :: .tree (.literal w) :: .opened :: stack =>
    some (.tree (if w = "group" then .grouping operand else .unary w operand) :: stack)
  | .tree right :: .tree (.literal w) :: .tree left :: .opened :: stack =>
    some (.tree (.binary left w right) :: stack)
  | _ => none

/-- **One word is read.** -/
def shift (stack : List Piece) (w : String) : Option (List Piece) :=
  if w = "Begin:" then some (.opened :: stack)
  else if w = ":End" then close? stack
  else some (.tree (.literal w) :: stack)

/-- **Reading a skeleton**: the words of the text leave one tree on the stack. -/
def read? (text : String) : Option Skeleton :=
  match (words text).foldlM shift [] with
  | some [.tree s] => some s
  | _ => none

/-- **The reader goes over a text** and has a skeleton on top. -/
def Pushes (text : String) (s : Skeleton) : Prop :=
  ∀ stack, (words text).foldlM shift stack = some (.tree s :: stack)

theorem Pushes.read?_eq {text : String} {s : Skeleton} (h : Pushes text s) :
    read? text = some s := by
  unfold read?
  rw [h []]

theorem pushes_of_plainWord {w : String} (h : PlainWord w) : Pushes w (.literal w) := by
  intro stack
  rw [words_eq_singleton h.no_space, List.foldlM_cons, shift, if_neg h.ne_begin, if_neg h.ne_end]
  rfl

/-- What is read first lies below what is read after it. -/
theorem Pushes.foldlM_append {text : String} {s : Skeleton} (h : Pushes text s) (more : String)
    (stack : List Piece) :
    (words (text ++ " " ++ more)).foldlM shift stack =
      (words more).foldlM shift (.tree s :: stack) := by
  rw [words_append_space, List.foldlM_append, h stack]
  rfl

/-- **Between brackets** the reader starts above the one and closes with the other. -/
theorem foldlM_bracketed {inner : String} {stack pieces : List Piece}
    (h : (words inner).foldlM shift (.opened :: stack) = some pieces) :
    (words ("Begin: " ++ inner ++ " :End")).foldlM shift stack = close? pieces := by
  have hsplit : "Begin: " ++ inner ++ " :End" = "Begin:" ++ " " ++ (inner ++ " " ++ ":End") :=
    calc "Begin: " ++ inner ++ " :End"
        = "Begin: " ++ (inner ++ (" " ++ ":End")) := String.append_assoc
      _ = "Begin:" ++ " " ++ (inner ++ " " ++ ":End") :=
          congrArg ("Begin: " ++ ·) String.append_assoc.symm
  have hbegin : words "Begin:" = ["Begin:"] := words_eq_singleton (by decide)
  have hend : words ":End" = [":End"] := words_eq_singleton (by decide)
  rw [hsplit, words_append_space, words_append_space, hbegin, hend, List.singleton_append,
    List.foldlM_cons]
  -- The bracket that opens is on the stack, and what is left is to read up to the other.
  change (words inner ++ [":End"]).foldlM shift (.opened :: stack) = _
  rw [List.foldlM_append, h]
  change (shift pieces ":End" >>= pure) = _
  rw [bind_pure]
  rfl

/-- **A word and an operand** between brackets. -/
theorem foldlM_prefixed {w text : String} {s : Skeleton} (hw : PlainWord w) (h : Pushes text s)
    (stack : List Piece) :
    (words ("Begin: " ++ w ++ " " ++ text ++ " :End")).foldlM shift stack =
      some (.tree (if w = "group" then .grouping s else .unary w s) :: stack) := by
  have hinner : (words (w ++ " " ++ text)).foldlM shift (.opened :: stack) =
      some (.tree s :: .tree (.literal w) :: .opened :: stack) := by
    rw [(pushes_of_plainWord hw).foldlM_append, h]
  have hassoc : "Begin: " ++ w ++ " " ++ text = "Begin: " ++ (w ++ " " ++ text) := by
    rw [String.append_assoc, String.append_assoc, String.append_assoc]
  rw [hassoc, foldlM_bracketed hinner]
  rfl

theorem Pushes.grouping {text : String} {s : Skeleton} (h : Pushes text s) :
    Pushes ("Begin: group " ++ text ++ " :End") (.grouping s) :=
  foldlM_prefixed (w := "group") (by decide) h

theorem Pushes.unary {w text : String} {s : Skeleton} (hw : PlainWord w) (hgroup : w ≠ "group")
    (h : Pushes text s) : Pushes ("Begin: " ++ w ++ " " ++ text ++ " :End") (.unary w s) := by
  intro stack
  rw [foldlM_prefixed hw h, if_neg hgroup]

/-- **A word between two operands**, between brackets. -/
theorem Pushes.binary {w left right : String} {s t : Skeleton} (hleft : Pushes left s)
    (hw : PlainWord w) (hright : Pushes right t) :
    Pushes ("Begin: " ++ left ++ " " ++ w ++ " " ++ right ++ " :End") (.binary s w t) := by
  intro stack
  have hinner : (words (left ++ " " ++ (w ++ " " ++ right))).foldlM shift (.opened :: stack) =
      some (.tree t :: .tree (.literal w) :: .tree s :: .opened :: stack) := by
    rw [hleft.foldlM_append, (pushes_of_plainWord hw).foldlM_append, hright]
  have hassoc : "Begin: " ++ left ++ " " ++ w ++ " " ++ right =
      "Begin: " ++ (left ++ " " ++ (w ++ " " ++ right)) := by
    simp only [String.append_assoc]
  rw [hassoc, foldlM_bracketed hinner]
  rfl

/-- **A plain tree is pushed** by the reader on whatever it has read before. -/
theorem pushes_render {e : Expr} (h : e.Plain) : Pushes e.render e.skeleton := by
  -- By induction on the tree. An operand is read above what stands before it in its node, which
  -- is why `Pushes` is about every stack.
  induction e with
  | literal value => exact pushes_of_plainWord h
  | grouping inner ih => exact (ih h).grouping
  | unary op operand ih =>
    obtain ⟨hop, hgroup, hoperand⟩ := h
    exact (ih hoperand).unary hop hgroup
  | binary left op right ihl ihr =>
    obtain ⟨hleft, hop, hright⟩ := h
    exact (ihl hleft).binary hop (ihr hright)

end Skeleton

/-- **A written tree shows its skeleton.** The reader recovers the skeleton of every plain tree
from its written form, so that two plain trees are written alike just if they have the same
skeleton. -/
theorem render_eq_iff_skeleton_eq {e f : Expr} (he : e.Plain) (hf : f.Plain) :
    (e.render = f.render ↔ e.skeleton = f.skeleton) ∧
      Skeleton.read? e.render = some e.skeleton := by
  have heread := (Skeleton.pushes_render he).read?_eq
  have hfread := (Skeleton.pushes_render hf).read?_eq
  refine ⟨⟨fun htext => ?_, fun hskeleton => ?_⟩, heread⟩
  · rw [htext, hfread] at heread
    exact (Option.some.inj heread).symm
  · rw [← e.text_skeleton, ← f.text_skeleton, hskeleton]

/-- A tree that is written as the sample tree is, with texts for its numbers. -/
def Expr.sampleTwin : Expr :=
  binary (unary ⟨.operator .star, "-", none, 7⟩ (literal (some (.string "123"))))
    ⟨.identifier, "*", none, 7⟩ (grouping (literal (some (.string "45.67"))))

/-- Two trees of all shapes that differ in what their written form does not show. -/
theorem render_eq_iff_skeleton_eq_sample :
    Expr.sample.Plain ∧ Expr.sampleTwin.Plain ∧ Expr.sample.render = Expr.sampleTwin.render ∧
      Skeleton.read? Expr.sample.render =
        some (.binary (.unary "-" (.literal "123")) "*" (.grouping (.literal "45.67"))) := by
  have hsample : Expr.sample.Plain := by decide +kernel
  have htwin : Expr.sampleTwin.Plain := by decide +kernel
  have hskeleton : Expr.sample.skeleton = Expr.sampleTwin.skeleton := by decide +kernel
  obtain ⟨hiff, hread⟩ := render_eq_iff_skeleton_eq hsample htwin
  rw [hskeleton] at hread
  exact ⟨hsample, htwin, hiff.mpr hskeleton, hread⟩

end LoxFront

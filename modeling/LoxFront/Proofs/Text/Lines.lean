/-!
# Line numbers

Lines are counted from 1, and a line feed belongs to the line that it ends. So the line on
which a text goes on after `before` is given by the line feeds in `before` alone
(`Text.lineAfter`), and it adds up over what is read piece by piece (`lineAfter_append`).
-/

namespace LoxFront.Text

/-- **The line reached** after a text: one more than its line feeds. -/
def lineAfter (before : List Char) : Nat := 1 + before.count '\n'

@[simp] theorem lineAfter_nil : lineAfter [] = 1 := rfl

theorem lineAfter_append (before text : List Char) :
    lineAfter (before ++ text) = lineAfter before + text.count '\n' := by
  unfold lineAfter
  rw [List.count_append, Nat.add_assoc]

end LoxFront.Text

import LoxFront.Text.Ranges

/-!
# White space at the end of a line

`Text.isWhiteSpace` is the Unicode property White_Space, and `Text.trimEnd` takes
the longest run of such characters off the end of a text.
-/

namespace LoxFront.Text

/-- The Unicode property White_Space. -/
def whiteSpaceRanges : Ranges :=
  [(0x09, 0x0D), (0x20, 0x20), (0x85, 0x85), (0xA0, 0xA0), (0x1680, 0x1680),
   (0x2000, 0x200A), (0x2028, 0x2029), (0x202F, 0x202F), (0x205F, 0x205F), (0x3000, 0x3000)]

theorem whiteSpaceRanges_ordered : whiteSpaceRanges.Ordered := by decide

theorem whiteSpaceRanges_size : whiteSpaceRanges.size = 25 := by decide

def isWhiteSpace (c : Char) : Bool := whiteSpaceRanges.holds c

/-- A text without the white space at its end. -/
def trimEnd (cs : List Char) : List Char := (cs.reverse.dropWhile isWhiteSpace).reverse

/-- The white space at the end of a text. -/
def trailing (cs : List Char) : List Char := (cs.reverse.takeWhile isWhiteSpace).reverse

@[simp] theorem trimEnd_append_trailing (cs : List Char) : trimEnd cs ++ trailing cs = cs := by
  rw [trimEnd, trailing, ← List.reverse_append, List.takeWhile_append_dropWhile,
    List.reverse_reverse]

end LoxFront.Text

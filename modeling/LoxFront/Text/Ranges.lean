/-!
# Sets of characters given by code point ranges

A property of characters that follows no formula is a table: closed ranges of code
points, ascending and apart. `Text.Ranges.Ordered` says so, and is decided in one pass
(`Text.Ranges.orderedFrom_iff`). `Text.Ranges.size` counts the code points of a table.
-/

namespace LoxFront.Text

/-- Closed ranges of code points, each given by its first and its last one. -/
abbrev Ranges := List (Nat × Nat)

namespace Ranges

/-- Membership of a character: some range holds its code point. -/
def holds (ranges : Ranges) (c : Char) : Bool :=
  ranges.any fun (first, last) => first ≤ c.toNat && c.toNat ≤ last

/-- A table holds nothing between two code points if each range ends before them or begins after
them. -/
theorem holds_eq_false {ranges : Ranges} {first last : Nat}
    (hranges : ranges.all fun range => range.2 < first || last < range.1) {c : Char}
    (hfirst : first ≤ c.toNat) (hlast : c.toNat ≤ last) : ranges.holds c = false := by
  refine List.any_eq_false.mpr fun range hmem hrange => ?_
  have hapart := List.all_eq_true.mp hranges range hmem
  simp only [Bool.or_eq_true, Bool.and_eq_true, decide_eq_true_eq] at hapart hrange
  omega

/-- Ascending, and with a gap between any two ranges. -/
def Ordered (ranges : Ranges) : Prop :=
  (∀ range ∈ ranges, range.1 ≤ range.2) ∧ ranges.Pairwise fun r s => r.2 + 1 < s.1

/-- One pass over a table: each range has its ends in order and does not begin before the bound,
which leaves out one code point after the range before it. -/
def orderedFrom (bound : Nat) : Ranges → Bool
  | [] => true
  | (first, last) :: ranges =>
    decide (bound ≤ first) && decide (first ≤ last) && orderedFrom (last + 2) ranges

theorem orderedFrom_iff (bound : Nat) (ranges : Ranges) :
    ranges.orderedFrom bound = true ↔ (∀ range ∈ ranges, bound ≤ range.1) ∧ ranges.Ordered := by
  induction ranges generalizing bound with
  | nil => simp [orderedFrom, Ordered]
  | cons range ranges ih =>
    obtain ⟨first, last⟩ := range
    simp only [orderedFrom, Bool.and_eq_true, decide_eq_true_eq, ih, Ordered, List.mem_cons,
      forall_eq_or_imp, List.pairwise_cons]
    constructor
    · rintro ⟨⟨hbound, hrange⟩, hafter, hranges, hgaps⟩
      refine ⟨⟨hbound, fun range hmem => ?_⟩, ⟨hrange, hranges⟩, hafter, hgaps⟩
      have hrange' := hafter range hmem
      omega
    · rintro ⟨⟨hbound, -⟩, ⟨hrange, hranges⟩, hafter, hgaps⟩
      exact ⟨⟨hbound, hrange⟩, hafter, hranges, hgaps⟩

theorem ordered_iff (ranges : Ranges) : ranges.Ordered ↔ ranges.orderedFrom 0 = true := by
  rw [orderedFrom_iff]
  exact (and_iff_right fun _ _ => Nat.zero_le _).symm

instance (ranges : Ranges) : Decidable ranges.Ordered := decidable_of_iff' _ ranges.ordered_iff

/-- The number of code points in an ordered table. -/
def size (ranges : Ranges) : Nat :=
  ranges.foldl (fun count (first, last) => count + (last + 1 - first)) 0

end Ranges

end LoxFront.Text

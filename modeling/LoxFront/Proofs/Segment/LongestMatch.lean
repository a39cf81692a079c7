import LoxFront.Proofs.Segment.Boundary

/-!
# Longest match

How a source falls into segments, said without reference to how it is cut: at each
position the segment is the longest text of a class that stands there, and only where no
text of a class stands is there a fault.

* `Segment.InClass` — a blank, a comment, an operator, a closed string, a number or a word;
* `Segment.IsLongest s cs` — of all texts of a class at the front of `cs`, that of `s` is
  the longest;
* `LongestSplit cs segs` — the text `cs` falls into `segs` by this rule.

The rule leaves no choice, and cutting follows it (`longestSplit_iff`). What carries both
directions is `first_covers`: whatever text of a class stands at the front, the first cut
is in a class too and at least as long.
-/

namespace LoxFront

open Text

namespace Segment

/-- **The classes**: every well-formed segment but the two kinds of fault. -/
def InClass (s : Segment) : Prop := s.WellFormed ∧ s.isFault = false

/-- **The longest match** at the front of a text. -/
structure IsLongest (s : Segment) (cs : List Char) : Prop where
  /-- The segment is in a class. -/
  inClass : s.InClass
  /-- Its text stands at the front. -/
  begins : s.text <+: cs
  /-- No text of a class at the front is longer. -/
  longest : ∀ t : Segment, t.InClass → t.text <+: cs → t.text.length ≤ s.text.length

end Segment

open Segment

/-- **The split of a text by longest match.** Where no text of a class stands, a quote takes
the whole rest with it, and any other character stands alone. -/
inductive LongestSplit : List Char → List Segment → Prop
  | nil : LongestSplit [] []
  | longest {s : Segment} {rest : List Char} {segs : List Segment}
      (h : s.IsLongest (s.text ++ rest)) (hrest : LongestSplit rest segs) :
      LongestSplit (s.text ++ rest) (s :: segs)
  | openString {body : List Char} (h : ∀ t : Segment, t.InClass → ¬ t.text <+: '"' :: body) :
      LongestSplit ('"' :: body) [.openString body]
  | stray {c : Char} {rest : List Char} {segs : List Segment} (hc : c ≠ '"')
      (h : ∀ t : Segment, t.InClass → ¬ t.text <+: c :: rest) (hrest : LongestSplit rest segs) :
      LongestSplit (c :: rest) (.stray c :: segs)

namespace Segment

/-! ### The first cut covers every text of a class -/

theorem isFault_cutOperator (op : Operator) (cs : List Char) :
    (cutOperator op cs).1.isFault = false := by
  unfold cutOperator
  split <;> rfl

/-- A number is cut with all the digits at the front as its whole part. -/
theorem cutNumber_fst (cs : List Char) :
    ∃ fraction, (cutNumber cs).1 = number ⟨cs.takeWhile Char.isDigit, fraction⟩ := by
  unfold cutNumber
  split
  · split
    · exact ⟨_, rfl⟩
    · exact ⟨[], rfl⟩
  · exact ⟨[], rfl⟩

theorem cutNumber_covers {numeral : Numeral} (hs : (number numeral).WellFormed)
    (rest : List Char) :
    (cutNumber (numeral.text ++ rest)).1.isFault = false ∧
      numeral.text.length ≤ (cutNumber (numeral.text ++ rest)).1.text.length := by
  obtain ⟨whole, fraction⟩ := numeral
  obtain ⟨-, hwhole, hfraction⟩ := hs
  cases fraction with
  | nil =>
    -- The digits are taken, whether or not a fraction is taken with them.
    rw [Numeral.text_whole]
    obtain ⟨fraction, hcut⟩ := cutNumber_fst (whole ++ rest)
    rw [hcut]
    have hrun := (prefix_takeWhile rest hwhole).length_le
    have htext := (whole_prefix_text ⟨(whole ++ rest).takeWhile Char.isDigit, fraction⟩).length_le
    exact ⟨rfl, hrun.trans htext⟩
  | cons d ds =>
    have hd : d.isDigit = true := hfraction d List.mem_cons_self
    have hds : ∀ c ∈ ds, c.isDigit = true := fun c hc => hfraction c (List.mem_cons_of_mem d hc)
    rw [Numeral.text_fraction, List.append_assoc, List.cons_append, List.cons_append,
      cutNumber_point hwhole hd]
    refine ⟨rfl, ?_⟩
    have hlen := (prefix_takeWhile rest hds).length_le
    simp only [text, Numeral.text_fraction, List.length_append, List.length_cons]
    omega

/-- **The first cut covers.** If a text of a class stands at the front, the first cut is no
fault and is at least as long. -/
theorem first_covers {t : Segment} (ht : t.InClass) {c : Char} {cs : List Char}
    (h : t.text <+: c :: cs) :
    (first c cs).1.isFault = false ∧ t.text.length ≤ (first c cs).1.text.length := by
  obtain ⟨rest, h⟩ := h
  obtain ⟨hs, hclass⟩ := ht
  cases t with
  | blank d =>
    -- A blank, a closed string and an operator of two characters are cut whatever follows.
    rw [first_eq hs trivial h]
    exact ⟨rfl, le_rfl⟩
  | string value =>
    rw [first_eq hs trivial h]
    exact ⟨rfl, le_rfl⟩
  | operator op =>
    change op.text.toList ++ rest = c :: cs at h
    obtain ⟨d, htext, hd⟩ | ⟨d, base, htext, hd, hbase⟩ := operator_text_cases op
    · -- One character is the least that is cut.
      rw [htext] at h
      obtain ⟨rfl, -⟩ := List.cons.inj h
      rw [first_of_ofChar? hd]
      refine ⟨isFault_cutOperator op cs, ?_⟩
      change op.text.toList.length ≤ _
      rw [htext]
      exact List.length_pos_iff.mpr (wellFormed_cutOperator op cs).text_ne_nil
    · rw [first_eq hs (endsBefore_wide hbase rest) h]
      exact ⟨rfl, le_rfl⟩
  | comment body =>
    change '/' :: '/' :: (body ++ rest) = c :: cs at h
    obtain ⟨rfl, rfl⟩ := List.cons.inj h
    have hbody := forall_bne_of_not_mem hs
    rw [first_slash_slash]
    refine ⟨rfl, ?_⟩
    simpa [text] using (prefix_takeWhile rest hbody).length_le
  | number numeral =>
    have hdigit : c.isDigit = true := isDigit_head_text hs h
    rw [first_of_isDigit hdigit, ← h]
    exact cutNumber_covers hs rest
  | word w =>
    obtain ⟨d, ds, rfl, hstart, hds⟩ := hs.word_eq_cons
    change d :: (ds ++ rest) = c :: cs at h
    obtain ⟨rfl, rfl⟩ := List.cons.inj h
    rw [first_of_isWordStart hstart]
    refine ⟨rfl, ?_⟩
    simpa [text] using (prefix_takeWhile rest hds).length_le
  | openString body => exact absurd hclass (by simp [isFault])
  | stray d => exact absurd hclass (by simp [isFault])

/-- A text of a class at the front keeps the first cut from being a fault, so a fault is cut
only where none stands; then the first character says which fault. -/
theorem first_eq_of_isFault {c : Char} {cs : List Char} (h : (first c cs).1.isFault = true) :
    first c cs = if c = '"' then (openString cs, []) else (stray c, cs) := by
  have htext := text_first c cs
  have hshape := wellFormed_first c cs
  have hends := endsBefore_first c cs
  generalize first c cs = cut at h htext hshape hends ⊢
  obtain ⟨s, rest⟩ := cut
  cases s with
  | openString body =>
    obtain rfl : rest = [] := hends
    change '"' :: body ++ [] = c :: cs at htext
    rw [List.append_nil] at htext
    obtain ⟨rfl, rfl⟩ := List.cons.inj htext
    rw [if_pos rfl]
  | stray d =>
    change d :: rest = c :: cs at htext
    obtain ⟨rfl, rfl⟩ := List.cons.inj htext
    rw [if_neg hshape.2.1]
  | _ => exact absurd h (by simp [isFault])

/-- The first cut is a fault exactly where no text of a class stands. -/
theorem isFault_first_iff (c : Char) (cs : List Char) :
    (first c cs).1.isFault = true ↔ ∀ t : Segment, t.InClass → ¬ t.text <+: c :: cs := by
  constructor
  · intro h t ht hfront
    rw [(first_covers ht hfront).1] at h
    exact absurd h (by simp)
  · intro h
    -- A first cut that is no fault would itself be a text of a class.
    by_contra hfault
    rw [Bool.not_eq_true] at hfault
    exact h _ ⟨wellFormed_first c cs, hfault⟩ ⟨_, text_first c cs⟩

theorem isLongest_first {c : Char} {cs : List Char} (h : (first c cs).1.isFault = false) :
    (first c cs).1.IsLongest (c :: cs) where
  inClass := ⟨wellFormed_first c cs, h⟩
  begins := ⟨_, text_first c cs⟩
  longest := fun _ ht hfront => (first_covers ht hfront).2

/-- The text of a well-formed segment determines the segment. -/
theorem WellFormed.eq_of_text_eq {s t : Segment} (hs : s.WellFormed) (ht : t.WellFormed)
    (h : s.text = t.text) : s = t := by
  obtain ⟨c, cs, hcons⟩ := List.exists_cons_of_ne_nil hs.text_ne_nil
  -- Both are the first cut of that text.
  have hfirst : ∀ u : Segment, u.WellFormed → u.text = c :: cs → first c cs = (u, []) := by
    intro u hu htext
    exact first_eq hu (endsBefore_nil u) (by rw [List.append_nil, htext])
  have heq := (hfirst s hs hcons).symm.trans (hfirst t ht (h ▸ hcons))
  exact congrArg Prod.fst heq

/-- **The longest match is the first cut.** -/
theorem IsLongest.first_eq {s : Segment} {rest : List Char} {c : Char} {cs : List Char}
    (h : s.IsLongest (s.text ++ rest)) (htext : s.text ++ rest = c :: cs) :
    first c cs = (s, rest) := by
  rw [htext] at h
  obtain ⟨hfault, hle⟩ := first_covers h.inClass h.begins
  have hcut := isLongest_first hfault
  -- Both are prefixes of one text and neither is longer, so they are one text.
  have hlen := le_antisymm hle (h.longest _ hcut.inClass hcut.begins)
  have hsame : s.text = (first c cs).1.text :=
    (List.prefix_of_prefix_length_le h.begins hcut.begins hlen.le).eq_of_length hlen
  have hseg : (first c cs).1 = s :=
    hcut.inClass.1.eq_of_text_eq h.inClass.1 hsame.symm
  have hrest : (first c cs).2 = rest := by
    have happend := (text_first c cs).trans htext.symm
    rw [hseg] at happend
    exact List.append_cancel_left happend
  exact Prod.ext hseg hrest

end Segment

/-! ### Cutting is the split by longest match -/

theorem longestSplit_segments (cs : List Char) : LongestSplit cs (segments cs) := by
  induction cs using segments.induct with
  | case1 => rw [segments_nil]; exact LongestSplit.nil
  | case2 c cs cut ih =>
    rw [segments_cons]
    by_cases hfault : (first c cs).1.isFault = true
    · -- Nothing of a class stands here, and the first character says which fault it is.
      have hnone := (isFault_first_iff c cs).mp hfault
      have heq := first_eq_of_isFault hfault
      by_cases hc : c = '"'
      · subst hc
        rw [if_pos rfl] at heq
        rw [heq, segments_nil]
        exact LongestSplit.openString hnone
      · rw [if_neg hc] at heq
        have hrest : LongestSplit (first c cs).2 (segments (first c cs).2) := ih
        rw [heq] at hrest ⊢
        exact LongestSplit.stray hc hnone hrest
    · rw [Bool.not_eq_true] at hfault
      have hlongest := isLongest_first hfault
      have htext := text_first c cs
      rw [← htext] at hlongest
      have hsplit := LongestSplit.longest hlongest ih
      rwa [htext] at hsplit

theorem LongestSplit.eq_segments {cs : List Char} {segs : List Segment}
    (h : LongestSplit cs segs) : segs = segments cs := by
  induction h with
  | nil => exact segments_nil.symm
  | @longest s rest segs hs _ ih =>
    obtain ⟨c, cs, htext⟩ : ∃ c cs, s.text ++ rest = c :: cs :=
      List.exists_cons_of_ne_nil (List.append_ne_nil_of_left_ne_nil hs.inClass.1.text_ne_nil rest)
    rw [htext, segments_cons, hs.first_eq htext, ih]
  | @openString body hnone =>
    have heq := first_eq_of_isFault ((isFault_first_iff '"' body).mpr hnone)
    rw [if_pos rfl] at heq
    rw [segments_cons, heq, segments_nil]
  | @stray c rest segs hc hnone _ ih =>
    have heq := first_eq_of_isFault ((isFault_first_iff c rest).mpr hnone)
    rw [if_neg hc] at heq
    rw [segments_cons, heq, ih]

/-- **Cutting is the split by longest match**, and the only one. -/
theorem longestSplit_iff {cs : List Char} {segs : List Segment} :
    LongestSplit cs segs ↔ segs = segments cs :=
  ⟨LongestSplit.eq_segments, fun h => h ▸ longestSplit_segments cs⟩

end LoxFront

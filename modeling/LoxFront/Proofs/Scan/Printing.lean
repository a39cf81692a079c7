import LoxFront.Expr.Basic
import LoxFront.Proofs.Binary64.Shortest
import LoxFront.Proofs.Decimal.Notation
import LoxFront.Proofs.Scan.Equality
import LoxFront.Proofs.Scan.Numbers

/-!
# Printed numbers are scanned again

A number is printed as the notation of its shortest decimal, and that is scanned as the same number.

* `scan_numeral`, `scan_minus_numeral` — a numeral makes up a source, alone and behind a minus sign;
* `Binary64.neg` — the datum with the other sign;
* `scan_text_of_not_isNegative`, `scan_text_of_isNegative` — what a printed datum is scanned as;
* `noLonger_magnitudeText` — no text for the same number is shorter.

The main statement is `scan_printed`.
-/

namespace LoxFront

open Text Segment Binary64

/-! ### Numerals as sources -/

section Numeral

variable {n : Numeral} (h : (Segment.number n).WellFormed)

include h

theorem lineAfter_numeral (before : List Char) :
    lineAfter (before ++ n.text) = lineAfter before := by
  have hfeeds : n.text.count '\n' = 0 :=
    List.count_eq_zero.mpr (h.lineFeed_not_mem rfl fun value => by simp)
  rw [lineAfter_append, hfeeds, Nat.add_zero]

/-- **A numeral** is scanned as its number. -/
theorem scan_numeral :
    scan (String.ofList n.text) =
      ⟨[.number (String.ofList n.text) n.value.nearest 1, .eof 1], []⟩ := by
  have hfound : foundFrom 1 (segments (String.ofList n.text).toList) =
      [.token (.number (String.ofList n.text) n.value.nearest 1)] := by
    rw [String.toList_ofList]
    exact congrArg (foundFrom 1) (segments_text h)
  have hline : lineAfter (String.ofList n.text).toList = 1 := by
    rw [String.toList_ofList]
    exact lineAfter_numeral h []
  rw [scan_eq_of_found hfound, hline]
  rfl

/-- **A numeral behind a minus sign** is scanned as an operator and its number. -/
theorem scan_minus_numeral :
    scan ("-" ++ String.ofList n.text) =
      ⟨[⟨.operator .minus, "-", none, 1⟩, .number (String.ofList n.text) n.value.nearest 1,
        .eof 1], []⟩ := by
  have hlist : ("-" ++ String.ofList n.text).toList = (operator .minus).text ++ n.text := by
    rw [String.toList_append, String.toList_ofList (l := n.text)]
    rfl
  have hminus : (operator .minus).EndsBefore n.text :=
    ⟨fun hwide => absurd rfl hwide, fun hslash => absurd hslash (by decide)⟩
  have hfound : foundFrom 1 (segments ("-" ++ String.ofList n.text).toList) =
      [.token ⟨.operator .minus, "-", none, 1⟩,
        .token (.number (String.ofList n.text) n.value.nearest 1)] := by
    rw [hlist, segments_text_append (s := operator .minus) trivial hminus]
    exact congrArg (fun segs => foundFrom 1 (operator .minus :: segs)) (segments_text h)
  have hline : lineAfter ("-" ++ String.ofList n.text).toList = 1 := by
    rw [hlist, lineAfter_numeral h]
    rfl
  rw [scan_eq_of_found hfound, hline]
  rfl

end Numeral

/-- **One text is no longer than another**: it has no more significant digits, and no more
characters. It may have more characters where it is one digit and zeros, as `10000000000000000`,
which `9999999999999999` is read as. -/
def NoLonger (text other : String) : Prop :=
  (significantDigits text).length ≤ (significantDigits other).length ∧
    (text.length ≤ other.length ∨ (significantDigits text).length ≤ 1 ∧ '.' ∉ text.toList)

namespace Binary64

/-! ### The sign -/

/-- **The datum with the other sign.** Adding the sign bit flips it, and what is carried is lost. -/
def neg (x : Binary64) : Binary64 := ⟨x.bits + UInt64.ofNat signBit⟩

theorem bits_neg (x : Binary64) :
    x.neg.bits.toNat = (x.bits.toNat + signBit) % 2 ^ 64 := UInt64.toNat_add ..

theorem rank_neg (x : Binary64) : x.neg.rank = x.rank := by
  have hbits := x.bits_neg
  unfold rank signBit at *
  omega

theorem isNegative_neg (x : Binary64) : x.neg.isNegative = !x.isNegative := by
  have hbits := x.bits_neg
  have hlt : x.bits.toNat < 2 ^ 64 := x.bits.toNat_lt
  unfold isNegative signBit at *
  rw [← decide_not, decide_eq_decide]
  omega

end Binary64

/-! ### Printed magnitudes -/

/-- A text for a number is a numeral that is read back. -/
theorem exists_readsBack {x y : Binary64} (hrank : y.rank = x.rank) {other : String}
    (hother : scan other = ⟨[.number other y 1, .eof 1], []⟩) :
    ∃ n : Numeral, (Segment.number n).WellFormed ∧ other = String.ofList n.text ∧
      x.ReadsBack n.value := by
  have hmem : Token.number other y 1 ∈ (scan other).tokens := by
    rw [hother]
    exact List.mem_cons_self
  obtain ⟨n, hshape, hlexeme, hliteral⟩ := exists_numeral hmem rfl
  obtain rfl : y = n.value.nearest := Literal.number.inj (Option.some.inj hliteral)
  exact ⟨n, hshape, hlexeme, hrank⟩

section Finite

variable {x : Binary64} (hfinite : x.isFinite = true)

include hfinite

theorem text_of_isFinite :
    x.text = if x.isNegative then "-" ++ x.magnitudeText else x.magnitudeText := by
  have hnan : x.isNaN = false := by
    rw [isFinite_iff] at hfinite
    unfold isNaN
    rw [decide_eq_false_iff_not]
    omega
  unfold Binary64.text
  rw [hnan]
  rfl

theorem magnitudeText_of_isFinite :
    x.magnitudeText = String.ofList x.shortest.numeral.text := by
  unfold magnitudeText
  rw [if_pos hfinite]

/-- The notation is read as the datum without its sign. -/
theorem nearest_numeral_shortest {y : Binary64} (hsign : y.isNegative = false)
    (hrank : y.rank = x.rank) : x.shortest.numeral.value.nearest = y := by
  have hread : x.shortest.nearest.rank = x.rank := readsBack_shortest hfinite
  rw [Decimal.nearest_congr x.shortest.toRat_numeral]
  exact eq_of_rank_eq (isNegative_nearest ..) hsign (hread.trans hrank.symm)

/-- **With a clear sign bit** the text is that of the magnitude, and is scanned as a number. -/
theorem scan_text_of_not_isNegative (hsign : x.isNegative = false) :
    x.text = x.magnitudeText ∧ scan x.text = ⟨[.number x.text x 1, .eof 1], []⟩ := by
  have htext : x.text = x.magnitudeText := by
    rw [text_of_isFinite hfinite, hsign]
    rfl
  have hscan := scan_numeral x.shortest.wellFormed_numeral
  rw [nearest_numeral_shortest hfinite hsign rfl, ← magnitudeText_of_isFinite hfinite,
    ← htext] at hscan
  exact ⟨htext, hscan⟩

/-- **With a set sign bit** a minus sign stands before it. -/
theorem scan_text_of_isNegative (hsign : x.isNegative = true) :
    x.text = "-" ++ x.magnitudeText ∧
      scan x.text =
        ⟨[⟨.operator .minus, "-", none, 1⟩, .number x.magnitudeText x.neg 1, .eof 1], []⟩ := by
  have htext : x.text = "-" ++ x.magnitudeText := by
    rw [text_of_isFinite hfinite, hsign]
    rfl
  have hneg : x.neg.isNegative = false := by
    rw [isNegative_neg, hsign]
    rfl
  have hscan := scan_minus_numeral x.shortest.wellFormed_numeral
  rw [nearest_numeral_shortest hfinite hneg x.rank_neg, ← magnitudeText_of_isFinite hfinite,
    ← htext] at hscan
  exact ⟨htext, hscan⟩

/-! ### No text is shorter -/

section Positive

variable {n : Numeral} (hshape : (Segment.number n).WellFormed) (hread : x.ReadsBack n.value)
  (hpos : x.rank ≠ 0)

include hshape hread hpos

/-- **The significant digits** of a numeral that is read back are no fewer. -/
theorem length_significantDigits_shortest_le :
    (significantDigits (String.ofList x.shortest.numeral.text)).length ≤
      (significantDigits (String.ofList n.text)).length := by
  obtain ⟨d, hvalue, hdigits⟩ := Numeral.exists_significant hshape
  have hd : x.ReadsBack d := by
    unfold ReadsBack
    rwa [Decimal.nearest_congr hvalue]
  have hshortest := coefficient_shortest_lt hfinite hpos hd hdigits
  have hsome : 0 < (significantDigits (String.ofList n.text)).length := by
    by_contra hnone
    rw [Nat.eq_zero_of_not_pos hnone, pow_zero, Nat.lt_one_iff] at hdigits
    exact coefficient_ne_zero hfinite hpos hd hdigits
  exact x.shortest.length_significantDigits_le.trans
    ((Nat.length_toDigits_le_iff (by decide) hsome).mpr hshortest)

omit hshape in
/-- The places after the point are no fewer. -/
theorem length_fraction_shortest_le :
    x.shortest.numeral.fraction.length ≤ n.fraction.length := by
  have hexponent : -(n.fraction.length : ℤ) ≤ x.shortest.exponent :=
    exponent_le_shortest hfinite hpos hread
  rw [x.shortest.length_fraction_numeral.1]
  omega

/-- **If the digits before the point are fewer**, then a power of ten stands between the two values.
It is read back as well, so that it is what is printed, up to the first digit. -/
theorem isWhole_of_length_whole_lt (h : n.whole.length < x.shortest.numeral.whole.length) :
    (significantDigits (String.ofList x.shortest.numeral.text)).length ≤ 1 ∧
      x.shortest.numeral.fraction = [] := by
  have hshortest := readsBack_shortest hfinite
  have hwhole : n.whole.length ≠ 0 := (List.length_pos_iff.mpr hshape.1).ne'
  have hpower : x.ReadsBack ⟨1, n.whole.length⟩ := by
    have hvalue : Decimal.toRat ⟨1, n.whole.length⟩ = 10 ^ n.whole.length := by
      rw [Decimal.toRat, Nat.cast_one, one_mul, zpow_natCast]
    refine hread.convex hfinite hshortest ?_ ?_
    · rw [hvalue]
      exact (Numeral.toRat_value_lt hshape).le
    · rw [hvalue]
      exact Decimal.pow_le_toRat (coefficient_ne_zero hfinite hpos hshortest) hwhole h
  have hexponent : (n.whole.length : ℤ) ≤ x.shortest.exponent :=
    exponent_le_shortest hfinite hpos hpower
  have hdigit : x.shortest.coefficient < 10 ^ 1 :=
    coefficient_shortest_lt hfinite hpos hpower (Nat.one_lt_pow one_ne_zero (by decide))
  refine ⟨x.shortest.length_significantDigits_le.trans
    ((Nat.length_toDigits_le_iff (by decide) one_pos).mpr hdigit), ?_⟩
  rw [← List.length_eq_zero_iff, x.shortest.length_fraction_numeral.1]
  omega

end Positive

/-- **Printed magnitudes are no longer** than any text for the same number. -/
theorem noLonger_magnitudeText {y : Binary64} (hrank : y.rank = x.rank) {other : String}
    (hother : scan other = ⟨[.number other y 1, .eof 1], []⟩) : NoLonger x.magnitudeText other := by
  obtain ⟨n, hshape, rfl, hread⟩ := exists_readsBack hrank hother
  rw [magnitudeText_of_isFinite hfinite]
  unfold NoLonger
  rw [String.length_ofList, String.length_ofList, String.toList_ofList]
  by_cases hzero : x.rank = 0
  · have hsome : 0 < n.text.length := List.length_pos_iff.mpr hshape.text_ne_nil
    rw [shortest, if_pos hzero]
    exact ⟨Nat.zero_le _, Or.inl hsome⟩
  · refine ⟨length_significantDigits_shortest_le hfinite hshape hread hzero, ?_⟩
    by_cases hwhole : x.shortest.numeral.whole.length ≤ n.whole.length
    · left
      exact Numeral.length_text_le hwhole (length_fraction_shortest_le hfinite hread hzero)
    · right
      obtain ⟨hdigit, hfraction⟩ :=
        isWhole_of_length_whole_lt hfinite hshape hread hzero (not_le.mp hwhole)
      exact ⟨hdigit, Numeral.point_not_mem_text x.shortest.wellFormed_numeral hfraction⟩

end Finite

-- One digit of seventeen characters, for what sixteen nines are read as.
example : (Decimal.nearest ⟨9999999999999999, 0⟩).text = "10000000000000000" := by
  decide +kernel

/-- **Printed numbers are scanned again.** A finite datum is printed alike as a literal and as a
value. With a clear sign bit the text is scanned as a number token, without faults, that takes up
all of the text and holds the very datum. With a set sign bit it is scanned as a minus sign and a
number token that holds the datum of the other sign. No text that is scanned as that number is
shorter. So the printed literal of a scanned number is scanned as the same number, and that is
printed as before. -/
theorem scan_printed :
    (∀ x : Binary64, x.isFinite = true →
      (Literal.number x).text = x.text ∧
      (Value.number x).text = x.text ∧
      (x.isNegative = false →
        scan x.text = ⟨[.number x.text x 1, .eof 1], []⟩ ∧
        ∀ other, scan other = ⟨[.number other x 1, .eof 1], []⟩ →
          NoLonger x.text other) ∧
      (x.isNegative = true →
        ∃ magnitude, x.text = "-" ++ magnitude ∧
          scan x.text =
            ⟨[⟨.operator .minus, "-", none, 1⟩, .number magnitude x.neg 1, .eof 1], []⟩ ∧
          ∀ other, scan other = ⟨[.number other x.neg 1, .eof 1], []⟩ →
            NoLonger magnitude other)) ∧
    ∀ (source : String), ∀ t ∈ (scan source).tokens, ∀ x, t.literal = some (.number x) →
      x.isFinite = true →
      ∃ u, scan t.literalText = ⟨[u, .eof 1], []⟩ ∧ u.literal = t.literal ∧
        u.literalText = t.literalText := by
  refine ⟨fun x hfinite => ⟨rfl, rfl, fun hsign => ?_, fun hsign => ?_⟩, ?_⟩
  · obtain ⟨htext, hscan⟩ := scan_text_of_not_isNegative hfinite hsign
    refine ⟨hscan, fun other hother => ?_⟩
    rw [htext]
    exact noLonger_magnitudeText hfinite rfl hother
  · obtain ⟨htext, hscan⟩ := scan_text_of_isNegative hfinite hsign
    exact ⟨x.magnitudeText, htext, hscan, fun other hother =>
      noLonger_magnitudeText hfinite x.rank_neg hother⟩
  · intro source t ht x hliteral hfinite
    -- A scanned number has a clear sign bit, so that it is printed as one token.
    have hsign : x.isNegative = false := (Token.IsScanned.ordinary ⟨source, ht⟩ hliteral).2
    have htext : t.literalText = x.text := by
      rw [Token.literalText, hliteral]
      rfl
    rw [htext]
    exact ⟨_, (scan_text_of_not_isNegative hfinite hsign).2, hliteral.symm, rfl⟩

/-- A tenth, which is printed with fewer digits than it was written with, and negative zero. -/
theorem scan_printed_tenth :
    (⟨0x3fb999999999999a⟩ : Binary64).text = "0.1" ∧
      scan "0.1" = ⟨[.number "0.1" ⟨0x3fb999999999999a⟩ 1, .eof 1], []⟩ ∧
      (∃ magnitude, (⟨0x8000000000000000⟩ : Binary64).text = "-" ++ magnitude ∧
        scan (⟨0x8000000000000000⟩ : Binary64).text =
          ⟨[⟨.operator .minus, "-", none, 1⟩, .number magnitude ⟨0⟩ 1, .eof 1], []⟩) ∧
      ∃ t ∈ (scan "00.100").tokens, ∃ u, scan t.literalText = ⟨[u, .eof 1], []⟩ ∧
        u.literal = t.literal := by
  have htext : (⟨0x3fb999999999999a⟩ : Binary64).text = "0.1" := by decide +kernel
  obtain ⟨-, -, hplain, -⟩ := scan_printed.1 ⟨0x3fb999999999999a⟩ (by decide)
  obtain ⟨-, -, -, hminus⟩ := scan_printed.1 ⟨0x8000000000000000⟩ (by decide)
  obtain ⟨magnitude, hmagnitude, hscan, -⟩ := hminus (by decide)
  have ht : (scan "00.100").tokens[0]? = some (.number "00.100" ⟨0x3fb999999999999a⟩ 1) := by
    decide +kernel
  replace ht := List.mem_of_getElem? ht
  obtain ⟨u, hu, hliteral, -⟩ := scan_printed.2 _ _ ht _ rfl (by decide)
  refine ⟨htext, ?_, ⟨magnitude, hmagnitude, hscan⟩, _, ht, u, hu, hliteral⟩
  rw [← htext]
  exact (hplain (by decide)).1

end LoxFront

import LoxFront.Proofs.Text.Span
import LoxFront.Segment.Split
import Mathlib.Data.List.Basic

/-!
# Segment boundaries

Whether a cut comes out as it was put in is a matter of what follows it. This file says
for each class what may follow, and reads the whole of `segments` off that:

* `Segment.EndsBefore s rest` — the text `rest` does not continue `s`;
* `Segment.BreaksOff rest rest'` — `rest'` goes along with `rest` up to its end or a blank, so that
  what ends before `rest` ends before `rest'` (`EndsBefore.breaksOff`);
* `first_eq` — a segment that ends before `rest` is what `Segment.first` cuts off its own
  text followed by `rest`, and `endsBefore_first` — every cut is of that form;
* `Separated tail segs` — each of `segs` has its shape and ends before the text of the
  others and `tail`;
* `segments_append_of_separated` — the segments of a separated list followed by `tail` are
  the list and the segments of `tail`, and `separated_segments` — every cutting is separated;
* `segments_append_last` — what is added to a text is cut together with its last segment.

A statement about two scans of related texts is then a statement about which segments
remain separated, and needs no second look at how a segment is cut.
-/

namespace LoxFront

open Text

/-! ### The classes of characters are apart -/

theorem isBlank_eq_false_of_isWordPart {c : Char} (h : isWordPart c = true) :
    isBlank c = false := by
  rw [Bool.eq_false_iff]
  intro hblank
  simp only [isBlank, Bool.or_eq_true, beq_iff_eq] at hblank
  obtain ((rfl | rfl) | rfl) | rfl := hblank <;> exact absurd h (by decide)

theorem ne_lineFeed_of_not_isBlank {c : Char} (h : isBlank c = false) : c ≠ '\n' := by
  rintro rfl
  exact absurd h (by decide)

theorem ne_quote_of_isWordPart {c : Char} (h : isWordPart c = true) : c ≠ '"' := by
  rintro rfl
  exact absurd h (by decide)

theorem isWordPart_of_isDigit {c : Char} (h : c.isDigit = true) : isWordPart c = true := by
  rw [isWordPart, h, Bool.or_true]

theorem isWordPart_of_isWordStart {c : Char} (h : isWordStart c = true) :
    isWordPart c = true := by
  rw [isWordPart, h, Bool.true_or]

/-- The letters and the underscore stand above the digits. -/
theorem nine_lt_of_isWordStart {c : Char} (h : isWordStart c = true) : '9'.toNat < c.toNat := by
  change (decide ('A'.val ≤ c.val ∧ c.val ≤ 'Z'.val) ||
    (decide ('a'.val ≤ c.val) && decide (c.val ≤ 'z'.val)) || c == '_') = true at h
  simp only [Bool.or_eq_true, Bool.and_eq_true, decide_eq_true_eq, beq_iff_eq] at h
  -- An upper case letter, a lower case letter or the underscore.
  obtain (⟨hupper, -⟩ | ⟨hlower, -⟩) | rfl := h
  · have hA : '9'.toNat < 'A'.toNat := by decide
    exact hA.trans_le (UInt32.le_iff_toNat_le.mp hupper)
  · have ha : '9'.toNat < 'a'.toNat := by decide
    exact ha.trans_le (UInt32.le_iff_toNat_le.mp hlower)
  · decide

theorem isDigit_eq_false_of_isWordStart {c : Char} (h : isWordStart c = true) :
    c.isDigit = false := by
  rw [Bool.eq_false_iff]
  intro hdigit
  have hnine := (Char.isDigit_iff_toNat.mp hdigit).2
  exact absurd hnine (Nat.not_le.mpr (nine_lt_of_isWordStart h))

/-- A character that spells an operator is in none of the other classes. -/
theorem not_special_of_ofChar? {c : Char} {op : Operator} (h : Operator.ofChar? c = some op) :
    isBlank c = false ∧ c ≠ '"' ∧ c.isDigit = false ∧ isWordStart c = false := by
  have htext := congrArg String.toList (Operator.text_ofChar? h)
  rw [String.toList_singleton] at htext
  cases op <;> simp [Operator.text] at htext <;> subst htext <;> decide

/-- An operator is spelled by one character, or by one and an equals sign. -/
theorem operator_text_cases (op : Operator) :
    (∃ c, op.text.toList = [c] ∧ Operator.ofChar? c = some op) ∨
      ∃ c base, op.text.toList = [c, '='] ∧ Operator.ofChar? c = some base ∧
        base.withEqual? = some op := by
  cases op
  case bangEqual => exact Or.inr ⟨'!', .bang, by decide⟩
  case equalEqual => exact Or.inr ⟨'=', .equal, by decide⟩
  case greaterEqual => exact Or.inr ⟨'>', .greater, by decide⟩
  case lessEqual => exact Or.inr ⟨'<', .less, by decide⟩
  all_goals exact Or.inl ⟨_, rfl, by decide⟩

namespace Segment

/-- A number is made of digits and a point. -/
theorem WellFormed.mem_text_number {numeral : Numeral} (hs : (number numeral).WellFormed) {c : Char}
    (hc : c ∈ (number numeral).text) : c.isDigit = true ∨ c = '.' := by
  obtain ⟨whole, fraction⟩ := numeral
  obtain ⟨-, hwhole, hfraction⟩ := hs
  cases fraction with
  | nil => exact Or.inl (hwhole c hc)
  | cons d ds =>
    change c ∈ whole ++ '.' :: d :: ds at hc
    rw [List.mem_append, List.mem_cons] at hc
    obtain hc | rfl | hc := hc
    · exact Or.inl (hwhole c hc)
    · exact Or.inr rfl
    · exact Or.inl (hfraction c hc)

/-- **A lexeme without quotes holds no blank.** -/
theorem WellFormed.isBlank_eq_false {s : Segment} (hs : s.WellFormed) (hlexeme : s.isLexeme = true)
    (hstring : ∀ value, s ≠ string value) : ∀ c ∈ s.text, isBlank c = false := by
  intro c hc
  cases s with
  | operator op =>
    change c ∈ op.text.toList at hc
    obtain ⟨d, htext, hd⟩ | ⟨d, base, htext, hd, -⟩ := operator_text_cases op
    · rw [htext, List.mem_singleton] at hc
      exact hc ▸ (not_special_of_ofChar? hd).1
    · rw [htext, List.mem_cons, List.mem_singleton] at hc
      obtain rfl | rfl := hc
      · exact (not_special_of_ofChar? hd).1
      · rfl
  | string value => exact absurd rfl (hstring value)
  | number numeral =>
    obtain hdigit | rfl := hs.mem_text_number hc
    · exact isBlank_eq_false_of_isWordPart (isWordPart_of_isDigit hdigit)
    · rfl
  | word w => exact isBlank_eq_false_of_isWordPart (hs.2 c hc)
  | _ => exact absurd hlexeme (by simp [isLexeme])

theorem WellFormed.lineFeed_not_mem {s : Segment} (hs : s.WellFormed) (hlexeme : s.isLexeme = true)
    (hstring : ∀ value, s ≠ string value) : '\n' ∉ s.text := by
  intro hmem
  exact ne_lineFeed_of_not_isBlank (hs.isBlank_eq_false hlexeme hstring '\n' hmem) rfl

/-- The line feed that ends a comment is not part of it. -/
theorem lineFeed_not_mem_comment {body : List Char} (hs : (comment body).WellFormed) :
    '\n' ∉ (comment body).text := by
  have hbody : '\n' ∉ body := hs
  change '\n' ∉ '/' :: '/' :: body
  simpa using hbody

theorem lineFeeds_comment {body : List Char} (hs : (comment body).WellFormed) :
    (comment body).lineFeeds = 0 :=
  List.count_eq_zero_of_not_mem (lineFeed_not_mem_comment hs)

/-- A comment goes on over what is put behind it on its line. -/
theorem wellFormed_comment_append {body more : List Char} (hs : (comment body).WellFormed)
    (hmore : '\n' ∉ more) : (comment (body ++ more)).WellFormed := by
  intro hmem
  obtain hbody | htail := List.mem_append.mp hmem
  · exact hs hbody
  · exact hmore htail

/-- **Where a segment ends.** At most two characters of `rest` matter, except that an open
string ends only where the source does. -/
def EndsBefore : Segment → List Char → Prop
  | blank _, _ | string _, _ | stray _, _ => True
  | comment _, rest => Stops (· != '\n') rest
  | operator op, rest =>
    (op.withEqual? ≠ none → Stops (· == '=') rest) ∧ (op = .slash → Stops (· == '/') rest)
  | number numeral, rest =>
    Stops Char.isDigit rest ∧
      (numeral.fraction = [] → ∀ tail, rest = '.' :: tail → Stops Char.isDigit tail)
  | word _, rest => Stops isWordPart rest
  | openString _, rest => rest = []

/-- The end of the source ends every segment. -/
@[simp] theorem endsBefore_nil (s : Segment) : s.EndsBefore [] := by
  cases s with
  | number numeral => exact ⟨stops_nil _, fun _ tail h => absurd h (by simp)⟩
  | operator op => exact ⟨fun _ => stops_nil _, fun _ => stops_nil _⟩
  | _ => simp [EndsBefore]

/-- What follows a comment begins with a line feed. -/
theorem eq_lineFeed_of_endsBefore_comment {body : List Char} {c : Char} {cs : List Char}
    (h : (comment body).EndsBefore (c :: cs)) : c = '\n' := by
  have hstop : (c != '\n') = false := (stops_cons _ c cs).mp h
  simpa using hstop

/-- **A boundary is local.** Of what is added behind the text after a segment only a digit matters,
and that only if the text is a single point, which the digit turns into a fraction. -/
theorem EndsBefore.append_cons {s : Segment} {c : Char} {cs tail : List Char}
    (h : s.EndsBefore (c :: cs)) (hdigit : cs = [] → Stops Char.isDigit tail) :
    s.EndsBefore (c :: cs ++ tail) := by
  have hne : c :: cs ≠ [] := List.cons_ne_nil c cs
  cases s with
  | blank d => trivial
  | comment body => exact Stops.append_of_ne_nil h hne tail
  | operator op =>
    refine ⟨fun hop => ?_, fun hop => ?_⟩
    · exact (h.1 hop).append_of_ne_nil hne tail
    · exact (h.2 hop).append_of_ne_nil hne tail
  | string value => trivial
  | number numeral =>
    refine ⟨h.1.append_of_ne_nil hne tail, fun hwhole after hafter => ?_⟩
    obtain ⟨rfl, rfl⟩ := List.cons.inj hafter
    -- A point: what stands behind it is the rest of the text, or `tail` if there is none.
    by_cases hcs : cs = []
    · subst hcs
      exact hdigit rfl
    · exact (h.2 hwhole cs rfl).append_of_ne_nil hcs tail
  | word w => exact Stops.append_of_ne_nil h hne tail
  | openString body => exact absurd h hne
  | stray d => trivial

/-- A boundary stays if the text after it goes on with something that ends the segment, too, and
that cannot turn a point at its end into a fraction. -/
theorem EndsBefore.append {s : Segment} {rest tail : List Char} (h : s.EndsBefore rest)
    (htail : s.EndsBefore tail) (hdigit : Stops Char.isDigit tail) :
    s.EndsBefore (rest ++ tail) := by
  cases rest with
  | nil => exact htail
  | cons c cs => exact h.append_cons fun _ => hdigit

/-- **A character that continues nothing** ends every segment but an open string: no letter and
no digit, no point, no equals sign, after a slash no slash and after a comment a line feed. -/
theorem endsBefore_cons {s : Segment} {c : Char} (hs : ∀ body, s ≠ openString body)
    (hpart : isWordPart c = false) (hpoint : c ≠ '.') (hequal : c ≠ '=')
    (hslash : s = operator .slash → c ≠ '/') (hcomment : ∀ body, s = comment body → c = '\n')
    (cs : List Char) : s.EndsBefore (c :: cs) := by
  have hdigit : Stops Char.isDigit (c :: cs) :=
    (stops_cons _ _ _).mpr (Bool.or_eq_false_iff.mp hpart).2
  cases s with
  | blank d => trivial
  | comment body =>
    obtain rfl := hcomment body rfl
    exact (stops_cons _ _ _).mpr rfl
  | operator op =>
    refine ⟨fun _ => (stops_cons _ _ _).mpr (beq_eq_false_iff_ne.mpr hequal), ?_⟩
    rintro rfl
    exact (stops_cons _ _ _).mpr (beq_eq_false_iff_ne.mpr (hslash rfl))
  | string value => trivial
  | number numeral => exact ⟨hdigit, fun _ tail h => absurd (List.cons.inj h).1 hpoint⟩
  | word w => exact (stops_cons _ _ _).mpr hpart
  | openString body => exact absurd rfl (hs body)
  | stray d => trivial

/-- A line feed ends every segment but an open string. -/
theorem endsBefore_lineFeed {s : Segment} (hs : ∀ body, s ≠ openString body) (tail : List Char) :
    s.EndsBefore ('\n' :: tail) :=
  endsBefore_cons hs (by decide) (by decide) (by decide) (fun _ => by decide) (fun _ _ => rfl) tail

/-! ### Texts that break off -/

/-- **A text that breaks off**: `rest'` goes along with `rest` until it ends or comes to a blank. -/
inductive BreaksOff : List Char → List Char → Prop
  | nil (rest : List Char) : BreaksOff rest []
  | blank {c : Char} (hc : isBlank c = true) (rest cs : List Char) : BreaksOff rest (c :: cs)
  | cons (c : Char) {rest rest' : List Char} (h : BreaksOff rest rest') :
      BreaksOff (c :: rest) (c :: rest')

section BreaksOff

variable {rest rest' : List Char} (hbreaks : BreaksOff rest rest')

include hbreaks

/-- A run that no blank continues is not continued by a text that breaks off. -/
theorem BreaksOff.stops {p : Char → Bool} (hp : ∀ c, p c = true → isBlank c = false)
    (h : Stops p rest) : Stops p rest' := by
  cases hbreaks with
  | nil rest => exact stops_nil p
  | @blank c hc rest cs =>
    rw [stops_cons, Bool.eq_false_iff]
    intro hpc
    exact absurd (hc.symm.trans (hp c hpc)) (by simp)
  | cons c _ => exact (stops_cons _ _ _).mpr ((stops_cons _ _ _).mp h)

/-- **A boundary stays** if what follows it breaks off, except that a blank does not end a comment
and that nothing but the end of the source ends an open string. -/
theorem EndsBefore.breaksOff {s : Segment} (h : s.EndsBefore rest)
    (hcomment : ∀ body, s ≠ comment body) (hopen : ∀ body, s ≠ openString body) :
    s.EndsBefore rest' := by
  have hpart : ∀ c, isWordPart c = true → isBlank c = false :=
    fun _ => isBlank_eq_false_of_isWordPart
  have hdigit : ∀ c : Char, c.isDigit = true → isBlank c = false :=
    fun c hc => hpart c (isWordPart_of_isDigit hc)
  have hchar : ∀ d : Char, isBlank d = false → ∀ c, (c == d) = true → isBlank c = false :=
    fun d hd c hc => (beq_iff_eq.mp hc) ▸ hd
  cases s with
  | blank c => trivial
  | comment body => exact absurd rfl (hcomment body)
  | operator op =>
    refine ⟨fun hop => ?_, fun hop => ?_⟩
    · exact hbreaks.stops (hchar '=' (by decide)) (h.1 hop)
    · exact hbreaks.stops (hchar '/' (by decide)) (h.2 hop)
  | string value => trivial
  | number numeral =>
    refine ⟨hbreaks.stops hdigit h.1, ?_⟩
    rintro hwhole tail rfl
    -- If there is a point, then it stood in `rest`, too, and what follows it breaks off again.
    cases hbreaks with
    | blank hpoint => exact absurd hpoint (by decide)
    | cons _ htail => exact htail.stops hdigit (h.2 hwhole _ rfl)
  | word w => exact hbreaks.stops hpart h
  | openString body => exact absurd rfl (hopen body)
  | stray c => trivial

end BreaksOff

/-- What a text goes on with can be left off. -/
theorem breaksOff_append (rest tail : List Char) : BreaksOff (rest ++ tail) rest := by
  induction rest with
  | nil => exact BreaksOff.nil tail
  | cons c cs ih => exact BreaksOff.cons c ih

theorem EndsBefore.of_append {s : Segment} {rest tail : List Char}
    (h : s.EndsBefore (rest ++ tail)) : s.EndsBefore rest := by
  cases s with
  | comment body => exact Stops.of_append h
  | openString body => exact (List.append_eq_nil_iff.mp h).1
  | _ => exact h.breaksOff (breaksOff_append rest tail) (by simp) (by simp)

/-! ### Cutting off a segment that ends -/

theorem cutString_append {value : List Char} (h : '"' ∉ value) (rest : List Char) :
    cutString (value ++ '"' :: rest) = (string value, rest) := by
  have hvalue := forall_bne_of_not_mem h
  have hstop : Stops (· != '"') ('"' :: rest) := by simp
  unfold cutString
  rw [takeWhile_append_of_stops hvalue hstop, dropWhile_append_of_stops hvalue hstop]

theorem cutString_of_not_mem {body : List Char} (h : '"' ∉ body) :
    cutString body = (openString body, []) := by
  unfold cutString
  rw [List.dropWhile_eq_nil_iff.mpr (forall_bne_of_not_mem h)]

theorem whole_prefix_text (numeral : Numeral) : numeral.whole <+: numeral.text := by
  obtain ⟨whole, _ | ⟨d, ds⟩⟩ := numeral
  · exact List.prefix_rfl
  · exact List.prefix_append _ _

/-- A number begins with a digit. -/
theorem isDigit_head_text {numeral : Numeral} {rest : List Char} {c : Char} {cs : List Char}
    (hs : (number numeral).WellFormed) (h : (number numeral).text ++ rest = c :: cs) :
    c.isDigit = true := by
  obtain ⟨hne, hwhole, -⟩ := hs
  obtain ⟨d, ds, hcons⟩ := List.exists_cons_of_ne_nil hne
  have hd : d.isDigit = true := hwhole d (hcons ▸ List.mem_cons_self)
  obtain ⟨tail, htail⟩ := whole_prefix_text numeral
  change numeral.text ++ rest = c :: cs at h
  rw [← htail, hcons] at h
  exact (List.cons.inj h).1 ▸ hd

/-- A word begins with a letter or an underscore and goes on with word characters. -/
theorem WellFormed.word_eq_cons {w : List Char} (hs : (word w).WellFormed) :
    ∃ c cs, w = c :: cs ∧ isWordStart c = true ∧ ∀ d ∈ cs, isWordPart d = true := by
  obtain ⟨⟨c, hc, hstart⟩, hpart⟩ := hs
  obtain ⟨cs, rfl⟩ := List.head?_eq_some_iff.mp hc
  exact ⟨c, cs, rfl, hstart, fun d hd => hpart d (List.mem_cons_of_mem c hd)⟩

/-- Digits, a point and a digit: the point belongs to the number. -/
theorem cutNumber_point {whole : List Char} {d : Char} (hwhole : ∀ c ∈ whole, c.isDigit = true)
    (hd : d.isDigit = true) (cs : List Char) :
    cutNumber (whole ++ '.' :: d :: cs) =
      (number ⟨whole, d :: cs.takeWhile Char.isDigit⟩, cs.dropWhile Char.isDigit) := by
  have hstop : Stops Char.isDigit ('.' :: d :: cs) := by simp
  unfold cutNumber
  rw [takeWhile_append_of_stops hwhole hstop, dropWhile_append_of_stops hwhole hstop]
  exact if_pos hd

theorem cutNumber_append {numeral : Numeral} {rest : List Char}
    (hs : (number numeral).WellFormed) (he : (number numeral).EndsBefore rest) :
    cutNumber (numeral.text ++ rest) = (number numeral, rest) := by
  obtain ⟨whole, fraction⟩ := numeral
  obtain ⟨-, hwhole, hfraction⟩ := hs
  obtain ⟨hstop, hpoint⟩ := he
  cases fraction with
  | nil =>
    unfold cutNumber
    rw [Numeral.text_whole, takeWhile_append_of_stops hwhole hstop,
      dropWhile_append_of_stops hwhole hstop]
    split
    · next d tail =>
      -- A point that is followed by no digit is left for the next cut.
      have hd : d.isDigit = false := by simpa using hpoint rfl (d :: tail) rfl
      rw [hd]
      rfl
    · rfl
  | cons d ds =>
    have hd : d.isDigit = true := hfraction d List.mem_cons_self
    have hds : ∀ c ∈ ds, c.isDigit = true := fun c hc => hfraction c (List.mem_cons_of_mem d hc)
    rw [Numeral.text_fraction, List.append_assoc, List.cons_append, List.cons_append,
      cutNumber_point hwhole hd, takeWhile_append_of_stops hds hstop,
      dropWhile_append_of_stops hds hstop]

theorem cutOperator_of_endsBefore {op : Operator} {rest : List Char}
    (he : (operator op).EndsBefore rest) : cutOperator op rest = (operator op, rest) := by
  unfold cutOperator
  split
  · next h => exact absurd (he.2 rfl) (by simp)
  · next wide tail h => exact absurd (he.1 (by rw [h]; simp)) (by simp)
  · rfl

theorem cutOperator_wide {base wide : Operator} (h : base.withEqual? = some wide)
    (rest : List Char) : cutOperator base ('=' :: rest) = (operator wide, rest) := by
  cases base <;> simp [Operator.withEqual?] at h <;> subst h <;> rfl

/-- An operator of two characters is not continued by anything. -/
theorem endsBefore_wide {base wide : Operator} (h : base.withEqual? = some wide)
    (rest : List Char) : (operator wide).EndsBefore rest := by
  cases base <;> simp [Operator.withEqual?] at h <;> subst h <;>
    exact ⟨fun hwide => absurd rfl hwide, fun hslash => absurd hslash (by decide)⟩

/-! ### The first segment of a text -/

theorem first_of_isBlank {c : Char} (h : isBlank c = true) (cs : List Char) :
    first c cs = (blank c, cs) := by
  unfold first
  rw [if_pos h]

theorem first_quote (cs : List Char) : first '"' cs = cutString cs := rfl

theorem first_of_isDigit {c : Char} (h : c.isDigit = true) (cs : List Char) :
    first c cs = cutNumber (c :: cs) := by
  have hpart := isWordPart_of_isDigit h
  unfold first
  rw [isBlank_eq_false_of_isWordPart hpart, if_neg (ne_quote_of_isWordPart hpart), h]
  rfl

theorem first_of_isWordStart {c : Char} (h : isWordStart c = true) (cs : List Char) :
    first c cs = (word (c :: cs.takeWhile isWordPart), cs.dropWhile isWordPart) := by
  have hpart := isWordPart_of_isWordStart h
  unfold first
  rw [isBlank_eq_false_of_isWordPart hpart, if_neg (ne_quote_of_isWordPart hpart),
    isDigit_eq_false_of_isWordStart h, h]
  rfl

theorem first_of_ofChar? {c : Char} {op : Operator} (h : Operator.ofChar? c = some op)
    (cs : List Char) : first c cs = cutOperator op cs := by
  obtain ⟨hblank, hquote, hdigit, hstart⟩ := not_special_of_ofChar? h
  unfold first
  rw [hblank, if_neg hquote, hdigit, hstart, h]
  rfl

theorem first_slash_slash (cs : List Char) :
    first '/' ('/' :: cs) = (comment (cs.takeWhile (· != '\n')), cs.dropWhile (· != '\n')) := by
  have hslash : Operator.ofChar? '/' = some .slash := by decide
  rw [first_of_ofChar? hslash]
  rfl

/-- **A segment is found again.** A segment that ends before `rest` is what is cut off its own
text followed by `rest`. -/
theorem first_eq {s : Segment} {rest : List Char} (hs : s.WellFormed) (he : s.EndsBefore rest)
    {c : Char} {cs : List Char} (h : s.text ++ rest = c :: cs) : first c cs = (s, rest) := by
  cases s with
  | blank d =>
    change d :: rest = c :: cs at h
    obtain ⟨rfl, rfl⟩ := List.cons.inj h
    exact first_of_isBlank hs _
  | comment body =>
    change '/' :: '/' :: (body ++ rest) = c :: cs at h
    obtain ⟨rfl, rfl⟩ := List.cons.inj h
    have hbody := forall_bne_of_not_mem hs
    rw [first_slash_slash, takeWhile_append_of_stops hbody he, dropWhile_append_of_stops hbody he]
  | operator op =>
    change op.text.toList ++ rest = c :: cs at h
    obtain ⟨d, htext, hd⟩ | ⟨d, base, htext, hd, hbase⟩ := operator_text_cases op
    · rw [htext] at h
      obtain ⟨rfl, rfl⟩ := List.cons.inj h
      rw [first_of_ofChar? hd]
      exact cutOperator_of_endsBefore he
    · rw [htext] at h
      obtain ⟨rfl, rfl⟩ := List.cons.inj h
      rw [first_of_ofChar? hd]
      exact cutOperator_wide hbase rest
  | string value =>
    change '"' :: (value ++ ['"'] ++ rest) = c :: cs at h
    obtain ⟨rfl, rfl⟩ := List.cons.inj h
    rw [first_quote, List.append_assoc]
    exact cutString_append hs rest
  | number numeral =>
    rw [first_of_isDigit (isDigit_head_text hs h), ← h]
    exact cutNumber_append hs he
  | word w =>
    obtain ⟨d, ds, rfl, hstart, hds⟩ := hs.word_eq_cons
    change d :: (ds ++ rest) = c :: cs at h
    obtain ⟨rfl, rfl⟩ := List.cons.inj h
    rw [first_of_isWordStart hstart, takeWhile_append_of_stops hds he,
      dropWhile_append_of_stops hds he]
  | openString body =>
    -- An open string ends only with the source.
    obtain rfl : rest = [] := he
    rw [List.append_nil] at h
    obtain ⟨rfl, rfl⟩ := List.cons.inj h
    exact cutString_of_not_mem hs
  | stray d =>
    change d :: rest = c :: cs at h
    obtain ⟨rfl, rfl⟩ := List.cons.inj h
    obtain ⟨hblank, hquote, hpart, hop⟩ := hs
    obtain ⟨hstart, hdigit⟩ := Bool.or_eq_false_iff.mp hpart
    unfold first
    rw [hblank, if_neg hquote, hdigit, hstart, hop]
    rfl

theorem endsBefore_cutString (cs : List Char) : (cutString cs).1.EndsBefore (cutString cs).2 := by
  unfold cutString
  split
  · rfl
  · trivial

theorem endsBefore_cutNumber (cs : List Char) : (cutNumber cs).1.EndsBefore (cutNumber cs).2 := by
  have hstop := stops_dropWhile Char.isDigit cs
  unfold cutNumber
  split
  · next d rest h =>
    by_cases hd : d.isDigit = true
    · -- The fraction has all the digits there are.
      rw [if_pos hd]
      exact ⟨stops_dropWhile Char.isDigit rest, fun hwhole => absurd hwhole (by simp)⟩
    · -- The point is left, and no digit stands behind it.
      rw [if_neg hd]
      refine ⟨by simp, fun _ tail htail => ?_⟩
      obtain rfl : d :: rest = tail := (List.cons.inj htail).2
      simpa using hd
  · next hpoint =>
    refine ⟨hstop, fun _ tail htail => ?_⟩
    cases tail with
    | nil => exact stops_nil _
    | cons d rest => exact absurd htail (hpoint d rest)

theorem endsBefore_cutOperator (op : Operator) (cs : List Char) :
    (cutOperator op cs).1.EndsBefore (cutOperator op cs).2 := by
  by_cases he : (operator op).EndsBefore cs
  · rw [cutOperator_of_endsBefore he]
    exact he
  · -- The operator is continued, so it grows by an equals sign or opens a comment.
    rw [EndsBefore, Classical.not_and_iff_not_or_not] at he
    rcases he with hwide | hslash
    · obtain ⟨hop, hstop⟩ := Classical.not_imp.mp hwide
      obtain ⟨wide, hop⟩ := Option.ne_none_iff_exists'.mp hop
      obtain ⟨rest, rfl⟩ := exists_cons_of_not_stops hstop
      rw [cutOperator_wide hop]
      exact endsBefore_wide hop rest
    · obtain ⟨rfl, hstop⟩ := Classical.not_imp.mp hslash
      obtain ⟨rest, rfl⟩ := exists_cons_of_not_stops hstop
      exact stops_dropWhile _ rest

/-- **Every cut ends.** What follows a cut does not continue it. -/
theorem endsBefore_first (c : Char) (cs : List Char) :
    (first c cs).1.EndsBefore (first c cs).2 := by
  unfold first
  split
  · trivial
  split
  · exact endsBefore_cutString cs
  split
  · exact endsBefore_cutNumber (c :: cs)
  split
  · exact stops_dropWhile isWordPart cs
  split
  · exact endsBefore_cutOperator _ cs
  · trivial

end Segment

/-! ### Cutting a separated list -/

open Segment

/-- **Separated segments**: each has its shape, and ends before the text of the others and
`tail`. -/
def Separated (tail : List Char) : List Segment → Prop
  | [] => True
  | s :: segs =>
    s.WellFormed ∧ s.EndsBefore (segs.flatMap Segment.text ++ tail) ∧ Separated tail segs

@[simp] theorem separated_nil (tail : List Char) : Separated tail [] := trivial

/-- Two lists are separated together if the first is so before the text of the second. -/
theorem separated_append {tail : List Char} {xs ys : List Segment} :
    Separated tail (xs ++ ys) ↔
      Separated (ys.flatMap Segment.text ++ tail) xs ∧ Separated tail ys := by
  induction xs with
  | nil => exact ⟨fun h => ⟨trivial, h⟩, And.right⟩
  | cons s xs ih =>
    have hbehind : (xs ++ ys).flatMap Segment.text ++ tail =
        xs.flatMap Segment.text ++ (ys.flatMap Segment.text ++ tail) := by
      rw [List.flatMap_append, List.append_assoc]
    show s.WellFormed ∧ s.EndsBefore ((xs ++ ys).flatMap Segment.text ++ tail) ∧
      Separated tail (xs ++ ys) ↔ _
    rw [hbehind, ih]
    constructor
    · rintro ⟨hs, he, hxs, hys⟩
      exact ⟨⟨hs, he, hxs⟩, hys⟩
    · rintro ⟨⟨hs, he, hxs⟩, hys⟩
      exact ⟨hs, he, hxs, hys⟩

/-- **A separated list stays separated** before a longer text, if what is added ends each of its
segments. -/
theorem Separated.append_tail {tail more : List Char} {segs : List Segment}
    (h : Separated tail segs) (hmore : ∀ s ∈ segs, s.EndsBefore more)
    (hdigit : Stops Char.isDigit more) : Separated (tail ++ more) segs := by
  induction segs with
  | nil => trivial
  | cons s segs ih =>
    obtain ⟨hs, he, hsegs⟩ := h
    refine ⟨hs, ?_, ih hsegs fun t ht => hmore t (List.mem_cons_of_mem s ht)⟩
    rw [← List.append_assoc]
    exact he.append (hmore s List.mem_cons_self) hdigit

/-- The same holds of whatever is added to a text that is not empty, except for a digit. -/
theorem Separated.append_of_ne_nil {tail more : List Char} {segs : List Segment}
    (h : Separated tail segs) (hne : tail ≠ []) (hdigit : Stops Char.isDigit more) :
    Separated (tail ++ more) segs := by
  induction segs with
  | nil => trivial
  | cons s segs ih =>
    obtain ⟨hs, he, hsegs⟩ := h
    refine ⟨hs, ?_, ih hsegs⟩
    -- With `tail` at its end the text behind `s` is not empty, and so the boundary is local.
    have hbehind : segs.flatMap Segment.text ++ tail ≠ [] :=
      List.append_ne_nil_of_right_ne_nil _ hne
    obtain ⟨c, cs, hcons⟩ := List.exists_cons_of_ne_nil hbehind
    rw [hcons] at he
    rw [← List.append_assoc, hcons]
    apply he.append_cons
    intro _
    exact hdigit

/-- Before a text that is not empty no string is open. -/
theorem Separated.ne_openString {tail : List Char} {segs : List Segment} (h : Separated tail segs)
    (hne : tail ≠ []) : ∀ s ∈ segs, ∀ body, s ≠ openString body := by
  induction segs with
  | nil => exact fun s hs => absurd hs List.not_mem_nil
  | cons s segs ih =>
    intro t ht body hopen
    rcases List.mem_cons.mp ht with rfl | ht
    · subst hopen
      exact hne (List.append_eq_nil_iff.mp h.2.1).2
    · exact ih h.2.2 t ht body hopen

theorem segments_text_append {s : Segment} {rest : List Char} (hs : s.WellFormed)
    (he : s.EndsBefore rest) : segments (s.text ++ rest) = s :: segments rest := by
  obtain ⟨c, cs, h⟩ : ∃ c cs, s.text ++ rest = c :: cs :=
    List.exists_cons_of_ne_nil (List.append_ne_nil_of_left_ne_nil hs.text_ne_nil rest)
  rw [h, segments_cons, first_eq hs he h]

/-- **A separated list is cut as it stands.** -/
theorem segments_append_of_separated {tail : List Char} {segs : List Segment}
    (h : Separated tail segs) :
    segments (segs.flatMap Segment.text ++ tail) = segs ++ segments tail := by
  induction segs with
  | nil => rfl
  | cons s segs ih =>
    obtain ⟨hs, he, hsegs⟩ := h
    rw [List.flatMap_cons, List.append_assoc, segments_text_append hs he, ih hsegs,
      List.cons_append]

/-- **Every cutting is separated.** -/
theorem separated_segments (cs : List Char) : Separated [] (segments cs) := by
  induction cs using segments.induct with
  | case1 => rw [segments_nil]; exact separated_nil []
  | case2 c cs cut ih =>
    rw [segments_cons]
    refine ⟨wellFormed_first c cs, ?_, ih⟩
    -- The text of the other segments is what the first cut left.
    rw [flatMap_text_segments, List.append_nil]
    exact endsBefore_first c cs

theorem Separated.of_append {tail more : List Char} {segs : List Segment}
    (h : Separated (tail ++ more) segs) : Separated tail segs := by
  induction segs with
  | nil => trivial
  | cons s segs ih =>
    obtain ⟨hs, he, hsegs⟩ := h
    refine ⟨hs, ?_, ih hsegs⟩
    rw [← List.append_assoc] at he
    exact he.of_append

/-- Separated segments are the segments of their own text. -/
theorem Separated.segments_flatMap_text {tail : List Char} {segs : List Segment}
    (h : Separated tail segs) : segments (segs.flatMap Segment.text) = segs := by
  have hsep : Separated ([] ++ tail) segs := h
  have hcut := segments_append_of_separated hsep.of_append
  rwa [List.append_nil, segments_nil, List.append_nil] at hcut

/-- A segment is all there is in its own text. -/
theorem segments_text {s : Segment} (hs : s.WellFormed) : segments s.text = [s] := by
  have hcut := segments_text_append hs (endsBefore_nil s)
  rwa [List.append_nil, segments_nil] at hcut

/-- A text has a last segment unless it is empty. -/
theorem eq_nil_or_segments_eq_concat (cs : List Char) :
    cs = [] ∨ ∃ init last, segments cs = init ++ [last] := by
  obtain hnil | hconcat := List.eq_nil_or_concat' (segments cs)
  · left
    rw [← flatMap_text_segments cs, hnil, List.flatMap_nil]
  · exact Or.inr hconcat

section Last

variable {cs : List Char} {init : List Segment} {last : Segment}
  (h : segments cs = init ++ [last])

include h

/-- **The last segment** of a text ends the segments before it. -/
theorem separated_last :
    cs = init.flatMap Segment.text ++ last.text ∧ Separated last.text init ∧ last.WellFormed := by
  have hsep := separated_segments cs
  rw [h, separated_append, List.flatMap_singleton, List.append_nil] at hsep
  obtain ⟨hinit, hlast, -, -⟩ := hsep
  refine ⟨?_, hinit, hlast⟩
  rw [← flatMap_text_segments cs, h, List.flatMap_append, List.flatMap_singleton]

/-- Only the last segment takes part in what is added to a text, unless that is a digit. -/
theorem segments_append_last {more : List Char} (hdigit : Stops Char.isDigit more) :
    segments (cs ++ more) = init ++ segments (last.text ++ more) := by
  obtain ⟨htext, hinit, hlast⟩ := separated_last h
  have hsep : Separated (last.text ++ more) init :=
    hinit.append_of_ne_nil hlast.text_ne_nil hdigit
  rw [htext, List.append_assoc]
  exact segments_append_of_separated hsep

end Last

theorem Separated.wellFormed {tail : List Char} {segs : List Segment} (h : Separated tail segs) :
    ∀ s ∈ segs, s.WellFormed := by
  induction segs with
  | nil => exact fun s hs => absurd hs List.not_mem_nil
  | cons s segs ih =>
    intro t ht
    rcases List.mem_cons.mp ht with rfl | ht
    · exact h.1
    · exact ih h.2.2 t ht

theorem wellFormed_of_mem_segments {cs : List Char} {s : Segment} (h : s ∈ segments cs) :
    s.WellFormed :=
  (separated_segments cs).wellFormed s h

end LoxFront

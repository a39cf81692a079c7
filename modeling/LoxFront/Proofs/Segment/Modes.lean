import LoxFront.Proofs.Segment.Boundary
import LoxFront.Proofs.Text.Mode

/-!
# The pass over segments

The pass of `Text.Mode` goes through a source character by character, a scan goes through it segment
by segment. They agree on what is a string and what is a comment: the pass comes to every segment in
code.

* `Segment.mode` — the mode in which a segment leaves the pass;
* `Segment.passes_text` — the pass over one segment, from which follow `Segment.after_text_append`
  and `Segment.uncomment_text_append`, about one segment and what stands behind it;
* `after_eq_of_last` — a text ends in the mode of its last segment;
* `segments_append_of_code`, `exists_segments_append_of_comment`, `exists_segments_append_of_string`
  — what is added to a text that ends in code, in a comment or in a string: segments of its own, or
  more of the last segment;
* `breaksOff_uncomment` — a text breaks off where a comment is taken out of it.
-/

namespace LoxFront

open Text

namespace Segment

/-- **The mode in which a segment leaves the pass.** -/
def mode : Segment → Mode
  | comment _ => .comment
  | openString _ => .string
  | _ => .code

/-- What the pass keeps of a segment without comments. -/
def kept (s : Segment) : List Char := if s.mode = .comment then [] else s.text

theorem exists_eq_comment {s : Segment} (h : s.mode = .comment) : ∃ body, s = comment body := by
  cases s with
  | comment body => exact ⟨body, rfl⟩
  | _ => cases h

theorem exists_eq_openString {s : Segment} (h : s.mode = .string) :
    ∃ body, s = openString body := by
  cases s with
  | openString body => exact ⟨body, rfl⟩
  | _ => cases h

/-! ### One segment -/

/-- An operator other than the slash holds no slash, and none holds a quote. -/
theorem plain_of_mem_operator {op : Operator} (hop : op ≠ .slash) {c : Char}
    (hc : c ∈ op.text.toList) : c ≠ '"' ∧ c ≠ '/' := by
  have hslash : Operator.ofChar? '/' = some .slash := by decide
  obtain ⟨d, htext, hd⟩ | ⟨d, base, htext, hd, hbase⟩ := operator_text_cases op
  · rw [htext, List.mem_singleton] at hc
    subst hc
    refine ⟨(not_special_of_ofChar? hd).2.1, ?_⟩
    rintro rfl
    exact hop (Option.some.inj (hd.symm.trans hslash))
  · rw [htext, List.mem_cons, List.mem_singleton] at hc
    obtain rfl | rfl := hc
    · refine ⟨(not_special_of_ofChar? hd).2.1, ?_⟩
      -- No operator begins with a slash and goes on with an equals sign.
      rintro rfl
      obtain rfl : base = .slash := Option.some.inj (hd.symm.trans hslash)
      cases hbase
    · decide

/-- **Code stays code** over a segment without quotes that is neither a comment nor a slash. -/
theorem WellFormed.step_code {s : Segment} (hs : s.WellFormed) (hmode : s.mode = .code)
    (hstring : ∀ value, s ≠ string value) (hslash : s ≠ operator .slash) :
    ∀ c ∈ s.text, ∀ ahead, Mode.code.step c ahead = .code := by
  intro c hc ahead
  have hpart : ∀ d, isWordPart d = true → Mode.code.step d ahead = .code := by
    intro d hd
    apply Mode.step_code (ne_quote_of_isWordPart hd)
    rintro rfl
    exact absurd hd (by decide)
  cases s with
  | blank d =>
    obtain rfl := List.mem_singleton.mp hc
    have hblank : isBlank c = true := hs
    apply Mode.step_code
    · rintro rfl
      exact absurd hblank (by decide)
    · rintro rfl
      exact absurd hblank (by decide)
  | comment body => cases hmode
  | operator op =>
    obtain ⟨hquote, hne⟩ := plain_of_mem_operator (fun h => hslash (congrArg operator h)) hc
    exact Mode.step_code hquote hne ahead
  | string value => exact absurd rfl (hstring value)
  | number numeral =>
    obtain hdigit | rfl := hs.mem_text_number hc
    · exact hpart c (isWordPart_of_isDigit hdigit)
    · rfl
  | word w => exact hpart c (hs.2 c hc)
  | openString body => cases hmode
  | stray d =>
    obtain rfl := List.mem_singleton.mp hc
    obtain ⟨-, hquote, -, hop⟩ := hs
    apply Mode.step_code hquote
    rintro rfl
    exact absurd hop (by decide)

/-- **The pass over a comment.** The second slash is in the comment already. -/
theorem passes_comment {body rest : List Char} (hbody : '\n' ∉ body) :
    Mode.Passes .code ('/' :: '/' :: body) rest .comment [] := by
  have hfirst : Mode.Passes .code ['/'] ('/' :: (body ++ rest)) .comment [] := Mode.Passes.drop rfl
  have hsecond : Mode.Passes .comment ['/'] (body ++ rest) .comment [] := Mode.Passes.drop rfl
  exact hfirst.trans (hsecond.trans (Mode.Passes.drop_run hbody))

/-- **The pass into a string.** -/
theorem passes_openString {body rest : List Char} (hbody : '"' ∉ body) :
    Mode.Passes .code ('"' :: body) rest .string ('"' :: body) := by
  have hopening : Mode.Passes .code ['"'] (body ++ rest) .string ['"'] :=
    Mode.Passes.keep rfl (by decide)
  refine hopening.trans (Mode.Passes.keep_run (by decide) fun c hc ahead => ?_)
  apply Mode.step_string
  rintro rfl
  exact hbody hc

/-- **The pass over one segment.** It comes to the segment in code, leaves it in the mode of the
segment, and keeps all of it unless it is a comment. -/
theorem passes_text {s : Segment} {rest : List Char} (hs : s.WellFormed) (he : s.EndsBefore rest) :
    Mode.Passes .code s.text rest s.mode s.kept := by
  -- Apart from the segments with quotes and slashes of their own, the pass stays in code.
  by_cases hplain : s.mode = .code ∧ (∀ value, s ≠ string value) ∧ s ≠ operator .slash
  · obtain ⟨hmode, hstring, hslash⟩ := hplain
    have hkept : s.kept = s.text := by
      cases s with
      | comment body => cases hmode
      | _ => rfl
    rw [hmode, hkept]
    exact Mode.Passes.keep_run (by decide) (hs.step_code hmode hstring hslash)
  · cases s with
    | comment body => exact passes_comment hs
    | operator op =>
      obtain rfl : op = .slash := by
        by_contra hop
        exact hplain ⟨rfl, fun value => by simp, fun h => hop (operator.inj h)⟩
      -- A slash that no slash follows.
      refine Mode.Passes.keep (Mode.step_slash fun hahead => ?_) (by decide)
      exact absurd (he.2 rfl '/' hahead) (by decide)
    | string value =>
      have hclosing : Mode.Passes .string ['"'] rest .code ['"'] :=
        Mode.Passes.keep rfl (by decide)
      exact (passes_openString hs).trans hclosing
    | openString body => exact passes_openString hs
    | _ => exact absurd ⟨rfl, by simp, by simp⟩ hplain

/-- **Behind a segment** the pass goes on as in code: what follows a comment begins with a line
feed, and nothing follows an open string. -/
theorem EndsBefore.step_mode {s : Segment} {c : Char} {cs : List Char}
    (h : s.EndsBefore (c :: cs)) (ahead : Option Char) :
    s.mode.step c ahead = Mode.code.step c ahead := by
  cases s with
  | comment body =>
    obtain rfl := eq_lineFeed_of_endsBefore_comment h
    rfl
  | openString body => cases h
  | _ => rfl

section Pass

variable {s : Segment} {rest : List Char} (hs : s.WellFormed) (he : s.EndsBefore rest)

include hs he

theorem after_text_append (hne : rest ≠ []) :
    Mode.code.after (s.text ++ rest) = Mode.code.after rest := by
  rw [(passes_text hs he).after_eq]
  cases rest with
  | nil => exact absurd rfl hne
  | cons c cs =>
    change (s.mode.step c cs.head?).after cs = (Mode.code.step c cs.head?).after cs
    rw [he.step_mode]

theorem uncomment_text_append :
    Mode.code.uncomment (s.text ++ rest) = s.kept ++ Mode.code.uncomment rest := by
  rw [(passes_text hs he).uncomment_eq]
  congr 1
  cases rest with
  | nil => rfl
  | cons c cs => rw [Mode.uncomment, Mode.uncomment, he.step_mode]

end Pass

/-- The mode in which a segment ends that is the whole text. -/
theorem after_text {s : Segment} (hs : s.WellFormed) : Mode.code.after s.text = s.mode := by
  have hpass := (passes_text hs (endsBefore_nil s)).after_eq
  rwa [List.append_nil] at hpass

end Segment

/-! ### All the segments -/

open Segment

/-- The pass comes in code to whatever stands behind separated segments. -/
theorem Separated.after_flatMap_text {tail : List Char} {segs : List Segment}
    (h : Separated tail segs) (hne : tail ≠ []) :
    Mode.code.after (segs.flatMap Segment.text ++ tail) = Mode.code.after tail := by
  induction segs with
  | nil => rfl
  | cons s segs ih =>
    obtain ⟨hs, he, hsegs⟩ := h
    have hrest : segs.flatMap Segment.text ++ tail ≠ [] := List.append_ne_nil_of_right_ne_nil _ hne
    rw [List.flatMap_cons, List.append_assoc, after_text_append hs he hrest]
    exact ih hsegs

/-- **The mode in which a text ends** is that of its last segment. -/
theorem after_eq_of_last {cs : List Char} {init : List Segment} {last : Segment}
    (h : segments cs = init ++ [last]) : Mode.code.after cs = last.mode := by
  obtain ⟨htext, hinit, hlast⟩ := separated_last h
  calc Mode.code.after cs
      = Mode.code.after (init.flatMap Segment.text ++ last.text) := congrArg _ htext
    _ = Mode.code.after last.text := hinit.after_flatMap_text hlast.text_ne_nil
    _ = last.mode := after_text hlast

/-- A text that does not end in code has a last segment, which says where it ends. -/
theorem exists_last_of_after_eq {cs : List Char} {mode : Mode} (h : Mode.code.after cs = mode)
    (hne : mode ≠ .code) : ∃ init last, segments cs = init ++ [last] ∧ last.mode = mode := by
  obtain rfl | ⟨init, last, hcut⟩ := eq_nil_or_segments_eq_concat cs
  · exact absurd h.symm hne
  · exact ⟨init, last, hcut, (after_eq_of_last hcut).symm.trans h⟩

/-! ### Texts that go on -/

/-- **A character that continues nothing** but comments and open strings. -/
structure ContinuesNothing (c : Char) : Prop where
  isWordPart_eq : isWordPart c = false
  ne_point : c ≠ '.'
  ne_equal : c ≠ '='
  ne_slash : c ≠ '/'

theorem ContinuesNothing.stops_isDigit {c : Char} (hc : ContinuesNothing c) (more : List Char) :
    Stops Char.isDigit (c :: more) :=
  (stops_cons _ _ _).mpr (Bool.or_eq_false_iff.mp hc.isWordPart_eq).2

/-- **In code** a text goes on with segments of its own, if it goes on with a character that
continues nothing. -/
theorem segments_append_of_code {cs : List Char} {c : Char} (h : Mode.code.after cs = .code)
    (hc : ContinuesNothing c) (more : List Char) :
    segments (cs ++ c :: more) = segments cs ++ segments (c :: more) := by
  obtain rfl | ⟨init, last, hcut⟩ := eq_nil_or_segments_eq_concat cs
  · rw [segments_nil]
    rfl
  · obtain ⟨-, -, hlast⟩ := separated_last hcut
    have hmode : last.mode = .code := (after_eq_of_last hcut).symm.trans h
    -- The character continues nothing but a comment and an open string, which do not end in code.
    have hends : last.EndsBefore (c :: more) := by
      have hopen : ∀ body, last ≠ openString body := by
        rintro body rfl
        cases hmode
      have hcomment : ∀ body, last = comment body → c = '\n' := by
        rintro body rfl
        cases hmode
      exact endsBefore_cons hopen hc.isWordPart_eq hc.ne_point hc.ne_equal (fun _ => hc.ne_slash)
        hcomment more
    calc segments (cs ++ c :: more)
        = init ++ segments (last.text ++ c :: more) :=
          segments_append_last hcut (hc.stops_isDigit more)
      _ = init ++ last :: segments (c :: more) := by rw [segments_text_append hlast hends]
      _ = segments cs ++ segments (c :: more) := by
        rw [hcut, List.append_assoc, List.singleton_append]

section More

variable {cs more : List Char} (hdigit : Stops Char.isDigit more)

include hdigit

/-- **In a comment** a text goes on with more of the comment, up to the end of the line. -/
theorem exists_segments_append_of_comment (h : Mode.code.after cs = .comment)
    (hmore : '\n' ∉ more) :
    ∃ init body, segments cs = init ++ [comment body] ∧
      segments (cs ++ more) = init ++ [comment (body ++ more)] := by
  obtain ⟨init, last, hcut, hmode⟩ := exists_last_of_after_eq h (by decide)
  obtain ⟨body, rfl⟩ := exists_eq_comment hmode
  obtain ⟨-, -, hbody⟩ := separated_last hcut
  refine ⟨init, body, hcut, ?_⟩
  rw [segments_append_last hcut hdigit]
  exact congrArg _ (segments_text (wellFormed_comment_append hbody hmore))

/-- **In a string** a text goes on with more of the string, up to the next quote. -/
theorem exists_segments_append_of_string (h : Mode.code.after cs = .string) (hmore : '"' ∉ more) :
    ∃ init body, segments cs = init ++ [openString body] ∧
      segments (cs ++ more) = init ++ [openString (body ++ more)] := by
  obtain ⟨init, last, hcut, hmode⟩ := exists_last_of_after_eq h (by decide)
  obtain ⟨body, rfl⟩ := exists_eq_openString hmode
  obtain ⟨-, -, hbody⟩ := separated_last hcut
  have hshape : (openString (body ++ more)).WellFormed := by
    intro hmem
    obtain hleft | hright := List.mem_append.mp hmem
    · exact hbody hleft
    · exact hmore hright
  refine ⟨init, body, hcut, ?_⟩
  rw [segments_append_last hcut hdigit]
  exact congrArg _ (segments_text hshape)

end More

/-- **Where a comment is taken out** a line feed follows, or nothing. -/
theorem breaksOff_uncomment (mode : Mode) (cs : List Char) :
    BreaksOff cs (mode.uncomment cs) := by
  have hcomment : ∀ cs cs', BreaksOff cs (Mode.comment.uncomment cs') := by
    intro cs cs'
    obtain hnil | ⟨rest, hrest⟩ := Mode.uncomment_comment cs'
    · rw [hnil]
      exact BreaksOff.nil cs
    · rw [hrest]
      exact BreaksOff.blank rfl cs rest
  induction cs generalizing mode with
  | nil => exact BreaksOff.nil []
  | cons c cs ih =>
    by_cases h : mode.step c cs.head? = .comment
    · rw [Mode.uncomment_cons_of_eq h]
      exact hcomment _ cs
    · rw [Mode.uncomment_cons_of_ne rfl h]
      exact BreaksOff.cons c (ih _)

end LoxFront

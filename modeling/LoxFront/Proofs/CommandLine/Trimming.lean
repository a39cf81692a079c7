import LoxFront.Proofs.CommandLine.Session
import LoxFront.Proofs.CommandLine.Writes
import LoxFront.Proofs.Scan.OpenStrings
import Mathlib.Data.List.DropRight

/-!
# Lines without the white space at their ends

A session scans its lines without the white space at their ends. What counts there is the Unicode
property White_Space, and the language skips only some of these characters, so it could make a
difference. It makes none for the tokens, and for the faults only in code.

* `continuesNothing_of_isWhiteSpace` — white space is apart from all that the language is written
  in, so that a character of it is a segment of its own (`segments_whiteSpace`);
* `foundFrom_whiteSpace` — of these characters on one line, each that the language does not skip
  yields a fault;
* `scan_append_whiteSpace` — white space at the end of a source adds these faults to the scan if the
  source ends in code, and nothing if it ends in a comment or in a string.

The main statement is `scan_trimmed`.
-/

namespace LoxFront

open Text Segment

/-! ### White space is apart from the language -/

/-- White space lies below the visible characters of ASCII or above them. -/
theorem toNat_of_isWhiteSpace {c : Char} (h : isWhiteSpace c = true) :
    c.toNat ≤ ' '.toNat ∨ '~'.toNat < c.toNat := by
  have hranges : whiteSpaceRanges.all
      fun range => range.2 < ' '.toNat + 1 || '~'.toNat < range.1 := by decide
  by_contra hbetween
  obtain ⟨hfirst, hlast⟩ := not_or.mp hbetween
  have hgap := Ranges.holds_eq_false hranges (Nat.lt_of_not_le hfirst) (Nat.le_of_not_lt hlast)
  exact Bool.false_ne_true (hgap.symm.trans h)

theorem toNat_le_of_isWordStart {c : Char} (h : isWordStart c = true) : c.toNat ≤ '~'.toNat := by
  change (decide ('A'.val ≤ c.val ∧ c.val ≤ 'Z'.val) ||
    (decide ('a'.val ≤ c.val) && decide (c.val ≤ 'z'.val)) || c == '_') = true at h
  simp only [Bool.or_eq_true, Bool.and_eq_true, decide_eq_true_eq, beq_iff_eq] at h
  -- An upper case letter, a lower case letter or the underscore.
  obtain (⟨-, hupper⟩ | ⟨-, hlower⟩) | rfl := h
  · exact (UInt32.le_iff_toNat_le.mp hupper).trans (by decide)
  · exact (UInt32.le_iff_toNat_le.mp hlower).trans (by decide)
  · decide

section WhiteSpace

variable {c : Char} (h : isWhiteSpace c = true)

include h

theorem isWordPart_eq_false_of_isWhiteSpace : isWordPart c = false := by
  rw [Bool.eq_false_iff]
  intro hpart
  -- A letter, a digit or the underscore is visible.
  have hvisible : ' '.toNat < c.toNat ∧ c.toNat ≤ '~'.toNat := by
    obtain hstart | hdigit := Bool.or_eq_true_iff.mp hpart
    · have hnine : ' '.toNat ≤ '9'.toNat := by decide
      exact ⟨hnine.trans_lt (nine_lt_of_isWordStart hstart), toNat_le_of_isWordStart hstart⟩
    · obtain ⟨hzero, hnine⟩ := Char.isDigit_iff_toNat.mp hdigit
      have hlower : ' '.toNat < '0'.toNat := by decide
      have hupper : '9'.toNat ≤ '~'.toNat := by decide
      exact ⟨hlower.trans_le hzero, hnine.trans hupper⟩
  have hspace := toNat_of_isWhiteSpace h
  omega

theorem ne_quote_of_isWhiteSpace : c ≠ '"' := by
  rintro rfl
  exact absurd h (by decide)

theorem ofChar?_eq_none_of_isWhiteSpace : Operator.ofChar? c = none := by
  rw [Option.eq_none_iff_forall_ne_some]
  intro op hop
  have htext := congrArg String.toList (Operator.text_ofChar? hop)
  rw [String.toList_singleton] at htext
  cases op <;> simp [Operator.text] at htext <;> subst htext <;> exact absurd h (by decide)

/-- **White space continues nothing** but comments and open strings. -/
theorem continuesNothing_of_isWhiteSpace : ContinuesNothing c where
  isWordPart_eq := isWordPart_eq_false_of_isWhiteSpace h
  ne_point := by
    rintro rfl
    exact absurd h (by decide)
  ne_equal := by
    rintro rfl
    exact absurd h (by decide)
  ne_slash := by
    rintro rfl
    exact absurd h (by decide)

end WhiteSpace

/-! ### Runs of white space -/

/-- A character of white space as a segment: the language skips it or has no place for it. -/
def Segment.ofWhiteSpace (c : Char) : Segment := if isBlank c then blank c else stray c

theorem Segment.text_ofWhiteSpace (c : Char) : (ofWhiteSpace c).text = [c] := by
  unfold ofWhiteSpace
  split <;> rfl

/-- The white space that the language skips within a line. -/
def isSkipped (c : Char) : Bool := c == ' ' || c == '\t' || c == '\r'

/-- The faults in a run of white space on one line: one for each character that the language does
not skip. -/
def unskipped (line : Nat) (run : List Char) : List Diagnostic :=
  (run.filter fun c => !isSkipped c).map fun c => ⟨line, .unexpectedCharacter c⟩

section Run

variable {run : List Char} (hrun : ∀ c ∈ run, isWhiteSpace c = true)

include hrun

/-- **White space is cut character by character.** -/
theorem segments_whiteSpace : segments run = run.map Segment.ofWhiteSpace := by
  induction run with
  | nil => exact segments_nil
  | cons c cs ih =>
    obtain ⟨hc, hcs⟩ := List.forall_mem_cons.mp hrun
    have hfirst : first c cs = (Segment.ofWhiteSpace c, cs) := by
      unfold Segment.ofWhiteSpace
      by_cases hblank : isBlank c = true
      · rw [if_pos hblank, first_of_isBlank hblank]
      · have hshape : (stray c).WellFormed :=
          ⟨Bool.eq_false_iff.mpr hblank, ne_quote_of_isWhiteSpace hc,
            isWordPart_eq_false_of_isWhiteSpace hc, ofChar?_eq_none_of_isWhiteSpace hc⟩
        rw [if_neg hblank]
        exact first_eq hshape trivial rfl
    rw [segments_cons, hfirst, ih hcs]
    rfl

/-- **In code** white space adds its own segments to a text. -/
theorem segments_append_whiteSpace {cs : List Char} (h : Mode.code.after cs = .code) :
    segments (cs ++ run) = segments cs ++ run.map Segment.ofWhiteSpace := by
  cases run with
  | nil => rw [List.append_nil, List.map_nil, List.append_nil]
  | cons c more =>
    have hc : ContinuesNothing c := continuesNothing_of_isWhiteSpace (hrun c List.mem_cons_self)
    rw [segments_append_of_code h hc, segments_whiteSpace hrun]

theorem stops_isDigit_whiteSpace : Stops Char.isDigit run := by
  cases run with
  | nil => exact stops_nil _
  | cons c more =>
    exact (continuesNothing_of_isWhiteSpace (hrun c List.mem_cons_self)).stops_isDigit more

theorem quote_not_mem_whiteSpace : '"' ∉ run := by
  intro hmem
  exact ne_quote_of_isWhiteSpace (hrun _ hmem) rfl

end Run

/-- **The items of white space** on one line. -/
theorem foundFrom_whiteSpace (line : Nat) {run : List Char} (hline : '\n' ∉ run) :
    (foundFrom line (run.map Segment.ofWhiteSpace)).filterMap Item.token? = [] ∧
      (foundFrom line (run.map Segment.ofWhiteSpace)).filterMap Item.diagnostic? =
        unskipped line run := by
  induction run with
  | nil => exact ⟨rfl, rfl⟩
  | cons c cs ih =>
    rw [List.mem_cons, not_or] at hline
    obtain ⟨htokens, hdiagnostics⟩ := ih hline.2
    have hsame : (Segment.ofWhiteSpace c).lineFeeds = 0 := by
      unfold lineFeeds
      rw [Segment.text_ofWhiteSpace, List.count_eq_zero]
      exact fun hmem => hline.1 (List.mem_singleton.mp hmem)
    rw [List.map_cons, foundFrom_cons, hsame, List.filterMap_append, List.filterMap_append,
      Nat.add_zero, htokens, hdiagnostics]
    -- Without line feeds the blanks are the characters that the language skips.
    have hskipped : isSkipped c = isBlank c := by
      have hfeed : (c == '\n') = false := beq_eq_false_iff_ne.mpr (Ne.symm hline.1)
      rw [isBlank, hfeed, Bool.or_false, Bool.or_right_comm, isSkipped]
    unfold Segment.ofWhiteSpace unskipped
    rw [List.filter_cons, hskipped]
    cases isBlank c with
    | true => exact ⟨rfl, rfl⟩
    | false => exact ⟨rfl, rfl⟩

/-! ### White space behind a source -/

section Behind

variable {run : List Char} (hrun : ∀ c ∈ run, isWhiteSpace c = true) (hline : '\n' ∉ run)

include hrun hline

/-- White space does not open or close anything. -/
theorem after_append_whiteSpace (cs : List Char) :
    Mode.code.after (cs ++ run) = Mode.code.after cs := by
  have hstops := stops_isDigit_whiteSpace hrun
  cases h : Mode.code.after cs with
  | code =>
    obtain rfl | ⟨init, c, rfl⟩ := List.eq_nil_or_concat' run
    · rw [List.append_nil, h]
    · -- The last character is the last segment.
      have hcut := segments_append_whiteSpace hrun h
      rw [List.map_append, List.map_singleton, ← List.append_assoc (segments cs)] at hcut
      rw [after_eq_of_last hcut]
      unfold Segment.ofWhiteSpace
      split <;> rfl
  | comment =>
    obtain ⟨init, body, -, hcut⟩ := exists_segments_append_of_comment hstops h hline
    rw [after_eq_of_last hcut]
    rfl
  | string =>
    obtain ⟨init, body, -, hcut⟩ :=
      exists_segments_append_of_string hstops h (quote_not_mem_whiteSpace hrun)
    rw [after_eq_of_last hcut]
    rfl

theorem endMode_append_whiteSpace (source : String) :
    endMode (source ++ String.ofList run) = endMode source := by
  unfold endMode
  rw [String.toList_append, String.toList_ofList, after_append_whiteSpace hrun hline]

/-- **The items of a text with white space behind it.** -/
theorem foundFrom_append_whiteSpace (cs : List Char) :
    (foundFrom 1 (segments (cs ++ run))).filterMap Item.token? =
        (foundFrom 1 (segments cs)).filterMap Item.token? ∧
      (foundFrom 1 (segments (cs ++ run))).filterMap Item.diagnostic? =
        (foundFrom 1 (segments cs)).filterMap Item.diagnostic? ++
          if Mode.code.after cs = .code then unskipped (lineAfter cs) run else [] := by
  have hstops := stops_isDigit_whiteSpace hrun
  cases h : Mode.code.after cs with
  | code =>
    obtain ⟨htokens, hdiagnostics⟩ := foundFrom_whiteSpace (lineAfter cs) hline
    have hfound : foundFrom 1 (segments (cs ++ run)) =
        foundFrom 1 (segments cs) ++ foundFrom (lineAfter cs) (run.map Segment.ofWhiteSpace) := by
      rw [segments_append_whiteSpace hrun h, foundFrom_append, flatMap_text_segments]
      rfl
    rw [hfound, List.filterMap_append, List.filterMap_append, htokens, hdiagnostics,
      List.append_nil, if_pos rfl]
    exact ⟨rfl, rfl⟩
  | comment =>
    obtain ⟨init, body, hcut, hcut'⟩ := exists_segments_append_of_comment hstops h hline
    rw [hcut', hcut, foundFrom_append_singleton, foundFrom_append_singleton,
      if_neg (by decide), List.append_nil]
    exact ⟨rfl, rfl⟩
  | string =>
    obtain ⟨init, body, hcut, hcut'⟩ :=
      exists_segments_append_of_string hstops h (quote_not_mem_whiteSpace hrun)
    -- The fault is on the last line, which is the same.
    have hfeeds : (openString (body ++ run)).lineFeeds = (openString body).lineFeeds := by
      change ('"' :: body ++ run).count '\n' = _
      rw [List.count_append, List.count_eq_zero_of_not_mem hline, Nat.add_zero]
      rfl
    rw [hcut', hcut, foundFrom_append_singleton, foundFrom_append_singleton,
      if_neg (by decide), List.append_nil]
    simp only [List.filterMap_append, item?, hfeeds]
    exact ⟨rfl, rfl⟩

/-- **White space behind a source** changes no token. It adds its faults in code, and none where it
becomes part of a comment or of an open string. -/
theorem scan_append_whiteSpace (source : String) :
    scan (source ++ String.ofList run) =
      ⟨(scan source).tokens,
        (scan source).diagnostics ++
          if endMode source = .code then unskipped (lineAfter source.toList) run else []⟩ := by
  obtain ⟨htokens, hdiagnostics⟩ := foundFrom_append_whiteSpace hrun hline source.toList
  have hlist : (source ++ String.ofList run).toList = source.toList ++ run := by
    rw [String.toList_append, String.toList_ofList]
  have hlast : lineAfter (source.toList ++ run) = lineAfter source.toList := by
    rw [lineAfter_append, List.count_eq_zero_of_not_mem hline, Nat.add_zero]
  rw [scan_eq_of_found rfl, scan_tokens_eq_append, scan_diagnostics_eq_found, hlist, hlast,
    htokens, hdiagnostics]
  rfl

end Behind

/-! ### Lines of a session -/

/-- A line without the white space at its end. -/
def trimmed (line : String) : String := String.ofList (trimEnd line.toList)

/-- The line feed that ends a line is trimmed off with the white space before it. -/
theorem trimmed_append_lineFeed (line : String) : trimmed (line ++ "\n") = trimmed line := by
  have hlist : (line ++ "\n").toList = line.toList ++ ['\n'] := String.toList_append
  unfold trimmed
  rw [hlist]
  exact congrArg String.ofList (List.rdropWhile_concat_pos _ _ _ (by decide))

section Line

variable {line : String} (hline : '\n' ∉ line.toList)

include hline

/-- **What trimming takes off a line.** -/
theorem exists_trailing :
    ∃ removed, line = trimmed line ++ String.ofList removed ∧
      (∀ c ∈ removed, isWhiteSpace c = true) ∧ '\n' ∉ removed ∧
      ∀ c ∈ (trimmed line).toList.getLast?, isWhiteSpace c = false := by
  refine ⟨trailing line.toList, ?_, ?_, ?_, ?_⟩
  · unfold trimmed
    rw [← String.ofList_append, trimEnd_append_trailing, String.ofList_toList]
  · intro c hc
    exact List.mem_rtakeWhile_imp hc
  · intro hmem
    apply hline
    rw [← trimEnd_append_trailing line.toList]
    exact List.mem_append_right _ hmem
  · unfold trimmed
    rw [String.toList_ofList]
    intro c hc
    obtain ⟨hne, rfl⟩ := List.mem_getLast?_eq_getLast hc
    exact Bool.eq_false_iff.mpr (List.rdropWhile_last_not _ _ hne)

theorem lineAfter_trimmed : lineAfter (trimmed line).toList = 1 := by
  obtain ⟨removed, hsource, -⟩ := exists_trailing hline
  have hfeeds : '\n' ∉ (trimmed line).toList := by
    intro hmem
    apply hline
    rw [hsource, String.toList_append]
    exact List.mem_append_left _ hmem
  unfold lineAfter
  rw [List.count_eq_zero_of_not_mem hfeeds]

end Line

/-- **A turn of a session** scans the trimmed line, whether or not a line feed ends it. -/
theorem replTurn_trimmed (t : Threshold) (format : Format) (reporter : Reporter) {line : String}
    (hexit : trimmed line ≠ "exit") {bytes : List UInt8}
    (hbytes : bytes = encode line ∨ bytes = encode (line ++ "\n")) :
    replTurn t format reporter bytes = .next (scanWrites t format (trimmed line)) .quiet := by
  have hturn : ∀ text, trimmed text = trimmed line →
      replTurn t format reporter (encode text) =
        .next (scanWrites t format (trimmed line)) .quiet := by
    intro text htext
    rw [← htext] at hexit ⊢
    unfold replTurn
    rw [decode_encode]
    exact if_neg hexit
  obtain rfl | rfl := hbytes
  · exact hturn line rfl
  · exact hturn _ (trimmed_append_lineFeed line)

/-- **What trimming a line can change.** Of a line without a line feed the longest white space at
its end is taken off. The tokens are the same without it. Of the diagnostics there are missing, at
the end, those about the characters taken off that the language does not skip, if the line ends in
code, and none if it ends in a comment or inside a string. So a session prints for a line the tokens
of the line as it stands, and says of its faults all but these. -/
theorem scan_trimmed {line : String} (hline : '\n' ∉ line.toList) :
    ∃ removed omitted,
      line = trimmed line ++ String.ofList removed ∧
      (∀ c ∈ removed, isWhiteSpace c = true) ∧
      (∀ c ∈ (trimmed line).toList.getLast?, isWhiteSpace c = false) ∧
      omitted = (if endMode line = .code then unskipped 1 removed else []) ∧
      (scan (trimmed line)).tokens = (scan line).tokens ∧
      (scan line).diagnostics = (scan (trimmed line)).diagnostics ++ omitted ∧
      ∀ (t : Threshold) (reporter : Reporter) (bytes : List UInt8), trimmed line ≠ "exit" →
        bytes = encode line ∨ bytes = encode (line ++ "\n") →
        ∃ writes,
          replTurn t .tokens reporter bytes = .next writes .quiet ∧
          (Run.mk writes 0).outputs = (Run.mk (scanWrites t .tokens line) 0).outputs ∧
          (Run.mk (scanWrites t .tokens line) 0).errors =
            (Run.mk writes 0).errors ++ omitted.map fun d => d.display ++ "\n" := by
  obtain ⟨removed, hsource, hremoved, hfeeds, hlast⟩ := exists_trailing hline
  have hscan := scan_append_whiteSpace hremoved hfeeds (trimmed line)
  have hmode := endMode_append_whiteSpace hremoved hfeeds (trimmed line)
  rw [← hsource, lineAfter_trimmed hline] at hscan
  rw [← hsource] at hmode
  rw [← hmode] at hscan
  have htokens := congrArg Scanned.tokens hscan
  have hdiagnostics := congrArg Scanned.diagnostics hscan
  refine ⟨removed, _, hsource, hremoved, hlast, rfl, htokens.symm, hdiagnostics, ?_⟩
  intro t reporter bytes hexit hbytes
  refine ⟨_, replTurn_trimmed t .tokens reporter hexit hbytes, ?_, ?_⟩
  · unfold Run.outputs
    rw [filterMap_output?_scanWrites, filterMap_output?_scanWrites]
    exact congrArg (List.map _) htokens.symm
  · unfold Run.errors
    rw [filterMap_error?_scanWrites, filterMap_error?_scanWrites, hdiagnostics, List.map_append]

/-- A vertical tab and a no-break space behind a string, with blanks that are skipped. -/
theorem scan_trimmed_tab :
    '\n' ∉ "\"s\" \x0b\t\u00a0".toList ∧ trimmed "\"s\" \x0b\t\u00a0" ≠ "exit" ∧
      (scan (trimmed "\"s\" \x0b\t\u00a0")).tokens = (scan "\"s\" \x0b\t\u00a0").tokens ∧
      (scan (trimmed "\"s\" \x0b\t\u00a0")).diagnostics = [] ∧
      (scan "\"s\" \x0b\t\u00a0").diagnostics =
        [⟨1, .unexpectedCharacter '\x0b'⟩, ⟨1, .unexpectedCharacter '\u00a0'⟩] ∧
      ∃ writes,
        replTurn .silent .tokens .quiet (encode ("\"s\" \x0b\t\u00a0" ++ "\n")) =
          .next writes .quiet ∧
        (Run.mk writes 0).outputs =
          (Run.mk (scanWrites .silent .tokens "\"s\" \x0b\t\u00a0") 0).outputs := by
  have hline : '\n' ∉ "\"s\" \x0b\t\u00a0".toList := by decide
  have hexit : trimmed "\"s\" \x0b\t\u00a0" ≠ "exit" := by decide
  obtain ⟨removed, omitted, -, -, -, -, htokens, -, hturn⟩ := scan_trimmed hline
  obtain ⟨writes, hnext, houtputs, -⟩ := hturn .silent .quiet _ hexit (Or.inr rfl)
  exact ⟨hline, hexit, htokens, by decide +kernel, by decide +kernel, writes, hnext, houtputs⟩

end LoxFront

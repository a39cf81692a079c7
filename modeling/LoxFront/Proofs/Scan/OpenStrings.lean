import LoxFront.Proofs.Scan.LineEnds
import LoxFront.Proofs.Segment.Modes

/-!
# Strings that are never closed

Whether a scan ends inside a string is settled by a pass over the characters that knows nothing of
tokens, and so is what one more quote does to the scan.

* `endMode` — the mode in which a source ends;
* `endsOpen_iff` — a scan ends inside a string if and only if the source ends in the mode of
  strings;
* `segments_quote_of_code`, `exists_segments_quote_of_string` — what a quote at the end does to the
  segments outside comments: it opens a string, or closes the string that is open.

The main statement, `scan_append_quote`, has the three cases side by side.
-/

namespace LoxFront

open Text Segment

/-- **The mode in which a source ends.** -/
def endMode (source : String) : Mode := Mode.code.after source.toList

/-! ### The segment with the fault -/

/-- Only an open string reports that a string is not closed. -/
theorem exists_openString_of_mem_foundFrom {line : Nat} {segs : List Segment} {d : Diagnostic}
    (hd : d ∈ (foundFrom line segs).filterMap Item.diagnostic?)
    (hfault : d.fault = .unterminatedString) : ∃ body, openString body ∈ segs := by
  obtain ⟨item, hitem, hpick⟩ := List.mem_filterMap.mp hd
  obtain ⟨s, hs, line', hyields⟩ := exists_of_mem_foundFrom hitem
  obtain ⟨-, t, rfl, -⟩ | ⟨c, -, rfl⟩ | ⟨body, rfl, -⟩ := item?_cases hyields
  · cases hpick
  · obtain rfl := Option.some.inj hpick
    cases hfault
  · exact ⟨body, hs⟩

/-- **A text ends in a string** if and only if one of its segments is open, which then is the
last. -/
theorem exists_openString_mem_iff (cs : List Char) :
    (∃ body, openString body ∈ segments cs) ↔ Mode.code.after cs = .string := by
  constructor
  · rintro ⟨body, hmem⟩
    obtain rfl | ⟨init, last, hcut⟩ := eq_nil_or_segments_eq_concat cs
    · rw [segments_nil] at hmem
      exact absurd hmem List.not_mem_nil
    · obtain ⟨-, hinit, hlast⟩ := separated_last hcut
      rw [hcut, List.mem_append, List.mem_singleton] at hmem
      rw [after_eq_of_last hcut]
      -- An open string does not stand before another segment, so it is the last one.
      obtain hmem | rfl := hmem
      · exact absurd rfl (hinit.ne_openString hlast.text_ne_nil _ hmem body)
      · rfl
  · intro h
    obtain ⟨init, last, hcut, hmode⟩ := exists_last_of_after_eq h (by decide)
    obtain ⟨body, rfl⟩ := exists_eq_openString hmode
    refine ⟨body, ?_⟩
    rw [hcut]
    exact List.mem_append_right _ List.mem_cons_self

/-- **A scan ends inside a string** if and only if the source does. -/
theorem endsOpen_iff (source : String) : (scan source).EndsOpen ↔ endMode source = .string := by
  rw [endMode, ← exists_openString_mem_iff]
  constructor
  · rintro ⟨d, hd, hfault⟩
    rw [scan_diagnostics_eq_found] at hd
    exact exists_openString_of_mem_foundFrom hd hfault
  · rintro ⟨body, hmem⟩
    by_contra hopen
    exact ne_openString_of_not_endsOpen hopen hmem body rfl

/-! ### A quote behind the segments -/

theorem stops_isDigit_quote : Stops Char.isDigit ['"'] := (stops_cons _ _ _).mpr rfl

/-- **In code** a quote opens a string. -/
theorem segments_quote_of_code {cs : List Char} (h : Mode.code.after cs = .code) :
    segments (cs ++ ['"']) = segments cs ++ [openString []] := by
  have hshape : (openString []).WellFormed := List.not_mem_nil
  have hquote : ContinuesNothing '"' := ⟨by decide, by decide, by decide, by decide⟩
  rw [segments_append_of_code h hquote]
  exact congrArg _ (segments_text hshape)

/-- **In a string** a quote closes the string. -/
theorem exists_segments_quote_of_string {cs : List Char} (h : Mode.code.after cs = .string) :
    ∃ init body, segments cs = init ++ [openString body] ∧
      segments (cs ++ ['"']) = init ++ [string body] := by
  obtain ⟨init, last, hcut, hmode⟩ := exists_last_of_after_eq h (by decide)
  obtain ⟨body, rfl⟩ := exists_eq_openString hmode
  obtain ⟨-, -, hbody⟩ := separated_last hcut
  have hshape : (string body).WellFormed := hbody
  refine ⟨init, body, hcut, ?_⟩
  rw [segments_append_last hcut stops_isDigit_quote]
  exact congrArg _ (segments_text hshape)

/-- The text before an open string ends in code. -/
theorem after_eq_code_of_openString {init : List Segment} {rest : List Char}
    (h : Separated ('"' :: rest) init) : Mode.code.after (init.flatMap Segment.text) = .code := by
  obtain rfl | ⟨init, last, rfl⟩ := List.eq_nil_or_concat' init
  · rfl
  · rw [after_eq_of_last h.segments_flatMap_text]
    obtain ⟨-, -, hends, -⟩ := separated_append.mp h
    -- The quote would be part of a comment before it, and it would close an open string.
    cases last with
    | comment text => exact absurd (eq_lineFeed_of_endsBefore_comment hends) (by decide)
    | openString text => cases hends
    | _ => rfl

/-! ### A quote behind a source -/

theorem toList_append_quote (source : String) :
    (source ++ "\"").toList = source.toList ++ ['"'] := String.toList_append

/-- A quote ends no line. -/
theorem lineAfter_append_quote (source : String) :
    lineAfter (source ++ "\"").toList = lineAfter source.toList := by
  rw [toList_append_quote, lineAfter_append]
  rfl

section Quote

variable {source : String}

/-- **In code** a quote is one more fault. -/
theorem scan_append_quote_of_code (h : endMode source = .code) :
    scan (source ++ "\"") =
      ⟨(scan source).tokens,
        (scan source).diagnostics ++ [⟨lineAfter source.toList, .unterminatedString⟩]⟩ := by
  have hfound : foundFrom 1 (segments (source ++ "\"").toList) =
      foundFrom 1 (segments source.toList) ++
        [.fault ⟨lineAfter source.toList, .unterminatedString⟩ "\""] := by
    rw [toList_append_quote, segments_quote_of_code h, foundFrom_append_singleton,
      flatMap_text_segments]
    rfl
  rw [scan_eq_of_found hfound, lineAfter_append_quote, scan_tokens_eq_append,
    scan_diagnostics_eq_found, List.filterMap_append, List.filterMap_append]
  congr 1
  exact congrArg (· ++ _) (List.append_nil _)

/-- **In a comment** a quote is nothing. -/
theorem scan_append_quote_of_comment (h : endMode source = .comment) :
    scan (source ++ "\"") = scan source := by
  obtain ⟨init, body, hcut, hquote⟩ :=
    exists_segments_append_of_comment stops_isDigit_quote h (by decide)
  have hfound : foundFrom 1 (segments (source ++ "\"").toList) =
      foundFrom 1 (segments source.toList) := by
    rw [toList_append_quote, hquote, hcut, foundFrom_append_singleton, foundFrom_append_singleton]
    rfl
  rw [scan_eq_of_found hfound, lineAfter_append_quote, ← scan_eq_of_found rfl]

/-- **In a string** there is one fault about it, which a quote turns into the token of the
string. -/
theorem exists_found_of_string (h : endMode source = .string) :
    ∃ before body found,
      source = before ++ "\"" ++ body ∧ endMode before = .code ∧ '"' ∉ body.toList ∧
      .unterminatedString ∉ (found.filterMap Item.diagnostic?).map Diagnostic.fault ∧
      foundFrom 1 (segments source.toList) =
        found ++ [.fault ⟨lineAfter source.toList, .unterminatedString⟩ ("\"" ++ body)] ∧
      foundFrom 1 (segments (source ++ "\"").toList) =
        found ++ [.token (.string ("\"" ++ body ++ "\"") body (lineAfter before.toList))] := by
  obtain ⟨init, body, hcut, hquote⟩ := exists_segments_quote_of_string h
  obtain ⟨htext, hinit, hbody⟩ := separated_last hcut
  have hopen : "\"" ++ String.ofList body = (openString body).lexeme := by
    rw [lexeme, Segment.text, String.ofList_cons]
    rfl
  have hstring : "\"" ++ String.ofList body ++ "\"" = (string body).lexeme := by
    rw [lexeme, Segment.text, String.ofList_append, String.ofList_cons]
    rfl
  refine ⟨String.ofList (init.flatMap Segment.text), String.ofList body, foundFrom 1 init,
    ?_, ?_, ?_, ?_, ?_, ?_⟩
  · calc source
        = String.ofList (init.flatMap Segment.text ++ (openString body).text) := by
          rw [← htext, String.ofList_toList]
      _ = String.ofList (init.flatMap Segment.text) ++ ("\"" ++ String.ofList body) := by
          rw [String.ofList_append, hopen, lexeme]
      _ = String.ofList (init.flatMap Segment.text) ++ "\"" ++ String.ofList body :=
          String.append_assoc.symm
  · rw [endMode, String.toList_ofList]
    exact after_eq_code_of_openString hinit
  · rw [String.toList_ofList]
    exact hbody
  · -- No segment before the open string is open.
    intro hmem
    obtain ⟨d, hd, hfault⟩ := List.mem_map.mp hmem
    obtain ⟨body', hmem'⟩ := exists_openString_of_mem_foundFrom hd hfault
    exact hinit.ne_openString hbody.text_ne_nil _ hmem' body' rfl
  · rw [hcut, foundFrom_append_singleton, hopen, htext, lineAfter_append]
    rfl
  · rw [toList_append_quote, hquote, foundFrom_append_singleton, hstring, String.toList_ofList]
    rfl

end Quote

/-- **Strings that are never closed.** A scan ends inside a string if and only if the source does,
by the pass over its characters. One more quote is then the end of that string: the fault, which is
the last one and the item before the mark of the end, gives way to the token. In code the quote is
a fault of its own, and in a comment it is nothing. -/
theorem scan_append_quote (source : String) :
    ((scan source).EndsOpen ↔ endMode source = .string) ∧
      ∃ tokens line, (scan source).tokens = tokens ++ [.eof line] ∧
        match endMode source with
        | .code =>
          scan (source ++ "\"") =
            ⟨(scan source).tokens, (scan source).diagnostics ++ [⟨line, .unterminatedString⟩]⟩
        | .comment => scan (source ++ "\"") = scan source
        | .string =>
          ∃ before body found faults,
            source = before ++ "\"" ++ body ∧ endMode before = .code ∧ '"' ∉ body.toList ∧
            items source =
              found ++ [.fault ⟨line, .unterminatedString⟩ ("\"" ++ body), .token (.eof line)] ∧
            (scan source).diagnostics = faults ++ [⟨line, .unterminatedString⟩] ∧
            .unterminatedString ∉ faults.map Diagnostic.fault ∧
            scan (source ++ "\"") =
              ⟨tokens ++ [.string ("\"" ++ body ++ "\"") body (lineAfter before.toList), .eof line],
                faults⟩ := by
  refine ⟨endsOpen_iff source, (scan source).tokens.dropLast, lineAfter source.toList, ?_, ?_⟩
  · rw [scan_tokens_dropLast, scan_tokens_eq_append]
  · cases h : endMode source with
    | code => exact scan_append_quote_of_code h
    | comment => exact scan_append_quote_of_comment h
    | string =>
      obtain ⟨before, body, found, hsource, hbefore, hbody, hfaults, hfound, hquote⟩ :=
        exists_found_of_string h
      refine ⟨before, body, found, found.filterMap Item.diagnostic?, hsource, hbefore, hbody,
        ?_, ?_, hfaults, ?_⟩
      · rw [items_eq_append, hfound, List.append_assoc]
        rfl
      · rw [scan_diagnostics_eq_found, hfound, List.filterMap_append]
        rfl
      · have htokens : (scan source).tokens.dropLast = found.filterMap Item.token? := by
          rw [scan_tokens_dropLast, hfound, List.filterMap_append]
          exact List.append_nil _
        rw [scan_eq_of_found hquote, lineAfter_append_quote, htokens, List.filterMap_append,
          List.filterMap_append, List.append_assoc]
        exact congrArg (Scanned.mk _) (List.append_nil _)

/-- Slashes in a string, a quote in a comment, and a string that begins on the line after that. -/
example : endMode "\"//\" // \"\n\"a\nb" = .string ∧
    (scan "\"//\" // \"\n\"a\nb").diagnostics = [⟨3, .unterminatedString⟩] ∧
    (scan "\"//\" // \"\n\"a\nb\"").tokens[1]? = some (.string "\"a\nb\"" "a\nb" 2) := by
  decide +kernel

end LoxFront

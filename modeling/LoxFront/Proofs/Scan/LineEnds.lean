import LoxFront.Proofs.Item.Parts
import LoxFront.Proofs.Segment.Boundary

/-!
# Scanning at line ends

A line feed ends every segment except a string. So a scan may be taken apart at any line feed
that is not inside a string, and what lies behind it is scanned as a source of its own, only
further down.

* `Scanned.EndsOpen` — a scan that ends inside a string;
* `segments_append_lineFeed` — the segments on both sides of a line end;
* `foundFrom_lines` — the items of a text, line by line.

The main statement, `scan_append_lineFeed`, has both forms: for one line end between any two
texts, and for all line ends of a text at once.
-/

namespace LoxFront

open Text

/-- **A scan that ends inside a string** and says so. -/
def Scanned.EndsOpen (s : Scanned) : Prop := ∃ d ∈ s.diagnostics, d.fault = .unterminatedString

instance : DecidablePred Scanned.EndsOpen := fun s =>
  inferInstanceAs (Decidable (∃ d ∈ s.diagnostics, d.fault = .unterminatedString))

/-- The lines of a source, without the line feeds between them. -/
def Text.lines (source : String) : List String := (source.toList.splitOn '\n').map String.ofList

/-! ### No segment reaches over a line end -/

/-- Each segment of a list yields its item somewhere in the list's. -/
theorem exists_item?_mem_foundFrom {s : Segment} {segs : List Segment} (hs : s ∈ segs)
    (line : Nat) : ∃ line', ∀ item ∈ s.item? line', item ∈ foundFrom line segs := by
  induction segs generalizing line with
  | nil => exact absurd hs List.not_mem_nil
  | cons t segs ih =>
    rw [foundFrom_cons]
    rcases List.mem_cons.mp hs with rfl | hs
    · refine ⟨line, fun item hitem => List.mem_append_left _ ?_⟩
      exact Option.mem_toList.mpr hitem
    · obtain ⟨line', h⟩ := ih hs (line + t.lineFeeds)
      exact ⟨line', fun item hitem => List.mem_append_right _ (h item hitem)⟩

/-- A scan that does not end inside a string has no open string among its segments. -/
theorem ne_openString_of_not_endsOpen {source : String} (h : ¬ (scan source).EndsOpen)
    {s : Segment} (hs : s ∈ segments source.toList) (body : List Char) :
    s ≠ .openString body := by
  rintro rfl
  obtain ⟨line, hitem⟩ := exists_item?_mem_foundFrom hs 1
  have hmem := List.mem_filterMap.mpr ⟨_, hitem _ rfl, Item.diagnostic?_fault _ _⟩
  rw [← scan_diagnostics_eq_found] at hmem
  exact h ⟨_, hmem, rfl⟩

/-- **A line end between two texts** is a segment of its own. -/
theorem segments_append_lineFeed {a : List Char}
    (ha : ∀ s ∈ segments a, ∀ body, s ≠ .openString body) (b : List Char) :
    segments (a ++ '\n' :: b) = segments a ++ .blank '\n' :: segments b := by
  have hsep : Separated ('\n' :: b) (segments a) :=
    (separated_segments a).append_tail (fun s hs => Segment.endsBefore_lineFeed (ha s hs) b)
      ((stops_cons _ _ _).mpr rfl)
  have hcut := segments_append_of_separated hsep
  rw [flatMap_text_segments] at hcut
  rw [hcut, segments_cons, Segment.first_of_isBlank rfl]

theorem foundFrom_append_lineFeed {a : List Char}
    (ha : ∀ s ∈ segments a, ∀ body, s ≠ .openString body) (line : Nat) (b : List Char) :
    foundFrom line (segments (a ++ '\n' :: b)) =
      foundFrom line (segments a) ++ foundFrom (line + (1 + a.count '\n')) (segments b) := by
  rw [segments_append_lineFeed ha, foundFrom_append, flatMap_text_segments, Nat.add_comm 1,
    ← Nat.add_assoc]
  rfl

/-! ### Line by line -/

/-- The items of a text from line `k + 1` on are those of its lines, each on its own line. -/
theorem foundFrom_lines (cs : List Char) (k : Nat)
    (h : ∀ l ∈ cs.splitOn '\n', ∀ s ∈ segments l, ∀ body, s ≠ .openString body) :
    foundFrom (1 + k) (segments cs) =
      ((cs.splitOn '\n').zipIdx k).flatMap fun p => foundFrom (1 + p.2) (segments p.1) := by
  induction hn : cs.length using Nat.strong_induction_on generalizing cs k with
  | _ n ih =>
    by_cases hmem : '\n' ∈ cs
    · -- The first line `l` is taken off, and the lines of `rest` begin one line further down.
      obtain ⟨l, rest, rfl, hl⟩ := List.eq_append_cons_of_mem hmem
      rw [List.splitOn_append_cons_self_of_not_mem hl] at h ⊢
      have hlen : rest.length < n := by
        rw [← hn, List.length_append, List.length_cons]
        omega
      rw [foundFrom_append_lineFeed (h l List.mem_cons_self), List.count_eq_zero_of_not_mem hl,
        List.zipIdx_cons, List.flatMap_cons, Nat.add_zero, Nat.add_assoc,
        ih _ hlen rest (k + 1) (fun m hm => h m (List.mem_cons_of_mem l hm)) rfl]
    · rw [List.splitOn_eq_singleton hmem, List.zipIdx_singleton, List.flatMap_singleton]

/-- The line reached at the end of a text is the number of its lines. -/
theorem lineAfter_eq_length_splitOn (cs : List Char) :
    lineAfter cs = (cs.splitOn '\n').length := by
  induction cs with
  | nil => rfl
  | cons c cs ih =>
    unfold lineAfter at ih ⊢
    rw [List.splitOn_cons_eq_if_modifyHead, List.count_cons]
    -- A line feed begins a line, and any other character belongs to the first.
    by_cases hc : (c == '\n') = true
    · rw [if_pos hc, if_pos hc, List.length_cons, ← ih]
      omega
    · rw [if_neg hc, if_neg hc, List.length_modifyHead, ← ih]
      rfl

/-- What the scan of a line of its own finds, moved to its place among the other lines. -/
theorem filterMap_foundFrom_line {α : Type} (pick : Item → Option α) (cs : List Char)
    (h : ∀ l ∈ cs.splitOn '\n', ∀ s ∈ segments l, ∀ body, s ≠ .openString body) :
    (foundFrom 1 (segments cs)).filterMap pick =
      ((cs.splitOn '\n').map String.ofList).zipIdx.flatMap fun p =>
        ((foundFrom 1 (segments p.1.toList)).map (Item.moved p.2)).filterMap pick := by
  have hfound := foundFrom_lines cs 0 h
  rw [Nat.add_zero] at hfound
  rw [hfound, List.filterMap_flatMap, List.zipIdx_map, List.flatMap_map]
  refine List.flatMap_congr fun p _ => ?_
  -- Alone, the line is line 1.
  rw [foundFrom_add]
  simp only [Prod.map_fst, Prod.map_snd, id_eq, String.toList_ofList]

/-! ### The law of line ends -/

section LineEnd

variable {a : String} (ha : ¬ (scan a).EndsOpen) (b : String)

include ha

theorem foundFrom_lineFeed :
    foundFrom 1 (segments (a ++ "\n" ++ b).toList) =
      foundFrom 1 (segments a.toList) ++
        (foundFrom 1 (segments b.toList)).map (Item.moved (1 + a.toList.count '\n')) := by
  have hlist : (a ++ "\n" ++ b).toList = a.toList ++ '\n' :: b.toList := by
    rw [String.toList_append, String.toList_append, List.append_assoc]
    rfl
  rw [hlist, foundFrom_append_lineFeed (fun s hs => ne_openString_of_not_endsOpen ha hs),
    foundFrom_add]

theorem tokens_lineFeed :
    (scan (a ++ "\n" ++ b)).tokens =
      (scan a).tokens.dropLast ++
        (scan b).tokens.map (Token.moved (1 + a.toList.count '\n')) := by
  -- The mark of the end moves with the tokens of `b`.
  have heof : Token.eof (lineAfter (a ++ "\n" ++ b).toList) =
      (Token.eof (lineAfter b.toList)).moved (1 + a.toList.count '\n') := by
    have hline : lineAfter (a ++ "\n" ++ b).toList =
        lineAfter b.toList + (1 + a.toList.count '\n') := by
      rw [String.toList_append, String.toList_append, lineAfter_append, lineAfter_append]
      change 1 + a.toList.count '\n' + 1 + b.toList.count '\n' = 1 + b.toList.count '\n' + _
      omega
    rw [hline]
    rfl
  rw [scan_tokens_eq_append, foundFrom_lineFeed ha, List.filterMap_append, filterMap_token?_moved,
    scan_tokens_dropLast, scan_tokens_eq_append b, List.map_append, heof, List.append_assoc]
  rfl

theorem diagnostics_lineFeed :
    (scan (a ++ "\n" ++ b)).diagnostics =
      (scan a).diagnostics ++
        (scan b).diagnostics.map (Diagnostic.moved (1 + a.toList.count '\n')) := by
  rw [scan_diagnostics_eq_found, foundFrom_lineFeed ha, List.filterMap_append,
    filterMap_diagnostic?_moved, scan_diagnostics_eq_found, scan_diagnostics_eq_found]

end LineEnd

section Lines

variable {source : String} (h : ∀ line ∈ lines source, ¬ (scan line).EndsOpen)

include h

theorem ne_openString_of_lines :
    ∀ l ∈ source.toList.splitOn '\n', ∀ s ∈ segments l, ∀ body, s ≠ .openString body := by
  intro l hl s hs
  have hline := h (String.ofList l) (List.mem_map_of_mem hl)
  exact ne_openString_of_not_endsOpen hline (by rwa [String.toList_ofList])

theorem tokens_lines :
    (scan source).tokens =
      ((lines source).zipIdx.flatMap fun p =>
        (scan p.1).tokens.dropLast.map (Token.moved p.2)) ++ [.eof (lines source).length] := by
  have hlength : (lines source).length = lineAfter source.toList := by
    rw [lines, List.length_map, lineAfter_eq_length_splitOn]
  rw [scan_tokens_eq_append, hlength, filterMap_foundFrom_line _ _ (ne_openString_of_lines h)]
  congr 1
  refine List.flatMap_congr fun p _ => ?_
  rw [filterMap_token?_moved, scan_tokens_dropLast]

theorem diagnostics_lines :
    (scan source).diagnostics =
      (lines source).zipIdx.flatMap fun p =>
        (scan p.1).diagnostics.map (Diagnostic.moved p.2) := by
  rw [scan_diagnostics_eq_found, filterMap_foundFrom_line _ _ (ne_openString_of_lines h)]
  refine List.flatMap_congr fun p _ => ?_
  rw [filterMap_diagnostic?_moved, scan_diagnostics_eq_found]

end Lines

/-- **Scanning is compatible with line ends.** If the scan of `a` does not end inside a string,
then the scan of `a` and `b` with a line feed between them is the scan of `a`, without the mark
of the end, and the scan of `b`, that many lines further down. Hence a text none of whose lines
ends inside a string can be scanned line by line. -/
theorem scan_append_lineFeed :
    (∀ a b : String, ¬ (scan a).EndsOpen →
      (scan a).tokens.getLast? = some (.eof (1 + a.toList.count '\n')) ∧
        (scan (a ++ "\n" ++ b)).tokens =
          (scan a).tokens.dropLast ++ (scan b).tokens.map (Token.moved (1 + a.toList.count '\n')) ∧
        (scan (a ++ "\n" ++ b)).diagnostics =
          (scan a).diagnostics ++
            (scan b).diagnostics.map (Diagnostic.moved (1 + a.toList.count '\n'))) ∧
    ∀ source : String, (∀ line ∈ lines source, ¬ (scan line).EndsOpen) →
      (scan source).tokens =
          ((lines source).zipIdx.flatMap fun p =>
            (scan p.1).tokens.dropLast.map (Token.moved p.2)) ++ [.eof (lines source).length] ∧
        (scan source).diagnostics =
          (lines source).zipIdx.flatMap fun p =>
            (scan p.1).diagnostics.map (Diagnostic.moved p.2) := by
  refine ⟨fun a b ha => ⟨?_, tokens_lineFeed ha b, diagnostics_lineFeed ha b⟩,
    fun source h => ⟨tokens_lines h, diagnostics_lines h⟩⟩
  rw [scan_tokens_eq_append, List.getLast?_concat]
  rfl

/-- A string over two lines, a number with a point behind it and a comment; and a text with a
quote in a comment. -/
theorem scan_append_lineFeed_quotes :
    (¬ (scan "\"p\nq\" 1. // x").EndsOpen ∧
      (scan "\"p\nq\" 1. // x\n\"r").tokens =
          (scan "\"p\nq\" 1. // x").tokens.dropLast ++ (scan "\"r").tokens.map (Token.moved 2) ∧
        (scan "\"p\nq\" 1. // x\n\"r").diagnostics =
          (scan "\"p\nq\" 1. // x").diagnostics ++
            (scan "\"r").diagnostics.map (Diagnostic.moved 2)) ∧
    (∀ line ∈ lines "1.\n2 // \"\n@", ¬ (scan line).EndsOpen) ∧
      (scan "1.\n2 // \"\n@").tokens =
          ((lines "1.\n2 // \"\n@").zipIdx.flatMap fun p =>
            (scan p.1).tokens.dropLast.map (Token.moved p.2)) ++ [.eof 3] ∧
        (scan "1.\n2 // \"\n@").diagnostics =
          (lines "1.\n2 // \"\n@").zipIdx.flatMap fun p =>
            (scan p.1).diagnostics.map (Diagnostic.moved p.2) := by
  have hopen : ¬ (scan "\"p\nq\" 1. // x").EndsOpen := by decide +kernel
  have hlines : ∀ line ∈ lines "1.\n2 // \"\n@", ¬ (scan line).EndsOpen := by decide +kernel
  obtain ⟨-, htokens, hdiagnostics⟩ :=
    scan_append_lineFeed.1 "\"p\nq\" 1. // x" "\"r" hopen
  exact ⟨⟨hopen, htokens, hdiagnostics⟩, hlines, scan_append_lineFeed.2 _ hlines⟩

end LoxFront

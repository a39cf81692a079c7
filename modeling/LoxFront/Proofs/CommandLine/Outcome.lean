import LoxFront.Proofs.CommandLine.Session
import LoxFront.Proofs.CommandLine.Verbosity
import LoxFront.Proofs.Item.Parts
import LoxFront.Proofs.Report.Desk

/-!
# The outcome of a scan

The scan of a file has four signs of what was found in it: the exit code, which comes from the
reporter; the text on standard error; the result on standard output; and the counts of the summary.
They agree.

* `lineFeed_not_mem_display` — a diagnostic of a scan stands on one line, so that the lines on
  standard error count the diagnostics (`count_lineFeed_stderr`);
* `decode_eq_ok_iff` — the bytes that are read as a text are those that encode it.

The main statement is `outcome_scan`, with a part for each of the three things that a path can lead
to: a text, bytes that are no text, and nothing that can be read.
-/

namespace LoxFront

/-! ### Diagnostics and lines -/

/-- The faults of a scan are of two kinds. -/
theorem fault_of_mem_scan {source : String} {d : Diagnostic} (h : d ∈ (scan source).diagnostics) :
    (∃ c, d.fault = .unexpectedCharacter c) ∨ d.fault = .unterminatedString := by
  rw [scan_diagnostics_eq_found] at h
  obtain ⟨item, hitem, hd⟩ := List.mem_filterMap.mp h
  obtain ⟨s, -, line, hyields⟩ := exists_of_mem_foundFrom hitem
  -- The item of a segment is a token, a stray character or an open string.
  obtain ⟨-, t, rfl, -⟩ | ⟨c, -, rfl⟩ | ⟨body, -, rfl⟩ := Segment.item?_cases hyields
  · cases hd
  · obtain rfl := Option.some.inj hd
    exact Or.inl ⟨c, rfl⟩
  · obtain rfl := Option.some.inj hd
    exact Or.inr rfl

theorem lineFeed_not_mem_toString (n : Nat) : '\n' ∉ (toString n).toList := by
  rw [Nat.toString_eq_repr, Nat.repr_eq_ofList_toDigits, String.toList_ofList]
  intro hmem
  -- A number is written in digits, and a line feed is none.
  have hdigit := Nat.isDigit_of_mem_toDigits (by decide) (by decide) hmem
  exact absurd hdigit (by decide)

/-- **A diagnostic of a scan** is shown on one line. -/
theorem lineFeed_not_mem_display {source : String} {d : Diagnostic}
    (h : d ∈ (scan source).diagnostics) : '\n' ∉ d.display.toList := by
  have hmessage : '\n' ∉ d.message.toList := by
    unfold Diagnostic.message
    obtain ⟨c, hfault⟩ | hfault := fault_of_mem_scan h
    · rw [hfault]
      show '\n' ∉ "Unexpected character.".toList
      decide
    · rw [hfault]
      decide
  unfold Diagnostic.display
  simp only [String.toList_append, List.mem_append, not_or]
  exact ⟨⟨⟨by decide, lineFeed_not_mem_toString d.line⟩, by decide⟩, hmessage⟩

/-- Texts without line feeds, each on a line of its own, are as many as the lines. -/
theorem count_lineFeed_join {texts : List String} (h : ∀ text ∈ texts, '\n' ∉ text.toList) :
    (String.join (texts.map fun text => text ++ "\n")).toList.count '\n' = texts.length := by
  induction texts with
  | nil => rfl
  | cons text texts ih =>
    obtain ⟨htext, htexts⟩ := List.forall_mem_cons.mp h
    -- The first text has no line feed of its own, and brings the one behind it.
    rw [List.map_cons, String.join_cons, String.toList_append, String.toList_append,
      List.count_append, List.count_append, ih htexts, List.count_eq_zero_of_not_mem htext,
      List.length_cons]
    exact Nat.add_comm _ _

/-! ### Bytes -/

theorem decode_eq_ok_iff {bytes : List UInt8} {source : String} :
    decode bytes = .ok source ↔ bytes = encode source := by
  constructor
  · intro h
    unfold decode String.fromUTF8? at h
    by_cases hvalid : bytes.toByteArray.IsValidUTF8
    · rw [dif_pos hvalid] at h
      obtain rfl := Except.ok.inj h
      show bytes = bytes.toByteArray.data.toList
      rw [List.data_toByteArray]
    · rw [dif_neg hvalid] at h
      cases h
  · rintro rfl
    exact decode_encode source

/-- Bytes that encode no text are refused. -/
theorem decode_eq_error {bytes : List UInt8} (h : ∀ source, bytes ≠ encode source) :
    decode bytes = .error .notUtf8 := by
  cases hdecode : decode bytes with
  | ok source => exact absurd (decode_eq_ok_iff.mp hdecode) (h source)
  | error e =>
    unfold decode at hdecode
    split at hdecode
    · cases hdecode
    · exact hdecode.symm

/-! ### The run -/

section Scan

variable {path : String} {read : String → Except ReadError (List UInt8)} (stdin : List UInt8)
  (format : Format)

/-- What cannot be read as a text: the run says why, and that is all. -/
theorem run_scan_of_error {e : ReadError} (h : read path >>= decode = .error e) :
    run ⟨0, .scan path format⟩ read stdin = ⟨[.err (e.message ++ "\n")], 1⟩ := by
  show scanFile .silent format path (read path) = _
  unfold scanFile
  rw [h]
  rfl

theorem outcome_of_error {e : ReadError} (h : read path >>= decode = .error e) :
    (run ⟨0, .scan path format⟩ read stdin).stdout = "" ∧
      (run ⟨0, .scan path format⟩ read stdin).stderr = e.message ++ "\n" ∧
      (run ⟨0, .scan path format⟩ read stdin).code = 1 := by
  rw [run_scan_of_error stdin format h]
  exact ⟨rfl, String.empty_append, rfl⟩

/-- What was read as a text is the bytes of that text. -/
theorem read_eq_of_decode {source : String} (h : read path >>= decode = .ok source) :
    read path = .ok (encode source) := by
  cases hread : read path with
  | error e =>
    rw [hread] at h
    cases h
  | ok bytes =>
    rw [hread] at h
    exact congrArg Except.ok (decode_eq_ok_iff.mp h)

section Text

variable {source : String} (h : read path = .ok (encode source))

include h

/-- **A file that holds a text**: its scan is written, and the reporter of the run knows at the end
what the scan has found. -/
theorem run_scan_of_text :
    run ⟨0, .scan path format⟩ read stdin =
      ⟨scanWrites .silent format source, if (scan source).hadError then 1 else 0⟩ := by
  have hreporter :
      ((scan source).reportTo Reporter.report .quiet).hadError = (scan source).hadError := by
    rw [hadError_reportTo, Reporter.hadError_quiet, Bool.false_or]
  have hcontent : (.ok (encode source) >>= decode : Except ReadError String) = .ok source :=
    decode_encode source
  show scanFile .silent format path (read path) = _
  unfold scanFile
  rw [h, hcontent, ← hreporter]
  rfl

theorem code_run_scan :
    (run ⟨0, .scan path format⟩ read stdin).code =
      if (scan source).diagnostics = [] then 0 else 1 := by
  rw [run_scan_of_text stdin format h]
  by_cases hnone : (scan source).diagnostics = []
  · rw [if_pos hnone, (hadError_eq_false_iff _).mpr hnone]
    rfl
  · have hfound : (scan source).hadError = true :=
      eq_true_of_ne_false (mt (hadError_eq_false_iff _).mp hnone)
    rw [if_neg hnone, hfound]
    rfl

theorem stderr_run_scan :
    (run ⟨0, .scan path format⟩ read stdin).stderr =
      String.join ((scan source).diagnostics.map fun d => d.display ++ "\n") := by
  rw [Run.stderr_eq_join (records_eq_nil _ read stdin), run_scan_of_text stdin format h]
  exact congrArg String.join (filterMap_error?_scanWrites .silent format source)

theorem outputs_run_scan :
    (run ⟨0, .scan path format⟩ read stdin).outputs = format.texts (scan source) := by
  rw [run_scan_of_text stdin format h]
  exact filterMap_output?_scanWrites .silent format source

/-- **As many lines on standard error** as there are diagnostics. -/
theorem count_lineFeed_stderr :
    (run ⟨0, .scan path format⟩ read stdin).stderr.toList.count '\n' =
      (scan source).diagnostics.length := by
  have hlines : ∀ text ∈ (scan source).diagnostics.map Diagnostic.display, '\n' ∉ text.toList := by
    intro text htext
    obtain ⟨d, hd, rfl⟩ := List.mem_map.mp htext
    exact lineFeed_not_mem_display hd
  have hcount := count_lineFeed_join hlines
  rw [List.map_map, List.length_map] at hcount
  rw [stderr_run_scan stdin format h]
  exact hcount

/-- The summary counts what the other format prints, and what is on standard error. -/
theorem stdout_run_summary :
    (run ⟨0, .scan path .summary⟩ read stdin).stdout =
      toString (run ⟨0, .scan path .tokens⟩ read stdin).outputs.length ++ " tokens, " ++
        toString ((run ⟨0, .scan path .summary⟩ read stdin).stderr.toList.count '\n') ++
        " errors\n" := by
  rw [Run.stdout_eq_join, outputs_run_scan stdin .summary h, outputs_run_scan stdin .tokens h,
    count_lineFeed_stderr stdin .summary h]
  have hprinted : (Format.texts (scan source) .tokens).length = (scan source).tokens.length :=
    List.length_map _
  rw [hprinted]
  show "" ++ ((scan source).summary ++ "\n") = _
  rw [String.empty_append, Scanned.summary, String.append_assoc]
  rfl

end Text

end Scan

/-- **The outcome of a scan**, whatever the path leads to. In either format the run says the same on
standard error and ends with the same code. If the path leads to a text then the code tells whether
there is a diagnostic, standard error has all diagnostics in order, one format prints the tokens up
to the mark of the end, and the other the number of these and of the lines on standard error. If it
leads to nothing that can be read, or to bytes that encode no text, then nothing is printed,
standard error says why and the code is 1. -/
theorem outcome_scan (path : String) (read : String → Except ReadError (List UInt8))
    (stdin : List UInt8) :
    ((run ⟨0, .scan path .tokens⟩ read stdin).stderr =
        (run ⟨0, .scan path .summary⟩ read stdin).stderr ∧
      (run ⟨0, .scan path .tokens⟩ read stdin).code =
        (run ⟨0, .scan path .summary⟩ read stdin).code) ∧
    (∀ source, read path = .ok (encode source) →
      (∀ format,
        (run ⟨0, .scan path format⟩ read stdin).code =
            (if (scan source).diagnostics = [] then 0 else 1) ∧
          (run ⟨0, .scan path format⟩ read stdin).stderr =
            String.join ((scan source).diagnostics.map fun d => d.display ++ "\n")) ∧
      (run ⟨0, .scan path .tokens⟩ read stdin).outputs =
        ((scan source).tokens.map fun t => t.display ++ "\n") ∧
      (scan source).tokens.getLast? = some (.eof (Text.lineAfter source.toList)) ∧
      (run ⟨0, .scan path .summary⟩ read stdin).stdout =
        toString (run ⟨0, .scan path .tokens⟩ read stdin).outputs.length ++ " tokens, " ++
          toString ((run ⟨0, .scan path .summary⟩ read stdin).stderr.toList.count '\n') ++
          " errors\n") ∧
    (∀ e, read path = .error e → ∀ format,
      (run ⟨0, .scan path format⟩ read stdin).stdout = "" ∧
        (run ⟨0, .scan path format⟩ read stdin).stderr = e.message ++ "\n" ∧
        (run ⟨0, .scan path format⟩ read stdin).code = 1) ∧
    ∀ bytes, read path = .ok bytes → (∀ source, bytes ≠ encode source) → ∀ format,
      (run ⟨0, .scan path format⟩ read stdin).stdout = "" ∧
        (run ⟨0, .scan path format⟩ read stdin).stderr =
          "stream did not contain valid UTF-8\n" ∧
        (run ⟨0, .scan path format⟩ read stdin).code = 1 := by
  refine ⟨?_, ?_, ?_, ?_⟩
  · -- Whether there is a text does not depend on the format.
    cases hcontent : read path >>= decode with
    | error e =>
      rw [run_scan_of_error stdin .tokens hcontent, run_scan_of_error stdin .summary hcontent]
      exact ⟨rfl, rfl⟩
    | ok source =>
      have hread := read_eq_of_decode hcontent
      exact ⟨by rw [stderr_run_scan _ _ hread, stderr_run_scan _ _ hread],
        by rw [code_run_scan _ _ hread, code_run_scan _ _ hread]⟩
  · intro source hread
    refine ⟨fun format => ⟨code_run_scan stdin format hread, stderr_run_scan stdin format hread⟩,
      outputs_run_scan stdin .tokens hread, ?_, stdout_run_summary stdin hread⟩
    rw [scan_tokens_eq_append, List.getLast?_concat]
  · intro e hread format
    have hcontent : read path >>= decode = .error e := by
      rw [hread]
      rfl
    exact outcome_of_error stdin format hcontent
  · intro bytes hread hbytes format
    have hcontent : read path >>= decode = .error .notUtf8 := by
      rw [hread]
      exact decode_eq_error hbytes
    exact outcome_of_error stdin format hcontent

/-- A directory of two files: one has two faults, one a byte that begins no character. -/
def twoFiles : String → Except ReadError (List UInt8)
  | "faults" => .ok (encode "@ b \"c")
  | "bytes" => .ok [0xFF]
  | _ => .error .notFound

/-- The two files, and one that is not there. -/
theorem outcome_scan_twoFiles :
    ((run ⟨0, .scan "faults" .summary⟩ twoFiles []).code = 1 ∧
      (run ⟨0, .scan "faults" .summary⟩ twoFiles []).stderr =
        "[line 1] Error: Unexpected character.\n[line 1] Error: Unterminated string.\n") ∧
    ((run ⟨0, .scan "missing" .tokens⟩ twoFiles []).stdout = "" ∧
      (run ⟨0, .scan "missing" .tokens⟩ twoFiles []).stderr =
        "No such file or directory (os error 2)\n") ∧
    (∀ source, [0xFF] ≠ encode source) ∧
      (run ⟨0, .scan "bytes" .summary⟩ twoFiles []).stdout = "" ∧
      (run ⟨0, .scan "bytes" .summary⟩ twoFiles []).code = 1 := by
  refine ⟨?_, ?_, ?_⟩
  · obtain ⟨-, htext, -, -⟩ := outcome_scan "faults" twoFiles []
    obtain ⟨hcode, hstderr⟩ := (htext "@ b \"c" rfl).1 .summary
    rw [hcode, hstderr]
    decide +kernel
  · obtain ⟨-, -, hunread, -⟩ := outcome_scan "missing" twoFiles []
    obtain ⟨hstdout, hstderr, -⟩ := hunread .notFound rfl .tokens
    exact ⟨hstdout, hstderr⟩
  · have hbytes : ∀ source, [0xFF] ≠ encode source := by
      intro source hsource
      have hdecode := decode_eq_ok_iff.mpr hsource
      rw [show decode [0xFF] = .error .notUtf8 by decide +kernel] at hdecode
      cases hdecode
    obtain ⟨-, -, -, hnoText⟩ := outcome_scan "bytes" twoFiles []
    obtain ⟨hstdout, -, hcode⟩ := hnoText [0xFF] rfl hbytes .summary
    exact ⟨hbytes, hstdout, hcode⟩

end LoxFront

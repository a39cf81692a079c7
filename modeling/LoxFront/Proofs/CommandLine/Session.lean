import LoxFront.CommandLine.Run
import Mathlib.Data.List.Forall2

/-!
# Sessions line by line

A session does with each of its lines what a scan of a file does with the text of that line,
and carries nothing from one line to the next.

* `ScannedLine line source` — the line is whole, it is a text, and what is left of that without
  the white space at its end is `source`, which does not end the session;
* `replTurn_of_scannedLine` — such a line is scanned, whatever the reporter was told before,
  and leaves a reporter that was told of nothing;
* `session_append` — after a list of such lines a session goes on with the lines after them as
  if it began there;
* `inputLines_append` — the lines of an input that ends with a line feed, and of what follows
  it, are told apart.

The main statement is `repl_append`. Its second side is `scanOf`, the run that scans a file.
-/

namespace LoxFront

/-! ### Bytes -/

/-- The bytes of a text. -/
def encode (text : String) : List UInt8 := text.toByteArray.data.toList

theorem decode_encode (text : String) : decode (encode text) = .ok text := by
  have hbytes : (encode text).toByteArray = text.toByteArray :=
    ByteArray.ext List.data_toByteArray
  unfold decode String.fromUTF8?
  rw [hbytes, dif_pos text.isValidUTF8]
  rfl

theorem inputLines_lineFeed (bs : List UInt8) : inputLines (10 :: bs) = [10] :: inputLines bs := by
  rw [inputLines, if_pos rfl]

/-- A byte before a line belongs to it. -/
theorem inputLines_cons {b : UInt8} (hb : b ≠ 10) {bs line : List UInt8}
    {lines : List (List UInt8)} (h : inputLines bs = line :: lines) :
    inputLines (b :: bs) = (b :: line) :: lines := by
  rw [inputLines, if_neg hb, h]

theorem inputLines_last {b : UInt8} (hb : b ≠ 10) {bs : List UInt8} (h : inputLines bs = []) :
    inputLines (b :: bs) = [[b]] := by
  rw [inputLines, if_neg hb, h]

/-- **Lines are told apart** where the one input ends with a line feed. -/
theorem inputLines_append {input : List UInt8}
    (h : ∀ line ∈ inputLines input, line.getLast? = some 10) (more : List UInt8) :
    inputLines (input ++ more) = inputLines input ++ inputLines more := by
  induction input with
  | nil => rfl
  | cons b bs ih =>
    rw [List.cons_append]
    by_cases hb : b = 10
    · subst hb
      rw [inputLines_lineFeed] at h
      rw [inputLines_lineFeed, inputLines_lineFeed,
        ih fun line hline => h line (List.mem_cons_of_mem [10] hline)]
      rfl
    · cases hlines : inputLines bs with
      | nil =>
        -- Alone the byte would be a line without a line feed.
        rw [inputLines_last hb hlines] at h
        exact absurd (Option.some.inj (h [b] List.mem_cons_self)) hb
      | cons line lines =>
        rw [inputLines_cons hb hlines] at h
        rw [hlines] at ih
        have hline : line.getLast? = some 10 := by
          have hlast := h (b :: line) List.mem_cons_self
          cases line with
          | nil => exact absurd (Option.some.inj hlast) hb
          | cons c cs => rwa [List.getLast?_cons_cons] at hlast
        have hlater : ∀ l ∈ line :: lines, l.getLast? = some 10 :=
          List.forall_mem_cons.mpr ⟨hline, fun l hl => h l (List.mem_cons_of_mem _ hl)⟩
        rw [inputLines_cons hb hlines, inputLines_cons hb (ih hlater)]
        rfl

/-! ### One line -/

/-- **A line that is scanned** as the text `source`. -/
structure ScannedLine (line : List UInt8) (source : String) : Prop where
  getLast?_eq : line.getLast? = some 10
  source_eq : ∃ text, decode line = .ok text ∧ source = String.ofList (Text.trimEnd text.toList)
  ne_exit : source ≠ "exit"

/-- Lines that are scanned are whole. -/
theorem getLast?_of_mem_scannedLines {lines : List (List UInt8)} {sources : List String}
    (h : List.Forall₂ ScannedLine lines sources) :
    ∀ line ∈ lines, line.getLast? = some 10 := by
  induction h with
  | nil => exact fun line hline => absurd hline List.not_mem_nil
  | cons hline _ ih => exact List.forall_mem_cons.mpr ⟨hline.getLast?_eq, ih⟩

section Session

variable {t : Threshold} {format : Format}

theorem replTurn_of_scannedLine {line : List UInt8} {source : String} (h : ScannedLine line source)
    (reporter : Reporter) :
    replTurn t format reporter line = .next (scanWrites t format source) .quiet := by
  obtain ⟨text, hdecode, rfl⟩ := h.source_eq
  unfold replTurn
  rw [hdecode]
  exact if_neg h.ne_exit

/-- **The reporter does not matter**: no line looks at what it was told, and after each it is
reset. -/
theorem session_eq_repl (reporter : Reporter) (lines : List (List UInt8)) :
    session t format reporter lines = repl t format lines := by
  unfold repl
  cases lines with
  | nil => rfl
  | cons line lines =>
    have hturn : replTurn t format reporter line = replTurn t format .quiet line := rfl
    rw [session, session, hturn]

/-- **A session goes on** after lines that are scanned. -/
theorem session_append {lines : List (List UInt8)} {sources : List String}
    (h : List.Forall₂ ScannedLine lines sources) (more : List (List UInt8)) :
    repl t format (lines ++ more) =
      ⟨sources.flatMap (fun source => prompt :: scanWrites t format source) ++
        (repl t format more).writes, (repl t format more).code⟩ := by
  induction h with
  | nil => rfl
  | cons hline _ ih =>
    rw [List.cons_append, repl, session, replTurn_of_scannedLine hline]
    -- What follows the line is a session again.
    simp only [session_eq_repl, ih]
    rw [List.flatMap_cons, List.append_assoc]

end Session

/-! ### What a run writes -/

namespace Run

theorem stdout_append (writes more : List Write) (code code' : Nat) :
    (Run.mk (writes ++ more) code).stdout =
      (Run.mk writes code').stdout ++ (Run.mk more code).stdout := by
  unfold stdout
  rw [List.filterMap_append, String.join_append]

theorem stderr_append (writes more : List Write) (code code' : Nat) :
    (Run.mk (writes ++ more) code).stderr =
      (Run.mk writes code').stderr ++ (Run.mk more code).stderr := by
  unfold stderr
  rw [List.filterMap_append, String.join_append]

end Run

/-- **The scan of a file** that holds a text. -/
def scanOf (format : Format) (path source : String) : Run :=
  run ⟨0, .scan path format⟩ (fun _ => .ok (encode source)) []

theorem writes_scanOf (format : Format) (path source : String) :
    (scanOf format path source).writes = scanWrites .silent format source := by
  have hcontent : (.ok (encode source) >>= decode : Except ReadError String) = .ok source :=
    decode_encode source
  change (scanFile .silent format path (.ok (encode source))).writes = _
  unfold scanFile
  rw [hcontent]
  rfl

/-- The scans of texts, each after a prompt, as they stand on standard output. -/
theorem stdout_flatMap (format : Format) (path : String) (sources : List String) (code : Nat) :
    (Run.mk (sources.flatMap fun source => prompt :: scanWrites .silent format source) code).stdout =
      String.join (sources.map fun source => "> " ++ (scanOf format path source).stdout) := by
  induction sources with
  | nil => rfl
  | cons source sources ih =>
    rw [List.flatMap_cons, Run.stdout_append _ _ code code, ih, List.map_cons, String.join_cons]
    congr 1
    unfold Run.stdout
    rw [writes_scanOf]
    exact String.join_cons

theorem stderr_flatMap (format : Format) (path : String) (sources : List String) (code : Nat) :
    (Run.mk (sources.flatMap fun source => prompt :: scanWrites .silent format source) code).stderr =
      String.join (sources.map fun source => (scanOf format path source).stderr) := by
  induction sources with
  | nil => rfl
  | cons source sources ih =>
    rw [List.flatMap_cons, Run.stderr_append _ _ code code, ih, List.map_cons, String.join_cons]
    congr 1
    unfold Run.stderr
    rw [writes_scanOf]
    rfl

/-- **A session is a scan of each line.** Lines that are scanned end a session with code 0, a
last prompt, and before it what the scans of files that hold the texts of these lines print, a
prompt before each. Whatever bytes come after them, the session writes on from there, and ends,
as one that begins with these bytes. -/
theorem repl_append {input : List UInt8} {sources : List String}
    (h : List.Forall₂ ScannedLine (inputLines input) sources) (more : List UInt8)
    (format : Format) (path : String) (read : String → Except ReadError (List UInt8)) :
    (run ⟨0, .repl format⟩ read input).code = 0 ∧
      (run ⟨0, .repl format⟩ read input).stdout =
        String.join (sources.map fun source => "> " ++ (scanOf format path source).stdout) ++ "> " ∧
      (run ⟨0, .repl format⟩ read input).stderr =
        String.join (sources.map fun source => (scanOf format path source).stderr) ∧
      (run ⟨0, .repl format⟩ read (input ++ more)).stdout =
        String.join (sources.map fun source => "> " ++ (scanOf format path source).stdout) ++
          (run ⟨0, .repl format⟩ read more).stdout ∧
      (run ⟨0, .repl format⟩ read (input ++ more)).stderr =
        (run ⟨0, .repl format⟩ read input).stderr ++ (run ⟨0, .repl format⟩ read more).stderr ∧
      (run ⟨0, .repl format⟩ read (input ++ more)).code =
        (run ⟨0, .repl format⟩ read more).code := by
  have hrun : ∀ bytes, run ⟨0, .repl format⟩ read bytes = repl .silent format (inputLines bytes) :=
    fun _ => rfl
  have hlines := inputLines_append (getLast?_of_mem_scannedLines h) more
  -- The first part by itself goes on with no lines, and writes one more prompt.
  have hinput : repl .silent format (inputLines input) =
      ⟨sources.flatMap (fun source => prompt :: scanWrites .silent format source) ++ [prompt], 0⟩ := by
    rw [← List.append_nil (inputLines input), session_append h]
    rfl
  have hmore : repl .silent format (inputLines input ++ inputLines more) = _ :=
    session_append h (inputLines more)
  have hprompt : ∀ code, (Run.mk [prompt] code).stdout = "> " ∧ (Run.mk [prompt] code).stderr = "" :=
    fun _ => ⟨rfl, rfl⟩
  rw [hrun input, hrun more, hrun (input ++ more), hlines, hinput, hmore]
  refine ⟨rfl, ?_, ?_, ?_, ?_, rfl⟩
  · rw [Run.stdout_append _ _ 0 0, stdout_flatMap format path, (hprompt 0).1]
  · rw [Run.stderr_append _ _ 0 0, stderr_flatMap format path, (hprompt 0).2, String.append_empty]
  · rw [Run.stdout_append _ _ _ 0, stdout_flatMap format path]
  · rw [Run.stderr_append _ _ _ 0, Run.stderr_append _ _ 0 0, (hprompt 0).2, String.append_empty]

/-- A line with a fault and trailing white space, one of white space only, and a last line that
is no text. -/
theorem repl_append_lines :
    List.Forall₂ ScannedLine (inputLines [0x40, 0x20, 0x0A, 0x09, 0x0A]) ["@", ""] ∧
      (run ⟨0, .repl .summary⟩ (fun _ => .error .notFound)
        ([0x40, 0x20, 0x0A, 0x09, 0x0A] ++ [0xFF])).code = 1 := by
  have hfirst : decode [0x40, 0x20, 0x0A] = .ok "@ \n" := decode_encode "@ \n"
  have hsecond : decode [0x09, 0x0A] = .ok "\t\n" := decode_encode "\t\n"
  have hlines : List.Forall₂ ScannedLine (inputLines [0x40, 0x20, 0x0A, 0x09, 0x0A]) ["@", ""] :=
    .cons ⟨rfl, ⟨_, hfirst, by decide⟩, by decide⟩
      (.cons ⟨rfl, ⟨_, hsecond, by decide⟩, by decide⟩ .nil)
  obtain ⟨-, -, -, -, -, hcode⟩ :=
    repl_append hlines [0xFF] .summary "a.lox" (fun _ => .error .notFound)
  refine ⟨hlines, ?_⟩
  rw [hcode]
  decide +kernel

end LoxFront

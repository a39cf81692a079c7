import LoxFront.Proofs.CommandLine.Requests
import LoxFront.Proofs.CommandLine.Writes
import Mathlib.Data.List.Basic

/-!
# Verbosity changes the log and nothing else

A run at a low threshold is the run at the highest one with some of its log left out. All else that
a run does is the same at every threshold.

* `Write.passes t` — the writes that are made at the threshold `t`: all but the records that it does
  not admit;
* `Run.through t` — a run with only these (`run_eq_through`), seen in its outputs, errors and
  records;
* `Orderly` — of the writes between two prompts the records come first, then the errors, then the
  outputs. It holds of every run (`orderly_run`).

The main statement is `verbosity_only_logs`. Its two command lines ask for the same command, and
for more to be logged any number of times each.
-/

namespace LoxFront

/-! ### A lower threshold -/

/-- **The writes made at a threshold.** -/
def Write.passes (t : Threshold) : Write → Bool
  | log record => t.admits record.level
  | _ => true

/-- **A run as far as a threshold lets it through.** -/
def Run.through (t : Threshold) (r : Run) : Run := ⟨r.writes.filter (Write.passes t), r.code⟩

namespace Run

variable (t : Threshold) (r : Run)

/-- What is not picked from the log is there at every threshold. -/
theorem filterMap_through {α : Type} {pick : Write → Option α}
    (hlog : ∀ record, pick (.log record) = none) :
    (r.through t).writes.filterMap pick = r.writes.filterMap pick := by
  unfold through
  rw [List.filterMap_filter]
  congr 1
  funext write
  cases write with
  | log record =>
    -- Whether the record is let through or not, nothing is picked.
    rw [hlog record]
    exact ite_self none
  | _ => rfl

theorem outputs_through : (r.through t).outputs = r.outputs :=
  filterMap_through t r fun _ => rfl

theorem errors_through : (r.through t).errors = r.errors :=
  filterMap_through t r fun _ => rfl

theorem records_through :
    (r.through t).records = r.records.filter fun record => t.admits record.level := by
  unfold records through
  rw [List.filterMap_filter, List.filter_filterMap]
  congr 1
  funext write
  cases write with
  | log record => rfl
  | _ => rfl

theorem stdout_through : (r.through t).stdout = r.stdout := by
  rw [stdout_eq_join, stdout_eq_join, outputs_through]

end Run

section Filtered

variable (t : Threshold)

theorem emit_eq_filter (level : Level) (topic : Topic) (message : Unit → String) :
    t.emit level topic message =
      (Threshold.trace.emit level topic message).filter fun record => t.admits record.level := by
  have htrace : Threshold.trace.emit level topic message = [⟨level, topic, message ()⟩] := rfl
  rw [htrace, List.filter_singleton]
  unfold Threshold.emit
  cases t.admits level <;> rfl

theorem Item.log_eq_filter (item : Item) :
    item.log t = (item.log .trace).filter fun record => t.admits record.level := by
  -- The same record is offered at every threshold.
  obtain ⟨level, message, hlog⟩ : ∃ level message, ∀ t : Threshold,
      item.log t = t.emit level .scanner message := by
    cases item with
    | token tok => exact ⟨.trace, fun _ => tok.display, fun t => rfl⟩
    | fault d lexeme =>
      exact ⟨.debug, fun _ => "line " ++ toString d.line ++ ": " ++ d.message ++ " (" ++
        Text.quote lexeme ++ ")", fun t => rfl⟩
  rw [hlog, hlog, emit_eq_filter]

theorem scanLog_eq_filter (source : String) :
    scanLog t source = (scanLog .trace source).filter fun record => t.admits record.level := by
  unfold scanLog
  rw [List.filter_append, List.filter_flatMap, ← emit_eq_filter]
  congr 1
  exact List.flatMap_congr fun item _ => Item.log_eq_filter t item

/-- Of a list of records a threshold lets those through that it admits. -/
theorem filter_passes_log (records : List Record) :
    (records.map Write.log).filter (Write.passes t) =
      (records.filter fun record => t.admits record.level).map Write.log := by
  rw [List.filter_map]
  rfl

theorem filter_passes_err (texts : List String) :
    (texts.map Write.err).filter (Write.passes t) = texts.map Write.err := by
  rw [List.filter_map]
  congr 1
  exact List.filter_eq_self.mpr fun text _ => rfl

theorem filter_passes_out (texts : List String) :
    (texts.map Write.out).filter (Write.passes t) = texts.map Write.out := by
  rw [List.filter_map]
  congr 1
  exact List.filter_eq_self.mpr fun text _ => rfl

theorem scanWrites_eq_filter (format : Format) (source : String) :
    scanWrites t format source = (scanWrites .trace format source).filter (Write.passes t) := by
  rw [scanWrites_eq, scanWrites_eq, List.filter_append, List.filter_append, filter_passes_log,
    filter_passes_err, filter_passes_out, ← scanLog_eq_filter]

/-! ### Whole runs -/

theorem scanFile_eq_through (format : Format) (path : String)
    (content : Except ReadError (List UInt8)) :
    scanFile t format path content = (scanFile .trace format path content).through t := by
  have hannounced := emit_eq_filter t .debug .program fun _ => "scanning " ++ Text.quotePath path
  unfold scanFile Run.through
  cases content >>= decode with
  | error e =>
    simp only [List.filter_append, filter_passes_log, ← hannounced]
    rfl
  | ok source =>
    simp only [List.filter_append, filter_passes_log, ← hannounced, scanFor,
      ← scanWrites_eq_filter]
    rfl

end Filtered

/-- **All that a line of a session can lead to**: the session ends and logs nothing, or the text
of the line is scanned. Which of them, neither the threshold nor the reporter has a say in. -/
theorem replTurn_cases (format : Format) (line : List UInt8) :
    (∃ (errors : List String) (code : Nat), ∀ t reporter,
        replTurn t format reporter line = .stop ⟨errors.map Write.err, code⟩) ∨
      ∃ source, ∀ t reporter,
        replTurn t format reporter line = .next (scanWrites t format source) .quiet := by
  unfold replTurn
  cases decode line with
  | error e => exact Or.inl ⟨[e.message ++ "\n"], 1, fun t reporter => rfl⟩
  | ok text =>
    by_cases hexit : String.ofList (Text.trimEnd text.toList) = "exit"
    · exact Or.inl ⟨[], 0, fun t reporter => if_pos hexit⟩
    · exact Or.inr ⟨_, fun t reporter => if_neg hexit⟩

theorem session_eq_through (t : Threshold) (format : Format) (reporter : Reporter)
    (lines : List (List UInt8)) :
    session t format reporter lines = (session .trace format reporter lines).through t := by
  induction lines generalizing reporter with
  | nil => rfl
  | cons line lines ih =>
    unfold session
    obtain ⟨errors, code, hstop⟩ | ⟨source, hnext⟩ := replTurn_cases format line
    · rw [hstop, hstop]
      show Run.mk (prompt :: errors.map Write.err) code = Run.mk (List.filter _ (prompt :: _)) code
      rw [List.filter_cons_of_pos rfl, filter_passes_err]
    · rw [hnext, hnext]
      show Run.mk (prompt :: scanWrites t format source ++ _) _ = Run.mk (List.filter _ _) _
      rw [ih, List.filter_append, List.filter_cons_of_pos rfl, ← scanWrites_eq_filter]
      rfl

/-- **A run at some verbosity** is the run at the highest one, as far as the threshold of the
verbosity lets it through. -/
theorem run_eq_through (v : Nat) (c : Command) (read : String → Except ReadError (List UInt8))
    (stdin : List UInt8) :
    run ⟨v, c⟩ read stdin = (run ⟨2, c⟩ read stdin).through (.ofCount v) := by
  cases c with
  | scan file format => exact scanFile_eq_through _ format file (read file)
  | repl format => exact session_eq_through _ format .quiet (inputLines stdin)
  | sample => rfl

/-! ### Order -/

/-- The place of a write among those between two prompts. -/
def Write.phase : Write → Nat
  | log _ => 0
  | err _ => 1
  | out _ => 2

/-- **Records, then errors, then outputs**, from one prompt to the next. -/
def Orderly (writes : List Write) : Prop :=
  ∀ block ∈ writes.splitOn prompt, block.Pairwise fun a b => a.phase ≤ b.phase

/-- A prompt begins anew. -/
theorem orderly_append_prompt {writes more : List Write} :
    Orderly (writes ++ prompt :: more) ↔ Orderly writes ∧ Orderly more := by
  unfold Orderly
  rw [List.splitOn_append_cons_self, List.forall_mem_append]

/-- **The three parts in order**, none of the outputs being a prompt. -/
theorem orderly_parts (records : List Record) (errors : List String) {outputs : List String}
    (h : "> " ∉ outputs) :
    Orderly (records.map Write.log ++ errors.map Write.err ++ outputs.map Write.out) := by
  have hprompt : prompt ∉ records.map Write.log ++ errors.map Write.err ++ outputs.map Write.out := by
    simpa [prompt] using h
  intro block hblock
  rw [List.splitOn_eq_singleton hprompt, List.mem_singleton] at hblock
  subst hblock
  rw [List.pairwise_append, List.pairwise_append, List.pairwise_map, List.pairwise_map,
    List.pairwise_map]
  -- Within a part the places are the same, and from part to part they grow.
  refine ⟨⟨List.pairwise_of_forall fun _ _ => Nat.le_refl 0,
    List.pairwise_of_forall fun _ _ => Nat.le_refl 1, ?_⟩,
    List.pairwise_of_forall fun _ _ => Nat.le_refl 2, ?_⟩
  · simp [Write.phase]
  · simp [Write.phase, or_imp, forall_and]

/-- What is printed on a line of its own is no prompt. -/
theorem lineFeed_ne_prompt (text : String) : text ++ "\n" ≠ "> " := by
  intro h
  have hlast := congrArg (fun s => s.toList.getLast?) h
  simp only [String.toList_append] at hlast
  exact absurd hlast (by simp)

theorem prompt_not_mem_texts (format : Format) (s : Scanned) : "> " ∉ format.texts s := by
  cases format with
  | tokens =>
    intro hmem
    obtain ⟨t, -, ht⟩ := List.mem_map.mp hmem
    exact lineFeed_ne_prompt _ ht
  | summary =>
    intro hmem
    exact lineFeed_ne_prompt _ (List.mem_singleton.mp hmem).symm

theorem orderly_scanWrites (records : List Record) (t : Threshold) (format : Format)
    (source : String) : Orderly (records.map Write.log ++ scanWrites t format source) := by
  rw [scanWrites_eq, ← List.append_assoc, ← List.append_assoc, ← List.map_append]
  exact orderly_parts _ _ (prompt_not_mem_texts format _)

/-- The writes of a session go on orderly after others. -/
theorem orderly_append_session {writes : List Write} (h : Orderly writes) (t : Threshold)
    (format : Format) (reporter : Reporter) (lines : List (List UInt8)) :
    Orderly (writes ++ (session t format reporter lines).writes) := by
  induction lines generalizing writes reporter with
  | nil => exact orderly_append_prompt.mpr ⟨h, orderly_parts [] [] List.not_mem_nil⟩
  | cons line lines ih =>
    unfold session
    obtain ⟨errors, code, hstop⟩ | ⟨source, hnext⟩ := replTurn_cases format line
    · rw [hstop]
      have herrors := orderly_parts [] errors List.not_mem_nil
      exact orderly_append_prompt.mpr ⟨h, by simpa using herrors⟩
    · rw [hnext]
      exact orderly_append_prompt.mpr ⟨h, ih (orderly_scanWrites [] t format source) .quiet⟩

/-- **Every run is orderly.** -/
theorem orderly_run (i : Invocation) (read : String → Except ReadError (List UInt8))
    (stdin : List UInt8) : Orderly (run i read stdin).writes := by
  obtain ⟨v, c⟩ := i
  cases c with
  | scan file format =>
    show Orderly (scanFile _ format file (read file)).writes
    unfold scanFile
    cases read file >>= decode with
    | error e =>
      have hfailed := orderly_parts
        ((Threshold.ofCount v).emit .debug .program fun _ => "scanning " ++ Text.quotePath file)
        [e.message ++ "\n"] List.not_mem_nil
      rwa [List.map_nil, List.append_nil] at hfailed
    | ok source => exact orderly_scanWrites _ _ format source
  | repl format =>
    exact orderly_append_session (orderly_parts [] [] List.not_mem_nil) _ format .quiet _
  | sample =>
    have hsample : "> " ∉ [Expr.sample.render ++ "\n"] := by
      intro hmem
      exact lineFeed_ne_prompt _ (List.mem_singleton.mp hmem).symm
    exact orderly_parts [] [] hsample

/-! ### The law of verbosity -/

theorem records_eq_nil (c : Command) (read : String → Except ReadError (List UInt8))
    (stdin : List UInt8) : (run ⟨0, c⟩ read stdin).records = [] := by
  rw [run_eq_through, Run.records_through]
  exact List.filter_eq_nil_iff.mpr fun _ _ => Bool.false_ne_true

/-- At the first verbosity the log lacks the traces of any higher one. -/
theorem records_eq_filter {v : Nat} (hv : v ≠ 0) (c : Command)
    (read : String → Except ReadError (List UInt8)) (stdin : List UInt8) :
    (run ⟨1, c⟩ read stdin).records =
      (run ⟨v, c⟩ read stdin).records.filter fun record => record.level ≠ .trace := by
  rw [run_eq_through 1, run_eq_through v, Run.records_through, Run.records_through,
    List.filter_filter]
  congr 1
  funext record
  obtain _ | _ | v := v
  · exact absurd rfl hv
  · cases record.level <;> rfl
  · cases record.level <;> rfl

/-- **Verbosity changes the log and nothing else.** Two command lines that ask for the same command,
with `n` and with `n'` requests to be more verbose, print the same, fail in the same way and say the
same on standard error beside the log. Without a request there is no log, and with one the log is
that of two or more without its traces. From prompt to prompt the log comes first and the
diagnostics next, and to every command line more requests can be added. -/
theorem verbosity_only_logs {args args' : List String} {n n' : Nat} {i i' : Invocation}
    (h : Understood args n i) (h' : Understood args' n' i') (hcommand : i.command = i'.command)
    (read : String → Except ReadError (List UInt8)) (stdin : List UInt8) :
    (run i read stdin).stdout = (run i' read stdin).stdout ∧
      (run i read stdin).code = (run i' read stdin).code ∧
      (run i read stdin).errors = (run i' read stdin).errors ∧
      (n = 0 → (run i read stdin).records = []) ∧
      (n = 1 → 2 ≤ n' →
        (run i read stdin).records =
          (run i' read stdin).records.filter fun record => record.level ≠ .trace) ∧
      Orderly (run i read stdin).writes ∧
      ∀ k, ∃ more, Understood (List.replicate k "-v" ++ args) (n + k) more ∧
        more.command = i.command := by
  have horderly := orderly_run i read stdin
  have hmore := h.replicate_append
  obtain ⟨v, c⟩ := i
  obtain ⟨v', c'⟩ := i'
  obtain rfl : c = c' := hcommand
  have hrun := run_eq_through v c read stdin
  have hrun' := run_eq_through v' c read stdin
  refine ⟨?_, ?_, ?_, ?_, ?_, horderly, hmore⟩
  · rw [hrun, hrun', Run.stdout_through, Run.stdout_through]
  · rw [hrun, hrun']
    rfl
  · rw [hrun, hrun', Run.errors_through, Run.errors_through]
  · rintro rfl
    obtain rfl : v = 0 := h.verbosity_eq_zero_iff.mpr rfl
    exact records_eq_nil c read stdin
  · rintro rfl htwo
    obtain rfl : v = 1 := h.verbosity_eq_one
    have hv' : v' ≠ 0 := fun hzero => by
      have hnone := h'.verbosity_eq_zero_iff.mp hzero
      omega
    exact records_eq_filter hv' c read stdin

/-- One request in front of the command, and two behind it around the file, which holds a stray
character. -/
theorem verbosity_only_logs_scan :
    Understood ["-v", "scan", "a"] 1 ⟨1, .scan "a" .tokens⟩ ∧
      Understood ["scan", "-v", "a", "-v"] 2 ⟨2, .scan "a" .tokens⟩ ∧
      (run ⟨1, .scan "a" .tokens⟩ (fun _ => .ok [0x40]) []).errors =
        (run ⟨2, .scan "a" .tokens⟩ (fun _ => .ok [0x40]) []).errors ∧
      (run ⟨1, .scan "a" .tokens⟩ (fun _ => .ok [0x40]) []).records =
        (run ⟨2, .scan "a" .tokens⟩ (fun _ => .ok [0x40]) []).records.filter
          fun record => record.level ≠ .trace := by
  have hone : Understood ["-v", "scan", "a"] 1 ⟨1, .scan "a" .tokens⟩ := ⟨_, rfl, rfl, rfl⟩
  have htwo : Understood ["scan", "-v", "a", "-v"] 2 ⟨2, .scan "a" .tokens⟩ := ⟨_, rfl, rfl, rfl⟩
  obtain ⟨-, -, herrors, -, hrecords, -, -⟩ :=
    verbosity_only_logs hone htwo rfl (fun _ => .ok [0x40]) []
  exact ⟨hone, htwo, herrors, hrecords rfl (by decide)⟩

end LoxFront

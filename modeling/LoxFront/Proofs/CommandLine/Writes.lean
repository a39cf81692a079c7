import LoxFront.CommandLine.Run
import Mathlib.Data.List.Basic

/-!
# The writes of a run, taken apart

A run writes three kinds of things, and each is of interest on its own: what it prints, what it
says on standard error, and what it logs there.

* `Run.outputs`, `Run.errors`, `Run.records` — the writes of one kind, in order;
* `stdout_eq_join` and `stderr_eq_join` — the two streams of a run in these terms, the second for
  runs that log nothing;
* `scanWrites_eq` — what the scan of a text writes is its log, its diagnostics and its result;
  `filterMap_output?_scanWrites` and `filterMap_error?_scanWrites` pick out one of these.
-/

namespace LoxFront

namespace Write

def output? : Write → Option String
  | out text => some text
  | _ => none

def error? : Write → Option String
  | err text => some text
  | _ => none

def record? : Write → Option Record
  | log record => some record
  | _ => none

end Write

namespace Run

/-- What a run prints, write by write. -/
def outputs (r : Run) : List String := r.writes.filterMap Write.output?

/-- What a run says on standard error beside its log: diagnostics, and why it fails. -/
def errors (r : Run) : List String := r.writes.filterMap Write.error?

/-- The log of a run. -/
def records (r : Run) : List Record := r.writes.filterMap Write.record?

theorem stdout_eq_join (r : Run) : r.stdout = String.join r.outputs := rfl

/-- Where nothing is logged, standard error has the errors alone. -/
theorem stderr_eq_join {r : Run} (h : r.records = []) : r.stderr = String.join r.errors := by
  have hnone := List.filterMap_eq_nil_iff.mp h
  unfold stderr errors
  congr 1
  apply List.filterMap_congr
  intro write hwrite
  cases write with
  | out text => rfl
  | err text => rfl
  | log record => exact absurd (hnone _ hwrite) (by simp [Write.record?])

end Run

/-! ### The scan of a text -/

/-- The texts that the result of a scan is printed as. -/
def Format.texts (s : Scanned) : Format → List String
  | tokens => s.tokens.map fun t => t.display ++ "\n"
  | summary => [s.summary ++ "\n"]

theorem listing_eq_map (format : Format) (s : Scanned) :
    format.listing s = (format.texts s).map Write.out := by
  cases format with
  | tokens =>
    unfold Format.listing Format.texts
    rw [List.map_map]
    rfl
  | summary => rfl

section ScanWrites

variable (t : Threshold) (format : Format) (source : String)

/-- **The scan of a text** writes its log, then its diagnostics, then its result. -/
theorem scanWrites_eq :
    scanWrites t format source =
      (scanLog t source).map Write.log ++
        ((scan source).diagnostics.map fun d => d.display ++ "\n").map Write.err ++
        (format.texts (scan source)).map Write.out := by
  rw [List.map_map, ← listing_eq_map]
  rfl

/-- Of the three parts of a scan's writes, an accessor sees one. -/
theorem filterMap_scanWrites {α : Type} (pick : Write → Option α) :
    (scanWrites t format source).filterMap pick =
      (scanLog t source).filterMap (pick ∘ Write.log) ++
        ((scan source).diagnostics.map fun d => d.display ++ "\n").filterMap (pick ∘ Write.err) ++
        (format.texts (scan source)).filterMap (pick ∘ Write.out) := by
  rw [scanWrites_eq]
  simp only [List.filterMap_append, List.filterMap_map]

theorem filterMap_output?_scanWrites :
    (scanWrites t format source).filterMap Write.output? = format.texts (scan source) := by
  rw [filterMap_scanWrites]
  simp [Function.comp_def, Write.output?]

theorem filterMap_error?_scanWrites :
    (scanWrites t format source).filterMap Write.error? =
      (scan source).diagnostics.map fun d => d.display ++ "\n" := by
  rw [filterMap_scanWrites]
  simp [Function.comp_def, Write.error?]

end ScanWrites

end LoxFront

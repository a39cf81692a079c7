import LoxFront.Report
import Mathlib.Data.List.Basic
import Mathlib.Data.List.Induction

/-!
# What a reporter and a sink know

A reporter and a sink are told of the same diagnostics, of those of whole scans and of single ones.
The reporter forgets when it is cleared, that is reset or replaced, and the sink never does.

* `hadError_reportTo`, `sink_reportTo` — what the reports of one scan do to either;
* `ReportStep.reported`, `ReportStep.clears` — the diagnostics that a step reports, and whether it
  clears the reporter;
* `Desk.hadError_step`, `Desk.sink_step` — what one step does, told by these two;
* `ReportedSinceClear steps` — one of the steps reported something, and none after it cleared the
  reporter;
* `Desk.after` — the state after a number of steps, with `hadError_after_iff` and `sink_after`.

The main statement is `history_tells`, about the states after every step of a run.
-/

namespace LoxFront

/-! ### One scan -/

/-- **What a reporter knows** after a scan. -/
theorem hadError_reportTo (s : Scanned) (reporter : Reporter) :
    (s.reportTo Reporter.report reporter).hadError = (reporter.hadError || s.hadError) := by
  unfold Scanned.reportTo Scanned.hadError
  induction s.diagnostics generalizing reporter with
  | nil => exact (Bool.or_false _).symm
  | cons d ds ih =>
    -- Once it was told of one, it makes no difference what comes after.
    rw [List.foldl_cons, ih, Reporter.hadError_report, Bool.true_or]
    exact (Bool.or_true _).symm

theorem hadError_eq_false_iff (s : Scanned) : s.hadError = false ↔ s.diagnostics = [] := by
  unfold Scanned.hadError
  rw [Bool.not_eq_false', List.isEmpty_iff]

/-- The line and the message, which is what a sink keeps. -/
def Diagnostic.note (d : Diagnostic) : Nat × String := (d.line, d.message)

/-- **What a sink holds** after a scan. -/
theorem sink_reportTo (s : Scanned) (sink : Sink) :
    s.reportTo Sink.report sink = sink ++ s.diagnostics.map Diagnostic.note := by
  unfold Scanned.reportTo
  induction s.diagnostics generalizing sink with
  | nil => exact (List.append_nil sink).symm
  | cons d ds ih =>
    calc ds.foldl Sink.report (sink ++ [d.note])
        = sink ++ [d.note] ++ ds.map Diagnostic.note := ih _
      _ = sink ++ (d :: ds).map Diagnostic.note := List.append_assoc ..

/-! ### One step -/

namespace ReportStep

/-- The diagnostics that a step reports. -/
def reported : ReportStep → List Diagnostic
  | scan source => (LoxFront.scan source).diagnostics
  | report d => [d]
  | reset => []
  | renew => []

/-- After the step the reporter knows of nothing. -/
def clears : ReportStep → Bool
  | scan _ => false
  | report _ => false
  | reset => true
  | renew => true

end ReportStep

/-- **Something was reported since the reporter was cleared**, or at all if it never was. -/
def ReportedSinceClear (steps : List ReportStep) : Prop :=
  ∃ before s after, steps = before ++ s :: after ∧ s.reported ≠ [] ∧
    ∀ t ∈ after, t.clears = false

namespace Desk

/-- **One step and the reporter**: a step that clears makes it forget, any other one adds what it
reports to what is known. -/
theorem hadError_step (d : Desk) (s : ReportStep) :
    (d.step s).reporter.hadError =
      (!s.clears && (d.reporter.hadError || !s.reported.isEmpty)) := by
  cases s with
  | scan source => exact hadError_reportTo (scan source) d.reporter
  | report diagnostic => exact (Bool.or_true d.reporter.hadError).symm
  | reset => rfl
  | renew => rfl

/-- **One step and the sink**: what the step reports is added at the end. -/
theorem sink_step (d : Desk) (s : ReportStep) :
    (d.step s).sink = d.sink ++ s.reported.map Diagnostic.note := by
  cases s with
  | scan source => exact sink_reportTo (scan source) d.sink
  | report diagnostic => rfl
  | reset => exact (List.append_nil d.sink).symm
  | renew => exact (List.append_nil d.sink).symm

/-! ### Many steps -/

/-- **The state after a number of steps.** -/
def after (d : Desk) (steps : List ReportStep) : Desk := steps.foldl step d

theorem after_concat (d : Desk) (steps : List ReportStep) (s : ReportStep) :
    d.after (steps ++ [s]) = (d.after steps).step s := List.foldl_concat _ _ _ _

/-- The state that is recorded for each step is the one after all steps so far. -/
theorem getElem?_history (d : Desk) (steps : List ReportStep) (k : Nat) :
    (d.history steps)[k]? =
      if k < steps.length then some (d.after (steps.take (k + 1))) else none := by
  induction steps generalizing d k with
  | nil => rfl
  | cons s steps ih =>
    cases k with
    | zero => rfl
    | succ k =>
      rw [history, List.getElem?_cons_succ, ih, List.take_succ_cons, List.length_cons]
      simp only [Nat.add_lt_add_iff_right]
      rfl

theorem length_history (d : Desk) (steps : List ReportStep) :
    (d.history steps).length = steps.length := by
  induction steps generalizing d with
  | nil => rfl
  | cons s steps ih => exact congrArg (· + 1) (ih (d.step s))

theorem sink_after (d : Desk) (steps : List ReportStep) :
    (d.after steps).sink = d.sink ++ (steps.flatMap ReportStep.reported).map Diagnostic.note := by
  induction steps generalizing d with
  | nil => exact (List.append_nil d.sink).symm
  | cons s steps ih =>
    calc ((d.step s).after steps).sink
        = (d.step s).sink ++ (steps.flatMap ReportStep.reported).map Diagnostic.note := ih _
      _ = _ := by rw [sink_step, List.flatMap_cons, List.map_append, List.append_assoc]

end Desk

theorem not_reportedSinceClear_nil : ¬ ReportedSinceClear [] := by
  rintro ⟨before, s, after, h, -⟩
  cases before <;> cases h

/-- **The last step decides**: it must not clear, and either it reports something or something was
reported before it. -/
theorem reportedSinceClear_concat (steps : List ReportStep) (s : ReportStep) :
    ReportedSinceClear (steps ++ [s]) ↔
      s.reported ≠ [] ∨ s.clears = false ∧ ReportedSinceClear steps := by
  constructor
  · rintro ⟨before, t, after, hsteps, ht, hafter⟩
    obtain rfl | ⟨after, last, rfl⟩ := after.eq_nil_or_concat'
    · -- The report is that of the last step.
      obtain ⟨-, hlast⟩ := List.append_inj' hsteps rfl
      obtain rfl := List.singleton_inj.mp hlast
      exact Or.inl ht
    · -- The report is one of an earlier step, so the last one comes after it.
      rw [← List.cons_append, ← List.append_assoc] at hsteps
      obtain ⟨hinit, hlast⟩ := List.append_inj' hsteps rfl
      obtain rfl := List.singleton_inj.mp hlast
      refine Or.inr ⟨hafter s (by simp), before, t, after, hinit, ht, ?_⟩
      exact fun u hu => hafter u (List.mem_append_left _ hu)
  · rintro (hs | ⟨hs, before, t, after, rfl, ht, hafter⟩)
    · exact ⟨steps, s, [], rfl, hs, nofun⟩
    · refine ⟨before, t, after ++ [s], by simp, ht, fun u hu => ?_⟩
      obtain hu | hu := List.mem_append.mp hu
      · exact hafter u hu
      · rw [List.mem_singleton.mp hu]
        exact hs

/-- **What the reporter knows after any steps**: of reports since it was cleared, and of nothing
else. -/
theorem Desk.hadError_after_iff (steps : List ReportStep) :
    (Desk.empty.after steps).reporter.hadError = true ↔ ReportedSinceClear steps := by
  -- By induction on the steps from the last one: it is the last step that may clear.
  induction steps using List.reverseRecOn with
  | nil => exact iff_of_false Bool.false_ne_true not_reportedSinceClear_nil
  | append_singleton steps s ih =>
    rw [after_concat, hadError_step, reportedSinceClear_concat, ← ih]
    cases s <;> simp [ReportStep.clears, ReportStep.reported, or_comm]

/-- **A run of reports.** After each step the reporter had an error if and only if something was
reported since it was reset or replaced last, and the sink holds the line and the message of each
diagnostic reported so far, in order and whatever was reset. In any state a scan makes the reporter
know of an error just if it knew of one or the scan had one. -/
theorem history_tells (steps : List ReportStep) :
    (Desk.empty.history steps).length = steps.length ∧
      (∀ k desk, (Desk.empty.history steps)[k]? = some desk →
        (desk.reporter.hadError = true ↔ ReportedSinceClear (steps.take (k + 1))) ∧
        desk.sink = ((steps.take (k + 1)).flatMap ReportStep.reported).map Diagnostic.note) ∧
      ∀ (desk : Desk) (source : String),
        (desk.step (.scan source)).reporter.hadError =
          (desk.reporter.hadError || (scan source).hadError) := by
  refine ⟨Desk.length_history _ steps, ?_, ?_⟩
  · intro k desk hdesk
    rw [Desk.getElem?_history] at hdesk
    split at hdesk
    · obtain rfl := Option.some.inj hdesk
      exact ⟨Desk.hadError_after_iff _, Desk.sink_after Desk.empty _⟩
    · cases hdesk
  · intro desk source
    exact hadError_reportTo (scan source) desk.reporter

/-- A fault, a reset, and a scan without faults: the reporter has forgotten, the sink has not. -/
theorem history_tells_reset :
    (Desk.empty.history [.scan "@", .reset, .scan "1"])[2]? =
        some ⟨⟨false⟩, [(1, "Unexpected character.")]⟩ ∧
      ¬ ReportedSinceClear [.scan "@", .reset, .scan "1"] := by
  have hdesk : (Desk.empty.history [.scan "@", .reset, .scan "1"])[2]? =
      some ⟨⟨false⟩, [(1, "Unexpected character.")]⟩ := by decide +kernel
  obtain ⟨hknows, -⟩ := (history_tells _).2.1 2 _ hdesk
  exact ⟨hdesk, fun h => Bool.false_ne_true (hknows.mpr h)⟩

end LoxFront

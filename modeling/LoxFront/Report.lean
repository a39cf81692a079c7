import LoxFront.Scan

/-!
# Reporting diagnostics

A scan hands its diagnostics, one after another, to whatever takes them
(`Scanned.reportTo`). Two takers are defined here:

* a `Reporter` remembers only whether it was told of anything since it was last reset;
* a `Sink` keeps the line and the message of everything.

`Desk` runs both side by side over a list of `ReportStep`s.
-/

namespace LoxFront

/-- Hands the diagnostics of a scan, in order, to a taker with state `σ`. -/
def Scanned.reportTo {σ : Type} (s : Scanned) (report : σ → Diagnostic → σ)
    (state : σ) : σ :=
  s.diagnostics.foldl report state

/-- A flag: was anything reported since the last reset? -/
structure Reporter where
  hadError : Bool
deriving DecidableEq, Repr

namespace Reporter

/-- A reporter that was told of nothing. -/
def quiet : Reporter := ⟨false⟩

def report (_ : Reporter) (_ : Diagnostic) : Reporter := ⟨true⟩

def reset (_ : Reporter) : Reporter := quiet

@[simp] theorem hadError_quiet : quiet.hadError = false := rfl

@[simp] theorem hadError_report (r : Reporter) (d : Diagnostic) : (r.report d).hadError = true :=
  rfl

@[simp] theorem hadError_reset (r : Reporter) : r.reset.hadError = false := rfl

end Reporter

/-- The lines and messages of all that was reported, in order. -/
abbrev Sink := List (Nat × String)

def Sink.report (s : Sink) (d : Diagnostic) : Sink := s ++ [(d.line, d.message)]

/-- What can happen at a `Desk`. -/
inductive ReportStep where
  /-- A source is scanned, and all its diagnostics are reported to both takers. -/
  | scan (source : String)
  /-- One diagnostic is reported to both takers. -/
  | report (d : Diagnostic)
  /-- The reporter is reset. -/
  | reset
  /-- The reporter is replaced by a fresh one. -/
  | renew

/-- A reporter and a sink that are told of the same diagnostics. -/
structure Desk where
  reporter : Reporter
  sink : Sink
deriving DecidableEq, Repr

namespace Desk

def empty : Desk := ⟨.quiet, []⟩

/-- Only reports reach the sink; a reset and a new reporter leave it alone. -/
def step (d : Desk) : ReportStep → Desk
  | .scan source =>
    let scanned := LoxFront.scan source
    ⟨scanned.reportTo Reporter.report d.reporter, scanned.reportTo Sink.report d.sink⟩
  | .report diagnostic => ⟨d.reporter.report diagnostic, d.sink.report diagnostic⟩
  | .reset => ⟨d.reporter.reset, d.sink⟩
  | .renew => ⟨.quiet, d.sink⟩

/-- The state after each step. -/
def history : Desk → List ReportStep → List Desk
  | _, [] => []
  | d, s :: steps => d.step s :: (d.step s).history steps

end Desk

end LoxFront

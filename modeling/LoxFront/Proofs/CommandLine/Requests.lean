import LoxFront.CommandLine.Options
import Mathlib.Data.List.Basic

/-!
# Requests to be more verbose

A command line says what is to be done, and it may ask for more to be logged, as often as it likes
and in several places. The two do not meet while it is read.

* `Understood args n i` — the arguments are understood as `i`, and `n` requests to be more verbose
  are among them, before the command or after it;
* `CommandLine.Reading.louder` — a reading with more such requests before the command. Every step
  of reading does the same with it (`step_louder`), so the arguments after the requests are read as
  they would be without them (`foldlM_louder`);
* `Understood.replicate_append` — a command line with more requests in front is understood as the
  same command;
* `Understood.verbosity_eq_zero_iff`, `Understood.verbosity_eq_one` — what the number of requests
  says about the verbosity, wherever they stand.
-/

namespace LoxFront

/-- **A command line that is understood** as the invocation `i`, with `n` requests to be more
verbose among its arguments. -/
def Understood (args : List String) (n : Nat) (i : Invocation) : Prop :=
  ∃ r, args.foldlM CommandLine.Reading.step .start = .ok r ∧ r.before + r.after = n ∧
    r.finish = .ok i

theorem ofArgs_eq_ok_iff {args : List String} {i : Invocation} :
    Invocation.ofArgs args = .ok i ↔ ∃ n, Understood args n i := by
  unfold Invocation.ofArgs Understood
  cases args.foldlM CommandLine.Reading.step .start with
  | error e =>
    refine iff_of_false ?_ ?_
    · intro h
      cases h
    · rintro ⟨n, r, hr, -⟩
      cases hr
  | ok r =>
    constructor
    · intro h
      exact ⟨_, r, rfl, rfl, h⟩
    · rintro ⟨n, r', hr, -, h⟩
      obtain rfl := Except.ok.inj hr
      exact h

namespace CommandLine.Reading

/-- A reading with `n` more requests before the command. -/
def louder (n : Nat) (r : Reading) : Reading := { r with before := r.before + n }

section Louder

variable (n : Nat) (r : Reading) (verb : Verb)

/-! ### Reading is the same with more requests -/

theorem setFormat_louder (value : String) :
    (r.louder n).setFormat verb value = (r.setFormat verb value).map (louder n) := by
  obtain ⟨stage, before, after, format, file⟩ := r
  unfold setFormat louder
  cases format <;> cases Format.ofName? value <;> rfl

theorem addOperand_louder (arg : String) :
    (r.louder n).addOperand verb arg = (r.addOperand verb arg).map (louder n) := by
  obtain ⟨stage, before, after, format, file⟩ := r
  unfold addOperand louder
  cases verb <;> cases file <;> try rfl
  -- The first operand of a scan is its file, unless it is empty.
  by_cases harg : arg = ""
  · simp only [if_pos harg]
    rfl
  · simp only [if_neg harg]
    rfl

theorem addOption_louder (arg : String) (rest : List Char) :
    (r.louder n).addOption verb arg rest = (r.addOption verb arg rest).map (louder n) := by
  unfold addOption
  dsimp only
  -- Which option it is does not depend on the reading.
  split
  · rfl
  split
  · rfl
  split
  · exact setFormat_louder n r verb _
  split
  · rfl
  · split
    · rfl
    · split
      · rfl
      · exact setFormat_louder n { r with after := r.after + _ } verb _
      · exact setFormat_louder n { r with after := r.after + _ } verb _
  · rfl

/-- **One argument** is read in the same way. -/
theorem step_louder (arg : String) : (r.louder n).step arg = (r.step arg).map (louder n) := by
  obtain ⟨stage, before, after, format, file⟩ := r
  unfold step louder
  dsimp only
  split
  · -- A request of the same kind is one more, after the others as before them.
    split
    · rw [Nat.add_right_comm]
      rfl
    · split
      · rw [Nat.add_right_comm]
        rfl
      · rfl
  · cases Verb.ofName? arg <;> rfl
  · rfl
  · exact addOption_louder n ⟨_, before, after, format, file⟩ _ arg _
  · exact addOperand_louder n ⟨_, before, after, format, file⟩ _ arg
  · exact setFormat_louder n ⟨_, before, after, format, file⟩ _ arg
  · exact addOperand_louder n ⟨_, before, after, format, file⟩ _ arg

/-- **All arguments** are read in the same way. -/
theorem foldlM_louder (args : List String) :
    args.foldlM step (r.louder n) = (args.foldlM step r).map (louder n) := by
  induction args generalizing r with
  | nil => rfl
  | cons arg args ih =>
    rw [List.foldlM_cons, List.foldlM_cons, step_louder]
    cases r.step arg with
    | error e => rfl
    | ok r' => exact ih r'

end Louder

/-- The requests in front are only counted. -/
theorem foldlM_replicate (n : Nat) {r : Reading} (h : r.stage = .start) :
    (List.replicate n "-v").foldlM step r = .ok (r.louder n) := by
  induction n generalizing r with
  | zero => rfl
  | succ n ih =>
    have hstep : r.step "-v" = .ok (r.louder 1) := by
      obtain ⟨stage, before, after, format, file⟩ := r
      obtain rfl : stage = .start := h
      rfl
    have hmore : (r.louder 1).louder n = r.louder (n + 1) := by
      unfold louder
      rw [Nat.add_assoc, Nat.add_comm 1]
    rw [List.replicate_succ, List.foldlM_cons, hstep, ← hmore]
    exact ih h

/-- **What is asked for** is settled without the requests, and they settle the verbosity: those
after the command, or if there are none, those before it. -/
theorem finish_cases (r : Reading) :
    (∃ e, ∀ n, (r.louder n).finish = .error e) ∨
      ∃ c, ∀ n, (r.louder n).finish = .ok ⟨if r.after = 0 then r.before + n else r.after, c⟩ := by
  obtain ⟨stage, before, after, format, file⟩ := r
  cases stage with
  | start => exact Or.inl ⟨.noCommand, fun n => rfl⟩
  | format verb => exact Or.inl ⟨.noFormat, fun n => rfl⟩
  | command verb | operands verb =>
    -- The command is complete once its name was read, and for a scan its file.
    cases verb with
    | scan =>
      cases file with
      | none => exact Or.inl ⟨.noFile, fun n => rfl⟩
      | some file => exact Or.inr ⟨.scan file (format.getD .tokens), fun n => rfl⟩
    | repl => exact Or.inr ⟨.repl (format.getD .tokens), fun n => rfl⟩
    | sample => exact Or.inr ⟨.sample, fun n => rfl⟩

end CommandLine.Reading

open CommandLine

namespace Understood

variable {args : List String} {n : Nat} {i : Invocation}

/-- The verbosity is among the numbers of requests before the command and after it. -/
theorem exists_verbosity_eq (h : Understood args n i) :
    ∃ before after, before + after = n ∧ i.verbosity = if after = 0 then before else after := by
  obtain ⟨r, -, hcount, hfinish⟩ := h
  refine ⟨r.before, r.after, hcount, ?_⟩
  obtain ⟨e, he⟩ | ⟨c, hc⟩ := r.finish_cases
  · cases hfinish.symm.trans (he 0)
  · obtain rfl := Except.ok.inj (hfinish.symm.trans (hc 0))
    rfl

theorem verbosity_eq_zero_iff (h : Understood args n i) : i.verbosity = 0 ↔ n = 0 := by
  obtain ⟨before, after, hcount, hverbosity⟩ := h.exists_verbosity_eq
  split at hverbosity <;> omega

theorem verbosity_eq_one (h : Understood args 1 i) : i.verbosity = 1 := by
  obtain ⟨before, after, hcount, hverbosity⟩ := h.exists_verbosity_eq
  split at hverbosity <;> omega

/-- **More requests in front** ask for the same command. -/
theorem replicate_append (h : Understood args n i) (k : Nat) :
    ∃ more, Understood (List.replicate k "-v" ++ args) (n + k) more ∧ more.command = i.command := by
  obtain ⟨r, hread, hcount, hfinish⟩ := h
  have hlouder : (List.replicate k "-v" ++ args).foldlM Reading.step .start = .ok (r.louder k) := by
    rw [List.foldlM_append, Reading.foldlM_replicate k rfl]
    change args.foldlM Reading.step (Reading.start.louder k) = _
    rw [Reading.foldlM_louder, hread]
    rfl
  have hmore : (r.louder k).before + (r.louder k).after = n + k := by
    rw [← hcount]
    exact Nat.add_right_comm r.before k r.after
  obtain ⟨e, he⟩ | ⟨c, hc⟩ := r.finish_cases
  · cases hfinish.symm.trans (he 0)
  · obtain rfl := Except.ok.inj (hfinish.symm.trans (hc 0))
    exact ⟨_, ⟨_, hlouder, hmore, hc k⟩, rfl⟩

end Understood

end LoxFront

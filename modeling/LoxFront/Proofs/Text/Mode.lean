/-!
# Code, strings and comments

Which part of a source is code, which stands inside a string and which in a comment, is settled by
one pass over the characters from left to right. The pass knows nothing of tokens.

* `Mode.step` — one character of the pass;
* `Mode.after` — the mode in which a text ends;
* `Mode.uncomment` — a text without its comments;
* `Mode.Passes` — a stretch of the pass: where it leads, and what of the text it keeps. Stretches
  are put together by `Passes.trans`, from single characters and from runs on which the mode stays.
-/

namespace LoxFront.Text

/-- **Where a pass stands**: in code, inside a string, or inside a comment. -/
inductive Mode where
  | code | string | comment
deriving DecidableEq, Repr

namespace Mode

/-- **One character of the pass**, given the character ahead. A quote opens a string and closes it,
two slashes in code open a comment and a line feed closes it. -/
def step (mode : Mode) (c : Char) (ahead : Option Char) : Mode :=
  match mode with
  | code =>
    if c = '"' then string
    else if c = '/' ∧ ahead = some '/' then comment
    else code
  | string => if c = '"' then code else string
  | comment => if c = '\n' then code else comment

/-- **The mode in which a text ends.** -/
def after : Mode → List Char → Mode
  | mode, [] => mode
  | mode, c :: cs => (mode.step c cs.head?).after cs

/-- **A text without its comments.** A comment begins with its slashes and ends before the line
feed. -/
def uncomment : Mode → List Char → List Char
  | _, [] => []
  | mode, c :: cs =>
    match mode.step c cs.head? with
    | comment => comment.uncomment cs
    | mode' => c :: mode'.uncomment cs

/-! ### One character -/

theorem step_code {c : Char} (hquote : c ≠ '"') (hslash : c ≠ '/') (ahead : Option Char) :
    code.step c ahead = code := by
  unfold step
  rw [if_neg hquote, if_neg fun h => hslash h.1]

/-- A slash alone is code. -/
theorem step_slash {ahead : Option Char} (h : ahead ≠ some '/') : code.step '/' ahead = code := by
  unfold step
  rw [if_neg (by decide), if_neg fun hahead => h hahead.2]

theorem step_string {c : Char} (h : c ≠ '"') (ahead : Option Char) :
    string.step c ahead = string := if_neg h

theorem step_comment {c : Char} (h : c ≠ '\n') (ahead : Option Char) :
    comment.step c ahead = comment := if_neg h

theorem uncomment_cons_of_ne {mode mode' : Mode} {c : Char} {cs : List Char}
    (h : mode.step c cs.head? = mode') (hne : mode' ≠ comment) :
    mode.uncomment (c :: cs) = c :: mode'.uncomment cs := by
  rw [uncomment, h]
  cases mode' with
  | comment => exact absurd rfl hne
  | _ => rfl

theorem uncomment_cons_of_eq {mode : Mode} {c : Char} {cs : List Char}
    (h : mode.step c cs.head? = comment) :
    mode.uncomment (c :: cs) = comment.uncomment cs := by
  rw [uncomment, h]

/-- Behind a comment stands a line feed, or nothing. -/
theorem uncomment_comment (cs : List Char) :
    comment.uncomment cs = [] ∨ ∃ rest, comment.uncomment cs = '\n' :: rest := by
  induction cs with
  | nil => exact Or.inl rfl
  | cons c cs ih =>
    by_cases hc : c = '\n'
    · subst hc
      exact Or.inr ⟨_, rfl⟩
    · rw [uncomment_cons_of_eq (step_comment hc _)]
      exact ih

/-! ### Stretches -/

/-- **A stretch of the pass.** Over `text`, with `rest` behind it, the pass goes from `mode` to
`mode'` and keeps `kept`. -/
structure Passes (mode : Mode) (text rest : List Char) (mode' : Mode) (kept : List Char) :
    Prop where
  after_eq : mode.after (text ++ rest) = mode'.after rest
  uncomment_eq : mode.uncomment (text ++ rest) = kept ++ mode'.uncomment rest

namespace Passes

variable {mode mode' mode'' : Mode} {text text' rest kept kept' : List Char} {c : Char}

theorem nil (mode : Mode) (rest : List Char) : Passes mode [] rest mode [] := ⟨rfl, rfl⟩

theorem trans (h : Passes mode text (text' ++ rest) mode' kept)
    (h' : Passes mode' text' rest mode'' kept') :
    Passes mode (text ++ text') rest mode'' (kept ++ kept') where
  after_eq := by rw [List.append_assoc, h.after_eq, h'.after_eq]
  uncomment_eq := by rw [List.append_assoc, h.uncomment_eq, h'.uncomment_eq, List.append_assoc]

/-- A character outside comments is kept. -/
theorem keep (h : mode.step c rest.head? = mode') (hne : mode' ≠ comment) :
    Passes mode [c] rest mode' [c] where
  after_eq := congrArg (fun m => after m rest) h
  uncomment_eq := uncomment_cons_of_ne h hne

/-- A character of a comment is dropped. -/
theorem drop (h : mode.step c rest.head? = comment) : Passes mode [c] rest comment [] where
  after_eq := congrArg (fun m => after m rest) h
  uncomment_eq := uncomment_cons_of_eq h

/-- **A run on which the mode stays**, outside comments. -/
theorem keep_run (hne : mode ≠ comment) {run : List Char}
    (h : ∀ c ∈ run, ∀ ahead, mode.step c ahead = mode) : Passes mode run rest mode run := by
  induction run with
  | nil => exact nil mode rest
  | cons c cs ih =>
    -- One character, whatever is ahead of it, and the others of the run.
    have hc : Passes mode [c] (cs ++ rest) mode [c] := keep (h c List.mem_cons_self _) hne
    have hcs : Passes mode cs rest mode cs := by
      apply ih
      intro d hd
      exact h d (List.mem_cons_of_mem c hd)
    exact hc.trans hcs

/-- A run without a line feed, inside a comment. -/
theorem drop_run {run : List Char} (h : '\n' ∉ run) : Passes comment run rest comment [] := by
  induction run with
  | nil => exact nil comment rest
  | cons c cs ih =>
    rw [List.mem_cons, not_or] at h
    have hc : Passes comment [c] (cs ++ rest) comment [] := drop (step_comment (Ne.symm h.1) _)
    exact hc.trans (ih h.2)

end Passes

end Mode

end LoxFront.Text

import LoxFront.Cursor
import LoxFront.Log

/-!
# Scanning in place, with the log

A scan writes its records in two places. A fault is logged deep in the scanner, where it is found
and before the call that found it has answered; a token is logged by the loop that asks for the
items, once it has the answer. Here a `Cursor` scans as it does without a log, and the records are
kept in the order in which they are written.

* `Cursor.faultLogged` is the one place in the scanner where a record is written; the functions
  above it up to `Cursor.nextLogged?` hand it on.
* `Cursor.scanLogged` is the loop of a scan, which ends because each answer leaves less to be done
  (`remaining_lt_of_next?`).
* `Cursor.withRecords` says what is written in terms of the answer alone: the record of the fault,
  if it is one. That holds of every function here (`nextLogged?_eq`).
-/

namespace LoxFront

namespace Cursor

open Checked

/-- The answer of an operation, and the records that were written on the way to it. -/
abbrev LoggedAnswer : Type := Checked ((Option Item × Cursor) × List Record)

/-- An operation that writes nothing. -/
def silently (x : Checked (Option Item × Cursor)) : LoggedAnswer := do
  return (← x, [])

/-! ### Where records are written -/

/-- **A fault is logged** where it is found: the line, the message, and the text read since the
segment began. -/
def faultLogged (t : Threshold) (c : Cursor) (f : Fault) : LoggedAnswer := do
  let lexeme ← c.lexeme
  return ((some (.fault ⟨c.line, f⟩ lexeme), c),
    t.emit .debug .scanner fun _ =>
      "line " ++ toString c.line ++ ": " ++ f.message ++ " (" ++ Text.quote lexeme ++ ")")

/-- The string whose opening quote was read. -/
def scanStringLogged (t : Threshold) (c : Cursor) : LoggedAnswer := do
  let c ← c.eatRun (· != '"') true
  if c.isAtEnd then c.faultLogged t .unterminatedString
  else silently do
    let c ← c.skip 1
    let lexeme ← c.lexeme
    let value ← Checked.slice lexeme 1 (← Checked.sub lexeme.utf8ByteSize 1)
    return (some (.token (.string lexeme value c.startLine)), c)

/-- The segment whose first character, `ch`, was read. -/
def scanFromLogged (t : Threshold) (c : Cursor) (ch : Char) : LoggedAnswer :=
  if ch = '\n' then silently do return (none, ← c.nextLine)
  else if isBlank ch then silently (.ok (none, c))
  else if ch = '"' then c.scanStringLogged t
  else if ch.isDigit then silently c.scanNumber
  else if isWordStart ch then silently c.scanWord
  else match Operator.ofChar? ch with
    | some op => silently (c.scanOperator op)
    | none => c.faultLogged t (.unexpectedCharacter ch)

/-- **One segment**, with its records. -/
def scanSegmentLogged (t : Threshold) (c : Cursor) : LoggedAnswer := do
  match ← c.advance with
  | (none, c) => silently (.ok (none, c))
  | (some ch, c) => c.scanFromLogged t ch

/-! ### What is written for an answer -/

/-- The record of a fault; no other answer has one when it is given. -/
def faultRecords (t : Threshold) : Option Item → List Record
  | some (.fault d lexeme) => (Item.fault d lexeme).log t
  | some (.token _) => []
  | none => []

/-- An operation of the scanner, with the record of its answer. -/
def withRecords (t : Threshold) (x : Checked (Option Item × Cursor)) :
    LoggedAnswer :=
  x >>= fun result => .ok (result, faultRecords t result.1)

section WithRecords

variable {t : Threshold} {c c' : Cursor} {answer : Option Item} {records : List Record}

theorem withRecords_eq_ok_iff {x : Checked (Option Item × Cursor)} :
    withRecords t x = .ok ((answer, c'), records) ↔
      x = .ok (answer, c') ∧ records = faultRecords t answer := by
  cases x with
  | error e => exact iff_of_false nofun fun h => nomatch h.1
  | ok result =>
    constructor
    · intro h
      obtain ⟨rfl, rfl⟩ := Prod.mk.inj (Except.ok.inj h)
      exact ⟨rfl, rfl⟩
    · rintro ⟨hresult, rfl⟩
      obtain rfl := Except.ok.inj hresult
      rfl

theorem bind_withRecords {α : Type} (x : Checked α) (f : α → Checked (Option Item × Cursor)) :
    (x >>= fun a => withRecords t (f a)) = withRecords t (x >>= f) :=
  (bind_assoc x f _).symm

/-- What answers no fault may as well be silent. -/
theorem silently_eq {x : Checked (Option Item × Cursor)}
    (h : ∀ answer c', x = .ok (answer, c') → faultRecords t answer = []) :
    silently x = withRecords t x := by
  cases x with
  | error e => rfl
  | ok result =>
    change Except.ok (result, []) = Except.ok (result, faultRecords t result.1)
    rw [h result.1 result.2 rfl]

theorem faultLogged_eq (f : Fault) : c.faultLogged t f = withRecords t (c.fault f) := by
  unfold faultLogged fault
  rw [← bind_withRecords]
  rfl

theorem faultRecords_of_token {kind : Kind} (h : c.token kind = .ok (answer, c')) :
    faultRecords t answer = [] := by
  obtain ⟨lexeme, -, h⟩ := bind_eq_ok_iff.1 h
  split at h
  · obtain ⟨rfl, -⟩ := Prod.mk.inj (Except.ok.inj h)
    rfl
  · cases h

theorem scanStringLogged_eq : c.scanStringLogged t = withRecords t c.scanString := by
  unfold scanStringLogged scanString
  rw [← bind_withRecords]
  refine bind_congr fun d => ?_
  split
  · exact faultLogged_eq _
  · -- A string that is closed is a token.
    refine silently_eq fun answer c' h => ?_
    obtain ⟨e, -, h⟩ := bind_eq_ok_iff.1 h
    obtain ⟨lexeme, -, h⟩ := bind_eq_ok_iff.1 h
    obtain ⟨last, -, h⟩ := bind_eq_ok_iff.1 h
    obtain ⟨value, -, h⟩ := bind_eq_ok_iff.1 h
    obtain ⟨rfl, -⟩ := Prod.mk.inj (Except.ok.inj h)
    rfl

theorem faultRecords_of_scanNumber (h : c.scanNumber = .ok (answer, c')) :
    faultRecords t answer = [] := by
  obtain ⟨d, -, h⟩ := bind_eq_ok_iff.1 h
  obtain ⟨e, -, h⟩ := bind_eq_ok_iff.1 h
  obtain ⟨lexeme, -, h⟩ := bind_eq_ok_iff.1 h
  split at h
  · obtain ⟨rfl, -⟩ := Prod.mk.inj (Except.ok.inj h)
    rfl
  · cases h

theorem faultRecords_of_scanWord (h : c.scanWord = .ok (answer, c')) :
    faultRecords t answer = [] := by
  obtain ⟨d, -, h⟩ := bind_eq_ok_iff.1 h
  obtain ⟨lexeme, -, h⟩ := bind_eq_ok_iff.1 h
  exact faultRecords_of_token h

theorem faultRecords_of_scanOperator {op : Operator} (h : c.scanOperator op = .ok (answer, c')) :
    faultRecords t answer = [] := by
  unfold scanOperator at h
  split at h
  · obtain ⟨⟨isComment, d⟩, -, h⟩ := bind_eq_ok_iff.1 h
    dsimp only at h
    split at h
    · obtain ⟨e, -, h⟩ := bind_eq_ok_iff.1 h
      obtain ⟨rfl, -⟩ := Prod.mk.inj (Except.ok.inj h)
      rfl
    · exact faultRecords_of_token h
  · obtain ⟨⟨isWide, d⟩, -, h⟩ := bind_eq_ok_iff.1 h
    exact faultRecords_of_token h
  · exact faultRecords_of_token h

theorem scanFromLogged_eq (ch : Char) :
    c.scanFromLogged t ch = withRecords t (c.scanFrom ch) := by
  unfold scanFromLogged scanFrom
  split
  · refine silently_eq fun answer c' h => ?_
    obtain ⟨d, -, h⟩ := bind_eq_ok_iff.1 h
    obtain ⟨rfl, -⟩ := Prod.mk.inj (Except.ok.inj h)
    rfl
  split
  · rfl
  split
  · exact scanStringLogged_eq
  split
  · exact silently_eq fun _ _ => faultRecords_of_scanNumber
  split
  · exact silently_eq fun _ _ => faultRecords_of_scanWord
  cases Operator.ofChar? ch with
  | some op => exact silently_eq fun _ _ => faultRecords_of_scanOperator
  | none => exact faultLogged_eq _

theorem scanSegmentLogged_eq : c.scanSegmentLogged t = withRecords t c.scanSegment := by
  unfold scanSegmentLogged scanSegment
  rw [← bind_withRecords]
  refine bind_congr fun result => ?_
  obtain ⟨ahead, d⟩ := result
  cases ahead with
  | none => rfl
  | some ch => exact scanFromLogged_eq ch

end WithRecords

/-! ### Calls -/

/-- **The next item**, with the records that were written before it was answered. -/
def nextLogged? (t : Threshold) (c : Cursor) : LoggedAnswer :=
  if c.done then silently (.ok (none, c))
  else if _hend : c.isAtEnd then
    silently (.ok (some (.token (.eof c.line)), { c with done := true }))
  else match _hscan : c.mark.scanSegmentLogged t with
    | .error e => .error e
    | .ok ((some item, c'), records) => .ok ((some item, c'), records)
    | .ok ((none, c'), records) =>
      c'.nextLogged? t >>= fun (result, more) => .ok (result, records ++ more)
termination_by c.source.utf8ByteSize - c.current
decreasing_by
  rw [Bool.not_eq_true] at _hend
  rw [scanSegmentLogged_eq] at _hscan
  obtain ⟨hsource, hlt⟩ := lt_of_scanSegment (withRecords_eq_ok_iff.mp _hscan).1 _hend
  have hsize := of_decide_eq_false _hend
  change c'.source = c.source at hsource
  change c.current < c'.current at hlt
  rw [hsource]
  omega

/-- **A call writes** the record of the fault that it answers, and nothing else. -/
theorem nextLogged?_eq (t : Threshold) (c : Cursor) :
    c.nextLogged? t = withRecords t c.next? := by
  induction c using next?.induct with
  | case1 c hdone =>
    rw [nextLogged?, next?, if_pos hdone, if_pos hdone]
    rfl
  | case2 c hdone hend =>
    rw [nextLogged?, next?, if_neg hdone, if_neg hdone, dif_pos hend, dif_pos hend]
    rfl
  | case3 c hdone hend e hscan =>
    have hlogged : c.mark.scanSegmentLogged t = .error e := by
      rw [scanSegmentLogged_eq, hscan]
      rfl
    rw [nextLogged?, next?, if_neg hdone, if_neg hdone, dif_neg hend, dif_neg hend, hscan, hlogged]
    rfl
  | case4 c hdone hend item c' hscan =>
    have hlogged : c.mark.scanSegmentLogged t =
        .ok ((some item, c'), faultRecords t (some item)) := by
      rw [scanSegmentLogged_eq, hscan]
      rfl
    rw [nextLogged?, next?, if_neg hdone, if_neg hdone, dif_neg hend, dif_neg hend, hscan, hlogged]
    rfl
  | case5 c hdone hend c' hscan ih =>
    -- A segment that yields nothing writes nothing, so what is written is what the rest writes.
    have hlogged : c.mark.scanSegmentLogged t = .ok ((none, c'), []) := by
      rw [scanSegmentLogged_eq, hscan]
      rfl
    rw [nextLogged?, next?, if_neg hdone, if_neg hdone, dif_neg hend, dif_neg hend, hscan, hlogged]
    dsimp only
    rw [ih]
    cases c'.next? <;> rfl

/-! ### The loop of a scan -/

/-- How much there is still to be done: the bytes ahead, and the mark of the end. -/
def remaining (c : Cursor) : Nat :=
  c.source.utf8ByteSize - c.current + if c.done then 0 else 1

/-- **Each answer leaves less to be done.** -/
theorem remaining_lt_of_next? {c c' : Cursor} {item : Item}
    (h : c.next? = .ok (some item, c')) : c'.remaining < c.remaining := by
  -- Moving over a segment makes the offset rise, whatever else changes.
  have hsegment {c c' : Cursor} {answer : Option Item} (hdone : ¬ c.done = true)
      (hend : ¬ c.isAtEnd = true) (hscan : c.mark.scanSegment = .ok (answer, c')) :
      c'.remaining < c.remaining := by
    rw [Bool.not_eq_true] at hdone hend
    obtain ⟨hsource, hlt⟩ := lt_of_scanSegment hscan hend
    have hsize := of_decide_eq_false hend
    change c'.source = c.source at hsource
    change c.current < c'.current at hlt
    unfold remaining
    rw [hsource, hdone]
    split <;> simp <;> omega
  induction c using next?.induct with
  | case1 c hdone =>
    rw [next?, if_pos hdone] at h
    cases h
  | case2 c hdone hend =>
    rw [next?, if_neg hdone, dif_pos hend] at h
    obtain ⟨-, rfl⟩ := Prod.mk.inj (Except.ok.inj h)
    -- At the end nothing is ahead, and the mark is what was left.
    unfold remaining
    simp [hdone]
  | case3 c hdone hend e hscan =>
    rw [next?, if_neg hdone, dif_neg hend, hscan] at h
    cases h
  | case4 c hdone hend item c' hscan =>
    rw [next?, if_neg hdone, dif_neg hend, hscan] at h
    obtain ⟨-, rfl⟩ := Prod.mk.inj (Except.ok.inj h)
    exact hsegment hdone hend hscan
  | case5 c hdone hend c' hscan ih =>
    rw [next?, if_neg hdone, dif_neg hend, hscan] at h
    exact Nat.lt_trans (ih h) (hsegment hdone hend hscan)

/-- **A scan**: the items are asked for until there are no more. A token is logged when it is there,
and the counts at the end; what was found and written so far is handed on. -/
def scanLogged (t : Threshold) (c : Cursor) (found : Scanned) (written : List Record) :
    Checked (Scanned × List Record) :=
  match _hnext : c.nextLogged? t with
  | .error e => .error e
  | .ok ((none, _), records) =>
    .ok (found, written ++ records
      ++ t.emit .debug .scanner fun _ => "scanned " ++ found.summary)
  | .ok ((some (.token token), c'), records) =>
    c'.scanLogged t { found with tokens := found.tokens ++ [token] }
      (written ++ records ++ t.emit .trace .scanner fun _ => token.display)
  | .ok ((some (.fault d _), c'), records) =>
    c'.scanLogged t { found with diagnostics := found.diagnostics ++ [d] } (written ++ records)
termination_by c.remaining
decreasing_by
  all_goals
    rw [nextLogged?_eq] at _hnext
    exact remaining_lt_of_next? (withRecords_eq_ok_iff.mp _hnext).1

end Cursor

end LoxFront

import LoxFront.Checked
import LoxFront.Item

/-!
# Scanning in place

A `Cursor` scans a source without taking it apart: it keeps the whole source, two byte offsets
and two line numbers, and sees the text only through slices of the source. Everything it does
is checked (`Checked`): each offset and each line it computes must fit a machine word, each
slice must lie between characters, a token without a literal must be of a kind that has none,
and the text of a number must be a numeral.

* `Cursor.peek` and `Cursor.peekNext` look at the text ahead, `Cursor.advance`, `Cursor.eat`
  and `Cursor.eatRun` move over it.
* `Cursor.scanSegment` moves over one segment, `Cursor.next?` goes on to the next item.
* `Cursor.Reaches` is what all of them have in common: the source stays and the offset
  does not fall. A segment makes it rise (`lt_of_scanSegment`), which is why `Cursor.next?`
  ends.
-/

namespace LoxFront

structure Cursor where
  source : String
  /-- The byte offset where the segment that is read begins. -/
  start : Nat
  /-- The byte offset where the text still unread begins. -/
  current : Nat
  /-- The line of the text still unread. -/
  line : Nat
  /-- The line where the segment that is read begins. -/
  startLine : Nat
  /-- Set once the mark of the end was yielded. -/
  done : Bool
deriving DecidableEq

namespace Cursor

/-- The beginning of a source. -/
def ofSource (source : String) : Cursor := ⟨source, 0, 0, 1, 1, false⟩

/-! ### Looking ahead -/

def isAtEnd (c : Cursor) : Bool := c.source.utf8ByteSize ≤ c.current

/-- The text still unread. -/
def rest (c : Cursor) : Checked String :=
  Checked.slice c.source c.current c.source.utf8ByteSize

/-- The text read since the segment began. -/
def lexeme (c : Cursor) : Checked String := Checked.slice c.source c.start c.current

/-- The next character, if there is one. -/
def peek (c : Cursor) : Checked (Option Char) := do
  return (← c.rest).toList.head?

/-- The character after the next one, if there is one. -/
def peekNext (c : Cursor) : Checked (Option Char) := do
  return (← c.rest).toList[1]?

/-! ### Moving -/

/-- Moves over a number of bytes. -/
def skip (c : Cursor) (bytes : Nat) : Checked Cursor := do
  return { c with current := ← Checked.add c.current bytes }

def nextLine (c : Cursor) : Checked Cursor := do
  return { c with line := ← Checked.add c.line 1 }

/-- Moves over the next character and answers it. -/
def advance (c : Cursor) : Checked (Option Char × Cursor) := do
  match ← c.peek with
  | none => return (none, c)
  | some ch => return (some ch, ← c.skip ch.utf8Size)

/-- Moves over the next character if it is the one expected. -/
def eat (c : Cursor) (expected : Char) : Checked (Bool × Cursor) := do
  if (← c.peek) = some expected then return (true, ← c.skip expected.utf8Size)
  else return (false, c)

/-- Moves over a character, and to the next line if lines are counted and the character ends
one. -/
def pass (c : Cursor) (counting : Bool) (ch : Char) : Checked Cursor :=
  (if counting && ch == '\n' then c.nextLine else .ok c) >>= fun c => c.skip ch.utf8Size

/-! ### How far a cursor moves -/

/-- **One cursor reaches another**: the source is the same and the offset has not fallen. -/
def Reaches (c c' : Cursor) : Prop := c'.source = c.source ∧ c.current ≤ c'.current

theorem Reaches.refl (c : Cursor) : c.Reaches c := ⟨rfl, Nat.le_refl _⟩

theorem Reaches.trans {a b c : Cursor} (hab : a.Reaches b) (hbc : b.Reaches c) : a.Reaches c :=
  ⟨hbc.1.trans hab.1, Nat.le_trans hab.2 hbc.2⟩

open Checked in
/-- There is no next character just if the source is at its end. -/
theorem eq_none_iff_of_peek {c : Cursor} {ahead : Option Char} (h : c.peek = .ok ahead) :
    ahead = none ↔ c.isAtEnd = true := by
  obtain ⟨text, htext, hahead⟩ := bind_eq_ok_iff.1 h
  obtain rfl := Except.ok.inj hahead
  obtain ⟨hle, -, hsize⟩ := utf8ByteSize_of_slice htext
  calc text.toList.head? = none
      ↔ text = "" := List.head?_eq_none_iff.trans String.toList_eq_nil_iff
    _ ↔ c.source.utf8ByteSize - c.current = 0 := by rw [← String.utf8ByteSize_eq_zero_iff, hsize]
    _ ↔ c.isAtEnd = true := by rw [isAtEnd, decide_eq_true_iff, Nat.sub_eq_zero_iff_le]

theorem current_lt_of_peek {c : Cursor} {ch : Char} (h : c.peek = .ok (some ch)) :
    c.current < c.source.utf8ByteSize := by
  refine Nat.lt_of_not_le fun hle => ?_
  have hnone := (eq_none_iff_of_peek h).2 (decide_eq_true hle)
  cases hnone

theorem eq_of_skip {c c' : Cursor} {bytes : Nat} (h : c.skip bytes = .ok c') :
    c' = { c with current := c.current + bytes } := by
  obtain ⟨n, hn, hc⟩ := Checked.bind_eq_ok_iff.1 h
  obtain rfl := (Checked.add_eq_ok_iff.1 hn).2
  exact (Except.ok.inj hc).symm

theorem eq_of_nextLine {c c' : Cursor} (h : c.nextLine = .ok c') :
    c' = { c with line := c.line + 1 } := by
  obtain ⟨n, hn, hc⟩ := Checked.bind_eq_ok_iff.1 h
  obtain rfl := (Checked.add_eq_ok_iff.1 hn).2
  exact (Except.ok.inj hc).symm

theorem eq_of_pass {c c' : Cursor} {counting : Bool} {ch : Char}
    (h : c.pass counting ch = .ok c') :
    c'.source = c.source ∧ c'.current = c.current + ch.utf8Size := by
  obtain ⟨m, hm, hc⟩ := Checked.bind_eq_ok_iff.1 h
  obtain rfl := eq_of_skip hc
  split at hm
  · obtain rfl := eq_of_nextLine hm
    exact ⟨rfl, rfl⟩
  · obtain rfl := Except.ok.inj hm
    exact ⟨rfl, rfl⟩

/-- **Moving over a run**: over characters of kind `p` as long as there are any. -/
def eatRun (p : Char → Bool) (counting : Bool) (c : Cursor) : Checked Cursor :=
  match _hpeek : c.peek with
  | .error e => .error e
  | .ok none => .ok c
  | .ok (some ch) =>
    if p ch then
      match _hpass : c.pass counting ch with
      | .error e => .error e
      | .ok c' => c'.eatRun p counting
    else .ok c
termination_by c.source.utf8ByteSize - c.current
decreasing_by
  have hlt := current_lt_of_peek _hpeek
  have hpos := ch.utf8Size_pos
  rw [(eq_of_pass _hpass).1, (eq_of_pass _hpass).2]
  omega

theorem reaches_of_eatRun {p : Char → Bool} {counting : Bool} {c c' : Cursor}
    (h : c.eatRun p counting = .ok c') : c.Reaches c' := by
  fun_induction eatRun p counting c with
  | case1 c e _ => cases h
  | case2 c _ =>
    obtain rfl := Except.ok.inj h
    exact Reaches.refl c
  | case3 c ch _ _ e _ => cases h
  | case4 c ch _ _ next hpass ih =>
    have hstep : c.Reaches next := by
      refine ⟨(eq_of_pass hpass).1, ?_⟩
      rw [(eq_of_pass hpass).2]
      exact Nat.le_add_right _ _
    exact hstep.trans (ih h)
  | case5 c ch _ _ =>
    obtain rfl := Except.ok.inj h
    exact Reaches.refl c

/-! ### One segment -/

/-- The token of a kind without a literal, its text being what was read. -/
def token (c : Cursor) (kind : Kind) : Checked (Option Item × Cursor) := do
  match Token.bare? kind (← c.lexeme) c.startLine with
  | some t => return (some (.token t), c)
  | none => throw .literalRequired

def fault (c : Cursor) (f : Fault) : Checked (Option Item × Cursor) := do
  return (some (.fault ⟨c.line, f⟩ (← c.lexeme)), c)

/-- The string whose opening quote was read. Its value is its text without the quotes. -/
def scanString (c : Cursor) : Checked (Option Item × Cursor) := do
  let c ← c.eatRun (· != '"') true
  if c.isAtEnd then c.fault .unterminatedString
  else
    let c ← c.skip 1
    let lexeme ← c.lexeme
    let value ← Checked.slice lexeme 1 (← Checked.sub lexeme.utf8ByteSize 1)
    return (some (.token (.string lexeme value c.startLine)), c)

/-- Moves over a point and the digits after it, if there are any. -/
def eatFraction (c : Cursor) : Checked Cursor := do
  if (← c.peek) = some '.' then
    if (← c.peekNext).any Char.isDigit then
      let c ← c.skip 1
      c.eatRun Char.isDigit false
    else return c
  else return c

/-- The number whose first digit was read. -/
def scanNumber (c : Cursor) : Checked (Option Item × Cursor) := do
  let c ← c.eatRun Char.isDigit false
  let c ← c.eatFraction
  let lexeme ← c.lexeme
  match Numeral.ofText? lexeme.toList with
  | some numeral => return (some (.token (.number lexeme numeral.value.nearest c.startLine)), c)
  | none => throw .notANumeral

/-- The word whose first character was read. -/
def scanWord (c : Cursor) : Checked (Option Item × Cursor) := do
  let c ← c.eatRun isWordPart false
  c.token (wordKind (← c.lexeme))

/-- The segment whose first character, an operator, was read. -/
def scanOperator (c : Cursor) (op : Operator) : Checked (Option Item × Cursor) := do
  match op, op.withEqual? with
  | .slash, _ =>
    let (isComment, c) ← c.eat '/'
    if isComment then return (none, ← c.eatRun (· != '\n') false)
    else c.token (.operator .slash)
  | _, some wide =>
    let (isWide, c) ← c.eat '='
    c.token (.operator (if isWide then wide else op))
  | _, none => c.token (.operator op)

/-- The segment whose first character, `ch`, was read. -/
def scanFrom (c : Cursor) (ch : Char) : Checked (Option Item × Cursor) :=
  if ch = '\n' then do return (none, ← c.nextLine)
  else if isBlank ch then .ok (none, c)
  else if ch = '"' then c.scanString
  else if ch.isDigit then c.scanNumber
  else if isWordStart ch then c.scanWord
  else match Operator.ofChar? ch with
    | some op => c.scanOperator op
    | none => c.fault (.unexpectedCharacter ch)

/-- **One segment**: what it yields, and the cursor behind it. -/
def scanSegment (c : Cursor) : Checked (Option Item × Cursor) := do
  match ← c.advance with
  | (none, c) => return (none, c)
  | (some ch, c) => c.scanFrom ch

/-! ### A segment is not empty -/

section Progress

open Checked

variable {c c' : Cursor} {answer : Option Item}

theorem reaches_of_skip {bytes : Nat} (h : c.skip bytes = .ok c') : c.Reaches c' := by
  obtain rfl := eq_of_skip h
  exact ⟨rfl, Nat.le_add_right _ _⟩

/-- A result at the same cursor. -/
theorem reaches_of_ok {α : Type} {a b : α} (h : (.ok (a, c) : Checked (α × Cursor)) = .ok (b, c')) :
    c.Reaches c' := by
  obtain ⟨-, rfl⟩ := Prod.mk.inj (Except.ok.inj h)
  exact Reaches.refl c

theorem reaches_of_eat {expected : Char} {found : Bool} (h : c.eat expected = .ok (found, c')) :
    c.Reaches c' := by
  obtain ⟨ahead, -, h⟩ := bind_eq_ok_iff.1 h
  split at h
  · obtain ⟨d, hd, h⟩ := bind_eq_ok_iff.1 h
    exact (reaches_of_skip hd).trans (reaches_of_ok h)
  · exact reaches_of_ok h

theorem reaches_of_token {kind : Kind} (h : c.token kind = .ok (answer, c')) : c.Reaches c' := by
  obtain ⟨lexeme, -, h⟩ := bind_eq_ok_iff.1 h
  split at h
  · exact reaches_of_ok h
  · cases h

theorem reaches_of_fault {f : Fault} (h : c.fault f = .ok (answer, c')) : c.Reaches c' := by
  obtain ⟨lexeme, -, h⟩ := bind_eq_ok_iff.1 h
  exact reaches_of_ok h

theorem reaches_of_scanString (h : c.scanString = .ok (answer, c')) : c.Reaches c' := by
  obtain ⟨d, hd, h⟩ := bind_eq_ok_iff.1 h
  refine (reaches_of_eatRun hd).trans ?_
  split at h
  · exact reaches_of_fault h
  · obtain ⟨e, he, h⟩ := bind_eq_ok_iff.1 h
    obtain ⟨lexeme, -, h⟩ := bind_eq_ok_iff.1 h
    obtain ⟨last, -, h⟩ := bind_eq_ok_iff.1 h
    obtain ⟨value, -, h⟩ := bind_eq_ok_iff.1 h
    exact (reaches_of_skip he).trans (reaches_of_ok h)

theorem reaches_of_eatFraction (h : c.eatFraction = .ok c') : c.Reaches c' := by
  obtain ⟨ahead, -, h⟩ := bind_eq_ok_iff.1 h
  split at h
  · obtain ⟨second, -, h⟩ := bind_eq_ok_iff.1 h
    split at h
    · obtain ⟨d, hd, h⟩ := bind_eq_ok_iff.1 h
      exact (reaches_of_skip hd).trans (reaches_of_eatRun h)
    · obtain rfl := Except.ok.inj h
      exact Reaches.refl c
  · obtain rfl := Except.ok.inj h
    exact Reaches.refl c

theorem reaches_of_scanNumber (h : c.scanNumber = .ok (answer, c')) : c.Reaches c' := by
  obtain ⟨d, hd, h⟩ := bind_eq_ok_iff.1 h
  obtain ⟨e, he, h⟩ := bind_eq_ok_iff.1 h
  obtain ⟨lexeme, -, h⟩ := bind_eq_ok_iff.1 h
  split at h
  · exact ((reaches_of_eatRun hd).trans (reaches_of_eatFraction he)).trans (reaches_of_ok h)
  · cases h

theorem reaches_of_scanWord (h : c.scanWord = .ok (answer, c')) : c.Reaches c' := by
  obtain ⟨d, hd, h⟩ := bind_eq_ok_iff.1 h
  obtain ⟨lexeme, -, h⟩ := bind_eq_ok_iff.1 h
  exact (reaches_of_eatRun hd).trans (reaches_of_token h)

theorem reaches_of_scanOperator {op : Operator} (h : c.scanOperator op = .ok (answer, c')) :
    c.Reaches c' := by
  unfold scanOperator at h
  split at h
  · obtain ⟨⟨isComment, d⟩, hd, h⟩ := bind_eq_ok_iff.1 h
    refine (reaches_of_eat hd).trans ?_
    dsimp only at h
    split at h
    · obtain ⟨e, he, h⟩ := bind_eq_ok_iff.1 h
      exact (reaches_of_eatRun he).trans (reaches_of_ok h)
    · exact reaches_of_token h
  · obtain ⟨⟨isWide, d⟩, hd, h⟩ := bind_eq_ok_iff.1 h
    exact (reaches_of_eat hd).trans (reaches_of_token h)
  · exact reaches_of_token h

theorem reaches_of_scanFrom {ch : Char} (h : c.scanFrom ch = .ok (answer, c')) :
    c.Reaches c' := by
  unfold scanFrom at h
  split at h
  · obtain ⟨d, hd, h⟩ := bind_eq_ok_iff.1 h
    obtain ⟨-, rfl⟩ := Prod.mk.inj (Except.ok.inj h)
    obtain rfl := eq_of_nextLine hd
    exact ⟨rfl, Nat.le_refl _⟩
  split at h
  · exact reaches_of_ok h
  split at h
  · exact reaches_of_scanString h
  split at h
  · exact reaches_of_scanNumber h
  split at h
  · exact reaches_of_scanWord h
  split at h
  · exact reaches_of_scanOperator h
  · exact reaches_of_fault h

/-- **A segment is not empty**: unless the source is at its end, the offset rises. -/
theorem lt_of_scanSegment (h : c.scanSegment = .ok (answer, c')) (hend : c.isAtEnd = false) :
    c'.source = c.source ∧ c.current < c'.current := by
  obtain ⟨⟨ahead, d⟩, hd, h⟩ := bind_eq_ok_iff.1 h
  obtain ⟨ch, hpeek, hd⟩ := bind_eq_ok_iff.1 hd
  cases ch with
  | none =>
    have hnone := (eq_none_iff_of_peek hpeek).1 rfl
    rw [hend] at hnone
    cases hnone
  | some ch =>
    obtain ⟨e, hskip, hd⟩ := bind_eq_ok_iff.1 hd
    obtain ⟨rfl, rfl⟩ := Prod.mk.inj (Except.ok.inj hd)
    obtain rfl := eq_of_skip hskip
    -- The first character makes the offset rise, and what follows does not lower it again.
    obtain ⟨hsource, hle⟩ := reaches_of_scanFrom h
    exact ⟨hsource, Nat.lt_of_lt_of_le (Nat.lt_add_of_pos_right ch.utf8Size_pos) hle⟩

end Progress

/-! ### Calls -/

/-- A cursor at which a segment begins. -/
def mark (c : Cursor) : Cursor := { c with start := c.current, startLine := c.line }

/-- **The next item**, and the cursor after it. -/
def next? (c : Cursor) : Checked (Option Item × Cursor) :=
  if c.done then .ok (none, c)
  else if _hend : c.isAtEnd then .ok (some (.token (.eof c.line)), { c with done := true })
  else match _hscan : c.mark.scanSegment with
    | .error e => .error e
    | .ok (some item, c') => .ok (some item, c')
    | .ok (none, c') => c'.next?
termination_by c.source.utf8ByteSize - c.current
decreasing_by
  rw [Bool.not_eq_true] at _hend
  obtain ⟨hsource, hlt⟩ := lt_of_scanSegment _hscan _hend
  have hsize := of_decide_eq_false _hend
  change c'.source = c.source at hsource
  change c.current < c'.current at hlt
  rw [hsource]
  omega

/-- **Calls in a row**: the answers, and the cursor after them. -/
def calls : Nat → Cursor → Checked (List (Option Item) × Cursor)
  | 0, c => .ok ([], c)
  | n + 1, c => do
    let (answer, c) ← c.next?
    let (answers, c) ← calls n c
    return (answer :: answers, c)

end Cursor

end LoxFront

import LoxFront.Proofs.Cursor.Segments
import LoxFront.Proofs.Item.Parts
import LoxFront.Proofs.Lexer.Lines

/-!
# Scanning in place is safe

A cursor does step by step what a lexer does, and nothing it does fails.

* `Cursor.Follows c l` — the cursor `c` stands where the lexer `l` stands;
* `Follows.next?_eq` — a call to the cursor has a result, which is the lexer's answer, and
  afterwards the cursor follows the lexer again;
* `Cursor.Sound` — what holds of a cursor after every call: its offsets are in order, within the
  source and between characters, so that the text behind the segment and the text ahead are
  slices of the source, and the line does not run ahead of the offset;
* `Token.LiteralText` — the form of the text of a string or a number.

The main statement, `calls_sound`, puts them together for any number of calls.
-/

namespace LoxFront

open Text

namespace Cursor

/-- **A cursor follows a lexer**: it has read what the lexer has read. -/
structure Follows (c : Cursor) (l : Lexer) : Prop where
  source_eq : c.source = l.source
  start_eq : c.start = l.start
  current_eq : c.current = l.current
  line_eq : c.line = l.line
  done_eq : c.done = l.done
  spans : ∃ before read, c.Spans before read l.rest

theorem follows_ofSource {source : String} (h : source.utf8ByteSize ≤ Checked.maxSize) :
    (ofSource source).Follows (Lexer.ofSource source) where
  source_eq := rfl
  start_eq := rfl
  current_eq := rfl
  line_eq := rfl
  done_eq := rfl
  spans := ⟨[], [], rfl, rfl, rfl, h, Nat.le_refl 1⟩

theorem next?_of_item {c c' : Cursor} {item : Item} (hdone : c.done = false)
    (hend : c.isAtEnd = false) (hscan : c.mark.scanSegment = .ok (some item, c')) :
    c.next? = .ok (some item, c') := by
  rw [next?, if_neg (by simp [hdone]), dif_neg (by simp [hend]), hscan]

theorem next?_of_skip {c c' : Cursor} (hdone : c.done = false)
    (hend : c.isAtEnd = false) (hscan : c.mark.scanSegment = .ok (none, c')) :
    c.next? = c'.next? := by
  rw [next?, if_neg (by simp [hdone]), dif_neg (by simp [hend]), hscan]

section Follows

variable {c : Cursor} {l : Lexer}

theorem Follows.spans_mark (h : c.Follows l) : ∃ before, c.mark.Spans before [] l.rest := by
  obtain ⟨before, read, hspans⟩ := h.spans
  refine ⟨before ++ read, ?_, hspans.current_eq, ?_, hspans.size_le, hspans.line_le⟩
  · rw [List.append_nil]
    exact hspans.source_eq
  · rw [List.append_nil]
    exact hspans.current_eq

/-- **One segment**: the cursor answers its item and goes where the lexer goes. -/
theorem Follows.scanSegment_eq (h : c.Follows l) {ch : Char} {cs : List Char}
    (hrest : l.rest = ch :: cs) :
    ∃ c', c.mark.scanSegment = .ok ((Segment.first ch cs).1.item? l.line, c') ∧
      c'.Follows (l.advance (Segment.first ch cs).1 (Segment.first ch cs).2) := by
  obtain ⟨before, hspans⟩ := h.spans_mark
  rw [hrest, ← Segment.text_first ch cs] at hspans
  have hscan := Cursor.scanSegment_eq hspans rfl (Segment.wellFormed_first ch cs)
    (Segment.endsBefore_first ch cs)
  have hpast : c.mark.moved true (Segment.first ch cs).1.text = c.mark.past (Segment.first ch cs).1 :=
    hspans.moved_eq_past rfl List.not_mem_nil rfl
  have hbehind := hspans.moved true
  rw [hpast] at hbehind
  refine ⟨c.mark.past (Segment.first ch cs).1, ?_, ?_⟩
  · rw [hscan, ← h.line_eq]
    rfl
  · exact ⟨h.source_eq, h.current_eq, congrArg (· + _) h.current_eq, congrArg (· + _) h.line_eq,
      h.done_eq, before, _, hbehind⟩

theorem Follows.isAtEnd_iff (h : c.Follows l) : c.isAtEnd = true ↔ l.rest = [] := by
  obtain ⟨before, read, hspans⟩ := h.spans
  exact hspans.isAtEnd_iff

theorem Follows.isAtEnd_of_cons (h : c.Follows l) {ch : Char} {cs : List Char}
    (hrest : l.rest = ch :: cs) : c.isAtEnd = false := by
  rw [Bool.eq_false_iff]
  intro hend
  exact absurd (hrest.symm.trans (h.isAtEnd_iff.mp hend)) (List.cons_ne_nil ch cs)

/-- **A call has a result**, and it is what the lexer answers. -/
theorem Follows.next?_eq (h : c.Follows l) :
    ∃ c', c.next? = .ok (l.next?.1, c') ∧ c'.Follows l.next?.2 := by
  have hyields := l.yields_next?
  generalize l.next?.1 = answer at hyields ⊢
  generalize l.next?.2 = l' at hyields ⊢
  -- By induction on what the lexer does in the call: where it skips a segment, the cursor skips
  -- it, too, and follows it into the rest of the call.
  induction hyields generalizing c with
  | exhausted hdone =>
    refine ⟨c, ?_, h⟩
    rw [next?, h.done_eq, if_pos hdone]
  | eof hdone hrest =>
    -- Neither has anything ahead, and both have the same line.
    refine ⟨{ c with done := true }, ?_, ?_⟩
    · rw [next?, h.done_eq, hdone, dif_pos (h.isAtEnd_iff.mpr hrest), h.line_eq]
      rfl
    · obtain ⟨before, read, hspans⟩ := h.spans
      exact ⟨h.source_eq, h.start_eq, h.current_eq, h.line_eq, rfl, before, read,
        hspans.source_eq, hspans.start_eq, hspans.current_eq, hspans.size_le, hspans.line_le⟩
  | item hdone hrest hitem =>
    obtain ⟨c', hscan, hfollows⟩ := h.scanSegment_eq hrest
    rw [hitem] at hscan
    exact ⟨c', next?_of_item (h.done_eq.trans hdone) (h.isAtEnd_of_cons hrest) hscan, hfollows⟩
  | skip hdone hrest hitem _ ih =>
    obtain ⟨c', hscan, hfollows⟩ := h.scanSegment_eq hrest
    obtain ⟨c'', hnext, hfollows⟩ := ih hfollows
    rw [hitem] at hscan
    refine ⟨c'', ?_, hfollows⟩
    rw [next?_of_skip (h.done_eq.trans hdone) (h.isAtEnd_of_cons hrest) hscan, hnext]

/-- **Calls in a row** have results, and they are what the lexer answers. -/
theorem Follows.calls_eq (h : c.Follows l) (n : Nat) :
    ∃ c', c.calls n = .ok (l.answers n, c') ∧ c'.Follows (l.after n) := by
  induction n generalizing c l with
  | zero => exact ⟨c, rfl, h⟩
  | succ n ih =>
    obtain ⟨d, hnext, hd⟩ := h.next?_eq
    obtain ⟨c', hcalls, hc'⟩ := ih hd
    refine ⟨c', ?_, ?_⟩
    · rw [calls, hnext, Checked.ok_bind, Lexer.answers_succ]
      change (d.calls n >>= _) = _
      rw [hcalls]
      rfl
    · rw [Lexer.after, Function.iterate_succ_apply]
      exact hc'

end Follows

/-! ### What holds after every call -/

/-- **A sound cursor.** Both offsets are between characters of the source and in order, the
texts behind them are there, and neither offset nor line is too large for a machine word. -/
structure Sound (c : Cursor) : Prop where
  start_le : c.start ≤ c.current
  current_le : c.current ≤ c.source.utf8ByteSize
  start_isValid : (⟨c.start⟩ : String.Pos.Raw).IsValid c.source
  current_isValid : (⟨c.current⟩ : String.Pos.Raw).IsValid c.source
  lexeme_ok : ∃ text, c.lexeme = .ok text
  rest_ok : ∃ text, c.rest = .ok text
  peek_ok : ∃ ahead, c.peek = .ok ahead ∧ (c.isAtEnd = true ↔ ahead = none)
  peekNext_ok : ∃ ahead, c.peekNext = .ok ahead
  line_le : c.line ≤ 1 + c.current
  size_le : c.source.utf8ByteSize ≤ Checked.maxSize

theorem Spans.sound {c : Cursor} {before read ahead : List Char} (h : c.Spans before read ahead) :
    c.Sound where
  start_le := by
    rw [h.start_eq, h.current_eq, byteSize_append]
    exact Nat.le_add_right _ _
  current_le := by
    rw [← h.current_add_le]
    exact Nat.le_add_right _ _
  start_isValid := by
    refine String.Pos.Raw.isValid_iff_exists_append.mpr
      ⟨String.ofList before, String.ofList (read ++ ahead), ?_, ?_⟩
    · rw [← String.ofList_append, ← List.append_assoc, ← h.source_eq, String.ofList_toList]
    · exact congrArg String.Pos.Raw.mk h.start_eq
  current_isValid := by
    refine String.Pos.Raw.isValid_iff_exists_append.mpr
      ⟨String.ofList (before ++ read), String.ofList ahead, ?_, ?_⟩
    · rw [← String.ofList_append, ← h.source_eq, String.ofList_toList]
    · exact congrArg String.Pos.Raw.mk h.current_eq
  lexeme_ok := ⟨_, h.lexeme_eq⟩
  rest_ok := ⟨_, h.rest_eq⟩
  peek_ok := ⟨_, h.peek_eq, (eq_none_iff_of_peek h.peek_eq).symm⟩
  peekNext_ok := ⟨_, h.peekNext_eq⟩
  line_le := h.line_le
  size_le := h.size_le

end Cursor

/-! ### The text of a literal -/

/-- One digit or more. -/
def IsDigits (text : String) : Prop := text ≠ "" ∧ ∀ c ∈ text.toList, c.isDigit = true

theorem isDigits_ofList {cs : List Char} (hne : cs ≠ []) (h : ∀ c ∈ cs, c.isDigit = true) :
    IsDigits (String.ofList cs) := by
  refine ⟨fun hempty => hne ?_, ?_⟩
  · rw [← String.toList_ofList (l := cs), hempty, String.toList_empty]
  · rw [String.toList_ofList]
    exact h

/-- **The text of a literal.** A string has its value between two quotes, and a number is
digits, or digits on both sides of a point. -/
structure Token.LiteralText (t : Token) : Prop where
  string : t.kind = .string →
    2 ≤ t.lexeme.utf8ByteSize ∧ ∃ value, t.lexeme = "\"" ++ value ++ "\"" ∧
      Checked.slice t.lexeme 1 (t.lexeme.utf8ByteSize - 1) = .ok value
  number : t.kind = .number →
    ∃ whole, IsDigits whole ∧ (t.lexeme = whole ∨
      ∃ fraction, IsDigits fraction ∧ t.lexeme = whole ++ "." ++ fraction)

/-- A token of a kind without a literal has nothing to show. -/
theorem Token.literalText_of_carriesLiteral {t : Token} (h : t.kind.carriesLiteral = false) :
    t.LiteralText where
  string hkind := by
    rw [hkind] at h
    cases h
  number hkind := by
    rw [hkind] at h
    cases h

theorem Token.literalText_string (value : String) (line : Nat) :
    (Token.string ("\"" ++ value ++ "\"") value line).LiteralText where
  string _ := by
    have hsize : ("\"" ++ value ++ "\"").utf8ByteSize = ("\"" ++ value).utf8ByteSize + 1 :=
      String.utf8ByteSize_append
    have hquote : ("\"" ++ value).utf8ByteSize = 1 + value.utf8ByteSize :=
      String.utf8ByteSize_append
    refine ⟨?_, value, rfl, ?_⟩
    · change 2 ≤ ("\"" ++ value ++ "\"").utf8ByteSize
      omega
    · change Checked.slice _ 1 (("\"" ++ value ++ "\"").utf8ByteSize - 1) = _
      rw [hsize, Nat.add_sub_cancel]
      exact slice_append "\"" value "\""
  number hkind := by cases hkind

theorem Token.literalText_number {numeral : Numeral} (h : (Segment.number numeral).WellFormed)
    (value : Binary64) (line : Nat) :
    (Token.number (Segment.number numeral).lexeme value line).LiteralText where
  string hkind := by cases hkind
  number _ := by
    obtain ⟨whole, fraction⟩ := numeral
    obtain ⟨hne, hwhole, hfraction⟩ := h
    refine ⟨String.ofList whole, isDigits_ofList hne hwhole, ?_⟩
    -- A numeral is written with a point just if it has a fraction.
    cases fraction with
    | nil => exact Or.inl rfl
    | cons d ds =>
      refine Or.inr ⟨String.ofList (d :: ds), isDigits_ofList (List.cons_ne_nil d ds) hfraction, ?_⟩
      change String.ofList (whole ++ '.' :: d :: ds) = _
      rw [← List.singleton_append, String.ofList_append, String.ofList_append, String.append_assoc]

theorem Segment.literalText_of_item? {s : Segment} (hs : s.WellFormed) {line : Nat} {t : Token}
    (h : s.item? line = some (.token t)) : t.LiteralText := by
  cases s with
  | blank c => cases h
  | comment body => cases h
  | operator op =>
    obtain rfl := Item.token.inj (Option.some.inj h)
    exact Token.literalText_of_carriesLiteral rfl
  | string value =>
    obtain rfl := Item.token.inj (Option.some.inj h)
    have hlexeme : (Segment.string value).lexeme = "\"" ++ String.ofList value ++ "\"" := by
      change String.ofList (['"'] ++ value ++ ['"']) = _
      rw [String.ofList_append, String.ofList_append]
    rw [hlexeme]
    exact Token.literalText_string (String.ofList value) line
  | number numeral =>
    obtain rfl := Item.token.inj (Option.some.inj h)
    exact Token.literalText_number hs numeral.value.nearest line
  | word w =>
    obtain rfl := Item.token.inj (Option.some.inj h)
    exact Token.literalText_of_carriesLiteral (carriesLiteral_wordKind _)
  | openString body => cases Option.some.inj h
  | stray c => cases Option.some.inj h

/-- **Every literal of a source** has the text of one. -/
theorem literalText_of_mem_items {source : String} {t : Token} (h : .token t ∈ items source) :
    t.LiteralText := by
  rw [items_eq_append, List.mem_append, List.mem_singleton] at h
  obtain hfound | hend := h
  · obtain ⟨s, hs, line, hitem⟩ := exists_of_mem_foundFrom hfound
    exact Segment.literalText_of_item? (wellFormed_of_mem_segments hs) hitem
  · obtain rfl := Item.token.inj hend
    exact Token.literalText_of_carriesLiteral rfl

/-! ### Any number of calls -/

/-- **Scanning in place is safe.** Any number of calls to a cursor at the beginning of a source
have results: nothing that they do is refused. They answer the items of the source in turn, so
that enough of them make a scan, the cursor is sound after them, and each literal that they
answer has the text of one. -/
theorem calls_sound {source : String} (h : source.utf8ByteSize ≤ Checked.maxSize) (n : Nat) :
    ∃ answers c, (Cursor.ofSource source).calls n = .ok (answers, c) ∧
      answers = ((items source).take n).map some ++
        List.replicate (n - (items source).length) none ∧
      ((items source).length ≤ n → Scanned.ofItems (answers.filterMap id) = scan source) ∧
      c.source = source ∧ c.Sound ∧
      ∀ t, some (.token t) ∈ answers → t.LiteralText := by
  -- The size of the source is needed at the beginning only; every call hands it on.
  obtain ⟨c, hcalls, hfollows⟩ := (Cursor.follows_ofSource h).calls_eq n
  obtain ⟨before, read, hspans⟩ := hfollows.spans
  have hanswers := (Lexer.ofSource source).answers_eq n
  rw [Lexer.pending_ofSource] at hanswers
  refine ⟨_, c, hcalls, hanswers, ?_, ?_, hspans.sound, ?_⟩
  · intro hn
    rw [Lexer.filterMap_answers, Lexer.pending_ofSource, List.take_of_length_le hn]
    rfl
  · rw [hfollows.source_eq, Lexer.source_after]
  · intro t ht
    have hitem : .token t ∈ ((Lexer.ofSource source).answers n).filterMap id :=
      List.mem_filterMap.mpr ⟨_, ht, rfl⟩
    rw [Lexer.filterMap_answers, Lexer.pending_ofSource] at hitem
    exact literalText_of_mem_items (List.mem_of_mem_take hitem)

/-- A string that is never closed, its last character being three bytes long. -/
theorem calls_sound_open : "\"a€".utf8ByteSize ≤ Checked.maxSize ∧
    ∃ c, (Cursor.ofSource "\"a€").calls 3 =
        .ok ([some (.fault ⟨1, .unterminatedString⟩ "\"a€"), some (.token (.eof 1)), none], c) ∧
      c.Sound := by
  have hsize : "\"a€".utf8ByteSize ≤ Checked.maxSize := by decide
  have hitems : items "\"a€" = [.fault ⟨1, .unterminatedString⟩ "\"a€", .token (.eof 1)] := by
    decide +kernel
  obtain ⟨answers, c, hcalls, hanswers, -, -, hsound, -⟩ := calls_sound hsize 3
  rw [hanswers, hitems] at hcalls
  exact ⟨hsize, c, hcalls, hsound⟩

end LoxFront

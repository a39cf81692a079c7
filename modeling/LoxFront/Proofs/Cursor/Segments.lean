import LoxFront.Proofs.Cursor.Moves
import LoxFront.Proofs.Segment.Boundary

/-!
# A cursor at a segment

A cursor at which a segment begins moves over just that segment, and answers the item of it.

* `Cursor.past s` — the cursor behind the segment `s`;
* `ofText?_text` — a number is read back from its text;
* `Spans.scanString_eq`, `Spans.scanNumber_eq` and so on — what is done after the first
  character of a segment of each class;
* `scanSegment_eq` — the segment as a whole, whatever its class.

The cases are those of `Segment`: of each segment it is known what it looks like
(`Segment.WellFormed`) and what does not follow it (`Segment.EndsBefore`), so every run of
characters stops where the segment does.
-/

namespace LoxFront

open Text

/-- **A number is read back from its text.** -/
theorem ofText?_text {numeral : Numeral} (h : (Segment.number numeral).WellFormed) :
    Numeral.ofText? numeral.text = some numeral := by
  obtain ⟨whole, fraction⟩ := numeral
  obtain ⟨hne, hwhole, hfraction⟩ := h
  obtain ⟨d, ds, rfl⟩ := List.exists_cons_of_ne_nil hne
  unfold Numeral.ofText?
  cases fraction with
  | nil =>
    have htake := takeWhile_append_of_stops hwhole (stops_nil Char.isDigit)
    have hdrop := dropWhile_append_of_stops hwhole (stops_nil Char.isDigit)
    rw [List.append_nil] at htake hdrop
    rw [Numeral.text_whole, htake, hdrop]
  | cons e es =>
    have hstop : Stops Char.isDigit ('.' :: e :: es) := by simp
    rw [Numeral.text_fraction, takeWhile_append_of_stops hwhole hstop,
      dropWhile_append_of_stops hwhole hstop]
    exact if_pos (List.all_eq_true.mpr hfraction)

theorem lineFeed_not_mem_number {numeral : Numeral} (h : (Segment.number numeral).WellFormed) :
    '\n' ∉ numeral.text :=
  h.lineFeed_not_mem rfl (by simp)

theorem lineFeed_not_mem_operator (op : Operator) : '\n' ∉ op.text.toList := by
  cases op <;> decide

namespace Cursor

/-- The cursor behind a segment. -/
def past (c : Cursor) (s : Segment) : Cursor :=
  { c with
    current := c.start + byteSize s.text
    line := c.startLine + s.lineFeeds }

/-- Without line feeds it does not matter whether lines are counted. -/
theorem moved_false {text : List Char} (h : '\n' ∉ text) (c : Cursor) :
    c.moved false text = c.moved true text := by
  unfold moved
  rw [List.count_eq_zero_of_not_mem h]
  rfl

section Spans

variable {c : Cursor} {before read ahead : List Char}

theorem Spans.moved_eq_past (h : c.Spans before read ahead) (hline : c.line = c.startLine)
    (hread : '\n' ∉ read) {s : Segment} {text : List Char} (htext : read ++ text = s.text) :
    c.moved true text = c.past s := by
  unfold Cursor.moved past Segment.lineFeeds
  rw [← htext, byteSize_append, List.count_append, List.count_eq_zero_of_not_mem hread, h.current_eq,
    h.start_eq, byteSize_append, hline, if_pos rfl, Nat.zero_add, Nat.add_assoc]

theorem Spans.token_eq (h : c.Spans before read ahead) {kind : Kind}
    (hkind : kind.carriesLiteral = false) :
    c.token kind = .ok (some (.token ⟨kind, String.ofList read, none, c.startLine⟩), c) := by
  unfold token Token.bare?
  rw [h.lexeme_eq, hkind]
  rfl

theorem Spans.fault_eq (h : c.Spans before read ahead) (f : Fault) :
    c.fault f = .ok (some (.fault ⟨c.line, f⟩ (String.ofList read)), c) := by
  unfold fault
  rw [h.lexeme_eq]
  rfl

/-- A point is moved over if a digit follows, and then all digits are. -/
theorem Spans.eatFraction_eq {d : Char} {ds : List Char}
    (h : c.Spans before read ('.' :: (d :: ds ++ ahead))) (hd : d.isDigit = true)
    (hds : ∀ e ∈ ds, e.isDigit = true) (hstop : Stops Char.isDigit ahead) :
    c.eatFraction = .ok (c.moved false ('.' :: d :: ds)) := by
  have hdigits : (c.moved false ['.']).Spans before (read ++ ['.']) (d :: ds ++ ahead) := by
    rw [← List.singleton_append] at h
    exact h.moved false
  have hall : ∀ e ∈ d :: ds, e.isDigit = true := List.forall_mem_cons.mpr ⟨hd, hds⟩
  unfold eatFraction
  rw [h.peek_eq, Checked.ok_bind, List.head?_cons, if_pos rfl, h.peekNext_eq, Checked.ok_bind]
  have hany : Option.any Char.isDigit ('.' :: (d :: ds ++ ahead))[1]? = true := hd
  rw [if_pos hany, show 1 = '.'.utf8Size from rfl, h.skip_eq, Checked.ok_bind, hdigits.eatRun_eq,
    takeWhile_append_of_stops hall hstop, moved_moved]
  rfl

/-- Nothing is moved over if no point stands there, or none with a digit behind it. -/
theorem Spans.eatFraction_eq_self (h : c.Spans before read ahead)
    (hpoint : ∀ tail, ahead = '.' :: tail → Stops Char.isDigit tail) : c.eatFraction = .ok c := by
  unfold eatFraction
  rw [h.peek_eq, Checked.ok_bind]
  split
  · next hhead =>
    obtain ⟨tail, rfl⟩ := List.head?_eq_some_iff.mp hhead
    rw [h.peekNext_eq, Checked.ok_bind]
    refine if_neg fun hany => ?_
    rw [List.getElem?_cons_succ, ← List.head?_eq_getElem?] at hany
    obtain ⟨d, hd, hdigit⟩ := (Option.any_eq_true _ _).mp hany
    exact absurd hdigit (Bool.eq_false_iff.mp (hpoint tail rfl d hd))
  · rfl

/-- The digits of a number and its fraction are moved over one after the other. -/
theorem Spans.eatNumber_eq {numeral : Numeral} {ch : Char} {ds : List Char}
    (h : c.Spans before [ch] (ds ++ ahead)) (htext : numeral.text = ch :: ds)
    (hs : (Segment.number numeral).WellFormed) (he : (Segment.number numeral).EndsBefore ahead) :
    ∃ d, c.eatRun Char.isDigit false = .ok d ∧ d.eatFraction = .ok (c.moved false ds) := by
  obtain ⟨whole, fraction⟩ := numeral
  obtain ⟨hne, hwhole, hfraction⟩ := hs
  obtain ⟨hstop, hpoint⟩ := he
  obtain ⟨w, ws, rfl⟩ := List.exists_cons_of_ne_nil hne
  have hws : ∀ e ∈ ws, e.isDigit = true := fun e he => hwhole e (List.mem_cons_of_mem w he)
  cases fraction with
  | nil =>
    obtain ⟨rfl, rfl⟩ := List.cons.inj htext
    have hend : (c.moved false ws).Spans before (w :: ws) ahead := h.moved false
    refine ⟨c.moved false ws, ?_, hend.eatFraction_eq_self (hpoint rfl)⟩
    rw [h.eatRun_eq, takeWhile_append_of_stops hws hstop]
  | cons e es =>
    obtain ⟨rfl, hds⟩ := List.cons.inj htext
    change ws ++ '.' :: e :: es = ds at hds
    subst hds
    have hes : ∀ f ∈ es, f.isDigit = true := fun f hf => hfraction f (List.mem_cons_of_mem e hf)
    have hdot : Stops Char.isDigit ('.' :: (e :: es ++ ahead)) := by simp
    rw [List.append_assoc] at h
    have hend : (c.moved false ws).Spans before (w :: ws) ('.' :: (e :: es ++ ahead)) :=
      h.moved false
    refine ⟨c.moved false ws, ?_, ?_⟩
    · rw [h.eatRun_eq]
      exact congrArg (fun run => Except.ok (c.moved false run)) (takeWhile_append_of_stops hws hdot)
    · rw [hend.eatFraction_eq (hfraction e List.mem_cons_self) hes hstop, moved_moved]

/-- An operator that was read to its end becomes a token. -/
theorem Spans.token_operator {op : Operator} {d : Cursor} (h : c.Spans before read ahead)
    (hread : op.text.toList = read) (hpast : c = d.past (.operator op)) :
    c.token (.operator op) =
      .ok ((Segment.operator op).item? c.startLine, d.past (.operator op)) := by
  rw [h.token_eq rfl, ← hread]
  exact congrArg (fun d => Except.ok (_, d)) hpast

/-! ### After the first character -/

section Begun

variable {ch : Char} (hline : c.line = c.startLine)

include hline

/-- A closed string is moved over with its closing quote. -/
theorem Spans.scanString_eq {value : List Char} (h : c.Spans before ['"'] (value ++ '"' :: ahead))
    (hvalue : '"' ∉ value) :
    c.scanString =
      .ok ((Segment.string value).item? c.startLine, c.past (.string value)) := by
  have hrun := forall_bne_of_not_mem hvalue
  have hstop : Stops (· != '"') ('"' :: ahead) := by simp
  have hquote : (c.moved true value).Spans before (['"'] ++ value) ('"' :: ahead) := h.moved true
  have hclosed : ((c.moved true value).moved false ['"']).Spans before
      (['"'] ++ value ++ ['"']) ahead := hquote.moved false
  have hend : (c.moved true value).isAtEnd = false := by
    rw [Bool.eq_false_iff]
    intro hend
    exact absurd (hquote.isAtEnd_iff.mp hend) (by simp)
  have hpast : (c.moved true value).moved false ['"'] = c.past (.string value) := by
    rw [moved_false (by decide), moved_moved]
    exact h.moved_eq_past hline (by decide) rfl
  have hsub : Checked.sub (String.ofList (['"'] ++ value ++ ['"'])).utf8ByteSize 1 =
      .ok (byteSize (['"'] ++ value)) := by
    change Checked.sub (byteSize _) 1 = _
    rw [byteSize_append (['"'] ++ value)]
    exact Checked.sub_eq_ok_iff.mpr ⟨Nat.le_add_left 1 _, rfl⟩
  have hslice : Checked.slice (String.ofList (['"'] ++ value ++ ['"'])) 1
      (byteSize (['"'] ++ value)) = .ok (String.ofList value) :=
    slice_eq_ok String.toList_ofList
  unfold scanString
  rw [h.eatRun_eq, takeWhile_append_of_stops hrun hstop, Checked.ok_bind, if_neg (by simp [hend]),
    show 1 = '"'.utf8Size from rfl, hquote.skip_eq, Checked.ok_bind, hclosed.lexeme_eq,
    Checked.ok_bind]
  change (Checked.sub _ 1 >>= fun last => Checked.slice _ 1 last >>= _) = _
  rw [hsub, Checked.ok_bind, hslice, Checked.ok_bind, hpast]
  rfl

/-- A string that is never closed is moved over to the end of the source. -/
theorem Spans.scanString_open {body : List Char} (h : c.Spans before ['"'] body)
    (hbody : '"' ∉ body) :
    c.scanString =
      .ok ((Segment.openString body).item? c.startLine, c.past (.openString body)) := by
  have hrun : body.takeWhile (· != '"') = body :=
    List.takeWhile_eq_self_iff.mpr (forall_bne_of_not_mem hbody)
  have hend : (c.moved true body).Spans before (['"'] ++ body) [] := by
    rw [← List.append_nil body] at h
    exact h.moved true
  have hpast : c.moved true body = c.past (.openString body) := h.moved_eq_past hline (by decide) rfl
  unfold scanString
  rw [h.eatRun_eq, hrun, Checked.ok_bind, if_pos (hend.isAtEnd_iff.mpr rfl), hend.fault_eq, hpast]
  rfl

/-- A number is moved over to its last digit. -/
theorem Spans.scanNumber_eq {numeral : Numeral} {ds : List Char}
    (h : c.Spans before [ch] (ds ++ ahead)) (htext : numeral.text = ch :: ds)
    (hs : (Segment.number numeral).WellFormed) (he : (Segment.number numeral).EndsBefore ahead) :
    c.scanNumber =
      .ok ((Segment.number numeral).item? c.startLine, c.past (.number numeral)) := by
  obtain ⟨d, hrun, hfraction⟩ := h.eatNumber_eq htext hs he
  have hlexeme : (c.moved false ds).Spans before (ch :: ds) ahead := h.moved false
  have hfeeds : '\n' ∉ ch :: ds := htext ▸ lineFeed_not_mem_number hs
  have hpast : c.moved false ds = c.past (.number numeral) := by
    rw [moved_false (List.not_mem_of_not_mem_cons hfeeds)]
    refine h.moved_eq_past hline ?_ htext.symm
    exact fun hmem => hfeeds (List.mem_append_left ds hmem)
  unfold scanNumber
  rw [hrun, Checked.ok_bind, hfraction, Checked.ok_bind, hlexeme.lexeme_eq, Checked.ok_bind,
    String.toList_ofList, ← htext, ofText?_text hs, hpast]
  rfl

/-- A word is moved over to its last character. -/
theorem Spans.scanWord_eq {cs : List Char} (h : c.Spans before [ch] (cs ++ ahead))
    (hs : ∀ d ∈ ch :: cs, isWordPart d = true) (hstop : Stops isWordPart ahead) :
    c.scanWord = .ok ((Segment.word (ch :: cs)).item? c.startLine, c.past (.word (ch :: cs))) := by
  have hcs : ∀ d ∈ cs, isWordPart d = true := fun d hd => hs d (List.mem_cons_of_mem ch hd)
  have hend : (c.moved false cs).Spans before (ch :: cs) ahead := h.moved false
  have hfeeds : '\n' ∉ ch :: cs := fun hmem => absurd (hs _ hmem) (by decide)
  have hpast : c.moved false cs = c.past (.word (ch :: cs)) := by
    rw [moved_false (List.not_mem_of_not_mem_cons hfeeds)]
    exact h.moved_eq_past hline (fun hmem => hfeeds (List.mem_append_left cs hmem)) rfl
  unfold scanWord
  rw [h.eatRun_eq, takeWhile_append_of_stops hcs hstop, Checked.ok_bind, hend.lexeme_eq,
    Checked.ok_bind, hend.token_eq (carriesLiteral_wordKind _), hpast]
  rfl

/-- An operator that nothing continues is moved over. -/
theorem Spans.scanOperator_eq {op : Operator} (h : c.Spans before [ch] ahead)
    (hread : op.text.toList = [ch]) (he : (Segment.operator op).EndsBefore ahead) :
    c.scanOperator op =
      .ok ((Segment.operator op).item? c.startLine, c.past (.operator op)) := by
  have hpast : c.moved true [] = c.past (.operator op) :=
    h.moved_eq_past hline (hread ▸ lineFeed_not_mem_operator op) hread.symm
  rw [moved_nil] at hpast
  have htoken := h.token_operator hread hpast
  unfold scanOperator
  split
  · rw [h.eat_eq_of_stops (he.2 rfl), Checked.ok_bind]
    exact htoken
  · next wide hslash hwide =>
    rw [h.eat_eq_of_stops (he.1 (by rw [hwide]; simp)), Checked.ok_bind]
    exact htoken
  · exact htoken

/-- An operator is moved over together with an equals sign that continues it. -/
theorem Spans.scanOperator_wide {base wide : Operator}
    (h : c.Spans before [ch] ('=' :: ahead)) (hread : base.text.toList = [ch])
    (hwide : base.withEqual? = some wide) :
    c.scanOperator base =
      .ok ((Segment.operator wide).item? c.startLine, c.past (.operator wide)) := by
  have htext : wide.text.toList = [ch] ++ ['='] := by
    rw [Operator.text_withEqual? hwide, hread]
  have hequal : (c.moved false ['=']).Spans before ([ch] ++ ['=']) ahead := h.moved false
  have hpast : c.moved false ['='] = c.past (.operator wide) := by
    rw [moved_false (by decide)]
    exact h.moved_eq_past hline (hread ▸ lineFeed_not_mem_operator base) htext.symm
  unfold scanOperator
  split
  · cases hwide
  · next found hslash hfound =>
    obtain rfl := Option.some.inj (hfound.symm.trans hwide)
    rw [h.eat_eq_of_head, Checked.ok_bind]
    exact hequal.token_operator htext hpast
  · next hslash hnone =>
    rw [hwide] at hnone
    cases hnone

/-- A comment is moved over to the end of its line. -/
theorem Spans.scanOperator_comment {body : List Char}
    (h : c.Spans before ['/'] ('/' :: (body ++ ahead))) (hbody : '\n' ∉ body)
    (hstop : Stops (· != '\n') ahead) :
    c.scanOperator .slash = .ok (none, c.past (.comment body)) := by
  have hslash : (c.moved false ['/']).Spans before (['/'] ++ ['/']) (body ++ ahead) := h.moved false
  have hfeeds : '\n' ∉ '/' :: body := List.not_mem_cons_of_ne_of_not_mem (by decide) hbody
  have hpast : (c.moved false ['/']).moved false body = c.past (.comment body) := by
    rw [moved_moved, List.singleton_append, moved_false hfeeds]
    exact h.moved_eq_past hline (by decide) rfl
  unfold scanOperator
  rw [h.eat_eq_of_head, Checked.ok_bind]
  change (eatRun _ false (c.moved false ['/']) >>= fun d => Except.ok (none, d)) = _
  rw [hslash.eatRun_eq, takeWhile_append_of_stops (forall_bne_of_not_mem hbody) hstop, hpast]
  rfl

end Begun

end Spans

/-! ### The first character -/

section First

variable {c : Cursor} {ch : Char}

theorem scanFrom_of_isDigit (h : ch.isDigit = true) : c.scanFrom ch = c.scanNumber := by
  have hpart := isWordPart_of_isDigit h
  have hblank := isBlank_eq_false_of_isWordPart hpart
  unfold scanFrom
  rw [if_neg (ne_lineFeed_of_not_isBlank hblank), hblank, if_neg (ne_quote_of_isWordPart hpart), h]
  rfl

theorem scanFrom_of_isWordStart (h : isWordStart ch = true) : c.scanFrom ch = c.scanWord := by
  have hpart := isWordPart_of_isWordStart h
  have hblank := isBlank_eq_false_of_isWordPart hpart
  unfold scanFrom
  rw [if_neg (ne_lineFeed_of_not_isBlank hblank), hblank, if_neg (ne_quote_of_isWordPart hpart),
    isDigit_eq_false_of_isWordStart h, h]
  rfl

theorem scanFrom_of_ofChar? {op : Operator} (h : Operator.ofChar? ch = some op) :
    c.scanFrom ch = c.scanOperator op := by
  obtain ⟨hblank, hquote, hdigit, hstart⟩ := not_special_of_ofChar? h
  unfold scanFrom
  rw [if_neg (ne_lineFeed_of_not_isBlank hblank), hblank, if_neg hquote, hdigit, hstart, h]
  rfl

theorem scanFrom_of_stray (h : (Segment.stray ch).WellFormed) :
    c.scanFrom ch = c.fault (.unexpectedCharacter ch) := by
  obtain ⟨hblank, hquote, hpart, hop⟩ := h
  obtain ⟨hstart, hdigit⟩ := Bool.or_eq_false_iff.mp hpart
  unfold scanFrom
  rw [if_neg (ne_lineFeed_of_not_isBlank hblank), hblank, if_neg hquote, hdigit, hstart, hop]
  rfl

/-- A blank is moved over, and a line feed moves on to the next line. -/
theorem Spans.scanFrom_of_isBlank {before ahead : List Char} (h : c.Spans before [] (ch :: ahead))
    (hline : c.line = c.startLine) (hblank : isBlank ch = true) :
    (c.moved false [ch]).scanFrom ch = .ok (none, c.past (.blank ch)) := by
  have hpast : c.moved true [ch] = c.past (.blank ch) :=
    h.moved_eq_past hline List.not_mem_nil rfl
  unfold scanFrom
  by_cases hfeed : ch = '\n'
  · subst hfeed
    have hle : (c.moved false ['\n']).line + 1 ≤ Checked.maxWord := h.line_add_le_maxWord
    rw [if_pos rfl, nextLine_of_le hle, Checked.ok_bind, ← hpast]
    rfl
  · rw [if_neg hfeed, if_pos hblank, moved_false (by simpa using Ne.symm hfeed), hpast]

end First

/-- **A segment is moved over**, and its item is answered. -/
theorem scanSegment_eq {c : Cursor} {s : Segment} {before ahead : List Char}
    (h : c.Spans before [] (s.text ++ ahead)) (hline : c.line = c.startLine) (hs : s.WellFormed)
    (he : s.EndsBefore ahead) : c.scanSegment = .ok (s.item? c.line, c.past s) := by
  obtain ⟨ch, tail, hcons⟩ := List.exists_cons_of_ne_nil hs.text_ne_nil
  rw [hcons, List.cons_append] at h
  -- Behind the first character the segment begins at the same place.
  have hbegun : (c.moved false [ch]).Spans before ([] ++ [ch]) (tail ++ ahead) := h.moved false
  rw [List.nil_append] at hbegun
  have hbegunLine : (c.moved false [ch]).line = (c.moved false [ch]).startLine := hline
  have hpast : (c.moved false [ch]).past s = c.past s := rfl
  have hscan : c.scanSegment = (c.moved false [ch]).scanFrom ch := by
    unfold scanSegment
    rw [h.advance_eq, Checked.ok_bind]
  rw [hscan, hline, ← hpast]
  cases s with
  | blank d =>
    obtain ⟨rfl, rfl⟩ := List.cons.inj hcons
    exact h.scanFrom_of_isBlank hline hs
  | comment body =>
    obtain ⟨rfl, rfl⟩ := List.cons.inj hcons
    have hslash : Operator.ofChar? '/' = some .slash := by decide
    rw [scanFrom_of_ofChar? hslash]
    exact hbegun.scanOperator_comment hbegunLine hs he
  | operator op =>
    change op.text.toList = ch :: tail at hcons
    obtain ⟨d, htext, hd⟩ | ⟨d, base, htext, hd, hbase⟩ := operator_text_cases op
    · rw [htext] at hcons
      obtain ⟨rfl, rfl⟩ := List.cons.inj hcons
      rw [scanFrom_of_ofChar? hd]
      exact hbegun.scanOperator_eq hbegunLine htext he
    · rw [htext] at hcons
      obtain ⟨rfl, rfl⟩ := List.cons.inj hcons
      have hread : base.text.toList = [d] := by rw [Operator.text_ofChar? hd, String.toList_singleton]
      rw [scanFrom_of_ofChar? hd]
      exact hbegun.scanOperator_wide hbegunLine hread hbase
  | string value =>
    obtain ⟨rfl, rfl⟩ := List.cons.inj hcons
    change (c.moved false ['"']).Spans before ['"'] (value ++ ['"'] ++ ahead) at hbegun
    rw [List.append_assoc, List.singleton_append] at hbegun
    exact hbegun.scanString_eq hbegunLine hs
  | number numeral =>
    have htext : (Segment.number numeral).text ++ ahead = ch :: (tail ++ ahead) := by
      rw [hcons, List.cons_append]
    rw [scanFrom_of_isDigit (Segment.isDigit_head_text hs htext)]
    exact hbegun.scanNumber_eq hbegunLine hcons hs he
  | word w =>
    obtain ⟨d, ds, rfl, hstart, hds⟩ := hs.word_eq_cons
    obtain ⟨rfl, rfl⟩ := List.cons.inj hcons
    rw [scanFrom_of_isWordStart hstart]
    exact hbegun.scanWord_eq hbegunLine hs.2 he
  | openString body =>
    obtain ⟨rfl, rfl⟩ := List.cons.inj hcons
    -- An open string ends only with the source.
    obtain rfl : ahead = [] := he
    rw [List.append_nil] at hbegun
    exact hbegun.scanString_open hbegunLine hs
  | stray d =>
    obtain ⟨rfl, rfl⟩ := List.cons.inj hcons
    have hend : '\n' ∉ [d] := by simpa using Ne.symm (ne_lineFeed_of_not_isBlank hs.1)
    have hmoved : c.moved false [d] = c.past (.stray d) := by
      rw [moved_false hend]
      exact h.moved_eq_past hline List.not_mem_nil rfl
    rw [scanFrom_of_stray hs, hbegun.fault_eq, hbegunLine]
    exact congrArg (fun e => Except.ok (_, e)) hmoved

end Cursor

end LoxFront

import LoxFront.Cursor.Logged
import LoxFront.Proofs.Cursor.Safety

/-!
# The log of a scan

The log has a record for each item of the source, in the order of the items, and then the counts.
That the records of faults and those of tokens are written in different places makes no difference:
a call answers one item, so that a fault is logged before anything that comes after it, and after
everything that came before.

* `Item.record` — the record of an item, which is what is written at the lowest threshold
  (`scanLog_trace_eq`);
* `Item.InOrder` — items in the order in which their lexemes stand in a text;
* `Diagnostic.Quotes source d lexeme` — the part of the source that is quoted for `d`: the one
  character that has no place there, or all from the quote that is never closed;
* `Cursor.Follows.scanLogged_eq` — scanning in place finds what there is to find and writes the log
  on the way.

The main statement is `scanLog_mirrors_items`.
-/

namespace LoxFront

open Text

/-! ### Records of items -/

/-- **The record of an item.** A token shows itself; a fault has its line and its message, and
quotes where it was found. -/
def Item.record : Item → Record
  | token t => ⟨.trace, .scanner, t.display⟩
  | fault d lexeme => ⟨.debug, .scanner,
      "line " ++ toString d.line ++ ": " ++ d.message ++ " (" ++ Text.quote lexeme ++ ")"⟩

theorem Item.log_trace (item : Item) : item.log .trace = [item.record] := by
  cases item <;> rfl

/-- **One record for each item**, and the counts. -/
theorem scanLog_trace_eq (source : String) :
    scanLog .trace source =
      (items source).map Item.record ++
        [⟨.debug, .scanner, "scanned " ++ (scan source).summary⟩] := by
  have hrecords : (items source).flatMap (Item.log .trace) = (items source).map Item.record := by
    rw [List.map_eq_flatMap]
    exact List.flatMap_congr fun item _ => item.log_trace
  unfold scanLog
  rw [hrecords]
  rfl

theorem filter_trace_records (found : List Item) :
    ((found.map Item.record).filter fun r => r.level == .trace) =
      (found.filterMap Item.token?).map fun t => ⟨.trace, .scanner, t.display⟩ := by
  induction found with
  | nil => rfl
  | cons item found ih =>
    cases item with
    | token t => exact congrArg (_ :: ·) ih
    | fault d lexeme => exact ih

/-! ### The order of the source -/

/-- The part of the source that an item stands for. -/
def Item.lexeme : Item → String
  | token t => t.lexeme
  | fault _ lexeme => lexeme

/-- **Items in the order of a text**: the lexeme of each stands after that of the one before it,
with other text before, between and after them. -/
inductive Item.InOrder : List Char → List Item → Prop
  | nil {rest : List Char} : InOrder rest []
  | cons {rest : List Char} {items : List Item} (gap : List Char) (item : Item)
      (h : InOrder rest items) : InOrder (gap ++ item.lexeme.toList ++ rest) (item :: items)

theorem Item.InOrder.after {cs : List Char} {items : List Item} (h : InOrder cs items)
    (more : List Char) : InOrder (more ++ cs) items := by
  cases h with
  | nil => exact InOrder.nil
  | cons gap item h =>
    rw [← List.append_assoc, ← List.append_assoc]
    exact InOrder.cons (more ++ gap) item h

theorem Segment.lexeme_of_item? {s : Segment} {line : Nat} {item : Item}
    (h : s.item? line = some item) : item.lexeme.toList = s.text := by
  have hlexeme : item.lexeme = s.lexeme := by
    obtain ⟨-, t, rfl, -, hlexeme, -⟩ | ⟨c, -, rfl⟩ | ⟨body, -, rfl⟩ := Segment.item?_cases h
    · exact hlexeme
    · rfl
    · rfl
  rw [hlexeme, Segment.lexeme, String.toList_ofList]

theorem inOrder_itemsFrom (line : Nat) (segs : List Segment) :
    Item.InOrder (segs.flatMap Segment.text) (itemsFrom line segs) := by
  induction segs generalizing line with
  | nil => exact Item.InOrder.cons [] (.token (.eof line)) Item.InOrder.nil
  | cons s segs ih =>
    have hrest := ih (line + s.lineFeeds)
    rw [itemsFrom_cons, List.flatMap_cons]
    cases hitem : s.item? line with
    | none => exact hrest.after s.text
    | some item =>
      rw [← Segment.lexeme_of_item? hitem]
      exact Item.InOrder.cons [] item hrest

theorem inOrder_items (source : String) : Item.InOrder source.toList (items source) := by
  have h := inOrder_itemsFrom 1 (segments source.toList)
  rw [flatMap_text_segments] at h
  exact h

/-! ### What is quoted for a fault -/

/-- **The part of the source that is quoted** for one of its diagnostics: the character that has no
place there, or everything from the quote that is never closed. -/
inductive Diagnostic.Quotes (source : String) : Diagnostic → String → Prop
  | unexpectedCharacter {c : Char} {line : Nat} {before after : String}
      (hsource : source = before ++ String.singleton c ++ after)
      (hline : line = lineAfter before.toList) :
      Quotes source ⟨line, .unexpectedCharacter c⟩ (String.singleton c)
  | unterminatedString {line : Nat} {before body : String}
      (hsource : source = before ++ ("\"" ++ body)) (hbody : '"' ∉ body.toList)
      (hline : line = lineAfter source.toList) :
      Quotes source ⟨line, .unterminatedString⟩ ("\"" ++ body)

/-- A fault that was found quotes the text of its segment. -/
theorem quotes_of_mem_found {source : String} {d : Diagnostic} {lexeme : String}
    (h : .fault d lexeme ∈ foundFrom 1 (segments source.toList)) : d.Quotes source lexeme := by
  -- The source is the text of the segments before, of the one at fault, and of those after it.
  obtain ⟨xs, s, ys, hsegments, hitem⟩ := exists_append_of_mem_foundFrom h
  have hseparated := separated_segments source.toList
  have htext := flatMap_text_segments source.toList
  rw [hsegments] at hseparated htext
  obtain ⟨hwellFormed, hends, -⟩ := (separated_append.mp hseparated).2
  rw [List.flatMap_append, List.flatMap_cons] at htext
  obtain ⟨-, t, ht, -⟩ | ⟨c, rfl, hfault⟩ | ⟨body, rfl, hfault⟩ := Segment.item?_cases hitem
  · cases ht
  · obtain ⟨rfl, rfl⟩ := Item.fault.inj hfault
    have hsource : source = String.ofList (xs.flatMap Segment.text) ++ String.singleton c ++
        String.ofList (ys.flatMap Segment.text) := by
      rw [← String.toList_inj, ← htext, String.toList_append, String.toList_append,
        String.toList_ofList, String.toList_ofList, String.toList_singleton, List.append_assoc]
      rfl
    refine Diagnostic.Quotes.unexpectedCharacter hsource ?_
    rw [String.toList_ofList]
    rfl
  · obtain ⟨rfl, rfl⟩ := Item.fault.inj hfault
    -- Nothing follows an open string, so what it covers is the rest of the source.
    rw [(List.append_eq_nil_iff.mp hends).1, List.append_nil] at htext
    have hlexeme : (Segment.openString body).lexeme = "\"" ++ String.ofList body := by
      change String.ofList (['"'] ++ body) = _
      rw [String.ofList_append]
    have hsource : source =
        String.ofList (xs.flatMap Segment.text) ++ (Segment.openString body).lexeme := by
      rw [← String.toList_inj, String.toList_append, Segment.lexeme, String.toList_ofList,
        String.toList_ofList, htext]
    rw [hlexeme] at hsource ⊢
    refine Diagnostic.Quotes.unterminatedString hsource ?_ ?_
    · rw [String.toList_ofList]
      exact hwellFormed
    · rw [← htext, lineAfter_append]
      rfl

/-- **Each fault is quoted** as its diagnostic demands, one record for each diagnostic. -/
theorem forall₂_fault_records {source : String} {found : List Item}
    (h : ∀ d lexeme, .fault d lexeme ∈ found → d.Quotes source lexeme) :
    List.Forall₂
      (fun r d => ∃ lexeme, d.Quotes source lexeme ∧ r = (Item.fault d lexeme).record)
      ((found.map Item.record).filter fun r => r.level == .debug)
      (found.filterMap Item.diagnostic?) := by
  induction found with
  | nil => exact List.Forall₂.nil
  | cons item found ih =>
    have hfound := ih fun d lexeme hmem => h d lexeme (List.mem_cons_of_mem item hmem)
    cases item with
    | token t => exact hfound
    | fault d lexeme =>
      exact List.Forall₂.cons ⟨lexeme, h d lexeme List.mem_cons_self, rfl⟩ hfound

theorem quotes_of_mem_items {source : String} {d : Diagnostic} {lexeme : String}
    (h : .fault d lexeme ∈ items source) : d.Quotes source lexeme := by
  rw [items_eq_append, List.mem_append, List.mem_singleton] at h
  obtain hfound | hend := h
  · exact quotes_of_mem_found hfound
  · cases hend

/-! ### Writing the log on the way -/

/-- What was found, and more. -/
def Scanned.extend (s : Scanned) (more : List Item) : Scanned :=
  ⟨s.tokens ++ more.filterMap Item.token?, s.diagnostics ++ more.filterMap Item.diagnostic?⟩

theorem Scanned.extend_nil (s : Scanned) : s.extend [] = s := by
  rw [extend, List.filterMap_nil, List.filterMap_nil, List.append_nil, List.append_nil]

theorem Scanned.extend_token (s : Scanned) (t : Token) (more : List Item) :
    s.extend (.token t :: more) = { s with tokens := s.tokens ++ [t] }.extend more := by
  rw [extend, extend, List.filterMap_cons_some (Item.token?_token t),
    List.filterMap_cons_none (Item.diagnostic?_token t), List.append_assoc, List.singleton_append]

theorem Scanned.extend_fault (s : Scanned) (d : Diagnostic) (lexeme : String) (more : List Item) :
    s.extend (.fault d lexeme :: more) =
      { s with diagnostics := s.diagnostics ++ [d] }.extend more := by
  rw [extend, extend, List.filterMap_cons_none (Item.token?_fault d lexeme),
    List.filterMap_cons_some (Item.diagnostic?_fault d lexeme), List.append_assoc,
    List.singleton_append]

namespace Cursor

/-- **A call with its record**: the lexer's answer, the record of it if it is a fault, and a cursor
that follows the lexer after the call. -/
theorem Follows.nextLogged?_eq {c : Cursor} {l : Lexer} (h : c.Follows l) (t : Threshold) :
    ∃ c', c.nextLogged? t = .ok ((l.pending.head?, c'), faultRecords t l.pending.head?) ∧
      c'.Follows l.next?.2 ∧ l.next?.2.pending = l.pending.tail := by
  obtain ⟨c', hnext, hfollows⟩ := h.next?_eq
  rw [l.yields_next?.answer_eq] at hnext
  refine ⟨c', ?_, hfollows, l.yields_next?.pending_eq⟩
  rw [Cursor.nextLogged?_eq, hnext]
  rfl

/-- **Scanning with the log.** The loop finds all items still to come and writes the records of each
before it goes on to the next. -/
theorem Follows.scanLogged_eq {c : Cursor} {l : Lexer} (h : c.Follows l) (t : Threshold)
    (found : Scanned) (written : List Record) :
    c.scanLogged t found written =
      .ok (found.extend l.pending, written ++ l.pending.flatMap (Item.log t) ++
        t.emit .debug .scanner fun _ => "scanned " ++ (found.extend l.pending).summary) := by
  -- By induction on the items still to come, of which each call takes the first.
  generalize hitems : l.pending = items
  induction items generalizing c l found written with
  | nil =>
    obtain ⟨c', hlogged, -, -⟩ := h.nextLogged?_eq t
    rw [hitems] at hlogged
    rw [scanLogged, hlogged]
    simp [Scanned.extend_nil, faultRecords]
  | cons item items ih =>
    obtain ⟨c', hlogged, hfollows, hpending⟩ := h.nextLogged?_eq t
    rw [hitems] at hlogged hpending
    cases item with
    | token tok =>
      rw [scanLogged, hlogged]
      dsimp only [List.head?_cons, faultRecords]
      rw [ih hfollows _ _ hpending, Scanned.extend_token]
      simp [Item.log]
    | fault d lexeme =>
      rw [scanLogged, hlogged]
      dsimp only [List.head?_cons, faultRecords]
      rw [ih hfollows _ _ hpending, Scanned.extend_fault]
      simp

end Cursor

/-- **The log of a scan mirrors the items.** At the lowest threshold it has one record for each
answer of a lexer, in the order of the answers, which is that of the source, and last the counts of
tokens and diagnostics. Those of tokens are displays of the tokens of the scan. Those of faults have
line and message of the diagnostics of the scan, one for each, and quote the character that has no
place there or all from the quote that is never closed. A scan in place that logs each fault when it
is found and each token when it is answered writes this very log, at any threshold. -/
theorem scanLog_mirrors_items (source : String) :
    scanLog .trace source = (items source).map Item.record ++
        [⟨.debug, .scanner, "scanned " ++ toString (scan source).tokens.length ++ " tokens, " ++
          toString (scan source).diagnostics.length ++ " errors"⟩] ∧
      (∀ n, ((Lexer.ofSource source).after n).next?.1 = (items source)[n]?) ∧
      Item.InOrder source.toList (items source) ∧
      ((items source).map Item.record).filter (fun r => r.level == .trace) =
        (scan source).tokens.map (fun t => ⟨.trace, .scanner, t.display⟩) ∧
      List.Forall₂
        (fun r d => ∃ lexeme, d.Quotes source lexeme ∧ r = ⟨.debug, .scanner,
          "line " ++ toString d.line ++ ": " ++ d.message ++ " (" ++ Text.quote lexeme ++ ")"⟩)
        (((items source).map Item.record).filter fun r => r.level == .debug)
        (scan source).diagnostics ∧
      (source.utf8ByteSize ≤ Checked.maxSize → ∀ t : Threshold,
        (Cursor.ofSource source).scanLogged t ⟨[], []⟩ [] =
          .ok (scan source, scanLog t source)) := by
  refine ⟨?_, Lexer.answer_after source, inOrder_items source, filter_trace_records (items source),
    forall₂_fault_records fun d lexeme => quotes_of_mem_items, ?_⟩
  · rw [scanLog_trace_eq, Scanned.summary]
    simp only [String.append_assoc]
  · intro hsize t
    exact (Cursor.follows_ofSource hsize).scanLogged_eq t ⟨[], []⟩ []

/-- A stray character, a token, and a string over two lines that is never closed. -/
theorem scanLog_mirrors_items_open :
    "@ +\"a\nb".utf8ByteSize ≤ Checked.maxSize ∧
      (Cursor.ofSource "@ +\"a\nb").scanLogged .trace ⟨[], []⟩ [] =
        .ok (scan "@ +\"a\nb",
          [⟨.debug, .scanner, "line 1: Unexpected character. (\"@\")"⟩,
           ⟨.trace, .scanner, "Plus + nul"⟩,
           ⟨.debug, .scanner, "line 2: Unterminated string. (\"\\\"a\\nb\")"⟩,
           ⟨.trace, .scanner, "Eof  nul"⟩,
           ⟨.debug, .scanner, "scanned 2 tokens, 2 errors"⟩]) := by
  have hsize : "@ +\"a\nb".utf8ByteSize ≤ Checked.maxSize := by decide
  have hlog : scanLog .trace "@ +\"a\nb" =
      [⟨.debug, .scanner, "line 1: Unexpected character. (\"@\")"⟩,
       ⟨.trace, .scanner, "Plus + nul"⟩,
       ⟨.debug, .scanner, "line 2: Unterminated string. (\"\\\"a\\nb\")"⟩,
       ⟨.trace, .scanner, "Eof  nul"⟩,
       ⟨.debug, .scanner, "scanned 2 tokens, 2 errors"⟩] := by decide +kernel
  refine ⟨hsize, ?_⟩
  rw [(scanLog_mirrors_items _).2.2.2.2.2 hsize .trace, hlog]

end LoxFront

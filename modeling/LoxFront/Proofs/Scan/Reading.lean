import LoxFront.Proofs.Segment.LongestMatch
import LoxFront.Proofs.Text.Lines
import LoxFront.Scan

/-!
# The reference reading of a source

A source is read off its split by longest match: each operator, string, number and word is
a token, each fault a diagnostic, and blanks and comments are nothing.

* `Denotes s kind literal` — the kind and the literal of the token written as `s`;
* `Reading before segs tokens diagnostics` — what the segments `segs` yield after the text
  `before`, with the lines counted from the line feeds passed so far.

Neither refers to how a source is cut or how items are made of segments. The main statement
`scan_reads_longestSplit` says that every source has exactly one split by longest match,
and that scanning it gives the reading of that split and nothing else.
-/

namespace LoxFront

open Text

/-- **What a lexeme denotes.** A word is a keyword if it is one as a whole, else an
identifier. -/
inductive Denotes : Segment → Kind → Option Literal → Prop
  | operator (op : Operator) : Denotes (.operator op) (.operator op) none
  | string (value : List Char) :
      Denotes (.string value) .string (some (.string (String.ofList value)))
  | number (numeral : Numeral) :
      Denotes (.number numeral) .number (some (.number numeral.value.nearest))
  | keyword (word : Keyword) : Denotes (.word word.text.toList) (.keyword word) none
  | identifier {word : List Char} (h : ∀ k : Keyword, k.text.toList ≠ word) :
      Denotes (.word word) .identifier none

/-- **The reading of a split** after the text `before`. A token and a stray character carry
the line where they begin, an open string and the end the line where the source ends. -/
inductive Reading : List Char → List Segment → List Token → List Diagnostic → Prop
  | done {before : List Char} : Reading before [] [⟨.eof, "", none, lineAfter before⟩] []
  | blank {before : List Char} {c : Char} {segs : List Segment} {ts : List Token}
      {ds : List Diagnostic} (h : Reading (before ++ [c]) segs ts ds) :
      Reading before (.blank c :: segs) ts ds
  | comment {before body : List Char} {segs : List Segment} {ts : List Token}
      {ds : List Diagnostic} (h : Reading (before ++ '/' :: '/' :: body) segs ts ds) :
      Reading before (.comment body :: segs) ts ds
  | token {before : List Char} {s : Segment} {kind : Kind} {literal : Option Literal}
      {segs : List Segment} {ts : List Token} {ds : List Diagnostic}
      (hs : Denotes s kind literal) (h : Reading (before ++ s.text) segs ts ds) :
      Reading before (s :: segs) (⟨kind, String.ofList s.text, literal, lineAfter before⟩ :: ts) ds
  | stray {before : List Char} {c : Char} {segs : List Segment} {ts : List Token}
      {ds : List Diagnostic} (h : Reading (before ++ [c]) segs ts ds) :
      Reading before (.stray c :: segs) ts (⟨lineAfter before, .unexpectedCharacter c⟩ :: ds)
  | openString {before body : List Char} {segs : List Segment} {ts : List Token}
      {ds : List Diagnostic} (h : Reading (before ++ '"' :: body) segs ts ds) :
      Reading before (.openString body :: segs) ts
        (⟨lineAfter (before ++ '"' :: body), .unterminatedString⟩ :: ds)

/-! ### Reading one segment -/

theorem wordKind_keyword (word : Keyword) :
    wordKind (String.ofList word.text.toList) = .keyword word := by
  unfold wordKind
  rw [String.ofList_toList, Keyword.ofText?_text]

theorem wordKind_identifier {word : List Char} (h : ∀ k : Keyword, k.text.toList ≠ word) :
    wordKind (String.ofList word) = .identifier := by
  unfold wordKind
  cases hk : Keyword.ofText? (String.ofList word) with
  | none => rfl
  | some k =>
    refine absurd ?_ (h k)
    rw [Keyword.text_ofText? hk, String.toList_ofList]

/-- The item of a lexeme is the token that it denotes. -/
theorem Denotes.item?_eq {s : Segment} {kind : Kind} {literal : Option Literal}
    (h : Denotes s kind literal) (line : Nat) :
    s.item? line = some (.token ⟨kind, String.ofList s.text, literal, line⟩) := by
  cases h with
  | operator op => rfl
  | string value => rfl
  | number numeral => rfl
  | keyword word =>
    change some (Item.token ⟨wordKind _, _, _, _⟩) = _
    rw [Segment.lexeme, Segment.text, wordKind_keyword]
  | identifier h =>
    change some (Item.token ⟨wordKind _, _, _, _⟩) = _
    rw [Segment.lexeme, Segment.text, wordKind_identifier h]

/-- Every word denotes something. -/
theorem exists_denotes_word (word : List Char) : ∃ kind, Denotes (.word word) kind none := by
  by_cases h : ∃ k : Keyword, k.text.toList = word
  · obtain ⟨k, rfl⟩ := h
    exact ⟨.keyword k, Denotes.keyword k⟩
  · exact ⟨.identifier, Denotes.identifier fun k hk => h ⟨k, hk⟩⟩

/-! ### Reading a split -/

theorem ofItems_token (t : Token) (items : List Item) :
    Scanned.ofItems (.token t :: items) =
      ⟨t :: (Scanned.ofItems items).tokens, (Scanned.ofItems items).diagnostics⟩ := rfl

theorem ofItems_fault (d : Diagnostic) (lexeme : String) (items : List Item) :
    Scanned.ofItems (.fault d lexeme :: items) =
      ⟨(Scanned.ofItems items).tokens, d :: (Scanned.ofItems items).diagnostics⟩ := rfl

/-- The items of a list of segments that begins after `before`, segment by segment. -/
theorem itemsFrom_lineAfter_cons (before : List Char) (s : Segment) (segs : List Segment) :
    itemsFrom (lineAfter before) (s :: segs) =
      (s.item? (lineAfter before)).toList ++ itemsFrom (lineAfter (before ++ s.text)) segs := by
  rw [itemsFrom_cons, lineAfter_append]
  rfl

/-- A reading is what the items of the segments sort into. -/
theorem Reading.ofItems_eq {before : List Char} {segs : List Segment} {ts : List Token}
    {ds : List Diagnostic} (h : Reading before segs ts ds) :
    Scanned.ofItems (itemsFrom (lineAfter before) segs) = ⟨ts, ds⟩ := by
  induction h with
  | done => rfl
  | blank _ ih =>
    rw [itemsFrom_lineAfter_cons]
    exact ih
  | comment _ ih =>
    rw [itemsFrom_lineAfter_cons]
    exact ih
  | token hs _ ih =>
    rw [itemsFrom_lineAfter_cons, hs.item?_eq, Option.toList_some, List.singleton_append,
      ofItems_token, ih]
  | @stray before c segs ts ds _ ih =>
    rw [itemsFrom_lineAfter_cons]
    change Scanned.ofItems (.fault _ _ :: itemsFrom (lineAfter (before ++ [c])) segs) = _
    rw [ofItems_fault, ih]
  | @openString before body segs ts ds _ ih =>
    rw [itemsFrom_lineAfter_cons]
    change Scanned.ofItems
      (.fault _ _ :: itemsFrom (lineAfter (before ++ '"' :: body)) segs) = _
    -- The fault is found where the source ends, so its line takes in the segment itself.
    have hline : lineAfter before + (Segment.openString body).lineFeeds =
        lineAfter (before ++ '"' :: body) := (lineAfter_append _ _).symm
    rw [ofItems_fault, ih, hline]

/-- Every list of segments has a reading. -/
theorem exists_reading (segs : List Segment) (before : List Char) :
    ∃ ts ds, Reading before segs ts ds := by
  induction segs generalizing before with
  | nil => exact ⟨_, _, Reading.done⟩
  | cons s segs ih =>
    obtain ⟨ts, ds, h⟩ := ih (before ++ s.text)
    cases s with
    | blank c => exact ⟨_, _, Reading.blank h⟩
    | comment body => exact ⟨_, _, Reading.comment h⟩
    | operator op => exact ⟨_, _, Reading.token (Denotes.operator op) h⟩
    | string value => exact ⟨_, _, Reading.token (Denotes.string value) h⟩
    | number numeral => exact ⟨_, _, Reading.token (Denotes.number numeral) h⟩
    | word w =>
      obtain ⟨kind, hw⟩ := exists_denotes_word w
      exact ⟨_, _, Reading.token hw h⟩
    | openString body => exact ⟨_, _, Reading.openString h⟩
    | stray c => exact ⟨_, _, Reading.stray h⟩

/-- The reading of a split is unique, and it is what the items of the segments sort into. -/
theorem reading_iff {before : List Char} {segs : List Segment} {ts : List Token}
    {ds : List Diagnostic} :
    Reading before segs ts ds ↔ Scanned.ofItems (itemsFrom (lineAfter before) segs) = ⟨ts, ds⟩ := by
  constructor
  · exact Reading.ofItems_eq
  · intro h
    obtain ⟨ts', ds', hread⟩ := exists_reading segs before
    rw [hread.ofItems_eq] at h
    obtain ⟨rfl, rfl⟩ := Scanned.mk.inj h
    exact hread

/-! ### The reference -/

/-- **Scanning is reading the split by longest match.** Every source falls by longest match
into exactly one list of segments; they are not empty and make up the whole source, and
scanning finds the tokens and the diagnostics of their reading. -/
theorem scan_reads_longestSplit (source : String) :
    ∃ segs : List Segment,
      (∀ other, LongestSplit source.toList other ↔ other = segs) ∧
      segs.flatMap Segment.text = source.toList ∧
      (∀ s ∈ segs, s.text ≠ []) ∧
      ∀ result : Scanned,
        scan source = result ↔ Reading [] segs result.tokens result.diagnostics := by
  refine ⟨segments source.toList, fun other => longestSplit_iff, flatMap_text_segments _, ?_, ?_⟩
  · intro s hs
    exact (wellFormed_of_mem_segments hs).text_ne_nil
  · intro result
    rw [reading_iff, lineAfter_nil]
    exact Iff.rfl

end LoxFront

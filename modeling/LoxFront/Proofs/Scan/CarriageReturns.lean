import LoxFront.Proofs.Scan.Tokens

/-!
# Line ends with carriage returns

Some texts end their lines with a carriage return and a line feed. Scanning does not tell the
difference, except that a string keeps the line ends that were written in it.

* `toCRLF` — a source with a carriage return before each line feed; `Token.toCRLF` — a token with
  its lexeme and its literal, if that is a string, so changed;
* `Segment.toCRLF` — a segment so changed. It is a segment again, except that a line feed becomes
  two blanks;
* `foundFrom_crlf_append` — one segment and what follows it: behind a comment the carriage return
  belongs to the comment, everywhere else it is a blank of its own, and in neither case it yields
  anything;
* `foundFrom_crlf` — the items of a text, from the segments one by one.

The main statement is `scan_toCRLF`.
-/

namespace LoxFront

open Text

/-- A text with a carriage return before each line feed. -/
def Text.crlf (cs : List Char) : List Char :=
  cs.flatMap fun c => if c = '\n' then ['\r', '\n'] else [c]

/-- **A source with a carriage return before each line feed.** -/
def toCRLF (source : String) : String := String.ofList (crlf source.toList)

def Literal.toCRLF : Literal → Literal
  | number x => number x
  | string s => string (LoxFront.toCRLF s)

/-- A token as it is written with carriage returns. -/
def Token.toCRLF (t : Token) : Token :=
  { t with lexeme := LoxFront.toCRLF t.lexeme, literal := t.literal.map Literal.toCRLF }

def Item.toCRLF : Item → Item
  | token t => token t.toCRLF
  | fault d lexeme => fault d (LoxFront.toCRLF lexeme)

/-! ### Texts with carriage returns -/

@[simp] theorem crlf_nil : crlf [] = [] := rfl

@[simp] theorem crlf_lineFeed (cs : List Char) : crlf ('\n' :: cs) = '\r' :: '\n' :: crlf cs := rfl

theorem crlf_cons {c : Char} (h : c ≠ '\n') (cs : List Char) : crlf (c :: cs) = c :: crlf cs := by
  unfold crlf
  rw [List.flatMap_cons, if_neg h, List.singleton_append]

theorem crlf_append (xs ys : List Char) : crlf (xs ++ ys) = crlf xs ++ crlf ys :=
  List.flatMap_append

/-- Without line feeds there is nothing to change. -/
theorem crlf_eq_self {cs : List Char} (h : '\n' ∉ cs) : crlf cs = cs := by
  induction cs with
  | nil => rfl
  | cons c cs ih =>
    rw [List.mem_cons, not_or] at h
    rw [crlf_cons (Ne.symm h.1), ih h.2]

theorem toCRLF_eq_self {text : String} (h : '\n' ∉ text.toList) : toCRLF text = text := by
  rw [toCRLF, crlf_eq_self h, String.ofList_toList]

theorem toCRLF_ofList (cs : List Char) : toCRLF (String.ofList cs) = String.ofList (crlf cs) := by
  rw [toCRLF, String.toList_ofList]

/-- No line feed comes or goes. -/
theorem count_lineFeed_crlf (cs : List Char) : (crlf cs).count '\n' = cs.count '\n' := by
  induction cs with
  | nil => rfl
  | cons c cs ih =>
    by_cases hc : c = '\n'
    · subst hc
      rw [crlf_lineFeed, List.count_cons_of_ne (by decide), List.count_cons_self,
        List.count_cons_self, ih]
    · rw [crlf_cons hc, List.count_cons, List.count_cons, ih]

theorem quote_not_mem_crlf {cs : List Char} (h : '"' ∉ cs) : '"' ∉ crlf cs := by
  intro hmem
  obtain ⟨c, hc, hquote⟩ := List.mem_flatMap.mp hmem
  split at hquote
  · exact absurd hquote (by decide)
  · obtain rfl := List.mem_singleton.mp hquote
    exact h hc

namespace Segment

/-- A carriage return is a blank, so a text breaks off where the first one is put in. -/
theorem breaksOff_crlf (cs : List Char) : BreaksOff cs (crlf cs) := by
  induction cs with
  | nil => exact BreaksOff.nil []
  | cons c cs ih =>
    by_cases hc : c = '\n'
    · subst hc
      exact BreaksOff.blank rfl _ _
    · rw [crlf_cons hc]
      exact BreaksOff.cons c ih

/-! ### Segments with carriage returns -/

/-- A segment as it is written with carriage returns. -/
def toCRLF : Segment → Segment
  | string value => string (crlf value)
  | openString body => openString (crlf body)
  | s => s

/-- Of the segments without a line end only strings hold line feeds. -/
theorem WellFormed.text_toCRLF {s : Segment} (hs : s.WellFormed) (hblank : s ≠ blank '\n') :
    s.toCRLF.text = crlf s.text := by
  cases s with
  | string value =>
    change '"' :: (crlf value ++ ['"']) = crlf ('"' :: (value ++ ['"']))
    rw [crlf_cons (by decide), crlf_append]
    rfl
  | openString body =>
    change '"' :: crlf body = crlf ('"' :: body)
    rw [crlf_cons (by decide)]
  | blank c =>
    have hc : '\n' ∉ [c] := fun hmem => hblank (List.mem_singleton.mp hmem ▸ rfl)
    exact (crlf_eq_self hc).symm
  | comment body => exact (crlf_eq_self (lineFeed_not_mem_comment hs)).symm
  | stray c =>
    have hc : '\n' ∉ [c] := fun hmem =>
      ne_lineFeed_of_not_isBlank hs.1 (List.mem_singleton.mp hmem).symm
    exact (crlf_eq_self hc).symm
  | _ => exact (crlf_eq_self (hs.lineFeed_not_mem rfl (by simp))).symm

theorem WellFormed.toCRLF {s : Segment} (hs : s.WellFormed) : s.toCRLF.WellFormed := by
  cases s with
  | string value => exact quote_not_mem_crlf hs
  | openString body => exact quote_not_mem_crlf hs
  | _ => exact hs

/-- A segment ends where it did, unless it is a comment, which takes in the carriage return. -/
theorem EndsBefore.toCRLF {s : Segment} {rest : List Char} (h : s.EndsBefore rest)
    (hcomment : ∀ body, s ≠ comment body) : s.toCRLF.EndsBefore (crlf rest) := by
  cases s with
  | string value => trivial
  | openString body =>
    obtain rfl : rest = [] := h
    rfl
  | _ => exact h.breaksOff (breaksOff_crlf rest) hcomment (by simp)

section Item

variable {s : Segment} (hs : s.WellFormed) (hblank : s ≠ blank '\n')

include hs hblank

theorem WellFormed.lineFeeds_toCRLF : s.toCRLF.lineFeeds = s.lineFeeds := by
  unfold lineFeeds
  rw [hs.text_toCRLF hblank, count_lineFeed_crlf]

theorem WellFormed.lexeme_toCRLF : s.toCRLF.lexeme = LoxFront.toCRLF s.lexeme := by
  unfold lexeme
  rw [hs.text_toCRLF hblank, toCRLF_ofList]

/-- **One segment** yields what it did, as it is written with carriage returns. -/
theorem WellFormed.item?_toCRLF (line : Nat) :
    s.toCRLF.item? line = (s.item? line).map Item.toCRLF := by
  have hlexeme := hs.lexeme_toCRLF hblank
  have hfeeds := hs.lineFeeds_toCRLF hblank
  cases s with
  | blank c => rfl
  | comment body => rfl
  | operator op => exact congrArg (fun x => some (Item.token ⟨.operator op, x, none, line⟩)) hlexeme
  | string value =>
    change some (Item.token (.string (string (crlf value)).lexeme _ line)) =
      some (.token ⟨_, _, some (.string (LoxFront.toCRLF (String.ofList value))), line⟩)
    rw [toCRLF_ofList]
    exact congrArg (fun x => some (Item.token (.string x _ line))) hlexeme
  | number numeral => exact congrArg (fun x => some (Item.token (.number x _ line))) hlexeme
  | word w =>
    -- The kind goes by the lexeme as it was written; without a line feed that is the same.
    have hw : LoxFront.toCRLF (word w).lexeme = (word w).lexeme := hlexeme.symm
    change _ = some (Item.token ⟨_, LoxFront.toCRLF (word w).lexeme, none, line⟩)
    rw [hw]
    rfl
  | openString body =>
    change some (Item.fault ⟨line + (openString (crlf body)).lineFeeds, _⟩ _) =
      some (.fault ⟨line + (openString body).lineFeeds, _⟩
        (LoxFront.toCRLF (openString body).lexeme))
    rw [← hlexeme, ← hfeeds]
    rfl
  | stray c => exact congrArg (fun x => some (Item.fault ⟨line, .unexpectedCharacter c⟩ x)) hlexeme

end Item

/-! ### Reading segments with carriage returns -/

/-- The carriage return before a line feed yields nothing. -/
theorem foundFrom_carriageReturn (line : Nat) (cs : List Char) :
    foundFrom line (segments ('\r' :: cs)) = foundFrom line (segments cs) := by
  rw [segments_cons, first_of_isBlank rfl, foundFrom_cons]
  rfl

/-- **One segment and what follows it**, as they are written with carriage returns. -/
theorem foundFrom_crlf_append {s : Segment} {rest : List Char} (hs : s.WellFormed)
    (he : s.EndsBefore rest) (line : Nat) :
    foundFrom line (segments (crlf s.text ++ crlf rest)) =
      ((s.item? line).map Item.toCRLF).toList ++
        foundFrom (line + s.lineFeeds) (segments (crlf rest)) := by
  by_cases hcomment : ∃ body, s = comment body
  · obtain ⟨body, rfl⟩ := hcomment
    have htext : (comment body).text = crlf (comment body).text := hs.text_toCRLF (by simp)
    rw [← htext, lineFeeds_comment hs]
    cases rest with
    | nil =>
      rw [crlf_nil, segments_text_append hs (endsBefore_nil _), foundFrom_cons,
        lineFeeds_comment hs]
      rfl
    | cons c cs =>
      -- The comment ends at a line feed, and the carriage return before that is part of it.
      obtain rfl := eq_lineFeed_of_endsBefore_comment he
      have hshape : (comment (body ++ ['\r'])).WellFormed :=
        wellFormed_comment_append hs (by decide)
      have hends : (comment (body ++ ['\r'])).EndsBefore ('\n' :: crlf cs) :=
        (stops_cons _ _ _).mpr rfl
      have hmoved : (comment body).text ++ crlf ('\n' :: cs) =
          (comment (body ++ ['\r'])).text ++ '\n' :: crlf cs := by
        rw [crlf_lineFeed]
        simp [text]
      rw [hmoved, segments_text_append hshape hends, foundFrom_cons,
        lineFeeds_comment hshape, crlf_lineFeed, foundFrom_carriageReturn]
      rfl
  · rw [not_exists] at hcomment
    by_cases hblank : s = blank '\n'
    · subst hblank
      change foundFrom line (segments ('\r' :: '\n' :: crlf rest)) = _
      rw [foundFrom_carriageReturn, segments_cons, first_of_isBlank rfl, foundFrom_cons]
      rfl
    · rw [← hs.text_toCRLF hblank, segments_text_append hs.toCRLF (he.toCRLF hcomment),
        foundFrom_cons, hs.item?_toCRLF hblank, hs.lineFeeds_toCRLF hblank]

end Segment

/-- **The items of a text** with carriage returns are those that it had, changed alike. -/
theorem foundFrom_crlf (cs : List Char) (line : Nat) :
    foundFrom line (segments (crlf cs)) = (foundFrom line (segments cs)).map Item.toCRLF := by
  induction cs using segments.induct generalizing line with
  | case1 =>
    rw [crlf_nil, segments_nil]
    rfl
  | case2 c cs cut ih =>
    have hfirst := Segment.foundFrom_crlf_append (Segment.wellFormed_first c cs)
      (Segment.endsBefore_first c cs) line
    rw [← crlf_append, Segment.text_first, ih] at hfirst
    rw [hfirst, segments_cons, foundFrom_cons, List.map_append]
    congr 1
    cases (Segment.first c cs).1.item? line <;> rfl

/-! ### The tokens that change -/

/-- **Only a string over several lines changes.** -/
theorem Token.Lexical.toCRLF_eq_self {t : Token} (h : t.Lexical)
    (hlines : ¬ (t.kind = .string ∧ '\n' ∈ t.lexeme.toList)) : t.toCRLF = t := by
  cases h with
  | eof line => rfl
  | @denoted s kind literal hs hdenotes line =>
    -- The lexeme has no line feed: in a string by assumption, elsewhere by its shape.
    have hlexeme : '\n' ∉ s.text := by
      intro hmem
      by_cases hstring : ∃ value, s = .string value
      · obtain ⟨value, rfl⟩ := hstring
        cases hdenotes
        refine hlines ⟨rfl, ?_⟩
        rw [String.toList_ofList]
        exact hmem
      · rw [not_exists] at hstring
        exact hs.lineFeed_not_mem hdenotes.isLexeme hstring hmem
    have hliteral : literal.map Literal.toCRLF = literal := by
      cases hdenotes with
      | string value =>
        have hvalue : '\n' ∉ value := fun hmem =>
          hlexeme (List.mem_cons_of_mem _ (List.mem_append_left _ hmem))
        change some (Literal.string (LoxFront.toCRLF (String.ofList value))) = _
        rw [toCRLF_ofList, crlf_eq_self hvalue]
      | _ => rfl
    change Token.mk kind (LoxFront.toCRLF (String.ofList s.text)) (literal.map Literal.toCRLF) line
      = _
    rw [toCRLF_ofList, crlf_eq_self hlexeme, hliteral]

/-! ### The scan -/

theorem tokens_toCRLF (source : String) :
    (scan (toCRLF source)).tokens = (scan source).tokens.map Token.toCRLF := by
  have hlast : lineAfter (crlf source.toList) = lineAfter source.toList := by
    unfold lineAfter
    rw [count_lineFeed_crlf]
  rw [scan_tokens_eq_append, scan_tokens_eq_append source, toCRLF, String.toList_ofList, hlast,
    foundFrom_crlf, filterMap_map_comm (fun item => by cases item <;> rfl), List.map_append]
  rfl

theorem diagnostics_toCRLF (source : String) :
    (scan (toCRLF source)).diagnostics = (scan source).diagnostics := by
  rw [scan_diagnostics_eq_found, scan_diagnostics_eq_found source, toCRLF, String.toList_ofList,
    foundFrom_crlf, List.filterMap_map]
  refine List.filterMap_congr fun item _ => ?_
  cases item <;> rfl

/-- **Scanning is compatible with carriage returns at line ends.** A source with a carriage return
before each line feed has the same diagnostics, and the same tokens but for the line ends in their
lexemes and in the values of strings. Only strings over several lines have any. -/
theorem scan_toCRLF (source : String) :
    scan (toCRLF source) =
        ⟨(scan source).tokens.map Token.toCRLF, (scan source).diagnostics⟩ ∧
      ∀ t ∈ (scan source).tokens, t.toCRLF ≠ t → t.kind = .string ∧ '\n' ∈ t.lexeme.toList := by
  refine ⟨?_, fun t ht hne => ?_⟩
  · rw [← tokens_toCRLF, ← diagnostics_toCRLF]
  · by_contra hlines
    exact hne ((lexical_of_mem_scan ht).toCRLF_eq_self hlines)

/-- A string over two lines, and a quote in a comment. -/
theorem scan_toCRLF_string :
    scan "\"a\r\nb\" // \"\r\n1" =
        ⟨(scan "\"a\nb\" // \"\n1").tokens.map Token.toCRLF,
          (scan "\"a\nb\" // \"\n1").diagnostics⟩ ∧
      Token.string "\"a\nb\"" "a\nb" 1 ∈ (scan "\"a\nb\" // \"\n1").tokens ∧
      (Token.string "\"a\nb\"" "a\nb" 1).toCRLF ≠ Token.string "\"a\nb\"" "a\nb" 1 ∧
      '\n' ∈ "\"a\nb\"".toList := by
  obtain ⟨hscan, htokens⟩ := scan_toCRLF "\"a\nb\" // \"\n1"
  have hfirst : (scan "\"a\nb\" // \"\n1").tokens[0]? = some (.string "\"a\nb\"" "a\nb" 1) := by
    decide +kernel
  have hmem := List.mem_of_getElem? hfirst
  have hne : (Token.string "\"a\nb\"" "a\nb" 1).toCRLF ≠ Token.string "\"a\nb\"" "a\nb" 1 := by
    decide +kernel
  exact ⟨hscan, hmem, hne, (htokens _ hmem hne).2⟩

end LoxFront

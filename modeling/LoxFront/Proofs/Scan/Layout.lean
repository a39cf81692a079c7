import LoxFront.Proofs.Item.Parts
import LoxFront.Proofs.Segment.Adjacent
import LoxFront.Proofs.Segment.LongestMatch
import Mathlib.Data.List.Flatten

/-!
# Laying out lexemes

Lexemes that are laid out with gaps between them are scanned back as they were, unless two of
them clash.

* `Gap` — a text of blanks and of comments up to the ends of their lines;
* `Layout` — a gap, and lexemes each with the gap after it;
* `Clashes` — the places in a layout where lexemes are not found again: the pairs of
  `Segment.Fuses` without a gap, a slash before a comment, and a point between two numbers;
* `endsBefore_of_not_clashes` — where nothing clashes, a lexeme ends before what follows it.

The main statement is `scan_layout`.
-/

namespace LoxFront

open Text Segment

/-- **The text of a gap**: blanks, and comments with the line feeds that end them. -/
inductive IsGap : List Char → Prop
  | nil : IsGap []
  | blank {c : Char} {cs : List Char} (hc : isBlank c = true) (h : IsGap cs) : IsGap (c :: cs)
  | comment (body : List Char) {cs : List Char} (hbody : '\n' ∉ body) (h : IsGap cs) :
      IsGap ('/' :: '/' :: (body ++ '\n' :: cs))

structure Gap where
  text : List Char
  isGap : IsGap text

/-- **A layout** of lexemes. -/
structure Layout where
  /-- The gap before the first lexeme. -/
  start : Gap
  /-- The lexemes, each with the gap after it. -/
  parts : List (Lexeme × Gap)

namespace Layout

/-- The text of lexemes, each with the gap after it. -/
def textOf (parts : List (Lexeme × Gap)) : List Char :=
  parts.flatMap fun part => part.1.text ++ part.2.text

def source (layout : Layout) : String :=
  String.ofList (layout.start.text ++ textOf layout.parts)

def lexemes (layout : Layout) : List Lexeme := layout.parts.map Prod.fst

end Layout

/-- **A clash at the front** of a layout: the lexeme `x` and the gap after it, with what follows. -/
def ClashesAt (x : Lexeme) (gap : Gap) (rest : List (Lexeme × Gap)) : Prop :=
  -- A lexeme that fuses with the next.
  (gap.text = [] ∧ ∃ y ∈ rest.head?, x.segment.Fuses y.1.segment) ∨
  -- A slash that becomes part of a comment.
  (x.segment = operator .slash ∧ "//".toList <+: gap.text) ∨
  -- A number that takes a point and the digits after it as its fraction.
  (x.segment.isWhole = true ∧ gap.text = [] ∧
    ∃ p ∈ rest.head?, p.1.segment = operator .dot ∧ p.2.text = [] ∧
      ∃ y ∈ rest.tail.head?, y.1.segment.isNumber = true)

/-- **A clash** anywhere in a layout. -/
def Clashes : List (Lexeme × Gap) → Prop
  | [] => False
  | (x, gap) :: rest => ClashesAt x gap rest ∨ Clashes rest

instance (x : Lexeme) (gap : Gap) (rest : List (Lexeme × Gap)) :
    Decidable (ClashesAt x gap rest) := by
  unfold ClashesAt
  infer_instance

instance decidableClashes : DecidablePred Clashes
  | [] => inferInstanceAs (Decidable False)
  | (x, gap) :: rest =>
    have := decidableClashes rest
    inferInstanceAs (Decidable (ClashesAt x gap rest ∨ Clashes rest))

/-! ### Gaps -/

namespace IsGap

variable {gap : List Char}

/-- A gap that is not empty begins with a blank or a comment. -/
theorem exists_eq_cons (h : IsGap gap) (hne : gap ≠ []) :
    ∃ c cs, gap = c :: cs ∧ isWordPart c = false ∧ c ≠ '.' ∧ c ≠ '=' ∧
      (c = '/' → "//".toList <+: gap) := by
  cases h with
  | nil => exact absurd rfl hne
  | @blank c cs hc =>
    refine ⟨c, cs, rfl, ?_⟩
    simp only [isBlank, Bool.or_eq_true, beq_iff_eq] at hc
    obtain ((rfl | rfl) | rfl) | rfl := hc <;>
      exact ⟨by decide, by decide, by decide, fun hslash => absurd hslash (by decide)⟩
  | @comment body cs =>
    exact ⟨'/', _, rfl, by decide, by decide, by decide, fun _ => ⟨_, rfl⟩⟩

/-- **A gap means nothing**: what stands behind it is read as it is, further down. -/
theorem foundFrom_append (h : IsGap gap) (line : Nat) (rest : List Char) :
    foundFrom line (segments (gap ++ rest)) =
      foundFrom (line + gap.count '\n') (segments rest) := by
  induction h generalizing line with
  | nil => rfl
  | @blank c cs hc _ ih =>
    rw [List.cons_append, segments_cons, first_of_isBlank hc, foundFrom_cons, ih,
      ← List.singleton_append, List.count_append, Nat.add_assoc]
    rfl
  | @comment body cs hbody _ ih =>
    -- The comment ends at its line feed, which is a blank.
    have hgap : '/' :: '/' :: (body ++ '\n' :: cs) =
        (Segment.comment body).text ++ '\n' :: cs := rfl
    have hshape : (Segment.comment body).WellFormed := hbody
    have hends : (Segment.comment body).EndsBefore ('\n' :: (cs ++ rest)) :=
      endsBefore_lineFeed (by simp) _
    rw [hgap, List.append_assoc, List.cons_append, segments_text_append hshape hends,
      segments_cons, first_of_isBlank rfl, foundFrom_cons, foundFrom_cons, ih,
      ← List.singleton_append, List.count_append, List.count_append, ← Nat.add_assoc,
      ← Nat.add_assoc]
    rfl

end IsGap

/-! ### Where lexemes end -/

theorem Gap.stops_isDigit {gap : Gap} (hne : gap.text ≠ []) (rest : List Char) :
    Stops Char.isDigit (gap.text ++ rest) := by
  obtain ⟨c, cs, htext, hpart, -⟩ := gap.isGap.exists_eq_cons hne
  rw [htext, List.cons_append, stops_cons]
  exact (Bool.or_eq_false_iff.mp hpart).2

/-- A lexeme ends before a gap, unless it is a slash before a comment. -/
theorem endsBefore_gap {x : Lexeme} {gap : Gap} (hne : gap.text ≠ [])
    (h : ¬ (x.segment = operator .slash ∧ "//".toList <+: gap.text)) (rest : List Char) :
    x.segment.EndsBefore (gap.text ++ rest) := by
  obtain ⟨c, cs, htext, hpart, hpoint, hequal, hslash⟩ := gap.isGap.exists_eq_cons hne
  have hopen : ∀ body, x.segment ≠ openString body := by
    intro body hx
    exact absurd x.isLexeme (by rw [hx]; simp [Segment.isLexeme])
  have hcomment : ∀ body, x.segment = Segment.comment body → c = '\n' := by
    intro body hx
    exact absurd x.isLexeme (by rw [hx]; simp [Segment.isLexeme])
  rw [htext, List.cons_append]
  exact endsBefore_cons hopen hpart hpoint hequal (fun hx hc => h ⟨hx, hslash hc⟩) hcomment _

/-- **Where nothing clashes**, a lexeme ends before the rest of the layout. -/
theorem endsBefore_of_not_clashes {x : Lexeme} {gap : Gap} {rest : List (Lexeme × Gap)}
    (h : ¬ Clashes ((x, gap) :: rest)) :
    x.segment.EndsBefore (gap.text ++ Layout.textOf rest) := by
  rw [Clashes, ClashesAt, not_or, not_or, not_or] at h
  obtain ⟨⟨hfuses, hslash, hpoint⟩, -⟩ := h
  by_cases hgap : gap.text = []
  · rw [hgap, List.nil_append]
    cases rest with
    | nil => exact endsBefore_nil _
    | cons part rest =>
      obtain ⟨y, gap'⟩ := part
      rw [Layout.textOf, List.flatMap_cons, List.append_assoc]
      refine (x.endsBefore_text_append_iff y _).mpr ⟨fun hy => ?_, fun hwhole hdot => ?_⟩
      · exact hfuses ⟨hgap, _, rfl, hy⟩
      -- A number and a point: it is the next lexeme but one that counts.
      · by_cases hgap' : gap'.text = []
        · rw [hgap', List.nil_append]
          cases rest with
          | nil => exact stops_nil _
          | cons part rest =>
            obtain ⟨z, gap''⟩ := part
            rw [List.flatMap_cons, List.append_assoc, z.stops_isDigit_iff, Bool.eq_false_iff]
            exact fun hz => hpoint ⟨hwhole, hgap, _, rfl, hdot, hgap', _, rfl, hz⟩
        · exact Gap.stops_isDigit hgap' _
  · exact endsBefore_gap hgap hslash _

/-! ### Reading a layout -/

/-- **The token of a lexeme**: it has the lexeme's text, and the kind and the literal that the
lexeme has when it is scanned alone. -/
def Lexeme.ReadsAs (x : Lexeme) (t : Token) : Prop :=
  t.lexeme = String.ofList x.text ∧
    ∃ alone line, (scan (String.ofList x.text)).tokens = [alone, .eof line] ∧
      t.kind = alone.kind ∧ t.literal = alone.literal

/-- A lexeme yields a token, the same on every line. -/
theorem Lexeme.exists_item? (x : Lexeme) :
    ∃ t : Token, t.lexeme = x.segment.lexeme ∧
      ∀ line, x.segment.item? line = some (.token (t.moved line)) := by
  obtain ⟨s, -, hlexeme⟩ := x
  obtain ⟨t, htext, hitem⟩ : ∃ t : Token, t.lexeme = s.lexeme ∧ s.item? 0 = some (.token t) := by
    cases s with
    | operator _ | string _ | number _ | word _ => exact ⟨_, rfl, rfl⟩
    | _ => exact absurd hlexeme (by simp [Segment.isLexeme])
  refine ⟨t, htext, fun line => ?_⟩
  have hadd := s.item?_add 0 line
  rw [Nat.zero_add, hitem] at hadd
  exact hadd

theorem Lexeme.exists_readsAs (x : Lexeme) (line : Nat) :
    ∃ t, x.segment.item? line = some (.token t) ∧ x.ReadsAs t := by
  obtain ⟨t, htext, hitem⟩ := x.exists_item?
  have hcut : segments x.text = [x.segment] := by
    have h := segments_text_append x.wellFormed (endsBefore_nil _)
    rwa [List.append_nil, segments_nil] at h
  refine ⟨t.moved line, hitem line, htext, t.moved 1, lineAfter x.text, ?_, rfl, rfl⟩
  rw [scan_tokens_eq_append, String.toList_ofList, hcut, foundFrom_cons, hitem 1]
  rfl

/-- **A layout without clashes** yields the tokens of its lexemes and nothing else. -/
theorem foundFrom_textOf {parts : List (Lexeme × Gap)} (h : ¬ Clashes parts) (line : Nat) :
    ∃ tokens, foundFrom line (segments (Layout.textOf parts)) = tokens.map Item.token ∧
      List.Forall₂ Lexeme.ReadsAs (parts.map Prod.fst) tokens := by
  induction parts generalizing line with
  | nil => exact ⟨[], by rw [Layout.textOf, List.flatMap_nil, segments_nil]; rfl, .nil⟩
  | cons part rest ih =>
    obtain ⟨x, gap⟩ := part
    have hrest : ¬ Clashes rest := fun hrest => h (Or.inr hrest)
    obtain ⟨t, hitem, ht⟩ := x.exists_readsAs line
    obtain ⟨tokens, hfound, htokens⟩ :=
      ih hrest (line + x.segment.lineFeeds + gap.text.count '\n')
    refine ⟨t :: tokens, ?_, .cons ht htokens⟩
    have htext : Layout.textOf ((x, gap) :: rest) =
        x.segment.text ++ (gap.text ++ Layout.textOf rest) := List.append_assoc _ _ _
    rw [htext, segments_text_append x.wellFormed (endsBefore_of_not_clashes h), foundFrom_cons,
      hitem, gap.isGap.foundFrom_append, hfound]
    rfl

/-! ### Reading two lexemes -/

/-- The lexemes of the tokens are those of the segments that become tokens. -/
theorem lexemes_foundFrom (line : Nat) (segs : List Segment) :
    ((foundFrom line segs).filterMap Item.token?).map Token.lexeme =
      (segs.filter Segment.isLexeme).map Segment.lexeme := by
  induction segs generalizing line with
  | nil => rfl
  | cons s segs ih =>
    rw [foundFrom_cons, List.filterMap_append, List.map_append, ih]
    cases s <;> rfl

/-- Segments that lose no text when only the lexemes are kept are all lexemes. -/
theorem filter_isLexeme_eq_self {segs : List Segment} (hsegs : ∀ s ∈ segs, s.WellFormed)
    (h : (segs.filter Segment.isLexeme).flatMap Segment.text = segs.flatMap Segment.text) :
    segs.filter Segment.isLexeme = segs := by
  induction segs with
  | nil => rfl
  | cons s segs ih =>
    by_cases hs : s.isLexeme = true
    · rw [List.filter_cons_of_pos hs, List.flatMap_cons, List.flatMap_cons,
        List.append_cancel_left_eq] at h
      rw [List.filter_cons_of_pos hs, ih (fun t ht => hsegs t (List.mem_cons_of_mem s ht)) h]
    · -- Without `s` there is less text than the lexemes that are left would have.
      rw [List.filter_cons_of_neg hs, List.flatMap_cons] at h
      have hsub : List.Sublist (segs.filter Segment.isLexeme) segs := List.filter_sublist
      have hle := (hsub.flatMap Segment.text).length_le
      have hpos := List.length_pos_iff.mpr (hsegs s List.mem_cons_self).text_ne_nil
      rw [h, List.length_append] at hle
      omega

theorem Lexeme.eq_segment {x : Lexeme} {s : Segment} (hs : s.WellFormed)
    (h : s.lexeme = String.ofList x.text) : s = x.segment :=
  hs.eq_of_text_eq x.wellFormed (String.ofList_injective h)

theorem lexemes_scan_pair_iff (x y : Lexeme) :
    (scan (String.ofList (x.text ++ y.text))).tokens.dropLast.map Token.lexeme =
        [String.ofList x.text, String.ofList y.text] ↔
      ¬ x.segment.Fuses y.segment := by
  rw [scan_tokens_dropLast, String.toList_ofList, lexemes_foundFrom,
    ← Lexeme.segments_text_append_iff]
  constructor
  · intro h
    obtain ⟨s, rest, hfilter, hs, hrest⟩ := List.map_eq_cons_iff.mp h
    obtain ⟨t, last, rfl, ht, hlast⟩ := List.map_eq_cons_iff.mp hrest
    obtain rfl := List.map_eq_nil_iff.mp hlast
    have hmem : ∀ u ∈ [s, t], u ∈ segments (x.text ++ y.text) := by
      intro u hu
      rw [← hfilter] at hu
      exact List.mem_of_mem_filter hu
    have hsegs : ∀ u ∈ segments (x.text ++ y.text), u.WellFormed :=
      fun u hu => wellFormed_of_mem_segments hu
    obtain rfl := Lexeme.eq_segment (hsegs s (hmem s (by simp))) hs
    obtain rfl := Lexeme.eq_segment (hsegs t (hmem t (by simp))) ht
    -- The two lexemes are all the text there is, so nothing but them was cut.
    rw [← filter_isLexeme_eq_self hsegs, hfilter]
    rw [hfilter, flatMap_text_segments, List.flatMap_cons, List.flatMap_singleton]
    rfl
  · intro h
    rw [h, List.filter_cons_of_pos x.isLexeme, List.filter_cons_of_pos y.isLexeme]
    rfl

/-- **Laying out lexemes and scanning** gives them back, each as the token that it is when it is
scanned alone, if nothing in the layout clashes. For two lexemes without a gap the rules are exact:
they are given back only if they do not fuse. -/
theorem scan_layout :
    (∀ layout : Layout, ¬ Clashes layout.parts →
      (scan layout.source).diagnostics = [] ∧
        ∃ tokens line, (scan layout.source).tokens = tokens ++ [.eof line] ∧
          List.Forall₂ Lexeme.ReadsAs layout.lexemes tokens) ∧
    ∀ x y : Lexeme,
      (scan (String.ofList (x.text ++ y.text))).tokens.dropLast.map Token.lexeme =
          [String.ofList x.text, String.ofList y.text] ↔
        ¬ x.segment.Fuses y.segment := by
  refine ⟨fun layout h => ?_, lexemes_scan_pair_iff⟩
  -- The gap at the start only sets the line on which the lexemes begin.
  obtain ⟨tokens, hfound, htokens⟩ :=
    foundFrom_textOf h (1 + layout.start.text.count '\n')
  have hitems : foundFrom 1 (segments layout.source.toList) = tokens.map Item.token := by
    rw [Layout.source, String.toList_ofList, layout.start.isGap.foundFrom_append, hfound]
  refine ⟨?_, tokens, lineAfter layout.source.toList, ?_, htokens⟩
  · rw [scan_diagnostics_eq_found, hitems, List.filterMap_map]
    exact List.filterMap_eq_nil_iff.mpr fun _ _ => rfl
  · rw [scan_tokens_eq_append, hitems, List.filterMap_map]
    congr 1
    exact List.filterMap_some

/-- A layout where everything is as close together as it may be. -/
def crowded : Layout where
  start := ⟨"//h\n".toList, .comment ['h'] (by simp) .nil⟩
  parts :=
    [(⟨.number ⟨['1'], []⟩, ⟨by simp, by simp, by simp⟩, rfl⟩, ⟨[], .nil⟩),
     (⟨.operator .dot, trivial, rfl⟩, ⟨[], .nil⟩),
     (⟨.word ['x'], ⟨⟨'x', rfl, rfl⟩, List.forall_mem_singleton.mpr rfl⟩, rfl⟩, ⟨[], .nil⟩),
     (⟨.operator .slash, trivial, rfl⟩,
       ⟨" //y\n".toList, .blank rfl (.comment ['y'] (by simp) .nil)⟩),
     (⟨.string ['a'], List.not_mem_cons_of_ne_of_not_mem (by decide) List.not_mem_nil, rfl⟩,
       ⟨[], .nil⟩),
     (⟨.number ⟨['2'], []⟩, ⟨by simp, by simp, by simp⟩, rfl⟩, ⟨[], .nil⟩),
     (⟨.operator .equalEqual, trivial, rfl⟩, ⟨[], .nil⟩),
     (⟨.operator .equal, trivial, rfl⟩, ⟨['\t'], .blank rfl .nil⟩)]

theorem scan_crowded :
    ¬ Clashes crowded.parts ∧ crowded.source = "//h\n1.x/ //y\n\"a\"2===\t" ∧
      (scan crowded.source).diagnostics = [] ∧
        ∃ tokens line, (scan crowded.source).tokens = tokens ++ [.eof line] ∧
          List.Forall₂ Lexeme.ReadsAs crowded.lexemes tokens :=
  ⟨by decide, by decide, scan_layout.1 crowded (by decide)⟩

end LoxFront

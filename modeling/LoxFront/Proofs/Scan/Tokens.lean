import LoxFront.Proofs.Item.Parts
import LoxFront.Proofs.Scan.Reading

/-!
# The tokens that a scan can yield

A token is a record of four fields, and a scan fills only few of these records. Which kind and
which literal a token has is settled by its lexeme.

* `Token.Lexical` — the mark of the end, and the tokens that lexemes denote;
* `lexical_of_mem_scan` — every token of a scan is one of these;
* `Token.Lexical.eq_of_lexeme_eq` — two of them with the same lexeme have the same kind and the
  same literal.
-/

namespace LoxFront

/-- **A token that a scan can yield.** -/
inductive Token.Lexical : Token → Prop
  | eof (line : Nat) : Lexical (.eof line)
  | denoted {s : Segment} {kind : Kind} {literal : Option Literal} (hs : s.WellFormed)
      (hdenotes : Denotes s kind literal) (line : Nat) :
      Lexical ⟨kind, String.ofList s.text, literal, line⟩

/-! ### Lexemes denote one token each -/

theorem exists_denotes {s : Segment} (h : s.isLexeme = true) :
    ∃ kind literal, Denotes s kind literal := by
  cases s with
  | operator op => exact ⟨_, _, Denotes.operator op⟩
  | string value => exact ⟨_, _, Denotes.string value⟩
  | number numeral => exact ⟨_, _, Denotes.number numeral⟩
  | word w =>
    obtain ⟨kind, hw⟩ := exists_denotes_word w
    exact ⟨kind, none, hw⟩
  | _ => exact absurd h (by simp [Segment.isLexeme])

/-- Only lexemes denote anything. -/
theorem Denotes.isLexeme {s : Segment} {kind : Kind} {literal : Option Literal}
    (h : Denotes s kind literal) : s.isLexeme = true := by
  cases h <;> rfl

theorem Denotes.unique {s : Segment} {kind kind' : Kind} {literal literal' : Option Literal}
    (h : Denotes s kind literal) (h' : Denotes s kind' literal') :
    kind = kind' ∧ literal = literal' := by
  -- Both are the item of `s`, on line 1 as on any other.
  have hitem := (h.item?_eq 1).symm.trans (h'.item?_eq 1)
  have htoken := Item.token.inj (Option.some.inj hitem)
  exact ⟨congrArg Token.kind htoken, congrArg Token.literal htoken⟩

/-! ### Tokens of a scan -/

/-- What a segment yields, if it is a token. -/
theorem Segment.lexical_of_item? {s : Segment} (hs : s.WellFormed) {line : Nat} {t : Token}
    (h : s.item? line = some (.token t)) : t.Lexical := by
  obtain ⟨hlexeme, -⟩ | ⟨c, -, hc⟩ | ⟨body, -, hbody⟩ := Segment.item?_cases h
  · obtain ⟨kind, literal, hdenotes⟩ := exists_denotes hlexeme
    have htoken := h.symm.trans (hdenotes.item?_eq line)
    obtain rfl := Item.token.inj (Option.some.inj htoken)
    exact .denoted hs hdenotes line
  · cases hc
  · cases hbody

/-- **Every token of a scan is lexical.** -/
theorem lexical_of_mem_scan {source : String} {t : Token} (h : t ∈ (scan source).tokens) :
    t.Lexical := by
  rw [scan_tokens_eq_append, List.mem_append, List.mem_filterMap, List.mem_singleton] at h
  obtain ⟨item, hitem, ht⟩ | rfl := h
  · obtain ⟨s, hs, line, hyields⟩ := exists_of_mem_foundFrom hitem
    cases item with
    | token u =>
      obtain rfl := Option.some.inj ht
      exact Segment.lexical_of_item? (wellFormed_of_mem_segments hs) hyields
    | fault d lexeme => cases ht
  · exact .eof _

namespace Token.Lexical

variable {t u : Token}

/-- **The lexeme settles the kind and the literal.** -/
theorem eq_of_lexeme_eq (ht : t.Lexical) (hu : u.Lexical) (h : t.lexeme = u.lexeme) :
    t.kind = u.kind ∧ t.literal = u.literal := by
  -- The mark of the end is the only one without a text.
  have hne : ∀ {s : Segment}, s.WellFormed → "" ≠ String.ofList s.text := by
    intro s hs hempty
    exact hs.text_ne_nil (String.ofList_eq_empty_iff.mp hempty.symm)
  cases ht with
  | eof line =>
    cases hu with
    | eof line' => exact ⟨rfl, rfl⟩
    | denoted hs _ _ => exact absurd h (hne hs)
  | denoted hs hdenotes line =>
    cases hu with
    | eof line' => exact absurd h.symm (hne hs)
    | denoted hs' hdenotes' line' =>
      obtain rfl := hs.eq_of_text_eq hs' (String.ofList_injective h)
      exact hdenotes.unique hdenotes'

end Token.Lexical

end LoxFront

import LoxFront.Proofs.Item.Parts
import LoxFront.Proofs.Lexer.Stream
import LoxFront.Proofs.Segment.Boundary

/-!
# The lines of items

An item of a source says on which line it belongs. A token and a stray character belong to
the line on which they begin, also if they reach over further lines; the end of the source
and a string that is never closed belong to the last line.

* `Item.OnLine source offset item` — the line of `item` is right, if the part of `source` it
  comes from begins at the byte `offset`;
* `Lexer.Stands l before` — the invariant of a lexer: it has read `before`, its offset is the
  size of that text and its line the line reached after it;
* `Yields.stands` and `Yields.onLine` — a call keeps the invariant, and under the invariant
  it answers an item with the right line.

The main statement, `onLine_item`, is about every item of every source: a lexer answers it,
and its line is right for the offset at which the lexer found it.
-/

namespace LoxFront

open Text

/-- **The line of an item** of `source` that begins at the byte `offset`. -/
inductive Item.OnLine (source : String) (offset : Nat) : Item → Prop
  | token {t : Token} {before after : String} (hkind : t.kind ≠ .eof)
      (hsource : source = before ++ t.lexeme ++ after) (hoffset : before.utf8ByteSize = offset)
      (hline : t.line = lineAfter before.toList) : OnLine source offset (.token t)
  | eof {line : Nat} (hline : line = lineAfter source.toList) :
      OnLine source offset (.token (.eof line))
  | unexpectedCharacter {c : Char} {line : Nat} {before after : String}
      (hsource : source = before ++ String.singleton c ++ after)
      (hoffset : before.utf8ByteSize = offset) (hline : line = lineAfter before.toList) :
      OnLine source offset (.fault ⟨line, .unexpectedCharacter c⟩ (String.singleton c))
  | unterminatedString {line : Nat} {lexeme : String} (hline : line = lineAfter source.toList) :
      OnLine source offset (.fault ⟨line, .unterminatedString⟩ lexeme)

namespace Lexer

/-- **Where a lexer stands**: it has read `before` and nothing else. -/
structure Stands (l : Lexer) (before : List Char) : Prop where
  /-- What was read and what is still unread make up the source. -/
  source_eq : l.source.toList = before ++ l.rest
  /-- The offset is the size of what was read. -/
  current_eq : l.current = (String.ofList before).utf8ByteSize
  /-- The line is the one reached. -/
  line_eq : l.line = lineAfter before

theorem stands_ofSource (source : String) : (ofSource source).Stands [] where
  source_eq := rfl
  current_eq := rfl
  line_eq := rfl

/-- Moving past the first segment keeps the invariant. -/
theorem Stands.advance {l : Lexer} {before : List Char} {c : Char} {cs : List Char}
    (h : l.Stands before) (hrest : l.rest = c :: cs) :
    (l.advance (Segment.first c cs).1 (Segment.first c cs).2).Stands
      (before ++ (Segment.first c cs).1.text) where
  source_eq := by
    change l.source.toList = _ ++ (Segment.first c cs).2
    rw [h.source_eq, hrest, List.append_assoc, Segment.text_first]
  current_eq := by
    change l.current + _ = _
    rw [h.current_eq, String.ofList_append, String.utf8ByteSize_append]
    rfl
  line_eq := by
    change l.line + _ = _
    rw [h.line_eq, lineAfter_append]
    rfl

theorem Yields.source_eq {l l' : Lexer} {answer : Option Item} (h : Yields l answer l') :
    l'.source = l.source := by
  induction h with
  | exhausted _ => rfl
  | eof _ _ => rfl
  | item _ _ _ => rfl
  | skip _ _ _ _ ih => exact ih

/-- **A call keeps the invariant**: after it the lexer stands somewhere, too. -/
theorem Yields.stands {l l' : Lexer} {answer : Option Item} (h : Yields l answer l')
    {before : List Char} (hl : l.Stands before) : ∃ before', l'.Stands before' := by
  induction h generalizing before with
  | exhausted _ => exact ⟨before, hl⟩
  | eof _ _ => exact ⟨before, hl.source_eq, hl.current_eq, hl.line_eq⟩
  | item _ hrest _ => exact ⟨_, hl.advance hrest⟩
  | skip _ hrest _ _ ih => exact ih (hl.advance hrest)

theorem stands_after (source : String) (n : Nat) :
    ∃ before, ((ofSource source).after n).Stands before := by
  induction n with
  | zero => exact ⟨[], stands_ofSource source⟩
  | succ n ih =>
    obtain ⟨before, h⟩ := ih
    rw [after_succ]
    exact (yields_next? _).stands h

theorem source_after (source : String) (n : Nat) : ((ofSource source).after n).source = source := by
  induction n with
  | zero => rfl
  | succ n ih => rw [after_succ, (yields_next? _).source_eq, ih]

/-! ### The line of an answer -/

/-- The item of the first segment is on the right line, its offset being where the lexer
stands. -/
theorem Stands.onLine {l : Lexer} {before : List Char} {c : Char} {cs : List Char} {item : Item}
    (h : l.Stands before) (hrest : l.rest = c :: cs)
    (hitem : (Segment.first c cs).1.item? l.line = some item) :
    item.OnLine l.source l.current := by
  have htext := Segment.text_first c cs
  have hends := Segment.endsBefore_first c cs
  generalize Segment.first c cs = cut at hitem htext hends
  obtain ⟨s, rest⟩ := cut
  have hlist : l.source.toList = before ++ s.text ++ rest := by
    rw [h.source_eq, hrest, ← htext, List.append_assoc]
  have hsource : l.source = String.ofList before ++ s.lexeme ++ String.ofList rest := by
    rw [Segment.lexeme, ← String.ofList_append, ← String.ofList_append, ← hlist,
      String.ofList_toList]
  have hline : l.line = lineAfter (String.ofList before).toList := by
    rw [String.toList_ofList, h.line_eq]
  obtain ⟨-, t, rfl, hkind, hlexeme, ht⟩ | ⟨d, rfl, rfl⟩ | ⟨body, rfl, rfl⟩ :=
    Segment.item?_cases hitem
  · have htoken : l.source = String.ofList before ++ t.lexeme ++ String.ofList rest := by
      rw [hlexeme]
      exact hsource
    exact Item.OnLine.token hkind htoken h.current_eq.symm (ht.trans hline)
  · exact Item.OnLine.unexpectedCharacter hsource h.current_eq.symm hline
  · -- Nothing follows an open string, so it ends on the last line of the source.
    obtain rfl : rest = [] := hends
    refine Item.OnLine.unterminatedString ?_
    rw [hlist, List.append_nil, lineAfter_append, h.line_eq]
    rfl

/-- **The line of an answer.** After the call the lexer's offset `start` is where the item
was found. -/
theorem Yields.onLine {l l' : Lexer} {answer : Option Item} (h : Yields l answer l')
    {before : List Char} (hl : l.Stands before) :
    ∀ item ∈ answer, item.OnLine l.source l'.start := by
  induction h generalizing before with
  | exhausted _ => exact fun item hitem => absurd hitem (by simp)
  | @eof l _ hrest =>
    intro item hitem
    obtain rfl := Option.some.inj hitem
    refine Item.OnLine.eof ?_
    rw [hl.source_eq, hrest, List.append_nil, hl.line_eq]
  | item _ hrest hfirst =>
    intro item hitem
    obtain rfl := Option.some.inj hitem
    exact hl.onLine hrest hfirst
  | skip _ hrest _ _ ih => exact ih (hl.advance hrest)

end Lexer

/-- **Every item is on its line.** The `n`-th item of a source is what the `n`-th call to a
lexer answers, and its line counts the line feeds before the place where it was found: for a
token and a stray character those before its first character, for the mark of the end and an
unterminated string all of them. -/
theorem onLine_item (source : String) (n : Nat) :
    ((Lexer.ofSource source).after n).next?.1 = (items source)[n]? ∧
      ∀ item ∈ (items source)[n]?,
        item.OnLine source ((Lexer.ofSource source).after (n + 1)).start := by
  have hanswer := Lexer.answer_after source n
  refine ⟨hanswer, ?_⟩
  obtain ⟨before, hstands⟩ := Lexer.stands_after source n
  have hline := (Lexer.yields_next? _).onLine hstands
  rw [hanswer, Lexer.source_after] at hline
  rw [Lexer.after_succ]
  exact hline

/-- A string over two lines, a line of its own, and a stray character at the byte 8. -/
theorem onLine_stray_after_string :
    (items "\"a\nb\"\n\t@")[1]? = some (.fault ⟨3, .unexpectedCharacter '@'⟩ "@") ∧
      (Item.fault ⟨3, .unexpectedCharacter '@'⟩ "@").OnLine "\"a\nb\"\n\t@"
        ((Lexer.ofSource "\"a\nb\"\n\t@").after 2).start := by
  have hitem : (items "\"a\nb\"\n\t@")[1]? = some (.fault ⟨3, .unexpectedCharacter '@'⟩ "@") := by
    decide +kernel
  exact ⟨hitem, (onLine_item "\"a\nb\"\n\t@" 1).2 _ hitem⟩

end LoxFront

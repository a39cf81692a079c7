import LoxFront.Proofs.Text.Lines
import LoxFront.Scan
import Mathlib.Data.List.Basic

/-!
# The items of a source in parts

A source that is read in parts yields its items in parts, each part on the lines that it
begins on.

* `Segment.item?_cases` — all that a segment can yield: a token, a stray character, or a
  string that is never closed;
* `foundFrom` — the items of a list of segments without the mark of the end, which
  `itemsFrom` puts after them (`itemsFrom_eq_append`);
* `foundFrom_append` — the items of two lists of segments, one after the other;
* `exists_append_of_mem_foundFrom` — every item found is the item of one of the segments, on the
  line that those before it reach;
* `Item.moved n` — an item `n` lines further down; segments that begin there yield just that
  (`foundFrom_add`).
-/

namespace LoxFront

open Text

namespace Segment

/-- **All that a segment can yield.** A token and a stray character keep the line on which
the segment begins, an open string the one on which it ends. -/
theorem item?_cases {s : Segment} {line : Nat} {item : Item} (h : s.item? line = some item) :
    (s.isLexeme = true ∧ ∃ t : Token, item = .token t ∧ t.kind ≠ .eof ∧ t.lexeme = s.lexeme ∧
        t.line = line) ∨
      (∃ c, s = stray c ∧ item = .fault ⟨line, .unexpectedCharacter c⟩ s.lexeme) ∨
      ∃ body, s = openString body ∧
        item = .fault ⟨line + s.lineFeeds, .unterminatedString⟩ s.lexeme := by
  cases s with
  | blank c => exact absurd h (by simp [item?])
  | comment body => exact absurd h (by simp [item?])
  | operator op =>
    obtain rfl := Option.some.inj h
    exact Or.inl ⟨rfl, _, rfl, by simp, rfl, rfl⟩
  | string value =>
    obtain rfl := Option.some.inj h
    exact Or.inl ⟨rfl, _, rfl, by simp [Token.string], rfl, rfl⟩
  | number numeral =>
    obtain rfl := Option.some.inj h
    exact Or.inl ⟨rfl, _, rfl, by simp [Token.number], rfl, rfl⟩
  | word w =>
    obtain rfl := Option.some.inj h
    have hkind : wordKind (word w).lexeme ≠ .eof := by
      unfold wordKind
      split <;> simp
    exact Or.inl ⟨rfl, _, rfl, hkind, rfl, rfl⟩
  | openString body =>
    obtain rfl := Option.some.inj h
    exact Or.inr (Or.inr ⟨body, rfl, rfl⟩)
  | stray c =>
    obtain rfl := Option.some.inj h
    exact Or.inr (Or.inl ⟨c, rfl, rfl⟩)

end Segment

/-! ### The mark of the end -/

/-- The items of segments the first of which begins on line `line`, without the mark of the
end. -/
def foundFrom (line : Nat) : List Segment → List Item
  | [] => []
  | s :: segs => (s.item? line).toList ++ foundFrom (line + s.lineFeeds) segs

@[simp] theorem foundFrom_nil (line : Nat) : foundFrom line [] = [] := rfl

theorem foundFrom_cons (line : Nat) (s : Segment) (segs : List Segment) :
    foundFrom line (s :: segs) = (s.item? line).toList ++ foundFrom (line + s.lineFeeds) segs :=
  rfl

theorem foundFrom_append (line : Nat) (xs ys : List Segment) :
    foundFrom line (xs ++ ys) =
      foundFrom line xs ++ foundFrom (line + (xs.flatMap Segment.text).count '\n') ys := by
  induction xs generalizing line with
  | nil => rfl
  | cons s xs ih =>
    rw [List.cons_append, foundFrom_cons, foundFrom_cons, ih, List.flatMap_cons, List.count_append,
      List.append_assoc, Nat.add_assoc]
    rfl

/-- The last segment begins on the line that the text before it reaches. -/
theorem foundFrom_append_singleton (init : List Segment) (last : Segment) :
    foundFrom 1 (init ++ [last]) =
      foundFrom 1 init ++ (last.item? (lineAfter (init.flatMap Segment.text))).toList := by
  rw [foundFrom_append, foundFrom_cons, foundFrom_nil, List.append_nil]
  rfl

/-- An item found comes from a segment with segments before it and after it, and it is found on the
line that those before it reach. -/
theorem exists_append_of_mem_foundFrom {line : Nat} {segs : List Segment} {item : Item}
    (h : item ∈ foundFrom line segs) :
    ∃ xs s ys, segs = xs ++ s :: ys ∧
      s.item? (line + (xs.flatMap Segment.text).count '\n') = some item := by
  induction segs generalizing line with
  | nil => cases h
  | cons s segs ih =>
    rw [foundFrom_cons, List.mem_append, Option.mem_toList] at h
    obtain hfirst | hlater := h
    · exact ⟨[], s, segs, rfl, hfirst⟩
    · obtain ⟨xs, t, ys, rfl, hitem⟩ := ih hlater
      refine ⟨s :: xs, t, ys, rfl, ?_⟩
      rw [List.flatMap_cons, List.count_append, ← Nat.add_assoc]
      exact hitem

/-- **Every item found** is the item of a segment. -/
theorem exists_of_mem_foundFrom {line : Nat} {segs : List Segment} {item : Item}
    (h : item ∈ foundFrom line segs) : ∃ s ∈ segs, ∃ line', s.item? line' = some item := by
  obtain ⟨xs, s, ys, rfl, hitem⟩ := exists_append_of_mem_foundFrom h
  exact ⟨s, List.mem_append_right xs List.mem_cons_self, _, hitem⟩

/-- **The mark of the end** comes last, on the last line. -/
theorem itemsFrom_eq_append (line : Nat) (segs : List Segment) :
    itemsFrom line segs =
      foundFrom line segs ++ [.token (.eof (line + (segs.flatMap Segment.text).count '\n'))] := by
  induction segs generalizing line with
  | nil => rfl
  | cons s segs ih =>
    rw [itemsFrom_cons, foundFrom_cons, ih, List.flatMap_cons, List.count_append,
      List.append_assoc, Nat.add_assoc]
    rfl

theorem items_eq_append (source : String) :
    items source =
      foundFrom 1 (segments source.toList) ++ [.token (.eof (lineAfter source.toList))] := by
  unfold items lineAfter
  rw [itemsFrom_eq_append, flatMap_text_segments]

theorem scan_tokens_eq_append (source : String) :
    (scan source).tokens =
      (foundFrom 1 (segments source.toList)).filterMap Item.token? ++
        [.eof (lineAfter source.toList)] := by
  rw [scan_tokens, items_eq_append, List.filterMap_append]
  rfl

/-- The mark of the end is the last token, so without it there are just those found. -/
theorem scan_tokens_dropLast (source : String) :
    (scan source).tokens.dropLast =
      (foundFrom 1 (segments source.toList)).filterMap Item.token? := by
  rw [scan_tokens_eq_append, List.dropLast_concat]

theorem scan_diagnostics_eq_found (source : String) :
    (scan source).diagnostics =
      (foundFrom 1 (segments source.toList)).filterMap Item.diagnostic? := by
  rw [scan_diagnostics, items_eq_append, List.filterMap_append]
  exact List.append_nil _

/-- A scan is what was found and the mark of the end. -/
theorem scan_eq_of_found {source : String} {found : List Item}
    (h : foundFrom 1 (segments source.toList) = found) :
    scan source = ⟨found.filterMap Item.token? ++ [.eof (lineAfter source.toList)],
      found.filterMap Item.diagnostic?⟩ := by
  subst h
  rw [← scan_tokens_eq_append, ← scan_diagnostics_eq_found]

/-! ### Further down -/

/-- A token `n` lines further down. -/
def Token.moved (n : Nat) (t : Token) : Token := { t with line := t.line + n }

/-- A diagnostic `n` lines further down. -/
def Diagnostic.moved (n : Nat) (d : Diagnostic) : Diagnostic := { d with line := d.line + n }

/-- An item `n` lines further down. -/
def Item.moved (n : Nat) : Item → Item
  | token t => token (t.moved n)
  | fault d lexeme => fault (d.moved n) lexeme

theorem Segment.item?_add (s : Segment) (line n : Nat) :
    s.item? (line + n) = (s.item? line).map (Item.moved n) := by
  cases s with
  | openString body =>
    change some (Item.fault ⟨line + n + _, _⟩ _) = some (.fault ⟨line + _ + n, _⟩ _)
    rw [Nat.add_right_comm]
  | _ => rfl

/-- **Segments further down** yield the same items, moved. -/
theorem foundFrom_add (line n : Nat) (segs : List Segment) :
    foundFrom (line + n) segs = (foundFrom line segs).map (Item.moved n) := by
  induction segs generalizing line with
  | nil => rfl
  | cons s segs ih =>
    rw [foundFrom_cons, foundFrom_cons, List.map_append, s.item?_add, ← ih,
      Nat.add_right_comm]
    congr 1
    cases s.item? line <;> rfl

/-- What is picked from changed items is what was picked from them, changed. -/
theorem filterMap_map_comm {α : Type} {pick : Item → Option α} {change : Item → Item} {f : α → α}
    (h : ∀ item, pick (change item) = (pick item).map f) (items : List Item) :
    (items.map change).filterMap pick = (items.filterMap pick).map f := by
  rw [List.filterMap_map, List.map_filterMap]
  exact List.filterMap_congr fun item _ => h item

theorem filterMap_token?_moved (n : Nat) (items : List Item) :
    (items.map (Item.moved n)).filterMap Item.token? =
      (items.filterMap Item.token?).map (Token.moved n) :=
  filterMap_map_comm (fun item => by cases item <;> rfl) items

theorem filterMap_diagnostic?_moved (n : Nat) (items : List Item) :
    (items.map (Item.moved n)).filterMap Item.diagnostic? =
      (items.filterMap Item.diagnostic?).map (Diagnostic.moved n) :=
  filterMap_map_comm (fun item => by cases item <;> rfl) items

end LoxFront

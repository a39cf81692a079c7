import LoxFront.Proofs.CommandLine.Writes
import LoxFront.Proofs.Scan.Tokens
import LoxFront.Proofs.Text.Span

/-!
# Listings are read back

A listing shows tokens one after another, each by its kind, its lexeme and its literal. Nothing is
escaped in it, and a string may hold spaces, line feeds and even what looks like other tokens. Still
a listing of a scan can be the listing of no other tokens, lines apart.

* `listing` — the text that tokens are listed as;
* `Token.Alike` — tokens that differ in their lines at most;
* `Token.Lexical.eq_of_lexeme_append_eq` — where a lexeme ends is seen from its kind: the lexeme of
  a string ends with the next quote, and any other before the next space;
* `Token.Lexical.alike_of_record_eq` — so a token can be told from the text it begins, whatever
  follows.

The main statement is `listing_eq_iff`.
-/

namespace LoxFront

open Text

/-- **The listing of tokens**: each on a line of its own, unless its text has more lines. -/
def listing (tokens : List Token) : String := String.join (tokens.map fun t => t.display ++ "\n")

/-- **Alike up to lines.** -/
structure Token.Alike (t u : Token) : Prop where
  kind_eq : t.kind = u.kind
  lexeme_eq : t.lexeme = u.lexeme
  literal_eq : t.literal = u.literal

theorem Token.Alike.display_eq {t u : Token} (h : t.Alike u) : t.display = u.display := by
  unfold display literalText
  rw [h.kind_eq, h.lexeme_eq, h.literal_eq]

/-! ### The parts of a record -/

/-- The record of a token, and what follows it: the parts end with a space, a space and a line
feed. -/
theorem toList_display_append (t : Token) (rest : List Char) :
    (t.display ++ "\n").toList ++ rest =
      t.kind.name.toList ++ ' ' :: (t.lexeme.toList ++ ' ' ::
        (t.literalText.toList ++ '\n' :: rest)) := by
  unfold Token.display
  simp only [String.toList_append, List.append_assoc]
  rfl

theorem space_not_mem_name (kind : Kind) : ' ' ∉ kind.name.toList := by
  rcases kind with op | _ | _ | _ | k | _
  case operator => cases op <;> decide
  case keyword => cases k <;> decide
  all_goals decide

namespace Token.Lexical

variable {t u : Token}

/-- **The form of a lexeme** depends on the kind: a string is a text without quotes between two of
them, and nothing else has a space in it. -/
theorem lexeme_cases (ht : t.Lexical) :
    (t.kind = .string ∧ ∃ value, '"' ∉ value ∧ t.lexeme.toList = '"' :: (value ++ ['"'])) ∨
      (t.kind ≠ .string ∧ ' ' ∉ t.lexeme.toList) := by
  cases ht with
  | eof line => exact Or.inr ⟨by simp [Token.eof], List.not_mem_nil⟩
  | @denoted s kind literal hs hdenotes line =>
    change (kind = .string ∧ ∃ value, '"' ∉ value ∧ (String.ofList s.text).toList = _) ∨
      (kind ≠ .string ∧ ' ' ∉ (String.ofList s.text).toList)
    rw [String.toList_ofList]
    -- Blanks are only in strings, and the other lexemes are of another kind.
    have hspace : (∀ value, s ≠ .string value) → ' ' ∉ s.text := by
      intro hstring hmem
      have hblank := hs.isBlank_eq_false hdenotes.isLexeme hstring ' ' hmem
      exact absurd hblank (by decide)
    cases hdenotes with
    | string value => exact Or.inl ⟨rfl, value, hs, rfl⟩
    | operator op => exact Or.inr ⟨by simp, hspace (by simp)⟩
    | number numeral => exact Or.inr ⟨by simp, hspace (by simp)⟩
    | keyword word => exact Or.inr ⟨by simp, hspace (by simp)⟩
    | identifier _ => exact Or.inr ⟨by simp, hspace (by simp)⟩

/-- **Where a lexeme ends.** Of two tokens of one kind the lexemes are the same, if both are
followed by a space and the texts are the same from there on. -/
theorem eq_of_lexeme_append_eq (ht : t.Lexical) (hu : u.Lexical) (hkind : t.kind = u.kind)
    {rest rest' : List Char} (h : t.lexeme.toList ++ ' ' :: rest = u.lexeme.toList ++ ' ' :: rest') :
    t.lexeme = u.lexeme ∧ rest = rest' := by
  obtain ⟨hstring, value, hvalue, htext⟩ | ⟨hstring, hspace⟩ := ht.lexeme_cases
  · obtain ⟨-, value', hvalue', htext'⟩ | ⟨hstring', -⟩ := hu.lexeme_cases
    · -- Behind the first quote both go on to the next.
      rw [htext, htext', List.cons_append, List.cons_append, List.append_assoc,
        List.append_assoc] at h
      obtain ⟨rfl, hrest⟩ := eq_of_append_cons_eq hvalue hvalue' (List.cons.inj h).2
      exact ⟨String.toList_inj.mp (htext.trans htext'.symm), (List.cons.inj hrest).2⟩
    · exact absurd (hkind.symm.trans hstring) hstring'
  · obtain ⟨hstring', -⟩ | ⟨-, hspace'⟩ := hu.lexeme_cases
    · exact absurd (hkind.trans hstring') hstring
    · obtain ⟨hlexeme, hrest⟩ := eq_of_append_cons_eq hspace hspace' h
      exact ⟨String.toList_inj.mp hlexeme, hrest⟩

/-- **A record is read back**, whatever follows it: kind and lexeme part by part, and with them the
literal. -/
theorem alike_of_record_eq (ht : t.Lexical) (hu : u.Lexical) {rest rest' : List Char}
    (h : (t.display ++ "\n").toList ++ rest = (u.display ++ "\n").toList ++ rest') :
    t.Alike u ∧ rest = rest' := by
  have hparts := h
  rw [toList_display_append, toList_display_append] at hparts
  obtain ⟨hname, hafter⟩ :=
    eq_of_append_cons_eq (space_not_mem_name t.kind) (space_not_mem_name u.kind) hparts
  have hkind : t.kind = u.kind := Kind.name_injective (String.toList_inj.mp hname)
  obtain ⟨hlexeme, -⟩ := ht.eq_of_lexeme_append_eq hu hkind hafter
  have halike : t.Alike u := ⟨hkind, hlexeme, (ht.eq_of_lexeme_eq hu hlexeme).2⟩
  -- The literal may hold anything, but it is the same in both records.
  rw [halike.display_eq] at h
  exact ⟨halike, List.append_cancel_left h⟩

end Token.Lexical

/-! ### Lists of records -/

theorem toList_listing_cons (t : Token) (ts : List Token) :
    (listing (t :: ts)).toList = (t.display ++ "\n").toList ++ (listing ts).toList := by
  unfold listing
  rw [List.map_cons, String.join_cons, String.toList_append]

theorem listing_eq_of_forall₂ {ts us : List Token} (h : List.Forall₂ Token.Alike ts us) :
    listing ts = listing us := by
  induction h with
  | nil => rfl
  | cons halike _ ih =>
    refine String.toList_inj.mp ?_
    rw [toList_listing_cons, toList_listing_cons, halike.display_eq, ih]

/-- **Record by record** a listing is read back. -/
theorem forall₂_of_listing_eq {ts us : List Token} (hts : ∀ t ∈ ts, t.Lexical)
    (hus : ∀ u ∈ us, u.Lexical) (h : (listing ts).toList = (listing us).toList) :
    List.Forall₂ Token.Alike ts us := by
  -- No record is empty, so one listing cannot end before the other.
  have hne : ∀ (t : Token) (ts : List Token), (listing (t :: ts)).toList ≠ (listing []).toList := by
    intro t ts hnil
    rw [toList_listing_cons, toList_display_append] at hnil
    exact absurd hnil (by simp [listing])
  induction ts generalizing us with
  | nil =>
    cases us with
    | nil => exact .nil
    | cons u us => exact absurd h.symm (hne u us)
  | cons t ts ih =>
    cases us with
    | nil => exact absurd h (hne t ts)
    | cons u us =>
      obtain ⟨ht, hts⟩ := List.forall_mem_cons.mp hts
      obtain ⟨hu, hus⟩ := List.forall_mem_cons.mp hus
      rw [toList_listing_cons, toList_listing_cons] at h
      obtain ⟨halike, hrest⟩ := ht.alike_of_record_eq hu h
      exact .cons halike (ih hts hus hrest)

theorem stdout_scanWrites (t : Threshold) (source : String) (code : Nat) :
    (Run.mk (scanWrites t .tokens source) code).stdout = listing (scan source).tokens := by
  rw [Run.stdout_eq_join, Run.outputs, filterMap_output?_scanWrites]
  rfl

/-- **A listing loses nothing but the lines.** What a text that is scanned for its tokens puts on
standard output, in a file or in a session, is the listing of the tokens, and two sources have the
same listing exactly if they have as many tokens and these are alike one by one. -/
theorem listing_eq_iff :
    (∀ (t : Threshold) (source : String) (code : Nat),
      (Run.mk (scanWrites t .tokens source) code).stdout = listing (scan source).tokens) ∧
    ∀ source source' : String,
      listing (scan source).tokens = listing (scan source').tokens ↔
        List.Forall₂ Token.Alike (scan source).tokens (scan source').tokens := by
  refine ⟨stdout_scanWrites, fun source source' => ⟨fun h => ?_, listing_eq_of_forall₂⟩⟩
  exact forall₂_of_listing_eq (fun t => lexical_of_mem_scan) (fun t => lexical_of_mem_scan)
    (congrArg String.toList h)

end LoxFront

import LoxFront.Proofs.Binary64.Ranks
import LoxFront.Proofs.Scan.Tokens

/-!
# The comparison of scanned tokens

Tokens are compared as IEEE 754 compares the numbers in them, which for tokens at large is not
even reflexive. On the tokens of scans it is the plain sameness, and a matter of the lexeme and the
line.

* `beq_iff` — what the comparison asks of two tokens;
* `Token.IsScanned` — the tokens of scans, and `IsScanned.ordinary`, no number among them is NaN or
  negative;
* `IsScanned.beq_iff_eq` — scanned tokens compare equal only if they are the same;
* `IsScanned.head?_scan` — a lexeme is scanned as the token that it came from, so that it settles
  the kind and the literal.

The main statement is `isScanned_beq`.
-/

namespace LoxFront

/-- A literal for which the comparison of IEEE 754 is sameness: a string, or a number that is not
NaN and has a clear sign bit. -/
def Literal.Ordinary : Literal → Prop
  | number x => x.isNaN = false ∧ x.isNegative = false
  | string _ => True

theorem Literal.beq_iff_eq {a b : Literal} (ha : a.Ordinary) (hb : b.Ordinary) :
    (a == b) = true ↔ a = b := by
  cases a with
  | number x =>
    cases b with
    | number y =>
      rw [number_beq_number, Literal.number.injEq]
      exact Binary64.beq_iff_eq_of_isNegative ha.2 hb.2 ha.1
    | string t => simp
  | string s =>
    cases b with
    | number y => simp
    | string t => simp

namespace Token

theorem beq_iff (t u : Token) :
    (t == u) = true ↔
      t.kind = u.kind ∧ t.lexeme = u.lexeme ∧ (t.literal == u.literal) = true ∧
        t.line = u.line := by
  rw [beq_def]
  simp only [Bool.and_eq_true, beq_iff_eq, and_assoc]

/-- A token of a scan, of whatever source. -/
def IsScanned (t : Token) : Prop := ∃ source, t ∈ (scan source).tokens

namespace IsScanned

variable {t u : Token} (ht : t.IsScanned)

include ht

theorem lexical : t.Lexical := by
  obtain ⟨source, hmem⟩ := ht
  exact lexical_of_mem_scan hmem

/-- **Scanned numbers are ordinary**: correct rounding yields no NaN and sets no sign bit. -/
theorem ordinary {literal : Literal} (h : t.literal = some literal) : literal.Ordinary := by
  cases ht.lexical with
  | eof line => cases h
  | denoted hs hdenotes line =>
    cases hdenotes with
    | operator op => cases h
    | string value =>
      obtain rfl := Option.some.inj h
      trivial
    | number numeral =>
      obtain rfl := Option.some.inj h
      exact ⟨Binary64.isNaN_nearest .., Binary64.isNegative_nearest ..⟩
    | keyword word => cases h
    | identifier hword => cases h

theorem literal_beq_iff (hu : u.IsScanned) :
    (t.literal == u.literal) = true ↔ t.literal = u.literal := by
  cases ha : t.literal with
  | none => cases u.literal <;> simp
  | some a =>
    cases hb : u.literal with
    | none => simp
    | some b =>
      rw [Option.some_beq_some, Option.some.injEq]
      exact Literal.beq_iff_eq (ht.ordinary ha) (hu.ordinary hb)

/-- **Scanned tokens compare equal** only if they are the same. -/
theorem beq_iff_eq (hu : u.IsScanned) : (t == u) = true ↔ t = u := by
  rw [Token.beq_iff, ht.literal_beq_iff hu]
  constructor
  · rintro ⟨hkind, hlexeme, hliteral, hline⟩
    cases t
    cases u
    rw [Token.mk.injEq]
    exact ⟨hkind, hlexeme, hliteral, hline⟩
  · rintro rfl
    exact ⟨rfl, rfl, rfl, rfl⟩

/-- **The lexeme and the line** settle the rest. -/
theorem beq_iff_lexeme_eq (hu : u.IsScanned) :
    (t == u) = true ↔ t.lexeme = u.lexeme ∧ t.line = u.line := by
  rw [Token.beq_iff, ht.literal_beq_iff hu]
  constructor
  · rintro ⟨-, hlexeme, -, hline⟩
    exact ⟨hlexeme, hline⟩
  · rintro ⟨hlexeme, hline⟩
    obtain ⟨hkind, hliteral⟩ := ht.lexical.eq_of_lexeme_eq hu.lexical hlexeme
    exact ⟨hkind, hlexeme, hliteral, hline⟩

/-- **A lexeme scans as its token**, on the first line. -/
theorem head?_scan : (scan t.lexeme).tokens.head? = some { t with line := 1 } := by
  cases ht.lexical with
  | eof line =>
    have hfound : foundFrom 1 (segments "".toList) = [] := congrArg (foundFrom 1) segments_nil
    exact congrArg (fun s => s.tokens.head?) (scan_eq_of_found hfound)
  | @denoted s kind literal hs hdenotes line =>
    have hfound : foundFrom 1 (segments (String.ofList s.text).toList) =
        [.token ⟨kind, String.ofList s.text, literal, 1⟩] := by
      rw [String.toList_ofList, segments_text hs, foundFrom_cons, hdenotes.item?_eq]
      rfl
    rw [scan_eq_of_found hfound]
    rfl

end IsScanned

end Token

/-- **Tokens of scans compare as records.** Two tokens of scans, of the same source or of different
ones, compare equal if and only if their lexemes and their lines are the same. For the lexeme is
scanned as the token itself, so that it settles the kind and the literal, and no scanned number is
NaN. So the comparison is sameness on these tokens, and an equivalence. On tokens at large it is
neither. -/
theorem isScanned_beq :
    (∀ t u : Token, t.IsScanned → u.IsScanned →
      ((t == u) = true ↔ t.lexeme = u.lexeme ∧ t.line = u.line) ∧
      ((t == u) = true ↔ t = u) ∧
      (t.lexeme = u.lexeme → t.kind = u.kind ∧ t.literal = u.literal)) ∧
    (∀ t : Token, t.IsScanned →
      (scan t.lexeme).tokens.head? = some { t with line := 1 } ∧
      ∀ x, t.literal = some (.number x) → x.isNaN = false ∧ x.isNegative = false) ∧
    Equivalence (fun t u : { t : Token // t.IsScanned } => (t.1 == u.1) = true) ∧
    (∃ t : Token, (t == t) = false) ∧
    ∃ t u : Token, (t == u) = true ∧ t ≠ u := by
  have hsame : ∀ t u : { t : Token // t.IsScanned }, (t.1 == u.1) = true ↔ t.1 = u.1 :=
    fun t u => t.2.beq_iff_eq u.2
  refine ⟨fun t u ht hu => ⟨ht.beq_iff_lexeme_eq hu, ht.beq_iff_eq hu,
      ht.lexical.eq_of_lexeme_eq hu.lexical⟩,
    fun t ht => ⟨ht.head?_scan, fun x hx => ht.ordinary hx⟩, ⟨fun t => ?_, ?_, ?_⟩, ?_, ?_⟩
  · exact (hsame t t).mpr rfl
  · intro t u h
    exact (hsame u t).mpr ((hsame t u).mp h).symm
  · intro t u v htu huv
    exact (hsame t v).mpr (((hsame t u).mp htu).trans ((hsame u v).mp huv))
  · -- A number that is NaN.
    exact ⟨.number "0" ⟨0x7ff8000000000000⟩ 1, by decide⟩
  · -- The two zeros.
    exact ⟨.number "0" ⟨0⟩ 1, .number "0" ⟨0x8000000000000000⟩ 1, by decide, by decide⟩

/-- A numeral in two sources. -/
theorem isScanned_beq_numeral :
    ∃ t u : Token, t ∈ (scan "a+1.50").tokens ∧ u ∈ (scan "1.50.b").tokens ∧ (t == u) = true := by
  have ht : (scan "a+1.50").tokens[2]? = some (.number "1.50" (Decimal.nearest ⟨150, -2⟩) 1) := by
    decide +kernel
  have hu : (scan "1.50.b").tokens[0]? = some (.number "1.50" (Decimal.nearest ⟨150, -2⟩) 1) := by
    decide +kernel
  replace ht := List.mem_of_getElem? ht
  replace hu := List.mem_of_getElem? hu
  exact ⟨_, _, ht, hu, (isScanned_beq.1 _ _ ⟨_, ht⟩ ⟨_, hu⟩).1.mpr ⟨rfl, rfl⟩⟩

end LoxFront

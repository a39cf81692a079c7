import LoxFront.Expr.Basic
import LoxFront.Proofs.Scan.Equality

/-!
# How numbers, tokens and diagnostics compare

At the bottom of every comparison are numbers, which compare as IEEE 754 demands. That is
symmetric and transitive, but NaN differs from itself and the two zeros are equal. Literals, values
and tokens inherit just this from the numbers in them. Diagnostics hold no numbers, and their
comparison is an equivalence.

* `Binary64.beq_iff`, `Value.beq_iff`, `Fault.beq_iff` — what a comparison asks of its two sides;
* `PartialEquivBEq` — the comparisons of numbers, values, literals and tokens are symmetric and
  transitive;
* `Token.beq_self_iff`, `optionValue_beq_self_iff` — a token, or the value at a literal, equals
  itself unless it holds NaN;
* `Binary64.eq_of_beq` — equal numbers are the same datum unless one is a negative zero;
* `EquivBEq` — the comparisons of faults and of diagnostics are equivalences, and
  `Diagnostic.display_eq_of_beq`, equal diagnostics are shown alike unless they are about input or
  output.
-/

namespace LoxFront

instance instPartialEquivBEqOption {α : Type} [BEq α] [PartialEquivBEq α] :
    PartialEquivBEq (Option α) where
  symm {a b} h := by
    cases a with
    | none =>
      cases b with
      | none => rfl
      | some y => simp at h
    | some x =>
      cases b with
      | none => simp at h
      | some y =>
        rw [Option.some_beq_some] at h ⊢
        exact BEq.symm h
  trans {a b c} hab hbc := by
    cases b with
    | none =>
      cases a with
      | none => exact hbc
      | some x => simp at hab
    | some y =>
      cases a with
      | none => simp at hab
      | some x =>
        cases c with
        | none => simp at hbc
        | some z =>
          rw [Option.some_beq_some] at hab hbc ⊢
          exact BEq.trans hab hbc

/-! ### Numbers -/

namespace Binary64

theorem beq_iff (x y : Binary64) :
    (x == y) = true ↔
      x.isNaN = false ∧ y.isNaN = false ∧ (x = y ∨ x.rank = 0 ∧ y.rank = 0) := by
  have hbits : x.bits = y.bits ↔ x = y := by
    cases x
    cases y
    exact (Binary64.mk.injEq ..).to_iff.symm
  rw [beq_def]
  simp only [Bool.and_eq_true, Bool.or_eq_true, Bool.not_eq_true', beq_iff_eq, hbits, and_assoc]

instance : PartialEquivBEq Binary64 where
  symm {x y} h := by
    rw [beq_iff] at h ⊢
    obtain ⟨hx, hy, hsame | ⟨hzero, hzero'⟩⟩ := h
    · exact ⟨hy, hx, Or.inl hsame.symm⟩
    · exact ⟨hy, hx, Or.inr ⟨hzero', hzero⟩⟩
  trans {x y z} hxy hyz := by
    rw [beq_iff] at hxy hyz ⊢
    obtain ⟨hx, -, hxy⟩ := hxy
    obtain ⟨-, hz, hyz⟩ := hyz
    refine ⟨hx, hz, ?_⟩
    -- A zero is equal to no datum but the zeros, so the two ways to be equal do not mix.
    obtain rfl | ⟨hzero, hzero'⟩ := hxy
    · exact hyz
    · obtain rfl | ⟨-, hzero''⟩ := hyz
      · exact Or.inr ⟨hzero, hzero'⟩
      · exact Or.inr ⟨hzero, hzero''⟩

theorem beq_self_iff (x : Binary64) : (x == x) = true ↔ x.isNaN = false := by
  rw [beq_iff]
  exact ⟨fun h => h.1, fun h => ⟨h, h, Or.inl rfl⟩⟩

/-- A zero with its sign bit set. -/
def IsNegativeZero (x : Binary64) : Prop := x.rank = 0 ∧ x.isNegative = true

/-- **Equal numbers are the same datum** if neither is the negative zero. -/
theorem eq_of_beq {x y : Binary64} (h : (x == y) = true) (hx : ¬ x.IsNegativeZero)
    (hy : ¬ y.IsNegativeZero) : x = y := by
  obtain ⟨-, -, hsame | ⟨hzero, hzero'⟩⟩ := (beq_iff x y).mp h
  · exact hsame
  · have hpositive : x.isNegative = false := Bool.eq_false_iff.mpr fun hneg => hx ⟨hzero, hneg⟩
    have hpositive' : y.isNegative = false := Bool.eq_false_iff.mpr fun hneg => hy ⟨hzero', hneg⟩
    exact eq_of_rank_eq hpositive hpositive' (hzero.trans hzero'.symm)

end Binary64

/-! ### Values and literals -/

/-- Values other than numbers are equal only if they are the same. -/
theorem Value.beq_iff (v w : Value) :
    (v == w) = true ↔
      (∃ x y, v = .number x ∧ w = .number y ∧ (x == y) = true) ∨
        v = w ∧ ∀ x, v ≠ .number x := by
  cases v with
  | number x =>
    cases w with
    | number y => simp
    | _ => exact iff_of_false Bool.false_ne_true (by simp)
  | string s =>
    cases w with
    | string t =>
      have hbeq : (Value.string s == Value.string t) = (s == t) := rfl
      simp [hbeq]
    | _ => exact iff_of_false Bool.false_ne_true (by simp)
  | bool a =>
    cases w with
    | bool b =>
      have hbeq : (Value.bool a == Value.bool b) = (a == b) := rfl
      simp [hbeq]
    | _ => exact iff_of_false Bool.false_ne_true (by simp)

instance : PartialEquivBEq Value where
  symm {v w} h := by
    rw [Value.beq_iff] at h ⊢
    obtain ⟨x, y, rfl, rfl, hxy⟩ | ⟨rfl, hv⟩ := h
    · exact Or.inl ⟨y, x, rfl, rfl, BEq.symm hxy⟩
    · exact Or.inr ⟨rfl, hv⟩
  trans {u v w} huv hvw := by
    rw [Value.beq_iff] at huv hvw ⊢
    obtain ⟨x, y, rfl, rfl, hxy⟩ | ⟨rfl, hu⟩ := huv
    · obtain ⟨y', z, hy, rfl, hyz⟩ | ⟨-, hv⟩ := hvw
      · obtain rfl := Value.number.inj hy
        exact Or.inl ⟨x, z, rfl, rfl, BEq.trans hxy hyz⟩
      · exact absurd rfl (hv y)
    · exact hvw

theorem Value.beq_self_iff (v : Value) :
    (v == v) = true ↔ ∀ x, v = .number x → x.isNaN = false := by
  cases v with
  | number x =>
    rw [number_beq_number, Binary64.beq_self_iff]
    exact ⟨fun h y hy => Value.number.inj hy ▸ h, fun h => h x rfl⟩
  | string s => exact iff_of_true ((beq_iff _ _).mpr (Or.inr ⟨rfl, nofun⟩)) nofun
  | bool b => exact iff_of_true ((beq_iff _ _).mpr (Or.inr ⟨rfl, nofun⟩)) nofun

/-- The value at a literal equals itself unless it is NaN. -/
theorem optionValue_beq_self_iff (value : Option Value) :
    (value == value) = true ↔ ¬ ∃ x, value = some (.number x) ∧ x.isNaN = true := by
  cases value with
  | none => simp
  | some v =>
    rw [Option.some_beq_some, Value.beq_self_iff]
    simp

/-- Literals compare as the values that they become. -/
theorem Literal.beq_eq_ofLiteral (a b : Literal) :
    (a == b) = (Value.ofLiteral a == Value.ofLiteral b) := by
  cases a <;> cases b <;> rfl

instance : PartialEquivBEq Literal where
  symm {a b} h := by
    rw [Literal.beq_eq_ofLiteral] at h ⊢
    exact BEq.symm h
  trans {a b c} hab hbc := by
    rw [Literal.beq_eq_ofLiteral] at hab hbc ⊢
    exact BEq.trans hab hbc

/-! ### Tokens -/

namespace Token

instance : PartialEquivBEq Token where
  symm {t u} h := by
    rw [beq_iff] at h ⊢
    obtain ⟨hkind, hlexeme, hliteral, hline⟩ := h
    exact ⟨hkind.symm, hlexeme.symm, BEq.symm hliteral, hline.symm⟩
  trans {t u v} htu huv := by
    rw [beq_iff] at htu huv ⊢
    obtain ⟨hkind, hlexeme, hliteral, hline⟩ := htu
    obtain ⟨hkind', hlexeme', hliteral', hline'⟩ := huv
    exact ⟨hkind.trans hkind', hlexeme.trans hlexeme', BEq.trans hliteral hliteral',
      hline.trans hline'⟩

/-- The literal of the token is NaN. -/
def HoldsNaN (t : Token) : Prop := ∃ x, t.literal = some (.number x) ∧ x.isNaN = true

theorem beq_self_iff (t : Token) : (t == t) = true ↔ ¬ t.HoldsNaN := by
  have hliteral : (t == t) = true ↔ (t.literal == t.literal) = true := by
    rw [beq_iff]
    exact ⟨fun h => h.2.2.1, fun h => ⟨rfl, rfl, h, rfl⟩⟩
  rw [hliteral]
  unfold HoldsNaN
  cases t.literal with
  | none => simp
  | some a =>
    rw [Option.some_beq_some, Literal.beq_eq_ofLiteral, Value.beq_self_iff]
    cases a with
    | number x => simp [Value.ofLiteral]
    | string s => simp [Value.ofLiteral]

end Token

/-! ### Diagnostics -/

/-- Faults other than those of input and output are equal only if they are the same. -/
theorem Fault.beq_iff (f g : Fault) :
    (f == g) = true ↔ (∃ k s t, f = .io k s ∧ g = .io k t) ∨ f = g := by
  cases f with
  | unexpectedCharacter c =>
    cases g with
    | unexpectedCharacter d =>
      have hbeq : (Fault.unexpectedCharacter c == .unexpectedCharacter d) = (c == d) := rfl
      simp [hbeq]
    | _ => exact iff_of_false Bool.false_ne_true (by simp)
  | unterminatedString =>
    cases g with
    | unterminatedString => exact iff_of_true rfl (Or.inr rfl)
    | _ => exact iff_of_false Bool.false_ne_true (by simp)
  | invalidPrefixOperator k =>
    cases g with
    | invalidPrefixOperator l =>
      have hbeq : (Fault.invalidPrefixOperator k == .invalidPrefixOperator l) = (k == l) := rfl
      simp [hbeq]
    | _ => exact iff_of_false Bool.false_ne_true (by simp)
  | io k s =>
    cases g with
    | io l t =>
      rw [io_beq_io, beq_iff_eq]
      constructor
      · rintro rfl
        exact Or.inl ⟨k, s, t, rfl, rfl⟩
      · rintro (⟨_, _, _, hf, hg⟩ | hsame)
        · exact (Fault.io.inj hf).1.trans (Fault.io.inj hg).1.symm
        · exact (Fault.io.inj hsame).1
    | _ => exact iff_of_false Bool.false_ne_true (by simp)

instance : EquivBEq Fault where
  rfl := (Fault.beq_iff _ _).mpr (Or.inr rfl)
  symm {f g} h := by
    rw [Fault.beq_iff] at h ⊢
    obtain ⟨k, s, t, hf, hg⟩ | hsame := h
    · exact Or.inl ⟨k, t, s, hg, hf⟩
    · exact Or.inr hsame.symm
  trans {f g h} hfg hgh := by
    rw [Fault.beq_iff] at hfg hgh ⊢
    obtain ⟨k, s, t, rfl, rfl⟩ | rfl := hfg
    · obtain ⟨l, s', t', hg, rfl⟩ | rfl := hgh
      · obtain ⟨rfl, -⟩ := Fault.io.inj hg
        exact Or.inl ⟨k, s, t', rfl, rfl⟩
      · exact Or.inl ⟨k, s, t, rfl, rfl⟩
    · exact hgh

namespace Diagnostic

theorem beq_iff (d e : Diagnostic) :
    (d == e) = true ↔ d.line = e.line ∧ (d.fault == e.fault) = true := by
  rw [beq_def, Bool.and_eq_true, beq_iff_eq]

instance : EquivBEq Diagnostic where
  rfl {d} := (beq_iff d d).mpr ⟨rfl, BEq.refl d.fault⟩
  symm {d e} h := by
    rw [beq_iff] at h ⊢
    exact ⟨h.1.symm, BEq.symm h.2⟩
  trans {d e f} hde hef := by
    rw [beq_iff] at hde hef ⊢
    exact ⟨hde.1.trans hef.1, BEq.trans hde.2 hef.2⟩

/-- **Equal diagnostics are shown alike**, unless they are about input or output, where the text
does not count for the comparison. -/
theorem display_eq_of_beq {d e : Diagnostic} (h : (d == e) = true)
    (hio : ∀ k s, d.fault ≠ .io k s) : d.display = e.display := by
  obtain ⟨hline, hfault⟩ := (beq_iff d e).mp h
  obtain ⟨k, s, t, hd, -⟩ | hfault := (Fault.beq_iff _ _).mp hfault
  · exact absurd hd (hio k s)
  · rw [display, display, message, message, hline, hfault]

end Diagnostic

end LoxFront

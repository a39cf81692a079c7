import LoxFront.Expr.Render
import LoxFront.Proofs.Expr.Nodes
import LoxFront.Proofs.Token.Comparison

/-!
# How trees compare

Two trees are equal if they agree node by node, where literals compare as values and operators as
tokens. So the comparison of trees has the laws that the comparison of numbers has, and fails to be
reflexive because of NaN at any depth, in a literal or in the token of an operator.

* `Expr.Agrees` — two roots have the same shape, and what they hold compares equal;
* `beq_iff_nodewise` — trees are equal just if corresponding nodes agree;
* `Expr.HoldsNaN`, `beq_self_iff` — a tree equals itself unless some node holds NaN;
* `depth_eq_of_beq` — equal trees are equally deep;
* `Expr.HoldsNegativeZero`, `render_eq_of_beq` — equal trees are written alike, unless a literal
  of one of them is the negative zero, which is equal to zero and written otherwise.

The main statement is `comparison_laws`.
-/

namespace LoxFront

namespace Expr

/-- **Two roots agree**: they have the same shape, and what they hold compares equal. -/
inductive Agrees : Expr → Expr → Prop
  | literal {v w : Option Value} (h : (v == w) = true) : Agrees (literal v) (literal w)
  | grouping {e f : Expr} : Agrees (grouping e) (grouping f)
  | unary {op op' : Token} {e f : Expr} (h : (op == op') = true) :
      Agrees (unary op e) (unary op' f)
  | binary {op op' : Token} {l r l' r' : Expr} (h : (op == op') = true) :
      Agrees (binary l op r) (binary l' op' r')

theorem Agrees.symm {e f : Expr} (h : Agrees e f) : Agrees f e := by
  cases h with
  | literal h => exact Agrees.literal (BEq.symm h)
  | grouping => exact Agrees.grouping
  | unary h => exact Agrees.unary (BEq.symm h)
  | binary h => exact Agrees.binary (BEq.symm h)

theorem Agrees.trans {e f g : Expr} (hef : Agrees e f) (hfg : Agrees f g) : Agrees e g := by
  cases hef with
  | literal h =>
    cases hfg with
    | literal h' => exact Agrees.literal (BEq.trans h h')
  | grouping =>
    cases hfg with
    | grouping => exact Agrees.grouping
  | unary h =>
    cases hfg with
    | unary h' => exact Agrees.unary (BEq.trans h h')
  | binary h =>
    cases hfg with
    | binary h' => exact Agrees.binary (BEq.trans h h')

/-! ### Equality node by node -/

/-- **One layer of the comparison**: the roots agree, and the operands are equal. -/
theorem beq_iff_operands (e f : Expr) :
    (e == f) = true ↔
      Agrees e f ∧ List.Forall₂ (fun x y => (x == y) = true) e.operands f.operands := by
  rw [beq_def]
  constructor
  · intro h
    cases e with
    | literal v =>
      cases f with
      | literal w => exact ⟨.literal h, .nil⟩
      | _ => cases h
    | grouping e =>
      cases f with
      | grouping f => exact ⟨.grouping, .cons h .nil⟩
      | _ => cases h
    | unary op e =>
      cases f with
      | unary op' f =>
        obtain ⟨hop, hoperand⟩ := Bool.and_eq_true_iff.mp h
        exact ⟨.unary hop, .cons hoperand .nil⟩
      | _ => cases h
    | binary l op r =>
      cases f with
      | binary l' op' r' =>
        obtain ⟨hrest, hright⟩ := Bool.and_eq_true_iff.mp h
        obtain ⟨hleft, hop⟩ := Bool.and_eq_true_iff.mp hrest
        exact ⟨.binary hop, .cons hleft (.cons hright .nil)⟩
      | _ => cases h
  · rintro ⟨hroot, hoperands⟩
    cases hroot with
    | literal h => exact h
    | grouping => exact (List.forall₂_cons.mp hoperands).1
    | unary h => exact Bool.and_eq_true_iff.mpr ⟨h, (List.forall₂_cons.mp hoperands).1⟩
    | binary h =>
      obtain ⟨hleft, hrest⟩ := List.forall₂_cons.mp hoperands
      obtain ⟨hright, -⟩ := List.forall₂_cons.mp hrest
      exact Bool.and_eq_true_iff.mpr ⟨Bool.and_eq_true_iff.mpr ⟨hleft, h⟩, hright⟩

/-- **Trees are equal** just if corresponding nodes agree. -/
theorem beq_iff_nodewise (e f : Expr) : (e == f) = true ↔ Nodewise Agrees e f := by
  -- Both sides say of the roots that they agree. By that the second tree has the shape of the first
  -- one, and the operands can be compared one by one.
  induction e generalizing f with
  | literal v =>
    rw [beq_iff_operands, nodewise_iff]
    refine and_congr_right fun hroot => ?_
    cases hroot with
    | literal => exact iff_of_true .nil .nil
  | grouping e ih =>
    rw [beq_iff_operands, nodewise_iff]
    refine and_congr_right fun hroot => ?_
    cases hroot with
    | grouping => simp only [operands, List.forall₂_cons, List.forall₂_nil_left_iff, ih]
  | unary op e ih =>
    rw [beq_iff_operands, nodewise_iff]
    refine and_congr_right fun hroot => ?_
    cases hroot with
    | unary => simp only [operands, List.forall₂_cons, List.forall₂_nil_left_iff, ih]
  | binary l op r ihl ihr =>
    rw [beq_iff_operands, nodewise_iff]
    refine and_congr_right fun hroot => ?_
    cases hroot with
    | binary => simp only [operands, List.forall₂_cons, List.forall₂_nil_left_iff, ihl, ihr]

instance : PartialEquivBEq Expr where
  symm {e f} h := by
    rw [beq_iff_nodewise] at h ⊢
    exact h.swap.mono fun _ _ hroots => hroots.symm
  trans {e f g} hef hfg := by
    rw [beq_iff_nodewise] at hef hfg ⊢
    exact hef.trans hfg fun _ _ _ => Agrees.trans

/-! ### Trees that differ from themselves -/

/-- The root holds NaN, as a literal or as the literal of its operator. -/
def HoldsNaN : Expr → Prop
  | literal value => ∃ x, value = some (.number x) ∧ x.isNaN = true
  | grouping _ => False
  | unary op _ => op.HoldsNaN
  | binary _ op _ => op.HoldsNaN

theorem agrees_self_iff (e : Expr) : Agrees e e ↔ ¬ e.HoldsNaN := by
  constructor
  · intro h
    cases h with
    | literal h => exact (optionValue_beq_self_iff _).mp h
    | grouping => exact not_false
    | unary h => exact (Token.beq_self_iff _).mp h
    | binary h => exact (Token.beq_self_iff _).mp h
  · intro h
    cases e with
    | literal value => exact Agrees.literal ((optionValue_beq_self_iff value).mpr h)
    | grouping inner => exact Agrees.grouping
    | unary op operand => exact Agrees.unary ((Token.beq_self_iff op).mpr h)
    | binary left op right => exact Agrees.binary ((Token.beq_self_iff op).mpr h)

/-- **A tree equals itself** unless some node holds NaN. -/
theorem beq_self_iff (e : Expr) : (e == e) = true ↔ ¬ e.HasNode HoldsNaN := by
  have hnode (node : Expr) : ¬ Agrees node node ↔ node.HoldsNaN := by
    rw [agrees_self_iff, not_not]
  rw [beq_iff_nodewise, nodewise_self_iff]
  simp only [hnode]

/-! ### What equal trees have in common -/

theorem depth_eq_of_beq {e f : Expr} (h : (e == f) = true) : e.depth = f.depth := by
  refine fold_eq_of_nodewise (((beq_iff_nodewise e f).mp h).mono fun _ _ hroots => ?_)
  -- The depth does not depend on what a node holds.
  cases hroots with
  | literal _ => exact Visitor.Alike.literal rfl
  | grouping => exact Visitor.Alike.grouping
  | unary _ => exact Visitor.Alike.unary rfl
  | binary _ => exact Visitor.Alike.binary fun _ => rfl

/-- The root is a literal, and its value is the negative zero. -/
def HoldsNegativeZero : Expr → Prop
  | literal (some (.number x)) => x.IsNegativeZero
  | _ => False

instance : DecidablePred HoldsNegativeZero
  | literal (some (.number x)) => inferInstanceAs (Decidable (x.rank = 0 ∧ x.isNegative = true))
  | literal none => inferInstanceAs (Decidable False)
  | literal (some (.string _)) => inferInstanceAs (Decidable False)
  | literal (some (.bool _)) => inferInstanceAs (Decidable False)
  | grouping _ => inferInstanceAs (Decidable False)
  | unary _ _ => inferInstanceAs (Decidable False)
  | binary _ _ _ => inferInstanceAs (Decidable False)

/-- Equal literals other than the negative zero are identical. -/
theorem value_eq_of_beq {v w : Option Value} (h : (v == w) = true)
    (hv : ¬ (literal v).HoldsNegativeZero) (hw : ¬ (literal w).HoldsNegativeZero) : v = w := by
  cases v with
  | none =>
    cases w with
    | none => rfl
    | some w => simp at h
  | some v =>
    cases w with
    | none => simp at h
    | some w =>
      rw [Option.some_beq_some, Value.beq_iff] at h
      obtain ⟨x, y, rfl, rfl, hxy⟩ | ⟨rfl, -⟩ := h
      · rw [Binary64.eq_of_beq hxy hv hw]
      · rfl

/-- **Equal trees are written alike** if no literal of theirs is the negative zero. -/
theorem render_eq_of_beq {e f : Expr} (h : (e == f) = true) (he : ¬ e.HasNode HoldsNegativeZero)
    (hf : ¬ f.HasNode HoldsNegativeZero) : e.render = f.render := by
  refine fold_eq_of_nodewise (((beq_iff_nodewise e f).mp h).imp ?_)
  intro path e' f' he' hf' hroots
  have hzero : ¬ e'.HoldsNegativeZero := fun hzero => he ⟨path, e', he', hzero⟩
  have hzero' : ¬ f'.HoldsNegativeZero := fun hzero => hf ⟨path, f', hf', hzero⟩
  cases hroots with
  | literal hvalue =>
    obtain rfl := value_eq_of_beq hvalue hzero hzero'
    exact Visitor.Alike.literal rfl
  | grouping => exact Visitor.Alike.grouping
  | unary hop =>
    -- An operator is written as its lexeme, so that its literal does not matter here.
    obtain ⟨-, hlexeme, -⟩ := (Token.beq_iff _ _).mp hop
    refine Visitor.Alike.unary (funext fun operand => ?_)
    simp only [renderer, hlexeme]
  | binary hop =>
    obtain ⟨-, hlexeme, -⟩ := (Token.beq_iff _ _).mp hop
    refine Visitor.Alike.binary fun left => funext fun right => ?_
    simp only [renderer, hlexeme]

/-- **The laws of comparison.** Equality of trees is symmetric and transitive, and a tree equals
itself just if it holds no NaN, in a literal or in the token of an operator. Equal trees are equally
deep and have the same shape at every node, and they are written alike unless a literal of one of
them is the negative zero. Equality of diagnostics is an equivalence, which for a failure of input
or output regards the line and the kind only, and other equal diagnostics are shown alike. -/
theorem comparison_laws :
    ((∀ a b : Expr, (a == b) = true → (b == a) = true) ∧
      (∀ a b c : Expr, (a == b) = true → (b == c) = true → (a == c) = true) ∧
      (∀ a : Expr, (a == a) = true ↔ ¬ a.HasNode HoldsNaN) ∧
      ∀ a b : Expr, (a == b) = true → a.depth = b.depth ∧ Nodewise Agrees a b ∧
        (¬ a.HasNode HoldsNegativeZero → ¬ b.HasNode HoldsNegativeZero → a.render = b.render)) ∧
    (∀ d : Diagnostic, (d == d) = true) ∧
    (∀ d e : Diagnostic, (d == e) = true → (e == d) = true) ∧
    (∀ d e f : Diagnostic, (d == e) = true → (e == f) = true → (d == f) = true) ∧
    (∀ line line' k l s t,
      (Diagnostic.mk line (.io k s) == ⟨line', .io l t⟩) = true ↔ line = line' ∧ k = l) ∧
    ∀ d e : Diagnostic, (d == e) = true → (∀ k s, d.fault ≠ .io k s) →
      d.display = e.display := by
  refine ⟨⟨fun a b => BEq.symm, fun a b c => BEq.trans, beq_self_iff, fun a b h =>
      ⟨depth_eq_of_beq h, (beq_iff_nodewise a b).mp h, render_eq_of_beq h⟩⟩,
    BEq.refl, fun d e => BEq.symm, fun d e f => BEq.trans, ?_,
    fun d e => Diagnostic.display_eq_of_beq⟩
  intro line line' k l s t
  rw [Diagnostic.beq_iff, Fault.io_beq_io, beq_iff_eq]

/-- A tree with the token of a number for an operator, as it would be for `(2) 0 -nul`. -/
def numbered (x : Binary64) : Expr :=
  binary (grouping (literal (some (.number ⟨0x4000000000000000⟩)))) (.number "0" x 3)
    (unary ⟨.operator .minus, "-", none, 3⟩ (literal none))

/-- The two zeros and NaN in an operator, where the lexeme is written and the number is compared. -/
theorem comparison_laws_numbered :
    (numbered ⟨0⟩ == numbered ⟨0x8000000000000000⟩) = true ∧
      numbered ⟨0⟩ ≠ numbered ⟨0x8000000000000000⟩ ∧
      (numbered ⟨0⟩).depth = (numbered ⟨0x8000000000000000⟩).depth ∧
      (numbered ⟨0⟩).render = (numbered ⟨0x8000000000000000⟩).render ∧
      (numbered ⟨0x7ff8000000000000⟩ == numbered ⟨0x7ff8000000000000⟩) = false := by
  have hequal : (numbered ⟨0⟩ == numbered ⟨0x8000000000000000⟩) = true := by decide
  have hzero : ¬ (numbered ⟨0⟩).HasNode HoldsNegativeZero := by decide
  have hzero' : ¬ (numbered ⟨0x8000000000000000⟩).HasNode HoldsNegativeZero := by decide
  obtain ⟨hdepth, -, hrender⟩ := comparison_laws.1.2.2.2 _ _ hequal
  refine ⟨hequal, by decide, hdepth, hrender hzero hzero', ?_⟩
  -- The root holds NaN.
  rw [Bool.eq_false_iff]
  intro hself
  exact (comparison_laws.1.2.2.1 _).mp hself
    ⟨[], numbered ⟨0x7ff8000000000000⟩, rfl, ⟨0x7ff8000000000000⟩, rfl, by decide⟩

end Expr

end LoxFront

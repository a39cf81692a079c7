import LoxFront.Expr.Basic
import Mathlib.Data.List.Forall2

/-!
# The nodes of a tree

A node is found by its **address**, the way down to it from the root, which says at each node
which operand comes next. Nodes of two trees correspond if they have the same address.

* `Expr.operands`, `Expr.at?` — the operands of the root, and the subtree at an address;
* `Expr.HasNode P e` — some node of `e` is the root of a tree with `P`;
* `Expr.addresses` — the addresses at which a tree has a node (`mem_addresses_iff`), in
  ascending order (`pairwise_addresses`);
* `Expr.Nodewise R e f` — corresponding nodes are related by `R`, and neither tree has a node
  without one that corresponds. It is a matter of the roots and the operands (`nodewise_iff`);
* `Visitor.Alike v e f` — the visitor `v` does the same at the roots of `e` and `f`. Where it does
  so at all corresponding nodes, its results are the same (`fold_eq_of_nodewise`).
-/

namespace LoxFront

/-- Two optional values are related if both are there or neither is, and they are related where
they are there. -/
theorem optionRel_iff {α β : Type} {R : α → β → Prop} {a : Option α} {b : Option β} :
    Option.Rel R a b ↔ (a = none ↔ b = none) ∧ ∀ x y, a = some x → b = some y → R x y := by
  constructor
  · intro h
    cases h with
    | none => exact ⟨iff_of_true rfl rfl, nofun⟩
    | some h =>
      refine ⟨iff_of_false nofun nofun, ?_⟩
      intro x y hx hy
      obtain rfl := Option.some.inj hx
      obtain rfl := Option.some.inj hy
      exact h
  · rintro ⟨hnone, hsome⟩
    cases a with
    | none =>
      rw [hnone.mp rfl]
      exact Option.Rel.none
    | some x =>
      cases b with
      | none => cases hnone.mpr rfl
      | some y => exact Option.Rel.some (hsome x y rfl rfl)

/-- Two lists are related element by element if their elements at each index are. -/
theorem forall₂_iff_getElem? {α β : Type} {R : α → β → Prop} {xs : List α} {ys : List β} :
    List.Forall₂ R xs ys ↔ ∀ i : Nat, Option.Rel R xs[i]? ys[i]? := by
  constructor
  · intro h
    induction h with
    | nil => exact fun i => Option.Rel.none
    | cons hhead _ ih =>
      intro i
      cases i with
      | zero => exact Option.Rel.some hhead
      | succ i => exact ih i
  · intro h
    induction xs generalizing ys with
    | nil =>
      cases ys with
      | nil => exact List.Forall₂.nil
      | cons y ys => cases h 0
    | cons x xs ih =>
      cases ys with
      | nil => cases h 0
      | cons y ys =>
        cases h 0 with
        | some hhead => exact List.Forall₂.cons hhead (ih fun i => h (i + 1))

namespace Expr

/-! ### Addresses -/

/-- The operands of the root, from left to right. -/
def operands : Expr → List Expr
  | literal _ => []
  | grouping inner => [inner]
  | unary _ operand => [operand]
  | binary left _ right => [left, right]

/-- **The subtree at an address.** -/
def at? : Expr → List Nat → Option Expr
  | e, [] => some e
  | e, i :: path => e.operands[i]?.bind fun operand => operand.at? path

@[simp] theorem at?_nil (e : Expr) : e.at? [] = some e := rfl

@[simp] theorem at?_cons (e : Expr) (i : Nat) (path : List Nat) :
    e.at? (i :: path) = e.operands[i]?.bind fun operand => operand.at? path := rfl

theorem at?_singleton (e : Expr) (i : Nat) : e.at? [i] = e.operands[i]? := Option.bind_fun_some _

/-- Some node of the tree is the root of a tree with `P`. -/
def HasNode (P : Expr → Prop) (e : Expr) : Prop := ∃ path node, e.at? path = some node ∧ P node

/-- **The addresses of all nodes**, that of a node before those below it and left before
right. -/
def addresses : Expr → List (List Nat)
  | literal _ => [[]]
  | grouping inner => [] :: inner.addresses.map (0 :: ·)
  | unary _ operand => [] :: operand.addresses.map (0 :: ·)
  | binary left _ right =>
    [] :: (left.addresses.map (0 :: ·) ++ right.addresses.map (1 :: ·))

theorem mem_addresses_iff (e : Expr) (path : List Nat) :
    path ∈ e.addresses ↔ (e.at? path).isSome = true := by
  induction e generalizing path with
  | literal value => cases path <;> simp [addresses, operands]
  | grouping inner ih =>
    cases path with
    | nil => simp [addresses]
    | cons i path => cases i <;> simp [addresses, operands, ih]
  | unary op operand ih =>
    cases path with
    | nil => simp [addresses]
    | cons i path => cases i <;> simp [addresses, operands, ih]
  | binary left op right ihl ihr =>
    cases path with
    | nil => simp [addresses]
    | cons i path =>
      match i with
      | 0 => simp [addresses, operands, ihl]
      | 1 => simp [addresses, operands, ihr]
      | i + 2 => simp [addresses, operands]

theorem hasNode_iff (P : Expr → Prop) (e : Expr) :
    e.HasNode P ↔ ∃ path ∈ e.addresses, ∃ node ∈ e.at? path, P node := by
  constructor
  · rintro ⟨path, node, hnode, h⟩
    exact ⟨path, (mem_addresses_iff e path).mpr (by rw [hnode]; rfl), node, hnode, h⟩
  · rintro ⟨path, -, node, hnode, h⟩
    exact ⟨path, node, hnode, h⟩

instance (P : Expr → Prop) [DecidablePred P] (e : Expr) : Decidable (e.HasNode P) :=
  decidable_of_iff' _ (hasNode_iff P e)

/-- Addresses that go on with the same operand keep their order. -/
theorem pairwise_map_cons {i : Nat} {paths : List (List Nat)}
    (h : paths.Pairwise (List.Lex (· < ·))) :
    (paths.map (i :: ·)).Pairwise (List.Lex (· < ·)) :=
  List.pairwise_map.mpr (h.imp List.Lex.cons)

/-- The root comes before all that lies below an operand. -/
theorem pairwise_nil_cons {paths : List (List Nat)} (h : paths.Pairwise (List.Lex (· < ·)))
    (hne : [] ∉ paths) : ([] :: paths).Pairwise (List.Lex (· < ·)) := by
  refine List.pairwise_cons.mpr ⟨?_, h⟩
  intro path hpath
  cases path with
  | nil => exact absurd hpath hne
  | cons i path => exact List.Lex.nil

/-- **The addresses ascend**, so that no node is listed twice. -/
theorem pairwise_addresses (e : Expr) : e.addresses.Pairwise (List.Lex (· < ·)) := by
  induction e with
  | literal value => exact List.pairwise_singleton _ _
  | grouping inner ih => exact pairwise_nil_cons (pairwise_map_cons ih) (by simp)
  | unary op operand ih => exact pairwise_nil_cons (pairwise_map_cons ih) (by simp)
  | binary left op right ihl ihr =>
    refine pairwise_nil_cons ?_ (by simp)
    refine List.pairwise_append.mpr ⟨pairwise_map_cons ihl, pairwise_map_cons ihr, ?_⟩
    -- What lies below the left operand comes before what lies below the right one.
    intro path hpath path' hpath'
    obtain ⟨path, -, rfl⟩ := List.mem_map.mp hpath
    obtain ⟨path', -, rfl⟩ := List.mem_map.mp hpath'
    exact List.Lex.rel Nat.zero_lt_one

/-! ### Trees node by node -/

/-- **Two trees node by node**: at each address either both have a node and these are related,
or neither has one. -/
def Nodewise (R : Expr → Expr → Prop) (e f : Expr) : Prop :=
  ∀ path, Option.Rel R (e.at? path) (f.at? path)

section Nodewise

variable {R S : Expr → Expr → Prop} {e f : Expr}

theorem Nodewise.root (h : Nodewise R e f) : R e f := by
  cases h [] with
  | some h => exact h

/-- **Node by node** means: the roots are related, and the operands are node by node. -/
theorem nodewise_iff :
    Nodewise R e f ↔ R e f ∧ List.Forall₂ (Nodewise R) e.operands f.operands := by
  constructor
  · intro h
    refine ⟨h.root, forall₂_iff_getElem?.mpr fun i => ?_⟩
    have hoperand := h [i]
    rw [at?_singleton, at?_singleton] at hoperand
    refine optionRel_iff.mpr ⟨(optionRel_iff.mp hoperand).1, fun e' f' he hf path => ?_⟩
    -- What lies below the operand number `i` has the addresses that begin with `i`.
    have hbelow := h (i :: path)
    rw [at?_cons, at?_cons, he, hf] at hbelow
    exact hbelow
  · rintro ⟨hroot, hoperands⟩ path
    cases path with
    | nil => exact Option.Rel.some hroot
    | cons i path =>
      have hoperand := forall₂_iff_getElem?.mp hoperands i
      rw [at?_cons, at?_cons]
      generalize e.operands[i]? = e' at hoperand ⊢
      generalize f.operands[i]? = f' at hoperand ⊢
      cases hoperand with
      | none => exact Option.Rel.none
      | some h => exact h path

/-- Another relation may be proved of the nodes by what they are in their trees. -/
theorem Nodewise.imp (h : Nodewise R e f)
    (hRS : ∀ path e' f', e.at? path = some e' → f.at? path = some f' → R e' f' → S e' f') :
    Nodewise S e f := by
  intro path
  obtain ⟨hnone, hsome⟩ := optionRel_iff.mp (h path)
  refine optionRel_iff.mpr ⟨hnone, fun e' f' he hf => ?_⟩
  exact hRS path e' f' he hf (hsome e' f' he hf)

theorem Nodewise.mono (h : Nodewise R e f) (hRS : ∀ e' f', R e' f' → S e' f') : Nodewise S e f :=
  h.imp fun _ e' f' _ _ => hRS e' f'

theorem Nodewise.swap (h : Nodewise R e f) : Nodewise (fun e' f' => R f' e') f e := by
  intro path
  obtain ⟨hnone, hsome⟩ := optionRel_iff.mp (h path)
  exact optionRel_iff.mpr ⟨hnone.symm, fun f' e' hf he => hsome e' f' he hf⟩

theorem Nodewise.trans {T : Expr → Expr → Prop} {g : Expr} (hef : Nodewise R e f)
    (hfg : Nodewise S f g) (hRS : ∀ e' f' g', R e' f' → S f' g' → T e' g') : Nodewise T e g := by
  intro path
  obtain ⟨hnone, hsome⟩ := optionRel_iff.mp (hef path)
  obtain ⟨hnone', hsome'⟩ := optionRel_iff.mp (hfg path)
  refine optionRel_iff.mpr ⟨hnone.trans hnone', fun e' g' he hg => ?_⟩
  -- Where the outer trees have a node, the one in the middle has one too.
  have hmiddle : f.at? path ≠ none := by
    intro hf
    cases he.symm.trans (hnone.mpr hf)
  obtain ⟨f', hf⟩ := Option.ne_none_iff_exists'.mp hmiddle
  exact hRS e' f' g' (hsome e' f' he hf) (hsome' f' g' hf hg)

/-- A tree and itself node by node. -/
theorem nodewise_self_iff : Nodewise R e e ↔ ¬ e.HasNode fun node => ¬ R node node := by
  constructor
  · rintro h ⟨path, node, hnode, hnot⟩
    have hpath := h path
    rw [hnode] at hpath
    cases hpath with
    | some hR => exact hnot hR
  · intro h path
    cases hnode : e.at? path with
    | none => exact Option.Rel.none
    | some node => exact Option.Rel.some (not_not.mp fun hnot => h ⟨path, node, hnode, hnot⟩)

end Nodewise

end Expr

/-! ### Computations over trees node by node -/

/-- **A visitor does the same at two roots.** -/
inductive Visitor.Alike {α : Type} (v : Visitor α) : Expr → Expr → Prop
  | literal {x y : Option Value} (h : v.literal x = v.literal y) :
      Alike v (.literal x) (.literal y)
  | grouping {e f : Expr} : Alike v (.grouping e) (.grouping f)
  | unary {op op' : Token} {e f : Expr} (h : v.unary op = v.unary op') :
      Alike v (.unary op e) (.unary op' f)
  | binary {op op' : Token} {l r l' r' : Expr} (h : ∀ a, v.binary a op = v.binary a op') :
      Alike v (.binary l op r) (.binary l' op' r')

/-- **The results are the same** if the visitor does the same at all nodes. -/
theorem Expr.fold_eq_of_nodewise {α : Type} {v : Visitor α} {e f : Expr}
    (h : Expr.Nodewise v.Alike e f) : e.fold v = f.fold v := by
  induction e generalizing f with
  | literal value =>
    cases h.root with
    | literal hvalue => exact hvalue
  | grouping inner ih =>
    obtain ⟨hroot, hoperands⟩ := nodewise_iff.mp h
    cases hroot with
    | grouping =>
      obtain ⟨hinner, -⟩ := List.forall₂_cons.mp hoperands
      exact congrArg v.grouping (ih hinner)
  | unary op operand ih =>
    obtain ⟨hroot, hoperands⟩ := nodewise_iff.mp h
    cases hroot with
    | unary hop =>
      obtain ⟨hoperand, -⟩ := List.forall₂_cons.mp hoperands
      rw [fold, fold, hop, ih hoperand]
  | binary left op right ihl ihr =>
    obtain ⟨hroot, hoperands⟩ := nodewise_iff.mp h
    cases hroot with
    | binary hop =>
      obtain ⟨hleft, hrest⟩ := List.forall₂_cons.mp hoperands
      obtain ⟨hright, -⟩ := List.forall₂_cons.mp hrest
      rw [fold, fold, ihl hleft, ihr hright, hop]

end LoxFront

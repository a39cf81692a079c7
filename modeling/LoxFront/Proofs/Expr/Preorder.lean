import LoxFront.Expr.Render
import LoxFront.Proofs.Expr.Nodes

/-!
# What the nodes on entry say of a tree

The list of the nodes on entry has no brackets. It determines the tree nevertheless, because each
entry says how many operands follow.

* `Expr.recorder` — the visitor that writes down each node when it enters it, and `fold_recorder`,
  it appends `Expr.preorder` to what was written before;
* `Expr.entry` — the entry of the root. The entries of a tree are those at its addresses
  (`map_some_preorder`);
* `Expr.SameEntry` — two roots look the same on entry (`entry_eq_iff`);
* `nodewise_of_preorder_append` — where two trees are listed, each with something after it, and the
  lists are the same, the trees look the same node by node, and so does what comes after.

The main statement is `preorder_faithful`.
-/

namespace LoxFront

namespace Expr

/-- **A visitor that keeps a log.** It writes a node down and then enters the operands, the left
one first. -/
def recorder : Visitor (List Entry → List Entry) where
  literal value log := log ++ [.literal value]
  grouping inner log := inner (log ++ [.group])
  unary op operand log := operand (log ++ [.unary op.lexeme op.line])
  binary left op right log := right (left (log ++ [.binary op.lexeme op.line]))

/-- **What is written down** is the list of the nodes on entry. -/
theorem fold_recorder (e : Expr) (log : List Entry) : e.fold recorder log = log ++ e.preorder := by
  induction e generalizing log with
  | literal value => rfl
  | grouping inner ih =>
    calc inner.fold recorder (log ++ [.group])
        = log ++ [.group] ++ inner.preorder := ih _
      _ = log ++ (grouping inner).preorder := List.append_assoc ..
  | unary op operand ih =>
    calc operand.fold recorder (log ++ [.unary op.lexeme op.line])
        = log ++ [.unary op.lexeme op.line] ++ operand.preorder := ih _
      _ = log ++ (unary op operand).preorder := List.append_assoc ..
  | binary left op right ihl ihr =>
    calc right.fold recorder (left.fold recorder (log ++ [.binary op.lexeme op.line]))
        = log ++ [.binary op.lexeme op.line] ++ left.preorder ++ right.preorder := by rw [ihl, ihr]
      _ = log ++ (binary left op right).preorder := by
        rw [preorder_binary, List.append_assoc, List.append_assoc, List.singleton_append]

/-! ### The entries of a tree -/

/-- The entry of the root. -/
def entry : Expr → Entry
  | literal value => .literal value
  | grouping _ => .group
  | unary op _ => .unary op.lexeme op.line
  | binary _ op _ => .binary op.lexeme op.line

theorem preorder_eq_cons (e : Expr) : e.preorder = e.entry :: e.operands.flatMap preorder := by
  cases e <;> simp [entry, operands]

/-- **One entry for each address**, in the order of the addresses. -/
theorem map_some_preorder (e : Expr) :
    e.preorder.map some = e.addresses.map fun path => (e.at? path).map entry := by
  induction e with
  | literal value => rfl
  | grouping inner ih =>
    rw [preorder_grouping, addresses, List.map_cons, List.map_cons, List.map_map, ih]
    rfl
  | unary op operand ih =>
    rw [preorder_unary, addresses, List.map_cons, List.map_cons, List.map_map, ih]
    rfl
  | binary left op right ihl ihr =>
    rw [preorder_binary, addresses, List.map_cons, List.map_cons, List.map_append, List.map_append,
      List.map_map, List.map_map, ihl, ihr]
    rfl

/-- **Two roots look the same on entry**: they have the same shape, the literals are identical, and
the operators agree in lexeme and line. -/
inductive SameEntry : Expr → Expr → Prop
  | literal (value : Option Value) : SameEntry (literal value) (literal value)
  | grouping {e f : Expr} : SameEntry (grouping e) (grouping f)
  | unary {op op' : Token} {e f : Expr} (hlexeme : op.lexeme = op'.lexeme)
      (hline : op.line = op'.line) : SameEntry (unary op e) (unary op' f)
  | binary {op op' : Token} {l r l' r' : Expr} (hlexeme : op.lexeme = op'.lexeme)
      (hline : op.line = op'.line) : SameEntry (binary l op r) (binary l' op' r')

theorem SameEntry.entry_eq {e f : Expr} (h : SameEntry e f) : e.entry = f.entry := by
  cases h with
  | literal value => rfl
  | grouping => rfl
  | unary hlexeme hline => rw [entry, entry, hlexeme, hline]
  | binary hlexeme hline => rw [entry, entry, hlexeme, hline]

theorem sameEntry_of_entry_eq {e f : Expr} (h : e.entry = f.entry) : SameEntry e f := by
  cases e with
  | literal value =>
    cases f with
    | literal value' =>
      obtain rfl := Entry.literal.inj h
      exact SameEntry.literal value
    | _ => cases h
  | grouping inner =>
    cases f with
    | grouping inner' => exact SameEntry.grouping
    | _ => cases h
  | unary op operand =>
    cases f with
    | unary op' operand' =>
      obtain ⟨hlexeme, hline⟩ := Entry.unary.inj h
      exact SameEntry.unary hlexeme hline
    | _ => cases h
  | binary left op right =>
    cases f with
    | binary left' op' right' =>
      obtain ⟨hlexeme, hline⟩ := Entry.binary.inj h
      exact SameEntry.binary hlexeme hline
    | _ => cases h

theorem entry_eq_iff {e f : Expr} : e.entry = f.entry ↔ SameEntry e f :=
  ⟨sameEntry_of_entry_eq, SameEntry.entry_eq⟩

/-- The lister sees no more of a node than its entry. -/
theorem SameEntry.alike_lister {e f : Expr} (h : SameEntry e f) : lister.Alike e f := by
  cases h with
  | literal value => exact Visitor.Alike.literal rfl
  | grouping => exact Visitor.Alike.grouping
  | unary hlexeme hline =>
    refine Visitor.Alike.unary (funext fun below => ?_)
    simp only [lister, hlexeme, hline]
  | binary hlexeme hline =>
    refine Visitor.Alike.binary fun left => funext fun right => ?_
    simp only [lister, hlexeme, hline]

/-! ### Reading a list of entries -/

/-- The first entry is that of the root, and what comes after it lists the operands. -/
theorem sameEntry_of_preorder_append {e f : Expr} {more more' : List Entry}
    (h : e.preorder ++ more = f.preorder ++ more') :
    SameEntry e f ∧
      e.operands.flatMap preorder ++ more = f.operands.flatMap preorder ++ more' := by
  rw [preorder_eq_cons, preorder_eq_cons f] at h
  obtain ⟨hentry, hbelow⟩ := List.cons.inj h
  exact ⟨entry_eq_iff.mp hentry, hbelow⟩

/-- **Lists of entries are read from the front.** The entry of the root says how many operands are
listed behind it, so that the list of a tree ends where it must. -/
theorem nodewise_of_preorder_append {e f : Expr} {more more' : List Entry}
    (h : e.preorder ++ more = f.preorder ++ more') : Nodewise SameEntry e f ∧ more = more' := by
  -- By induction on the first tree. What comes after an operand is the next operand, or what comes
  -- after the whole tree, so that the induction is for any `more`.
  induction e generalizing f more more' with
  | literal value =>
    obtain ⟨hroot, hbelow⟩ := sameEntry_of_preorder_append h
    cases hroot with
    | literal => exact ⟨nodewise_iff.mpr ⟨.literal value, List.Forall₂.nil⟩, hbelow⟩
  | grouping inner ih =>
    obtain ⟨hroot, hbelow⟩ := sameEntry_of_preorder_append h
    cases hroot with
    | grouping =>
      simp only [operands, List.flatMap_singleton] at hbelow
      obtain ⟨hinner, hmore⟩ := ih hbelow
      exact ⟨nodewise_iff.mpr ⟨.grouping, .cons hinner .nil⟩, hmore⟩
  | unary op operand ih =>
    obtain ⟨hroot, hbelow⟩ := sameEntry_of_preorder_append h
    cases hroot with
    | unary hlexeme hline =>
      simp only [operands, List.flatMap_singleton] at hbelow
      obtain ⟨hoperand, hmore⟩ := ih hbelow
      exact ⟨nodewise_iff.mpr ⟨.unary hlexeme hline, .cons hoperand .nil⟩, hmore⟩
  | binary left op right ihl ihr =>
    obtain ⟨hroot, hbelow⟩ := sameEntry_of_preorder_append h
    cases hroot with
    | binary hlexeme hline =>
      simp only [operands, List.flatMap_cons, List.flatMap_nil, List.append_nil] at hbelow
      rw [List.append_assoc, List.append_assoc] at hbelow
      -- The left operand is read first, and what comes after it is the right one.
      obtain ⟨hleft, hrest⟩ := ihl hbelow
      obtain ⟨hright, hmore⟩ := ihr hrest
      exact ⟨nodewise_iff.mpr ⟨.binary hlexeme hline, .cons hleft (.cons hright .nil)⟩, hmore⟩

theorem preorder_eq_iff {e f : Expr} : e.preorder = f.preorder ↔ Nodewise SameEntry e f := by
  constructor
  · intro h
    have hmore : e.preorder ++ [] = f.preorder ++ [] := congrArg (· ++ []) h
    exact (nodewise_of_preorder_append hmore).1
  · intro h
    exact fold_eq_of_nodewise (h.mono fun _ _ hroots => hroots.alike_lister)

/-- **No list of entries goes on** as that of another tree. -/
theorem preorder_prefix_iff {e f : Expr} :
    e.preorder <+: f.preorder ↔ e.preorder = f.preorder := by
  constructor
  · rintro ⟨more, hmore⟩
    have hlists : e.preorder ++ more = f.preorder ++ [] := by rw [hmore, List.append_nil]
    obtain ⟨-, rfl⟩ := nodewise_of_preorder_append hlists
    rw [← hmore, List.append_nil]
  · intro h
    exact ⟨[], by rw [List.append_nil, h]⟩

/-- **The nodes on entry tell the tree.** A visitor that writes down each node on entry and then
enters the operands from left to right appends the list of all nodes: one entry for each address,
the addresses ascending, so that every node is listed once, a node before those below it and left
before right. Two trees have the same list just if they look the same node by node, literals bit
for bit, and no list is a proper first part of another one. -/
theorem preorder_faithful (e f : Expr) :
    (∀ log, e.fold recorder log = log ++ e.preorder) ∧
      (e.preorder.map some = e.addresses.map (fun path => (e.at? path).map entry) ∧
        e.addresses.Pairwise (List.Lex (· < ·)) ∧
        ∀ path, path ∈ e.addresses ↔ (e.at? path).isSome = true) ∧
      (e.preorder = f.preorder ↔ Nodewise SameEntry e f) ∧
      (e.preorder <+: f.preorder ↔ e.preorder = f.preorder) :=
  ⟨e.fold_recorder, ⟨e.map_some_preorder, e.pairwise_addresses, e.mem_addresses_iff⟩,
    preorder_eq_iff, preorder_prefix_iff⟩

end Expr

end LoxFront

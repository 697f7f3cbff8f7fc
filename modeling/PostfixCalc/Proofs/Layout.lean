import PostfixCalc.Proofs.Infix
import PostfixCalc.Proofs.Meaning
import PostfixCalc.Proofs.Outcome

/-! # Trees and their infix lists

Any tree whose tokens stand where their kinds have them has infix lists, among them one that
brackets an operand only when its root holds less tightly than it has to there. A list, for
its part, belongs to one tree alone, and that is seen after the conversion: a tree can be put
together again from its postorder, for the kinds of the tokens say how many arguments each
takes. -/

namespace PostfixCalc

namespace Token

/-- How tightly the left operand of an operator has to hold to stand without brackets: as the
operator, or more than that where it groups to the right. -/
def leftGrip (op : Token) : Nat :=
  if op.level = 3 then 4 else op.level

def rightGrip (op : Token) : Nat :=
  if op.level = 3 then 3 else op.level + 1

theorem leftGrip_le (op : Token) : op.leftGrip ≤ 5 := by
  have := op.level_le
  unfold leftGrip
  split <;> omega

theorem rightGrip_le (op : Token) : op.rightGrip ≤ 5 := by
  have := op.level_le
  unfold rightGrip
  split <;> omega

theorem isBinary_iff {t : Token} : t.isBinary = true ↔ t.role = .operator ∨ t.kind = .binaryFn := by
  simp [isBinary, role_eq_operator_iff]

end Token

/-- The list in brackets, where its level `n` is below the level that is wanted. -/
def enclosed (wanted n : Nat) (ts : List Token) : List Token :=
  if wanted ≤ n then ts else Token.bracketed ts

namespace Tree

/-- The level of an infix list of the tree that is not in brackets as a whole. -/
def level : Tree → Nat
  | leaf _ => 5
  | unary _ _ => 4
  | binary f _ _ => f.grip

/-- An infix list of a tree: the arguments of functions in brackets, the operands of operators
only where they do not hold tightly enough. -/
def layout : Tree → List Token
  | leaf t => [t]
  | unary f arg => f :: Token.bracketed arg.layout
  | binary f left right =>
    if f.isFunction then f :: Token.bracketed (enclosed 5 left.level left.layout ++ right.layout)
    else enclosed f.leftGrip left.level left.layout ++
      f :: enclosed f.rightGrip right.level right.layout

end Tree

/-! ## Levels -/

section Levels

variable {n : Nat} {ts : List Token} {e : Tree}

/-- An infix list is closed, or it binds as its root does. -/
theorem Infix.level_eq (h : Infix n ts e) : n = 5 ∨ n = e.level := by
  cases h with
  | operand _ | bracketed _ _ _ => exact .inl rfl
  | unary _ _ _ => exact .inr rfl
  | binary hf _ _ _ _ => exact .inr (Token.grip_of_function (Token.role_of_binaryFn hf)).symm
  | power hop hlevel _ _ _ _ => exact .inr ((Token.grip_of_operator hop).trans hlevel).symm
  | chain hop hlevel _ _ _ _ _ => exact .inr ((Token.grip_of_operator hop).trans hlevel).symm

theorem Infix.placed (h : Infix n ts e) : e.Placed := by
  induction h with
  | operand h => exact ⟨h, trivial⟩
  | bracketed _ _ _ ih => exact ih
  | unary hf _ _ ih => exact ⟨⟨hf, trivial⟩, ih⟩
  | binary hf _ _ _ _ ihl ihr => exact ⟨⟨Token.isBinary_iff.mpr (.inr hf), trivial⟩, ihl, ihr⟩
  | power hop _ _ _ _ _ ihl ihr | chain hop _ _ _ _ _ _ ihl ihr =>
    exact ⟨⟨Token.isBinary_of_operator hop, trivial⟩, ihl, ihr⟩

theorem Infix.brackets (h : Infix n ts e) : Infix 5 (Token.bracketed ts) e :=
  .bracketed rfl rfl h

/-- Enclosing brings any list to a level that is wanted. -/
theorem Infix.enclosed (h : Infix n ts e) (wanted : Nat) (hw : wanted ≤ 5) :
    ∃ m, wanted ≤ m ∧ Infix m (enclosed wanted n ts) e := by
  unfold PostfixCalc.enclosed
  split
  · exact ⟨n, ‹_›, h⟩
  · exact ⟨5, hw, h.brackets⟩

/-- An operator between two operands that hold tightly enough. -/
theorem Infix.operator {op : Token} {l r : Nat} {ls rs : List Token} {a b : Tree}
    (hop : op.role = .operator) (hl : Infix l ls a) (hleft : op.leftGrip ≤ l)
    (hr : Infix r rs b) (hright : op.rightGrip ≤ r) :
    Infix op.level (ls ++ op :: rs) (.binary op a b) := by
  unfold Token.leftGrip at hleft
  unfold Token.rightGrip at hright
  by_cases hlevel : op.level = 3
  · rw [if_pos hlevel] at hleft hright
    rw [hlevel]
    exact .power hop hlevel hleft hl hright hr
  · rw [if_neg hlevel] at hleft hright
    exact .chain hop rfl (Nat.lt_of_le_of_ne op.level_le hlevel) hleft hl hright hr

/-- Every tree can be laid out. -/
theorem Tree.Placed.infix_layout (h : e.Placed) : Infix e.level e.layout e := by
  induction e with
  | leaf t => exact .operand h.1
  | unary f arg ih => exact .unary h.1.1 (by decide) (ih h.2).brackets
  | binary f left right ihl ihr =>
    obtain ⟨⟨hf, -⟩, hleft, hright⟩ := h
    rcases Token.isBinary_iff.mp hf with hop | hfn
    · rw [layout, Token.isFunction_of_operator hop, if_neg Bool.false_ne_true, level,
        Token.grip_of_operator hop]
      obtain ⟨l, hl, hls⟩ := (ihl hleft).enclosed f.leftGrip f.leftGrip_le
      obtain ⟨r, hr, hrs⟩ := (ihr hright).enclosed f.rightGrip f.rightGrip_le
      exact .operator hop hls hl hrs hr
    · have hrole : f.role = .function := Token.role_of_binaryFn hfn
      rw [layout, if_pos (Token.isFunction_iff.mpr hrole), level, Token.grip_of_function hrole,
        Token.bracketed, List.append_assoc]
      obtain ⟨l, hl, hls⟩ := (ihl hleft).enclosed 5 (Nat.le_refl 5)
      obtain rfl := Nat.le_antisymm hls.level_le hl
      exact .binary hfn rfl rfl hls (ihr hright)

end Levels

/-! ## From the postorder back to the tree -/

namespace Tree

/-- What one token of a postorder makes of the trees before it, the latest first. -/
def gather (trees : List Tree) (t : Token) : List Tree :=
  match t.kind, trees with
  | .unaryFn, a :: rest => unary t a :: rest
  | .binaryFn, b :: a :: rest | .binaryOp, b :: a :: rest => binary t a b :: rest
  | _, trees => leaf t :: trees

theorem gather_operand {t : Token} (h : t.role = .operand) (trees : List Tree) :
    gather trees t = leaf t :: trees := by
  unfold Token.role at h
  unfold gather
  -- The kinds that are no operands contradict the role; the others push a leaf.
  cases hk : t.kind <;> simp_all

theorem gather_unary {f : Token} (h : f.kind = .unaryFn) (a : Tree) (trees : List Tree) :
    gather (a :: trees) f = unary f a :: trees := by
  simp [gather, h]

theorem gather_binary {f : Token} (h : f.isBinary = true) (a b : Tree) (trees : List Tree) :
    gather (b :: a :: trees) f = binary f a b :: trees := by
  rcases Token.isBinary_iff.mp h with h | h
  · simp [gather, Token.role_eq_operator_iff.mp h]
  · simp [gather, h]

/-- A postorder gives the tree that it is of. -/
theorem Placed.foldl_gather {e : Tree} (h : e.Placed) (trees : List Tree) :
    e.postorder.foldl gather trees = e :: trees := by
  induction e generalizing trees with
  | leaf t => exact gather_operand h.1 trees
  | unary f arg ih =>
    rw [postorder, List.foldl_append, ih h.2]
    exact gather_unary h.1.1 arg trees
  | binary f left right ihl ihr =>
    obtain ⟨⟨hf, -⟩, hleft, hright⟩ := h
    rw [postorder, List.foldl_append, List.foldl_append, ihl hleft, ihr hright]
    exact gather_binary hf left right trees

theorem Placed.eq_of_postorder {a b : Tree} (ha : a.Placed) (hb : b.Placed)
    (h : a.postorder = b.postorder) : a = b := by
  have hgather : [a] = [b] := by rw [← ha.foldl_gather, h, hb.foldl_gather]
  exact List.singleton_inj.mp hgather

end Tree

/-- A list is an infix list of one tree. -/
theorem Infix.unique {m n : Nat} {ts : List Token} {a b : Tree} (ha : Infix m ts a)
    (hb : Infix n ts b) : a = b := by
  refine ha.placed.eq_of_postorder hb.placed ?_
  have hboth : (.ok a.postorder : Except Fault (List Token)) = .ok b.postorder :=
    ha.postfixOrder.symm.trans hb.postfixOrder
  exact Except.ok.inj hboth

/-! ## The conversion -/

/-- A tree with its tokens in their places can be laid out, and any list of a tree, bracketed
further in any way, is converted to the postorder of that tree and is a list of no other. -/
theorem toPostfix_infix (e : Tree) :
    (e.Placed → Infix e.level e.layout e) ∧
    ∀ n ts, Infix n ts e →
      e.Placed ∧ (n = 5 ∨ n = e.level) ∧ (∀ m a, Infix m ts a → a = e) ∧
        (toPostfix ts).outcome = .ok e.postorder := by
  refine ⟨Tree.Placed.infix_layout, fun n ts h => ?_⟩
  refine ⟨h.placed, h.level_eq, fun m a ha => ha.unique h, ?_⟩
  rw [toPostfix_outcome]
  exact h.postfixOrder

/-- The remainder of `7 - sin(x) ^ 2 ^ x` by a call, with an operator that no text spells. -/
def remainder : Tree :=
  .binary ⟨.binaryOp, "mod"⟩
    (.binary (.ofOperator .sub) (.leaf ⟨.number, "7"⟩)
      (.binary (.ofOperator .pow) (.unary ⟨.unaryFn, "sin"⟩ (.leaf ⟨.var, "x"⟩))
        (.binary (.ofOperator .pow) (.leaf ⟨.number, "2"⟩) (.leaf ⟨.var, "x"⟩))))
    (.binary ⟨.binaryFn, "log"⟩
      (.binary (.ofOperator .add) (.leaf ⟨.var, "x"⟩) (.leaf ⟨.number, "1"⟩))
      (.leaf ⟨.constant, "pi"⟩))

theorem toPostfix_infix_remainder :
    (Token.spaced remainder.layout = "7 - sin ( x ) ^ 2 ^ x mod log ( ( x + 1 ) pi )" ∧
      Token.spaced remainder.postorder = "7 x sin 2 x ^ ^ - x 1 + pi log mod") ∧
    (toPostfix remainder.layout).outcome = .ok remainder.postorder ∧
    (toPostfix (Token.bracketed (Token.bracketed remainder.layout))).outcome =
      .ok remainder.postorder := by
  have hplaced : remainder.Placed := by decide
  obtain ⟨hlayout, hlists⟩ := toPostfix_infix remainder
  have hlist := hlayout hplaced
  obtain ⟨-, -, -, hbare⟩ := hlists _ _ hlist
  obtain ⟨-, -, -, htwice⟩ := hlists _ _ hlist.brackets.brackets
  exact ⟨by decide, hbare, htwice⟩

end PostfixCalc

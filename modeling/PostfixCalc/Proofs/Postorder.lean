import Mathlib.Data.List.Forall2
import PostfixCalc.Proofs.FirstFault
import PostfixCalc.Proofs.Layout

/-! # Postfix lists and trees

A list of tokens has a value exactly when it is the postorder of a tree whose tokens mean
something in their places, and the value is that of the tree. The tree is put together from
the list as the evaluation goes along: where the evaluation has a value on its stack, there
is a tree with this value, and the trees together list the tokens seen so far. -/

namespace PostfixCalc

namespace Vocabulary

variable {v : Vocabulary} {x : Binary64} {t : Token} {a : Action}

theorem flaw?_of_action (h : v.action x t = .ok a) : v.flaw? t = none := by
  cases hf : v.flaw? t with
  | none => rfl
  | some e =>
    rw [action_of_flaw? hf] at h
    cases h

/-- A token acts with `n` arguments when it takes so many and there is nothing wrong with it. -/
theorem exists_action_iff {n : Nat} :
    (∃ a, v.action x t = .ok a ∧ a.arity = n) ↔ t.Takes n ∧ v.flaw? t = none := by
  constructor
  · rintro ⟨a, ha, rfl⟩
    exact ⟨takes_of_action ha, flaw?_of_action ha⟩
  · rintro ⟨htakes, hflaw⟩
    obtain ⟨a, ha, harity⟩ := exists_action hflaw x
    exact ⟨a, ha, harity.trans (Token.arity_of_takes htakes)⟩

theorem exists_push_iff :
    (∃ r, v.action x t = .ok (.push r)) ↔ t.Takes 0 ∧ v.flaw? t = none := by
  rw [← exists_action_iff (x := x)]
  simp [Action.arity_eq_zero_iff]

theorem exists_map_iff :
    (∃ g, v.action x t = .ok (.map g)) ↔ t.Takes 1 ∧ v.flaw? t = none := by
  rw [← exists_action_iff (x := x)]
  simp [Action.arity_eq_one_iff]

theorem exists_merge_iff :
    (∃ g, v.action x t = .ok (.merge g)) ↔ t.Takes 2 ∧ v.flaw? t = none := by
  rw [← exists_action_iff (x := x)]
  simp [Action.arity_eq_two_iff]

end Vocabulary

namespace Tree

open Vocabulary

variable {v : Vocabulary} {x r : Binary64}

/-- Every token takes as many arguments as it has, and the vocabulary has nothing against it: it
knows the names, the numerals are read, and an operator token begins with an operator. -/
def Meaningful (v : Vocabulary) : Tree → Prop :=
  Suited fun t => v.flaw? t = none

/-! ## The value, constructor by constructor -/

theorem value?_leaf_iff {t : Token} :
    (leaf t).value? v x = some r ↔ v.action x t = .ok (.push r) := by
  rw [value?, action]
  cases t.kind <;> simp only
  case var | bracket => simp
  all_goals split <;> simp_all

theorem value?_unary_iff {f : Token} {arg : Tree} :
    (unary f arg).value? v x = some r ↔
      ∃ g a, v.action x f = .ok (.map g) ∧ arg.value? v x = some a ∧ g a = r := by
  rw [value?, action]
  cases f.kind <;> simp only
  case unaryFn => cases v.unary f.text <;> simp [Option.bind_eq_some_iff]
  case var | bracket => simp
  all_goals split <;> simp

theorem value?_binary_iff {f : Token} {left right : Tree} :
    (binary f left right).value? v x = some r ↔
      ∃ g a b, v.action x f = .ok (.merge g) ∧ left.value? v x = some a ∧
        right.value? v x = some b ∧ g a b = r := by
  rw [value?, action]
  cases f.kind <;> simp only
  case binaryFn => cases v.binary f.text <;> simp [Option.bind_eq_some_iff]
  case binaryOp => cases Operator.leading? f.text <;> simp [Option.bind_eq_some_iff]
  case var | bracket => simp
  all_goals split <;> simp

/-- A tree has a value as soon as it is meaningful, and only then. -/
theorem exists_value?_iff {e : Tree} : (∃ r, e.value? v x = some r) ↔ e.Meaningful v := by
  induction e with
  | leaf t => simp only [value?_leaf_iff, exists_push_iff, Meaningful, Suited]
  | unary f arg ih =>
    rw [Meaningful, Suited, ← Meaningful, ← ih, ← exists_map_iff (x := x)]
    constructor
    · rintro ⟨r, h⟩
      obtain ⟨g, a, hf, ha, -⟩ := value?_unary_iff.mp h
      exact ⟨⟨g, hf⟩, a, ha⟩
    · rintro ⟨⟨g, hf⟩, a, ha⟩
      exact ⟨g a, value?_unary_iff.mpr ⟨g, a, hf, ha, rfl⟩⟩
  | binary f left right ihl ihr =>
    rw [Meaningful, Suited, ← Meaningful, ← ihl, ← ihr, ← exists_merge_iff (x := x)]
    constructor
    · rintro ⟨r, h⟩
      obtain ⟨g, a, b, hf, ha, hb, -⟩ := value?_binary_iff.mp h
      exact ⟨⟨g, hf⟩, ⟨a, ha⟩, b, hb⟩
    · rintro ⟨⟨g, hf⟩, ⟨a, ha⟩, b, hb⟩
      exact ⟨g a b, value?_binary_iff.mpr ⟨g, a, b, hf, ha, hb, rfl⟩⟩

/-! ## From the stack to trees -/

/-- Each tree has the value in its place on the stack. -/
def Stacked (v : Vocabulary) (x : Binary64) : List Tree → List Binary64 → Prop :=
  List.Forall₂ fun e r => e.value? v x = some r

/-- As a token acts on values, it gathers their trees. -/
theorem Stacked.gather {trees : List Tree} {stack after : List Binary64} {t : Token}
    (h : Stacked v x trees stack) (hstep : v.step x stack t = .ok after) :
    Stacked v x (gather trees t) after := by
  obtain ⟨a, ha, hrun⟩ := step_eq_ok_iff.mp hstep
  have hplace := takes_of_action ha
  cases a with
  | push r =>
    cases hrun
    rw [gather_operand hplace]
    exact .cons (value?_leaf_iff.mpr ha) h
  | map g =>
    cases h with
    | nil => cases hrun
    | cons harg hrest =>
      cases hrun
      rw [gather_unary hplace]
      exact .cons (value?_unary_iff.mpr ⟨g, _, ha, harg, rfl⟩) hrest
  | merge g =>
    cases h with
    | nil => cases hrun
    | cons hright h =>
      cases h with
      | nil => cases hrun
      | cons hleft hrest =>
        cases hrun
        rw [gather_binary hplace]
        exact .cons (value?_binary_iff.mpr ⟨g, _, _, ha, hleft, hright, rfl⟩) hrest

theorem Stacked.foldl_gather {trees : List Tree} {stack after : List Binary64} {ts : List Token}
    (h : Stacked v x trees stack) (hrun : ts.foldlM (v.step x) stack = .ok after) :
    Stacked v x (ts.foldl Tree.gather trees) after := by
  induction ts generalizing trees stack with
  | nil =>
    cases hrun
    exact h
  | cons t ts ih =>
    rw [List.foldlM_cons, bind_eq_ok_iff] at hrun
    obtain ⟨next, hstep, hrest⟩ := hrun
    exact ih (h.gather hstep) hrest

/-- Gathering keeps every token, in its order. -/
theorem postorder_gather (trees : List Tree) (t : Token) :
    (gather trees t).reverse.flatMap postorder = trees.reverse.flatMap postorder ++ [t] := by
  unfold gather
  split <;> simp [postorder]

theorem postorder_foldl_gather (trees : List Tree) (ts : List Token) :
    (ts.foldl gather trees).reverse.flatMap postorder = trees.reverse.flatMap postorder ++ ts := by
  induction ts generalizing trees with
  | nil => simp
  | cons t ts ih =>
    rw [List.foldl_cons, ih, postorder_gather, List.append_assoc, List.singleton_append]

/-- A list with a value is the postorder of a tree with this value. -/
theorem exists_of_value {ts : List Token} (h : v.value x ts = .ok r) :
    ∃ e : Tree, e.postorder = ts ∧ e.value? v x = some r := by
  have hstacked : Stacked v x (ts.foldl Tree.gather []) [r] :=
    Stacked.foldl_gather .nil (value_eq_ok_iff.mp h)
  obtain ⟨e, rest, hvalue, hnone, hgather⟩ := List.forall₂_cons_right_iff.mp hstacked
  obtain rfl := List.forall₂_nil_right_iff.mp hnone
  exact ⟨e, by simpa [hgather] using postorder_foldl_gather [] ts, hvalue⟩

end Tree

/-- A list evaluates to a number exactly when it is the postorder of a meaningful tree with this
value, and no other tree with its tokens in their places has this postorder. -/
theorem Vocabulary.evaluate_iff_postorder (v : Vocabulary) (ts : List Token) (x r : Binary64) :
    (v.evaluate ts x).outcome = .ok r ↔
      ∃ e : Tree, (e.Meaningful v ∧ e.postorder = ts ∧ e.value? v x = some r) ∧
        ∀ a : Tree, a.Placed → a.postorder = ts → a = e := by
  rw [evaluate_outcome]
  constructor
  · intro h
    obtain ⟨e, horder, hvalue⟩ := Tree.exists_of_value h
    have hmeaningful : e.Meaningful v := Tree.exists_value?_iff.mp ⟨r, hvalue⟩
    exact ⟨e, ⟨hmeaningful, horder, hvalue⟩, fun a ha hpost =>
      ha.eq_of_postorder hmeaningful.placed (hpost.trans horder.symm)⟩
  · rintro ⟨e, ⟨-, rfl, hvalue⟩, -⟩
    exact Tree.value_postorder hvalue

end PostfixCalc

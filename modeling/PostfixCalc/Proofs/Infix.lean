import PostfixCalc.Proofs.Pending
import PostfixCalc.Tree

/-! # Infix order

`Infix n ts e` says that the tokens `ts`, read in infix order, stand for the tree `e`,
and that the loosest of its operators outside brackets binds at level `n`. The main
statement is that the conversion lists the tree in postorder. What carries it is a
statement about any place in a list: from a pending list that no operator of `ts` can
disturb, the tokens of `ts` send out a first part of the postorder and leave the
rest pending, on top of what was there. -/

namespace PostfixCalc

namespace Operator

theorem level_le (op : Operator) : op.level ≤ 3 := by
  cases op <;> decide

theorem level_eq_one_iff {op : Operator} : op.level = 1 ↔ op = .add ∨ op = .sub := by
  cases op <;> decide

theorem level_eq_two_iff {op : Operator} : op.level = 2 ↔ op = .mul ∨ op = .div := by
  cases op <;> decide

theorem level_eq_three_iff {op : Operator} : op.level = 3 ↔ op = .pow := by
  cases op <;> decide

end Operator

namespace Token

/-- How tightly a pending token holds its operands: a function more than any operator. -/
def grip (t : Token) : Nat :=
  if t.isFunction then 4 else t.level

theorem level_le (t : Token) : t.level ≤ 3 := by
  unfold level
  split
  · exact Operator.level_le _
  · decide

theorem level_eq_three_iff {t : Token} : t.level = 3 ↔ t.text = "^" := by
  unfold level Operator.ofText?
  constructor
  · intro h
    split at h
    · rename_i op hop
      split at hop
      · rename_i c hc
        rw [Operator.ofChar?_eq_some_iff.mp hop, Operator.level_eq_three_iff.mp h] at hc
        exact String.toList_inj.mp hc
      · cases hop
    · cases h
  · intro h
    rw [h]
    rfl

@[simp] theorem level_ofOperator (op : Operator) : (ofOperator op).level = op.level := by
  cases op <;> rfl

theorem isFunction_of_operator {t : Token} (h : t.role = .operator) : t.isFunction = false := by
  simp [isFunction, role_eq_operator_iff.mp h]

theorem grip_of_function {t : Token} (h : t.role = .function) : t.grip = 4 := by
  simp [grip, isFunction_iff.mpr h]

theorem grip_of_operator {t : Token} (h : t.role = .operator) : t.grip = t.level := by
  simp [grip, isFunction_of_operator h]

/-- An operator that groups to the left sends off all that holds at least as tightly. -/
theorem yieldsTo_of_level_le {q op : Token} (hq : q.role = .function ∨ q.role = .operator)
    (hop : op.level < 3) (h : op.level ≤ q.grip) : q.yieldsTo op = true := by
  rcases hq with hq | hq
  · exact yieldsTo_of_function hq op
  · have htext : op.text ≠ "^" := fun ht => by
      rw [← level_eq_three_iff] at ht
      omega
    rw [grip_of_operator hq] at h
    simp [yieldsTo, role_eq_operator_iff.mp hq, htext, h]

/-- An operator stays for one that binds more tightly, and a power for a power. -/
theorem yieldsTo_of_operator {q op : Token} (hq : q.role = .operator)
    (h : q.level < op.level ∨ op.level = 3) : q.yieldsTo op = false := by
  have hle := q.level_le
  unfold yieldsTo
  simp only [role_eq_operator_iff.mp hq]
  split
  · simp only [decide_eq_false_iff_not]
    omega
  · rename_i htext
    rw [← level_eq_three_iff] at htext
    simp only [decide_eq_false_iff_not]
    omega

end Token

/-- The levels are those of the operators from 0 to 3, then 4 for the application of a
function and 5 for what is closed by itself: an operand or a bracketed part. A function of
two values takes a closed one first, with nothing between the two. -/
inductive Infix : Nat → List Token → Tree → Prop
  | operand {t} (h : t.role = .operand) : Infix 5 [t] (.leaf t)
  | bracketed {n o c ts e} (ho : o.role = .opening) (hc : c.role = .closing)
      (h : Infix n ts e) : Infix 5 (o :: (ts ++ [c])) e
  | unary {n f ts e} (hf : f.kind = .unaryFn) (hn : 4 ≤ n) (h : Infix n ts e) :
      Infix 4 (f :: ts) (.unary f e)
  | binary {n f o c ls rs a b} (hf : f.kind = .binaryFn) (ho : o.role = .opening)
      (hc : c.role = .closing) (hl : Infix 5 ls a) (hr : Infix n rs b) :
      Infix 4 (f :: o :: (ls ++ (rs ++ [c]))) (.binary f a b)
  | power {m n op ls rs a b} (hop : op.role = .operator) (hlevel : op.level = 3)
      (hm : 4 ≤ m) (hl : Infix m ls a) (hn : 3 ≤ n) (hr : Infix n rs b) :
      Infix 3 (ls ++ op :: rs) (.binary op a b)
  | chain {l m n op ls rs a b} (hop : op.role = .operator) (hlevel : op.level = l) (hloose : l < 3)
      (hm : l ≤ m) (hl : Infix m ls a) (hn : l < n) (hr : Infix n rs b) :
      Infix l (ls ++ op :: rs) (.binary op a b)

/-- The operators that a text spells, at the levels that they bind. -/
theorem Infix.product {op : Operator} {m n : Nat} {ls rs : List Token} {a b : Tree}
    (hop : op = .mul ∨ op = .div) (hm : 2 ≤ m) (hl : Infix m ls a) (hn : 3 ≤ n)
    (hr : Infix n rs b) : Infix 2 (ls ++ .ofOperator op :: rs) (.binary (.ofOperator op) a b) := by
  have hlevel : (Token.ofOperator op).level = 2 := by
    rw [Token.level_ofOperator, Operator.level_eq_two_iff.mpr hop]
  exact .chain (Token.role_ofOperator op) hlevel (Nat.lt_succ_self 2) hm hl hn hr

theorem Infix.sum {op : Operator} {m n : Nat} {ls rs : List Token} {a b : Tree}
    (hop : op = .add ∨ op = .sub) (hm : 1 ≤ m) (hl : Infix m ls a) (hn : 2 ≤ n)
    (hr : Infix n rs b) : Infix 1 (ls ++ .ofOperator op :: rs) (.binary (.ofOperator op) a b) := by
  have hlevel : (Token.ofOperator op).level = 1 := by
    rw [Token.level_ofOperator, Operator.level_eq_one_iff.mpr hop]
  exact .chain (Token.role_ofOperator op) hlevel (by decide) hm hl hn hr

theorem Infix.level_le {n : Nat} {ts : List Token} {e : Tree} (h : Infix n ts e) : n ≤ 5 := by
  cases h <;> omega

/-- No operator that binds as tightly as `n` sends off what is pending. -/
def Guards (n : Nat) (pending : List Token) : Prop :=
  ∀ op : Token, op.role = .operator → n ≤ op.level → ∀ q ∈ pending.head?, q.yieldsTo op = false

namespace Guards

theorem mono {m n : Nat} {pending : List Token} (h : Guards m pending) (hmn : m ≤ n) :
    Guards n pending :=
  fun op hop hn => h op hop (Nat.le_trans hmn hn)

theorem nil (n : Nat) : Guards n [] := fun _ _ _ _ hq => by cases hq

theorem opening {o : Token} (ho : o.role = .opening) (n : Nat) (pending : List Token) :
    Guards n (o :: pending) := by
  intro op _ _ q hq
  cases hq
  exact Token.yieldsTo_of_opening ho op

/-- No operator binds as tightly as a function is applied. -/
theorem application (pending : List Token) : Guards 4 pending := by
  intro op _ hn
  have := op.level_le
  omega

theorem power {op : Token} (hop : op.role = .operator) (pending : List Token) :
    Guards 3 (op :: pending) := by
  intro next _ hn q hq
  cases hq
  have := next.level_le
  exact Token.yieldsTo_of_operator hop (.inr (by omega))

theorem chain {op : Token} (hop : op.role = .operator) (pending : List Token) :
    Guards (op.level + 1) (op :: pending) := by
  intro next _ hn q hq
  cases hq
  exact Token.yieldsTo_of_operator hop (.inl hn)

end Guards

/-- Reading `ts` above `pending` sends `out` and leaves `held`, which together are the
postorder of `e`; what is held is no bracket and holds at least as tightly as `n`. Only
after a closed part is nothing held. -/
structure Sends (n : Nat) (pending ts : List Token) (e : Tree) (out held : List Token) : Prop where
  run : shiftAll pending ts = .ok (out, held ++ pending)
  order : out ++ held = e.postorder
  grips : ∀ q ∈ held, (q.role = .function ∨ q.role = .operator) ∧ n ≤ q.grip
  settled : held = [] ↔ n = 5

namespace Sends

variable {m n : Nat} {pending ts out held : List Token} {e : Tree}

theorem not_opening (h : Sends n pending ts e out held) : ∀ q ∈ held, q.role ≠ .opening := by
  intro q hq ho
  rcases (h.grips q hq).1 with hr | hr <;> rw [ho] at hr <;> cases hr

/-- Above nothing, all that is held leaves at the end. -/
theorem postfixOrder (h : Sends n [] ts e out held) : postfixOrder ts = .ok e.postorder :=
  postfixOrder_eq_ok_iff.mpr ⟨out, held, by simpa using h.run, h.not_opening, h.order.symm⟩

/-- A function holds until its argument is done, and then with what the argument holds. -/
theorem function {f : Token} (hrole : f.role = .function) (hn : 4 ≤ n)
    (h : Sends n (f :: pending) ts e out held) :
    Sends 4 pending (f :: ts) (.unary f e) out (held ++ [f]) where
  run := by simpa using (Shift.hold (.inl hrole)).cons h.run
  order := by rw [Tree.postorder, ← h.order, List.append_assoc]
  grips := by
    intro q hq
    rcases List.mem_append.mp hq with hq | hq
    · exact ⟨(h.grips q hq).1, Nat.le_trans hn (h.grips q hq).2⟩
    · cases List.mem_singleton.mp hq
      exact ⟨.inl hrole, by rw [Token.grip_of_function hrole]⟩
  settled := by simp

/-- An operator between two parts sends off what the left one has held, and waits
itself until the right one is done. -/
theorem operator {op : Token} {l : Nat} {ls rs outl heldl outr heldr : List Token} {a b : Tree}
    (hop : op.role = .operator) (hlevel : op.level = l)
    (hyield : ∀ q ∈ heldl, q.yieldsTo op = true) (hguard : Guards l pending)
    (hl : Sends m pending ls a outl heldl) (hn : l ≤ n)
    (hr : Sends n (op :: pending) rs b outr heldr) :
    Sends l pending (ls ++ op :: rs) (.binary op a b) (outl ++ (heldl ++ outr))
      (heldr ++ [op]) where
  run := by
    have hshift : Shift (heldl ++ pending) op heldl (op :: pending) :=
      .replace hop hyield (hguard op hop (Nat.le_of_eq hlevel.symm))
    simpa using shiftAll_append_of_ok hl.run (hshift.cons hr.run)
  order := by
    rw [Tree.postorder, ← hl.order, ← hr.order]
    simp only [List.append_assoc]
  grips := by
    intro q hq
    rcases List.mem_append.mp hq with hq | hq
    · exact ⟨(hr.grips q hq).1, Nat.le_trans hn (hr.grips q hq).2⟩
    · cases List.mem_singleton.mp hq
      exact ⟨.inr hop, by rw [Token.grip_of_operator hop, hlevel]⟩
  settled := by
    have := op.level_le
    simp
    omega

end Sends

/-- Wherever an infix list stands, its conversion lists its tree in postorder, the last
operators and functions of it still pending. -/
theorem Infix.sends {n : Nat} {ts : List Token} {e : Tree} (h : Infix n ts e) :
    ∀ pending, Guards n pending → ∃ out held, Sends n pending ts e out held := by
  induction h with
  | @operand t h =>
    intro pending _
    exact ⟨[t], [], by simpa using (Shift.emit h).cons (shiftAll_nil pending), rfl, by simp,
      by simp⟩
  | bracketed ho hc _ ih =>
    intro pending _
    obtain ⟨out, held, hs⟩ := ih [] (Guards.nil _)
    exact ⟨_, [], shiftAll_bracketed ho hc hs.postfixOrder pending, List.append_nil _, by simp,
      by simp⟩
  | @unary n f ts e hf hn _ ih =>
    intro pending _
    obtain ⟨out, held, hs⟩ := ih _ ((Guards.application (f :: pending)).mono hn)
    exact ⟨out, held ++ [f], hs.function (Token.role_of_unaryFn hf) hn⟩
  | @binary n f o c ls rs a b hf ho hc _ _ ihl ihr =>
    intro pending _
    have hrole : f.role = .function := Token.role_of_binaryFn hf
    obtain ⟨outl, heldl, hl⟩ := ihl [] (Guards.nil 5)
    obtain ⟨outr, heldr, hr⟩ := ihr [] (Guards.nil n)
    -- A closed argument holds nothing, so the other starts as if alone in the bracket.
    obtain rfl := hl.settled.mpr rfl
    have harguments : PostfixCalc.postfixOrder (ls ++ rs) = .ok (a.postorder ++ b.postorder) :=
      postfixOrder_eq_ok_iff.mpr ⟨outl ++ outr, heldr,
        by simpa using shiftAll_append_of_ok hl.run hr.run, hr.not_opening,
        by rw [← hl.order, ← hr.order]; simp⟩
    have hrun : shiftAll (f :: pending) (o :: (ls ++ (rs ++ [c]))) =
        .ok (a.postorder ++ b.postorder, f :: pending) := by
      simpa using shiftAll_bracketed ho hc harguments (f :: pending)
    refine ⟨a.postorder ++ b.postorder, [f], (Shift.hold (.inl hrole)).cons hrun, rfl, ?_, by simp⟩
    intro q hq
    cases List.mem_singleton.mp hq
    exact ⟨.inl hrole, by rw [Token.grip_of_function hrole]⟩
  | @power m n op ls rs a b hop hlevel hm _ hn _ ihl ihr =>
    intro pending hguard
    obtain ⟨outl, heldl, hl⟩ := ihl _ ((Guards.application pending).mono hm)
    obtain ⟨outr, heldr, hr⟩ := ihr _ ((Guards.power hop pending).mono hn)
    refine ⟨_, _, Sends.operator hop hlevel ?_ hguard hl hn hr⟩
    -- Level 4 leaves no operator pending on the left, so a power meets functions only.
    intro q hq
    obtain ⟨hrole | hrole, hgrip⟩ := hl.grips q hq
    · exact Token.yieldsTo_of_function hrole op
    · rw [Token.grip_of_operator hrole] at hgrip
      have := q.level_le
      omega
  | @chain l m n op ls rs a b hop hlevel hloose hm _ hn _ ihl ihr =>
    intro pending hguard
    subst hlevel
    obtain ⟨outl, heldl, hl⟩ := ihl _ (hguard.mono hm)
    obtain ⟨outr, heldr, hr⟩ := ihr _ ((Guards.chain hop pending).mono hn)
    refine ⟨_, _, Sends.operator hop rfl ?_ hguard hl (Nat.le_of_lt hn) hr⟩
    intro q hq
    obtain ⟨hrole, hgrip⟩ := hl.grips q hq
    exact Token.yieldsTo_of_level_le hrole hloose (Nat.le_trans hm hgrip)

/-- The conversion of an infix list is the postorder of its tree. -/
theorem Infix.postfixOrder {n : Nat} {ts : List Token} {e : Tree} (h : Infix n ts e) :
    postfixOrder ts = .ok e.postorder := by
  obtain ⟨out, held, hs⟩ := h.sends [] (Guards.nil n)
  exact hs.postfixOrder

end PostfixCalc

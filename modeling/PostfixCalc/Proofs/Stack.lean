import PostfixCalc.Evaluation
import PostfixCalc.Proofs.Pending

/-! # The stack of values

A list that goes through on some stack goes through on any stack that has more below,
and leaves that untouched: a list with a value puts it on any stack. The height of the
stack, meanwhile, is a matter of counting tokens. -/

namespace PostfixCalc

namespace Token

def isOperand (t : Token) : Bool :=
  t.role = .operand

/-- Whether a token takes two values for one. -/
def isBinary (t : Token) : Bool :=
  t.kind = .binaryOp || t.kind = .binaryFn

/-- Whether a token goes with `n` arguments. A bracket goes with no number of them. -/
def Takes (t : Token) : Nat → Prop
  | 0 => t.role = .operand
  | 1 => t.kind = .unaryFn
  | 2 => t.isBinary = true
  | _ => False

instance (t : Token) : DecidablePred t.Takes
  | 0 => inferInstanceAs (Decidable (t.role = .operand))
  | 1 => inferInstanceAs (Decidable (t.kind = .unaryFn))
  | 2 => inferInstanceAs (Decidable (t.isBinary = true))
  | _ + 3 => inferInstanceAs (Decidable False)

theorem isBinary_of_operand {t : Token} (h : t.role = .operand) : t.isBinary = false := by
  unfold role at h
  unfold isBinary
  cases hk : t.kind <;> simp_all

theorem isBinary_of_bracket {t : Token} (h : t.role = .opening ∨ t.role = .closing) :
    t.isBinary = false := by
  simp [isBinary, kind_eq_bracket_iff.mpr h]

theorem isBinary_of_operator {t : Token} (h : t.role = .operator) : t.isBinary = true := by
  simp [isBinary, role_eq_operator_iff.mp h]

theorem isOperand_of_bracket {t : Token} (h : t.role = .opening ∨ t.role = .closing) :
    t.isOperand = false := by
  rcases h with h | h <;> simp [isOperand, h]

@[simp] theorem isOperand_number (text : String) : isOperand ⟨.number, text⟩ = true := rfl

@[simp] theorem isBinary_number (text : String) : isBinary ⟨.number, text⟩ = false := rfl

@[simp] theorem isOperand_binaryFn (text : String) : isOperand ⟨.binaryFn, text⟩ = false := rfl

@[simp] theorem isBinary_binaryFn (text : String) : isBinary ⟨.binaryFn, text⟩ = true := rfl

@[simp] theorem isOperand_ofOperator (op : Operator) : (ofOperator op).isOperand = false := rfl

@[simp] theorem isBinary_ofOperator (op : Operator) : (ofOperator op).isBinary = true := rfl

@[simp] theorem isOperand_opening : opening.isOperand = false := rfl

@[simp] theorem isBinary_opening : opening.isBinary = false := rfl

@[simp] theorem isOperand_closing : closing.isOperand = false := by decide

@[simp] theorem isBinary_closing : closing.isBinary = false := rfl

theorem isOperand_of_isBinary {t : Token} (h : t.isBinary = true) : t.isOperand = false := by
  rw [isOperand, decide_eq_false_iff_not]
  intro hr
  rw [isBinary_of_operand hr] at h
  cases h

end Token

theorem Action.run?_above {a : Action} {stack after : List Binary64} (below : List Binary64)
    (h : a.run? stack = some after) : a.run? (stack ++ below) = some (after ++ below) := by
  unfold run? at h
  split at h <;> cases h <;> rfl

namespace Vocabulary

variable {v : Vocabulary} {x : Binary64}

theorem step_eq_ok_iff {t : Token} {stack after : List Binary64} :
    v.step x stack t = .ok after ↔
      ∃ a, v.action x t = .ok a ∧ a.run? stack = some after := by
  simp only [step, bind_eq_ok_iff]
  refine exists_congr fun a => and_congr_right fun _ => ?_
  cases a.run? stack <;> simp

theorem step_above {t : Token} {stack after : List Binary64} (below : List Binary64)
    (h : v.step x stack t = .ok after) : v.step x (stack ++ below) t = .ok (after ++ below) := by
  obtain ⟨a, ha, hr⟩ := step_eq_ok_iff.mp h
  exact step_eq_ok_iff.mpr ⟨a, ha, Action.run?_above below hr⟩

/-- What lies below is neither read nor changed. -/
theorem foldlM_above {ts : List Token} {stack after : List Binary64} (below : List Binary64)
    (h : ts.foldlM (v.step x) stack = .ok after) :
    ts.foldlM (v.step x) (stack ++ below) = .ok (after ++ below) := by
  induction ts generalizing stack with
  | nil =>
    cases h
    rfl
  | cons t ts ih =>
    rw [List.foldlM_cons, bind_eq_ok_iff] at h ⊢
    obtain ⟨next, hs, hr⟩ := h
    exact ⟨next ++ below, step_above below hs, ih hr⟩

theorem value_eq_ok_iff {ts : List Token} {r : Binary64} :
    v.value x ts = .ok r ↔ ts.foldlM (v.step x) [] = .ok [r] := by
  rw [value, bind_eq_ok_iff]
  constructor
  · rintro ⟨stack, hs, hr⟩
    split at hr
    · cases hr
      exact hs
    · cases hr
  · intro h
    exact ⟨[r], h, rfl⟩

/-- A list with a value puts it on any stack. -/
theorem foldlM_of_value {ts : List Token} {r : Binary64} (h : v.value x ts = .ok r)
    (stack : List Binary64) : ts.foldlM (v.step x) stack = .ok (r :: stack) := by
  simpa using foldlM_above stack (value_eq_ok_iff.mp h)

/-! ## Counting -/

/-- What an action does is what the kind of its token promises. -/
theorem action_cases {t : Token} {a : Action} (h : v.action x t = .ok a) :
    (t.role = .operand ∧ ∃ r, a = .push r) ∨ (t.kind = .unaryFn ∧ ∃ f, a = .map f) ∨
      (t.isBinary = true ∧ ∃ f, a = .merge f) := by
  unfold action at h
  cases hk : t.kind with
  | number =>
    simp only [hk] at h
    split at h <;> cases h
    exact .inl ⟨by simp [Token.role, hk], _, rfl⟩
  | var =>
    simp only [hk] at h
    cases h
    exact .inl ⟨by simp [Token.role, hk], _, rfl⟩
  | constant =>
    simp only [hk] at h
    split at h <;> cases h
    exact .inl ⟨by simp [Token.role, hk], _, rfl⟩
  | unaryFn =>
    simp only [hk] at h
    split at h <;> cases h
    exact .inr (.inl ⟨rfl, _, rfl⟩)
  | binaryFn =>
    simp only [hk] at h
    split at h <;> cases h
    exact .inr (.inr ⟨by simp [Token.isBinary, hk], _, rfl⟩)
  | binaryOp =>
    simp only [hk] at h
    split at h <;> cases h
    exact .inr (.inr ⟨by simp [Token.isBinary, hk], _, rfl⟩)
  | bracket =>
    simp only [hk] at h
    cases h

theorem step_length {t : Token} {stack after : List Binary64} (h : v.step x stack t = .ok after) :
    after.length + [t].countP Token.isBinary = stack.length + [t].countP Token.isOperand := by
  obtain ⟨a, ha, hr⟩ := step_eq_ok_iff.mp h
  rcases action_cases ha with ⟨hk, r, rfl⟩ | ⟨hk, f, rfl⟩ | ⟨hk, f, rfl⟩
  · have ho : t.isOperand = true := by simp [Token.isOperand, hk]
    have hb : t.isBinary = false := Token.isBinary_of_operand hk
    cases hr
    simp [ho, hb]
  · have ho : t.isOperand = false := by simp [Token.isOperand, Token.role, hk]
    have hb : t.isBinary = false := by simp [Token.isBinary, hk]
    cases stack <;> cases hr
    simp [ho, hb]
  · have ho : t.isOperand = false := Token.isOperand_of_isBinary hk
    obtain _ | ⟨b, _ | ⟨c, below⟩⟩ := stack
    · cases hr
    · cases hr
    · cases hr
      simp [ho, hk]

/-- The height of the stack counts operands up and binary tokens down. -/
theorem foldlM_length {ts : List Token} {stack after : List Binary64}
    (h : ts.foldlM (v.step x) stack = .ok after) :
    after.length + ts.countP Token.isBinary = stack.length + ts.countP Token.isOperand := by
  induction ts generalizing stack with
  | nil =>
    cases h
    rfl
  | cons t ts ih =>
    rw [List.foldlM_cons, bind_eq_ok_iff] at h
    obtain ⟨next, hs, hr⟩ := h
    have hstep := step_length hs
    have hrest := ih hr
    rw [← List.singleton_append, List.countP_append, List.countP_append]
    omega

/-- Every token of a list with a value means something. -/
theorem action_of_foldlM {ts : List Token} {stack after : List Binary64}
    (h : ts.foldlM (v.step x) stack = .ok after) : ∀ t ∈ ts, ∃ a, v.action x t = .ok a := by
  induction ts generalizing stack with
  | nil => simp
  | cons t ts ih =>
    rw [List.foldlM_cons, bind_eq_ok_iff] at h
    obtain ⟨next, hs, hr⟩ := h
    obtain ⟨a, ha, -⟩ := step_eq_ok_iff.mp hs
    intro u hu
    rcases List.mem_cons.mp hu with rfl | hu
    · exact ⟨a, ha⟩
    · exact ih hr u hu

end Vocabulary

/-- Reordering keeps the count of any tokens other than brackets. -/
theorem countP_of_postfixOrder {ts ordered : List Token} {p : Token → Bool}
    (h : postfixOrder ts = .ok ordered) (hp : ∀ t, p t = true → t.kind ≠ .bracket) :
    ordered.countP p = ts.countP p := by
  have hbare (us : List Token) : (unbracketed us).countP p = us.countP p := by
    rw [unbracketed, List.countP_filter]
    refine List.countP_congr fun t _ => ?_
    simpa using hp t
  rw [← hbare ordered, ← hbare ts]
  exact (postfixOrder_perm h).countP_eq p

/-- The same count before the reordering: in whatever order the tokens stand, the operands are
the values that are left at the end and one for each binary token. -/
theorem length_of_postfixOrder {v : Vocabulary} {x : Binary64} {ts ordered : List Token}
    {stack : List Binary64} (h : postfixOrder ts = .ok ordered)
    (hs : ordered.foldlM (v.step x) [] = .ok stack) :
    ts.countP Token.isOperand = ts.countP Token.isBinary + stack.length := by
  have hoperand (t : Token) (ht : t.isOperand = true) : t.kind ≠ .bracket := by
    intro hk
    rw [Token.isOperand_of_bracket (Token.kind_eq_bracket_iff.mp hk)] at ht
    cases ht
  have hbinary (t : Token) (ht : t.isBinary = true) : t.kind ≠ .bracket := by
    intro hk
    rw [Token.isBinary_of_bracket (Token.kind_eq_bracket_iff.mp hk)] at ht
    cases ht
  have hlength := Vocabulary.foldlM_length hs
  rw [countP_of_postfixOrder h hoperand, countP_of_postfixOrder h hbinary] at hlength
  simpa [Nat.add_comm] using hlength.symm

/-- A list that ends in a value has one operand more than it has binary tokens. -/
theorem countP_of_postfixOrder_value {v : Vocabulary} {x r : Binary64} {ts ordered : List Token}
    (h : postfixOrder ts = .ok ordered) (hv : v.value x ordered = .ok r) :
    ts.countP Token.isOperand = ts.countP Token.isBinary + 1 :=
  length_of_postfixOrder h (Vocabulary.value_eq_ok_iff.mp hv)

end PostfixCalc

import PostfixCalc.Proofs.Stack
import PostfixCalc.Vocabulary.Standard

/-! # Substitution

To put an expression in brackets in the place of the variable is to compose two functions.
The conversion deals with the bracketed expression in one piece and leaves what is pending
as it was, so in postfix order the expression stands where the variable stood. There it
puts its value on the stack, as the variable did. Nothing is asked of the list around it. -/

namespace PostfixCalc

/-- The tokens `us` in the place of every variable. -/
def substitute (us ts : List Token) : List Token :=
  ts.flatMap fun t => if t.kind = .var then us else [t]

section Substitute

variable {us ts : List Token} {t : Token}

@[simp] theorem substitute_nil : substitute us [] = [] := rfl

@[simp] theorem substitute_append (ts more : List Token) :
    substitute us (ts ++ more) = substitute us ts ++ substitute us more := List.flatMap_append

theorem substitute_cons_var (h : t.kind = .var) (ts : List Token) :
    substitute us (t :: ts) = us ++ substitute us ts := by
  simp [substitute, h]

theorem substitute_cons (h : t.kind ≠ .var) (ts : List Token) :
    substitute us (t :: ts) = t :: substitute us ts := by
  simp [substitute, h]

theorem substitute_eq_self (h : ∀ t ∈ ts, t.kind ≠ .var) : substitute us ts = ts := by
  induction ts with
  | nil => rfl
  | cons t ts ih =>
    obtain ⟨ht, hts⟩ := List.forall_mem_cons.mp h
    rw [substitute_cons ht, ih hts]

end Substitute

theorem Token.role_of_var {t : Token} (h : t.kind = .var) : t.role = .operand := by
  simp [role, h]

theorem Token.ne_var_of_waits {ts : List Token} (h : ∀ t ∈ ts, t.role ≠ .operand) :
    ∀ t ∈ ts, t.kind ≠ .var :=
  fun t ht hk => h t ht (role_of_var hk)

/-! ## In the conversion -/

section Conversion

variable {us ordered pending : List Token}

/-- A token other than the variable sends no variable out. -/
theorem Shift.substitute_out {t : Token} {out after : List Token} (h : Shift pending t out after)
    (ht : t.kind ≠ .var) (hp : ∀ q ∈ pending, q.role ≠ .operand) :
    substitute ordered out = out := by
  refine substitute_eq_self fun q hq hk => ?_
  rcases List.mem_cons.mp (h.mem (List.mem_append_left _ hq) (by simp [hk])) with rfl | hq
  · exact ht hk
  · exact Token.ne_var_of_waits hp q hq hk

/-- Where the variable left, the expression leaves, and what is pending is the same. -/
theorem shiftAll_substitute (h : postfixOrder us = .ok ordered)
    (hp : ∀ q ∈ pending, q.role ≠ .operand) (ts : List Token) :
    shiftAll pending (substitute (Token.bracketed us) ts) =
      (shiftAll pending ts).map fun r => (substitute ordered r.1, r.2) := by
  induction ts generalizing pending with
  | nil => rfl
  | cons t ts ih =>
    by_cases ht : t.kind = .var
    · have hpart : shiftAll pending (Token.bracketed us) = .ok (ordered, pending) :=
        shiftAll_bracketed Token.role_opening Token.role_closing h pending
      rw [substitute_cons_var ht, shiftAll_append_eq hpart, ih hp,
        (Shift.emit (Token.role_of_var ht)).cons_eq]
      cases shiftAll pending ts with
      | error e => rfl
      | ok r => simp [substitute_cons_var ht]
    · rw [substitute_cons ht]
      rcases Shift.total pending t with ⟨out, after, hs⟩ | ⟨hr, hclosed⟩
      · rw [hs.cons_eq, hs.cons_eq, ih (hs.waits hp)]
        cases shiftAll after ts with
        | error e => rfl
        | ok r => simp [hs.substitute_out ht hp]
      · simp [shiftAll, shift_unopened hr hclosed, Except.map]

/-- Substituting before the conversion is substituting after it. -/
theorem postfixOrder_substitute (h : postfixOrder us = .ok ordered) (ts : List Token) :
    postfixOrder (substitute (Token.bracketed us) ts) =
      (postfixOrder ts).map (substitute ordered) := by
  rw [postfixOrder, postfixOrder, shiftAll_substitute h (by simp)]
  cases hs : shiftAll [] ts with
  | error e => rfl
  | ok r =>
    obtain ⟨out, pending⟩ := r
    have hvar : substitute ordered pending = pending :=
      substitute_eq_self (Token.ne_var_of_waits (shiftAll_waits hs (by simp)))
    rw [map_ok, ok_bind, ok_bind]
    cases hd : drain pending with
    | error e => simp [hd, Except.map]
    | ok rest =>
      obtain ⟨-, rfl⟩ := drain_eq_ok_iff.mp hd
      simp [hd, hvar]

end Conversion

/-! ## In the evaluation -/

namespace Vocabulary

variable {v : Vocabulary} {ordered : List Token} {x r : Binary64}

/-- Only the variable depends on its value. -/
theorem step_of_ne_var {t : Token} (h : t.kind ≠ .var) (x y : Binary64) (stack : List Binary64) :
    v.step x stack t = v.step y stack t := by
  have haction : v.action x t = v.action y t := by
    unfold action
    cases hk : t.kind <;> simp_all
  rw [step, step, haction]

theorem foldlM_substitute (h : v.value x ordered = .ok r) (ts : List Token)
    (stack : List Binary64) :
    (substitute ordered ts).foldlM (v.step x) stack = ts.foldlM (v.step r) stack := by
  induction ts generalizing stack with
  | nil => rfl
  | cons t ts ih =>
    by_cases ht : t.kind = .var
    · have hvar : v.step r stack t = .ok (r :: stack) :=
        step_eq_ok (a := .push r) (by simp [action, ht]) rfl
      rw [substitute_cons_var ht, List.foldlM_append, foldlM_of_value h stack, ok_bind,
        List.foldlM_cons, hvar, ok_bind, ih]
    · rw [substitute_cons ht, List.foldlM_cons, List.foldlM_cons, step_of_ne_var ht x r]
      exact bind_congr fun next => ih next

theorem value_substitute (h : v.value x ordered = .ok r) (ts : List Token) :
    v.value x (substitute ordered ts) = v.value r ts := by
  rw [value, value, foldlM_substitute h]

/-- An expression in the place of the variable changes no fault of the conversion, and a list
that is converted has then the value, or the fault, that it has at the value of the expression. -/
theorem evaluate_substitute (v : Vocabulary) {us ordered : List Token} {x r : Binary64}
    (hord : (toPostfix us).outcome = .ok ordered)
    (hval : (v.evaluate ordered x).outcome = .ok r) (ts : List Token) :
    (∀ e, (toPostfix (substitute (Token.bracketed us) ts)).outcome = .error e ↔
      (toPostfix ts).outcome = .error e) ∧
    ∀ before, (toPostfix ts).outcome = .ok before →
      (toPostfix (substitute (Token.bracketed us) ts)).outcome = .ok (substitute ordered before) ∧
        (v.evaluate (substitute ordered before) x).outcome = (v.evaluate before r).outcome := by
  rw [toPostfix_outcome] at hord
  rw [evaluate_outcome] at hval
  simp only [toPostfix_outcome, evaluate_outcome, postfixOrder_substitute hord]
  refine ⟨fun e => ?_, fun before hbefore => ⟨?_, value_substitute hval before⟩⟩
  · cases postfixOrder ts <;> simp [Except.map]
  · rw [hbefore, map_ok]

/-- The tokens of `x-2`, put into a list with an operand too many and into one that lacks one. -/
theorem evaluate_substitute_difference :
    let part : List Token := [⟨.var, "x"⟩, .ofOperator .sub, ⟨.number, "2"⟩]
    let ordered : List Token := [⟨.var, "x"⟩, ⟨.number, "2"⟩, .ofOperator .sub]
    (toPostfix part).outcome = .ok ordered ∧ (standard.evaluate ordered 5).outcome = .ok 3 ∧
      ∀ ts ∈ [[⟨.var, "x"⟩, .ofOperator .pow, ⟨.var, "X"⟩, ⟨.var, "x"⟩],
          [⟨.unaryFn, "sin"⟩, ⟨.var, "x"⟩, .ofOperator .mul]],
        ∃ before, (toPostfix ts).outcome = .ok before ∧
          (toPostfix (substitute (Token.bracketed part) ts)).outcome =
            .ok (substitute ordered before) ∧
          (standard.evaluate (substitute ordered before) 5).outcome =
            (standard.evaluate before 3).outcome := by
  intro part ordered
  have hord : (toPostfix part).outcome = .ok ordered := by decide
  have hval : (standard.evaluate ordered 5).outcome = .ok 3 := by decide +kernel
  refine ⟨hord, hval, ?_⟩
  simp only [List.forall_mem_cons, List.not_mem_nil, false_implies, implies_true, and_true]
  constructor
  · obtain ⟨-, hok⟩ := evaluate_substitute standard hord hval
      [⟨.var, "x"⟩, .ofOperator .pow, ⟨.var, "X"⟩, ⟨.var, "x"⟩]
    have hbefore : (toPostfix [⟨.var, "x"⟩, .ofOperator .pow, ⟨.var, "X"⟩, ⟨.var, "x"⟩]).outcome =
        .ok [⟨.var, "x"⟩, ⟨.var, "X"⟩, ⟨.var, "x"⟩, .ofOperator .pow] := by decide
    exact ⟨_, hbefore, hok _ hbefore⟩
  · obtain ⟨-, hok⟩ := evaluate_substitute standard hord hval
      [⟨.unaryFn, "sin"⟩, ⟨.var, "x"⟩, .ofOperator .mul]
    have hbefore : (toPostfix [⟨.unaryFn, "sin"⟩, ⟨.var, "x"⟩, .ofOperator .mul]).outcome =
        .ok [⟨.var, "x"⟩, ⟨.unaryFn, "sin"⟩, .ofOperator .mul] := by decide
    exact ⟨_, hbefore, hok _ hbefore⟩

end Vocabulary

end PostfixCalc

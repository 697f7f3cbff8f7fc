import PostfixCalc.Calculator

/-! # Outcomes without the log

A computation ends in a value or in its first fault, whatever it logs on the way. The
outcome of each way to a value is therefore a chain of the three stages reading,
reordering and evaluating, and the theorems about results argue on these chains. -/

namespace PostfixCalc

variable {α β : Type}

@[simp] theorem ok_bind (a : α) (f : α → Except Fault β) :
    ((Except.ok a : Except Fault α) >>= f) = f a := rfl

@[simp] theorem error_bind (e : Fault) (f : α → Except Fault β) :
    ((Except.error e : Except Fault α) >>= f) = .error e := rfl

@[simp] theorem pure_eq_ok (a : α) : (pure a : Except Fault α) = .ok a := rfl

@[simp] theorem map_ok (f : α → β) (a : α) :
    (Except.ok a : Except Fault α).map f = .ok (f a) := rfl

@[simp] theorem bind_pure_ok (m : Except Fault α) : (m >>= fun a => .ok a) = m := by
  cases m <;> rfl

theorem bind_eq_ok_iff {m : Except Fault α} {f : α → Except Fault β} {b : β} :
    (m >>= f) = .ok b ↔ ∃ a, m = .ok a ∧ f a = .ok b := by
  cases m with
  | error e => simp
  | ok a => simp

theorem bind_eq_error_iff {m : Except Fault α} {f : α → Except Fault β} {e : Fault} :
    (m >>= f) = .error e ↔ m = .error e ∨ ∃ a, m = .ok a ∧ f a = .error e := by
  cases m with
  | error e' => simp
  | ok a => simp

theorem toPostfix_outcome (ts : List Token) : (toPostfix ts).outcome = postfixOrder ts := by
  simp only [toPostfix, Logged.outcome_bind, Logged.outcome_lift, Logged.outcome_emit, ok_bind,
    Logged.outcome_pure, bind_pure_ok]

namespace Vocabulary

@[simp] theorem evaluate_outcome (v : Vocabulary) (ts : List Token) (x : Binary64) :
    (v.evaluate ts x).outcome = v.value x ts := by
  simp [evaluate]

/-- A formula evaluates the list it keeps with the vocabulary it keeps. -/
@[simp] theorem formula_outcome (f : Formula) (x : Binary64) :
    (f x).outcome = f.vocabulary.value x f.tokens :=
  evaluate_outcome _ _ _

theorem compile_outcome (v : Vocabulary) (text : String) :
    (v.compile text).outcome =
      (v.tokenize text).outcome >>= fun ts =>
        postfixOrder ts >>= fun ordered => .ok ⟨v, ordered⟩ := by
  simp only [compile, Logged.outcome_bind, Logged.outcome_emit, ok_bind, toPostfix_outcome,
    Logged.outcome_pure]

theorem compile_eq_ok_iff {v : Vocabulary} {text : String} {f : Formula} :
    (v.compile text).outcome = .ok f ↔
      ∃ ts ordered, (v.tokenize text).outcome = .ok ts ∧ postfixOrder ts = .ok ordered ∧
        f = ⟨v, ordered⟩ := by
  simp only [compile_outcome, bind_eq_ok_iff, Except.ok.injEq]
  constructor
  · rintro ⟨ts, hts, ordered, hord, rfl⟩
    exact ⟨ts, ordered, hts, hord, rfl⟩
  · rintro ⟨ts, ordered, hts, hord, rfl⟩
    exact ⟨ts, hts, ordered, hord, rfl⟩

/-- Compiling and evaluating at once: the three stages in a row. -/
theorem calculate_outcome (v : Vocabulary) (text : String) (x : Binary64) :
    (v.calculate text x).outcome =
      (v.tokenize text).outcome >>= fun ts => postfixOrder ts >>= v.value x := by
  rw [calculate, Logged.outcome_bind, compile_outcome]
  cases (v.tokenize text).outcome with
  | error e => rfl
  | ok ts =>
    cases h : postfixOrder ts with
    | error e => simp [h]
    | ok ordered => simp [h]

theorem calculate_eq_ok_iff {v : Vocabulary} {x : Binary64} {text : String} {r : Binary64} :
    (v.calculate text x).outcome = .ok r ↔
      ∃ ts ordered, (v.tokenize text).outcome = .ok ts ∧ postfixOrder ts = .ok ordered ∧
        v.value x ordered = .ok r := by
  simp [calculate_outcome, bind_eq_ok_iff]

/-- Showing the steps changes neither the value nor the fault. -/
theorem explain_value (v : Vocabulary) (text : String) (x : Binary64) :
    (v.explain text x).outcome.map Steps.value = (v.calculate text x).outcome := by
  simp [calculate_eq_explain]

/-- The brackets go, and the order stays. -/
theorem calculatePostfix_outcome (v : Vocabulary) (text : String) (x : Binary64) :
    (v.calculatePostfix text x).outcome =
      (v.tokenize text).outcome >>= fun ts => v.value x (ts.filter (·.kind ≠ .bracket)) := by
  simp [calculatePostfix]

end Vocabulary

end PostfixCalc

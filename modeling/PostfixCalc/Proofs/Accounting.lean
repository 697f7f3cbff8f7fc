import PostfixCalc.Proofs.Faults

/-! # What the counts of a text tell

The conversion moves tokens and keeps their counts, so the operands and the binary tokens of a
text, counted as they were written, tell how many values its formula leaves. A formula that
lacks operands by its counts cannot end in a wrong number of values: no list but the empty
one leaves an empty stack, for whatever acts leaves at least one value. -/

namespace PostfixCalc

theorem Action.run?_ne_nil {a : Action} {stack after : List Binary64}
    (h : a.run? stack = some after) : after ≠ [] := by
  unfold run? at h
  split at h <;> cases h <;> simp

namespace Vocabulary

variable {v : Vocabulary} {x : Binary64} {ts ordered : List Token}

/-- A list of tokens leaves at least one value, unless it is empty. -/
theorem foldlM_ne_nil {stack after : List Binary64} (h : ts.foldlM (v.step x) stack = .ok after)
    (hts : ts ≠ []) : after ≠ [] := by
  obtain ⟨front, t, rfl⟩ := List.eq_nil_or_concat ts |>.resolve_left hts
  rw [List.concat_eq_append, List.foldlM_append, bind_eq_ok_iff] at h
  obtain ⟨before, -, h⟩ := h
  rw [List.foldlM_cons, bind_eq_ok_iff] at h
  obtain ⟨last, hstep, h⟩ := h
  cases h
  obtain ⟨a, -, hrun⟩ := step_eq_ok_iff.mp hstep
  exact a.run?_ne_nil hrun

/-- Nothing but brackets is what leaves nothing. -/
theorem foldlM_eq_nil_iff {stack : List Binary64} (hord : postfixOrder ts = .ok ordered)
    (h : ordered.foldlM (v.step x) [] = .ok stack) :
    stack = [] ↔ ∀ t ∈ ts, t.kind = .bracket := by
  have hempty : ordered = [] ↔ ∀ t ∈ ts, t.kind = .bracket := by
    rw [← List.isEmpty_iff, (postfixOrder_perm_unbracketed hord).isEmpty_eq, List.isEmpty_iff]
    simp [unbracketed]
  rw [← hempty]
  constructor
  · intro hstack
    by_contra hne
    exact foldlM_ne_nil h hne hstack
  · rintro rfl
    cases h
    rfl

/-- Tokens that are known end in another number of values than one only by leaving them. -/
theorem foldlM_of_notOneValue {n : Nat} (hk : ∀ t ∈ ts, t.Known v)
    (hb : ∀ t ∈ ts, t.kind ≠ .bracket) (h : v.value x ts = .error (.notOneValue n)) :
    ∃ stack, ts.foldlM (v.step x) [] = .ok stack ∧ stack.length = n ∧ n ≠ 1 := by
  rcases value_error h with h | ⟨stack, hs, hone, heq⟩
  · obtain ⟨t, -, heq | ⟨-, -, heq⟩⟩ := foldlM_error hk hb h <;> cases heq
  · cases heq
    exact ⟨stack, hs, rfl, hone⟩

/-- What the counts of a text tell of its formula. A value takes one operand more than there
are binary tokens; the values left over are the operands less the binary tokens, none only
where there is nothing but brackets; with too few operands one is missed, unless a numeral is
at fault before. -/
theorem evaluate_counts {text : String} {f : Formula} (h : (v.compile text).outcome = .ok f)
    (x : Binary64) :
    ∃ ts, (v.tokenize text).outcome = .ok ts ∧
      (∀ r, (f x).outcome = .ok r →
        ts.countP Token.isOperand = ts.countP Token.isBinary + 1) ∧
      (∀ n, (f x).outcome = .error (.notOneValue n) →
        ts.countP Token.isOperand = ts.countP Token.isBinary + n ∧ n ≠ 1 ∧
          (n = 0 ↔ ∀ t ∈ ts, t.kind = .bracket)) ∧
      (ts.countP Token.isOperand ≤ ts.countP Token.isBinary → (∃ t ∈ ts, t.kind ≠ .bracket) →
        (∃ s, (f x).outcome = .error (.missingOperand s)) ∨
          ∃ s, (f x).outcome = .error (.badNumber s)) := by
  have hspelled := spelled_of_compile h
  have hbare := bare_of_compile h
  obtain ⟨ts, ordered, hts, hord, rfl⟩ := compile_eq_ok_iff.mp h
  have hvalue (r : Binary64) (hr : v.value x ordered = .ok r) :
      ts.countP Token.isOperand = ts.countP Token.isBinary + 1 :=
    countP_of_postfixOrder_value hord hr
  have hleft (n : Nat) (hn : v.value x ordered = .error (.notOneValue n)) :
      ts.countP Token.isOperand = ts.countP Token.isBinary + n ∧ n ≠ 1 ∧
        (n = 0 ↔ ∀ t ∈ ts, t.kind = .bracket) := by
    obtain ⟨stack, hs, rfl, hone⟩ :=
      foldlM_of_notOneValue (fun t ht => (hspelled t ht).known) hbare hn
    refine ⟨length_of_postfixOrder hord hs, hone, ?_⟩
    rw [List.length_eq_zero_iff, foldlM_eq_nil_iff hord hs]
  refine ⟨ts, hts, by simpa using hvalue, by simpa using hleft, fun hfew hbracket => ?_⟩
  rw [formula_outcome]
  cases hresult : v.value x ordered with
  | ok r =>
    have := hvalue r hresult
    omega
  | error e =>
    cases mishap_of_compile h [] (x := x) (e := e) (by simpa using hresult) with
    | badNumber _ _ _ => exact .inr ⟨_, rfl⟩
    | missingOperand _ => exact .inl ⟨_, rfl⟩
    | notOneValue n =>
      -- With too few operands no value could be left, and only brackets leave none.
      obtain ⟨hcount, -, hnone⟩ := hleft n hresult
      obtain ⟨t, ht, hk⟩ := hbracket
      exact absurd (hnone.mp (by omega) t ht) hk

/-- Two values side by side, and an operator before its operand. -/
theorem evaluate_counts_misplaced :
    (∃ f ts, (standard.compile "(7)(42)").outcome = .ok f ∧
      (standard.tokenize "(7)(42)").outcome = .ok ts ∧
      (f 0).outcome = .error (.notOneValue 2) ∧
      ts.countP Token.isOperand = ts.countP Token.isBinary + 2) ∧
    ∃ f, (standard.compile "*(+2)").outcome = .ok f ∧
      ((∃ s, (f 0).outcome = .error (.missingOperand s)) ∨
        ∃ s, (f 0).outcome = .error (.badNumber s)) := by
  have hpair : (standard.compile "(7)(42)").outcome =
      .ok ⟨standard, [⟨.number, "7"⟩, ⟨.number, "42"⟩]⟩ :=
    compile_eq_ok_iff.mpr ⟨[.opening, ⟨.number, "7"⟩, .closing, .opening, ⟨.number, "42"⟩,
      .closing], _, by decide, by decide, rfl⟩
  have hproduct : (standard.tokenize "*(+2)").outcome =
      .ok [.ofOperator .mul, .opening, .ofOperator .add, ⟨.number, "2"⟩, .closing] := by
    decide
  have hmisplaced : (standard.compile "*(+2)").outcome =
      .ok ⟨standard, [⟨.number, "2"⟩, .ofOperator .add, .ofOperator .mul]⟩ :=
    compile_eq_ok_iff.mpr ⟨_, _, hproduct, by decide, rfl⟩
  have hresult : standard.value 0 [⟨.number, "7"⟩, ⟨.number, "42"⟩] = .error (.notOneValue 2) := by
    decide +kernel
  obtain ⟨ts, hts, -, hleft, -⟩ := evaluate_counts hpair 0
  obtain ⟨us, hus, -, -, hfew⟩ := evaluate_counts hmisplaced 0
  cases hproduct.symm.trans hus
  exact ⟨⟨_, ts, hpair, hts, hresult, (hleft 2 hresult).1⟩,
    ⟨_, hmisplaced, hfew (by decide) ⟨.ofOperator .mul, by decide, by decide⟩⟩⟩

end Vocabulary

end PostfixCalc

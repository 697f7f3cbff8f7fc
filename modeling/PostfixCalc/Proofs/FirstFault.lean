import Mathlib.Data.Nat.Find
import PostfixCalc.Proofs.Stack
import PostfixCalc.Vocabulary.Standard

/-! # The first token at fault

The tokens of a list tell how high the stack will stand in front of each of them, and the
vocabulary tells which names have a meaning. Nothing else decides whether the list has a
value and, where it has none, why: the fault is that of the first token that is at fault by
itself or finds too few values below it. No value is ever asked for. -/

namespace PostfixCalc

namespace Token

/-- How many values a token takes from the stack. -/
def arity (t : Token) : Nat :=
  match t.kind with
  | .unaryFn => 1
  | .binaryFn | .binaryOp => 2
  | _ => 0

theorem arity_of_takes {t : Token} {n : Nat} (h : t.Takes n) : t.arity = n := by
  unfold Takes at h
  split at h
  · unfold role at h
    unfold arity
    cases hk : t.kind <;> simp_all
  · simp [arity, h]
  · simp only [isBinary, Bool.or_eq_true, decide_eq_true_eq] at h
    rcases h with h | h <;> simp [arity, h]
  · cases h

end Token

/-- The height of the stack behind a list: every token takes its arguments and leaves one
value. Behind a token that finds too few the number means nothing. -/
def height : List Token → Int
  | [] => 0
  | t :: ts => 1 - (t.arity : Int) + height ts

theorem height_concat (ts : List Token) (t : Token) :
    height (ts ++ [t]) = height ts + (1 - (t.arity : Int)) := by
  induction ts with
  | nil => simp [height]
  | cons u ts ih => rw [List.cons_append, height, height, ih, Int.add_assoc]

/-! ## Actions -/

namespace Action

/-- How many values an action takes from the stack. -/
def arity : Action → Nat
  | push _ => 0
  | map _ => 1
  | merge _ => 2

variable {a : Action} {stack : List Binary64}

theorem arity_eq_zero_iff : a.arity = 0 ↔ ∃ r, a = push r := by
  cases a <;> simp [arity]

theorem arity_eq_one_iff : a.arity = 1 ↔ ∃ f, a = map f := by
  cases a <;> simp [arity]

theorem arity_eq_two_iff : a.arity = 2 ↔ ∃ f, a = merge f := by
  cases a <;> simp [arity]

theorem exists_run? (h : a.arity ≤ stack.length) :
    ∃ after, a.run? stack = some after ∧ after.length + a.arity = stack.length + 1 := by
  cases a with
  | push r => exact ⟨r :: stack, rfl, rfl⟩
  | map f =>
    obtain _ | ⟨b, below⟩ := stack
    · cases h
    · exact ⟨f b :: below, rfl, rfl⟩
  | merge f =>
    obtain _ | ⟨c, _ | ⟨b, below⟩⟩ := stack
    · cases h
    · simp [arity] at h
    · exact ⟨f b c :: below, rfl, rfl⟩

/-- It makes no difference whether one of two values is there or neither. -/
theorem run?_eq_none (h : stack.length < a.arity) : a.run? stack = none := by
  cases a with
  | push r => cases h
  | map f =>
    obtain _ | ⟨b, below⟩ := stack
    · rfl
    · simp [arity] at h
  | merge f =>
    obtain _ | ⟨c, _ | ⟨b, below⟩⟩ := stack
    · rfl
    · rfl
    · simp only [arity, List.length_cons] at h
      omega

end Action

namespace Vocabulary

/-- What is wrong with a token wherever it stands. -/
def flaw? (v : Vocabulary) (t : Token) : Option Fault :=
  match t.kind with
  | .number => if (Numeral.read? t.text).isSome then none else some (.badNumber t.text)
  | .var => none
  | .constant => if (v.constant t.text).isSome then none else some (.unknownName t.text)
  | .unaryFn => if (v.unary t.text).isSome then none else some (.unknownName t.text)
  | .binaryFn => if (v.binary t.text).isSome then none else some (.unknownName t.text)
  | .binaryOp =>
    if (Operator.leading? t.text).isSome then none else some (.strayToken t.text)
  | .bracket => some (.strayToken t.text)

/-- What is wrong with a token behind a stack of height `n`. Its own flaw comes before the
operands that it lacks. -/
def fault? (v : Vocabulary) (n : Int) (t : Token) : Option Fault :=
  match v.flaw? t with
  | some e => some e
  | none => if n < t.arity then some (.missingOperand t.text) else none

/-- What is wrong at place `k` of a list, counted from 0. -/
def faultAt? (v : Vocabulary) (ts : List Token) (k : Nat) : Option Fault :=
  ts[k]?.bind (v.fault? (height (ts.take k)))

/-- The same names have a meaning, kind by kind. -/
structure SameNames (v w : Vocabulary) : Prop where
  unary : ∀ name, (v.unary name).isSome = (w.unary name).isSome
  binary : ∀ name, (v.binary name).isSome = (w.binary name).isSome
  constant : ∀ name, (v.constant name).isSome = (w.constant name).isSome

/-! ## One token -/

section Step

variable {v : Vocabulary} {x : Binary64} {t : Token} {stack : List Binary64} {e : Fault}

theorem action_of_flaw? (h : v.flaw? t = some e) : v.action x t = .error e := by
  unfold flaw? at h
  unfold action
  cases hk : t.kind <;> simp only [hk] at h
  case var => cases h
  case bracket =>
    cases h
    rfl
  -- The other kinds look something up, and are flawed if there is nothing.
  all_goals
    split at h <;> cases h
    rename_i hnone
    simp [Option.not_isSome_iff_eq_none.mp hnone]

/-- A token goes with as many arguments as it takes from the stack. -/
theorem takes_of_action {a : Action} (h : v.action x t = .ok a) : t.Takes a.arity := by
  rcases action_cases h with ⟨hplace, r, rfl⟩ | ⟨hplace, f, rfl⟩ | ⟨hplace, f, rfl⟩ <;>
    exact hplace

theorem exists_action (h : v.flaw? t = none) (x : Binary64) :
    ∃ a, v.action x t = .ok a ∧ a.arity = t.arity := by
  have hok : ∃ a, v.action x t = .ok a := by
    unfold flaw? at h
    unfold action
    cases hk : t.kind <;> simp only [hk] at h
    case var => exact ⟨.push x, rfl⟩
    case bracket => cases h
    all_goals
      split at h <;> cases h
      rename_i hsome
      obtain ⟨found, hfound⟩ := Option.isSome_iff_exists.mp hsome
      simp [hfound]
  obtain ⟨a, ha⟩ := hok
  exact ⟨a, ha, (Token.arity_of_takes (takes_of_action ha)).symm⟩

theorem step_of_fault? (h : v.fault? stack.length t = some e) : v.step x stack t = .error e := by
  unfold fault? at h
  split at h
  · cases h
    rw [step, action_of_flaw? ‹_›, error_bind]
  · split at h <;> cases h
    rename_i hflaw hshort
    obtain ⟨a, ha, harity⟩ := exists_action hflaw x
    have hnone : a.run? stack = none := Action.run?_eq_none (by omega)
    rw [step, ha, ok_bind, hnone]

theorem exists_step (h : v.fault? stack.length t = none) (x : Binary64) :
    ∃ after, v.step x stack t = .ok after ∧
      (after.length : Int) = stack.length + (1 - (t.arity : Int)) := by
  unfold fault? at h
  split at h
  · cases h
  · split at h <;> cases h
    rename_i hflaw hshort
    obtain ⟨a, ha, harity⟩ := exists_action hflaw x
    have henough : a.arity ≤ stack.length := by omega
    obtain ⟨after, hrun, hlength⟩ := Action.exists_run? henough
    exact ⟨after, step_eq_ok ha hrun, by omega⟩

end Step

/-! ## Lists -/

section Lists

variable {v w : Vocabulary} {x : Binary64} {ts : List Token}

/-- Behind its end nothing is wrong with a list. -/
theorem faultAt?_eq_none_of_lt (h : ∀ k < ts.length, v.faultAt? ts k = none) (k : Nat) :
    v.faultAt? ts k = none := by
  by_cases hk : k < ts.length
  · exact h k hk
  · rw [faultAt?, List.getElem?_eq_none (Nat.le_of_not_lt hk), Option.bind_none]

/-- As long as no token is at fault, the stack is as high as the tokens promise. -/
theorem exists_foldlM_take {k : Nat} (h : ∀ j < k, v.faultAt? ts j = none) (x : Binary64) :
    ∃ stack, (ts.take k).foldlM (v.step x) [] = .ok stack ∧
      (stack.length : Int) = height (ts.take k) := by
  induction k with
  | zero => exact ⟨[], rfl, rfl⟩
  | succ k ih =>
    obtain ⟨stack, hrun, hlength⟩ := ih fun j hj => h j (Nat.lt_succ_of_lt hj)
    rw [List.take_add_one]
    cases ht : ts[k]? with
    | none => exact ⟨stack, by simpa using hrun, by simpa using hlength⟩
    | some t =>
      have hfault : v.fault? stack.length t = none := by
        simpa [faultAt?, ht, ← hlength] using h k (Nat.lt_succ_self k)
      obtain ⟨after, hstep, hafter⟩ := exists_step hfault x
      refine ⟨after, ?_, ?_⟩
      · simp [List.foldlM_append, hrun, hstep]
      · rw [Option.toList_some, height_concat, hafter, hlength]

/-- The first fault ends the run. -/
theorem foldlM_of_faultAt? {k : Nat} {e : Fault} (h : v.faultAt? ts k = some e)
    (hfirst : ∀ j < k, v.faultAt? ts j = none) : ts.foldlM (v.step x) [] = .error e := by
  obtain ⟨stack, hrun, hlength⟩ := exists_foldlM_take hfirst x
  obtain ⟨t, ht, hfault⟩ := Option.bind_eq_some_iff.mp h
  rw [← hlength] at hfault
  have hsplit : ts = ts.take k ++ t :: ts.drop (k + 1) := by
    obtain ⟨hk, rfl⟩ := List.getElem?_eq_some_iff.mp ht
    rw [← List.drop_eq_getElem_cons hk, List.take_append_drop]
  rw [hsplit, List.foldlM_append, hrun, ok_bind, List.foldlM_cons, step_of_fault? hfault,
    error_bind]

/-- Without a fault the run goes to its end. -/
theorem exists_foldlM (h : ∀ k, v.faultAt? ts k = none) (x : Binary64) :
    ∃ stack, ts.foldlM (v.step x) [] = .ok stack ∧ (stack.length : Int) = height ts := by
  have htake := exists_foldlM_take (k := ts.length) (fun k _ => h k) x
  rwa [List.take_length] at htake

/-- Some token is the first at fault, or none is. -/
theorem first_faultAt? (v : Vocabulary) (ts : List Token) :
    (∃ k e, v.faultAt? ts k = some e ∧ ∀ j < k, v.faultAt? ts j = none) ∨
      ∀ k, v.faultAt? ts k = none := by
  by_cases h : ∃ k, (v.faultAt? ts k).isSome = true
  · obtain ⟨e, he⟩ := Option.isSome_iff_exists.mp (Nat.find_spec h)
    refine .inl ⟨Nat.find h, e, he, fun j hj => ?_⟩
    exact Option.not_isSome_iff_eq_none.mp (Nat.find_min h hj)
  · exact .inr fun k => Option.not_isSome_iff_eq_none.mp fun hk => h ⟨k, hk⟩

/-- A fault is a matter of names. -/
theorem SameNames.faultAt?_eq (h : v.SameNames w) (ts : List Token) (k : Nat) :
    v.faultAt? ts k = w.faultAt? ts k := by
  have hflaw (t : Token) : v.flaw? t = w.flaw? t := by
    rw [flaw?, flaw?, h.unary, h.binary, h.constant]
  have hfault (n : Int) : v.fault? n = w.fault? n := by
    funext t
    rw [fault?, fault?, hflaw]
  rw [faultAt?, faultAt?, hfault]

theorem value_of_faultAt? {k : Nat} {e : Fault} (h : v.faultAt? ts k = some e)
    (hfirst : ∀ j < k, v.faultAt? ts j = none) : v.value x ts = .error e := by
  rw [value, foldlM_of_faultAt? h hfirst, error_bind]

theorem exists_value (h : ∀ k, v.faultAt? ts k = none) (hone : height ts = 1) (x : Binary64) :
    ∃ r, v.value x ts = .ok r := by
  obtain ⟨stack, hrun, hlength⟩ := exists_foldlM h x
  obtain ⟨r, rfl⟩ := List.length_eq_one_iff.mp (by omega : stack.length = 1)
  exact ⟨r, value_eq_ok_iff.mpr hrun⟩

theorem value_of_height_ne (h : ∀ k, v.faultAt? ts k = none) (hne : height ts ≠ 1) (x : Binary64) :
    ∃ n : Nat, (n : Int) = height ts ∧ v.value x ts = .error (.notOneValue n) := by
  obtain ⟨stack, hrun, hlength⟩ := exists_foldlM h x
  refine ⟨stack.length, hlength, ?_⟩
  rw [value, hrun, ok_bind]
  split
  · exact absurd hlength.symm hne
  · rfl

/-- The values decide nothing but the value: with other values, of the variable and of the
names, there is a value too, or the same fault. -/
theorem SameNames.value (h : v.SameNames w) (ts : List Token) (x y : Binary64) :
    (∃ r s, v.value x ts = .ok r ∧ w.value y ts = .ok s) ∨
      ∃ e, v.value x ts = .error e ∧ w.value y ts = .error e := by
  have hsame := h.faultAt?_eq ts
  rcases v.first_faultAt? ts with ⟨k, e, hk, hfirst⟩ | hnone
  · have hfirst' : ∀ j < k, w.faultAt? ts j = none := fun j hj =>
      (hsame j).symm.trans (hfirst j hj)
    exact .inr ⟨e, value_of_faultAt? hk hfirst,
      value_of_faultAt? ((hsame k).symm.trans hk) hfirst'⟩
  · have hnone' : ∀ k, w.faultAt? ts k = none := fun k => (hsame k).symm.trans (hnone k)
    by_cases hone : height ts = 1
    · obtain ⟨r, hr⟩ := exists_value hnone hone x
      obtain ⟨s, hs⟩ := exists_value hnone' hone y
      exact .inl ⟨r, s, hr, hs⟩
    · obtain ⟨m, hm, hvalue⟩ := value_of_height_ne hnone hone x
      obtain ⟨n, hn, hvalue'⟩ := value_of_height_ne hnone' hone y
      obtain rfl : m = n := by omega
      exact .inr ⟨_, hvalue, hvalue'⟩

/-- A list has the fault of its first token at fault. If none is at fault, the promised height
of the stack at the end tells whether there is a value or how many are left over. Only the
names that have a meaning have a say in it, not the meanings. -/
theorem evaluate_firstFault (v : Vocabulary) (ts : List Token) (x : Binary64) :
    (∀ k e, v.faultAt? ts k = some e → (∀ j < k, v.faultAt? ts j = none) →
      (v.evaluate ts x).outcome = .error e) ∧
    ((∀ k, v.faultAt? ts k = none) →
      (height ts = 1 → ∃ r, (v.evaluate ts x).outcome = .ok r) ∧
      (height ts ≠ 1 → ∃ n : Nat, (n : Int) = height ts ∧
        (v.evaluate ts x).outcome = .error (.notOneValue n))) ∧
    ∀ w y, v.SameNames w →
      (∃ r s, (v.evaluate ts x).outcome = .ok r ∧ (w.evaluate ts y).outcome = .ok s) ∨
        ∃ e, (v.evaluate ts x).outcome = .error e ∧ (w.evaluate ts y).outcome = .error e := by
  simp only [evaluate_outcome]
  exact ⟨fun k e hk hfirst => value_of_faultAt? hk hfirst,
    fun hnone => ⟨fun hone => exists_value hnone hone x, fun hne => value_of_height_ne hnone hne x⟩,
    fun w y hsame => hsame.value ts x y⟩

/-- A function without a meaning, which lacks an operand too and stands before a bracket; a list
that leaves two values; and one that has a value, also when the sine is another function. -/
theorem evaluate_firstFault_unknown :
    let unknown : List Token := [⟨.number, "16"⟩, ⟨.binaryFn, "foo"⟩, .opening]
    let two : List Token := [⟨.number, "1"⟩, ⟨.var, "x"⟩, ⟨.unaryFn, "sin"⟩]
    let sine : List Token := [⟨.var, "x"⟩, ⟨.unaryFn, "sin"⟩]
    let w := standard.define (.unary "sin" (Binary64.lift Float.cos))
    (standard.faultAt? unknown 1 = some (.unknownName "foo") ∧
      (∀ j < 1, standard.faultAt? unknown j = none) ∧
      (standard.evaluate unknown 0).outcome = .error (.unknownName "foo")) ∧
    ((∀ k, standard.faultAt? two k = none) ∧ height two ≠ 1 ∧
      ∃ n : Nat, (n : Int) = height two ∧
        (standard.evaluate two 0).outcome = .error (.notOneValue n)) ∧
    ((∀ k, standard.faultAt? sine k = none) ∧ height sine = 1 ∧
      (∃ r, (standard.evaluate sine 0).outcome = .ok r) ∧ standard.SameNames w ∧
      ((∃ r s, (standard.evaluate sine 0).outcome = .ok r ∧ (w.evaluate sine 2).outcome = .ok s) ∨
        ∃ e, (standard.evaluate sine 0).outcome = .error e ∧
          (w.evaluate sine 2).outcome = .error e)) := by
  intro unknown two sine w
  refine ⟨?_, ?_, ?_⟩
  · have hfault : standard.faultAt? unknown 1 = some (.unknownName "foo") := by decide
    have hfirst : ∀ j < 1, standard.faultAt? unknown j = none := by decide
    exact ⟨hfault, hfirst, (evaluate_firstFault standard unknown 0).1 1 _ hfault hfirst⟩
  · have hnone : ∀ k, standard.faultAt? two k = none :=
      faultAt?_eq_none_of_lt (by decide)
    have hne : height two ≠ 1 := by decide
    exact ⟨hnone, hne, ((evaluate_firstFault standard two 0).2.1 hnone).2 hne⟩
  · have hnone : ∀ k, standard.faultAt? sine k = none :=
      faultAt?_eq_none_of_lt (by decide)
    have hone : height sine = 1 := by decide
    have hsame : standard.SameNames w := by
      refine ⟨fun name => ?_, fun _ => rfl, fun _ => rfl⟩
      by_cases hname : name = "sin"
      · subst hname
        decide
      · simp [w, define, hname]
    obtain ⟨-, hvalue, hnames⟩ := evaluate_firstFault standard sine 0
    exact ⟨hnone, hone, (hvalue hnone).1 hone, hsame, hnames w 2 hsame⟩

end Lists

end Vocabulary

end PostfixCalc

import Mathlib.Data.List.Forall2
import PostfixCalc.Proofs.Alike
import PostfixCalc.Proofs.Reading
import PostfixCalc.Proofs.Stack

/-! # Replacing a bracketed part

A bracketed part of a text matters only through its value, in any place, also where the
rest of the text makes no sense. Each stage keeps the part together: it is read by
itself, the conversion lists it in one piece and leaves what is pending as it was, and
the evaluation puts its value on the stack and touches nothing below.

The value is a matter of all its bits, those of a NaN too. Where no function looks at the
bits of a quiet NaN, they do not matter, and another quiet NaN will do. -/

namespace PostfixCalc

open List (Forall₂)
open Relator

/-! ## Related results -/

/-- The same fault, or results that are related. -/
inductive Agree {α β : Type} (R : α → β → Prop) : Except Fault α → Except Fault β → Prop
  | ok {a : α} {b : β} (h : R a b) : Agree R (.ok a) (.ok b)
  | error (e : Fault) : Agree R (.error e) (.error e)

namespace Agree

variable {α β γ δ : Type} {R : α → β → Prop} {S : γ → δ → Prop}

theorem bind {m : Except Fault α} {n : Except Fault β} {f : α → Except Fault γ}
    {g : β → Except Fault δ} (h : Agree R m n) (hf : (R ⇒ Agree S) f g) :
    Agree S (m >>= f) (n >>= g) := by
  cases h with
  | ok h => exact hf h
  | error e => exact .error e

theorem bind_right (m : Except Fault α) {f : α → Except Fault γ} {g : α → Except Fault δ}
    (hf : ∀ a, Agree S (f a) (g a)) : Agree S (m >>= f) (m >>= g) := by
  cases m with
  | ok a => exact hf a
  | error e => exact .error e

theorem of_ok {a : α} {b : β} (h : Agree R (.ok a) (.ok b)) : R a b := by
  cases h with
  | ok h => exact h

end Agree

section Related

variable {R : Binary64 → Binary64 → Prop}

/-- An action takes related numbers to related numbers. -/
def Action.Keeps (R : Binary64 → Binary64 → Prop) : Action → Prop
  | push value => R value value
  | map f => (R ⇒ R) f f
  | merge f => (R ⇒ R ⇒ R) f f

theorem Action.Keeps.run? {a : Action} (ha : a.Keeps R) {stack other : List Binary64}
    (h : Forall₂ R stack other) : Option.Rel (Forall₂ R) (a.run? stack) (a.run? other) := by
  cases a with
  | push value => exact .some (.cons ha h)
  | map f =>
    cases h with
    | nil => exact .none
    | cons hr hbelow => exact .some (.cons (ha hr) hbelow)
  | merge f =>
    cases h with
    | nil => exact .none
    | cons hright hrest =>
      cases hrest with
      | nil => exact .none
      | cons hleft hbelow => exact .some (.cons (ha hleft hright) hbelow)

namespace Vocabulary

variable {v : Vocabulary} {x : Binary64} [Std.Refl R]
  (hop : ∀ op : Operator, (R ⇒ R ⇒ R) op.apply op.apply) (hv : v.Keeps R)

include hop hv

theorem action_keeps {t : Token} {a : Action} (h : v.action x t = .ok a) : a.Keeps R := by
  unfold action at h
  cases hk : t.kind with
  | number | constant =>
    simp only [hk] at h
    split at h <;> cases h
    exact refl_of R _
  | var =>
    simp only [hk] at h
    cases h
    exact refl_of R x
  | unaryFn =>
    simp only [hk] at h
    split at h <;> cases h
    exact hv.unary ‹_›
  | binaryFn =>
    simp only [hk] at h
    split at h <;> cases h
    exact hv.binary ‹_›
  | binaryOp =>
    simp only [hk] at h
    split at h <;> cases h
    exact hop _
  | bracket =>
    simp only [hk] at h
    cases h

theorem step_agree (t : Token) {stack other : List Binary64} (h : Forall₂ R stack other) :
    Agree (Forall₂ R) (v.step x stack t) (v.step x other t) := by
  unfold step
  cases ha : v.action x t with
  | error e => exact .error e
  | ok a =>
    have hrun := (action_keeps hop hv ha).run? h
    simp only [ok_bind]
    generalize a.run? stack = after, a.run? other = after' at hrun ⊢
    cases hrun with
    | none => exact .error _
    | some hafter => exact .ok hafter

/-- Evaluation takes related stacks to related stacks, or stops at the same fault. -/
theorem foldlM_agree (ts : List Token) {stack other : List Binary64}
    (h : Forall₂ R stack other) :
    Agree (Forall₂ R) (ts.foldlM (v.step x) stack) (ts.foldlM (v.step x) other) := by
  induction ts generalizing stack other with
  | nil => exact .ok h
  | cons t ts ih => exact (step_agree hop hv t h).bind fun _ _ hafter => ih hafter

/-- Inside a longer list only the value of a part matters: a part with a related value leads to
a related value. -/
theorem value_agree {front part other rest : List Token} {r r' : Binary64}
    (hp : v.value x part = .ok r) (ho : v.value x other = .ok r') (hr : R r r') :
    Agree R (v.value x (front ++ (part ++ rest))) (v.value x (front ++ (other ++ rest))) := by
  simp only [value, List.foldlM_append, foldlM_of_value hp, foldlM_of_value ho, bind_assoc,
    ok_bind]
  refine .bind_right _ fun stack => ?_
  have hstacks : Forall₂ R (r :: stack) (r' :: stack) := .cons hr (List.forall₂_refl stack)
  refine (foldlM_agree hop hv rest hstacks).bind fun after after' hafter => ?_
  cases hafter with
  | nil => exact .error _
  | cons h hbelow =>
    cases hbelow with
    | nil => exact .ok h
    | cons _ hmore =>
      simp only [List.length_cons, hmore.length_eq]
      exact .error _

end Vocabulary

end Related

/-! ## A part in brackets -/

/-- The tokens around a bracketed part are converted as if it were not there, and the part
as if they were not. -/
theorem postfixOrder_bracketed {o c : Token} (ho : o.role = .opening) (hc : c.role = .closing)
    {part ordered : List Token} (h : postfixOrder part = .ok ordered) (front rest : List Token) :
    postfixOrder (front ++ (o :: (part ++ [c]) ++ rest)) =
      shiftAll [] front >>= fun before =>
        shiftAll before.2 rest >>= fun after =>
          drain after.2 >>= fun held => .ok (before.1 ++ (ordered ++ (after.1 ++ held))) := by
  simp only [postfixOrder, shiftAll_append]
  cases shiftAll [] front with
  | error e => rfl
  | ok before =>
    simp only [ok_bind, shiftAll_bracketed ho hc h, pure_eq_ok]
    cases shiftAll before.2 rest with
    | error e => rfl
    | ok after =>
      simp only [ok_bind]
      cases drain after.2 <;> simp

namespace Vocabulary

open Binary64 (Alike nan apply_alike)

variable {v : Vocabulary} {x : Binary64}

/-- How compiling and then evaluating ends, with the stage kept at which a fault is found. -/
def ending (v : Vocabulary) (text : String) (x : Binary64) :
    Except Fault (Except Fault Binary64) :=
  (v.compile text).outcome.map fun f => (f x).outcome

theorem ending_eq (v : Vocabulary) (text : String) (x : Binary64) :
    v.ending text x =
      (v.tokenize text).outcome >>= fun ts =>
        postfixOrder ts >>= fun ordered => .ok (v.value x ordered) := by
  rw [ending, compile_outcome]
  cases (v.tokenize text).outcome with
  | error e => rfl
  | ok ts =>
    simp only [ok_bind]
    cases postfixOrder ts with
    | error e => rfl
    | ok ordered => simp [Except.map]

/-- A bracketed part is read by itself. -/
theorem tokenize_bracketed {part : String} {ts : List Token}
    (h : (v.tokenize part).outcome = .ok ts) (front rest : String) :
    (v.tokenize (front ++ "(" ++ part ++ ")" ++ rest)).outcome =
      v.read true (unblanked front) >>= fun before =>
        v.read false (unblanked rest) >>= fun after =>
          .ok (before ++ (.opening :: (ts ++ [.closing]) ++ after)) := by
  obtain ⟨-, hread⟩ := v.tokenize_eq_ok_iff.mp h
  have hchars : unblanked (front ++ "(" ++ part ++ ")" ++ rest) =
      unblanked front ++ '(' :: (unblanked part ++ ')' :: unblanked rest) := by
    simp only [unblanked_append, List.append_assoc]
    rfl
  rw [tokenize_outcome, hchars, if_neg (by simp)]
  exact v.read_bracketed hread true _ _

/-- A bracketed part may be replaced by any with a related value: both texts end in the same fault
at the same stage, or in related values. -/
def Replaceable (v : Vocabulary) (R : Binary64 → Binary64 → Prop) : Prop :=
  ∀ (front rest part other : String) (x r r' : Binary64),
    (v.calculate part x).outcome = .ok r → (v.calculate other x).outcome = .ok r' → R r r' →
      Agree (Agree R) (v.ending (front ++ "(" ++ part ++ ")" ++ rest) x)
        (v.ending (front ++ "(" ++ other ++ ")" ++ rest) x)

theorem replaceable_of_keeps {R : Binary64 → Binary64 → Prop} [Std.Refl R]
    (hop : ∀ op : Operator, (R ⇒ R ⇒ R) op.apply op.apply) (hv : v.Keeps R) :
    v.Replaceable R := by
  intro front rest part other x r r' hp ho hr
  obtain ⟨ts, ordered, hts, hord, hval⟩ := calculate_eq_ok_iff.mp hp
  obtain ⟨ts', ordered', hts', hord', hval'⟩ := calculate_eq_ok_iff.mp ho
  rw [ending_eq, ending_eq, tokenize_bracketed hts, tokenize_bracketed hts']
  simp only [bind_assoc, ok_bind, postfixOrder_bracketed Token.role_opening Token.role_closing hord,
    postfixOrder_bracketed Token.role_opening Token.role_closing hord']
  refine .bind_right _ fun before => .bind_right _ fun after => ?_
  refine .bind_right _ fun first => .bind_right _ fun last => .bind_right _ fun held => ?_
  exact .ok (value_agree hop hv hval hval' hr)

/-- A bracketed part of a text matters only through its value, all bits of it. Where no function
looks at the bits of a quiet NaN, they do not matter either. -/
theorem compile_replace (v : Vocabulary) :
    v.Replaceable Eq ∧ (v.Keeps Alike → v.Replaceable Alike) := by
  have hop (op : Operator) : (Eq ⇒ Eq ⇒ Eq) op.apply op.apply :=
    fun _ _ h _ _ h' => congrArg₂ _ h h'
  exact ⟨replaceable_of_keeps hop v.keeps_eq, replaceable_of_keeps apply_alike⟩

/-- One part in infix and one in postfix order, and two NaN of which one is negative. -/
theorem compile_replace_difference :
    Agree (Agree Eq) (standard.ending "2-(8-x)^2" 5) (standard.ending "2-(8x-)^2" 5) ∧
      Agree (Agree Alike) (standard.ending "1-abs(x)" (-nan))
        (standard.ending "1-abs(0/0)" (-nan)) := by
  have hwritten : (standard.calculate "8-x" 5).outcome = .ok 3 := by decide +kernel
  have hstacked : (standard.calculate "8x-" 5).outcome = .ok 3 := by decide +kernel
  have hnegative : (standard.calculate "x" (-nan)).outcome = .ok (-nan) := by decide +kernel
  have hdivided : (standard.calculate "0/0" (-nan)).outcome = .ok nan := by decide +kernel
  have halike : (-nan).Alike nan := by decide +kernel
  obtain ⟨hsame, hlike⟩ := compile_replace standard
  exact ⟨hsame "2-" "^2" "8-x" "8x-" 5 3 3 hwritten hstacked rfl,
    hlike standard_keeps_alike "1-abs" "" "x" "0/0" (-nan) (-nan) nan hnegative hdivided halike⟩

/-- The same number, with all NaN taken for one. -/
def SameNumber (a b : Binary64) : Prop :=
  a = b ∨ a.isNaN = true ∧ b.isNaN = true

instance : DecidableRel SameNumber := fun a b =>
  inferInstanceAs (Decidable (a = b ∨ a.isNaN = true ∧ b.isNaN = true))

/-- Two quiet NaN of opposite sign, and a function that tells them apart. -/
def telling : Vocabulary :=
  [.constant "k" nan, .constant "m" (-nan),
    .unary "s" fun a => if a.bits < 0x8000000000000000 then 1 else -1].foldl define standard

/-- A signaling NaN to the power of zero is NaN, and a quiet one is not. -/
theorem Replaceable.nan_one {R : Binary64 → Binary64 → Prop} (h : standard.Replaceable R)
    (hr : R ⟨0x7ff0000000000001⟩ nan) : R nan 1 := by
  have hsignaling : (standard.calculate "x" ⟨0x7ff0000000000001⟩).outcome =
      .ok ⟨0x7ff0000000000001⟩ := by decide +kernel
  have hquiet : (standard.calculate "0/0" ⟨0x7ff0000000000001⟩).outcome = .ok nan := by
    decide +kernel
  have hnone : standard.ending "(x)^0" ⟨0x7ff0000000000001⟩ = .ok (.ok nan) := by decide +kernel
  have hone : standard.ending "(0/0)^0" ⟨0x7ff0000000000001⟩ = .ok (.ok 1) := by decide +kernel
  have hagree := h "" "^0" "x" "0/0" _ _ _ hsignaling hquiet hr
  exact (hnone ▸ hone ▸ hagree : Agree (Agree R) (.ok (.ok nan)) (.ok (.ok 1))).of_ok.of_ok

theorem Replaceable.one_neg_one {R : Binary64 → Binary64 → Prop} (h : telling.Replaceable R)
    (hr : R nan (-nan)) : R 1 (-1) := by
  have hk : (telling.calculate "k" 0).outcome = .ok nan := by decide +kernel
  have hm : (telling.calculate "m" 0).outcome = .ok (-nan) := by decide +kernel
  have hpositive : telling.ending "s(k)" 0 = .ok (.ok 1) := by decide +kernel
  have hnegative : telling.ending "s(m)" 0 = .ok (.ok (-1)) := by decide +kernel
  have hagree := h "s" "" "k" "m" 0 _ _ hk hm hr
  exact (hpositive ▸ hnegative ▸ hagree : Agree (Agree R) (.ok (.ok 1)) (.ok (.ok (-1)))).of_ok.of_ok

/-- With all NaN taken for one the value is not enough, not even with the standard vocabulary. Nor
is it where a function looks at the sign of a quiet NaN. -/
theorem not_compile_replace :
    ¬standard.Replaceable SameNumber ∧ ¬telling.Replaceable SameNumber ∧
      ¬telling.Replaceable Alike := by
  refine ⟨fun h => ?_, fun h => ?_, fun h => ?_⟩
  · exact absurd (h.nan_one (by decide +kernel)) (by decide +kernel)
  · exact absurd (h.one_neg_one (by decide +kernel)) (by decide +kernel)
  · exact absurd (h.one_neg_one (by decide +kernel)) (by decide +kernel)

end Vocabulary

end PostfixCalc

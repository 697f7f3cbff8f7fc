import Mathlib.Logic.Relator
import PostfixCalc.Operator
import PostfixCalc.Proofs.Lists
import PostfixCalc.Vocabulary.Standard

/-! # Numbers alike

A quiet NaN has bits to spare, and nothing says which of them an operation leaves there. Two
numbers that differ in no more than that are alike. The operators and the standard functions
take like numbers to like numbers; a function that is defined later need not, for it may look
at the sign of a NaN. -/

namespace PostfixCalc

open Relator

namespace Binary64

/-- The same number, but for the bits of a quiet NaN. -/
def Alike (a b : Binary64) : Prop :=
  a = b ∨ a.isQuiet = true ∧ b.isQuiet = true

instance : DecidableRel Alike := fun a b =>
  inferInstanceAs (Decidable (a = b ∨ a.isQuiet = true ∧ b.isQuiet = true))

instance : Std.Refl Alike := ⟨fun _ => .inl rfl⟩

variable {a b : Binary64}

theorem isNaN_of_isQuiet (h : a.isQuiet = true) : a.isNaN = true := by
  simp only [isQuiet, Bool.and_eq_true] at h
  exact h.1

theorem isSignaling_of_isQuiet (h : a.isQuiet = true) : a.isSignaling = false := by
  simp_all [isQuiet, isSignaling]

theorem ne_one_of_isQuiet (h : a.isQuiet = true) : a ≠ 1 := by
  rintro rfl
  exact absurd h (by decide +kernel)

theorem size_ne_zero_of_isQuiet (h : a.isQuiet = true) : a.size ≠ 0 := by
  intro hzero
  have hnan := isNaN_of_isQuiet h
  rw [isNaN, hzero] at hnan
  exact absurd hnan (by decide)

theorem isQuiet_abs (h : a.isQuiet = true) : a.abs.isQuiet = true := by
  have hsize : a.abs.size = a.size := by simp [abs, size, UInt64.and_assoc]
  have hbit : a.abs.bits &&& 0x8000000000000 = a.bits &&& 0x8000000000000 := by
    simp only [abs, size, UInt64.and_assoc]
    rfl
  rw [isQuiet, isNaN, hsize, hbit]
  exact h

/-- What is one and the same for every quiet NaN is the same for numbers that are alike. -/
theorem Alike.congr {α : Sort*} {f : Binary64 → α} {c : α} (h : a.Alike b)
    (hf : ∀ n : Binary64, n.isQuiet = true → f n = c) : f a = f b := by
  rcases h with rfl | ⟨ha, hb⟩
  · rfl
  · rw [hf a ha, hf b hb]

theorem Alike.toFloat_eq (h : a.Alike b) : a.toFloat = b.toFloat :=
  h.congr fun _ hn => if_pos (isNaN_of_isQuiet hn)

/-- All that a lifted function is shown of a NaN is that it is one. -/
theorem lift_alike (f : Float → Float) : (Alike ⇒ Alike) (lift f) (lift f) := by
  intro a b h
  exact .inl (by rw [lift, lift, h.toFloat_eq])

theorem lift₂_alike (f : Float → Float → Float) :
    (Alike ⇒ Alike ⇒ Alike) (lift₂ f) (lift₂ f) := by
  intro a b h c d h'
  exact .inl (by rw [lift₂, lift₂, h.toFloat_eq, h'.toFloat_eq])

theorem abs_alike : (Alike ⇒ Alike) abs abs := by
  rintro a b (rfl | ⟨ha, hb⟩)
  · exact .inl rfl
  · exact .inr ⟨isQuiet_abs ha, isQuiet_abs hb⟩

/-- Each test on the way to a power comes out the same for every quiet NaN. -/
theorem pow_alike : (Alike ⇒ Alike ⇒ Alike) pow pow := by
  intro a b h c d h'
  have hbase : a.isSignaling = b.isSignaling := h.congr fun _ => isSignaling_of_isQuiet
  have hexp : c.isSignaling = d.isSignaling := h'.congr fun _ => isSignaling_of_isQuiet
  have hone : (a = 1) = (b = 1) := h.congr fun _ hn => eq_false (ne_one_of_isQuiet hn)
  have hzero : (c.size = 0) = (d.size = 0) :=
    h'.congr fun _ hn => eq_false (size_ne_zero_of_isQuiet hn)
  refine .inl ?_
  simp only [pow, lift₂, hbase, hexp, hone, hzero, h.toFloat_eq, h'.toFloat_eq]

theorem apply_alike (op : Operator) : (Alike ⇒ Alike ⇒ Alike) op.apply op.apply := by
  cases op with
  | pow => exact pow_alike
  | add | sub | mul | div => exact lift₂_alike _

end Binary64

namespace Vocabulary

open Binary64

/-- The functions of the vocabulary take related numbers to related numbers. -/
structure Keeps (v : Vocabulary) (R : Binary64 → Binary64 → Prop) : Prop where
  unary {name : String} {f : Binary64 → Binary64} (h : v.unary name = some f) : (R ⇒ R) f f
  binary {name : String} {f : Binary64 → Binary64 → Binary64} (h : v.binary name = some f) :
    (R ⇒ R ⇒ R) f f

theorem keeps_eq (v : Vocabulary) : v.Keeps Eq where
  unary _ _ _ h := congrArg _ h
  binary _ _ _ h _ _ h' := congrArg₂ _ h h'

/-- No standard function looks at the bits of a quiet NaN. -/
theorem standard_keeps_alike : standard.Keeps Alike where
  unary h := by
    have hall : ∀ p ∈ standardUnary, (Alike ⇒ Alike) p.2 p.2 := by
      simp [standardUnary, sign, lift_alike, abs_alike]
    exact hall _ (mem_of_lookup h)
  binary h := by
    have hall : ∀ p ∈ standardBinary, (Alike ⇒ Alike ⇒ Alike) p.2 p.2 := by
      simp [standardBinary, logarithm, lift₂_alike]
    exact hall _ (mem_of_lookup h)

end Vocabulary

end PostfixCalc

import Mathlib.Data.List.Pairwise
import Mathlib.Data.List.TakeWhile

/-! # Lists

What the theory needs of lists whatever they hold: where a list falls in two at the first
element that fails a test, which of its prefixes have a property, how its elements are
counted and numbered, and what is looked up in it. -/

namespace PostfixCalc

variable {α : Type}

theorem takeWhile_dropWhile_of_split (p : α → Bool) {front rest : List α}
    (hf : ∀ a ∈ front, p a = true) (hr : ∀ a ∈ rest.head?, p a = false) :
    (front ++ rest).takeWhile p = front ∧ (front ++ rest).dropWhile p = rest := by
  rw [List.takeWhile_append_of_pos hf, List.dropWhile_append_of_pos hf]
  cases rest with
  | nil => simp
  | cons a rest =>
    have ha : p a = false := hr a rfl
    simp [ha]

theorem exists_split (p : α → Bool) (l : List α) :
    ∃ front rest, l = front ++ rest ∧ (∀ a ∈ front, p a = true) ∧
      ∀ a ∈ rest.head?, p a = false := by
  refine ⟨l.takeWhile p, l.dropWhile p, List.takeWhile_append_dropWhile.symm,
    fun a ha => List.mem_takeWhile_imp ha, fun a ha => ?_⟩
  have hstop := List.head?_dropWhile_not p l
  rw [Option.mem_def.mp ha] at hstop
  exact hstop

theorem exists_prefix_cons {p : List α → Prop} {a : α} {l : List α} (hnil : ¬ p []) :
    (∃ front, front <+: a :: l ∧ p front) ↔ ∃ front, front <+: l ∧ p (a :: front) := by
  constructor
  · rintro ⟨front, hprefix, hp⟩
    rcases List.prefix_cons_iff.mp hprefix with rfl | ⟨rest, rfl, hrest⟩
    · exact absurd hp hnil
    · exact ⟨rest, hrest, hp⟩
  · rintro ⟨rest, hrest, hp⟩
    exact ⟨a :: rest, List.prefix_cons_iff.mpr (.inr ⟨rest, rfl, hrest⟩), hp⟩

theorem countP_cons_toNat (p : α → Bool) (a : α) (l : List α) :
    (a :: l).countP p = (p a).toNat + l.countP p := by
  rw [List.countP_cons, Nat.add_comm]
  cases p a <;> rfl

theorem pairwise_zipIdx (l : List α) (n : Nat) :
    (l.zipIdx n).Pairwise fun p q => p.2 < q.2 := by
  refine List.pairwise_map.mp ?_
  rw [List.zipIdx_map_snd]
  exact List.pairwise_lt_range'

theorem mem_of_lookup {l : List (String × α)} {name : String} {a : α}
    (h : l.lookup name = some a) : (name, a) ∈ l := by
  obtain ⟨front, rest, rfl, -⟩ := List.lookup_eq_some_iff.mp h
  simp

end PostfixCalc

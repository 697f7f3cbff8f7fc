import PostfixCalc.Decimal.Numeral
import PostfixCalc.Proofs.Characters
import PostfixCalc.Proofs.Lists

/-! # Which numerals are read

A text of digits and points that begins with a digit is a numeral exactly when it has
at most one point. -/

namespace PostfixCalc.Numeral

theorem digits_append {cs ds : List Char} (hc : ∀ c ∈ cs, c.isDigit = true)
    (hd : ∀ d ∈ ds.head?, d.isDigit = false) : digits (cs ++ ds) = (cs, ds) := by
  obtain ⟨htake, hdrop⟩ := takeWhile_dropWhile_of_split Char.isDigit hc hd
  rw [digits, htake, hdrop]

theorem digits_of_forall {cs : List Char} (h : ∀ c ∈ cs, c.isDigit = true) :
    digits cs = (cs, []) := by
  simpa using @digits_append cs [] h (by simp)

/-- Digits and points are digits, and after them a point if there is one. -/
theorem exists_digits {cs : List Char} (h : ∀ c ∈ cs, c.isDigit = true ∨ c = '.') :
    (∀ c ∈ cs, c.isDigit = true) ∨
      ∃ ds rest, cs = ds ++ '.' :: rest ∧ ∀ d ∈ ds, d.isDigit = true := by
  obtain ⟨ds, rest, rfl, hds, hstop⟩ := exists_split Char.isDigit cs
  cases rest with
  | nil => exact .inl (by simpa using hds)
  | cons c rest =>
    have hc : c.isDigit = false := hstop c rfl
    obtain rfl : c = '.' := (h c (by simp)).resolve_left (by simp [hc])
    exact .inr ⟨ds, rest, rfl, hds⟩

theorem ne_of_isDigit {c d : Char} (hc : c.isDigit = true) (hd : d.isDigit = false) : c ≠ d := by
  rintro rfl
  rw [hc] at hd
  cases hd

theorem count_eq_zero {cs : List Char} (h : ∀ c ∈ cs, c.isDigit = true) : cs.count '.' = 0 :=
  List.count_eq_zero.mpr fun hm => ne_of_isDigit (h '.' hm) rfl rfl

theorem decimal?_isSome_iff {c : Char} {cs : List Char} (hc : c.isDigit = true)
    (h : ∀ d ∈ cs, d.isDigit = true ∨ d = '.') :
    (decimal? (c :: cs)).isSome = true ↔ cs.count '.' ≤ 1 := by
  rcases exists_digits h with hd | ⟨ds, rest, rfl, hd⟩
  · have hwhole : digits (c :: cs) = (c :: cs, []) := by
      exact digits_of_forall (List.forall_mem_cons.mpr ⟨hc, hd⟩)
    simp [decimal?, hwhole, exponent?, count_eq_zero hd]
  · have hwhole : digits (c :: (ds ++ '.' :: rest)) = (c :: ds, '.' :: rest) := by
      have hds : ∀ d ∈ c :: ds, d.isDigit = true := by simpa [hc] using hd
      exact digits_append hds (by simp)
    have hrest : ∀ d ∈ rest, d.isDigit = true ∨ d = '.' := fun d hd => h d (by simp [hd])
    rcases exists_digits hrest with hr | ⟨fs, more, rfl, hf⟩
    · have hfraction : digits rest = (rest, []) := by
        exact digits_of_forall hr
      simp [decimal?, hwhole, hfraction, exponent?, count_eq_zero hd, count_eq_zero hr]
    · have hfraction : digits (fs ++ '.' :: more) = (fs, '.' :: more) :=
        digits_append hf (by simp)
      have hnone : decimal? (c :: (ds ++ '.' :: (fs ++ '.' :: more))) = none := by
        simp [decimal?, hwhole, hfraction, exponent?]
      have hpoints : 1 < (ds ++ '.' :: (fs ++ '.' :: more)).count '.' := by
        simp only [List.count_append, List.count_cons_self]
        omega
      rw [hnone]
      exact ⟨nofun, fun hle => absurd hpoints (Nat.not_lt.mpr hle)⟩

/-- A numeral of digits and points is read exactly when it has at most one point. -/
theorem read?_isSome_iff {cs : List Char} (h : IsNumeral cs) :
    (read? (String.ofList cs)).isSome = true ↔ cs.count '.' ≤ 1 := by
  obtain ⟨c, cs, rfl, hc⟩ := h.exists_cons
  obtain ⟨-, hcs⟩ := List.forall_mem_cons.mp h.mem
  have hword : unsigned? (c :: cs) = (decimal? (c :: cs)).map Decimal.nearest := by
    have hn : c.toLower ≠ 'n' := by
      rw [toLower_of_isDigit hc]
      exact ne_of_isDigit hc rfl
    have hi : c.toLower ≠ 'i' := by
      rw [toLower_of_isDigit hc]
      exact ne_of_isDigit hc rfl
    simp [unsigned?, hn, hi]
  have hread : read? (String.ofList (c :: cs)) = unsigned? (c :: cs) := by
    have hminus : c ≠ '-' := ne_of_isDigit hc rfl
    have hplus : c ≠ '+' := ne_of_isDigit hc rfl
    unfold read?
    rw [String.toList_ofList]
    split <;> simp_all
  rw [hread, hword, Option.isSome_map, decimal?_isSome_iff hc hcs,
    List.count_cons_of_ne (ne_of_isDigit hc rfl)]

end PostfixCalc.Numeral

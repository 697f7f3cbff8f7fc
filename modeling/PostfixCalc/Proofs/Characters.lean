import PostfixCalc.Lexeme

/-! # Classes of characters

Letters, digits and blanks have no character in common, and words and numerals hold no blank. -/

namespace PostfixCalc

/-- Ranges that do not meet have no character in common. -/
theorem CharSet.contains_eq_false {s t : CharSet}
    (h : ∀ r ∈ s, ∀ q ∈ t, r.2 < q.1 ∨ q.2 < r.1) {c : Char} (hc : s.contains c = true) :
    t.contains c = false := by
  rw [← Bool.not_eq_true, contains_iff]
  rintro ⟨q, hq, hlow, hhigh⟩
  obtain ⟨r, hr, hlow', hhigh'⟩ := contains_iff.mp hc
  have := h r hr q hq
  omega

/-- The characters of ASCII above the space are no blanks. -/
theorem isBlank_of_ascii {c : Char} (hlow : 0x20 < c.toNat) (hhigh : c.toNat < 0x80) :
    isBlank c = false := by
  rw [← Bool.not_eq_true, isBlank, CharSet.contains_iff]
  simp only [blanks, List.mem_cons, List.not_mem_nil, or_false, exists_eq_or_imp, exists_eq_left]
  omega

theorem toNat_of_isAlpha {c : Char} (h : c.isAlpha = true) :
    (65 ≤ c.toNat ∧ c.toNat ≤ 90) ∨ (97 ≤ c.toNat ∧ c.toNat ≤ 122) := by
  change (decide (c.val ≥ 'A'.val ∧ c.val ≤ 'Z'.val) ||
    (decide (c.val ≥ 'a'.val) && decide (c.val ≤ 'z'.val))) = true at h
  simpa [UInt32.le_iff_toNat_le] using h

theorem toNat_of_isDigit {c : Char} (h : c.isDigit = true) : 48 ≤ c.toNat ∧ c.toNat ≤ 57 := by
  change (decide (c.val ≥ '0'.val) && decide (c.val ≤ '9'.val)) = true at h
  simpa [UInt32.le_iff_toNat_le] using h

theorem isBlank_of_isLetter {c : Char} (h : isLetter c = true) : isBlank c = false := by
  unfold isLetter at h
  split at h
  · have := toNat_of_isAlpha h
    exact isBlank_of_ascii (by omega) (by omega)
  · exact CharSet.contains_eq_false (by decide +kernel) h

theorem isBlank_of_isDigit {c : Char} (h : c.isDigit = true) : isBlank c = false := by
  have := toNat_of_isDigit h
  exact isBlank_of_ascii (by omega) (by omega)

theorem isLetter_of_isDigit {c : Char} (h : c.isDigit = true) : isLetter c = false := by
  have hrange := toNat_of_isDigit h
  have halpha : c.isAlpha = false := by
    rw [← Bool.not_eq_true]
    intro ha
    have := toNat_of_isAlpha ha
    omega
  simp [isLetter, halpha, show c.toNat < 0x80 by omega]

theorem isDigit_of_isLetter {c : Char} (h : isLetter c = true) : c.isDigit = false := by
  rw [← Bool.not_eq_true]
  intro hd
  rw [isLetter_of_isDigit hd] at h
  cases h

theorem toLower_of_isDigit {c : Char} (h : c.isDigit = true) : c.toLower = c := by
  have hrange := toNat_of_isDigit h
  have hupper : ¬(c.val ≥ 'A'.val ∧ c.val ≤ 'Z'.val) := by
    rintro ⟨ha, -⟩
    have : 65 ≤ c.toNat := by simpa [UInt32.le_iff_toNat_le] using ha
    omega
  exact dif_neg hupper

/-! ## Numerals and words -/

namespace IsNumeral

variable {cs : List Char}

theorem exists_cons (h : IsNumeral cs) : ∃ c ds, cs = c :: ds ∧ c.isDigit = true := by
  obtain ⟨c, ds, rfl⟩ := List.exists_cons_of_ne_nil h.nonempty
  exact ⟨c, ds, rfl, h.head c rfl⟩

theorem singleton {c : Char} (hc : c.isDigit = true) : IsNumeral [c] :=
  ⟨by simp, by simpa using .inl hc, by simpa using hc⟩

theorem concat (h : IsNumeral cs) {c : Char} (hc : c.isDigit = true ∨ c = '.') :
    IsNumeral (cs ++ [c]) := by
  obtain ⟨d, ds, rfl, -⟩ := h.exists_cons
  exact ⟨by simp, List.forall_mem_append.mpr ⟨h.mem, by simpa using hc⟩, h.head⟩

/-- A numeral is one up to any point in it. -/
theorem of_append_point {ds : List Char} (h : IsNumeral (cs ++ '.' :: ds)) : IsNumeral cs := by
  cases cs with
  | nil => exact absurd (h.head '.' rfl) (by decide)
  | cons c cs => exact ⟨by simp, fun d hd => h.mem d (List.mem_append_left _ hd), h.head⟩

theorem not_blank (h : IsNumeral cs) : ∀ c ∈ cs, isBlank c = false := by
  intro c hc
  rcases h.mem c hc with hdigit | rfl
  · exact isBlank_of_isDigit hdigit
  · decide

end IsNumeral

namespace IsWord

variable {cs : List Char}

theorem exists_cons (h : IsWord cs) : ∃ c ds, cs = c :: ds ∧ c ≠ 'x' ∧ c ≠ 'X' := by
  obtain ⟨c, ds, rfl⟩ := List.exists_cons_of_ne_nil h.nonempty
  exact ⟨c, ds, rfl, h.head c rfl⟩

theorem singleton {c : Char} (hc : isLetter c = true) (hx : c ≠ 'x') (hX : c ≠ 'X') :
    IsWord [c] :=
  ⟨by simp, by simpa using hc, by simpa using ⟨hx, hX⟩⟩

theorem concat (h : IsWord cs) {c : Char} (hc : isLetter c = true) : IsWord (cs ++ [c]) := by
  obtain ⟨d, ds, rfl, -⟩ := h.exists_cons
  exact ⟨by simp, List.forall_mem_append.mpr ⟨h.letters, by simpa using hc⟩, h.head⟩

theorem not_blank (h : IsWord cs) : ∀ c ∈ cs, isBlank c = false :=
  fun c hc => isBlank_of_isLetter (h.letters c hc)

end IsWord

end PostfixCalc

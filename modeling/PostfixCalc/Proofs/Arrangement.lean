import Mathlib.Data.List.Pairwise
import Mathlib.Data.List.Perm.Basic
import PostfixCalc.Proofs.Stack

/-! # Where the tokens go

The conversion arranges the tokens anew, and no more than that. To tell apart tokens that are
alike, each is followed together with the place where it was written. Every occurrence but
those of brackets comes out once, and whatever comes out before an operand was written before
it. So the operands keep their order, and operators and functions only ever move back. -/

namespace PostfixCalc

open scoped List

/-- The occurrences that are no brackets, in their order. -/
def kept (ps : List (Token × Nat)) : List (Token × Nat) :=
  ps.filter (·.1.kind ≠ .bracket)

/-- What is asked of two occurrences that come out in this order: the second, if it is an
operand, was written behind the first. -/
def Follows (p q : Token × Nat) : Prop :=
  q.1.role = .operand → p.2 < q.2

section Kept

variable {p : Token × Nat} {ps qs : List (Token × Nat)}

@[simp] theorem kept_append (ps qs : List (Token × Nat)) : kept (ps ++ qs) = kept ps ++ kept qs :=
  List.filter_append _ _

theorem kept_cons_bracket (h : p.1.role = .opening ∨ p.1.role = .closing)
    (ps : List (Token × Nat)) : kept (p :: ps) = kept ps := by
  simp [kept, Token.kind_eq_bracket_iff.mpr h]

theorem kept_eq_self (h : ∀ p ∈ ps, p.1.kind ≠ .bracket) : kept ps = ps := by
  simpa [kept] using h

theorem mem_kept_of_operand (hp : p ∈ ps) (h : p.1.role = .operand) : p ∈ kept ps := by
  have hkind : p.1.kind ≠ .bracket := by
    rw [Ne, Token.kind_eq_bracket_iff]
    simp [h]
  exact List.mem_filter.mpr ⟨hp, by simpa using hkind⟩

/-- Of tokens that are no operands nothing is asked. -/
theorem pairwise_follows (h : ∀ p ∈ ps, p.1.role ≠ .operand) : ps.Pairwise Follows :=
  List.pairwise_of_forall_mem_list fun _ _ q hq hr => absurd hr (h q hq)

end Kept

/-! ## One token -/

/-- One step, followed occurrence by occurrence: an operand leaves at once and alone; any other
token lets go some that waited. -/
theorem Shift.exists_numbered {pending : List (Token × Nat)} {p : Token × Nat}
    {out after : List Token} (h : Shift (pending.map Prod.fst) p.1 out after) :
    ∃ left held : List (Token × Nat), left.map Prod.fst = out ∧ held.map Prod.fst = after ∧
      kept (left ++ held) ~ kept (p :: pending) ∧ (left = [p] ∨ left ⊆ pending) ∧
      held ⊆ p :: pending := by
  generalize hps : pending.map Prod.fst = ps at h
  cases h with
  | emit hr =>
    exact ⟨[p], pending, rfl, hps, .refl _, .inl rfl, List.subset_cons_self p pending⟩
  | hold hr =>
    exact ⟨[], p :: pending, rfl, by rw [List.map_cons, hps], .refl _,
      .inr (List.nil_subset _), List.Subset.refl _⟩
  | replace hr hout hbelow =>
    obtain ⟨left, below, rfl, rfl, rfl⟩ := List.map_eq_append_iff.mp hps
    refine ⟨left, p :: below, rfl, rfl, List.perm_middle.filter _,
      .inr (List.subset_append_left _ _), ?_⟩
    exact List.cons_subset_cons p (List.subset_append_right _ _)
  | close hr hout ho =>
    obtain ⟨left, rest, rfl, rfl, hrest⟩ := List.map_eq_append_iff.mp hps
    obtain ⟨o, below, rfl, rfl, rfl⟩ := List.map_eq_cons_iff.mp hrest
    refine ⟨left, below, rfl, rfl, ?_, .inr (List.subset_append_left _ _), ?_⟩
    · rw [kept_cons_bracket (.inr hr), kept_append, kept_append, kept_cons_bracket (.inl ho)]
    · intro q hq
      simp [hq]

/-! ## Runs -/

section Runs

variable {pending left held left' held' ps : List (Token × Nat)} {p q : Token × Nat} {n : Nat}

/-- What one token does and what the rest of the list does after it, taken together. -/
theorem kept_perm_cons (h : kept (left ++ held) ~ kept (p :: pending))
    (h' : kept (left' ++ held') ~ kept (held ++ ps)) :
    kept (left ++ left' ++ held') ~ kept (pending ++ p :: ps) :=
  calc kept (left ++ left' ++ held')
    _ = kept left ++ kept (left' ++ held') := by rw [List.append_assoc, kept_append]
    _ ~ kept left ++ kept (held ++ ps) := h'.append_left _
    _ = kept (left ++ held) ++ kept ps := by simp
    _ ~ kept (p :: pending) ++ kept ps := h.append_right _
    _ = kept (p :: (pending ++ ps)) := by rw [← kept_append, List.cons_append]
    _ ~ kept (pending ++ p :: ps) := List.perm_middle.symm.filter _

/-- An operand that leaves has not waited, so it is among those that came in. -/
theorem le_of_operand_left {ts : List Token}
    (h : kept (left ++ held) ~ kept (pending ++ ts.zipIdx n))
    (hwaits : ∀ q ∈ pending, q.1.role ≠ .operand) (hq : q ∈ left) (hr : q.1.role = .operand) :
    n ≤ q.2 := by
  have hmem : q ∈ kept (pending ++ ts.zipIdx n) :=
    h.subset (mem_kept_of_operand (List.mem_append_left _ hq) hr)
  rcases List.mem_append.mp (List.mem_of_mem_filter hmem) with hq | hq
  · exact absurd hr (hwaits q hq)
  · exact List.le_snd_of_mem_zipIdx hq

/-- A run, followed occurrence by occurrence, the tokens of the list being numbered from `n`. -/
theorem exists_numbered {ts out after : List Token}
    (h : shiftAll (pending.map Prod.fst) ts = .ok (out, after))
    (hwaits : ∀ q ∈ pending, q.1.role ≠ .operand) (hplace : ∀ q ∈ pending, q.2 < n) :
    ∃ left held : List (Token × Nat), left.map Prod.fst = out ∧ held.map Prod.fst = after ∧
      kept (left ++ held) ~ kept (pending ++ ts.zipIdx n) ∧ left.Pairwise Follows := by
  induction ts generalizing pending out n with
  | nil =>
    cases h
    exact ⟨[], pending, rfl, rfl, by simp, .nil⟩
  | cons t ts ih =>
    obtain ⟨now, next, rest, hs, hr, rfl⟩ := shiftAll_cons_iff.mp h
    obtain ⟨left, held, rfl, rfl, hperm, hleft, hheld⟩ :=
      Shift.exists_numbered (p := (t, n)) hs
    have hnow : ∀ q ∈ (t, n) :: pending, q.2 < n + 1 := by
      refine List.forall_mem_cons.mpr ⟨Nat.lt_succ_self n, fun q hq => ?_⟩
      exact Nat.lt_succ_of_lt (hplace q hq)
    have hwaits' : ∀ q ∈ held, q.1.role ≠ .operand := fun q hq =>
      hs.waits (List.forall_mem_map.mpr hwaits) q.1 (List.mem_map_of_mem hq)
    obtain ⟨left', held', rfl, rfl, hperm', hfollows'⟩ :=
      ih hr hwaits' fun q hq => hnow q (hheld hq)
    have hfollows : left.Pairwise Follows ∧ ∀ q ∈ left, q.2 < n + 1 := by
      rcases hleft with rfl | hleft
      · exact ⟨List.pairwise_singleton _ _, by simp⟩
      · exact ⟨pairwise_follows fun q hq => hwaits q (hleft hq),
          fun q hq => hnow q (List.mem_cons_of_mem _ (hleft hq))⟩
    refine ⟨left ++ left', held', List.map_append, rfl, kept_perm_cons hperm hperm',
      List.pairwise_append.mpr ⟨hfollows.1, hfollows', fun p hp q hq hr => ?_⟩⟩
    exact Nat.lt_of_lt_of_le (hfollows.2 p hp) (le_of_operand_left hperm' hwaits' hq hr)

end Runs

/-- The conversion, followed occurrence by occurrence. -/
theorem postfixOrder_numbered {ts ordered : List Token} (h : postfixOrder ts = .ok ordered) :
    ∃ numbered : List (Token × Nat), numbered.map Prod.fst = ordered ∧
      numbered ~ kept ts.zipIdx ∧ numbered.Pairwise Follows := by
  have hbare := postfixOrder_bare h
  obtain ⟨out, pending, hs, -, rfl⟩ := postfixOrder_eq_ok_iff.mp h
  have hempty : shiftAll (([] : List (Token × Nat)).map Prod.fst) ts = .ok (out, pending) := hs
  obtain ⟨left, held, rfl, rfl, hperm, hfollows⟩ :=
    exists_numbered hempty (by simp) (n := 0) (by simp)
  have hwaits : ∀ q ∈ held, q.1.role ≠ .operand := fun q hq =>
    shiftAll_waits hs (by simp) q.1 (List.mem_map_of_mem hq)
  rw [← List.map_append] at hbare ⊢
  refine ⟨left ++ held, rfl, ?_, ?_⟩
  · rwa [kept_eq_self fun q hq => hbare q.1 (List.mem_map_of_mem hq), List.nil_append] at hperm
  · refine List.pairwise_append.mpr ⟨hfollows, pairwise_follows hwaits, fun p _ q hq hr => ?_⟩
    exact absurd hr (hwaits q hq)

/-- So the operands come out in the order in which they were written. -/
theorem filter_isOperand_of_follows {ts : List Token} {numbered : List (Token × Nat)}
    (hperm : numbered ~ kept ts.zipIdx) (hfollows : numbered.Pairwise Follows) :
    (numbered.map Prod.fst).filter Token.isOperand = ts.filter Token.isOperand := by
  have hoperand {p : Token × Nat} {ps : List (Token × Nat)}
      (hp : p ∈ ps.filter (Token.isOperand ∘ Prod.fst)) : p.1.role = .operand :=
    of_decide_eq_true (List.mem_filter.mp hp).2
  have hkept (ps : List (Token × Nat)) :
      (kept ps).filter (Token.isOperand ∘ Prod.fst) = ps.filter (Token.isOperand ∘ Prod.fst) := by
    rw [kept, List.filter_filter]
    refine List.filter_congr fun p hp => ?_
    by_cases ho : p.1.role = .operand
    · simp [(List.mem_filter.mp (mem_kept_of_operand hp ho)).2]
    · simp [Token.isOperand, ho]
  have hnumbered : (numbered.filter (Token.isOperand ∘ Prod.fst)).Pairwise fun p q => p.2 < q.2 :=
    (hfollows.filter _).imp_of_mem fun _ hq h => h (hoperand hq)
  have hwritten : (ts.zipIdx.filter (Token.isOperand ∘ Prod.fst)).Pairwise fun p q => p.2 < q.2 :=
    (pairwise_zipIdx ts 0).filter _
  have hsame : numbered.filter (Token.isOperand ∘ Prod.fst) =
      ts.zipIdx.filter (Token.isOperand ∘ Prod.fst) :=
    List.Perm.eq_of_pairwise (fun _ _ _ _ hpq hqp => absurd hpq (Nat.lt_asymm hqp)) hnumbered
      hwritten (hkept ts.zipIdx ▸ hperm.filter _)
  rw [List.filter_map, hsame, ← List.filter_map, List.zipIdx_map_fst]

/-- The conversion drops the brackets and rearranges the other occurrences: the operands keep
their order, and whatever comes out before an operand was written before it, so that no operator
and no function comes out before an operand that it was written behind. -/
theorem toPostfix_arranges {ts ordered : List Token} (h : (toPostfix ts).outcome = .ok ordered) :
    (∀ t ∈ ordered, t.kind ≠ .bracket) ∧
    ordered.filter Token.isOperand = ts.filter Token.isOperand ∧
    ∃ numbered : List (Token × Nat), numbered.map Prod.fst = ordered ∧
      numbered ~ kept ts.zipIdx ∧
      numbered.Pairwise fun p q => q.1.isOperand = true → p.2 < q.2 := by
  rw [toPostfix_outcome] at h
  obtain ⟨numbered, rfl, hperm, hfollows⟩ := postfixOrder_numbered h
  exact ⟨postfixOrder_bare h, filter_isOperand_of_follows hperm hfollows, numbered, rfl, hperm,
    hfollows.imp fun hfollow hoperand => hfollow (of_decide_eq_true hoperand)⟩

/-- The tokens of `7-(sin 7-x)`, in which two operators and two numerals are alike. -/
theorem toPostfix_arranges_difference :
    let ts : List Token := [⟨.number, "7"⟩, .ofOperator .sub, .opening, ⟨.unaryFn, "sin"⟩,
      ⟨.number, "7"⟩, .ofOperator .sub, ⟨.var, "x"⟩, .closing]
    let ordered : List Token := [⟨.number, "7"⟩, ⟨.number, "7"⟩, ⟨.unaryFn, "sin"⟩, ⟨.var, "x"⟩,
      .ofOperator .sub, .ofOperator .sub]
    (toPostfix ts).outcome = .ok ordered ∧
      (∀ t ∈ ordered, t.kind ≠ .bracket) ∧
      ordered.filter Token.isOperand = ts.filter Token.isOperand ∧
      ∃ numbered : List (Token × Nat), numbered.map Prod.fst = ordered ∧
        numbered ~ kept ts.zipIdx ∧
        numbered.Pairwise fun p q => q.1.isOperand = true → p.2 < q.2 := by
  intro ts ordered
  have hordered : (toPostfix ts).outcome = .ok ordered := by decide
  exact ⟨hordered, toPostfix_arranges hordered⟩

end PostfixCalc

import PostfixCalc.Proofs.Faults

/-! # Faults of bracketing

The conversion keeps no count of the brackets that are open. They wait among operators and
functions, which leave by other rules, and yet the outcome is that of a count: a bracket is
found unopened when the list closes more brackets up to some place than it opens, a bracket is
found unclosed when it opens more on the whole, and there is no other fault. Tokens that are no
brackets make no difference. -/

namespace PostfixCalc

/-- Every bracket token but `(` closes. -/
def Token.isClosing (t : Token) : Bool :=
  t.kind = .bracket && t.text ≠ "("

theorem Token.isClosing_iff {t : Token} : t.isClosing = true ↔ t.role = .closing := by
  unfold isClosing role
  cases t.kind <;> simp

theorem Token.bracket_cases (t : Token) :
    t.role = .opening ∨ t.role = .closing ∨ t.kind ≠ .bracket := by
  rw [Ne, kind_eq_bracket_iff, ← or_assoc]
  exact Decidable.em _

/-- Up to some place the list closes more brackets than it opens. -/
def Overclosed (ts : List Token) : Prop :=
  ∃ front, front <+: ts ∧ front.countP Token.isOpen < front.countP Token.isClosing

def brackets (ts : List Token) : List Token :=
  ts.filter (·.kind = .bracket)

/-! ## The depth by counting -/

section Depth

variable {n m : Nat} {t : Token} {ts : List Token}

theorem countP_cons_opening (h : t.role = .opening) (ts : List Token) :
    (t :: ts).countP Token.isOpen = ts.countP Token.isOpen + 1 ∧
      (t :: ts).countP Token.isClosing = ts.countP Token.isClosing := by
  have hopen : t.isOpen = true := Token.isOpen_iff.mpr h
  have hclosing : t.isClosing ≠ true := by simp [Token.isClosing_iff, h]
  simp [hopen, hclosing]

theorem countP_cons_closing (h : t.role = .closing) (ts : List Token) :
    (t :: ts).countP Token.isOpen = ts.countP Token.isOpen ∧
      (t :: ts).countP Token.isClosing = ts.countP Token.isClosing + 1 := by
  have hopen : t.isOpen = false := Token.isOpen_eq_false_iff.mpr (by simp [h])
  have hclosing : t.isClosing = true := Token.isClosing_iff.mpr h
  simp [hopen, hclosing]

theorem countP_cons_bare (h : t.kind ≠ .bracket) (ts : List Token) :
    (t :: ts).countP Token.isOpen = ts.countP Token.isOpen ∧
      (t :: ts).countP Token.isClosing = ts.countP Token.isClosing := by
  simp [Token.isOpen, Token.isClosing, h]

theorem depth_cons_bare (h : t.kind ≠ .bracket) (n : Nat) (ts : List Token) :
    depth n (t :: ts) = depth n ts := by
  rw [Ne, Token.kind_eq_bracket_iff] at h
  cases hr : t.role <;> simp_all [depth]

/-- A list comes to no depth when up to some place it closes more brackets than it opens on top
of the `n` that are open before it. -/
theorem depth_eq_none_iff :
    depth n ts = none ↔
      ∃ front, front <+: ts ∧ n + front.countP Token.isOpen < front.countP Token.isClosing := by
  induction ts generalizing n with
  | nil => simp [depth]
  | cons t ts ih =>
    rw [exists_prefix_cons (by simp)]
    rcases t.bracket_cases with hr | hr | hb
    · simp only [depth, hr, ih, countP_cons_opening hr]
      simp only [Nat.add_assoc, Nat.add_comm 1]
    · simp only [countP_cons_closing hr]
      cases n with
      | zero => simpa [depth, hr] using ⟨[], List.nil_prefix, by simp⟩
      | succ n =>
        simp only [depth, hr, ih]
        simp only [Nat.add_right_comm n 1, Nat.add_lt_add_iff_right]
    · simp only [depth_cons_bare hb, ih, countP_cons_bare hb]

theorem depth_count (h : depth n ts = some m) :
    n + ts.countP Token.isOpen = m + ts.countP Token.isClosing := by
  induction ts generalizing n with
  | nil =>
    cases h
    rfl
  | cons t ts ih =>
    rcases t.bracket_cases with hr | hr | hb
    · obtain ⟨hopen, hclosing⟩ := countP_cons_opening hr ts
      have hrest := ih (n := n + 1) (by simpa [depth, hr] using h)
      omega
    · obtain ⟨hopen, hclosing⟩ := countP_cons_closing hr ts
      cases n with
      | zero => simp [depth, hr] at h
      | succ n =>
        have hrest := ih (n := n) (by simpa [depth, hr] using h)
        omega
    · obtain ⟨hopen, hclosing⟩ := countP_cons_bare hb ts
      have hrest := ih (by rwa [depth_cons_bare hb] at h)
      omega

theorem brackets_cons (h : t.role = .opening ∨ t.role = .closing) (ts : List Token) :
    brackets (t :: ts) = t :: brackets ts :=
  List.filter_cons_of_pos (by simpa using Token.kind_eq_bracket_iff.mpr h)

theorem brackets_cons_bare (h : t.kind ≠ .bracket) (ts : List Token) :
    brackets (t :: ts) = brackets ts :=
  List.filter_cons_of_neg (by simpa using h)

theorem depth_brackets (n : Nat) (ts : List Token) : depth n (brackets ts) = depth n ts := by
  induction ts generalizing n with
  | nil => rfl
  | cons t ts ih =>
    rcases t.bracket_cases with hr | hr | hb
    · simp only [brackets_cons (.inl hr), depth, hr, ih]
    · cases n <;> simp only [brackets_cons (.inr hr), depth, hr, ih]
    · rw [brackets_cons_bare hb, depth_cons_bare hb, ih]

end Depth

/-! ## The outcome by the depth -/

/-- What the brackets make of a list, given how many of them are open behind it. -/
def bracketing : Option Nat → Except Fault Unit
  | none => .error .unopenedBracket
  | some 0 => .ok ()
  | some (_ + 1) => .error .unclosedBracket

theorem shiftAll_of_depth {pending ts : List Token}
    (h : depth (pending.countP Token.isOpen) ts = none) :
    shiftAll pending ts = .error .unopenedBracket := by
  cases hs : shiftAll pending ts with
  | error e => rw [shiftAll_error hs]
  | ok r =>
    rw [depth_of_shiftAll hs] at h
    cases h

theorem drain_of_open {pending : List Token} (h : pending.countP Token.isOpen ≠ 0) :
    drain pending = .error .unclosedBracket := by
  obtain ⟨q, hq, hopen⟩ := List.countP_pos_iff.mp (Nat.pos_of_ne_zero h)
  rw [drain, if_pos (List.any_eq_true.mpr ⟨q, hq, hopen⟩)]

theorem postfixOrder_bracketing (ts : List Token) :
    (postfixOrder ts).map (fun _ => ()) = bracketing (depth 0 ts) := by
  have hempty : depth (([] : List Token).countP Token.isOpen) ts = depth 0 ts := rfl
  cases hd : depth 0 ts with
  | none =>
    rw [postfixOrder, shiftAll_of_depth (hempty.trans hd)]
    rfl
  | some n =>
    obtain ⟨out, pending, hs⟩ := exists_shiftAll (hempty.trans hd)
    have hopen : pending.countP Token.isOpen = n := by
      simpa [hempty, hd] using (depth_of_shiftAll hs).symm
    cases n with
    | zero =>
      obtain ⟨ordered, hordered⟩ := exists_postfixOrder hd
      rw [hordered]
      rfl
    | succ n =>
      have hne : pending.countP Token.isOpen ≠ 0 := by omega
      simp only [postfixOrder, hs, ok_bind, drain_of_open hne, error_bind]
      rfl

theorem postfixOrder_eq_error_iff {ts : List Token} {e : Fault} :
    postfixOrder ts = .error e ↔ bracketing (depth 0 ts) = .error e := by
  rw [← postfixOrder_bracketing]
  cases postfixOrder ts <;> simp [Except.map]

theorem exists_postfixOrder_iff {ts : List Token} :
    (∃ ordered, postfixOrder ts = .ok ordered) ↔ bracketing (depth 0 ts) = .ok () := by
  rw [← postfixOrder_bracketing]
  cases postfixOrder ts <;> simp [Except.map]

/-- The faults of the conversion are read off the brackets: one that closes too much up to some
place, else one that opens too much on the whole, else none. What stands between them has no
say in it. -/
theorem toPostfix_brackets (ts : List Token) :
    ((toPostfix ts).outcome = .error .unopenedBracket ↔ Overclosed ts) ∧
    ((toPostfix ts).outcome = .error .unclosedBracket ↔
      ¬ Overclosed ts ∧ ts.countP Token.isClosing < ts.countP Token.isOpen) ∧
    ((∃ ordered, (toPostfix ts).outcome = .ok ordered) ↔
      ¬ Overclosed ts ∧ ts.countP Token.isOpen ≤ ts.countP Token.isClosing) ∧
    (toPostfix ts).outcome.map (fun _ => ()) =
      (toPostfix (brackets ts)).outcome.map fun _ => () := by
  have hover : Overclosed ts ↔ depth 0 ts = none := by simp [Overclosed, depth_eq_none_iff]
  have hsame : (postfixOrder ts).map (fun _ => ()) =
      (postfixOrder (brackets ts)).map fun _ => () := by
    rw [postfixOrder_bracketing, postfixOrder_bracketing, depth_brackets]
  simp only [toPostfix_outcome, hsame, and_true, postfixOrder_eq_error_iff,
    exists_postfixOrder_iff, hover]
  cases hd : depth 0 ts with
  | none => simp [bracketing]
  | some n =>
    have hcount := depth_count hd
    cases n with
    | zero =>
      have hle : ts.countP Token.isOpen ≤ ts.countP Token.isClosing := by omega
      simp [bracketing, hle]
    | succ n =>
      have hlt : ts.countP Token.isClosing < ts.countP Token.isOpen := by omega
      simp [bracketing, hlt]

end PostfixCalc

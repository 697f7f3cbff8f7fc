import PostfixCalc.Proofs.Infix
import PostfixCalc.Proofs.Meaning

/-! # The grammar of tokens

A grammar of infix expressions on tokens, in which a function of one value takes what
stands after it. It says what stands in infix order once no two operands stand side by
side; functions of two values have no place in it. -/

namespace PostfixCalc

/-- The parts of an expression, from those closed by themselves to the whole. -/
inductive Rank where
  | closed
  | prim
  | factor
  | term
  | sum
  | expr
  deriving DecidableEq, Repr

namespace Rank

/-- The part of which each part is a special case. A sum is an expression that no
minus begins. -/
def wider? : Rank → Option Rank
  | closed => some prim
  | prim => some factor
  | factor => some term
  | term => some sum
  | sum => some expr
  | expr => none

/-- The level of infix order that goes with a part. -/
def level : Rank → Nat
  | closed => 5
  | prim => 4
  | factor => 3
  | term => 2
  | sum | expr => 1

theorem level_le_of_wider {r s : Rank} (h : r.wider? = some s) : s.level ≤ r.level := by
  cases r <;> cases h <;> decide

end Rank

/-- `Derives r ts e`: the tokens are a part of rank `r` and stand for the tree `e`. -/
inductive Derives : Rank → List Token → Tree → Prop
  | operand {t} (h : t.role = .operand) : Derives .closed [t] (.leaf t)
  | bracketed {ts e} (h : Derives .expr ts e) : Derives .closed (.opening :: (ts ++ [.closing])) e
  | unary {f ts e} (hf : f.kind = .unaryFn) (h : Derives .prim ts e) :
      Derives .prim (f :: ts) (.unary f e)
  | power {ls rs a b} (hl : Derives .prim ls a) (hr : Derives .factor rs b) :
      Derives .factor (ls ++ .ofOperator .pow :: rs) (.binary (.ofOperator .pow) a b)
  | product {op ls rs a b} (hop : op = Operator.mul ∨ op = .div) (hl : Derives .term ls a)
      (hr : Derives .factor rs b) :
      Derives .term (ls ++ .ofOperator op :: rs) (.binary (.ofOperator op) a b)
  | sum {op ls rs a b} (hop : op = Operator.add ∨ op = .sub) (hl : Derives .sum ls a)
      (hr : Derives .term rs b) :
      Derives .sum (ls ++ .ofOperator op :: rs) (.binary (.ofOperator op) a b)
  | wider {r s ts e} (hrank : r.wider? = some s) (h : Derives r ts e) : Derives s ts e

namespace Derives

variable {v : Vocabulary} {r : Rank} {ts ls rs : List Token} {e a b : Tree}

/-- What the grammar derives stands in infix order, as tightly as its rank says. -/
theorem order (h : Derives r ts e) : ∃ n, r.level ≤ n ∧ Infix n ts e := by
  induction h with
  | operand h => exact ⟨5, Nat.le_refl 5, .operand h⟩
  | bracketed _ ih =>
    obtain ⟨n, -, horder⟩ := ih
    exact ⟨5, Nat.le_refl 5, .bracketed Token.role_opening Token.role_closing horder⟩
  | unary hf _ ih =>
    obtain ⟨n, hn, horder⟩ := ih
    exact ⟨4, Nat.le_refl 4, .unary hf hn horder⟩
  | power _ _ ihl ihr =>
    obtain ⟨m, hm, hl⟩ := ihl
    obtain ⟨n, hn, hr⟩ := ihr
    exact ⟨3, Nat.le_refl 3, .power (Token.role_ofOperator .pow) rfl hm hl hn hr⟩
  | product hop _ _ ihl ihr =>
    obtain ⟨m, hm, hl⟩ := ihl
    obtain ⟨n, hn, hr⟩ := ihr
    exact ⟨2, Nat.le_refl 2, .product hop hm hl hn hr⟩
  | sum hop _ _ ihl ihr =>
    obtain ⟨m, hm, hl⟩ := ihl
    obtain ⟨n, hn, hr⟩ := ihr
    exact ⟨1, Nat.le_refl 1, .sum hop hm hl hn hr⟩
  | wider hrank _ ih =>
    obtain ⟨n, hn, horder⟩ := ih
    exact ⟨n, Nat.le_trans (Rank.level_le_of_wider hrank) hn, horder⟩

/-- The conversion lists what is derived in postorder. -/
theorem postfixOrder (h : Derives r ts e) : postfixOrder ts = .ok e.postorder := by
  obtain ⟨n, -, horder⟩ := h.order
  exact horder.postfixOrder

/-- A tree is made of the tokens it is derived from, each in a place that suits it. -/
theorem known (h : Derives r ts e) (hts : ∀ t ∈ ts, t.Known v) : e.Known v := by
  induction h with
  | operand h => exact ⟨h, hts _ (by simp)⟩
  | bracketed _ ih => exact ih fun t ht => hts t (by simp [ht])
  | unary hf _ ih => exact ⟨⟨hf, hts _ (by simp)⟩, ih fun t ht => hts t (by simp [ht])⟩
  | power _ _ ihl ihr | product _ _ _ ihl ihr | sum _ _ _ ihl ihr =>
    exact ⟨⟨rfl, hts _ (by simp)⟩, ihl fun t ht => hts t (by simp [ht]),
      ihr fun t ht => hts t (by simp [ht])⟩
  | wider _ _ ih => exact ih hts

/-- The numerals of a tree are those among the tokens it is derived from. -/
theorem exists_number (h : Derives r ts e) :
    ∀ n ∈ e.numerals, ∃ t ∈ ts, t.kind = .number ∧ t.text = n := by
  induction h with
  | @operand t _ =>
    intro n hn
    unfold Tree.numerals at hn
    split at hn
    · exact ⟨t, by simp, ‹_›, (List.mem_singleton.mp hn).symm⟩
    · cases hn
  | bracketed _ ih | unary _ _ ih =>
    intro n hn
    obtain ⟨t, ht, hnum⟩ := ih n hn
    exact ⟨t, by simp [ht], hnum⟩
  | power _ _ ihl ihr | product _ _ _ ihl ihr | sum _ _ _ ihl ihr =>
    intro n hn
    rcases List.mem_append.mp hn with hn | hn
    · obtain ⟨t, ht, hnum⟩ := ihl n hn
      exact ⟨t, by simp [ht], hnum⟩
    · obtain ⟨t, ht, hnum⟩ := ihr n hn
      exact ⟨t, by simp [ht], hnum⟩
  | wider _ _ ih => exact ih

theorem factor_of_prim (h : Derives .prim ts e) : Derives .factor ts e :=
  .wider rfl h

theorem term_of_prim (h : Derives .prim ts e) : Derives .term ts e :=
  .wider rfl h.factor_of_prim

theorem expr_of_prim (h : Derives .prim ts e) : Derives .expr ts e :=
  .wider rfl (.wider rfl h.term_of_prim)

/-- An operator too loose for a part makes the part its left operand. -/
theorem extend_wider {op : Operator} {s : Rank} (hrank : r.wider? = some s)
    (hl : Derives r ls a) (hr : Derives .prim rs b) (hloose : op.level < r.level)
    (hop : s.level ≤ op.level) :
    Derives s (ls ++ .ofOperator op :: rs) (.binary (.ofOperator op) a b) := by
  have hle := op.level_le
  cases r <;> cases hrank <;> simp only [Rank.level] at hloose hop
  case closed => omega
  case prim =>
    obtain rfl := Operator.level_eq_three_iff.mp (show op.level = 3 by omega)
    exact .power hl hr.factor_of_prim
  case factor =>
    have hop' := Operator.level_eq_two_iff.mp (show op.level = 2 by omega)
    exact .product hop' (.wider rfl hl) hr.factor_of_prim
  case term =>
    have hop' := Operator.level_eq_one_iff.mp (show op.level = 1 by omega)
    exact .sum hop' (.wider rfl hl) hr.term_of_prim
  case sum => omega

/-- One more operator and operand at the right end: the operator finds its place on the right
edge of the tree. -/
theorem extend (h : Derives r ls a) (op : Operator) (hr : Derives .prim rs b)
    (hop : r.level ≤ op.level) : ∃ e, Derives r (ls ++ .ofOperator op :: rs) e := by
  have hle := op.level_le
  induction h with
  | operand _ | bracketed _ _ | unary _ _ _ =>
    simp only [Rank.level] at hop
    omega
  | power hl _ _ ihr =>
    obtain ⟨e, he⟩ := ihr hop
    exact ⟨_, by simpa using Derives.power hl he⟩
  | product hop' hl hm _ ihr =>
    by_cases htwo : op.level = 2
    · exact ⟨_, .product (Operator.level_eq_two_iff.mp htwo) (.product hop' hl hm)
        hr.factor_of_prim⟩
    · obtain ⟨e, he⟩ := ihr (Nat.lt_of_le_of_ne hop (Ne.symm htwo))
      exact ⟨_, by simpa using Derives.product hop' hl he⟩
  | sum hop' hl hm _ ihr =>
    by_cases hone : op.level = 1
    · exact ⟨_, .sum (Operator.level_eq_one_iff.mp hone) (.sum hop' hl hm) hr.term_of_prim⟩
    · obtain ⟨e, he⟩ := ihr (Nat.lt_of_le_of_ne hop (Ne.symm hone))
      exact ⟨_, by simpa using Derives.sum hop' hl he⟩
  | @wider r s _ _ hrank hl ih =>
    by_cases hloose : op.level < r.level
    · exact ⟨_, hl.extend_wider hrank hr hloose hop⟩
    · obtain ⟨e, he⟩ := ih (Nat.le_of_not_lt hloose)
      exact ⟨e, .wider hrank he⟩

end Derives

end PostfixCalc

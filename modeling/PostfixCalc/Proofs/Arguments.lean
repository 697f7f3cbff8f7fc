import PostfixCalc.Proofs.Written

/-! # The arguments of a call

A comma is skipped, so nothing tells the conversion where the first argument of a call
ends. A closed first argument leaves nothing pending, and the call gets its two arguments,
the second being any expression without a leading minus. After a comma a minus is no
sign: it takes the first argument for its left operand, and an operand is missing in the
end. A first argument that is not closed leaves an operator or a function pending, which
then comes after an operand of the second: the list is not that of the call. -/

namespace PostfixCalc

/-! ## What an infix list begins with and counts -/

/-- Only functions and open brackets come before the first operand. -/
theorem Infix.exists_first {n : Nat} {ts : List Token} {e : Tree} (h : Infix n ts e) :
    ∃ front t rest, ts = front ++ t :: rest ∧
      (∀ f ∈ front, f.role = .function ∨ f.role = .opening) ∧ t.role = .operand := by
  induction h with
  | @operand t h => exact ⟨[], t, [], rfl, by simp, h⟩
  | @bracketed n o c _ _ ho _ _ ih =>
    obtain ⟨front, t, rest, rfl, hfront, ht⟩ := ih
    exact ⟨o :: front, t, rest ++ [c], by simp,
      List.forall_mem_cons.mpr ⟨.inr ho, hfront⟩, ht⟩
  | @unary n f _ _ hf _ _ ih =>
    obtain ⟨front, t, rest, rfl, hfront, ht⟩ := ih
    exact ⟨f :: front, t, rest, rfl,
      List.forall_mem_cons.mpr ⟨.inl (Token.role_of_unaryFn hf), hfront⟩, ht⟩
  | @binary n f o c _ rs _ _ hf ho _ _ _ ihl _ =>
    obtain ⟨front, t, rest, rfl, hfront, ht⟩ := ihl
    refine ⟨f :: o :: front, t, rest ++ (rs ++ [c]), by simp, ?_, ht⟩
    exact List.forall_mem_cons.mpr ⟨.inl (Token.role_of_binaryFn hf),
      List.forall_mem_cons.mpr ⟨.inr ho, hfront⟩⟩
  | @power m n op _ rs _ _ _ _ _ _ _ _ ihl _ =>
    obtain ⟨front, t, rest, rfl, hfront, ht⟩ := ihl
    exact ⟨front, t, rest ++ op :: rs, by simp, hfront, ht⟩
  | @chain l m n op _ rs _ _ _ _ _ _ _ _ _ ihl _ =>
    obtain ⟨front, t, rest, rfl, hfront, ht⟩ := ihl
    exact ⟨front, t, rest ++ op :: rs, by simp, hfront, ht⟩

/-- The first operand is the first token sent out. -/
theorem shiftAll_first {front pending rest out after : List Token} {t : Token}
    (hfront : ∀ f ∈ front, f.role = .function ∨ f.role = .opening) (ht : t.role = .operand)
    (h : shiftAll pending (front ++ t :: rest) = .ok (out, after)) : ∃ more, out = t :: more := by
  induction front generalizing pending out with
  | nil =>
    obtain ⟨now, next, more, hs, -, rfl⟩ := shiftAll_cons_iff.mp h
    obtain ⟨rfl, -⟩ := hs.unique (.emit ht)
    exact ⟨more, rfl⟩
  | cons f front ih =>
    obtain ⟨hf, hfront⟩ := List.forall_mem_cons.mp hfront
    obtain ⟨now, next, more, hs, hrest, rfl⟩ := shiftAll_cons_iff.mp h
    obtain ⟨rfl, -⟩ := hs.unique (.hold hf)
    exact ih hfront hrest

/-- An infix list has one operand more than it has binary tokens. -/
theorem Infix.countP {n : Nat} {ts : List Token} {e : Tree} (h : Infix n ts e) :
    ts.countP Token.isOperand = ts.countP Token.isBinary + 1 := by
  induction h with
  | operand h => simp [Token.isOperand, h, Token.isBinary_of_operand h]
  | bracketed ho hc _ ih =>
    simpa [Token.isOperand_of_bracket (.inl ho), Token.isOperand_of_bracket (.inr hc),
      Token.isBinary_of_bracket (.inl ho), Token.isBinary_of_bracket (.inr hc)] using ih
  | @unary _ f _ _ hf _ _ ih =>
    have hoperand : f.isOperand = false := by simp [Token.isOperand, Token.role, hf]
    have hbinary : f.isBinary = false := by simp [Token.isBinary, hf]
    simpa [hoperand, hbinary] using ih
  | @binary _ f _ _ _ _ _ _ hf ho hc _ _ ihl ihr =>
    have hbinary : f.isBinary = true := by simp [Token.isBinary, hf]
    simp only [List.countP_cons, List.countP_append, List.countP_nil, hbinary,
      Token.isOperand_of_isBinary hbinary, Token.isOperand_of_bracket (.inl ho),
      Token.isOperand_of_bracket (.inr hc), Token.isBinary_of_bracket (.inl ho),
      Token.isBinary_of_bracket (.inr hc), Bool.false_eq_true, if_false, if_true]
    omega
  | @power _ _ op _ _ _ _ hop _ _ _ _ _ ihl ihr | @chain _ _ _ op _ _ _ _ hop _ _ _ _ _ _ ihl ihr =>
    have hbinary : op.isBinary = true := Token.isBinary_of_operator hop
    simp only [List.countP_cons, List.countP_append, hbinary,
      Token.isOperand_of_isBinary hbinary, Bool.false_eq_true, if_false, if_true]
    omega

/-! ## The first argument -/

/-- After a first argument that is not closed, the list is not that of the call. -/
theorem postorder_ne_of_open {f o c : Token} {ls us ordered : List Token} {a b : Tree} {m n : Nat}
    (hf : f.role = .function) (ho : o.role = .opening) (hl : Infix m ls a) (hm : m ≠ 5)
    (hr : Infix n us b) (h : postfixOrder (f :: o :: (ls ++ (us ++ [c]))) = .ok ordered) :
    ordered ≠ (Tree.binary f a b).postorder := by
  obtain ⟨out, pending, hrun, -, rfl⟩ := postfixOrder_eq_ok_iff.mp h
  obtain ⟨_, _, out, hfirst, hrun, rfl⟩ := shiftAll_cons_iff.mp hrun
  obtain ⟨rfl, rfl⟩ := hfirst.unique (.hold (.inl hf))
  obtain ⟨_, _, out, hsecond, hrun, rfl⟩ := shiftAll_cons_iff.mp hrun
  obtain ⟨rfl, rfl⟩ := hsecond.unique (.hold (.inr ho))
  obtain ⟨outl, held, hs⟩ := hl.sends [o, f] (Guards.opening ho m [f])
  obtain ⟨_, _, out, hleft, hright, rfl⟩ := shiftAll_append_iff.mp hrun
  rw [hs.run] at hleft
  cases hleft
  obtain ⟨front, t, rest, rfl, hfront, ht⟩ := hr.exists_first
  obtain ⟨more, rfl⟩ := shiftAll_first hfront ht (by simpa using hright)
  cases held with
  | nil => exact absurd (hs.settled.mp rfl) hm
  | cons q held =>
    -- Where the call lists the first token that is pending, the second argument has an operand.
    intro heq
    obtain ⟨hq, -⟩ : t = q ∧ more ++ pending = held ++ (b.postorder ++ [f]) := by
      simpa [Tree.postorder, ← hs.order] using heq
    rcases (hs.grips q (by simp)).1 with hrole | hrole <;> rw [← hq, ht] at hrole <;> cases hrole

/-- Two lists that can be reordered make a call that can. -/
theorem exists_postfixOrder_call {ts us left right : List Token} (f : Token)
    (hf : f.role = .function) (hl : postfixOrder ts = .ok left)
    (hr : postfixOrder us = .ok right) :
    ∃ ordered, postfixOrder (f :: .opening :: (ts ++ (us ++ [.closing]))) = .ok ordered := by
  have hleft : depth 1 ts = some 1 := depth_add (depth_of_postfixOrder hl) 1
  have hright : depth 1 us = some 1 := depth_add (depth_of_postfixOrder hr) 1
  apply exists_postfixOrder
  simp [depth, hf, depth_append, hleft, hright]

/-! ## The second argument -/

section Second

variable {v : Vocabulary} {r : Rank} {w cs ds : List Char} {a b e : Tree} {text : String}

theorem Written.ne_nil (h : Written v r cs e) : cs ≠ [] := by
  obtain ⟨n, ts, ht⟩ := h.reads
  exact ht.nonempty

/-- An expression that no minus begins is a sum. -/
theorem Written.sum_of_head (h : Written v r cs e) (hexpr : r = .expr)
    (hhead : cs.head? ≠ some '-') : Written v .sum cs e := by
  induction h with
  | number _ | var _ | constant _ | bracketed _ _ | unary _ _ _ | binary _ _ _ _ _
  | power _ _ _ _ | product _ _ _ _ _ => cases hexpr
  | sum hop _ hl hr ihl _ =>
    rw [List.head?_append_of_ne_nil _ hl.ne_nil] at hhead
    exact .sum hop (.inl rfl) (ihl hexpr hhead) hr
  | negative _ _ => exact absurd rfl hhead
  | @wider r _ _ _ hrank h _ =>
    subst hexpr
    cases r <;> cases hrank
    exact h

/-- Without the zero that its minus is taken from, an expression has an operand too few. -/
theorem Written.read_without_sign (h : Written v .expr ds b) (hhead : ds.head? = some '-') :
    ∃ us, v.read false ds = .ok us ∧
      us.countP Token.isOperand = us.countP Token.isBinary := by
  obtain ⟨n, ts, ht⟩ := h.reads
  obtain ⟨ds, rfl⟩ : ∃ rest, ds = Operator.sub.symbol :: rest :=
    ⟨ds.tail, (List.cons_head?_tail hhead).symm⟩
  have hsigned := ht.read true fun _ => rfl
  rw [v.read_minus] at hsigned
  obtain ⟨rest, hrest, heq⟩ := bind_eq_ok_iff.mp hsigned
  refine ⟨.ofOperator .sub :: rest, by rw [v.read_minus, hrest]; rfl, ?_⟩
  have hcount := ht.order.countP
  cases heq
  simpa [List.countP_cons] using hcount

/-- The tokens of a call with two arguments. -/
theorem Vocabulary.tokenize_call {m : Nat} {ts us : List Token} (hw : v.Names .binaryFn w)
    (hl : Reads v .expr cs a m ts) (hr : v.read false ds = .ok us)
    (hcs : ∀ c ∈ cs, isBlank c = false) (hds : ∀ c ∈ ds, isBlank c = false)
    (hs : Spaced (w ++ '(' :: (cs ++ ',' :: (ds ++ [')']))) text.toList) :
    (v.tokenize text).outcome =
      .ok (⟨.binaryFn, String.ofList w⟩ :: .opening :: (ts ++ (us ++ [.closing]))) := by
  have hchars : unblanked text = _ := hs.filter (call_not_blank hw hcs hds)
  rw [v.tokenize_eq_ok_iff, hchars]
  exact ⟨by simp, hl.read_call hw.read hr true⟩

/-- With a minus before its second argument a call has no value. -/
theorem Vocabulary.calculate_ne_ok_of_minus (hw : v.Names .binaryFn w) (ha : Written v .expr cs a)
    (hb : Written v .expr ds b) (hhead : ds.head? = some '-')
    (hs : Spaced (w ++ '(' :: (cs ++ ',' :: (ds ++ [')']))) text.toList) (x r : Binary64) :
    (v.calculate text x).outcome ≠ .ok r := by
  intro h
  obtain ⟨n, ts, ht⟩ := ha.reads
  obtain ⟨us, hus, hcount⟩ := hb.read_without_sign hhead
  obtain ⟨_, ordered, htokens, hord, hval⟩ := calculate_eq_ok_iff.mp h
  rw [tokenize_call hw ht hus ha.not_blank hb.not_blank hs] at htokens
  cases htokens
  have hargument := ht.order.countP
  have hbalance : ts.countP Token.isOperand + us.countP Token.isOperand =
      ts.countP Token.isBinary + us.countP Token.isBinary + 1 + 1 := by
    simpa [List.countP_cons] using countP_of_postfixOrder_value hord hval
  omega

/-- A closed first argument and a second one that no minus begins make a call. -/
theorem Written.call (hw : v.Names .binaryFn w) (ha : Written v .closed cs a)
    (hb : Written v .expr ds b) (hhead : ds.head? ≠ some '-') :
    Written v .expr (w ++ '(' :: (cs ++ ',' :: (ds ++ [')'])))
      (.binary ⟨.binaryFn, String.ofList w⟩ a b) :=
  .wider rfl (.wider rfl (.wider rfl (.wider rfl (.binary hw ha (hb.sum_of_head rfl hhead)))))

/-- After a first argument that is not closed, a text compiles, but not to the call. -/
theorem Vocabulary.compile_ne_call (hw : v.Names .binaryFn w) (ha : Written v .expr cs a)
    (hopen : ¬Written v .closed cs a) (hb : Written v .expr ds b) (hhead : ds.head? ≠ some '-')
    (hs : Spaced (w ++ '(' :: (cs ++ ',' :: (ds ++ [')']))) text.toList) :
    ∃ f, (v.compile text).outcome = .ok f ∧
      f.tokens ≠ (Tree.binary ⟨.binaryFn, String.ofList w⟩ a b).postorder := by
  obtain ⟨m, ts, ht⟩ := ha.reads
  obtain ⟨n, us, hu⟩ := (hb.sum_of_head rfl hhead).reads
  obtain ⟨ordered, hord⟩ := exists_postfixOrder_call ⟨.binaryFn, String.ofList w⟩ rfl
    ht.order.postfixOrder hu.order.postfixOrder
  refine ⟨⟨v, ordered⟩, ?_, ?_⟩
  · rw [compile_outcome,
      tokenize_call hw ht (hu.read false nofun) ha.not_blank hb.not_blank hs, ok_bind, hord,
      ok_bind]
  · exact postorder_ne_of_open rfl Token.role_opening ht.order (fun hm => hopen (ht.closed hm))
      hu.order hord

end Second

/-! ## The logarithm -/

theorem Written.leaf_or_bracketed {v : Vocabulary} {cs : List Char} {e : Tree}
    (h : Written v .closed cs e) : (∃ t, e = .leaf t) ∨ cs.head? = some '(' := by
  cases h with
  | number _ => exact .inl ⟨_, rfl⟩
  | var _ => exact .inl ⟨_, rfl⟩
  | constant _ => exact .inl ⟨_, rfl⟩
  | bracketed _ => exact .inr rfl
  | sum _ hrank _ _ => rcases hrank with hrank | hrank <;> cases hrank
  | @wider r _ _ _ hrank _ => cases r <;> cases hrank

/-- The tree of two digits with a plus between them. -/
def digitSum (c d : Char) : Tree :=
  .binary (.ofOperator .add) (.leaf ⟨.number, String.ofList [c]⟩)
    (.leaf ⟨.number, String.ofList [d]⟩)

theorem written_digitSum {v : Vocabulary} {c d : Char} (hc : c.isDigit = true)
    (hd : d.isDigit = true) : Written v .expr [c, '+', d] (digitSum c d) :=
  .sum (.inl rfl) (.inr rfl) (Written.digit hc).term_of_closed.expr_of_term
    (Written.digit hd).term_of_closed

/-- The call `log(a,b)` when all numerals in it are read. With a minus before `b` it has no
value. Otherwise, with `a` closed, it has the value of the logarithm at the values of its two
arguments, in this order; with any other `a` what is compiled is not the list of the call. -/
theorem Vocabulary.calculate_log {cs ds : List Char} {a b : Tree} {text : String}
    (ha : Written standard .expr cs a) (hb : Written standard .expr ds b)
    (hn : ∀ n ∈ a.numerals ++ b.numerals, n.toList.count '.' ≤ 1)
    (hs : Spaced ("log".toList ++ '(' :: (cs ++ ',' :: (ds ++ [')']))) text.toList) (x : Binary64) :
    (ds.head? = some '-' → ∀ r, (standard.calculate text x).outcome ≠ .ok r) ∧
    (ds.head? ≠ some '-' → Written standard .closed cs a →
      ∃ p q, a.value? standard x = some p ∧ b.value? standard x = some q ∧
        (standard.calculate text x).outcome = .ok (logarithm p q)) ∧
    (ds.head? ≠ some '-' → ¬Written standard .closed cs a →
      ∃ f, (standard.compile text).outcome = .ok f ∧
        f.tokens ≠ (Tree.binary ⟨.binaryFn, "log"⟩ a b).postorder) := by
  refine ⟨fun hhead r => ?_, fun hhead hclosed => ?_, fun hhead hopen => ?_⟩
  · exact calculate_ne_ok_of_minus names_log ha hb hhead hs x r
  · have hcall := Written.call names_log hclosed hb hhead
    obtain ⟨p, hp⟩ := ha.exists_value? (fun n hn' => hn n (List.mem_append_left _ hn')) x
    obtain ⟨q, hq⟩ := hb.exists_value? (fun n hn' => hn n (List.mem_append_right _ hn')) x
    refine ⟨p, q, hp, hq, ?_⟩
    have hvalue : (Tree.binary ⟨.binaryFn, String.ofList "log".toList⟩ a b).value? standard x =
        some (logarithm p q) := by
      have hlog : standard.binary "log" = some logarithm := rfl
      simp [Tree.value?, hlog, hp, hq]
    rw [calculate, Logged.outcome_bind, compile_of_written hcall hs]
    simpa using Tree.value_postorder hvalue
  · exact compile_ne_call names_log ha hopen hb hhead hs

/-- A bracketed sum as the first argument, one without its brackets, and one before a minus. -/
theorem Vocabulary.calculate_log_digitSum :
    (standard.calculate "log((2+6), 2)" 0).outcome = .ok (logarithm 8 2) ∧
    (∃ f, (standard.compile "log(2+6, 2)").outcome = .ok f ∧
      f.tokens ≠ (Tree.binary ⟨.binaryFn, "log"⟩ (digitSum '2' '6')
        (.leaf ⟨.number, "2"⟩)).postorder) ∧
    ∀ r, (standard.calculate "log(2+6, -2)" 0).outcome ≠ .ok r := by
  have hsum : Written standard .expr "2+6".toList (digitSum '2' '6') := written_digitSum rfl rfl
  have hbracketed : Written standard .closed "(2+6)".toList (digitSum '2' '6') := .bracketed hsum
  have htwo : Written standard .expr "2".toList (.leaf ⟨.number, "2"⟩) :=
    (Written.digit rfl).term_of_closed.expr_of_term
  have hminus : Written standard .expr "-2".toList
      (.binary (.ofOperator .sub) (.leaf ⟨.number, "0"⟩) (.leaf ⟨.number, "2"⟩)) :=
    .negative (Written.digit rfl).term_of_closed
  have hfirst : Spaced "log((2+6),2)".toList "log((2+6), 2)".toList := .of_filter (by decide)
  have hsecond : Spaced "log(2+6,2)".toList "log(2+6, 2)".toList := .of_filter (by decide)
  have hthird : Spaced "log(2+6,-2)".toList "log(2+6, -2)".toList := .of_filter (by decide)
  refine ⟨?_, ?_, ?_⟩
  · obtain ⟨-, hcall, -⟩ := calculate_log hbracketed.term_of_closed.expr_of_term htwo (by decide)
      hfirst 0
    obtain ⟨p, q, hp, hq, hvalue⟩ := hcall (by decide) hbracketed
    have height : (digitSum '2' '6').value? standard 0 = some 8 := by decide +kernel
    have hpow : (Tree.leaf ⟨.number, "2"⟩).value? standard 0 = some 2 := by decide +kernel
    cases height.symm.trans hp
    cases hpow.symm.trans hq
    exact hvalue
  · obtain ⟨-, -, hopen⟩ := calculate_log hsum htwo (by decide) hsecond 0
    refine hopen (by decide) fun hclosed => ?_
    rcases hclosed.leaf_or_bracketed with ⟨t, ht⟩ | hhead
    · cases ht
    · exact absurd hhead (by decide)
  · obtain ⟨hnone, -, -⟩ := calculate_log hsum hminus (by decide) hthird 0
    exact hnone (by decide)

/-- A text of which `log(0+1,0)` is an instance need not have the value of the call. -/
theorem Vocabulary.not_calculate_log :
    ¬∀ (cs ds : List Char) (a b : Tree) (text : String), Written standard .expr cs a →
      Written standard .expr ds b →
      (∀ n ∈ a.numerals ++ b.numerals, n.toList.count '.' ≤ 1) →
      text.toList = "log".toList ++ '(' :: (cs ++ ',' :: (ds ++ [')'])) →
      ∀ x r, (standard.calculate text x).outcome = .ok r →
        ∃ p q, a.value? standard x = some p ∧ b.value? standard x = some q ∧
          r = logarithm p q := by
  intro hclaim
  have hresult : (standard.calculate "log(0+1,0)" 0).outcome = .ok (logarithm 0 1) := by
    decide +kernel
  obtain ⟨p, q, hp, hq, hr⟩ := hclaim "0+1".toList "0".toList (digitSum '0' '1')
    (.leaf ⟨.number, "0"⟩) "log(0+1,0)" (written_digitSum rfl rfl)
    (Written.digit rfl).term_of_closed.expr_of_term (by decide) rfl 0 _ hresult
  have hone : (digitSum '0' '1').value? standard 0 = some 1 := by decide +kernel
  have hzero : (Tree.leaf ⟨.number, "0"⟩).value? standard 0 = some 0 := by decide +kernel
  cases hone.symm.trans hp
  cases hzero.symm.trans hq
  exact absurd hr (by decide +kernel)

end PostfixCalc

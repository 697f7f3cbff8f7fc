import Mathlib.Algebra.Order.BigOperators.Group.List
import Mathlib.Algebra.Order.Ring.Nat
import Mathlib.Data.List.Chain
import PostfixCalc.Proofs.Infix

/-! # Between open brackets

Open brackets cut the pending list into segments. An operator comes to lie only on what does
not yield to it, so in a segment all functions are above all operators, and of two operators
the later binds more tightly, unless both are powers. A segment therefore holds at most one
operator of each level below that of the powers, and nothing but open brackets, functions and
powers can make the pending list long. -/

namespace PostfixCalc

namespace Token

/-- Whether a token is an operator that binds at level `n`. -/
def bindsAt (n : Nat) (t : Token) : Bool :=
  t.role = .operator && t.level = n

def isPower (t : Token) : Bool :=
  t.kind = .binaryOp && t.text = "^"

/-- Whether one operator may lie right on another. -/
def Tops (top below : Token) : Prop :=
  below.level < top.level ∨ top.text = "^" ∧ below.text = "^"

/-- What is asked of two neighbours in the pending list: an operator lies on nothing that
would have yielded to it. -/
def Rests (top below : Token) : Prop :=
  top.role = .operator → below.yieldsTo top = false

theorem bindsAt_iff {n : Nat} {t : Token} :
    t.bindsAt n = true ↔ t.role = .operator ∧ t.level = n := by
  simp [bindsAt]

theorem isPower_eq_bindsAt (t : Token) : t.isPower = t.bindsAt 3 := by
  rw [Bool.eq_iff_iff, bindsAt_iff, role_eq_operator_iff, level_eq_three_iff]
  simp [isPower]

theorem level_ne_zero {t : Token} (h : t.text ∈ ["+", "-", "*", "/"]) : t.level ≠ 0 := by
  simp only [List.mem_cons, List.not_mem_nil, or_false] at h
  rcases h with h | h | h | h <;> rw [level, h] <;> decide

theorem Tops.trans {a b c : Token} (hab : a.Tops b) (hbc : b.Tops c) : a.Tops c := by
  have hsame {s t : Token} (hs : s.text = "^") (ht : t.text = "^") : s.level = t.level := by
    rw [level_eq_three_iff.mpr hs, level_eq_three_iff.mpr ht]
  rcases hab with hab | ⟨ha, hb⟩ <;> rcases hbc with hbc | ⟨hb', hc⟩
  · exact .inl (Nat.lt_trans hbc hab)
  · exact .inl (hsame hb' hc ▸ hab)
  · exact .inl (hsame ha hb ▸ hbc)
  · exact .inr ⟨ha, hc⟩

instance : Trans Tops Tops Tops := ⟨Tops.trans⟩

/-- An operator stays just where the one that comes may lie on it. -/
theorem yieldsTo_eq_false_iff {q op : Token} (hq : q.role = .operator) :
    q.yieldsTo op = false ↔ op.Tops q := by
  have hle := q.level_le
  constructor
  · intro h
    unfold yieldsTo at h
    simp only [role_eq_operator_iff.mp hq] at h
    split at h
    · rename_i hop
      have hlevel := level_eq_three_iff.mpr hop
      rw [decide_eq_false_iff_not] at h
      rcases Nat.lt_or_eq_of_le hle with hlt | heq
      · exact .inl (by omega)
      · exact .inr ⟨hop, level_eq_three_iff.mp heq⟩
    · rw [decide_eq_false_iff_not] at h
      exact .inl (by omega)
  · rintro (h | ⟨hop, -⟩)
    · exact yieldsTo_of_operator hq (.inl h)
    · exact yieldsTo_of_operator hq (.inr (level_eq_three_iff.mpr hop))

end Token

/-! ## What a run keeps -/

theorem Shift.rests {pending t out after} (h : Shift pending t out after)
    (hp : pending.IsChain Token.Rests) : after.IsChain Token.Rests := by
  cases h with
  | emit _ => exact hp
  | hold h =>
    refine List.isChain_cons.mpr ⟨fun q _ ht => ?_, hp⟩
    rcases h with h | h <;> rw [h] at ht <;> cases ht
  | @replace out below _ _ _ hbelow =>
    exact List.isChain_cons.mpr
      ⟨fun q hq _ => hbelow q hq, hp.suffix (List.suffix_append out below)⟩
  -- What closes a bracket uncovers a segment that was left as it was.
  | @close out o below _ _ _ _ =>
    exact (hp.suffix (List.suffix_append out (o :: after))).tail

theorem shiftAll_rests {pending ts out after} (h : shiftAll pending ts = .ok (out, after))
    (hp : pending.IsChain Token.Rests) : after.IsChain Token.Rests := by
  induction ts generalizing pending out with
  | nil =>
    cases h
    exact hp
  | cons t ts ih =>
    obtain ⟨now, next, rest, hs, hr, -⟩ := shiftAll_cons_iff.mp h
    exact ih hr (hs.rests hp)

/-- What is pending after a token was pending before, or is the token. -/
theorem Shift.subset {pending t out after} (h : Shift pending t out after) :
    after ⊆ t :: pending := by
  cases h with
  | emit _ => exact List.subset_cons_self t _
  | hold _ => exact List.Subset.refl _
  | replace _ _ _ => exact List.cons_subset_cons t (List.subset_append_right _ _)
  | close _ _ _ =>
    intro q hq
    simp [hq]

theorem shiftAll_subset {pending ts out after} (h : shiftAll pending ts = .ok (out, after)) :
    after ⊆ ts ++ pending := by
  induction ts generalizing pending out with
  | nil =>
    cases h
    exact List.Subset.refl _
  | cons t ts ih =>
    obtain ⟨now, next, rest, hs, hr, -⟩ := shiftAll_cons_iff.mp h
    intro q hq
    rcases List.mem_append.mp (ih hr hq) with hq | hq
    · simp [hq]
    · rcases List.mem_cons.mp (hs.subset hq) with rfl | hq <;> simp [*]

/-- What is pending at some moment while `ts` is converted, whether or not that succeeds: after
the first tokens of `ts`, or when the latest of what was pending then have left. -/
def PendsDuring (ts held : List Token) : Prop :=
  ∃ us out pending, us <+: ts ∧ shiftAll [] us = .ok (out, pending) ∧ held <:+ pending

namespace PendsDuring

variable {ts held : List Token}

theorem role (h : PendsDuring ts held) :
    ∀ q ∈ held, q.role = .function ∨ q.role = .operator ∨ q.role = .opening := by
  obtain ⟨us, out, pending, -, hs, hheld⟩ := h
  intro q hq
  have hoperand := shiftAll_waits hs (by simp) q (hheld.subset hq)
  have hclosing := (shiftAll_bare hs (by simp)).2 q (hheld.subset hq)
  cases hr : q.role <;> simp_all

theorem rests (h : PendsDuring ts held) : held.IsChain Token.Rests := by
  obtain ⟨us, out, pending, -, hs, hheld⟩ := h
  exact (shiftAll_rests hs .nil).suffix hheld

theorem subset (h : PendsDuring ts held) : held ⊆ ts := by
  obtain ⟨us, out, pending, hprefix, hs, hheld⟩ := h
  have hus : pending ⊆ us := by simpa using shiftAll_subset hs
  exact List.Subset.trans hheld.subset (List.Subset.trans hus hprefix.subset)

end PendsDuring

/-! ## Segments -/

/-- What is pending between two open brackets, or between one and an end of the list, part by
part; in each part, as in the whole, the latest comes first. -/
def segments (pending : List Token) : List (List Token) :=
  pending.splitOnP Token.isOpen

/-- `Cut held parts`: all that one token can be to the segments of a list. -/
inductive Cut : List Token → List (List Token) → Prop
  | nil : Cut [] [[]]
  | opening {o held parts} (ho : o.isOpen = true) (h : Cut held parts) :
      Cut (o :: held) ([] :: parts)
  | inside {q held s rest} (hq : q.isOpen = false) (h : Cut held (s :: rest)) :
      Cut (q :: held) ((q :: s) :: rest)

theorem cut_segments (held : List Token) : Cut held (segments held) := by
  induction held with
  | nil => exact .nil
  | cons q held ih =>
    unfold segments at ih ⊢
    rw [List.splitOnP_cons_eq_if_modifyHead]
    by_cases hq : q.isOpen = true
    · rw [if_pos hq]
      exact .opening hq ih
    · obtain ⟨s, rest, hs⟩ := List.exists_cons_of_ne_nil (List.splitOnP_ne_nil Token.isOpen held)
      rw [if_neg hq, hs, List.modifyHead_cons]
      exact .inside (by simpa using hq) (hs ▸ ih)

namespace Cut

variable {held : List Token} {parts : List (List Token)} {p : Token → Bool}

theorem length (h : Cut held parts) : parts.length = held.countP Token.isOpen + 1 := by
  induction h with
  | nil => rfl
  | opening ho _ ih => rw [List.length_cons, ih, List.countP_cons_of_pos ho]
  | inside hq _ ih =>
    rw [List.countP_cons_of_neg (by simp [hq]), ← ih, List.length_cons, List.length_cons]

theorem closed (h : Cut held parts) : ∀ s ∈ parts, ∀ q ∈ s, q.isOpen = false := by
  induction h with
  | nil => simp
  | opening _ _ ih => exact List.forall_mem_cons.mpr ⟨by simp, ih⟩
  | inside hq _ ih =>
    obtain ⟨hfirst, hrest⟩ := List.forall_mem_cons.mp ih
    exact List.forall_mem_cons.mpr ⟨List.forall_mem_cons.mpr ⟨hq, hfirst⟩, hrest⟩

/-- A segment is an unbroken part of the list, and the first one begins where the list does. -/
theorem unbroken (h : Cut held parts) :
    (∀ s ∈ parts.head?, s <+: held) ∧ ∀ s ∈ parts, s <:+: held := by
  induction h with
  | nil => simp
  | @opening o held _ _ _ ih =>
    refine ⟨by simp, List.forall_mem_cons.mpr ⟨List.nil_infix, fun s hs => ?_⟩⟩
    exact (ih.2 s hs).trans (List.suffix_cons o held).isInfix
  | @inside q held s rest _ _ ih =>
    have hfirst : q :: s <+: q :: held := List.cons_prefix_cons.mpr ⟨rfl, ih.1 s rfl⟩
    refine ⟨by simpa using hfirst, List.forall_mem_cons.mpr ⟨hfirst.isInfix, fun s' hs' => ?_⟩⟩
    exact (ih.2 s' (List.mem_cons_of_mem s hs')).trans (List.suffix_cons q held).isInfix

/-- Tokens that are no open brackets can be counted segment by segment. -/
theorem sum_countP (hp : ∀ q : Token, q.isOpen = true → p q = false) (h : Cut held parts) :
    (parts.map (List.countP p)).sum = held.countP p := by
  induction h with
  | nil => rfl
  | opening ho _ ih =>
    rw [List.map_cons, List.sum_cons, ih, List.countP_nil, Nat.zero_add,
      List.countP_cons_of_neg (by simp [hp _ ho])]
  | inside _ _ ih =>
    rw [List.map_cons, List.sum_cons] at ih ⊢
    rw [countP_cons_toNat, countP_cons_toNat, Nat.add_assoc, ih]

/-- What no segment holds twice is in the whole list no more often than there are segments. -/
theorem countP_le (hp : ∀ q : Token, q.isOpen = true → p q = false) (h : Cut held parts)
    (hone : ∀ s ∈ parts, s.countP p ≤ 1) : held.countP p ≤ held.countP Token.isOpen + 1 := by
  rw [← h.sum_countP hp, ← h.length]
  simpa using List.sum_le_card_nsmul (parts.map (List.countP p)) 1 (List.forall_mem_map.mpr hone)

end Cut

/-! ## The shape of a segment -/

/-- Functions on top, and below them operators of which each may lie on the next. -/
def Tapers (s : List Token) : Prop :=
  ∃ functions operators, s = functions ++ operators ∧
    (∀ q ∈ functions, q.isFunction = true) ∧ (∀ q ∈ operators, q.kind = .binaryOp) ∧
    operators.IsChain Token.Tops

theorem tapers_of_rests {s : List Token} (hrole : ∀ q ∈ s, q.role = .function ∨ q.role = .operator)
    (h : s.IsChain Token.Rests) : Tapers s := by
  induction s with
  | nil => exact ⟨[], [], rfl, by simp, by simp, .nil⟩
  | cons q s ih =>
    obtain ⟨hq, hrole⟩ := List.forall_mem_cons.mp hrole
    obtain ⟨hrests, h⟩ := List.isChain_cons.mp h
    obtain ⟨functions, operators, rfl, hfunctions, hoperators, hchain⟩ := ih hrole h
    rcases hq with hq | hq
    · exact ⟨q :: functions, operators, rfl,
        List.forall_mem_cons.mpr ⟨Token.isFunction_iff.mpr hq, hfunctions⟩, hoperators, hchain⟩
    · cases functions with
      | nil =>
        refine ⟨[], q :: operators, rfl, by simp,
          List.forall_mem_cons.mpr ⟨Token.role_eq_operator_iff.mp hq, hoperators⟩,
          List.isChain_cons.mpr ⟨fun b hb => ?_, hchain⟩⟩
        have hb' : b.role = .operator :=
          Token.role_eq_operator_iff.mpr (hoperators b (List.mem_of_mem_head? hb))
        exact (Token.yieldsTo_eq_false_iff hb').mp (hrests b hb hq)
      | cons f functions =>
        -- A function yields to every operator, so no operator lies on one.
        have hf : f.role = .function := Token.isFunction_iff.mp (hfunctions f List.mem_cons_self)
        have hyield := hrests f rfl hq
        rw [Token.yieldsTo_of_function hf] at hyield
        cases hyield

theorem PendsDuring.tapers {ts held s : List Token} (h : PendsDuring ts held)
    (hs : s ∈ segments held) : Tapers s := by
  have hpart := (cut_segments held).unbroken.2 s hs
  have hrests : s.IsChain Token.Rests := List.IsChain.infix h.rests hpart
  refine tapers_of_rests (fun q hq => ?_) hrests
  have hopen := Token.isOpen_eq_false_iff.mp ((cut_segments held).closed s hs q hq)
  rcases h.role q (hpart.subset hq) with hr | hr | hr
  · exact .inl hr
  · exact .inr hr
  · exact absurd hr hopen

/-- Below the level of the powers the levels strictly increase. -/
theorem Tapers.countP_bindsAt_le {s : List Token} (h : Tapers s) {n : Nat} (hn : n < 3) :
    s.countP (Token.bindsAt n) ≤ 1 := by
  obtain ⟨functions, operators, rfl, hfunctions, -, hchain⟩ := h
  have hnone : functions.countP (Token.bindsAt n) = 0 := by
    refine List.countP_eq_zero.mpr fun q hq hbinds => ?_
    have hrole := Token.isFunction_iff.mp (hfunctions q hq)
    rw [(Token.bindsAt_iff.mp hbinds).1] at hrole
    cases hrole
  have hpairwise : (operators.filter (Token.bindsAt n)).Pairwise Token.Tops :=
    hchain.pairwise.filter _
  have hlevel : ∀ q ∈ operators.filter (Token.bindsAt n), q.level = n := fun q hq =>
    (Token.bindsAt_iff.mp (List.mem_filter.mp hq).2).2
  rw [List.countP_append, hnone, Nat.zero_add, List.countP_eq_length_filter]
  -- Of two such operators the later would bind more tightly, or both would be powers.
  match operators.filter (Token.bindsAt n), hpairwise, hlevel with
  | [], _, _ => exact Nat.zero_le 1
  | [_], _, _ => exact Nat.le_refl 1
  | a :: b :: _, hpairwise, hlevel =>
    have ha : a.level = n := hlevel a (by simp)
    have hb : b.level = n := hlevel b (by simp)
    rcases List.rel_of_pairwise_cons hpairwise List.mem_cons_self with hlt | ⟨hpower, -⟩
    · omega
    · rw [← Token.level_eq_three_iff] at hpower
      omega

/-! ## Height -/

/-- Whatever may be pending counts once: as a bracket, as a function or at its level. -/
theorem Token.toNat_add_eq_one {q : Token}
    (h : q.role = .function ∨ q.role = .operator ∨ q.role = .opening) :
    q.isOpen.toNat + q.isFunction.toNat + q.isPower.toNat +
      ((q.bindsAt 0).toNat + (q.bindsAt 1).toNat + (q.bindsAt 2).toNat) = 1 := by
  rw [isPower_eq_bindsAt]
  rcases h with h | h | h
  · have hopen : q.isOpen = false := isOpen_eq_false_iff.mpr (by simp [h])
    simp [bindsAt, h, hopen, isFunction_iff.mpr h]
  · have hopen : q.isOpen = false := isOpen_eq_false_iff.mpr (by simp [h])
    have hlevel : q.level = 0 ∨ q.level = 1 ∨ q.level = 2 ∨ q.level = 3 := by
      have := q.level_le
      omega
    rcases hlevel with hlevel | hlevel | hlevel | hlevel <;>
      simp [bindsAt, h, hopen, isFunction_of_operator h, hlevel]
  · have hfunction : q.isFunction = false := by
      rw [← Bool.not_eq_true, isFunction_iff]
      simp [h]
    simp [bindsAt, h, isOpen_iff.mpr h, hfunction]

theorem length_eq_countP {held : List Token}
    (h : ∀ q ∈ held, q.role = .function ∨ q.role = .operator ∨ q.role = .opening) :
    held.length = held.countP Token.isOpen + held.countP Token.isFunction +
      held.countP Token.isPower + (held.countP (Token.bindsAt 0) +
        held.countP (Token.bindsAt 1) + held.countP (Token.bindsAt 2)) := by
  induction held with
  | nil => rfl
  | cons q held ih =>
    obtain ⟨hq, h⟩ := List.forall_mem_cons.mp h
    have hone := Token.toNat_add_eq_one hq
    have hlength := ih h
    simp only [countP_cons_toNat, List.length_cons]
    omega

theorem PendsDuring.countP_bindsAt_le {ts held : List Token} (h : PendsDuring ts held) {n : Nat}
    (hn : n < 3) : held.countP (Token.bindsAt n) ≤ held.countP Token.isOpen + 1 := by
  refine (cut_segments held).countP_le (fun q hq => ?_) fun s hs =>
    (h.tapers hs).countP_bindsAt_le hn
  simp [Token.bindsAt, Token.isOpen_iff.mp hq]

/-- The pending list at any moment. Between two open brackets it tapers off, with at most one
operator of each level below that of the powers; so its height is bounded by its brackets,
functions and powers. Without any of these it is never higher than 3, and never higher than 2
when all operators are sums, differences, products and quotients. -/
theorem pending_tapers {ts held : List Token} (h : PendsDuring ts held) :
    (∀ s ∈ segments held, Tapers s ∧ ∀ n < 3, s.countP (Token.bindsAt n) ≤ 1) ∧
      held.length ≤ 3 * (held.countP Token.isOpen + 1) + held.countP Token.isOpen +
        held.countP Token.isFunction + held.countP Token.isPower ∧
      ((∀ t ∈ ts, t.kind ≠ .bracket ∧ t.isFunction = false ∧ t.isPower = false) →
        held.length ≤ 3 ∧
          ((∀ t ∈ ts, t.kind = .binaryOp → t.text ∈ ["+", "-", "*", "/"]) →
            held.length ≤ 2)) := by
  have hlength := length_eq_countP h.role
  have hzero := h.countP_bindsAt_le (n := 0) (by decide)
  have hone := h.countP_bindsAt_le (n := 1) (by decide)
  have htwo := h.countP_bindsAt_le (n := 2) (by decide)
  refine ⟨fun s hs => ⟨h.tapers hs, fun n hn => (h.tapers hs).countP_bindsAt_le hn⟩,
    by omega, fun hflat => ?_⟩
  have hopen : held.countP Token.isOpen = 0 := by
    refine countP_isOpen_eq_zero fun q hq ho => ?_
    exact (hflat q (h.subset hq)).1 (Token.kind_eq_bracket_iff.mpr (.inl ho))
  have hfunction : held.countP Token.isFunction = 0 := by
    refine List.countP_eq_zero.mpr fun q hq => ?_
    simp [(hflat q (h.subset hq)).2.1]
  have hpower : held.countP Token.isPower = 0 := by
    refine List.countP_eq_zero.mpr fun q hq => ?_
    simp [(hflat q (h.subset hq)).2.2]
  refine ⟨by omega, fun hplain => ?_⟩
  have hnone : held.countP (Token.bindsAt 0) = 0 := by
    refine List.countP_eq_zero.mpr fun q hq hbinds => ?_
    obtain ⟨hrole, hlevel⟩ := Token.bindsAt_iff.mp hbinds
    exact Token.level_ne_zero
      (hplain q (h.subset hq) (Token.role_eq_operator_iff.mp hrole)) hlevel
  omega

/-- A pending list as high as its brackets, functions and powers allow, with an operator of every
level in both segments, and one as high as sums and products alone can make it. -/
theorem pending_tapers_tower :
    let storey : List Token := [⟨.binaryOp, "%"⟩, .ofOperator .add, .ofOperator .mul,
      .ofOperator .pow, .ofOperator .pow, ⟨.unaryFn, "sin"⟩]
    let tower : List Token := storey ++ .opening :: storey
    let product : List Token := [⟨.number, "7"⟩, .ofOperator .add, ⟨.number, "42"⟩,
      .ofOperator .mul, ⟨.var, "x"⟩]
    PendsDuring tower tower.reverse ∧
      segments tower.reverse = [storey.reverse, storey.reverse] ∧ Tapers storey.reverse ∧
      tower.reverse.length = 3 * (tower.reverse.countP Token.isOpen + 1) +
        tower.reverse.countP Token.isOpen + tower.reverse.countP Token.isFunction +
        tower.reverse.countP Token.isPower ∧
      PendsDuring product [.ofOperator .mul, .ofOperator .add] ∧
      [Token.ofOperator .mul, Token.ofOperator .add].length ≤ 2 := by
  intro storey tower product
  have htower : PendsDuring tower tower.reverse :=
    ⟨tower, [], tower.reverse, List.prefix_refl _, by decide, List.suffix_refl _⟩
  have hsegments : segments tower.reverse = [storey.reverse, storey.reverse] := by decide
  have hproduct : PendsDuring product [.ofOperator .mul, .ofOperator .add] :=
    ⟨product, [⟨.number, "7"⟩, ⟨.number, "42"⟩, ⟨.var, "x"⟩], _, List.prefix_refl _, by decide,
      List.suffix_refl _⟩
  obtain ⟨htapers, hheight, -⟩ := pending_tapers htower
  obtain ⟨-, -, hflat⟩ := pending_tapers hproduct
  exact ⟨htower, hsegments, (htapers storey.reverse (by simp [hsegments])).1,
    Nat.le_antisymm hheight (by decide), hproduct, (hflat (by decide)).2 (by decide)⟩

end PostfixCalc

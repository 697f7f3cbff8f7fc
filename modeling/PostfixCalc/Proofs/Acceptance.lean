import Mathlib.Data.List.Chain
import PostfixCalc.Proofs.Grammar
import PostfixCalc.Proofs.Spelling
import PostfixCalc.Vocabulary.Standard

/-! # What is accepted

The conversion checks nothing but brackets, and the evaluation nothing but the height
of its stack. Where no two operands stand side by side that is enough: a list of tokens has
a value exactly when the grammar derives it. One way, what the grammar derives stands in
infix order. The other way, operands and binary tokens are counted: every token out of
its place costs an operand that nothing makes up for, so with the count of a value every
token is in its place, and the brackets match because the conversion says so. -/

namespace PostfixCalc

/-! ## Counting -/

namespace Token

/-- Every known token is one of these. -/
theorem Known.cases {v : Vocabulary} {t : Token} (h : t.Known v) :
    t.role = .operand ∨ t.kind = .unaryFn ∨ t.kind = .binaryFn ∨ (∃ op, t = .ofOperator op) ∨
      t = .opening ∨ t = .closing := by
  obtain ⟨kind, text⟩ := t
  unfold Known at h
  cases kind with
  | number | var | constant => exact .inl rfl
  | unaryFn => exact .inr (.inl rfl)
  | binaryFn => exact .inr (.inr (.inl rfl))
  | binaryOp =>
    obtain ⟨op, rfl⟩ := h
    exact .inr (.inr (.inr (.inl ⟨op, rfl⟩)))
  | bracket =>
    rcases h with rfl | rfl
    · exact .inr (.inr (.inr (.inr (.inl rfl))))
    · exact .inr (.inr (.inr (.inr (.inr rfl))))

/-- Whether an operand, a function or a bracketed part may begin with this token. -/
def starts (t : Token) : Bool :=
  t.role = .operand || t.role = .function || t.role = .opening

/-- Whether an operand or a bracketed part may end with this token. -/
def ends (t : Token) : Bool :=
  t.role = .operand || t.role = .closing

/-- Two tokens that no missing operator stands between. -/
def Joins (t u : Token) : Prop :=
  t.ends = true → u.starts = false

instance : DecidableRel Joins := fun t u =>
  inferInstanceAs (Decidable (t.ends = true → u.starts = false))

theorem starts_of_kind {t : Token} (h : t.kind = .unaryFn ∨ t.kind = .binaryFn) :
    t.starts = true := by
  rcases h with h | h <;> simp [starts, role, h]

end Token

/-- `Fits wanted ts`: read from left to right, every token is in its place, where `wanted`
says whether an operand is due at the start. Whether brackets match is left open. -/
inductive Fits : Bool → List Token → Prop
  | done : Fits false []
  | operand {t ts} (h : t.role = .operand) (hts : Fits false ts) : Fits true (t :: ts)
  | unary {f ts} (h : f.kind = .unaryFn) (hts : Fits true ts) : Fits true (f :: ts)
  | opening {ts} (hts : Fits true ts) : Fits true (.opening :: ts)
  | operator {op ts} (hts : Fits true ts) : Fits false (.ofOperator op :: ts)
  | closing {ts} (hts : Fits false ts) : Fits false (.closing :: ts)

/-- The operands of a list are at most one more than its binary tokens, and no more if none is
due; only with every token in its place are they that many. -/
structure Balanced (wanted : Bool) (ts : List Token) : Prop where
  le : ts.countP Token.isOperand ≤ ts.countP Token.isBinary + wanted.toNat
  fits : ts.countP Token.isOperand = ts.countP Token.isBinary + wanted.toNat → Fits wanted ts

namespace Balanced

variable {t : Token} {ts : List Token} {wanted next : Bool}

/-- A token in its place keeps the balance. -/
theorem keep (h : Balanced next ts)
    (hcount : t.isOperand.toNat + next.toNat = t.isBinary.toNat + wanted.toNat)
    (hfits : Fits next ts → Fits wanted (t :: ts)) : Balanced wanted (t :: ts) := by
  have hle := h.le
  refine ⟨?_, fun heq => hfits (h.fits ?_)⟩
  · rw [countP_cons_toNat, countP_cons_toNat]
    omega
  · rw [countP_cons_toNat, countP_cons_toNat] at heq
    omega

/-- A token out of its place tips the balance for good. -/
theorem tip (h : Balanced next ts)
    (hcount : t.isOperand.toNat + next.toNat < t.isBinary.toNat + wanted.toNat) :
    Balanced wanted (t :: ts) := by
  have hle := h.le
  constructor
  · rw [countP_cons_toNat, countP_cons_toNat]
    omega
  · intro heq
    rw [countP_cons_toNat, countP_cons_toNat] at heq
    omega

end Balanced

theorem balanced {v : Vocabulary} {ts : List Token} (hk : ∀ t ∈ ts, t.Known v)
    (hj : ts.IsChain Token.Joins) (wanted : Bool)
    (hw : wanted = false → ∀ t ∈ ts.head?, t.starts = false) : Balanced wanted ts := by
  induction ts generalizing wanted with
  | nil =>
    cases wanted with
    | false => exact ⟨Nat.le_refl 0, fun _ => .done⟩
    | true => exact ⟨Nat.zero_le 1, nofun⟩
  | cons t ts ih =>
    obtain ⟨hjoin, hj⟩ := List.isChain_cons.mp hj
    obtain ⟨hkt, hk⟩ := List.forall_mem_cons.mp hk
    have hbefore : Balanced true ts := ih hk hj true nofun
    have hafter (he : t.ends = true) : Balanced false ts :=
      ih hk hj false fun _ u hu => hjoin u hu he
    cases wanted with
    | true =>
      rcases hkt.cases with h | h | h | ⟨op, rfl⟩ | rfl | rfl
      · have ho : t.isOperand = true := decide_eq_true h
        exact (hafter (by simp [Token.ends, h])).keep
          (by rw [ho, Token.isBinary_of_operand h]; rfl) (.operand h)
      · have ho : t.isOperand = false := by simp [Token.isOperand, Token.role, h]
        have hb : t.isBinary = false := by simp [Token.isBinary, h]
        exact hbefore.keep (by rw [ho, hb]) (.unary h)
      · have hb : t.isBinary = true := by simp [Token.isBinary, h]
        exact hbefore.tip (by rw [Token.isOperand_of_isBinary hb, hb]; decide)
      · exact hbefore.tip (Nat.lt_succ_self 1)
      · exact hbefore.keep rfl .opening
      · exact (hafter rfl).tip Nat.zero_lt_one
    | false =>
      have hnot : t.starts = false := hw rfl t rfl
      rcases hkt.cases with h | h | h | ⟨op, rfl⟩ | rfl | rfl
      · simp [Token.starts, h] at hnot
      · simp [Token.starts_of_kind (.inl h)] at hnot
      · simp [Token.starts_of_kind (.inr h)] at hnot
      · exact hbefore.keep rfl .operator
      · cases hnot
      · exact (hafter rfl).keep rfl .closing

/-! ## From places to trees -/

mutual

/-- Where an operand is due, one is derived, up to an operator, a bracket or the end. -/
theorem Fits.exists_prim {n : Nat} {ts : List Token} (h : Fits true ts) (hd : depth n ts = some 0) :
    ∃ ps rest e, ts = ps ++ rest ∧ Derives .prim ps e ∧ Fits false rest ∧
      depth n rest = some 0 := by
  cases h with
  | @operand t ts ht hts =>
    exact ⟨[t], ts, _, rfl, .wider rfl (.operand ht), hts, by simpa [depth, ht] using hd⟩
  | @unary f ts hf hts =>
    have hrole := Token.role_of_unaryFn hf
    obtain ⟨ps, rest, e, rfl, he, hrest, hdr⟩ := hts.exists_prim (by simpa [depth, hrole] using hd)
    exact ⟨f :: ps, rest, _, rfl, .unary hf he, hrest, hdr⟩
  | @opening ts hts =>
    have hd' : depth (n + 1) ts = some 0 := by simpa [depth] using hd
    obtain ⟨ps, rest, e, rfl, he, hrest, hdr⟩ := hts.exists_prim hd'
    obtain ⟨qs, more, e', rfl, he', hend⟩ := hrest.exists_expr he.expr_of_prim hdr
    rcases hend with ⟨-, hn⟩ | ⟨m, after, hm, rfl, hafter, hda⟩
    · cases hn
    · cases hm
      refine ⟨.opening :: (ps ++ qs ++ [.closing]), after, e', by simp, ?_, hafter, hda⟩
      exact .wider rfl (.bracketed he')
termination_by ts.length

/-- After an operand, operators with their operands go on, up to a bracket or the end. -/
theorem Fits.exists_expr {n : Nat} {ls ts : List Token} {a : Tree} (h : Fits false ts)
    (hl : Derives .expr ls a) (hd : depth n ts = some 0) :
    ∃ ps rest e, ts = ps ++ rest ∧ Derives .expr (ls ++ ps) e ∧
      (rest = [] ∧ n = 0 ∨ ∃ m after, n = m + 1 ∧ rest = .closing :: after ∧ Fits false after ∧
        depth m after = some 0) := by
  cases h with
  | done => exact ⟨[], [], a, rfl, by simpa using hl, .inl ⟨rfl, by simpa [depth] using hd⟩⟩
  | @operator op ts hts =>
    have hd' : depth n ts = some 0 := by simpa [depth] using hd
    obtain ⟨ps, rest, b, rfl, hb, hrest, hdr⟩ := hts.exists_prim hd'
    obtain ⟨e, he⟩ := hl.extend op hb (by cases op <;> decide)
    obtain ⟨qs, more, e', rfl, he', hend⟩ := hrest.exists_expr he hdr
    exact ⟨.ofOperator op :: (ps ++ qs), more, e', by simp, by simpa using he', hend⟩
  | @closing ts hts =>
    refine ⟨[], .closing :: ts, a, rfl, by simpa using hl, .inr ?_⟩
    cases n with
    | zero => simp [depth] at hd
    | succ m => exact ⟨m, ts, rfl, rfl, hts, by simpa [depth] using hd⟩
termination_by ts.length

end

/-! ## Acceptance -/

section Acceptance

variable {v : Vocabulary} {x r : Binary64} {ts ordered : List Token}

/-- Where no two operands stand side by side, a list with a value is derived. -/
theorem exists_derives (hk : ∀ t ∈ ts, t.Known v) (hj : ts.IsChain Token.Joins)
    (hord : postfixOrder ts = .ok ordered) (hval : v.value x ordered = .ok r) :
    ∃ e, Derives .expr ts e := by
  have hfits : Fits true ts :=
    (balanced hk hj true nofun).fits (countP_of_postfixOrder_value hord hval)
  obtain ⟨ps, rest, e, rfl, he, hrest, hd⟩ := hfits.exists_prim (depth_of_postfixOrder hord)
  obtain ⟨qs, more, e', rfl, he', hend⟩ := hrest.exists_expr he.expr_of_prim hd
  rcases hend with ⟨rfl, -⟩ | ⟨m, after, hm, -⟩
  · exact ⟨e', by simpa using he'⟩
  · cases hm

/-- A list with a value has had all its numerals read. -/
theorem read_of_value (hord : postfixOrder ts = .ok ordered) (hval : v.value x ordered = .ok r) :
    ∀ t ∈ ts, t.kind = .number → (Numeral.read? t.text).isSome = true := by
  intro t ht hnum
  have hbare : t ∈ unbracketed ts := by
    simp [unbracketed, ht, hnum]
  have hmem : t ∈ ordered := List.mem_of_mem_filter ((postfixOrder_perm hord).mem_iff.mpr hbare)
  obtain ⟨a, ha⟩ := Vocabulary.action_of_foldlM (Vocabulary.value_eq_ok_iff.mp hval) t hmem
  unfold Vocabulary.action at ha
  simp only [hnum] at ha
  split at ha
  · simp [*]
  · cases ha

/-- What is derived from known tokens has a value once all numerals are read. -/
theorem Derives.exists_value {e : Tree} (h : Derives .expr ts e) (hk : ∀ t ∈ ts, t.Known v)
    (hn : ∀ t ∈ ts, t.kind = .number → (Numeral.read? t.text).isSome = true) :
    ∃ r, e.value? v x = some r ∧ v.value x e.postorder = .ok r := by
  obtain ⟨r, hr⟩ := (h.known hk).exists_value? (x := x) fun n hnum => by
    obtain ⟨t, ht, hkind, rfl⟩ := h.exists_number n hnum
    exact hn t ht hkind
  exact ⟨r, hr, Tree.value_postorder hr⟩

/-- Where no two operands stand side by side, the tokens of a text have a value exactly when
the grammar derives them and all numerals are read, and the value is that of the derivation. -/
theorem Vocabulary.evaluate_iff_derives (v : Vocabulary) {text : String} {ts : List Token}
    (htext : (v.tokenize text).outcome = .ok ts) (hj : ts.IsChain Token.Joins) (x : Binary64) :
    ((∃ r, (toPostfix ts >>= fun ordered => v.evaluate ordered x).outcome = .ok r) ↔
      (∀ t ∈ ts, t.kind = .number → (Numeral.read? t.text).isSome = true) ∧
        ∃ e, Derives .expr ts e) ∧
    ∀ e r, Derives .expr ts e →
      (toPostfix ts >>= fun ordered => v.evaluate ordered x).outcome = .ok r →
        e.value? v x = some r := by
  have hk := known_of_tokenize htext
  simp only [Logged.outcome_bind, toPostfix_outcome, evaluate_outcome, bind_eq_ok_iff]
  refine ⟨⟨?_, ?_⟩, ?_⟩
  · rintro ⟨r, ordered, hord, hval⟩
    exact ⟨read_of_value hord hval, exists_derives hk hj hord hval⟩
  · rintro ⟨hn, e, he⟩
    obtain ⟨r, -, hval⟩ := he.exists_value (x := x) hk hn
    exact ⟨r, e.postorder, he.postfixOrder, hval⟩
  · rintro e r he ⟨ordered, hord, hval⟩
    obtain ⟨r', hr', hval'⟩ := he.exists_value (x := x) hk (read_of_value hord hval)
    rw [he.postfixOrder] at hord
    cases hord
    rw [hval] at hval'
    cases hval'
    exact hr'

end Acceptance

/-- The tokens of `2/(-x)`, with the zero that the minus is taken from. -/
def quotientTokens : List Token :=
  [⟨.number, "2"⟩, .ofOperator .div, .opening, ⟨.number, "0"⟩, .ofOperator .sub, ⟨.var, "x"⟩,
    .closing]

def quotient : Tree :=
  .binary (.ofOperator .div) (.leaf ⟨.number, "2"⟩)
    (.binary (.ofOperator .sub) (.leaf ⟨.number, "0"⟩) (.leaf ⟨.var, "x"⟩))

theorem derives_quotient : Derives .expr quotientTokens quotient := by
  have hterm {t : Token} (h : t.role = .operand) : Derives .term [t] (.leaf t) :=
    Derives.term_of_prim (.wider rfl (.operand h))
  have hdifference : Derives .expr [⟨.number, "0"⟩, .ofOperator .sub, ⟨.var, "x"⟩]
      (.binary (.ofOperator .sub) (.leaf ⟨.number, "0"⟩) (.leaf ⟨.var, "x"⟩)) :=
    .wider rfl (.sum (.inr rfl) (.wider rfl (hterm rfl)) (hterm rfl))
  have hquotient : Derives .term quotientTokens quotient :=
    .product (.inr rfl) (hterm rfl)
      (Derives.factor_of_prim (.wider rfl (.bracketed hdifference)))
  exact .wider rfl (.wider rfl hquotient)

theorem Vocabulary.evaluate_iff_derives_quotient :
    (standard.tokenize "2/(-x)").outcome = .ok quotientTokens ∧
      quotientTokens.IsChain Token.Joins ∧
      ∀ x, ∃ r, (toPostfix quotientTokens >>= fun ts => standard.evaluate ts x).outcome = .ok r ∧
        quotient.value? standard x = some r := by
  have htext : (standard.tokenize "2/(-x)").outcome = .ok quotientTokens := by decide
  have hjoins : quotientTokens.IsChain Token.Joins := by decide
  refine ⟨htext, hjoins, fun x => ?_⟩
  obtain ⟨hiff, hvalue⟩ := evaluate_iff_derives standard htext hjoins x
  obtain ⟨r, hr⟩ := hiff.mpr ⟨by decide +kernel, quotient, derives_quotient⟩
  exact ⟨r, hr, hvalue quotient r derives_quotient hr⟩

end PostfixCalc

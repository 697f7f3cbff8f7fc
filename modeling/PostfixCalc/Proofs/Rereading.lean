import PostfixCalc.Proofs.Spelling
import PostfixCalc.Vocabulary.Standard

/-! # A formula written out

The tokens of a formula, written out in postfix order with commas between them, read as
themselves, in whatever order they stand, and so they evaluate to what the formula
evaluates to. A minus that stands first is read as a sign and has a zero put before it; it
then lacks its second operand as it lacked both, and is reported the same. -/

namespace PostfixCalc

/-- The texts of a list of tokens, with one comma between two of them. -/
def Token.listed (ts : List Token) : String :=
  ",".intercalate (ts.map text)

theorem Token.toList_listed_cons_cons (t u : Token) (us : List Token) :
    (listed (t :: u :: us)).toList = t.text.toList ++ ',' :: (listed (u :: us)).toList := by
  simp [listed]

namespace Vocabulary

variable {v : Vocabulary} {t : Token} {ts us : List Token}

theorem read_listed (h : ∀ u ∈ t :: us, u.Spelled v) (signed : Bool) :
    v.read signed (Token.listed (t :: us)).toList = .ok (t.readAs signed ++ us) := by
  induction us generalizing t signed with
  | nil => simpa [Token.listed] using (h t (by simp)).read signed
  | cons u us ih =>
    obtain ⟨ht, hus⟩ := List.forall_mem_cons.mp h
    have hcomma : Lexeme.start ',' = .other ',' := by decide
    rw [Token.toList_listed_cons_cons, v.read_append (by decide), ht.read, hcomma,
      show decide (',' = '(') = false by decide, ih hus]
    rfl

theorem listed_not_blank (h : ∀ u ∈ ts, u.Spelled v) :
    ∀ c ∈ (Token.listed ts).toList, isBlank c = false := by
  induction ts with
  | nil => simp [Token.listed]
  | cons t us ih =>
    obtain ⟨ht, hus⟩ := List.forall_mem_cons.mp h
    cases us with
    | nil => simpa [Token.listed] using ht.not_blank
    | cons u us =>
      rw [Token.toList_listed_cons_cons]
      exact List.forall_mem_append.mpr
        ⟨ht.not_blank, List.forall_mem_cons.mpr ⟨by decide, ih hus⟩⟩

/-- Spelled tokens read as themselves when commas stand between them. -/
theorem tokenize_listed (h : ∀ u ∈ t :: us, u.Spelled v) :
    (v.tokenize (Token.listed (t :: us))).outcome = .ok (t.readAs true ++ us) := by
  have hchars : unblanked (Token.listed (t :: us)) = (Token.listed (t :: us)).toList := by
    simpa [unblanked] using listed_not_blank h
  have hne : (Token.listed (t :: us)).toList ≠ [] := by
    intro hnil
    have hread := read_listed h true
    rw [hnil, read_nil, Except.ok.injEq, Token.readAs] at hread
    split at hread <;> simp at hread
  rw [tokenize_eq_ok_iff, hchars]
  exact ⟨hne, read_listed h true⟩

theorem readAs_bare {signed : Bool} (h : t.kind ≠ .bracket) :
    ∀ u ∈ t.readAs signed, u.kind ≠ .bracket := by
  unfold Token.readAs
  split <;> simpa using h

/-- The zero before a first minus does not help: either way an operand is missing. -/
theorem value_readAs (v : Vocabulary) (x : Binary64) (signed : Bool) (t : Token) (us : List Token) :
    v.value x (t.readAs signed ++ us) = v.value x (t :: us) := by
  unfold Token.readAs
  split
  next h =>
    obtain ⟨-, rfl⟩ : signed = true ∧ t = .ofOperator .sub := by simpa using h
    obtain ⟨zero, hzero⟩ : ∃ r, Numeral.read? "0" = some r :=
      Option.isSome_iff_exists.mp (by decide)
    have hfirst : v.step x [] ⟨.number, "0"⟩ = .ok [zero] :=
      step_eq_ok (a := .push zero) (by simp [action, hzero]) rfl
    have hone : v.step x [zero] (.ofOperator .sub) = .error (.missingOperand "-") := rfl
    have hnone : v.step x [] (.ofOperator .sub) = .error (.missingOperand "-") := rfl
    simp [value, hfirst, hone, hnone]
  next => rfl

/-- A formula written out has the value of the formula, or its fault. -/
theorem calculatePostfix_listed {text : String} {f : Formula}
    (h : (v.compile text).outcome = .ok f) (hne : f.tokens ≠ []) (x : Binary64) :
    (v.calculatePostfix (Token.listed f.tokens) x).outcome = (f x).outcome := by
  have hspelled := spelled_of_compile h
  have hbare := bare_of_compile h
  obtain ⟨ts, ordered, -, -, rfl⟩ := compile_eq_ok_iff.mp h
  obtain ⟨t, us, rfl⟩ := List.exists_cons_of_ne_nil hne
  obtain ⟨ht, hus⟩ := List.forall_mem_cons.mp hbare
  have hfilter : (t.readAs true ++ us).filter (·.kind ≠ .bracket) = t.readAs true ++ us :=
    unbracketed_eq_self (List.forall_mem_append.mpr ⟨readAs_bare ht, hus⟩)
  rw [calculatePostfix_outcome, tokenize_listed hspelled, ok_bind, hfilter, value_readAs,
    formula_outcome]

/-- A difference, and a list that a minus begins because what stood before it is gone. -/
theorem calculatePostfix_listed_difference :
    (∃ f, (standard.compile "8-log(x,2)").outcome = .ok f ∧
      ∀ x, (standard.calculatePostfix "8,x,2,log,-" x).outcome = (f x).outcome) ∧
    ∃ f, (standard.compile "()-+3").outcome = .ok f ∧
      ∀ x, (standard.calculatePostfix "-,3,+" x).outcome = (f x).outcome := by
  have hdifference : (standard.compile "8-log(x,2)").outcome =
      .ok ⟨standard, [⟨.number, "8"⟩, ⟨.var, "x"⟩, ⟨.number, "2"⟩, ⟨.binaryFn, "log"⟩,
        .ofOperator .sub]⟩ :=
    compile_eq_ok_iff.mpr ⟨[⟨.number, "8"⟩, .ofOperator .sub, ⟨.binaryFn, "log"⟩, .opening,
      ⟨.var, "x"⟩, ⟨.number, "2"⟩, .closing], _, by decide, by decide, rfl⟩
  have hminus : (standard.compile "()-+3").outcome =
      .ok ⟨standard, [.ofOperator .sub, ⟨.number, "3"⟩, .ofOperator .add]⟩ :=
    compile_eq_ok_iff.mpr ⟨[.opening, .closing, .ofOperator .sub, .ofOperator .add,
      ⟨.number, "3"⟩], _, by decide, by decide, rfl⟩
  exact ⟨⟨_, hdifference, calculatePostfix_listed hdifference (by simp)⟩,
    ⟨_, hminus, calculatePostfix_listed hminus (by simp)⟩⟩

end Vocabulary

end PostfixCalc

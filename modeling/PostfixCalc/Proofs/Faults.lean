import PostfixCalc.Proofs.Spelling
import PostfixCalc.Vocabulary.Standard

/-! # What can go wrong, and where

Each stage has its own faults. Reading finds a text with nothing in it or a name without a
meaning, the conversion a bracket without its other half. A list of known tokens without
brackets, as every formula keeps one, meets none of these in its evaluation, and no token
out of place: a numeral with a second point, a missing operand and a wrong number of values
at the end are left. That stays so when the vocabulary grows, for a name that is defined
again keeps the meanings of its other kinds. -/

namespace PostfixCalc

/-! ## Reading and reordering -/

namespace Vocabulary

variable {v : Vocabulary} {e : Fault}

theorem readLexeme_error {signed : Bool} {l : Lexeme}
    (h : (v.readLexeme signed l).outcome = .error e) : ∃ name, e = .unknownName name := by
  cases l with
  | word text =>
    simp only [readLexeme] at h
    split at h
    · cases h
    · cases h
      exact ⟨text, rfl⟩
  | _ => cases h

theorem readLexemes_error {signed : Bool} {ls : List Lexeme}
    (h : (v.readLexemes signed ls).outcome = .error e) : ∃ name, e = .unknownName name := by
  induction ls generalizing signed with
  | nil => cases h
  | cons l ls ih =>
    rw [readLexemes_cons] at h
    rcases bind_eq_error_iff.mp h with h | ⟨now, -, h⟩
    · exact readLexeme_error h
    · rcases bind_eq_error_iff.mp h with h | ⟨rest, -, h⟩
      · exact ih h
      · cases h

theorem tokenize_error {text : String} (h : (v.tokenize text).outcome = .error e) :
    e = .emptyText ∨ ∃ name, e = .unknownName name := by
  rw [tokenize_outcome] at h
  split at h
  · cases h
    exact .inl rfl
  · exact .inr (readLexemes_error h)

end Vocabulary

theorem shiftAll_error {pending ts : List Token} {e : Fault}
    (h : shiftAll pending ts = .error e) : e = .unopenedBracket := by
  induction ts generalizing pending with
  | nil => cases h
  | cons t ts ih =>
    simp only [shiftAll] at h
    rcases Shift.total pending t with ⟨out, after, hs⟩ | ⟨hr, hclosed⟩
    · rw [hs.eq_ok, ok_bind] at h
      rcases bind_eq_error_iff.mp h with h | ⟨rest, -, h⟩
      · exact ih h
      · cases h
    · rw [shift_unopened hr hclosed] at h
      cases h
      rfl

theorem postfixOrder_error {ts : List Token} {e : Fault} (h : postfixOrder ts = .error e) :
    e = .unopenedBracket ∨ e = .unclosedBracket := by
  rcases bind_eq_error_iff.mp h with h | ⟨⟨out, pending⟩, -, h⟩
  · exact .inl (shiftAll_error h)
  · rcases bind_eq_error_iff.mp h with h | ⟨rest, -, h⟩
    · unfold drain at h
      split at h <;> cases h
      exact .inr rfl
    · cases h

/-! ## Evaluating known tokens -/

namespace Token.Known

variable {v : Vocabulary} {t : Token}

/-- A new meaning takes no name away, whether it replaces one or not. -/
theorem define (h : t.Known v) (d : Definition) : t.Known (v.define d) := by
  unfold Known at h ⊢
  cases hk : t.kind <;> simp only [hk] at h ⊢
  case binaryOp | bracket => exact h
  -- Three kinds are left, each with its own table, of which the definition changes one.
  all_goals
    cases d <;> simp only [Vocabulary.define, h]
    split
    · rfl
    · exact h

theorem defineAll (h : t.Known v) (ds : List Definition) :
    t.Known (ds.foldl Vocabulary.define v) := by
  induction ds generalizing v with
  | nil => exact h
  | cons d ds ih => exact ih (h.define d)

/-- A known token acts, unless it is a numeral that is not read. -/
theorem action (h : t.Known v) (hb : t.kind ≠ .bracket) (x : Binary64) :
    (∃ a, v.action x t = .ok a) ∨
      t.kind = .number ∧ Numeral.read? t.text = none ∧
        v.action x t = .error (.badNumber t.text) := by
  unfold Known at h
  unfold Vocabulary.action
  cases hk : t.kind <;> simp only [hk] at h
  case number =>
    cases hr : Numeral.read? t.text with
    | none => exact .inr ⟨rfl, rfl, rfl⟩
    | some r => exact .inl ⟨.push r, rfl⟩
  case var => exact .inl ⟨.push x, rfl⟩
  case constant =>
    obtain ⟨r, hr⟩ := Option.isSome_iff_exists.mp h
    exact .inl ⟨.push r, by simp [hr]⟩
  case unaryFn =>
    obtain ⟨f, hf⟩ := Option.isSome_iff_exists.mp h
    exact .inl ⟨.map f, by simp [hf]⟩
  case binaryFn =>
    obtain ⟨f, hf⟩ := Option.isSome_iff_exists.mp h
    exact .inl ⟨.merge f, by simp [hf]⟩
  case binaryOp =>
    obtain ⟨op, hop⟩ := h
    exact .inl ⟨.merge op.apply, by simp [hop, leading?_symbol]⟩
  case bracket => exact absurd hk hb

end Token.Known

namespace Vocabulary

variable {v : Vocabulary} {x : Binary64} {ts : List Token} {e : Fault}

theorem step_error {t : Token} {stack : List Binary64} (hk : t.Known v) (hb : t.kind ≠ .bracket)
    (h : v.step x stack t = .error e) :
    e = .missingOperand t.text ∨
      t.kind = .number ∧ Numeral.read? t.text = none ∧ e = .badNumber t.text := by
  rcases bind_eq_error_iff.mp h with h | ⟨a, -, h⟩
  · rcases hk.action hb x with ⟨a, ha⟩ | ⟨hnum, hnone, herror⟩
    · rw [ha] at h
      cases h
    · rw [herror] at h
      cases h
      exact .inr ⟨hnum, hnone, rfl⟩
  · split at h <;> cases h
    exact .inl rfl

theorem foldlM_error {stack : List Binary64} (hk : ∀ t ∈ ts, t.Known v)
    (hb : ∀ t ∈ ts, t.kind ≠ .bracket) (h : ts.foldlM (v.step x) stack = .error e) :
    ∃ t ∈ ts, e = .missingOperand t.text ∨
      t.kind = .number ∧ Numeral.read? t.text = none ∧ e = .badNumber t.text := by
  induction ts generalizing stack with
  | nil => cases h
  | cons t ts ih =>
    obtain ⟨hkt, hk⟩ := List.forall_mem_cons.mp hk
    obtain ⟨hbt, hb⟩ := List.forall_mem_cons.mp hb
    rw [List.foldlM_cons] at h
    rcases bind_eq_error_iff.mp h with h | ⟨next, -, h⟩
    · exact ⟨t, by simp, step_error hkt hbt h⟩
    · obtain ⟨u, hu, hcases⟩ := ih hk hb h
      exact ⟨u, by simp [hu], hcases⟩

theorem value_error (h : v.value x ts = .error e) :
    ts.foldlM (v.step x) [] = .error e ∨
      ∃ stack, ts.foldlM (v.step x) [] = .ok stack ∧ stack.length ≠ 1 ∧
        e = .notOneValue stack.length := by
  rcases bind_eq_error_iff.mp h with h | ⟨stack, hs, h⟩
  · exact .inl h
  · split at h <;> cases h
    rename_i hone
    refine .inr ⟨stack, hs, fun hlength => ?_, rfl⟩
    obtain ⟨r, rfl⟩ := List.length_eq_one_iff.mp hlength
    exact hone r rfl

end Vocabulary

/-- What can go wrong in the evaluation of a list. -/
inductive Mishap (ts : List Token) : Fault → Prop
  | badNumber {t} (ht : t ∈ ts) (hk : t.kind = .number) (hn : 2 ≤ t.text.toList.count '.') :
      Mishap ts (.badNumber t.text)
  | missingOperand {t} (ht : t ∈ ts) : Mishap ts (.missingOperand t.text)
  | notOneValue (n : Nat) : Mishap ts (.notOneValue n)

namespace Mishap

variable {ts : List Token} {e : Fault}

theorem ne_strayToken (h : Mishap ts e) (text : String) : e ≠ .strayToken text := by
  cases h <;> nofun

/-- No other stage takes these for its own. -/
theorem category (h : Mishap ts e) : e.category ≠ .lexical ∧ e.category ≠ .bracketing := by
  cases h <;> exact ⟨nofun, nofun⟩

/-- Tokens that are spelled by one vocabulary and known to another have no other mishaps. -/
theorem of_value {v w : Vocabulary} {x : Binary64} (hs : ∀ t ∈ ts, t.Spelled v)
    (hk : ∀ t ∈ ts, t.Known w) (hb : ∀ t ∈ ts, t.kind ≠ .bracket)
    (h : w.value x ts = .error e) : Mishap ts e := by
  rcases Vocabulary.value_error h with h | ⟨stack, -, -, rfl⟩
  · obtain ⟨t, ht, rfl | ⟨hnum, hnone, rfl⟩⟩ := Vocabulary.foldlM_error hk hb h
    · exact .missingOperand ht
    · refine .badNumber ht hnum (Nat.lt_of_not_le fun hle => ?_)
      have hsome := ((hs t ht).read?_isSome_iff hnum).mpr hle
      rw [hnone] at hsome
      cases hsome
  · exact .notOneValue stack.length

end Mishap

/-! ## All ways to a value -/

namespace Vocabulary

variable {v : Vocabulary} {text : String} {x : Binary64} {e : Fault}

/-- What can go wrong with a formula, now or when its vocabulary has grown. -/
theorem mishap_of_compile {f : Formula} (h : (v.compile text).outcome = .ok f)
    (ds : List Definition) (he : ((ds.foldl define v).evaluate f.tokens x).outcome = .error e) :
    Mishap f.tokens e := by
  rw [evaluate_outcome] at he
  exact .of_value (spelled_of_compile h)
    (fun t ht => (spelled_of_compile h t ht).known.defineAll ds) (bare_of_compile h) he

theorem calculate_error (h : (v.calculate text x).outcome = .error e) :
    (v.compile text).outcome = .error e ∨
      ∃ f, (v.compile text).outcome = .ok f ∧ Mishap f.tokens e := by
  rw [calculate, Logged.outcome_bind] at h
  rcases bind_eq_error_iff.mp h with h | ⟨f, hf, h⟩
  · exact .inl h
  · refine .inr ⟨f, hf, mishap_of_compile hf [] (x := x) ?_⟩
    obtain ⟨ts, ordered, -, -, rfl⟩ := compile_eq_ok_iff.mp hf
    exact h

theorem compile_error (h : (v.compile text).outcome = .error e) :
    e.category = .lexical ∨ e.category = .bracketing := by
  rw [compile_outcome] at h
  rcases bind_eq_error_iff.mp h with h | ⟨ts, -, h⟩
  · rcases tokenize_error h with rfl | ⟨name, rfl⟩ <;> exact .inl rfl
  · rcases bind_eq_error_iff.mp h with h | ⟨ordered, -, h⟩
    · rcases postfixOrder_error h with rfl | rfl <;> exact .inr rfl
    · cases h

theorem calculatePostfix_error (h : (v.calculatePostfix text x).outcome = .error e) :
    (v.tokenize text).outcome = .error e ∨ ∃ ts, Mishap ts e := by
  rw [calculatePostfix_outcome] at h
  rcases bind_eq_error_iff.mp h with h | ⟨ts, hts, h⟩
  · exact .inl h
  · have hmem {t : Token} (ht : t ∈ unbracketed ts) : t ∈ ts ∧ t.kind ≠ .bracket := by
      simpa [unbracketed] using ht
    exact .inr ⟨_, .of_value (fun t ht => spelled_of_tokenize hts t (hmem ht).1)
      (fun t ht => known_of_tokenize hts t (hmem ht).1) (fun t ht => (hmem ht).2) h⟩

/-- A formula meets no unknown name and no token out of place, however much its vocabulary has
grown since. No way to a value meets a token out of place, and what is taken to be in postfix
order meets no bracket either. -/
theorem evaluate_compiled_faults (v : Vocabulary) (text : String) :
    (∀ f, (v.compile text).outcome = .ok f → ∀ (ds : List Definition) (x : Binary64) (e : Fault),
      ((ds.foldl define v).evaluate f.tokens x).outcome = .error e → Mishap f.tokens e) ∧
    (∀ x t, (v.calculate text x).outcome ≠ .error (.strayToken t) ∧
      (v.explain text x).outcome ≠ .error (.strayToken t)) ∧
    ∀ x, (∀ t, (v.calculatePostfix text x).outcome ≠ .error (.strayToken t)) ∧
      (v.calculatePostfix text x).outcome ≠ .error .unopenedBracket ∧
      (v.calculatePostfix text x).outcome ≠ .error .unclosedBracket := by
  have hcalculate (x : Binary64) (t : String) :
      (v.calculate text x).outcome ≠ .error (.strayToken t) := by
    intro h
    rcases calculate_error h with h | ⟨f, -, h⟩
    · rcases compile_error h with h | h <;> cases h
    · exact h.ne_strayToken t rfl
  have htaken {x : Binary64} {e : Fault} (h : (v.calculatePostfix text x).outcome = .error e) :
      (∀ t, e ≠ .strayToken t) ∧ e.category ≠ .bracketing := by
    rcases calculatePostfix_error h with h | ⟨ts, h⟩
    · rcases tokenize_error h with rfl | ⟨name, rfl⟩ <;> exact ⟨nofun, nofun⟩
    · exact ⟨h.ne_strayToken, h.category.2⟩
  refine ⟨fun f hf ds x e he => mishap_of_compile hf ds he, fun x t => ⟨hcalculate x t, ?_⟩,
    fun x => ⟨fun t h => (htaken h).1 t rfl, fun h => (htaken h).2 rfl,
      fun h => (htaken h).2 rfl⟩⟩
  intro h
  have hvalue := v.explain_value text x
  rw [h] at hvalue
  exact hcalculate x t hvalue.symm

/-- A constant that has become a function is still the constant that it was compiled as. -/
theorem evaluate_compiled_faults_shadowed :
    ∃ f, (standard.compile "pi*1.2.3").outcome = .ok f ∧
      (([.unary "pi" sign, .binary "pi" logarithm].foldl define standard).evaluate
        f.tokens 0).outcome = .error (.badNumber "1.2.3") ∧
      Mishap f.tokens (.badNumber "1.2.3") := by
  have hf : (standard.compile "pi*1.2.3").outcome =
      .ok ⟨standard, [⟨.constant, "pi"⟩, ⟨.number, "1.2.3"⟩, .ofOperator .mul]⟩ :=
    compile_eq_ok_iff.mpr ⟨[⟨.constant, "pi"⟩, .ofOperator .mul, ⟨.number, "1.2.3"⟩], _,
      by decide, by decide, rfl⟩
  have he : (([.unary "pi" sign, .binary "pi" logarithm].foldl define standard).evaluate
      [⟨.constant, "pi"⟩, ⟨.number, "1.2.3"⟩, .ofOperator .mul] 0).outcome =
        .error (.badNumber "1.2.3") := by
    decide +kernel
  obtain ⟨hmishap, -, -⟩ := evaluate_compiled_faults standard "pi*1.2.3"
  exact ⟨_, hf, he, hmishap _ hf _ 0 _ he⟩

end Vocabulary

end PostfixCalc

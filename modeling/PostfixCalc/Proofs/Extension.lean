import PostfixCalc.Proofs.Reading
import PostfixCalc.Proofs.Stack
import PostfixCalc.Vocabulary.Standard

/-! # Extending the vocabulary

Names are looked up twice: while a text is read, when the first kind with a meaning decides
the token, and again in the evaluation, by the kind of the token. A definition changes one of
the two only for its own name, and neither when the name has a meaning already of a kind that
goes before. So it matters to no text that does not come to its name, in particular to none
that fails before it does. -/

namespace PostfixCalc

/-- The kinds of tokens that stand for a name. -/
def Kind.isName : Kind → Bool
  | .unaryFn | .binaryFn | .constant => true
  | _ => false

theorem Definition.isName_kind (d : Definition) : d.kind.isName = true := by
  cases d <;> rfl

namespace Vocabulary

/-- The names that are looked up in a list of lexemes: those up to the first without a meaning. -/
def lookups (v : Vocabulary) : List Lexeme → List String
  | [] => []
  | .word name :: ls => name :: if (v.kind? name).isSome then v.lookups ls else []
  | _ :: ls => v.lookups ls

/-- The names that are looked up while a text is read. -/
def lookedUp (v : Vocabulary) (text : String) : List String :=
  v.lookups (Lexeme.split (unblanked text))

/-- Whether a definition goes unseen: its name has a meaning of a kind that goes before. -/
def Hides (v : Vocabulary) : Definition → Prop
  | .unary _ _ => False
  | .binary name _ => (v.unary name).isSome = true
  | .constant name _ => (v.unary name).isSome = true ∨ (v.binary name).isSome = true

/-! ## Reading -/

section Reading

variable {v w : Vocabulary}

/-- Reading knows of a vocabulary no more than the kinds of the names that are looked up. -/
theorem readLexemes_congr {ls : List Lexeme}
    (h : ∀ name ∈ v.lookups ls, w.kind? name = v.kind? name) (signed : Bool) :
    w.readLexemes signed ls = v.readLexemes signed ls := by
  induction ls generalizing signed with
  | nil => rfl
  | cons l ls ih =>
    cases l with
    | word name =>
      obtain ⟨hname, hrest⟩ := List.forall_mem_cons.mp h
      have hnow : w.readLexeme signed (.word name) = v.readLexeme signed (.word name) := by
        simp only [readLexeme, hname]
      rw [readLexemes, readLexemes, hnow]
      cases hkind : v.kind? name with
      | none => simp only [readLexeme, hkind, Logged.fail, Logged.lift, bind]
      | some kind =>
        rw [hkind] at hrest
        rw [ih hrest]
    | var _ | operator _ | opening | closing | numeral _ | other _ =>
      rw [readLexemes, readLexemes, ih h]
      rfl

theorem tokenize_congr {text : String} (h : ∀ name ∈ v.lookedUp text, w.kind? name = v.kind? name) :
    w.tokenize text = v.tokenize text := by
  rw [tokenize_eq, tokenize_eq, readLexemes_congr h]

/-- Only a word reads as a token that stands for a name, and as one of the kind of the name. -/
theorem word_of_readLexeme {signed : Bool} {l : Lexeme} {ts : List Token} {t : Token}
    (h : (v.readLexeme signed l).outcome = .ok ts) (ht : t ∈ ts) (hk : t.kind.isName = true) :
    l = .word t.text ∧ v.kind? t.text = some t.kind := by
  cases l with
  | word name =>
    simp only [readLexeme] at h
    split at h
    · cases h
      cases List.mem_singleton.mp ht
      exact ⟨rfl, ‹_›⟩
    · cases h
  | operator op =>
    cases h
    split at ht
    · rcases List.mem_pair.mp ht with rfl | rfl <;> cases hk
    · cases List.mem_singleton.mp ht
      cases hk
  | var _ | opening | closing | numeral _ =>
    cases h
    cases List.mem_singleton.mp ht
    cases hk
  | other c =>
    cases h
    cases ht

/-- Past a lexeme that is read the names of the rest are looked up too. -/
theorem lookups_subset {signed : Bool} {l : Lexeme} {now : List Token}
    (h : (v.readLexeme signed l).outcome = .ok now) (ls : List Lexeme) :
    v.lookups ls ⊆ v.lookups (l :: ls) := by
  cases l with
  | word name =>
    simp only [readLexeme] at h
    split at h
    · rename_i kind hkind
      simp [lookups, hkind]
    · cases h
  | var _ | operator _ | opening | closing | numeral _ | other _ => exact List.Subset.refl _

/-- The tokens that stand for names have been looked up. -/
theorem lookups_of_readLexemes {signed : Bool} {ls : List Lexeme} {ts : List Token}
    (h : (v.readLexemes signed ls).outcome = .ok ts) :
    ∀ t ∈ ts, t.kind.isName = true → t.text ∈ v.lookups ls ∧ v.kind? t.text = some t.kind := by
  induction ls generalizing signed ts with
  | nil =>
    cases h
    simp
  | cons l ls ih =>
    rw [readLexemes_cons] at h
    obtain ⟨now, hnow, h⟩ := bind_eq_ok_iff.mp h
    obtain ⟨rest, hrest, h⟩ := bind_eq_ok_iff.mp h
    cases h
    intro t ht hk
    rcases List.mem_append.mp ht with ht | ht
    · obtain ⟨rfl, hmeaning⟩ := word_of_readLexeme hnow ht hk
      exact ⟨List.mem_cons_self, hmeaning⟩
    · obtain ⟨hmem, hmeaning⟩ := ih hrest t ht hk
      exact ⟨lookups_subset hnow ls hmem, hmeaning⟩

theorem lookedUp_of_tokenize {text : String} {ts : List Token}
    (h : (v.tokenize text).outcome = .ok ts) :
    ∀ t ∈ ts, t.kind.isName = true → t.text ∈ v.lookedUp text ∧ v.kind? t.text = some t.kind :=
  lookups_of_readLexemes (v.tokenize_eq_ok_iff.mp h).2

end Reading

/-! ## What a definition changes -/

section Define

variable {v : Vocabulary} {d : Definition}

/-- The meanings of the other names stay, of each kind. -/
theorem define_of_ne (v : Vocabulary) {name : String} (h : name ≠ d.name) :
    (v.define d).unary name = v.unary name ∧ (v.define d).binary name = v.binary name ∧
      (v.define d).constant name = v.constant name := by
  cases d with
  | unary _ _ => exact ⟨if_neg h, rfl, rfl⟩
  | binary _ _ => exact ⟨rfl, if_neg h, rfl⟩
  | constant _ _ => exact ⟨rfl, rfl, if_neg h⟩

/-- A definition changes the kind of its own name only, and not when it goes unseen. -/
theorem kind?_define {name : String} (h : name ≠ d.name ∨ v.Hides d) :
    (v.define d).kind? name = v.kind? name := by
  by_cases hname : name = d.name
  · subst hname
    have hhides := h.resolve_left fun hne => hne rfl
    cases d with
    | unary name f => exact hhides.elim
    | binary name f =>
      have hunary : (v.unary name).isSome = true := hhides
      simp [kind?, define, Definition.name, hunary]
    | constant name value =>
      have hfirst : (v.unary name).isSome = true ∨ (v.binary name).isSome = true := hhides
      rcases hfirst with hfirst | hfirst <;> simp [kind?, define, Definition.name, hfirst]
  · obtain ⟨hunary, hbinary, hconstant⟩ := v.define_of_ne hname
    rw [kind?, kind?, hunary, hbinary, hconstant]

/-- A name whose definition goes unseen stands for another kind. -/
theorem Hides.kind?_ne (h : v.Hides d) : v.kind? d.name ≠ some d.kind := by
  cases d with
  | unary name f => exact h.elim
  | binary name f =>
    have hunary : (v.unary name).isSome = true := h
    simp [kind?, Definition.name, Definition.kind, hunary]
  | constant name value =>
    have hfirst : (v.unary name).isSome = true ∨ (v.binary name).isSome = true := h
    change v.kind? name ≠ some .constant
    unfold kind?
    split
    · nofun
    · rw [if_pos (hfirst.resolve_left ‹_›)]
      nofun

/-- A definition changes what a token does only for tokens of its kind with its name. -/
theorem action_define {t : Token} (h : t.kind = d.kind → t.text ≠ d.name) (x : Binary64) :
    (v.define d).action x t = v.action x t := by
  unfold action
  cases hk : t.kind <;> cases d <;> simp_all [define, Definition.kind, Definition.name]

end Define

/-! ## Evaluation -/

section Evaluation

variable {v w : Vocabulary} {x : Binary64} {ts : List Token}

theorem foldlM_congr (h : ∀ t ∈ ts, w.action x t = v.action x t) (stack : List Binary64) :
    ts.foldlM (w.step x) stack = ts.foldlM (v.step x) stack := by
  induction ts generalizing stack with
  | nil => rfl
  | cons t ts ih =>
    obtain ⟨ht, hts⟩ := List.forall_mem_cons.mp h
    have hstep : w.step x stack t = v.step x stack t := by rw [step, step, ht]
    rw [List.foldlM_cons, List.foldlM_cons, hstep]
    exact bind_congr fun next => ih hts next

/-- An evaluation knows of a vocabulary no more than what the tokens of the list do. -/
theorem evaluate_congr (h : ∀ t ∈ ts, w.action x t = v.action x t) :
    w.evaluate ts x = v.evaluate ts x := by
  rw [evaluate, evaluate, value, value, foldlM_congr h]

end Evaluation

/-! ## Compiling -/

section Compile

variable {v : Vocabulary} {d : Definition} {text : String}

theorem tokenize_define (h : d.name ∉ v.lookedUp text ∨ v.Hides d) :
    (v.define d).tokenize text = v.tokenize text := by
  refine tokenize_congr fun name hname => kind?_define ?_
  exact h.imp_left fun hnot heq => hnot (heq ▸ hname)

/-- No token of a text is of the kind of a new definition and has its name, unless the name is
looked up and the definition seen. -/
theorem ne_name_of_tokenize {ts : List Token} (h : d.name ∉ v.lookedUp text ∨ v.Hides d)
    (hts : (v.tokenize text).outcome = .ok ts) :
    ∀ t ∈ ts, t.kind = d.kind → t.text ≠ d.name := by
  intro t ht hkind hname
  have hisName : t.kind.isName = true := by rw [hkind, d.isName_kind]
  obtain ⟨hmem, hmeaning⟩ := lookedUp_of_tokenize hts t ht hisName
  rw [hname] at hmem hmeaning
  rw [hkind] at hmeaning
  rcases h with hnot | hhides
  · exact hnot hmem
  · exact hhides.kind?_ne hmeaning

/-- Compiling, but for the vocabulary that the formula keeps. -/
theorem tokens_compile (v : Vocabulary) (text : String) :
    Formula.tokens <$> v.compile text =
      Logged.emit (.compiling text) >>= fun _ => v.tokenize text >>= toPostfix := by
  simp [compile]

/-- A definition that a text does not come to, or that goes unseen, changes nothing in the log
of its compilation, no fault, no token of the formula and nothing in the evaluation. -/
theorem compile_define (v : Vocabulary) (d : Definition) (text : String)
    (h : d.name ∉ v.lookedUp text ∨ v.Hides d) :
    ((v.define d).compile text).records = (v.compile text).records ∧
    ((∃ e, (v.compile text).outcome = .error e ∧
        ((v.define d).compile text).outcome = .error e) ∨
      ∃ f g, (v.compile text).outcome = .ok f ∧ ((v.define d).compile text).outcome = .ok g ∧
        g.tokens = f.tokens ∧ ∀ x, g x = f x) := by
  have hread := tokenize_define h
  constructor
  · have htokens : Formula.tokens <$> (v.define d).compile text =
        Formula.tokens <$> v.compile text := by
      rw [tokens_compile, tokens_compile, hread]
    rw [← Logged.records_map Formula.tokens, htokens, Logged.records_map]
  · rw [compile_outcome, compile_outcome, hread]
    cases hts : (v.tokenize text).outcome with
    | error e => exact .inl ⟨e, rfl, rfl⟩
    | ok ts =>
      rw [ok_bind, ok_bind]
      cases hord : postfixOrder ts with
      | error e => exact .inl ⟨e, rfl, rfl⟩
      | ok ordered =>
        refine .inr ⟨_, _, rfl, rfl, rfl, fun x => evaluate_congr fun t ht => ?_⟩
        exact action_define
          (ne_name_of_tokenize h hts t (mem_of_mem_postfixOrder hord ht)) x

/-- A name behind one that is unknown, and a constant with the name of a function. -/
theorem compile_define_log :
    "tau" ∉ standard.lookedUp "2*foo(tau)" ∧
    ((standard.define (.constant "tau" 6)).compile "2*foo(tau)").outcome.map Formula.tokens =
      .error (.unknownName "foo") ∧
    standard.Hides (.constant "log" 1) ∧
    ∃ f g, (standard.compile "log(8,x)").outcome = .ok f ∧
      ((standard.define (.constant "log" 1)).compile "log(8,x)").outcome = .ok g ∧
        g.tokens = f.tokens ∧ ∀ x, g x = f x := by
  have hlate : "tau" ∉ standard.lookedUp "2*foo(tau)" := by decide
  have hfoo : (standard.tokenize "2*foo(tau)").outcome = .error (.unknownName "foo") := by decide
  have hhides : standard.Hides (.constant "log" 1) := .inr rfl
  refine ⟨hlate, ?_, hhides, ?_⟩
  · obtain ⟨-, ⟨e, he, he'⟩ | ⟨f, g, hf, -⟩⟩ :=
      compile_define standard (.constant "tau" 6) "2*foo(tau)" (.inl hlate)
    · rw [compile_outcome, hfoo] at he
      cases he
      rw [he']
      rfl
    · rw [compile_outcome, hfoo] at hf
      cases hf
  · obtain ⟨-, ⟨e, he, -⟩ | hok⟩ :=
      compile_define standard (.constant "log" 1) "log(8,x)" (.inr hhides)
    · have hcall : (standard.compile "log(8,x)").outcome =
          .ok ⟨standard, [⟨.number, "8"⟩, ⟨.var, "x"⟩, ⟨.binaryFn, "log"⟩]⟩ :=
        compile_eq_ok_iff.mpr ⟨[⟨.binaryFn, "log"⟩, .opening, ⟨.number, "8"⟩, ⟨.var, "x"⟩,
          .closing], _, by decide, by decide, rfl⟩
      cases hcall.symm.trans he
    · exact hok

end Compile

end Vocabulary

end PostfixCalc

import PostfixCalc.Proofs.Written

/-! # How tokens are spelled

A token that was read can be read again: its text, with the vocabulary, tells what kind it
is of. Such a token means what its kind promises, its numeral is at fault only with a second
point, and its text by itself, which holds no blank, reads as the token. Only a minus brings
something with it, a zero where it is a sign. -/

namespace PostfixCalc

namespace Lexeme

/-- What a lexeme that holds a text, or a character that means nothing, is made of. -/
def Formed : Lexeme → Prop
  | word text => IsWord text.toList
  | numeral text => IsNumeral text.toList
  | other c => meaningless c = true
  | _ => True

theorem formed_start (c : Char) : (start c).Formed := by
  have hstart := Start.of_start c
  generalize start c = l at hstart ⊢
  cases hstart with
  | word hc hx hX => simpa [Formed] using IsWord.singleton hc hx hX
  | numeral hc => simpa [Formed] using IsNumeral.singleton hc
  | other hc => exact hc
  | small | capital | operator _ | opening | closing => trivial

theorem formed_extend {l m : Lexeme} {c : Char} (hl : l.Formed) (h : l.extend? c = some m) :
    m.Formed := by
  unfold extend? at h
  split at h
  next text _ =>
    split at h <;> cases h
    rename_i hc
    simpa [Formed] using IsWord.concat hl hc
  next text _ =>
    split at h <;> cases h
    rename_i hc
    simpa [Formed] using IsNumeral.concat hl (by simpa using hc)
  next => cases h

theorem formed_scan {l : Lexeme} (hl : l.Formed) (cs : List Char) : ∀ m ∈ l.scan cs, m.Formed := by
  induction cs generalizing l with
  | nil => simpa [scan] using hl
  | cons c cs ih =>
    unfold scan
    split
    · rename_i longer h
      exact ih (formed_extend hl h)
    · exact List.forall_mem_cons.mpr ⟨hl, ih (formed_start c)⟩

theorem formed_split (cs : List Char) : ∀ l ∈ split cs, l.Formed := by
  cases cs with
  | nil => simp [split]
  | cons c cs => exact formed_scan (formed_start c) cs

end Lexeme

/-- The text of a token is one that reads as a token of its kind. -/
inductive Token.Spelled (v : Vocabulary) : Token → Prop
  | number {cs} (h : IsNumeral cs) : Spelled v ⟨.number, String.ofList cs⟩
  | var {c} (hc : c = 'x' ∨ c = 'X') : Spelled v ⟨.var, String.singleton c⟩
  | operator (op : Operator) : Spelled v (.ofOperator op)
  | opening : Spelled v .opening
  | closing : Spelled v .closing
  | name {kind w} (hw : v.Names kind w) : Spelled v ⟨kind, String.ofList w⟩

/-! ## What is read is spelled -/

namespace Vocabulary

variable {v : Vocabulary}

/-- A name stands for a function or a constant. -/
theorem kind?_ne {name : String} {kind : Kind} (h : v.kind? name = some kind) :
    kind ≠ .number ∧ kind ≠ .binaryOp := by
  unfold kind? at h
  repeat' split at h
  all_goals cases h
  all_goals decide

theorem spelled_of_readLexeme {signed : Bool} {l : Lexeme} {ts : List Token} (hl : l.Formed)
    (h : (v.readLexeme signed l).outcome = .ok ts) : ∀ t ∈ ts, t.Spelled v := by
  cases l with
  | var capital =>
    cases h
    rw [List.forall_mem_singleton]
    cases capital
    · exact .var (.inl rfl)
    · exact .var (.inr rfl)
  | operator op =>
    have hzero : Token.Spelled v ⟨.number, "0"⟩ :=
      @Token.Spelled.number v ['0'] (.singleton rfl)
    simp only [readLexeme, Logged.outcome_pure, Except.ok.injEq] at h
    split at h <;> cases h
    · exact List.forall_mem_cons.mpr ⟨hzero, List.forall_mem_singleton.mpr (.operator op)⟩
    · exact List.forall_mem_singleton.mpr (.operator op)
  | opening =>
    cases h
    exact List.forall_mem_singleton.mpr .opening
  | closing =>
    cases h
    exact List.forall_mem_singleton.mpr .closing
  | word text =>
    simp only [readLexeme] at h
    split at h
    · rename_i kind hkind
      cases h
      have hw : v.Names kind text.toList := ⟨hl, by rwa [String.ofList_toList]⟩
      exact List.forall_mem_singleton.mpr (by simpa using Token.Spelled.name hw)
    · cases h
  | numeral text =>
    cases h
    exact List.forall_mem_singleton.mpr (by simpa using Token.Spelled.number hl)
  | other c =>
    cases h
    simp

theorem spelled_of_readLexemes {signed : Bool} {ls : List Lexeme} {ts : List Token}
    (hls : ∀ l ∈ ls, l.Formed) (h : (v.readLexemes signed ls).outcome = .ok ts) :
    ∀ t ∈ ts, t.Spelled v := by
  induction ls generalizing signed ts with
  | nil =>
    cases h
    simp
  | cons l ls ih =>
    obtain ⟨hl, hls⟩ := List.forall_mem_cons.mp hls
    rw [readLexemes_cons] at h
    obtain ⟨now, hnow, h⟩ := bind_eq_ok_iff.mp h
    obtain ⟨rest, hrest, h⟩ := bind_eq_ok_iff.mp h
    cases h
    exact List.forall_mem_append.mpr ⟨spelled_of_readLexeme hl hnow, ih hls hrest⟩

/-- The tokens of a text are spelled. -/
theorem spelled_of_tokenize {text : String} {ts : List Token}
    (h : (v.tokenize text).outcome = .ok ts) : ∀ t ∈ ts, t.Spelled v :=
  spelled_of_readLexemes (Lexeme.formed_split _) (v.tokenize_eq_ok_iff.mp h).2

end Vocabulary

/-! ## What is spelled is known, and reads as itself -/

/-- A token as it is read, with a zero before it if it is a minus where a minus is a sign. -/
def Token.readAs (signed : Bool) (t : Token) : List Token :=
  if signed && t = .ofOperator .sub then [⟨.number, "0"⟩, t] else [t]

namespace Token.Spelled

variable {v : Vocabulary} {t : Token}

theorem known (h : t.Spelled v) : t.Known v := by
  cases h with
  | number _ => trivial
  | var _ => trivial
  | operator op => exact ⟨op, rfl⟩
  | opening => exact .inl rfl
  | closing => exact .inr rfl
  | name hw => exact known_of_kind? hw.meaning

/-- A numeral that is not read has a second point. -/
theorem read?_isSome_iff (h : t.Spelled v) (hk : t.kind = .number) :
    (Numeral.read? t.text).isSome = true ↔ t.text.toList.count '.' ≤ 1 := by
  cases h with
  | number h => rw [Numeral.read?_isSome_iff h, String.toList_ofList]
  | var _ => cases hk
  | operator _ => cases hk
  | opening => cases hk
  | closing => cases hk
  | name hw => exact absurd hk (Vocabulary.kind?_ne hw.meaning).1

theorem not_blank (h : t.Spelled v) : ∀ c ∈ t.text.toList, isBlank c = false := by
  cases h with
  | number h =>
    rw [String.toList_ofList]
    exact h.not_blank
  | var hc =>
    rw [String.toList_singleton, List.forall_mem_singleton]
    rcases hc with rfl | rfl <;> decide
  | operator op =>
    rw [ofOperator, String.toList_singleton, List.forall_mem_singleton]
    cases op <;> decide
  | opening => exact List.forall_mem_singleton.mpr (by decide)
  | closing => exact List.forall_mem_singleton.mpr (by decide)
  | name hw =>
    rw [String.toList_ofList]
    exact hw.not_blank

/-- By itself the text of a token reads as the token. -/
theorem read (h : t.Spelled v) (signed : Bool) :
    v.read signed t.text.toList = .ok (t.readAs signed) := by
  have hplain (hk : t.kind ≠ .binaryOp) : t.readAs signed = [t] := by
    have hne : t ≠ ofOperator .sub := fun he => hk (he ▸ rfl)
    simp [readAs, hne]
  cases h with
  | number h =>
    rw [hplain nofun, String.toList_ofList]
    exact v.read_numeral h signed
  | var hc =>
    rw [hplain nofun]
    rcases hc with rfl | rfl <;> rfl
  | operator op => cases op <;> cases signed <;> rfl
  | opening =>
    rw [hplain nofun]
    rfl
  | closing =>
    rw [hplain nofun]
    rfl
  | name hw =>
    rw [hplain (Vocabulary.kind?_ne hw.meaning).2, String.toList_ofList]
    exact hw.read signed

end Token.Spelled

namespace Vocabulary

variable {v : Vocabulary} {text : String} {ts : List Token} {f : Formula}

theorem known_of_tokenize (h : (v.tokenize text).outcome = .ok ts) : ∀ t ∈ ts, t.Known v :=
  fun t ht => (spelled_of_tokenize h t ht).known

/-- A formula is made of tokens of its text. -/
theorem spelled_of_compile (h : (v.compile text).outcome = .ok f) :
    ∀ t ∈ f.tokens, t.Spelled v := by
  obtain ⟨ts, ordered, hts, hord, rfl⟩ := compile_eq_ok_iff.mp h
  exact fun t ht => spelled_of_tokenize hts t (mem_of_mem_postfixOrder hord ht)

theorem bare_of_compile (h : (v.compile text).outcome = .ok f) :
    ∀ t ∈ f.tokens, t.kind ≠ .bracket := by
  obtain ⟨ts, ordered, -, hord, rfl⟩ := compile_eq_ok_iff.mp h
  exact postfixOrder_bare hord

end Vocabulary

end PostfixCalc

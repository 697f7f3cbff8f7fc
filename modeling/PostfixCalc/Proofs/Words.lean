import PostfixCalc.Proofs.Boundary

/-! # Words, and what a text decides

The words of a text are seen without reading it: in each run of letters the variables at its
start are tokens of their own, and the rest of the run is a word. The first word that has no
meaning is the only fault a text can have that is not empty, and if there is none, then the
text of each token tells its kind. -/

namespace PostfixCalc

/-! ## Words -/

/-- The runs of letters of a text, an empty one where two characters next to each other are none. -/
def letterRuns (cs : List Char) : List (List Char) :=
  cs.splitOnP (!isLetter ·)

/-- The part of a run of letters that is a word: all from the first letter that is no variable. -/
def wordOfRun (run : List Char) : List Char :=
  run.dropWhile fun c => c = 'x' || c = 'X'

def wordsOfRuns (runs : List (List Char)) : List String :=
  ((runs.map wordOfRun).filter (!·.isEmpty)).map String.ofList

/-- The words of a text, in order. -/
def words (cs : List Char) : List String :=
  wordsOfRuns (letterRuns cs)

theorem exists_letterRuns (cs : List Char) : ∃ run runs, letterRuns cs = run :: runs :=
  List.exists_cons_of_ne_nil (List.splitOnP_ne_nil _ cs)

theorem letterRuns_cons (c : Char) (cs : List Char) :
    letterRuns (c :: cs) =
      if isLetter c then (letterRuns cs).modifyHead (c :: ·) else [] :: letterRuns cs := by
  rw [letterRuns, List.splitOnP_cons_eq_if_modifyHead]
  cases isLetter c <;> rfl

theorem wordsOfRuns_cons_nil (runs : List (List Char)) :
    wordsOfRuns ([] :: runs) = wordsOfRuns runs := by
  simp [wordsOfRuns, wordOfRun]

theorem wordsOfRuns_cons_var {c : Char} (hc : c = 'x' ∨ c = 'X') (run : List Char)
    (runs : List (List Char)) : wordsOfRuns ((c :: run) :: runs) = wordsOfRuns (run :: runs) := by
  simp [wordsOfRuns, wordOfRun, hc]

theorem wordsOfRuns_cons_of_ne {c : Char} (hx : c ≠ 'x') (hX : c ≠ 'X') (run : List Char)
    (runs : List (List Char)) :
    wordsOfRuns ((c :: run) :: runs) = String.ofList (c :: run) :: wordsOfRuns runs := by
  simp [wordsOfRuns, wordOfRun, hx, hX]

namespace Lexeme

variable {l m : Lexeme} {c : Char}

def word? : Lexeme → Option String
  | word name => some name
  | _ => none

/-- The words of a lexeme that is not yet closed and of the runs after it, the first of which
goes on a word. -/
def openWords : Lexeme → List (List Char) → List String
  | word name, run :: runs => (name ++ String.ofList run) :: wordsOfRuns runs
  | _, runs => wordsOfRuns runs

theorem openWords_of_not_word (hl : l.word? = none) (runs : List (List Char)) :
    l.openWords runs = wordsOfRuns runs := by
  cases l with
  | word _ => cases hl
  | _ => rfl

/-- Where no letter goes on it, a lexeme is closed. -/
theorem openWords_cons_nil (l : Lexeme) (runs : List (List Char)) :
    l.openWords ([] :: runs) = l.word?.toList ++ wordsOfRuns runs := by
  cases l with
  | word name => simp [openWords, word?]
  | _ => simp [openWords, word?, wordsOfRuns_cons_nil]

theorem word?_start (hc : isLetter c = false) : (start c).word? = none := by
  have hstart := Start.of_start c
  generalize start c = l at hstart ⊢
  cases hstart with
  | word hletter _ _ => simp [hc] at hletter
  | small | capital | operator _ | opening | closing | numeral _ | other _ => rfl

/-- A letter that begins a lexeme begins a word, unless it is a variable. -/
theorem openWords_start (hc : isLetter c = true) (run : List Char) (runs : List (List Char)) :
    (start c).openWords (run :: runs) = wordsOfRuns ((c :: run) :: runs) := by
  by_cases hx : c = 'x' ∨ c = 'X'
  · rw [wordsOfRuns_cons_var hx]
    rcases hx with rfl | rfl <;> rfl
  · obtain ⟨hx, hX⟩ := not_or.mp hx
    rw [start_of_isLetter hc hx hX, wordsOfRuns_cons_of_ne hx hX, openWords]
    congr 1
    apply String.toList_inj.mp
    simp

/-- A character that goes on a lexeme ends no word and begins none. -/
theorem openWords_of_extend (h : l.extend? c = some m) (cs : List Char) :
    l.openWords (letterRuns (c :: cs)) = m.openWords (letterRuns cs) := by
  obtain ⟨run, runs, hruns⟩ := exists_letterRuns cs
  rw [letterRuns_cons, hruns]
  cases l with
  | word name =>
    simp only [extend?] at h
    split at h <;> cases h
    rename_i hc
    rw [if_pos hc, List.modifyHead_cons, openWords, openWords]
    congr 1
    apply String.toList_inj.mp
    simp
  | numeral name =>
    simp only [extend?] at h
    split at h <;> cases h
    rename_i hc
    have hletter : isLetter c = false := by
      rcases Bool.or_eq_true_iff.mp hc with hdigit | hpoint
      · exact isLetter_of_isDigit hdigit
      · rw [of_decide_eq_true hpoint]
        decide
    simp [hletter, openWords, wordsOfRuns_cons_nil]
  | var _ | operator _ | opening | closing | other _ => cases h

/-- Any other character closes the lexeme. -/
theorem openWords_of_extend_none (h : l.extend? c = none) (cs : List Char) :
    l.openWords (letterRuns (c :: cs)) =
      l.word?.toList ++ (start c).openWords (letterRuns cs) := by
  rw [letterRuns_cons]
  cases hc : isLetter c with
  | false =>
    rw [if_neg Bool.false_ne_true, openWords_cons_nil, openWords_of_not_word (word?_start hc)]
  | true =>
    obtain ⟨run, runs, hruns⟩ := exists_letterRuns cs
    have hl : l.word? = none := by
      cases l with
      | word name => simp [extend?, hc] at h
      | _ => rfl
    rw [hruns, openWords_start hc, openWords_of_not_word hl, hl]
    rfl

theorem filterMap_word?_scan (l : Lexeme) (cs : List Char) :
    (l.scan cs).filterMap word? = l.openWords (letterRuns cs) := by
  induction cs generalizing l with
  | nil =>
    have hnil : letterRuns [] = [[]] := rfl
    rw [hnil, openWords_cons_nil]
    cases hl : l.word? <;> simp [scan, hl, wordsOfRuns]
  | cons c cs ih =>
    unfold scan
    split
    · rename_i longer h
      rw [ih, openWords_of_extend h]
    · rename_i h
      rw [openWords_of_extend_none h, ← ih]
      cases hl : l.word? <;> simp [hl]

/-- Splitting a text finds its words. -/
theorem filterMap_word?_split (cs : List Char) : (split cs).filterMap word? = words cs := by
  cases cs with
  | nil => rfl
  | cons c cs =>
    rw [split, filterMap_word?_scan, words, ← openWords_of_not_word (l := opening) rfl,
      openWords_of_extend_none rfl]
    rfl

end Lexeme

/-! ## What a text decides -/

namespace Vocabulary

variable {v : Vocabulary} {signed : Bool} {l : Lexeme} {ls : List Lexeme} {text : String}

/-- Whether a word has no meaning. -/
def isUnknown (v : Vocabulary) (name : String) : Bool :=
  (v.kind? name).isNone

/-- What is no word is read, and not as a token that stands for a name. -/
theorem readLexeme_of_not_word (hl : l.word? = none) (signed : Bool) :
    ∃ now, (v.readLexeme signed l).outcome = .ok now ∧ now.filter (·.kind.isName) = [] := by
  cases l with
  | word _ => cases hl
  | operator op =>
    refine ⟨_, rfl, ?_⟩
    split <;> rfl
  | var _ | opening | closing | numeral _ | other _ => exact ⟨_, rfl, rfl⟩

theorem readLexeme_word {name : String} {kind : Kind} (h : v.kind? name = some kind) :
    (v.readLexeme signed (.word name)).outcome = .ok [⟨kind, name⟩] := by
  simp only [readLexeme, h, Logged.outcome_pure]

/-- Reading stops at the first word without a meaning. -/
theorem readLexemes_of_unknown {name : String}
    (h : (ls.filterMap Lexeme.word?).find? v.isUnknown = some name) :
    (v.readLexemes signed ls).outcome = .error (.unknownName name) := by
  induction ls generalizing signed with
  | nil => cases h
  | cons l ls ih =>
    rw [readLexemes_cons]
    cases hl : l.word? with
    | none =>
      obtain ⟨now, hnow, -⟩ := readLexeme_of_not_word (v := v) hl signed
      rw [hnow, ok_bind, ih (by simpa [hl] using h), error_bind]
    | some word =>
      obtain rfl : l = .word word := by cases l <;> cases hl; rfl
      cases hkind : v.kind? word with
      | none =>
        obtain rfl : word = name := by simpa [Lexeme.word?, isUnknown, hkind] using h
        simp only [readLexeme, hkind, Logged.outcome_fail, error_bind]
      | some kind =>
        have hrest : (ls.filterMap Lexeme.word?).find? v.isUnknown = some name := by
          simpa [Lexeme.word?, isUnknown, hkind] using h
        rw [readLexeme_word hkind, ok_bind, ih hrest, error_bind]

/-- If every word has a meaning all is read, and the tokens that stand for names are the words. -/
theorem readLexemes_of_known
    (h : ∀ name ∈ ls.filterMap Lexeme.word?, (v.kind? name).isSome = true) (signed : Bool) :
    ∃ ts, (v.readLexemes signed ls).outcome = .ok ts ∧
      (ts.filter (·.kind.isName)).map Token.text = ls.filterMap Lexeme.word? := by
  induction ls generalizing signed with
  | nil => exact ⟨[], rfl, rfl⟩
  | cons l ls ih =>
    rw [readLexemes_cons]
    cases hl : l.word? with
    | none =>
      obtain ⟨now, hnow, hnames⟩ := readLexeme_of_not_word (v := v) hl signed
      obtain ⟨rest, hrest, hwords⟩ := ih (by simpa [hl] using h) (l = .opening)
      refine ⟨now ++ rest, by rw [hnow, ok_bind, hrest, ok_bind], ?_⟩
      simp [hl, hnames, hwords]
    | some word =>
      obtain rfl : l = .word word := by cases l <;> cases hl; rfl
      rw [List.filterMap_cons_some hl] at h ⊢
      obtain ⟨hword, hmore⟩ := List.forall_mem_cons.mp h
      obtain ⟨kind, hkind⟩ := Option.isSome_iff_exists.mp hword
      obtain ⟨rest, hrest, hwords⟩ := ih hmore (Lexeme.word word = .opening)
      refine ⟨⟨kind, word⟩ :: rest, by rw [readLexeme_word hkind, ok_bind, hrest]; rfl, ?_⟩
      simp [isName_of_kind? hkind, hwords]

end Vocabulary

/-! ## The text of a token -/

/-- Whether the text of a token alone tells its kind, and the vocabulary that of a name. -/
structure Token.Evident (v : Vocabulary) (t : Token) : Prop where
  nonempty : t.text ≠ ""
  var : t.kind = .var ↔ t.text = "x" ∨ t.text = "X"
  operator : t.kind = .binaryOp ↔ ∃ op : Operator, t.text = String.singleton op.symbol
  bracket : t.kind = .bracket ↔ t.text = "(" ∨ t.text = ")"
  number : t.kind = .number ↔ IsNumeral t.text.toList
  name : t.kind.isName = true ↔ IsWord t.text.toList
  meaning : t.kind.isName = true → v.kind? t.text = some t.kind

namespace Token.Spelled

variable {v : Vocabulary} {t : Token}

/-- The lexeme that is its text tells the kind of a token. -/
theorem kind_eq_of_split {l : Lexeme} {k : Kind} (h : t.Spelled v)
    (hl : Lexeme.split t.text.toList = [l]) (hk : l.kind? v = some k) : t.kind = k :=
  Option.some.inj ((h.kind?_of_split hl).symm.trans hk)

theorem kind_eq_var_iff (h : t.Spelled v) : t.kind = .var ↔ t.text = "x" ∨ t.text = "X" := by
  constructor
  · intro hk
    cases h with
    | var hc =>
      rcases hc with rfl | rfl
      · exact .inl rfl
      · exact .inr rfl
    | name hw =>
      cases hk
      exact absurd (isName_of_kind? hw.meaning) (by decide)
    | number _ | operator _ | opening | closing => cases hk
  · rintro (htext | htext)
    · exact h.kind_eq_of_split (l := .var false) (by rw [htext]; rfl) rfl
    · exact h.kind_eq_of_split (l := .var true) (by rw [htext]; rfl) rfl

theorem kind_eq_binaryOp_iff (h : t.Spelled v) :
    t.kind = .binaryOp ↔ ∃ op : Operator, t.text = String.singleton op.symbol := by
  constructor
  · intro hk
    cases h with
    | operator op => exact ⟨op, rfl⟩
    | name hw =>
      cases hk
      exact absurd (isName_of_kind? hw.meaning) (by decide)
    | number _ | var _ | opening | closing => cases hk
  · rintro ⟨op, htext⟩
    exact h.kind_eq_of_split (l := .operator op) (by rw [htext]; cases op <;> rfl) rfl

theorem kind_eq_bracket_iff (h : t.Spelled v) :
    t.kind = .bracket ↔ t.text = "(" ∨ t.text = ")" := by
  constructor
  · intro hk
    cases h with
    | opening => exact .inl rfl
    | closing => exact .inr rfl
    | name hw =>
      cases hk
      exact absurd (isName_of_kind? hw.meaning) (by decide)
    | number _ | var _ | operator _ => cases hk
  · rintro (htext | htext)
    · exact h.kind_eq_of_split (l := .opening) (by rw [htext]; rfl) rfl
    · exact h.kind_eq_of_split (l := .closing) (by rw [htext]; rfl) rfl

theorem kind_eq_number_iff (h : t.Spelled v) :
    t.kind = .number ↔ IsNumeral t.text.toList := by
  constructor
  · intro hk
    cases h with
    | number hcs => rwa [String.toList_ofList]
    | name hw => exact absurd hk (Vocabulary.kind?_ne hw.meaning).1
    | var _ | operator _ | opening | closing => cases hk
  · intro htext
    exact h.kind_eq_of_split (Lexeme.split_numeral htext) rfl

theorem isName_kind_iff (h : t.Spelled v) :
    t.kind.isName = true ↔ IsWord t.text.toList := by
  constructor
  · intro hk
    cases h with
    | name hw =>
      rw [String.toList_ofList]
      exact hw.toIsWord
    | number _ | var _ | operator _ | opening | closing => cases hk
  · intro htext
    exact isName_of_kind? (h.kind?_of_split (Lexeme.split_word htext))

theorem evident (h : t.Spelled v) : t.Evident v where
  nonempty hempty := by
    obtain ⟨l, hl, -⟩ := h.exists_lexeme
    rw [hempty] at hl
    cases hl
  var := h.kind_eq_var_iff
  operator := h.kind_eq_binaryOp_iff
  bracket := h.kind_eq_bracket_iff
  number := h.kind_eq_number_iff
  name := h.isName_kind_iff
  meaning hk := by
    cases h with
    | name hw => exact hw.meaning
    | number _ | var _ | operator _ | opening | closing => cases hk

end Token.Spelled

/-! ## The outcome of a text -/

theorem unblanked_eq_nil_iff {text : String} :
    unblanked text = [] ↔ ∀ c ∈ text.toList, isBlank c = true := by
  simp [unblanked]

namespace Vocabulary

variable {v : Vocabulary} {text : String}

/-- `Verdict v text r`: all that the reading of a text can end in. -/
inductive Verdict (v : Vocabulary) (text : String) : Except Fault (List Token) → Prop
  | empty (h : unblanked text = []) : Verdict v text (.error .emptyText)
  | unknown {name} (hne : unblanked text ≠ [])
      (h : (words (unblanked text)).find? v.isUnknown = some name) :
      Verdict v text (.error (.unknownName name))
  | read {ts} (hne : unblanked text ≠ [])
      (h : ∀ name ∈ words (unblanked text), (v.kind? name).isSome = true)
      (hnames : (ts.filter (·.kind.isName)).map Token.text = words (unblanked text)) :
      Verdict v text (.ok ts)

theorem verdict_tokenize (v : Vocabulary) (text : String) :
    Verdict v text (v.tokenize text).outcome := by
  rw [tokenize_outcome]
  split
  next h => exact .empty h
  next hne =>
    have hwords := Lexeme.filterMap_word?_split (unblanked text)
    cases h : (words (unblanked text)).find? v.isUnknown with
    | some name =>
      rw [read, readLexemes_of_unknown (hwords ▸ h)]
      exact .unknown hne h
    | none =>
      have hknown : ∀ name ∈ words (unblanked text), (v.kind? name).isSome = true := by
        simpa [isUnknown, Option.isSome_iff_ne_none] using h
      obtain ⟨ts, hts, hnames⟩ := readLexemes_of_known (hwords ▸ hknown) true
      rw [read, hts]
      exact .read hne hknown (hnames.trans hwords)

/-- A text is empty, or the first of its words that has no meaning is reported, or it is read,
and then its words are the tokens that stand for names, and the text of each token tells its
kind. -/
theorem tokenize_decided (v : Vocabulary) (text : String) :
    ((v.tokenize text).outcome = .error .emptyText ↔ ∀ c ∈ text.toList, isBlank c = true) ∧
    (∀ name, (v.tokenize text).outcome = .error (.unknownName name) ↔
      (words (unblanked text)).find? v.isUnknown = some name) ∧
    ((∃ ts, (v.tokenize text).outcome = .ok ts) ↔
      (∃ c ∈ text.toList, isBlank c = false) ∧
        ∀ name ∈ words (unblanked text), (v.kind? name).isSome = true) ∧
    ∀ ts, (v.tokenize text).outcome = .ok ts →
      (ts.filter (·.kind.isName)).map Token.text = words (unblanked text) ∧
        ∀ t ∈ ts, t.Evident v := by
  have hverdict := v.verdict_tokenize text
  have hevident : ∀ ts, (v.tokenize text).outcome = .ok ts → ∀ t ∈ ts, t.Evident v :=
    fun ts hts t ht => (spelled_of_tokenize hts t ht).evident
  have hblank : (∃ c ∈ text.toList, isBlank c = false) ↔ unblanked text ≠ [] := by
    simp [unblanked_eq_nil_iff]
  rw [← unblanked_eq_nil_iff, hblank]
  generalize (v.tokenize text).outcome = r at hverdict hevident
  cases hverdict with
  | empty h =>
    have hnone : words [] = [] := rfl
    simp [h, hnone]
  | @unknown name hne h =>
    have hfirst : ¬∀ name ∈ words (unblanked text), (v.kind? name).isSome = true := by
      intro hknown
      have hname := hknown name (List.mem_of_find?_eq_some h)
      have hunknown : v.isUnknown name = true := List.find?_some h
      simp [Option.isNone_iff_eq_none.mp hunknown] at hname
    simp [hne, h, hfirst]
  | read hne h hnames =>
    have hnone : (words (unblanked text)).find? v.isUnknown = none := by
      simpa [isUnknown, Option.isSome_iff_ne_none] using h
    refine ⟨by simp [hne], by simp [hnone], by simpa [hne] using h, ?_⟩
    intro ts hts
    have htokens := hevident ts hts
    cases hts
    exact ⟨hnames, htokens⟩

/-- Variables before a word, next to each other and inside one, and a second word without a
meaning that is not come to. -/
theorem tokenize_decided_variables :
    (∃ ts, (standard.tokenize "2xx sin(X)-xpi").outcome = .ok ts ∧
      (ts.filter (·.kind.isName)).map Token.text = ["sin", "pi"] ∧
      ∀ t ∈ ts, t.Evident standard) ∧
    (standard.tokenize "ln xpi+foo").outcome = .error (.unknownName "lnxpi") := by
  obtain ⟨-, -, hok, hread⟩ := tokenize_decided standard "2xx sin(X)-xpi"
  obtain ⟨-, hunknown, -⟩ := tokenize_decided standard "ln xpi+foo"
  obtain ⟨ts, hts⟩ := hok.mpr ⟨⟨'2', by decide, by decide⟩, by decide⟩
  obtain ⟨hnames, hevident⟩ := hread ts hts
  exact ⟨⟨ts, hts, hnames.trans (by decide), hevident⟩, (hunknown "lnxpi").mpr (by decide)⟩

end Vocabulary

end PostfixCalc

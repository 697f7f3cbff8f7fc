import Mathlib.Data.List.Chain
import PostfixCalc.Proofs.Extension
import PostfixCalc.Proofs.Spelling

/-! # Where one lexeme ends and the next begins

Every lexeme is as long as it can be: the character after it does not go on it. Whether a
character goes on a lexeme, and what a lexeme can begin with, is seen from the kind of token
that it becomes, so it is the kinds of two tokens that tell whether their texts can stand
side by side and still be two. -/

namespace PostfixCalc

namespace Kind

/-- Whether a token of this kind begins with a letter. -/
def isLettered (k : Kind) : Bool :=
  k.isName || k = .var

/-- Whether texts of two kinds become one where nothing stands between them. -/
def joins (k l : Kind) : Bool :=
  k.isName && l.isLettered || k = .number && l = .number

end Kind

namespace Lexeme

/-! ## The longest lexemes -/

/-- Where one lexeme follows another, it does not begin with what goes on the other. -/
def Apart (l m : Lexeme) : Prop :=
  ∀ c ∈ m.text.toList.head?, l.extend? c = none

/-- The first lexeme of a text begins as the lexeme that was not yet closed. -/
theorem exists_scan (l : Lexeme) (cs : List Char) :
    ∃ m ms, l.scan cs = m :: ms ∧ l.text.toList <+: m.text.toList := by
  induction cs generalizing l with
  | nil => exact ⟨l, [], rfl, List.prefix_refl _⟩
  | cons c cs ih =>
    unfold scan
    split
    · rename_i longer h
      obtain ⟨m, ms, hscan, hprefix⟩ := ih longer
      have hlonger : l.text.toList <+: longer.text.toList := by simp [text_extend h]
      exact ⟨m, ms, hscan, hlonger.trans hprefix⟩
    · exact ⟨l, _, rfl, List.prefix_refl _⟩

theorem isChain_scan (l : Lexeme) (cs : List Char) : (l.scan cs).IsChain Apart := by
  induction cs generalizing l with
  | nil => simp [scan]
  | cons c cs ih =>
    unfold scan
    split
    · exact ih _
    · rename_i h
      obtain ⟨m, ms, hscan, rest, hrest⟩ := exists_scan (start c) cs
      have hapart : l.Apart m := by
        intro d hd
        obtain rfl : c = d := by simpa [← hrest, text_start] using hd
        exact h
      rw [hscan]
      exact List.isChain_cons_cons.mpr ⟨hapart, hscan ▸ ih (start c)⟩

/-- The lexemes of a text are as long as they can be. -/
theorem isChain_split (cs : List Char) : (split cs).IsChain Apart := by
  cases cs with
  | nil => exact List.isChain_nil
  | cons c cs => exact isChain_scan (start c) cs

/-- A text that is one lexeme stays one before what does not go on it. -/
theorem split_append_of_extend_none {l : Lexeme} {cs ds : List Char} (hcs : split cs = [l])
    (h : ∀ d ∈ ds.head?, l.extend? d = none) : split (cs ++ ds) = l :: split ds := by
  cases cs with
  | nil => cases hcs
  | cons c cs =>
    have hscan : (start c).scan cs = [l] := hcs
    cases ds with
    | nil => rw [List.append_nil, hcs, split]
    | cons d ds =>
      have hlast : ∀ m ∈ ((start c).scan cs).getLast?, m.extend? d = none := by
        rw [hscan]
        rintro _ ⟨⟩
        exact h d rfl
      rw [List.cons_append, split, scan_append_of_extend_none hlast, hscan]
      rfl

/-! ## Lexemes and the kinds of tokens -/

/-- The kind of token that a lexeme becomes. -/
def kind? (v : Vocabulary) : Lexeme → Option Kind
  | var _ => some .var
  | operator _ => some .binaryOp
  | opening | closing => some .bracket
  | word name => v.kind? name
  | numeral _ => some .number
  | other _ => none

end Lexeme

variable {v : Vocabulary} {k : Kind} {l m : Lexeme}

theorem isName_of_kind? {name : String} (h : v.kind? name = some k) : k.isName = true := by
  unfold Vocabulary.kind? at h
  repeat' split at h
  all_goals cases h
  all_goals rfl

namespace Lexeme

/-- What goes on a lexeme: letters on a word, digits and points on a numeral. -/
theorem extend?_isSome (h : l.kind? v = some k) (c : Char) :
    (l.extend? c).isSome = (k.isName && isLetter c || k = .number && (c.isDigit || c = '.')) := by
  cases l with
  | word name =>
    have hname := isName_of_kind? h
    have hnumber : k ≠ .number := (Vocabulary.kind?_ne h).1
    cases hc : isLetter c <;> simp [extend?, hc, hname, hnumber]
  | numeral text =>
    cases h
    cases hc : (c.isDigit || decide (c = '.')) <;> simp_all [extend?, Kind.isName]
  | var _ | operator _ | opening | closing =>
    cases h
    simp [extend?, Kind.isName]
  | other _ => cases h

/-- What a lexeme begins with: a letter a word or a variable, a digit a numeral. -/
theorem exists_text_eq_cons (hl : l.Formed) (h : l.kind? v = some k) :
    ∃ c cs, l.text.toList = c :: cs ∧ isLetter c = k.isLettered ∧
      (c.isDigit || c = '.') = decide (k = .number) := by
  cases l with
  | word name =>
    obtain ⟨c, cs, htext, -⟩ := hl.exists_cons
    have hname := isName_of_kind? h
    have hnumber : k ≠ .number := (Vocabulary.kind?_ne h).1
    have hletter : isLetter c = true := hl.letters c (by simp [htext])
    have hpoint : c ≠ '.' := by
      rintro rfl
      exact absurd hletter (by decide)
    refine ⟨c, cs, htext, ?_⟩
    simp [Kind.isLettered, hname, hnumber, hletter, hpoint, isDigit_of_isLetter hletter]
  | numeral _ =>
    obtain ⟨c, cs, htext, hc⟩ := hl.exists_cons
    cases h
    exact ⟨c, cs, htext, by simp [Kind.isLettered, Kind.isName, hc, isLetter_of_isDigit hc]⟩
  | var capital =>
    cases h
    cases capital
    · exact ⟨'x', [], rfl, by decide⟩
    · exact ⟨'X', [], rfl, by decide⟩
  | operator op =>
    cases h
    exact ⟨op.symbol, [], by simp [text], by cases op <;> decide⟩
  | opening =>
    cases h
    exact ⟨'(', [], rfl, by decide⟩
  | closing =>
    cases h
    exact ⟨')', [], rfl, by decide⟩
  | other _ => cases h

/-- Two lexemes follow each other in a text unless their kinds join. -/
theorem apart_iff {k₁ k₂ : Kind} (h₁ : l.kind? v = some k₁) (hm : m.Formed)
    (h₂ : m.kind? v = some k₂) : l.Apart m ↔ k₁.joins k₂ = false := by
  obtain ⟨c, cs, htext, hletter, hnumber⟩ := exists_text_eq_cons hm h₂
  have hextend := extend?_isSome h₁ c
  rw [hletter, hnumber] at hextend
  rw [Kind.joins, ← hextend, Option.isSome_eq_false_iff, Option.isNone_iff_eq_none]
  simp [Apart, htext]

theorem text_eq_of_split {text : String} (h : split text.toList = [l]) : l.text = text := by
  have hchars := flatMap_split text.toList
  rw [h, List.flatMap_singleton] at hchars
  exact String.toList_inj.mp hchars

end Lexeme

/-- The text of a token is one lexeme, of the kind of the token. -/
theorem Token.Spelled.exists_lexeme {t : Token} (h : t.Spelled v) :
    ∃ l, Lexeme.split t.text.toList = [l] ∧ l.Formed ∧ l.kind? v = some t.kind := by
  have hformed {l : Lexeme} (hl : Lexeme.split t.text.toList = [l]) : l.Formed :=
    Lexeme.formed_split t.text.toList l (by simp [hl])
  suffices hsplit : ∃ l, Lexeme.split t.text.toList = [l] ∧ l.kind? v = some t.kind by
    obtain ⟨l, hl, hk⟩ := hsplit
    exact ⟨l, hl, hformed hl, hk⟩
  cases h with
  | number h => exact ⟨_, by rw [String.toList_ofList, Lexeme.split_numeral h], rfl⟩
  | var hc => rcases hc with rfl | rfl <;> exact ⟨_, rfl, rfl⟩
  | operator op => cases op <;> exact ⟨_, rfl, rfl⟩
  | opening => exact ⟨_, rfl, rfl⟩
  | closing => exact ⟨_, rfl, rfl⟩
  | @name kind w hw =>
    refine ⟨.word (String.ofList w), ?_, hw.meaning⟩
    rw [String.toList_ofList, Lexeme.split_word hw.toIsWord]

/-- So it is of one kind. -/
theorem Token.Spelled.kind?_of_split {t : Token} (h : t.Spelled v)
    (hl : Lexeme.split t.text.toList = [l]) : l.kind? v = some t.kind := by
  obtain ⟨m, hm, -, hkind⟩ := h.exists_lexeme
  obtain rfl : m = l := List.singleton_inj.mp (hm.symm.trans hl)
  exact hkind

end PostfixCalc

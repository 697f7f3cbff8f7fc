import Mathlib.Data.List.Chain
import PostfixCalc.Proofs.Reading
import PostfixCalc.Vocabulary.Standard

/-! # Brackets that only separate

In postfix order a bracket ends what stands before it and is no token to calculate with, and a
comma does the same. So the lexemes of a text with its brackets written as commas are the
lexemes of the text, the brackets apart. A bracket does more than a comma in one place only:
it makes the minus right after it a sign. -/

namespace PostfixCalc

/-- A comma for a bracket, and every other character as it is. -/
def commaFor (c : Char) : Char :=
  if c = '(' ∨ c = ')' then ',' else c

/-- A text with its brackets written as commas. -/
def commas (text : String) : String :=
  String.ofList (text.toList.map commaFor)

theorem isBlank_commaFor (c : Char) : isBlank (commaFor c) = isBlank c := by
  unfold commaFor
  split
  · rename_i h
    rcases h with rfl | rfl <;> decide
  · rfl

/-- Blanks go from both texts in the same places. -/
theorem unblanked_commas (text : String) :
    unblanked (commas text) = (unblanked text).map commaFor := by
  simp [unblanked, commas, List.filter_map, Function.comp_def, isBlank_commaFor]

namespace Lexeme

/-- A skipped comma for a bracket, and every other lexeme as it is. -/
def commaFor : Lexeme → Lexeme
  | opening | closing => other ','
  | l => l

/-! ## Two texts in step -/

theorem start_commaFor (c : Char) : start (PostfixCalc.commaFor c) = (start c).commaFor := by
  by_cases hc : c = '(' ∨ c = ')'
  · rcases hc with rfl | rfl <;> decide
  · rw [PostfixCalc.commaFor, if_neg hc]
    have hstart := Start.of_start c
    generalize start c = l at hstart
    cases hstart with
    | opening | closing => simp at hc
    | _ => rfl

theorem extend?_commaFor (l : Lexeme) (c : Char) :
    l.commaFor.extend? (PostfixCalc.commaFor c) = (l.extend? c).map commaFor := by
  by_cases hc : c = '(' ∨ c = ')'
  · have hbracket : breaks c = true := by rcases hc with rfl | rfl <;> decide
    have hcomma : breaks ',' = true := by decide
    rw [PostfixCalc.commaFor, if_pos hc, extend?_of_breaks hcomma, extend?_of_breaks hbracket,
      Option.map_none]
  · rw [PostfixCalc.commaFor, if_neg hc]
    cases l with
    | word text | numeral text =>
      simp only [commaFor, extend?]
      split <;> rfl
    | _ => rfl

/-- Both texts close their lexemes in the same places. -/
theorem scan_commaFor (l : Lexeme) (cs : List Char) :
    l.commaFor.scan (cs.map PostfixCalc.commaFor) = (l.scan cs).map commaFor := by
  induction cs generalizing l with
  | nil => rfl
  | cons c cs ih =>
    rw [List.map_cons, scan, scan, extend?_commaFor]
    cases l.extend? c with
    | none => simp only [Option.map_none, start_commaFor, ih, List.map_cons]
    | some longer => exact ih longer

theorem split_commaFor (cs : List Char) :
    split (cs.map PostfixCalc.commaFor) = (split cs).map commaFor := by
  cases cs with
  | nil => rfl
  | cons c cs => rw [List.map_cons, split, start_commaFor, scan_commaFor, split]

/-- Whether a lexeme may stand right after another where a bracket and a comma are the same. -/
def Unsigned (l m : Lexeme) : Prop :=
  l = opening → m ≠ operator .sub

/-- Where no minus follows an open bracket among the characters, none does among the lexemes. -/
theorem isChain_unsigned {cs : List Char} (h : ¬['(', '-'] <:+: cs) :
    (split cs).IsChain Unsigned := by
  rw [List.isChain_iff_forall_rel_of_append_cons_cons]
  rintro l m front rest hsplit rfl rfl
  refine h ⟨front.flatMap fun l => l.text.toList, rest.flatMap fun l => l.text.toList, ?_⟩
  have hcs := flatMap_split cs
  rw [hsplit] at hcs
  simpa [text, Operator.symbol] using hcs

end Lexeme

namespace Vocabulary

variable {v : Vocabulary}

/-- A lexeme and what stands for it leave the same tokens but for brackets. -/
theorem readLexeme_commaFor {l : Lexeme} {signed signed' : Bool}
    (h : l = .operator .sub → signed' = signed) :
    (v.readLexeme signed' l.commaFor).outcome.map unbracketed =
      (v.readLexeme signed l).outcome.map unbracketed := by
  cases l with
  | operator op =>
    by_cases hop : op = .sub
    · rw [h (congrArg _ hop)]
      rfl
    · simp [readLexeme, Lexeme.commaFor, hop]
  | _ => rfl

theorem map_unbracketed_append (now rest : Except Fault (List Token)) :
    (now >>= fun ts => rest >>= fun us => .ok (ts ++ us)).map unbracketed =
      now.map unbracketed >>= fun ts => rest.map unbracketed >>= fun us => .ok (ts ++ us) := by
  cases now with
  | error e => rfl
  | ok ts =>
    cases rest with
    | error e => rfl
    | ok us => simp

/-- The two readings may differ in whether a minus at the start is a sign, as long as there is
none. -/
theorem readLexemes_commaFor {ls : List Lexeme} (hls : ls.IsChain Lexeme.Unsigned)
    {signed signed' : Bool} (h : ls.head? = some (.operator .sub) → signed' = signed) :
    (v.readLexemes signed' (ls.map Lexeme.commaFor)).outcome.map unbracketed =
      (v.readLexemes signed ls).outcome.map unbracketed := by
  induction ls generalizing signed signed' with
  | nil => rfl
  | cons l ls ih =>
    obtain ⟨hnext, hchain⟩ := List.isChain_cons.mp hls
    have hnow := readLexeme_commaFor (v := v) fun hl => h (congrArg some hl)
    have hminus : ls.head? = some (.operator .sub) →
        decide (l.commaFor = .opening) = decide (l = .opening) := by
      intro hhead
      have hl : l ≠ .opening := fun hl => hnext _ hhead hl rfl
      cases l with
      | opening => exact absurd rfl hl
      | _ => rfl
    rw [List.map_cons, readLexemes_cons, readLexemes_cons, map_unbracketed_append,
      map_unbracketed_append, hnow, ih hchain hminus]

/-- Brackets written as commas change no token that is left when the brackets go. -/
theorem tokenize_commas {text : String} (h : ¬['(', '-'] <:+: unblanked text) :
    (v.tokenize (commas text)).outcome.map unbracketed =
      (v.tokenize text).outcome.map unbracketed := by
  simp only [tokenize_outcome, unblanked_commas, List.map_eq_nil_iff]
  split
  · rfl
  · rw [read, read, Lexeme.split_commaFor]
    exact readLexemes_commaFor (Lexeme.isChain_unsigned h) fun _ => rfl

/-- The sign is lost with the bracket. -/
example : (standard.tokenize "2(-x").outcome.map unbracketed =
      .ok [⟨.number, "2"⟩, ⟨.number, "0"⟩, .ofOperator .sub, ⟨.var, "x"⟩] ∧
    (standard.tokenize (commas "2(-x")).outcome.map unbracketed =
      .ok [⟨.number, "2"⟩, .ofOperator .sub, ⟨.var, "x"⟩] := by
  decide

/-- Where no minus follows an open bracket, brackets and commas are the same in postfix order,
whether or not the brackets match. -/
theorem calculatePostfix_commas (v : Vocabulary) {text : String}
    (h : ¬['(', '-'] <:+: unblanked text) (x : Binary64) :
    (v.calculatePostfix (commas text) x).outcome = (v.calculatePostfix text x).outcome := by
  have hread : ∀ text, (v.calculatePostfix text x).outcome =
      (v.tokenize text).outcome.map unbracketed >>= v.value x := by
    intro text
    rw [calculatePostfix_outcome]
    cases (v.tokenize text).outcome <;> rfl
  rw [hread, hread, tokenize_commas h]

/-- Brackets that match nothing, around nothing and around a minus that is no sign. -/
theorem calculatePostfix_commas_unmatched :
    (standard.calculatePostfix "230,220,0.5 *, -, ,3,-,," 0).outcome =
      (standard.calculatePostfix "230(220,0.5 *) -) (3)-((" 0).outcome := by
  have hcommas : commas "230(220,0.5 *) -) (3)-((" = "230,220,0.5 *, -, ,3,-,," := by decide
  have hminus : ¬['(', '-'] <:+: unblanked "230(220,0.5 *) -) (3)-((" := by
    decide +kernel
  have h := calculatePostfix_commas standard hminus 0
  rwa [hcommas] at h

end Vocabulary

end PostfixCalc

import PostfixCalc.Proofs.Characters
import PostfixCalc.Proofs.Pending
import PostfixCalc.Reading

/-! # Reading piece by piece

A character that neither goes on a word or a numeral nor is gone on by anything breaks
a text in two that are read apart. All that one part tells the other is whether a
minus at its start is a sign, and the last character tells that. -/

namespace PostfixCalc

/-- A bracket, an operator, or a character that is skipped wherever it stands. -/
def breaks (c : Char) : Bool :=
  !isLetter c && !c.isDigit && c ≠ '.'

/-- Neither a letter nor a digit, an operator or a bracket. -/
def meaningless (c : Char) : Bool :=
  !isLetter c && !c.isDigit && (Operator.ofChar? c).isNone && c ≠ '(' && c ≠ ')'

theorem breaks_symbol (op : Operator) : breaks op.symbol = true := by
  cases op <;> decide

/-- What breaks nothing is no operator and no bracket. -/
theorem plain_of_not_breaks {c : Char} (h : breaks c = false) :
    Operator.ofChar? c = none ∧ c ≠ '(' ∧ c ≠ ')' := by
  refine ⟨?_, ?_, ?_⟩
  · rw [Option.eq_none_iff_forall_ne_some]
    intro op hop
    rw [Operator.ofChar?_eq_some_iff.mp hop, breaks_symbol] at h
    cases h
  · rintro rfl
    exact absurd h (by decide)
  · rintro rfl
    exact absurd h (by decide)

/-- What is left of a text without its blanks. -/
def unblanked (text : String) : List Char :=
  text.toList.filter (!isBlank ·)

@[simp] theorem unblanked_append (text more : String) :
    unblanked (text ++ more) = unblanked text ++ unblanked more := by
  simp [unblanked]

namespace Lexeme

/-- `Start c l`: all that a character can begin. -/
inductive Start : Char → Lexeme → Prop
  | small : Start 'x' (var false)
  | capital : Start 'X' (var true)
  | operator (op : Operator) : Start op.symbol (operator op)
  | opening : Start '(' opening
  | closing : Start ')' closing
  | word {c} (hc : isLetter c = true) (hx : c ≠ 'x') (hX : c ≠ 'X') :
      Start c (word (String.singleton c))
  | numeral {c} (hc : c.isDigit = true) : Start c (numeral (String.singleton c))
  | other {c} (hc : meaningless c = true) : Start c (other c)

theorem Start.of_start (c : Char) : Start c (start c) := by
  unfold Lexeme.start
  split
  next h =>
    subst h
    exact small
  rename_i hx
  split
  next h =>
    subst h
    exact capital
  rename_i hX
  split
  next op h =>
    rw [Operator.ofChar?_eq_some_iff.mp h]
    exact operator op
  rename_i hop
  split
  next h =>
    subst h
    exact opening
  rename_i hopen
  split
  next h =>
    subst h
    exact closing
  rename_i hclose
  split
  next h => exact word h hx hX
  rename_i hl
  split
  next h => exact numeral h
  rename_i hd
  exact other (by simp [meaningless, hl, hd, hop, hopen, hclose])

theorem extend?_of_breaks {d : Char} (hd : breaks d = true) (l : Lexeme) : l.extend? d = none := by
  simp only [breaks, Bool.and_eq_true, Bool.not_eq_true', decide_eq_true_eq] at hd
  obtain ⟨⟨hl, hn⟩, hp⟩ := hd
  unfold extend?
  split <;> simp_all

theorem start_symbol (op : Operator) : start op.symbol = operator op := by
  cases op <;> rfl

theorem start_of_isLetter {c : Char} (hc : isLetter c = true) (hx : c ≠ 'x') (hX : c ≠ 'X') :
    start c = word (String.singleton c) := by
  obtain ⟨hop, hopen, hclose⟩ := plain_of_not_breaks (c := c) (by simp [breaks, hc])
  simp [start, hx, hX, hop, hopen, hclose, hc]

theorem start_of_isDigit {c : Char} (hc : c.isDigit = true) :
    start c = numeral (String.singleton c) := by
  obtain ⟨hop, hopen, hclose⟩ := plain_of_not_breaks (c := c) (by simp [breaks, hc])
  have hl := isLetter_of_isDigit hc
  have hx : c ≠ 'x' := by
    rintro rfl
    exact absurd hc (by decide)
  have hX : c ≠ 'X' := by
    rintro rfl
    exact absurd hc (by decide)
  simp [start, hx, hX, hop, hopen, hclose, hl, hc]

/-- Only the bracket itself opens one. -/
theorem start_eq_opening_iff {c : Char} : start c = opening ↔ c = '(' := by
  constructor
  · intro h
    have ht : String.singleton c = "(" := by
      rw [← text_start c, h]
      rfl
    have hc : [c] = ['('] := by simpa using congrArg String.toList ht
    exact List.singleton_inj.mp hc
  · rintro rfl
    rfl

/-- Nothing goes on a breaking character's own lexeme. -/
theorem extend?_start_of_breaks {d : Char} (hd : breaks d = true) (c : Char) :
    (start d).extend? c = none := by
  simp only [breaks, Bool.and_eq_true, Bool.not_eq_true', decide_eq_true_eq] at hd
  have hstart := Start.of_start d
  generalize start d = l at hstart ⊢
  cases hstart with
  | word hl _ _ => simp [hl] at hd
  | numeral hn => simp [hn] at hd
  | small | capital | operator _ | opening | closing | other _ => rfl

theorem scan_start_of_breaks {d : Char} (hd : breaks d = true) (ds : List Char) :
    (start d).scan ds = start d :: split ds := by
  cases ds with
  | nil => rfl
  | cons c cs => simp [scan, split, extend?_start_of_breaks hd]

theorem scan_ne_nil (l : Lexeme) (cs : List Char) : l.scan cs ≠ [] := by
  induction cs generalizing l with
  | nil => simp [scan]
  | cons c cs ih =>
    unfold scan
    split
    · exact ih _
    · simp

/-- A character that does not go on the last lexeme before it begins another one. -/
theorem scan_append_of_extend_none {d : Char} {l : Lexeme} {cs : List Char}
    (h : ∀ m ∈ (l.scan cs).getLast?, m.extend? d = none) (ds : List Char) :
    l.scan (cs ++ d :: ds) = l.scan cs ++ split (d :: ds) := by
  induction cs generalizing l with
  | nil =>
    have hl : l.extend? d = none := h l (by simp [scan])
    simp [scan, split, hl]
  | cons c cs ih =>
    rw [List.cons_append]
    unfold scan at h ⊢
    split at h
    · exact ih h
    · obtain ⟨m, ms, hscan⟩ := List.exists_cons_of_ne_nil (scan_ne_nil (start c) cs)
      have hlast : ∀ k ∈ ((start c).scan cs).getLast?, k.extend? d = none := by
        simpa [hscan] using h
      rw [ih hlast, List.cons_append]

theorem scan_append {d : Char} (hd : breaks d = true) (l : Lexeme) (cs ds : List Char) :
    l.scan (cs ++ d :: ds) = l.scan cs ++ start d :: split ds := by
  rw [scan_append_of_extend_none fun m _ => extend?_of_breaks hd m, split,
    scan_start_of_breaks hd]

theorem split_append {d : Char} (hd : breaks d = true) (cs ds : List Char) :
    split (cs ++ d :: ds) = split cs ++ start d :: split ds := by
  cases cs with
  | nil => exact scan_start_of_breaks hd ds
  | cons c cs => exact scan_append hd _ cs ds

theorem scan_word {cs : List Char} (h : ∀ c ∈ cs, isLetter c = true) (w : String) :
    (word w).scan cs = [word (w ++ String.ofList cs)] := by
  induction cs generalizing w with
  | nil => simp [scan]
  | cons c cs ih =>
    simp only [scan, extend?, h c (by simp), if_true]
    rw [ih fun d hd => h d (by simp [hd])]
    congr 2
    apply String.toList_inj.mp
    simp

theorem scan_numeral {cs : List Char} (h : ∀ c ∈ cs, c.isDigit = true ∨ c = '.') (n : String) :
    (numeral n).scan cs = [numeral (n ++ String.ofList cs)] := by
  induction cs generalizing n with
  | nil => simp [scan]
  | cons c cs ih =>
    simp only [scan, extend?, Bool.or_eq_true, decide_eq_true_eq, h c (by simp), if_true]
    rw [ih fun d hd => h d (by simp [hd])]
    congr 2
    apply String.toList_inj.mp
    simp

theorem split_word {cs : List Char} (h : IsWord cs) : split cs = [word (String.ofList cs)] := by
  obtain ⟨c, ds, rfl, hx, hX⟩ := h.exists_cons
  obtain ⟨hc, hds⟩ := List.forall_mem_cons.mp h.letters
  rw [split, start_of_isLetter hc hx hX, scan_word hds]
  congr 2
  apply String.toList_inj.mp
  simp

theorem split_numeral {cs : List Char} (h : IsNumeral cs) :
    split cs = [numeral (String.ofList cs)] := by
  obtain ⟨c, ds, rfl, hc⟩ := h.exists_cons
  obtain ⟨-, hds⟩ := List.forall_mem_cons.mp h.mem
  rw [split, start_of_isDigit hc, scan_numeral hds]
  congr 2
  apply String.toList_inj.mp
  simp

/-- Whether a minus after these lexemes is a sign; `signed` says it of one at the start. -/
def signAfter (signed : Bool) (ls : List Lexeme) : Bool :=
  match ls.getLast? with
  | none => signed
  | some l => l = .opening

theorem signAfter_cons (signed : Bool) (l : Lexeme) (ls : List Lexeme) :
    signAfter signed (l :: ls) = signAfter (l = .opening) ls := by
  cases ls with
  | nil => rfl
  | cons m ls => simp only [signAfter, List.getLast?_cons, Option.getD_some]

theorem split_ne_nil {cs : List Char} (h : cs ≠ []) : split cs ≠ [] := by
  intro hs
  apply h
  rw [← flatMap_split cs, hs]
  rfl

/-- A minus is no sign after a text that does not end in an open bracket. -/
theorem signAfter_split {cs : List Char} (h : cs ≠ []) (hlast : cs.getLast? ≠ some '(')
    (signed : Bool) : signAfter signed (split cs) = false := by
  obtain ⟨ls, l, hs⟩ := List.eq_nil_or_concat (split cs) |>.resolve_left (split_ne_nil h)
  have hl : l ≠ .opening := by
    rintro rfl
    apply hlast
    rw [← flatMap_split cs, hs]
    simp [text]
  simp [signAfter, hs, hl]

end Lexeme

namespace Vocabulary

variable (v : Vocabulary)

/-- The tokens of characters among which no blank is left. -/
def read (signed : Bool) (cs : List Char) : Except Fault (List Token) :=
  (v.readLexemes signed (Lexeme.split cs)).outcome

@[simp] theorem read_nil (signed : Bool) : v.read signed [] = .ok [] := rfl

theorem readLexemes_cons (signed : Bool) (l : Lexeme) (ls : List Lexeme) :
    (v.readLexemes signed (l :: ls)).outcome =
      (v.readLexeme signed l).outcome >>= fun now =>
        (v.readLexemes (l = .opening) ls).outcome >>= fun rest => .ok (now ++ rest) := by
  rw [readLexemes, Logged.outcome_bind]
  refine congrArg _ (funext fun now => ?_)
  rw [Logged.outcome_map]
  cases (v.readLexemes (l = .opening) ls).outcome <;> rfl

theorem readLexemes_singleton (signed : Bool) (l : Lexeme) :
    (v.readLexemes signed [l]).outcome = (v.readLexeme signed l).outcome := by
  rw [readLexemes_cons]
  simp [readLexemes]

theorem readLexemes_append (signed : Bool) (ls ms : List Lexeme) :
    (v.readLexemes signed (ls ++ ms)).outcome =
      (v.readLexemes signed ls).outcome >>= fun front =>
        (v.readLexemes (Lexeme.signAfter signed ls) ms).outcome >>= fun rest =>
          .ok (front ++ rest) := by
  induction ls generalizing signed with
  | nil =>
    simp only [List.nil_append, readLexemes, Logged.outcome_pure, ok_bind, Lexeme.signAfter,
      List.getLast?_nil, bind_pure_ok]
  | cons l ls ih =>
    rw [List.cons_append, readLexemes_cons, readLexemes_cons, Lexeme.signAfter_cons, ih]
    simp only [bind_assoc, ok_bind, List.append_assoc]

/-- A breaking character is read by itself, between what stands before and after it. -/
theorem read_append {d : Char} (hd : breaks d = true) (signed : Bool) (cs ds : List Char) :
    v.read signed (cs ++ d :: ds) =
      v.read signed cs >>= fun front =>
        (v.readLexeme (Lexeme.signAfter signed (Lexeme.split cs)) (Lexeme.start d)).outcome >>=
          fun now => v.read (d = '(') ds >>= fun rest => .ok (front ++ (now ++ rest)) := by
  simp only [read, Lexeme.split_append hd, readLexemes_append, readLexemes_cons,
    Lexeme.start_eq_opening_iff, bind_assoc, ok_bind]

/-- A part in brackets is read by itself, and what stands around it too. -/
theorem read_bracketed {part : List Char} {ts : List Token} (h : v.read true part = .ok ts)
    (signed : Bool) (front rest : List Char) :
    v.read signed (front ++ '(' :: (part ++ ')' :: rest)) =
      v.read signed front >>= fun before =>
        v.read false rest >>= fun after =>
          .ok (before ++ (.opening :: (ts ++ [.closing]) ++ after)) := by
  have hopen : Lexeme.start '(' = .opening := rfl
  have hclose : Lexeme.start ')' = .closing := rfl
  rw [read_append _ (show breaks '(' = true by decide)]
  simp only [read_append _ (show breaks ')' = true by decide), h, hopen, hclose, readLexeme,
    Logged.outcome_pure, ok_bind, bind_assoc, decide_true, Lexeme.text,
    show (')' = '(') = False by decide, decide_false]
  refine bind_congr fun before => bind_congr fun after => ?_
  simp [Token.opening, Token.closing]

/-- An operator after a part that does not end in an open bracket is no sign. -/
theorem read_operator (op : Operator) {cs : List Char} (hne : cs ≠ [])
    (hlast : cs.getLast? ≠ some '(') (signed : Bool) (ds : List Char) :
    v.read signed (cs ++ op.symbol :: ds) =
      v.read signed cs >>= fun front => v.read false ds >>= fun rest =>
        .ok (front ++ .ofOperator op :: rest) := by
  have hsymbol : (op.symbol = '(') = False := by
    cases op <;> simp [Operator.symbol]
  rw [read_append _ (breaks_symbol op), Lexeme.signAfter_split hne hlast, Lexeme.start_symbol]
  simp only [readLexeme, Bool.false_and, Bool.false_eq_true, if_false, Logged.outcome_pure,
    ok_bind, hsymbol, decide_false]
  rfl

/-- A minus at the start has a zero to be taken from, where it is a sign. -/
theorem read_minus (signed : Bool) (cs : List Char) :
    v.read signed (Operator.sub.symbol :: cs) =
      v.read false cs >>= fun rest =>
        .ok ((if signed then [⟨.number, "0"⟩] else []) ++ .ofOperator .sub :: rest) := by
  have hminus : Lexeme.start Operator.sub.symbol = .operator .sub := rfl
  rw [← List.nil_append (Operator.sub.symbol :: cs), v.read_append (breaks_symbol .sub), hminus]
  cases signed <;> rfl

theorem read_word {kind : Kind} {cs : List Char} (h : IsWord cs)
    (hkind : v.kind? (String.ofList cs) = some kind) (signed : Bool) :
    v.read signed cs = .ok [⟨kind, String.ofList cs⟩] := by
  rw [read, Lexeme.split_word h, readLexemes_singleton]
  simp only [readLexeme, hkind, Logged.outcome_pure]

theorem read_numeral {cs : List Char} (h : IsNumeral cs) (signed : Bool) :
    v.read signed cs = .ok [⟨.number, String.ofList cs⟩] := by
  rw [read, Lexeme.split_numeral h, readLexemes_singleton]
  rfl

/-- A text is read once its blanks are gone. -/
theorem tokenize_eq (text : String) :
    v.tokenize text =
      if unblanked text = [] then .fail .emptyText
      else v.readLexemes true (Lexeme.split (unblanked text)) >>= fun ts =>
        Logged.emit (.tokens ts) >>= fun _ => pure ts := by
  unfold tokenize unblanked
  cases text.toList.filter (!isBlank ·) <;> rfl

theorem tokenize_outcome (text : String) :
    (v.tokenize text).outcome =
      if unblanked text = [] then .error .emptyText else v.read true (unblanked text) := by
  rw [tokenize_eq]
  split
  · rfl
  · simp only [Logged.outcome_bind, Logged.outcome_emit, ok_bind, Logged.outcome_pure,
      bind_pure_ok, read]

theorem tokenize_eq_ok_iff {text : String} {ts : List Token} :
    (v.tokenize text).outcome = .ok ts ↔
      unblanked text ≠ [] ∧ v.read true (unblanked text) = .ok ts := by
  rw [tokenize_outcome]
  split <;> simp_all

end Vocabulary

end PostfixCalc

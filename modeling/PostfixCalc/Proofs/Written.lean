import Mathlib.Data.List.Find
import PostfixCalc.Proofs.Grammar
import PostfixCalc.Proofs.Meaning
import PostfixCalc.Proofs.Numeral
import PostfixCalc.Proofs.Reading
import PostfixCalc.Vocabulary.Standard

/-! # Written expressions

The expressions a text may hold, as a grammar on characters, each with the tree it stands
for. A text of the grammar, with blanks put in anywhere, compiles, and its formula
has the value of the tree for every value of the variable. A numeral with a second point
is the one thing that can go wrong, and it goes wrong only in the evaluation. -/

namespace PostfixCalc

/-- A word that stands for a meaning of this kind. -/
structure Vocabulary.Names (v : Vocabulary) (kind : Kind) (w : List Char) : Prop
    extends IsWord w where
  meaning : v.kind? (String.ofList w) = some kind

/-- `Written v r cs e`: the characters are a part of rank `r` and stand for the tree `e`. -/
inductive Written (v : Vocabulary) : Rank → List Char → Tree → Prop
  | number {cs} (h : IsNumeral cs) : Written v .closed cs (.leaf ⟨.number, String.ofList cs⟩)
  | var {c} (hc : c = 'x' ∨ c = 'X') : Written v .closed [c] (.leaf ⟨.var, String.singleton c⟩)
  | constant {w} (hw : v.Names .constant w) :
      Written v .closed w (.leaf ⟨.constant, String.ofList w⟩)
  | bracketed {cs e} (h : Written v .expr cs e) : Written v .closed ('(' :: (cs ++ [')'])) e
  | unary {w cs e} (hw : v.Names .unaryFn w) (h : Written v .expr cs e) :
      Written v .prim (w ++ '(' :: (cs ++ [')'])) (.unary ⟨.unaryFn, String.ofList w⟩ e)
  | binary {w cs ds a b} (hw : v.Names .binaryFn w) (hl : Written v .closed cs a)
      (hr : Written v .sum ds b) :
      Written v .prim (w ++ '(' :: (cs ++ ',' :: (ds ++ [')'])))
        (.binary ⟨.binaryFn, String.ofList w⟩ a b)
  | power {cs ds a b} (hl : Written v .prim cs a) (hr : Written v .factor ds b) :
      Written v .factor (cs ++ Operator.pow.symbol :: ds) (.binary (.ofOperator .pow) a b)
  | product {op cs ds a b} (hop : op = Operator.mul ∨ op = .div) (hl : Written v .term cs a)
      (hr : Written v .factor ds b) :
      Written v .term (cs ++ op.symbol :: ds) (.binary (.ofOperator op) a b)
  | sum {op r cs ds a b} (hop : op = Operator.add ∨ op = .sub) (hrank : r = .sum ∨ r = .expr)
      (hl : Written v r cs a) (hr : Written v .term ds b) :
      Written v r (cs ++ op.symbol :: ds) (.binary (.ofOperator op) a b)
  | negative {cs e} (h : Written v .term cs e) :
      Written v .expr (Operator.sub.symbol :: cs)
        (.binary (.ofOperator .sub) (.leaf ⟨.number, "0"⟩) e)
  | wider {r s cs e} (hrank : r.wider? = some s) (h : Written v r cs e) : Written v s cs e

namespace Written

variable {v : Vocabulary} {cs : List Char} {e : Tree}

theorem term_of_closed (h : Written v .closed cs e) : Written v .term cs e :=
  .wider rfl (.wider rfl (.wider rfl h))

theorem expr_of_term (h : Written v .term cs e) : Written v .expr cs e :=
  .wider rfl (.wider rfl h)

theorem digit {c : Char} (hc : c.isDigit = true) :
    Written v .closed [c] (.leaf ⟨.number, String.ofList [c]⟩) :=
  .number (.singleton hc)

end Written

/-- `Spaced cs ds`: blanks have been put in anywhere among `cs`. -/
inductive Spaced : List Char → List Char → Prop
  | nil : Spaced [] []
  | blank {c cs ds} (hc : isBlank c = true) (h : Spaced cs ds) : Spaced cs (c :: ds)
  | keep {c cs ds} (h : Spaced cs ds) : Spaced (c :: cs) (c :: ds)

theorem Spaced.filter {cs ds : List Char} (h : Spaced cs ds)
    (hcs : ∀ c ∈ cs, isBlank c = false) : ds.filter (!isBlank ·) = cs := by
  induction h with
  | nil => rfl
  | blank hc _ ih => simp [hc, ih hcs]
  | keep _ ih =>
    simp only [List.forall_mem_cons] at hcs
    simp [hcs.1, ih hcs.2]

/-- Any text is what is left of it with its blanks put in again. -/
theorem Spaced.of_filter {cs ds : List Char} (h : ds.filter (!isBlank ·) = cs) : Spaced cs ds := by
  induction ds generalizing cs with
  | nil =>
    subst h
    exact .nil
  | cons d ds ih =>
    subst h
    by_cases hd : isBlank d = true
    · simpa [hd] using Spaced.blank hd (ih rfl)
    · simpa [hd] using Spaced.keep (ih rfl)

/-- How a part reads wherever it stands: as tokens that stand for its tree, as tightly as its
rank says. Only a part that a minus may begin needs a place where a minus is a sign. -/
structure Reads (v : Vocabulary) (r : Rank) (cs : List Char) (e : Tree) (n : Nat)
    (ts : List Token) : Prop where
  order : Infix n ts e
  level : r.level ≤ n
  closed : n = 5 → Written v .closed cs e
  read : ∀ signed, (r = .expr → signed = true) → v.read signed cs = .ok ts
  nonempty : cs ≠ []
  last : cs.getLast? ≠ some '('

theorem getLast?_append_cons {ds : List Char} (hne : ds ≠ []) (hlast : ds.getLast? ≠ some '(')
    (cs : List Char) (d : Char) : (cs ++ d :: ds).getLast? ≠ some '(' := by
  rw [List.getLast?_eq_some_getLast hne] at hlast
  simpa [List.getLast?_append, List.getLast?_cons, List.getLast?_eq_some_getLast hne] using hlast

theorem getLast?_closing (cs ds : List Char) : (cs ++ '(' :: (ds ++ [')'])).getLast? ≠ some '(' :=
  getLast?_append_cons (by simp) (by simp) cs '('

namespace Vocabulary.Names

variable {v : Vocabulary} {kind : Kind} {w : List Char}

theorem read (h : v.Names kind w) (signed : Bool) :
    v.read signed w = .ok [⟨kind, String.ofList w⟩] :=
  v.read_word h.toIsWord h.meaning signed

theorem last (h : v.Names kind w) : w.getLast? ≠ some '(' := by
  intro hlast
  have := h.letters '(' (List.mem_of_getLast? hlast)
  exact absurd this (by decide)

end Vocabulary.Names

namespace Reads

variable {v : Vocabulary} {r s : Rank} {cs ds : List Char} {e a b : Tree} {m n : Nat}
  {ts us : List Token}

theorem wider (hrank : r.wider? = some s) (h : Reads v r cs e n ts) : Reads v s cs e n ts where
  order := h.order
  level := Nat.le_trans (Rank.level_le_of_wider hrank) h.level
  closed := h.closed
  read signed _ := h.read signed (by rintro rfl; cases hrank)
  nonempty := h.nonempty
  last := h.last

theorem operator {op : Operator} {l : Nat} (hl : Reads v r cs a m ts) (hr : Reads v s ds b n us)
    (hs : s ≠ .expr) (hlevel : op.level = l) (hrank : r.level ≤ l)
    (horder : Infix l (ts ++ .ofOperator op :: us) (.binary (.ofOperator op) a b)) :
    Reads v r (cs ++ op.symbol :: ds) (.binary (.ofOperator op) a b) l
      (ts ++ .ofOperator op :: us) where
  order := horder
  level := hrank
  closed h := by
    have := op.level_le
    omega
  read signed hsigned := by
    rw [v.read_operator op hl.nonempty hl.last, hl.read signed hsigned,
      hr.read false fun hexpr => absurd hexpr hs]
    rfl
  nonempty := by simp
  last := getLast?_append_cons hr.nonempty hr.last cs _

/-- An expression in brackets, after nothing or after the name of a function. -/
theorem read_brackets (h : Reads v .expr cs e n ts) {front : List Char} {us : List Token}
    (hfront : ∀ signed, v.read signed front = .ok us) (signed : Bool) :
    v.read signed (front ++ '(' :: (cs ++ [')'])) =
      .ok (us ++ .opening :: (ts ++ [.closing])) := by
  rw [v.read_bracketed (h.read true fun _ => rfl), hfront]
  simp

/-- Two arguments are read one after the other, as if nothing stood between them. -/
theorem read_call {w : List Char} {f : Token} (hw : ∀ signed, v.read signed w = .ok [f])
    (hl : Reads v r cs a m ts) (hr : v.read false ds = .ok us) (signed : Bool) :
    v.read signed (w ++ '(' :: (cs ++ ',' :: (ds ++ [')']))) =
      .ok (f :: .opening :: (ts ++ (us ++ [.closing]))) := by
  have hcomma : Lexeme.start ',' = .other ',' := by decide
  have harguments : v.read true (cs ++ ',' :: ds) = .ok (ts ++ us) := by
    rw [v.read_append (by decide), hl.read true fun _ => rfl, hcomma]
    simp [Vocabulary.readLexeme, hr]
  simpa [hw] using v.read_bracketed harguments signed w []

end Reads

/-- Every part of an expression reads as tokens that stand for its tree. -/
theorem Written.reads {v : Vocabulary} {r : Rank} {cs : List Char} {e : Tree}
    (h : Written v r cs e) : ∃ n ts, Reads v r cs e n ts := by
  induction h with
  | number h =>
    refine ⟨5, _, .operand rfl, Nat.le_refl 5, fun _ => .number h,
      fun signed _ => v.read_numeral h signed, h.nonempty, ?_⟩
    intro hlast
    exact absurd (h.mem _ (List.mem_of_getLast? hlast)) (by decide)
  | @var c hc =>
    refine ⟨5, _, .operand rfl, Nat.le_refl 5, fun _ => .var hc, fun signed _ => ?_, by simp, ?_⟩
    · rcases hc with rfl | rfl <;> rfl
    · rcases hc with rfl | rfl <;> decide
  | constant hw =>
    exact ⟨5, _, .operand rfl, Nat.le_refl 5, fun _ => .constant hw,
      fun signed _ => hw.read signed, hw.nonempty, hw.last⟩
  | @bracketed cs e he ih =>
    obtain ⟨n, ts, ht⟩ := ih
    refine ⟨5, _, .bracketed Token.role_opening Token.role_closing ht.order, Nat.le_refl 5,
      fun _ => .bracketed he, fun signed _ => ?_, by simp, getLast?_closing [] cs⟩
    have hnothing (signed : Bool) : v.read signed [] = .ok [] := rfl
    exact ht.read_brackets hnothing signed
  | @unary w cs e hw _ ih =>
    obtain ⟨n, ts, ht⟩ := ih
    have hbracketed : Infix 5 (.opening :: (ts ++ [.closing])) e :=
      .bracketed Token.role_opening Token.role_closing ht.order
    exact ⟨4, _, .unary rfl (by decide) hbracketed, Nat.le_refl 4, nofun,
      fun signed _ => ht.read_brackets hw.read signed, by simp, getLast?_closing w cs⟩
  | @binary w cs ds a b hw _ _ ihl ihr =>
    obtain ⟨m, ts, hl⟩ := ihl
    obtain ⟨n, us, hr⟩ := ihr
    obtain rfl : m = 5 := Nat.le_antisymm hl.order.level_le hl.level
    exact ⟨4, _, .binary rfl Token.role_opening Token.role_closing hl.order hr.order,
      Nat.le_refl 4, nofun, fun signed _ => hl.read_call hw.read (hr.read false nofun) signed,
      by simp, by simpa using getLast?_closing w (cs ++ ',' :: ds)⟩
  | power _ _ ihl ihr =>
    obtain ⟨m, ts, hl⟩ := ihl
    obtain ⟨n, us, hr⟩ := ihr
    have horder := Infix.power (Token.role_ofOperator .pow) rfl hl.level hl.order hr.level hr.order
    exact ⟨3, _, (hl.wider rfl).operator hr nofun rfl (Nat.le_refl 3) horder⟩
  | product hop _ _ ihl ihr =>
    obtain ⟨m, ts, hl⟩ := ihl
    obtain ⟨n, us, hr⟩ := ihr
    have horder := Infix.product hop hl.level hl.order hr.level hr.order
    exact ⟨2, _, hl.operator hr nofun (Operator.level_eq_two_iff.mpr hop) (Nat.le_refl 2) horder⟩
  | @sum op r _ _ a b hop hrank _ _ ihl ihr =>
    obtain ⟨m, ts, hl⟩ := ihl
    obtain ⟨n, us, hr⟩ := ihr
    have hone : r.level = 1 := by rcases hrank with rfl | rfl <;> rfl
    have horder := Infix.sum hop (hone ▸ hl.level) hl.order hr.level hr.order
    exact ⟨1, _, hl.operator hr nofun (Operator.level_eq_one_iff.mpr hop) (Nat.le_of_eq hone)
      horder⟩
  | @negative cs e _ ih =>
    obtain ⟨n, ts, ht⟩ := ih
    have hzero : Infix 5 [⟨.number, "0"⟩] (.leaf ⟨.number, "0"⟩) := .operand rfl
    have horder := Infix.sum (.inr rfl) (by decide) hzero ht.level ht.order
    refine ⟨1, _, horder, Nat.le_refl 1, nofun, fun signed hsigned => ?_, by simp,
      getLast?_append_cons ht.nonempty ht.last [] _⟩
    obtain rfl := hsigned rfl
    rw [v.read_minus, ht.read false nofun]
    rfl
  | wider hrank _ ih =>
    obtain ⟨n, ts, ht⟩ := ih
    exact ⟨n, ts, ht.wider hrank⟩

theorem call_not_blank {v : Vocabulary} {kind : Kind} {w cs ds : List Char} (hw : v.Names kind w)
    (hcs : ∀ c ∈ cs, isBlank c = false) (hds : ∀ c ∈ ds, isBlank c = false) :
    ∀ c ∈ w ++ '(' :: (cs ++ ',' :: (ds ++ [')'])), isBlank c = false := by
  simp only [List.forall_mem_cons, List.forall_mem_append]
  exact ⟨hw.not_blank, by decide, hcs, by decide, hds, by decide, List.forall_mem_nil _⟩

/-- No part holds a blank, so none is lost when the blanks of a text are dropped. -/
theorem Written.not_blank {v : Vocabulary} {r : Rank} {cs : List Char} {e : Tree}
    (h : Written v r cs e) : ∀ c ∈ cs, isBlank c = false := by
  have hsymbol (op : Operator) : isBlank op.symbol = false := by
    cases op <;> decide
  have hopen : isBlank '(' = false := by decide
  have hclose : isBlank ')' = false := by decide
  induction h with
  | number h => exact h.not_blank
  | var hc =>
    rw [List.forall_mem_singleton]
    rcases hc with rfl | rfl <;> decide
  | constant hw => exact hw.not_blank
  | bracketed _ ih =>
    simp only [List.forall_mem_cons, List.forall_mem_append]
    exact ⟨hopen, ih, hclose, List.forall_mem_nil _⟩
  | unary hw _ ih =>
    simp only [List.forall_mem_cons, List.forall_mem_append]
    exact ⟨hw.not_blank, hopen, ih, hclose, List.forall_mem_nil _⟩
  | binary hw _ _ ihl ihr => exact call_not_blank hw ihl ihr
  | power _ _ ihl ihr =>
    simp only [List.forall_mem_cons, List.forall_mem_append]
    exact ⟨ihl, hsymbol _, ihr⟩
  | product _ _ _ ihl ihr | sum _ _ _ _ ihl ihr =>
    simp only [List.forall_mem_cons, List.forall_mem_append]
    exact ⟨ihl, hsymbol _, ihr⟩
  | negative _ ih => exact List.forall_mem_cons.mpr ⟨hsymbol _, ih⟩
  | wider _ _ ih => exact ih

/-- The names of a part have the meanings that their places ask for. -/
theorem Written.known {v : Vocabulary} {r : Rank} {cs : List Char} {e : Tree}
    (h : Written v r cs e) : e.Known v := by
  have hoperator (op : Operator) : (Token.ofOperator op).Takes 2 ∧ (Token.ofOperator op).Known v :=
    ⟨rfl, op, rfl⟩
  induction h with
  | number _ => exact ⟨rfl, trivial⟩
  | var _ => exact ⟨rfl, trivial⟩
  | constant hw => exact ⟨rfl, Token.known_of_kind? hw.meaning⟩
  | bracketed _ ih => exact ih
  | unary hw _ ih => exact ⟨⟨rfl, Token.known_of_kind? hw.meaning⟩, ih⟩
  | binary hw _ _ ihl ihr => exact ⟨⟨rfl, Token.known_of_kind? hw.meaning⟩, ihl, ihr⟩
  | power _ _ ihl ihr => exact ⟨hoperator _, ihl, ihr⟩
  | product _ _ _ ihl ihr => exact ⟨hoperator _, ihl, ihr⟩
  | sum _ _ _ _ ihl ihr => exact ⟨hoperator _, ihl, ihr⟩
  | negative _ ih => exact ⟨hoperator _, ⟨rfl, trivial⟩, ih⟩
  | wider _ _ ih => exact ih

/-- More than one point is what makes a written numeral unreadable. -/
theorem Written.read?_isNone {v : Vocabulary} {r : Rank} {cs : List Char} {e : Tree}
    (h : Written v r cs e) :
    ∀ n ∈ e.numerals, (Numeral.read? n).isNone = decide (1 < n.toList.count '.') := by
  induction h with
  | @number cs h =>
    intro n hn
    obtain rfl : n = String.ofList cs := by simpa [Tree.numerals] using hn
    have hread := Numeral.read?_isSome_iff h
    rw [String.toList_ofList, Bool.eq_iff_iff, decide_eq_true_iff, Option.isNone_iff_eq_none,
      ← Option.not_isSome_iff_eq_none, hread]
    exact Nat.not_le
  | var _ => simp [Tree.numerals]
  | constant _ => simp [Tree.numerals]
  | bracketed _ ih => exact ih
  | unary _ _ ih => exact ih
  | binary _ _ _ ihl ihr => exact List.forall_mem_append.mpr ⟨ihl, ihr⟩
  | power _ _ ihl ihr => exact List.forall_mem_append.mpr ⟨ihl, ihr⟩
  | product _ _ _ ihl ihr => exact List.forall_mem_append.mpr ⟨ihl, ihr⟩
  | sum _ _ _ _ ihl ihr => exact List.forall_mem_append.mpr ⟨ihl, ihr⟩
  | negative _ ih =>
    refine List.forall_mem_append.mpr ⟨?_, ih⟩
    simp only [Tree.numerals, if_true, List.forall_mem_singleton]
    decide
  | wider _ _ ih => exact ih

/-- With at most one point in each numeral, a written part has a value. -/
theorem Written.exists_value? {v : Vocabulary} {r : Rank} {cs : List Char} {e : Tree}
    (h : Written v r cs e) (hn : ∀ n ∈ e.numerals, n.toList.count '.' ≤ 1) (x : Binary64) :
    ∃ y, e.value? v x = some y := by
  refine h.known.exists_value? fun n hmem => ?_
  have hnone : (Numeral.read? n).isNone = false := by
    rw [h.read?_isNone n hmem, decide_eq_false_iff_not]
    exact Nat.not_lt.mpr (hn n hmem)
  rw [← Option.not_isNone, hnone]
  rfl

/-- A written expression compiles to the postorder of its tree. -/
theorem Vocabulary.compile_of_written {v : Vocabulary} {cs : List Char} {e : Tree} {text : String}
    (h : Written v .expr cs e) (hs : Spaced cs text.toList) :
    (v.compile text).outcome = .ok ⟨v, e.postorder⟩ := by
  obtain ⟨n, ts, ht⟩ := h.reads
  have hcs : unblanked text = cs := hs.filter h.not_blank
  have hread : (v.tokenize text).outcome = .ok ts := by
    rw [v.tokenize_eq_ok_iff, hcs]
    exact ⟨ht.nonempty, ht.read true fun _ => rfl⟩
  simp [compile_outcome, hread, ht.order.postfixOrder]

/-- A written expression compiles, blanks or no blanks, and its formula has the value of its
tree; a numeral with more than one point, the first if there are several, is reported instead. -/
theorem Vocabulary.compile_written (v : Vocabulary) {cs : List Char} {e : Tree} {text : String}
    (h : Written v .expr cs e) (hs : Spaced cs text.toList) :
    ∃ f, (v.compile text).outcome = .ok f ∧ ∀ x,
      match e.numerals.find? (fun n => 1 < n.toList.count '.') with
      | none => ∃ r, e.value? v x = some r ∧ (f x).outcome = .ok r
      | some n => (f x).outcome = .error (.badNumber n) := by
  refine ⟨⟨v, e.postorder⟩, compile_of_written h hs, fun x => ?_⟩
  cases hfind : e.numerals.find? (fun n => 1 < n.toList.count '.') with
  | none =>
    have hn (n : String) (hmem : n ∈ e.numerals) : n.toList.count '.' ≤ 1 := by
      simpa using List.find?_eq_none.mp hfind n hmem
    obtain ⟨r, hr⟩ := h.exists_value? hn x
    exact ⟨r, hr, by simpa using Tree.value_postorder hr⟩
  | some n =>
    rw [← List.find?_congr h.read?_isNone] at hfind
    simpa using h.known.value_badNumber (x := x) hfind

theorem Vocabulary.names_log : standard.Names .binaryFn "log".toList where
  nonempty := by decide
  letters := List.all_eq_true.mp (by decide)
  head c hc := by
    cases hc
    decide
  meaning := by decide

/-- The tree of `-2*log(x,8)`. -/
def negativeProduct : Tree :=
  .binary (.ofOperator .sub) (.leaf ⟨.number, "0"⟩)
    (.binary (.ofOperator .mul) (.leaf ⟨.number, "2"⟩)
      (.binary ⟨.binaryFn, "log"⟩ (.leaf ⟨.var, "x"⟩) (.leaf ⟨.number, "8"⟩)))

theorem written_negativeProduct :
    Written .standard .expr "-2*log(x,8)".toList negativeProduct := by
  have height : Written .standard .sum ['8'] (.leaf ⟨.number, "8"⟩) :=
    .wider rfl (Written.digit rfl).term_of_closed
  have hcall : Written .standard .prim "log(x,8)".toList
      (.binary ⟨.binaryFn, "log"⟩ (.leaf ⟨.var, "x"⟩) (.leaf ⟨.number, "8"⟩)) :=
    .binary Vocabulary.names_log (.var (.inl rfl)) height
  exact .negative (.product (.inl rfl) (Written.digit rfl).term_of_closed (.wider rfl hcall))

theorem Vocabulary.compile_written_negativeProduct :
    Written .standard .expr "-2*log(x,8)".toList negativeProduct ∧
      Spaced "-2*log(x,8)".toList " - 2 * log(x, 8)".toList ∧
      ∃ f, (standard.compile " - 2 * log(x, 8)").outcome = .ok f ∧
        ∀ x, ∃ r, negativeProduct.value? standard x = some r ∧ (f x).outcome = .ok r := by
  have hspaced : Spaced "-2*log(x,8)".toList " - 2 * log(x, 8)".toList := .of_filter (by decide)
  refine ⟨written_negativeProduct, hspaced, ?_⟩
  exact compile_written standard written_negativeProduct hspaced

end PostfixCalc

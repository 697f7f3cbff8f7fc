import PostfixCalc.Proofs.Stack
import PostfixCalc.Tree

/-! # Known tokens and trees

A token is known when its name has the meaning its kind promises. In a tree of known
tokens, each over as many arguments as it takes, only a numeral can be at fault: the tree has a
value when all its numerals are read, and otherwise its postfix list reports the first
that is not. -/

namespace PostfixCalc

namespace Token

/-- What a name promises, its vocabulary keeps. Numerals are not looked at. -/
def Known (v : Vocabulary) (t : Token) : Prop :=
  match t.kind with
  | .number | .var => True
  | .constant => (v.constant t.text).isSome = true
  | .unaryFn => (v.unary t.text).isSome = true
  | .binaryFn => (v.binary t.text).isSome = true
  | .binaryOp => ∃ op : Operator, t.text = String.singleton op.symbol
  | .bracket => t.text = "(" ∨ t.text = ")"

theorem leading?_symbol (op : Operator) :
    Operator.leading? (String.singleton op.symbol) = some op := by
  cases op <;> rfl

/-- A name stands for a token that is known. -/
theorem known_of_kind? {v : Vocabulary} {name : String} {kind : Kind}
    (h : v.kind? name = some kind) : Known v ⟨kind, name⟩ := by
  unfold Vocabulary.kind? at h
  split at h
  · cases h
    assumption
  · split at h
    · cases h
      assumption
    · split at h
      · cases h
        assumption
      · cases h

end Token

namespace Tree

variable {v : Vocabulary} {x : Binary64}

/-- Every token takes as many arguments as it has, and meets a demand. -/
def Suited (p : Token → Prop) : Tree → Prop
  | leaf t => t.Takes 0 ∧ p t
  | unary f arg => (f.Takes 1 ∧ p f) ∧ arg.Suited p
  | binary f left right => (f.Takes 2 ∧ p f) ∧ left.Suited p ∧ right.Suited p

instance Suited.decidable (p : Token → Prop) [DecidablePred p] : DecidablePred (Suited p)
  | leaf t => inferInstanceAs (Decidable (t.Takes 0 ∧ p t))
  | unary f arg =>
    have := decidable p arg
    inferInstanceAs (Decidable ((f.Takes 1 ∧ p f) ∧ arg.Suited p))
  | binary f left right =>
    have := decidable p left
    have := decidable p right
    inferInstanceAs (Decidable ((f.Takes 2 ∧ p f) ∧ left.Suited p ∧ right.Suited p))

theorem Suited.mono {p q : Token → Prop} (hpq : ∀ t, p t → q t) {e : Tree} (h : e.Suited p) :
    e.Suited q := by
  induction e with
  | leaf t => exact ⟨h.1, hpq t h.2⟩
  | unary f arg ih => exact ⟨⟨h.1.1, hpq f h.1.2⟩, ih h.2⟩
  | binary f left right ihl ihr => exact ⟨⟨h.1.1, hpq f h.1.2⟩, ihl h.2.1, ihr h.2.2⟩

/-- Every token takes as many arguments as it has. -/
def Placed : Tree → Prop :=
  Suited fun _ => True

instance : DecidablePred Placed :=
  inferInstanceAs (DecidablePred (Suited fun _ => True))

theorem Suited.placed {p : Token → Prop} {e : Tree} (h : e.Suited p) : e.Placed :=
  h.mono fun _ _ => trivial

/-- Every token is known, besides. -/
def Known (v : Vocabulary) : Tree → Prop :=
  Suited (Token.Known v)

/-- The numerals of a tree, as they are written from left to right. -/
def numerals : Tree → List String
  | leaf t => if t.kind = .number then [t.text] else []
  | unary _ arg => arg.numerals
  | binary _ left right => left.numerals ++ right.numerals

/-- A known binary token combines the values of its two sides, the left one first. -/
theorem Known.merge {f : Token} (hf : f.isBinary = true) (h : f.Known v) :
    ∃ g : Binary64 → Binary64 → Binary64, ∀ left right : Tree, (binary f left right).value? v x =
      (left.value? v x).bind fun a => (right.value? v x).map (g a) := by
  simp only [Token.isBinary, Bool.or_eq_true, decide_eq_true_eq] at hf
  unfold Token.Known at h
  rcases hf with hf | hf
  · simp only [hf] at h
    obtain ⟨op, hop⟩ := h
    refine ⟨op.apply, fun left right => ?_⟩
    simp only [value?, hf, hop, Token.leading?_symbol]
    cases left.value? v x <;> cases right.value? v x <;> rfl
  · simp only [hf, Option.isSome_iff_exists] at h
    obtain ⟨g, hg⟩ := h
    refine ⟨g, fun left right => ?_⟩
    simp only [value?, hf, hg]
    cases left.value? v x <;> cases right.value? v x <;> rfl

/-- With all numerals read, a known tree has a value. -/
theorem Known.exists_value? {e : Tree} (h : e.Known v)
    (hn : ∀ n ∈ e.numerals, (Numeral.read? n).isSome = true) : ∃ r, e.value? v x = some r := by
  induction e with
  | leaf t =>
    obtain ⟨hr, hk⟩ := h
    unfold value?
    unfold Token.Known at hk
    unfold Token.Takes Token.role at hr
    unfold numerals at hn
    cases hkind : t.kind <;> simp_all [Option.isSome_iff_exists]
    split at hr <;> cases hr
  | unary f arg ih =>
    obtain ⟨⟨hf, hk⟩, ha⟩ := h
    obtain ⟨a, hval⟩ := ih ha hn
    simp only [Token.Takes] at hf
    simp only [Token.Known, hf, Option.isSome_iff_exists] at hk
    obtain ⟨g, hg⟩ := hk
    exact ⟨g a, by simp [value?, hf, hg, hval]⟩
  | binary f left right ihl ihr =>
    obtain ⟨⟨hf, hk⟩, hl, hr⟩ := h
    obtain ⟨a, hleft⟩ := ihl hl fun n hm => hn n (List.mem_append_left _ hm)
    obtain ⟨b, hright⟩ := ihr hr fun n hm => hn n (List.mem_append_right _ hm)
    obtain ⟨g, hval⟩ := Known.merge (x := x) hf hk
    exact ⟨g a b, by simp [hval, hleft, hright]⟩

/-- The first numeral that is not read is what the list reports. -/
theorem Known.foldlM_badNumber {e : Tree} (h : e.Known v) {n : String}
    (hn : e.numerals.find? (fun n => (Numeral.read? n).isNone) = some n) (stack : List Binary64) :
    e.postorder.foldlM (v.step x) stack = .error (.badNumber n) := by
  induction e generalizing stack with
  | leaf t =>
    unfold numerals at hn
    split at hn
    · rename_i hk
      obtain ⟨hnone, rfl⟩ : (Numeral.read? t.text).isNone = true ∧ t.text = n := by
        simpa using hn
      have ha : v.action x t = .error (.badNumber t.text) := by
        simp [Vocabulary.action, hk, Option.isNone_iff_eq_none.mp hnone]
      simp [postorder, Vocabulary.step, ha]
    · cases hn
  | unary f arg ih =>
    simp only [postorder, List.foldlM_append, ih h.2 hn, error_bind]
  | binary f left right ihl ihr =>
    obtain ⟨-, hl, hr⟩ := h
    simp only [postorder, List.foldlM_append]
    rw [numerals, List.find?_append, Option.or_eq_some_iff] at hn
    rcases hn with hn | ⟨hnone, hn⟩
    · rw [ihl hl hn]
      rfl
    · obtain ⟨a, ha⟩ := Known.exists_value? (x := x) hl fun m hm => by
        simpa [Option.isSome_iff_ne_none] using List.find?_eq_none.mp hnone m hm
      rw [foldlM_postorder ha, ok_bind, ihr hr hn]
      rfl

theorem Known.value_badNumber {e : Tree} (h : e.Known v) {n : String}
    (hn : e.numerals.find? (fun n => (Numeral.read? n).isNone) = some n) :
    v.value x e.postorder = .error (.badNumber n) := by
  rw [Vocabulary.value, h.foldlM_badNumber hn, error_bind]

end Tree

end PostfixCalc

import PostfixCalc.Evaluation

/-! Expression trees: what a postfix list stands for. Written arguments first,
a tree is a postfix list, and a tree that has a value gives the list the same
value, whatever lies on the stack below. -/

namespace PostfixCalc

inductive Tree where
  | leaf (t : Token)
  | unary (f : Token) (arg : Tree)
  | binary (f : Token) (left right : Tree)
  deriving DecidableEq, Repr

namespace Tree

def postorder : Tree → List Token
  | leaf t => [t]
  | unary f arg => arg.postorder ++ [f]
  | binary f left right => left.postorder ++ right.postorder ++ [f]

/-- The value when the variable is `x`; none where a token is unknown or out of place. -/
def value? (v : Vocabulary) (x : Binary64) : Tree → Option Binary64
  | leaf t =>
    match t.kind with
    | .number => Numeral.read? t.text
    | .var => some x
    | .constant => v.constant t.text
    | _ => none
  | unary f arg =>
    match f.kind with
    | .unaryFn => do
      let f ← v.unary f.text
      return f (← arg.value? v x)
    | _ => none
  | binary f left right =>
    match f.kind with
    | .binaryFn => do
      let f ← v.binary f.text
      return f (← left.value? v x) (← right.value? v x)
    | .binaryOp => do
      let op ← Operator.leading? f.text
      return op.apply (← left.value? v x) (← right.value? v x)
    | _ => none

theorem foldlM_postorder {v : Vocabulary} {x r : Binary64} {e : Tree} (h : e.value? v x = some r)
    (stack : List Binary64) : e.postorder.foldlM (v.step x) stack = .ok (r :: stack) := by
  induction e generalizing r stack with
  | leaf t =>
    have ha : v.action x t = .ok (.push r) := by
      unfold value? at h
      unfold Vocabulary.action
      split at h <;> simp_all
    have hs : v.step x stack t = .ok (r :: stack) := Vocabulary.step_eq_ok ha rfl
    simp [postorder, hs]
  | unary f arg ih =>
    unfold value? at h
    split at h
    · rename_i hk
      simp only [bind, pure, Option.bind_eq_some_iff, Option.some.injEq] at h
      obtain ⟨g, hg, a, ha, rfl⟩ := h
      have hf : v.action x f = .ok (.map g) := by simp [Vocabulary.action, hk, hg]
      have hs : v.step x (a :: stack) f = .ok (g a :: stack) := Vocabulary.step_eq_ok hf rfl
      rw [postorder, List.foldlM_append, ih ha]
      simp only [List.foldlM_cons, List.foldlM_nil, hs, bind, Except.bind, pure, Except.pure]
    · cases h
  | binary f left right ihl ihr =>
    have hf : ∃ g a b, v.action x f = .ok (.merge g) ∧ left.value? v x = some a ∧
        right.value? v x = some b ∧ g a b = r := by
      unfold value? at h
      split at h
      · rename_i hk
        simp only [bind, pure, Option.bind_eq_some_iff, Option.some.injEq] at h
        obtain ⟨g, hg, a, ha, b, hb, rfl⟩ := h
        exact ⟨g, a, b, by simp [Vocabulary.action, hk, hg], ha, hb, rfl⟩
      · rename_i hk
        simp only [bind, pure, Option.bind_eq_some_iff, Option.some.injEq] at h
        obtain ⟨op, hop, a, ha, b, hb, rfl⟩ := h
        exact ⟨op.apply, a, b, by simp [Vocabulary.action, hk, hop], ha, hb, rfl⟩
      · cases h
    obtain ⟨g, a, b, hf, ha, hb, rfl⟩ := hf
    have hs : v.step x (b :: a :: stack) f = .ok (g a b :: stack) :=
      Vocabulary.step_eq_ok hf rfl
    rw [postorder, List.foldlM_append, List.foldlM_append, ihl ha]
    simp only [ihr hb, List.foldlM_cons, List.foldlM_nil, hs, bind, Except.bind, pure, Except.pure]

theorem value_postorder {v : Vocabulary} {x r : Binary64} {e : Tree} (h : e.value? v x = some r) :
    v.value x e.postorder = .ok r := by
  simp [Vocabulary.value, foldlM_postorder h, bind, Except.bind]

end Tree

end PostfixCalc

import PostfixCalc.Evaluation
import PostfixCalc.PostfixOrder
import PostfixCalc.Reading

/-! Formulas: expressions read and reordered once, to be evaluated for any
value of the variable. A formula keeps the vocabulary it was compiled with. -/

namespace PostfixCalc

structure Formula where
  vocabulary : Vocabulary
  /-- In postfix order. -/
  tokens : List Token

namespace Formula

def text (f : Formula) : String :=
  Token.spaced f.tokens

def evaluate (f : Formula) (x : Binary64) : Logged Binary64 :=
  f.vocabulary.evaluate f.tokens x

/-- A formula is a function of its variable. -/
instance : CoeFun Formula fun _ => Binary64 → Logged Binary64 := ⟨evaluate⟩

end Formula

def Vocabulary.compile (v : Vocabulary) (text : String) : Logged Formula := do
  .emit (.compiling text)
  let ts ← v.tokenize text
  let ordered ← toPostfix ts
  pure ⟨v, ordered⟩

end PostfixCalc

import PostfixCalc.Formula

/-! From a text to its value in one go: written in infix order, in postfix
order, or in infix order with the steps shown. -/

namespace PostfixCalc

/-- How a value was reached, for the user to read. -/
structure Steps where
  /-- The texts of the tokens, as they stand. -/
  tokens : String
  /-- The same in postfix order. -/
  ordered : String
  value : Binary64

namespace Vocabulary

def calculate (v : Vocabulary) (text : String) (x : Binary64) : Logged Binary64 := do
  let f ← v.compile text
  f x

/-- Takes the tokens in the order they stand in. Brackets are no more than punctuation here. -/
def calculatePostfix (v : Vocabulary) (text : String) (x : Binary64) : Logged Binary64 := do
  let ts ← v.tokenize text
  let ts := ts.filter (·.kind ≠ .bracket)
  .emit (.taken ts)
  v.evaluate ts x

def explain (v : Vocabulary) (text : String) (x : Binary64) : Logged Steps := do
  let tokens ← v.tokenize text
  let ordered ← toPostfix tokens
  let value ← v.evaluate ordered x
  pure ⟨Token.spaced tokens, Token.spaced ordered, value⟩

/-- To calculate is to announce the text, to take the steps that are shown and to keep no
more of them than the value. -/
theorem calculate_eq_explain (v : Vocabulary) (text : String) (x : Binary64) :
    v.calculate text x =
      Logged.emit (.compiling text) >>= fun _ => Steps.value <$> v.explain text x := by
  simp only [calculate, compile, explain, Formula.evaluate, bind_assoc, map_bind, pure_bind,
    map_pure, bind_pure]

end Vocabulary

end PostfixCalc

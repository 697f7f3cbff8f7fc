import PostfixCalc.Lexeme
import PostfixCalc.Log
import PostfixCalc.Text.Blank
import PostfixCalc.Vocabulary

/-! Reading a text as a list of tokens. White space is dropped first, wherever
it stands, so it separates nothing; what has no meaning is skipped after the text
is split, so it does separate. Numerals are not checked here. -/

namespace PostfixCalc.Vocabulary

/-- The tokens of one lexeme. Where a minus is a sign it has a zero to be taken from. -/
def readLexeme (v : Vocabulary) (signed : Bool) (l : Lexeme) : Logged (List Token) :=
  match l with
  | .var _ => pure [⟨.var, l.text⟩]
  | .operator op =>
    pure (if signed && op = .sub then [⟨.number, "0"⟩, ⟨.binaryOp, l.text⟩]
      else [⟨.binaryOp, l.text⟩])
  | .opening | .closing => pure [⟨.bracket, l.text⟩]
  | .word name =>
    match v.kind? name with
    | some kind => pure [⟨kind, name⟩]
    | none => .fail (.unknownName name)
  | .numeral text => pure [⟨.number, text⟩]
  | .other c => do
    .emit (.skipped c)
    pure []

/-- A minus is a sign at the start and right after an open bracket. -/
def readLexemes (v : Vocabulary) (signed : Bool) : List Lexeme → Logged (List Token)
  | [] => pure []
  | l :: ls => do
    let now ← v.readLexeme signed l
    (now ++ ·) <$> v.readLexemes (l = .opening) ls

def tokenize (v : Vocabulary) (text : String) : Logged (List Token) :=
  match text.toList.filter (!isBlank ·) with
  | [] => .fail .emptyText
  | cs => do
    let ts ← v.readLexemes true (Lexeme.split cs)
    .emit (.tokens ts)
    pure ts

end PostfixCalc.Vocabulary

/-! Tokens: a kind and the text it was written with. The text is any string;
only what reads a token decides whether the text suits the kind. -/

namespace PostfixCalc

inductive Kind where
  | number
  | var
  | constant
  | binaryOp
  | unaryFn
  | binaryFn
  | bracket
  deriving DecidableEq, Repr

structure Token where
  kind : Kind
  text : String
  deriving DecidableEq, Repr

namespace Token

/-- Every bracket token but this one closes. -/
def isOpen (t : Token) : Bool :=
  t.kind = .bracket && t.text = "("

def isFunction (t : Token) : Bool :=
  t.kind = .unaryFn || t.kind = .binaryFn

/-- The texts of a list of tokens, with one space between two of them. -/
def spaced (ts : List Token) : String :=
  " ".intercalate (ts.map text)

end Token

end PostfixCalc

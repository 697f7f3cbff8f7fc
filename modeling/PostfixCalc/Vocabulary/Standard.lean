import PostfixCalc.Vocabulary

/-! The vocabulary at the start: trigonometry and its inverses, roots, sign and
absolute value, logarithms, `pi` and `e`. Outside its domain a function gives
an infinity or NaN, as binary64 arithmetic does. -/

namespace PostfixCalc

open Binary64 (lift lift₂)

/-- NaN and both zeros keep what they are. -/
def sign : Binary64 → Binary64 :=
  lift fun a => if a > 0 then 1 else if a < 0 then -1 else a * 0

/-- The natural logarithm, with its two exact values spelled out: zero at one, and
minus infinity at zero of either sign. -/
def naturalLog (a : Float) : Float :=
  if a == 1 then 0 else if a == 0 then -(1 / 0) else a.log

/-- Base 1 has no logarithm, and an infinity would hide that. -/
def logarithm : Binary64 → Binary64 → Binary64 :=
  lift₂ fun value base => if base == 1 then 0 / 0 else naturalLog value / naturalLog base

namespace Vocabulary

def standardUnary : List (String × (Binary64 → Binary64)) :=
  [("sin", lift Float.sin),
   ("cos", lift Float.cos),
   ("tg", lift Float.tan),
   ("ctg", lift fun a => a.cos / a.sin),
   ("sign", sign),
   ("sqrt", lift Float.sqrt),
   ("abs", Binary64.abs),
   ("acos", lift Float.acos),
   ("asin", lift Float.asin),
   ("atan", lift Float.atan),
   ("actg", lift fun a => 1 / a.atan),
   ("arctg", lift fun a => 1 / a.atan),
   ("lg", lift Float.log10),
   ("ln", lift naturalLog)]

def standardBinary : List (String × (Binary64 → Binary64 → Binary64)) :=
  [("log", logarithm)]

def standardConstants : List (String × Binary64) :=
  [("pi", .ofFloat 3.141592653589793),
   ("π", .ofFloat 3.141592653589793),
   ("e", .ofFloat 2.718281828459045)]

def standard : Vocabulary where
  unary name := standardUnary.lookup name
  binary name := standardBinary.lookup name
  constant name := standardConstants.lookup name

end Vocabulary

end PostfixCalc

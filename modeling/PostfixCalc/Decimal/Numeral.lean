import PostfixCalc.Binary64

/-! Decimal numbers `digits * 10 ^ exp`, the binary64 number nearest to one, and the texts
that denote a number: an optional sign, then `inf`, `infinity` or `nan` in any case, or
digits with an optional point and an optional exponent. At least one digit stands
beside the point, and nothing else is allowed, no blank and no separator. -/

namespace PostfixCalc

structure Decimal where
  digits : Nat
  exp : Int
  deriving DecidableEq, Repr

/-- Rounds to nearest, ties to even. A number of at least 10^309 is an infinity and
one below 10^-324 is zero; neither needs its power of ten. -/
def Decimal.nearest (d : Decimal) : Binary64 :=
  let top := d.exp + (Nat.toDigits 10 d.digits).length
  if d.digits = 0 then 0
  else if 310 ≤ top then .inf
  else if top ≤ -324 then 0
  else if 0 ≤ d.exp then .ofFloat (Float.ofScientific d.digits false d.exp.toNat)
  else .ofFloat (Float.ofScientific d.digits true (-d.exp).toNat)

namespace Numeral

/-- Splits the leading digits off. -/
def digits (cs : List Char) : List Char × List Char :=
  (cs.takeWhile Char.isDigit, cs.dropWhile Char.isDigit)

def natural? (cs : List Char) : Option Nat :=
  if cs ≠ [] ∧ cs.all Char.isDigit then some (Nat.ofDigitChars 10 cs 0) else none

def integer? : List Char → Option Int
  | '-' :: cs => (natural? cs).map fun n => -(n : Int)
  | '+' :: cs => (natural? cs).map fun n => (n : Int)
  | cs => (natural? cs).map fun n => (n : Int)

/-- What may follow the digits: nothing, or an exponent. -/
def exponent? : List Char → Option Int
  | [] => some 0
  | 'e' :: cs | 'E' :: cs => integer? cs
  | _ => none

def decimal? (cs : List Char) : Option Decimal :=
  let (whole, rest) := digits cs
  let (fraction, rest) := match rest with
    | '.' :: cs => digits cs
    | cs => ([], cs)
  if whole = [] ∧ fraction = [] then none
  else (exponent? rest).map fun e =>
    ⟨Nat.ofDigitChars 10 (whole ++ fraction) 0, e - fraction.length⟩

def unsigned? (cs : List Char) : Option Binary64 :=
  let word := cs.map Char.toLower
  if word = ['n', 'a', 'n'] then some .nan
  else if word = ['i', 'n', 'f'] ∨ word = ['i', 'n', 'f', 'i', 'n', 'i', 't', 'y'] then
    some .inf
  else (decimal? cs).map Decimal.nearest

def read? (text : String) : Option Binary64 :=
  match text.toList with
  | '-' :: cs => (unsigned? cs).map (- ·)
  | '+' :: cs => unsigned? cs
  | cs => unsigned? cs

end Numeral

end PostfixCalc

import PostfixCalc.Decimal.Numeral

/-! Plain text of a number: its shortest decimal written out in full, never with an
exponent, and with a point only before digits. Shortest is the decimal that reads back
as the number, and of several as short the nearest. The grids `10 ^ p` are tried from
coarse to fine: if any point of a grid lies in the interval of the number, so does one
of the number's two neighbours on that grid. -/

namespace PostfixCalc

/-- The size of a finite number as `mant * 2 ^ exp`, and the interval of reals that round
to it. In quarters of `2 ^ exp` the interval reaches from `low` to `high`: half a unit to
each side, but a quarter downward from a power of two, where the numbers below lie twice
as close. -/
structure Magnitude where
  mant : Nat
  exp : Int
  narrow : Bool

namespace Magnitude

/-- Of the 63 bits below the sign, eleven hold the exponent and 52 the fraction. -/
def ofBinary64 (x : Binary64) : Magnitude :=
  let fraction := (x.size &&& 0xfffffffffffff).toNat
  let biased := (x.size >>> 52).toNat
  if biased = 0 then ⟨fraction, -1074, false⟩
  else ⟨0x10000000000000 + fraction, (biased : Int) - 1075, fraction = 0 && 1 < biased⟩

def low (m : Magnitude) : Nat :=
  4 * m.mant - if m.narrow then 1 else 2

def high (m : Magnitude) : Nat :=
  4 * m.mant + 2

/-- Its ends round to the number itself when the mantissa is even. -/
def closed (m : Magnitude) : Bool :=
  m.mant % 2 = 0

/-- One step of the grid `10 ^ p` and one quarter of `2 ^ exp`, in a common unit. -/
def step (m : Magnitude) (p : Int) : Nat :=
  Nat.pow 10 p.toNat * Nat.pow 2 (2 - m.exp).toNat

def quarter (m : Magnitude) (p : Int) : Nat :=
  Nat.pow 10 (-p).toNat * Nat.pow 2 (m.exp - 2).toNat

/-- The neighbour from below on the grid, the number itself if it is a point. -/
def below (m : Magnitude) (p : Int) : Nat :=
  4 * m.mant * m.quarter p / m.step p

/-- Whether the point `k * 10 ^ p` rounds to the number. -/
def hits (m : Magnitude) (p : Int) (k : Nat) : Bool :=
  let point := k * m.step p
  let low := m.low * m.quarter p
  let high := m.high * m.quarter p
  if m.closed then low ≤ point && point ≤ high else low < point && point < high

/-- The better of the two neighbours, if either will do. A tie goes upward. -/
def onGrid? (m : Magnitude) (p : Int) : Option Nat :=
  let k := m.below p
  let value := 4 * m.mant * m.quarter p
  match m.hits p k, m.hits p (k + 1) with
  | true, true =>
    some (if value - k * m.step p < (k + 1) * m.step p - value then k else k + 1)
  | true, false => some k
  | false, true => some (k + 1)
  | false, false => none

/-- Tries `n` grids from `10 ^ p` on. The grid after them must hold the number itself. -/
def search (m : Magnitude) : Nat → Int → Decimal
  | 0, p => ⟨m.below p, p⟩
  | n + 1, p =>
    match m.onGrid? p with
    | some k => ⟨k, p⟩
    | none => search m n (p - 1)

/-- No number reaches 10^309, and `10 ^ min exp 0` divides this one. -/
def shortest (m : Magnitude) : Decimal :=
  m.search (309 - min m.exp 0).toNat 309

end Magnitude

/-- All digits in their places. -/
def Decimal.positional (d : Decimal) : String :=
  let digits := Nat.toDigits 10 d.digits
  let places := (-d.exp).toNat
  let whole := digits.take (digits.length - places) ++ List.replicate d.exp.toNat '0'
  let fraction :=
    List.replicate (places - digits.length) '0' ++ digits.drop (digits.length - places)
  let whole := if whole = [] then ['0'] else whole
  String.ofList (if places = 0 then whole else whole ++ '.' :: fraction)

/-- The sign of zero is kept; NaN has none. -/
def plainText (x : Binary64) : String :=
  if x.isNaN then "NaN"
  else
    let size :=
      if x.size = Binary64.inf.bits then "inf"
      else
        let m := Magnitude.ofBinary64 x
        if m.mant = 0 then "0" else m.shortest.positional
    if x.bits < 0x8000000000000000 then size else "-" ++ size

end PostfixCalc

/-! Binary64 numbers, by their bits. The numbers are those of `Float`, and so is the
arithmetic, but of all NaN `Float` keeps one. Here a NaN that is handed on keeps its
bits, since a function may tell two of them apart. Which NaN an operation without
a number for a result gives is nowhere promised; it is the same one every time. -/

namespace PostfixCalc

structure Binary64 where
  bits : UInt64
  deriving DecidableEq, Repr

namespace Binary64

/-- The bits below the sign. -/
def size (x : Binary64) : UInt64 :=
  x.bits &&& 0x7fffffffffffffff

def nan : Binary64 := ⟨0x7ff8000000000000⟩

def inf : Binary64 := ⟨0x7ff0000000000000⟩

def isNaN (x : Binary64) : Bool :=
  inf.bits < x.size

/-- Every NaN that an operation gives is quiet. -/
def isQuiet (x : Binary64) : Bool :=
  x.isNaN && x.bits &&& 0x8000000000000 ≠ 0

def isSignaling (x : Binary64) : Bool :=
  x.isNaN && x.bits &&& 0x8000000000000 = 0

def toFloat (x : Binary64) : Float :=
  if x.isNaN then 0 / 0 else .ofBits x.bits

def ofFloat (x : Float) : Binary64 :=
  ⟨x.toBits⟩

instance (n : Nat) : OfNat Binary64 n := ⟨ofFloat (OfNat.ofNat n)⟩

def lift (f : Float → Float) (a : Binary64) : Binary64 :=
  ofFloat (f a.toFloat)

def lift₂ (f : Float → Float → Float) (a b : Binary64) : Binary64 :=
  ofFloat (f a.toFloat b.toFloat)

instance : Add Binary64 := ⟨lift₂ (· + ·)⟩

instance : Sub Binary64 := ⟨lift₂ (· - ·)⟩

instance : Mul Binary64 := ⟨lift₂ (· * ·)⟩

instance : Div Binary64 := ⟨lift₂ (· / ·)⟩

/-- Only the sign changes, also that of a NaN. -/
instance : Neg Binary64 := ⟨fun a => ⟨a.bits ^^^ 0x8000000000000000⟩⟩

def abs (a : Binary64) : Binary64 :=
  ⟨a.size⟩

/-- Anything to the power of zero is one, and one to any power, even where the other of the
two is a quiet NaN. A signaling NaN has no such exception. -/
def pow (a b : Binary64) : Binary64 :=
  if a.isSignaling || b.isSignaling then nan
  else if a = 1 ∨ b.size = 0 then 1
  else lift₂ Float.pow a b

end Binary64

end PostfixCalc

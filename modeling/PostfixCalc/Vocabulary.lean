import PostfixCalc.Binary64
import PostfixCalc.Token

/-! The names an expression may use, with their meanings: functions of one
value, functions of two, constants. One name may have a meaning of each kind;
the reader of a text then takes the first kind in this order. -/

namespace PostfixCalc

structure Vocabulary where
  unary : String → Option (Binary64 → Binary64)
  binary : String → Option (Binary64 → Binary64 → Binary64)
  constant : String → Option Binary64

/-- A meaning to be given to a name. -/
inductive Definition where
  | unary (name : String) (f : Binary64 → Binary64)
  | binary (name : String) (f : Binary64 → Binary64 → Binary64)
  | constant (name : String) (value : Binary64)

namespace Definition

def name : Definition → String
  | unary name _ | binary name _ | constant name _ => name

def kind : Definition → Kind
  | unary _ _ => .unaryFn
  | binary _ _ => .binaryFn
  | constant _ _ => .constant

end Definition

namespace Vocabulary

/-- The kind of token that a name stands for. -/
def kind? (v : Vocabulary) (name : String) : Option Kind :=
  if (v.unary name).isSome then some .unaryFn
  else if (v.binary name).isSome then some .binaryFn
  else if (v.constant name).isSome then some .constant
  else none

/-- A new meaning replaces the old one of the same name and kind, and no other. -/
def define (v : Vocabulary) : Definition → Vocabulary
  | .unary name f => { v with unary := fun n => if n = name then some f else v.unary n }
  | .binary name f => { v with binary := fun n => if n = name then some f else v.binary n }
  | .constant name value =>
    { v with constant := fun n => if n = name then some value else v.constant n }

end Vocabulary

end PostfixCalc

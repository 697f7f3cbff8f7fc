import PostfixCalc.Binary64

/-! The five arithmetic operators: how each is written, how tightly it binds
and what it computes. No vocabulary adds an operator or takes one away. -/

namespace PostfixCalc

inductive Operator where
  | add
  | sub
  | mul
  | div
  | pow
  deriving DecidableEq, Repr

namespace Operator

def symbol : Operator → Char
  | add => '+'
  | sub => '-'
  | mul => '*'
  | div => '/'
  | pow => '^'

def ofChar? : Char → Option Operator
  | '+' => some add
  | '-' => some sub
  | '*' => some mul
  | '/' => some div
  | '^' => some pow
  | _ => none

theorem ofChar?_symbol (op : Operator) : ofChar? op.symbol = some op := by
  cases op <;> rfl

theorem ofChar?_eq_some_iff {c : Char} {op : Operator} :
    ofChar? c = some op ↔ c = op.symbol := by
  constructor
  · intro h
    unfold ofChar? at h
    split at h <;> cases h <;> rfl
  · rintro rfl
    exact ofChar?_symbol op

/-- The operator that a text spells, if the text is one symbol and no more. -/
def ofText? (text : String) : Option Operator :=
  match text.toList with
  | [c] => ofChar? c
  | _ => none

/-- The operator that a text begins with, whatever follows. -/
def leading? (text : String) : Option Operator :=
  text.toList.head?.bind ofChar?

/-- How tightly an operator binds. Level 0 is left to texts that spell none. -/
def level : Operator → Nat
  | add | sub => 1
  | mul | div => 2
  | pow => 3

def apply : Operator → Binary64 → Binary64 → Binary64
  | add => (· + ·)
  | sub => (· - ·)
  | mul => (· * ·)
  | div => (· / ·)
  | pow => Binary64.pow

end Operator

end PostfixCalc

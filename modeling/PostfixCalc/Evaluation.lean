import PostfixCalc.Decimal.Numeral
import PostfixCalc.Log
import PostfixCalc.Operator
import PostfixCalc.Vocabulary

/-! The value of a postfix list. Each token acts on a stack of values, the
latest first. What a token means is settled before the stack is looked at, so an
unknown name is reported rather than the operand it would have lacked. -/

namespace PostfixCalc

inductive Action where
  | push (value : Binary64)
  | map (f : Binary64 → Binary64)
  /-- The earlier of two values is the left operand. -/
  | merge (f : Binary64 → Binary64 → Binary64)

/-- The stack after an action, if it holds enough values. -/
def Action.run? : Action → List Binary64 → Option (List Binary64)
  | push value, stack => some (value :: stack)
  | map f, a :: stack => some (f a :: stack)
  | merge f, b :: a :: stack => some (f a b :: stack)
  | _, _ => none

namespace Vocabulary

/-- What a token does when the variable is `x`. An operator token acts by the first
character of its text. -/
def action (v : Vocabulary) (x : Binary64) (t : Token) : Except Fault Action :=
  match t.kind with
  | .number =>
    match Numeral.read? t.text with
    | some value => .ok (.push value)
    | none => .error (.badNumber t.text)
  | .var => .ok (.push x)
  | .constant =>
    match v.constant t.text with
    | some value => .ok (.push value)
    | none => .error (.unknownName t.text)
  | .unaryFn =>
    match v.unary t.text with
    | some f => .ok (.map f)
    | none => .error (.unknownName t.text)
  | .binaryFn =>
    match v.binary t.text with
    | some f => .ok (.merge f)
    | none => .error (.unknownName t.text)
  | .binaryOp =>
    match Operator.leading? t.text with
    | some op => .ok (.merge op.apply)
    | none => .error (.strayToken t.text)
  | .bracket => .error (.strayToken t.text)

def step (v : Vocabulary) (x : Binary64) (stack : List Binary64) (t : Token) :
    Except Fault (List Binary64) := do
  let action ← v.action x t
  match action.run? stack with
  | some stack => .ok stack
  | none => .error (.missingOperand t.text)

theorem step_eq_ok {v : Vocabulary} {x : Binary64} {t : Token} {a : Action} {stack after : List Binary64}
    (ha : v.action x t = .ok a) (hr : a.run? stack = some after) :
    v.step x stack t = .ok after := by
  simp [step, ha, hr, bind, Except.bind]

def value (v : Vocabulary) (x : Binary64) (ts : List Token) : Except Fault Binary64 := do
  match ← ts.foldlM (v.step x) [] with
  | [value] => .ok value
  | stack => .error (.notOneValue stack.length)

def evaluate (v : Vocabulary) (ts : List Token) (x : Binary64) : Logged Binary64 := do
  .emit (.evaluating ts.length x)
  .lift (v.value x ts)

end Vocabulary

end PostfixCalc

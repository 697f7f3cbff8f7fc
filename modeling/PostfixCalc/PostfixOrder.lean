import PostfixCalc.Log
import PostfixCalc.Operator

/-! From infix to postfix order. Operands leave at once. Operators, functions
and open brackets wait in a pending list, the latest first, until a token that
binds no tighter, a closing bracket or the end lets them go. Nothing is checked but the
brackets: operands that are missing show when the list is evaluated. -/

namespace PostfixCalc

/-- How tightly an operator token binds, by its whole text. -/
def Token.level (t : Token) : Nat :=
  match Operator.ofText? t.text with
  | some op => op.level
  | none => 0

/-- Whether a pending token leaves before the operator `op` joins it. A function
always does, for its argument is complete by then; an open bracket never does; of two
operators that bind alike the earlier goes first, except that powers group to the right. -/
def Token.yieldsTo (top op : Token) : Bool :=
  match top.kind with
  | .unaryFn | .binaryFn => true
  | .binaryOp => if op.text = "^" then op.level < top.level else op.level ≤ top.level
  | _ => false

/-- What one token sends out, and what is pending after it. -/
def shift (pending : List Token) (t : Token) : Except Fault (List Token × List Token) :=
  match t.kind with
  | .number | .var | .constant => .ok ([t], pending)
  | .unaryFn | .binaryFn => .ok ([], t :: pending)
  | .binaryOp => .ok (pending.takeWhile (·.yieldsTo t), t :: pending.dropWhile (·.yieldsTo t))
  | .bracket =>
    if t.isOpen then .ok ([], t :: pending)
    else match pending.dropWhile (!·.isOpen) with
      | [] => .error .unopenedBracket
      | _ :: below => .ok (pending.takeWhile (!·.isOpen), below)

/-- What a list of tokens sends out, and what is pending after it. -/
def shiftAll (pending : List Token) : List Token → Except Fault (List Token × List Token)
  | [] => .ok ([], pending)
  | t :: ts => do
    let (out, pending) ← shift pending t
    let (rest, pending) ← shiftAll pending ts
    pure (out ++ rest, pending)

/-- The work on a list may stop anywhere and go on from what is pending. -/
theorem shiftAll_append (pending ts us : List Token) :
    shiftAll pending (ts ++ us) = (do
      let (out, pending) ← shiftAll pending ts
      let (rest, pending) ← shiftAll pending us
      pure (out ++ rest, pending)) := by
  induction ts generalizing pending with
  | nil => cases h : shiftAll pending us <;> simp [shiftAll, h, bind, Except.bind, pure, Except.pure]
  | cons t ts ih =>
    simp only [List.cons_append, shiftAll, ih]
    cases shift pending t with
    | error e => rfl
    | ok first =>
      simp only [bind, Except.bind]
      cases shiftAll first.2 ts with
      | error e => rfl
      | ok second =>
        simp only [pure, Except.pure]
        cases shiftAll second.2 us with
        | error e => rfl
        | ok third => simp

/-- At the end all that is pending leaves, unless a bracket is still open. -/
def drain (pending : List Token) : Except Fault (List Token) :=
  if pending.any Token.isOpen then .error .unclosedBracket else .ok pending

def postfixOrder (ts : List Token) : Except Fault (List Token) := do
  let (out, pending) ← shiftAll [] ts
  let rest ← drain pending
  pure (out ++ rest)

def toPostfix (ts : List Token) : Logged (List Token) := do
  let ordered ← .lift (postfixOrder ts)
  .emit (.reordered ordered)
  pure ordered

end PostfixCalc

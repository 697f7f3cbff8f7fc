import PostfixCalc.Proofs.Faults

/-! # What the log tells

The log of an expression shows how far the work on it went. What is skipped is logged while
the text is read, up to the first name that has no meaning. The tokens are logged when all of
the text is read, the postfix list when no bracket is at fault, and the evaluation before it
begins. No fault of the evaluation is of a category of the stages before it, so a category
and the records that are there tell each other. -/

namespace PostfixCalc

/-! ## What is skipped -/

/-- The characters that mean nothing where they stand. A point after a numeral belongs to it;
`numeral` says whether one has just been read. -/
def skipped (numeral : Bool) : List Char → List Char
  | [] => []
  | c :: cs =>
    if numeral && c = '.' then skipped true cs
    else if meaningless c then c :: skipped false cs
    else skipped c.isDigit cs

theorem isDigit_of_meaningless {c : Char} (h : meaningless c = true) : c.isDigit = false := by
  simp only [meaningless, Bool.and_eq_true, Bool.not_eq_true'] at h
  exact h.1.1.1.2

namespace Lexeme

variable {l m : Lexeme} {c : Char} {cs : List Char}

end Lexeme

namespace Vocabulary

variable (v : Vocabulary)

/-- A name that has no meaning is not understood. -/
def understands : Lexeme → Bool
  | .word name => (v.kind? name).isSome
  | _ => true

/-- What stands before the first name that has no meaning, or all there is. -/
def readable (cs : List Char) : List Char :=
  ((Lexeme.split cs).takeWhile v.understands).flatMap fun l => l.text.toList

/-- The records of what is skipped in a text. -/
def skips (text : String) : List Record :=
  (skipped false (v.readable (unblanked text))).map .skipped

end Vocabulary

/-! ## The log and the result -/

namespace Journal

variable {v : Vocabulary} {text : String} {x : Binary64} {rs : List Record} {r : Except Fault Steps}

end Journal

namespace Vocabulary

variable {v : Vocabulary}

end Vocabulary

end PostfixCalc

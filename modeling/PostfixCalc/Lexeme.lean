import PostfixCalc.Operator
import PostfixCalc.Text.Letter

/-! Lexemes: the pieces into which the characters of an expression fall before
any name is looked up. Each piece is as long as it can be, and all pieces together
are the characters again, none lost and none added. -/

namespace PostfixCalc

/-- The characters of a numeral: digits and points, and a digit first. -/
structure IsNumeral (cs : List Char) : Prop where
  nonempty : cs ≠ []
  mem : ∀ c ∈ cs, c.isDigit = true ∨ c = '.'
  head : ∀ c ∈ cs.head?, c.isDigit = true

/-- The characters of a word: letters, and the first is no variable. -/
structure IsWord (cs : List Char) : Prop where
  nonempty : cs ≠ []
  letters : ∀ c ∈ cs, isLetter c = true
  head : ∀ c ∈ cs.head?, c ≠ 'x' ∧ c ≠ 'X'

inductive Lexeme where
  | var (capital : Bool)
  | operator (op : Operator)
  | opening
  | closing
  | word (text : String)
  | numeral (text : String)
  | other (c : Char)
  deriving DecidableEq, Repr

namespace Lexeme

def text : Lexeme → String
  | var capital => if capital then "X" else "x"
  | operator op => String.singleton op.symbol
  | opening => "("
  | closing => ")"
  | word text => text
  | numeral text => text
  | other c => String.singleton c

/-- The lexeme that begins with a character. The variable goes before the words, so
no word begins with it, and a point begins no numeral. -/
def start (c : Char) : Lexeme :=
  if c = 'x' then var false
  else if c = 'X' then var true
  else match Operator.ofChar? c with
    | some op => operator op
    | none =>
      if c = '(' then opening
      else if c = ')' then closing
      else if isLetter c then word (String.singleton c)
      else if c.isDigit then numeral (String.singleton c)
      else other c

/-- The same lexeme with one more character, where it can take it. Inside a word the
variable is a letter like any other. -/
def extend? : Lexeme → Char → Option Lexeme
  | word text, c => if isLetter c then some (word (text.push c)) else none
  | numeral text, c => if c.isDigit || c = '.' then some (numeral (text.push c)) else none
  | _, _ => none

/-- The lexemes of what follows when `current` is not yet closed. -/
def scan (current : Lexeme) : List Char → List Lexeme
  | [] => [current]
  | c :: cs =>
    match current.extend? c with
    | some longer => longer.scan cs
    | none => current :: (start c).scan cs

def split : List Char → List Lexeme
  | [] => []
  | c :: cs => (start c).scan cs

theorem text_start (c : Char) : (start c).text = String.singleton c := by
  unfold start
  split
  next h => rw [h]; rfl
  split
  next h => rw [h]; rfl
  split
  next op h => rw [Operator.ofChar?_eq_some_iff.mp h]; rfl
  split
  next h => rw [h]; rfl
  split
  next h => rw [h]; rfl
  split
  next => rfl
  split <;> rfl

theorem text_extend {l m : Lexeme} {c : Char} (h : l.extend? c = some m) :
    m.text = l.text.push c := by
  unfold extend? at h
  split at h
  · split at h <;> cases h
    rfl
  · split at h <;> cases h
    rfl
  · cases h

theorem flatMap_scan (l : Lexeme) (cs : List Char) :
    (l.scan cs).flatMap (fun m => m.text.toList) = l.text.toList ++ cs := by
  induction cs generalizing l with
  | nil => simp [scan]
  | cons c cs ih =>
    unfold scan
    split
    · rename_i longer h
      rw [ih, text_extend h]
      simp
    · simp [ih, text_start]

/-- Nothing is lost and nothing is added. -/
theorem flatMap_split (cs : List Char) :
    (split cs).flatMap (fun m => m.text.toList) = cs := by
  cases cs with
  | nil => rfl
  | cons c cs => simp [split, flatMap_scan, text_start]

end Lexeme

end PostfixCalc

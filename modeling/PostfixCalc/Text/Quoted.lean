import PostfixCalc.Text.Hidden

/-! Quoted text, as the log shows it: what cannot be seen is written as an
escape, and so is the backslash and the mark that closes the quotation. All
else stands for itself. -/

namespace PostfixCalc.Quoted

/-- The escape of a character in a quotation that `mark` closes. -/
def escape (mark c : Char) : List Char :=
  match c with
  | '\x00' => ['\\', '0']
  | '\t' => ['\\', 't']
  | '\r' => ['\\', 'r']
  | '\n' => ['\\', 'n']
  | '\\' => ['\\', '\\']
  | c =>
    if c = mark then ['\\', c]
    else if isHidden c then
      '\\' :: 'u' :: '\x7b' :: (Nat.toDigits 16 c.toNat ++ ['\x7d'])
    else [c]

def quote (mark : Char) (cs : List Char) : String :=
  String.ofList (mark :: (cs.flatMap (escape mark) ++ [mark]))

/-- A text in double quotes; an apostrophe in it needs no escape. -/
def text (s : String) : String :=
  quote '"' s.toList

/-- A character in single quotes; a double quote needs no escape. -/
def char (c : Char) : String :=
  quote '\'' [c]

end PostfixCalc.Quoted

/-! Why an expression has no value. A fault is a cause; its text and its
category are functions of the cause. Nothing here is transient: the same
expression has the same fault every time. -/

namespace PostfixCalc

inductive Fault where
  /-- The text holds nothing but white space. -/
  | emptyText
  /-- The vocabulary has no such name. -/
  | unknownName (name : String)
  /-- A closing bracket with no open bracket before it. -/
  | unopenedBracket
  /-- The tokens end inside a bracket. -/
  | unclosedBracket
  /-- The text of a number token is not a decimal numeral. -/
  | badNumber (text : String)
  /-- An operator or a function finds too few values. -/
  | missingOperand (text : String)
  /-- The values left at the end are not exactly one. -/
  | notOneValue (left : Nat)
  /-- A token that has no place in a postfix list. -/
  | strayToken (text : String)
  deriving DecidableEq, Repr

namespace Fault

/-- The stage that finds the fault. -/
inductive Category where
  | lexical
  | bracketing
  | numberFormat
  | stackUnderflow
  | malformed
  deriving DecidableEq, Repr

def category : Fault → Category
  | emptyText | unknownName _ => .lexical
  | unopenedBracket | unclosedBracket => .bracketing
  | badNumber _ => .numberFormat
  | missingOperand _ => .stackUnderflow
  | notOneValue _ | strayToken _ => .malformed

/-- What the user reads. -/
def message : Fault → String
  | emptyText => "Entrée vide"
  | unknownName name => "identifiant inconnu: '" ++ name ++ "'"
  | unopenedBracket => "parenthèse fermante sans ouvrante"
  | unclosedBracket => "parenthèses non fermées"
  | badNumber text => "nombre invalide: '" ++ text ++ "'"
  | missingOperand text => "opérandes manquants pour '" ++ text ++ "'"
  | notOneValue left =>
    "expression invalide: " ++ toString left ++ " valeur(s) sur la pile au lieu d’une"
  | strayToken text => "jeton inattendu en RPN: '" ++ text ++ "'"

end Fault

end PostfixCalc

import PostfixCalc.Calculator
import PostfixCalc.Vocabulary.Standard

/-! Sessions: a vocabulary that grows, and formulas kept under names. A kept
formula is what it was when it was compiled, whatever the vocabulary becomes. -/

namespace PostfixCalc

structure Session where
  vocabulary : Vocabulary
  slots : String → Option Formula

namespace Session

def initial : Session := ⟨.standard, fun _ => none⟩

inductive Command where
  | define (d : Definition)
  /-- Back to the standard vocabulary; the formulas stay. -/
  | reset
  | kind (name : String)
  | isOperator (c : Char)
  | operator (c : Char) (a b : Binary64)
  | unary (name : String) (a : Binary64)
  | binary (name : String) (a b : Binary64)
  | constant (name : String)
  | tokenize (text : String)
  | evaluate (ts : List Token) (x : Binary64)
  | compile (slot text : String)
  | evaluateSlot (slot : String) (x : Binary64)
  | copySlot (source target : String)
  /-- With the standard vocabulary, whatever the session has defined. -/
  | calculate (text : String) (x : Binary64)

inductive Reply where
  | done
  | kind (k : Option Kind)
  | truth (b : Bool)
  /-- The value of a function or a constant, if the vocabulary has it. -/
  | found (value : Option Binary64)
  | tokens (ts : List Token)
  | value (x : Binary64)
  | formula (f : Formula)
  | emptySlot
  | fault (e : Fault)

/-- What a command does: the session after it, its records and its reply. -/
structure Turn where
  session : Session
  records : List Record
  reply : Reply

def put (s : Session) (slot : String) (f : Formula) : Session :=
  { s with slots := fun n => if n = slot then some f else s.slots n }

/-- A turn that changes nothing. -/
def answer (s : Session) (reply : Reply) : Turn := ⟨s, [], reply⟩

/-- A turn that reports a computation and changes nothing. -/
def report {α : Type} (s : Session) (m : Logged α) (reply : α → Reply) : Turn :=
  ⟨s, m.records, match m.outcome with
    | .ok a => reply a
    | .error e => .fault e⟩

/-- A text that cannot be compiled leaves the slot as it was. -/
def compile (s : Session) (slot text : String) : Turn :=
  let m := s.vocabulary.compile text
  match m.outcome with
  | .ok f => ⟨s.put slot f, m.records, .formula f⟩
  | .error e => ⟨s, m.records, .fault e⟩

def step (s : Session) : Command → Turn
  | .define d =>
    let v := s.vocabulary.define d
    ⟨{ s with vocabulary := v }, [], .kind (v.kind? d.name)⟩
  | .reset => ⟨{ s with vocabulary := .standard }, [], .done⟩
  | .kind name => s.answer (.kind (s.vocabulary.kind? name))
  | .isOperator c => s.answer (.truth (Operator.ofChar? c).isSome)
  | .operator c a b => s.answer (.found ((Operator.ofChar? c).map (·.apply a b)))
  | .unary name a => s.answer (.found ((s.vocabulary.unary name).map (· a)))
  | .binary name a b => s.answer (.found ((s.vocabulary.binary name).map (· a b)))
  | .constant name => s.answer (.found (s.vocabulary.constant name))
  | .tokenize text => s.report (s.vocabulary.tokenize text) .tokens
  | .evaluate ts x => s.report (s.vocabulary.evaluate ts x) .value
  | .compile slot text => s.compile slot text
  | .evaluateSlot slot x =>
    match s.slots slot with
    | some f => s.report (f x) .value
    | none => s.answer .emptySlot
  | .copySlot source target =>
    match s.slots source with
    | some f => ⟨s.put target f, [], .formula f⟩
    | none => s.answer .emptySlot
  | .calculate text x => s.report (Vocabulary.standard.calculate text x) .value

/-- The turns of a list of commands, in order. -/
def run (s : Session) : List Command → List Turn
  | [] => []
  | c :: cs =>
    let turn := s.step c
    turn :: turn.session.run cs

/-- The session after a list of commands. -/
def after (s : Session) (cs : List Command) : Session :=
  cs.foldl (fun s c => (s.step c).session) s

end Session

end PostfixCalc

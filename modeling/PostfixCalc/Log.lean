import PostfixCalc.Decimal.Shortest
import PostfixCalc.Fault
import PostfixCalc.Text.Quoted
import PostfixCalc.Token

/-! The log. A record says what a stage of the work was given or what it
produced; its text is a function of that. A logged computation is an outcome
together with the records made on the way to it, in order; a fault ends it but
takes no record back. -/

namespace PostfixCalc

inductive Level where
  | debug
  | trace
  deriving DecidableEq, Repr

inductive Record where
  /-- A text is about to be compiled. -/
  | compiling (text : String)
  /-- A character that means nothing was left out. -/
  | skipped (c : Char)
  /-- A whole text was read. -/
  | tokens (ts : List Token)
  /-- Tokens were brought into postfix order. -/
  | reordered (ts : List Token)
  /-- Tokens were taken to be in postfix order as they stood. -/
  | taken (ts : List Token)
  /-- A postfix list is about to be evaluated. -/
  | evaluating (count : Nat) (x : Binary64)

namespace Record

def level : Record → Level
  | skipped _ | evaluating _ _ => .trace
  | _ => .debug

def message : Record → String
  | compiling text => "compilation de " ++ Quoted.text text
  | skipped c => "caractère ignoré: " ++ Quoted.char c
  | tokens ts => "jetons: " ++ Token.spaced ts
  | reordered ts => "rpn: " ++ Token.spaced ts
  | taken ts => "rpn (texte): " ++ Token.spaced ts
  | evaluating count x => "évaluation de " ++ toString count ++ " jetons, x = " ++ plainText x

end Record

structure Logged (α : Type) where
  records : List Record
  outcome : Except Fault α

namespace Logged

variable {α β γ : Type}

/-- An outcome that leaves no record. -/
def lift (r : Except Fault α) : Logged α := ⟨[], r⟩

def fail (f : Fault) : Logged α := lift (.error f)

def emit (r : Record) : Logged Unit := ⟨[r], .ok ()⟩

instance : Monad Logged where
  pure a := ⟨[], .ok a⟩
  map f m := ⟨m.records, m.outcome.map f⟩
  bind m f := match m.outcome with
    | .ok a =>
      let n := f a
      ⟨m.records ++ n.records, n.outcome⟩
    | .error e => ⟨m.records, .error e⟩

@[simp] theorem outcome_pure (a : α) : (pure a : Logged α).outcome = .ok a := rfl

@[simp] theorem outcome_lift (r : Except Fault α) : (lift r).outcome = r := rfl

@[simp] theorem outcome_fail (f : Fault) : (fail f : Logged α).outcome = .error f := rfl

@[simp] theorem outcome_emit (r : Record) : (emit r).outcome = .ok () := rfl

@[simp] theorem outcome_map (f : α → β) (m : Logged α) :
    (f <$> m).outcome = m.outcome.map f := rfl

/-- The log has no say in the outcome. -/
@[simp] theorem outcome_bind (m : Logged α) (f : α → Logged β) :
    (m >>= f).outcome = m.outcome >>= fun a => (f a).outcome := by
  obtain ⟨rs, _ | a⟩ := m <;> rfl

@[simp] theorem records_pure (a : α) : (pure a : Logged α).records = [] := rfl

@[simp] theorem records_lift (r : Except Fault α) : (lift r).records = [] := rfl

@[simp] theorem records_fail (f : Fault) : (fail f : Logged α).records = [] := rfl

@[simp] theorem records_map (f : α → β) (m : Logged α) : (f <$> m).records = m.records := rfl

theorem bind_bind (m : Logged α) (f : α → Logged β) (g : β → Logged γ) :
    m >>= f >>= g = m >>= fun a => f a >>= g := by
  obtain ⟨rs, _ | a⟩ := m
  · rfl
  · cases hf : f a with
    | mk more r =>
      cases r with
      | error e => simp [bind, hf]
      | ok b => simp [bind, hf, List.append_assoc]

theorem bind_pure_eq_map (f : α → β) (m : Logged α) : (m >>= fun a => pure (f a)) = f <$> m := by
  obtain ⟨rs, _ | a⟩ := m
  · rfl
  · simp [bind, pure, Functor.map, Except.map]

instance : LawfulMonad Logged :=
  LawfulMonad.mk' Logged (fun m => by obtain ⟨rs, _ | a⟩ := m <;> rfl) (fun _ _ => rfl) bind_bind
    (fun _ _ => rfl) (fun _ _ => rfl) (fun _ _ => rfl) bind_pure_eq_map

end Logged

end PostfixCalc

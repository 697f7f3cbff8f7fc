import Mathlib.Data.List.Perm.Basic
import PostfixCalc.Proofs.Lists
import PostfixCalc.Proofs.Outcome

/-! # The pending list

What the conversion does with one token depends on the role of the token alone, and
is said once, in `Shift`. From it follow the laws of whole runs: an open bracket
shields all that is pending below it, no token is lost or made, and the open
brackets among the pending tokens are those the tokens read so far leave open. -/

namespace PostfixCalc

open scoped List

/-- What a token is to the conversion. -/
inductive Role where
  | operand
  | function
  | operator
  | opening
  | closing
  deriving DecidableEq, Repr

namespace Token

def role (t : Token) : Role :=
  match t.kind with
  | .number | .var | .constant => .operand
  | .unaryFn | .binaryFn => .function
  | .binaryOp => .operator
  | .bracket => if t.text = "(" then .opening else .closing

theorem isOpen_iff {t : Token} : t.isOpen = true ↔ t.role = .opening := by
  unfold isOpen role
  cases t.kind <;> simp

theorem isOpen_eq_false_iff {t : Token} : t.isOpen = false ↔ t.role ≠ .opening := by
  rw [← Bool.not_eq_true, isOpen_iff]

theorem isFunction_iff {t : Token} : t.isFunction = true ↔ t.role = .function := by
  unfold isFunction role
  cases t.kind <;> simp
  split <;> simp

theorem role_eq_operator_iff {t : Token} : t.role = .operator ↔ t.kind = .binaryOp := by
  unfold role
  cases t.kind <;> simp
  split <;> simp

theorem role_of_unaryFn {t : Token} (h : t.kind = .unaryFn) : t.role = .function := by
  simp [role, h]

theorem role_of_binaryFn {t : Token} (h : t.kind = .binaryFn) : t.role = .function := by
  simp [role, h]

theorem kind_eq_bracket_iff {t : Token} :
    t.kind = .bracket ↔ t.role = .opening ∨ t.role = .closing := by
  unfold role
  cases t.kind <;> simp
  exact Decidable.em _

/-! The tokens of brackets and operators, as a text spells them. -/

def opening : Token := ⟨.bracket, "("⟩

def closing : Token := ⟨.bracket, ")"⟩

def ofOperator (op : Operator) : Token := ⟨.binaryOp, String.singleton op.symbol⟩

def bracketed (ts : List Token) : List Token := opening :: (ts ++ [closing])

@[simp] theorem role_opening : opening.role = .opening := rfl

@[simp] theorem role_closing : closing.role = .closing := by decide

@[simp] theorem role_ofOperator (op : Operator) : (ofOperator op).role = .operator := rfl

/-- An open bracket lets no operator pass. -/
theorem yieldsTo_of_opening {o : Token} (h : o.role = .opening) (op : Token) :
    o.yieldsTo op = false := by
  unfold role at h
  unfold yieldsTo
  cases hk : o.kind <;> simp_all

/-- A pending function leaves before any operator. -/
theorem yieldsTo_of_function {f : Token} (h : f.role = .function) (op : Token) :
    f.yieldsTo op = true := by
  unfold role at h
  unfold yieldsTo
  cases hk : f.kind <;> simp_all
  split at h <;> cases h

end Token

/-- `Shift pending t out after`: all that one token can do. -/
inductive Shift : List Token → Token → List Token → List Token → Prop
  | emit {pending t} (h : t.role = .operand) : Shift pending t [t] pending
  | hold {pending t} (h : t.role = .function ∨ t.role = .opening) :
      Shift pending t [] (t :: pending)
  | replace {out below t} (h : t.role = .operator) (hout : ∀ q ∈ out, q.yieldsTo t = true)
      (hbelow : ∀ q ∈ below.head?, q.yieldsTo t = false) :
      Shift (out ++ below) t out (t :: below)
  | close {out o below t} (h : t.role = .closing) (hout : ∀ q ∈ out, q.role ≠ .opening)
      (ho : o.role = .opening) : Shift (out ++ o :: below) t out below

theorem Shift.eq_ok {pending t out after} (h : Shift pending t out after) :
    shift pending t = .ok (out, after) := by
  cases h with
  | emit h =>
    unfold Token.role at h
    unfold shift
    cases hk : t.kind <;> simp_all
    split at h <;> cases h
  | hold h =>
    rcases h with h | h
    · unfold Token.role at h
      unfold shift
      cases hk : t.kind <;> simp_all
      split at h <;> cases h
    · simp [shift, Token.kind_eq_bracket_iff.mpr (.inl h), Token.isOpen_iff.mpr h]
  | @replace out below _ h hout hbelow =>
    obtain ⟨ht, hd⟩ := takeWhile_dropWhile_of_split (fun q : Token => q.yieldsTo t) hout hbelow
    simp [shift, Token.role_eq_operator_iff.mp h, ht, hd]
  | @close _ o _ _ h hout ho =>
    have hopen : t.isOpen = false := Token.isOpen_eq_false_iff.mpr (by simp [h])
    obtain ⟨ht, hd⟩ := takeWhile_dropWhile_of_split (fun q : Token => !q.isOpen)
      (fun q hq => by simpa using Token.isOpen_eq_false_iff.mpr (hout q hq))
      (fun q (hq : q ∈ (o :: after).head?) => by
        cases hq
        simpa using Token.isOpen_iff.mpr ho)
    simp [shift, Token.kind_eq_bracket_iff.mpr (.inr h), hopen, ht, hd]

/-- A closing bracket that no open one answers. -/
theorem shift_unopened {pending t} (h : t.role = .closing)
    (hp : ∀ q ∈ pending, q.role ≠ .opening) : shift pending t = .error .unopenedBracket := by
  have hopen : t.isOpen = false := Token.isOpen_eq_false_iff.mpr (by simp [h])
  have hd : pending.dropWhile (!·.isOpen) = [] := by
    rw [List.dropWhile_eq_nil_iff]
    intro q hq
    simpa using Token.isOpen_eq_false_iff.mpr (hp q hq)
  simp [shift, Token.kind_eq_bracket_iff.mpr (.inr h), hopen, hd]

/-- Every token can be dealt with but a closing bracket that no open one answers. -/
theorem Shift.total (pending : List Token) (t : Token) :
    (∃ out after, Shift pending t out after) ∨
      t.role = .closing ∧ ∀ q ∈ pending, q.role ≠ .opening := by
  cases hr : t.role with
  | operand => exact .inl ⟨_, _, .emit hr⟩
  | function => exact .inl ⟨_, _, .hold (.inl hr)⟩
  | opening => exact .inl ⟨_, _, .hold (.inr hr)⟩
  | operator =>
    obtain ⟨front, rest, rfl, hf, hb⟩ := exists_split (·.yieldsTo t) pending
    exact .inl ⟨_, _, .replace hr hf hb⟩
  | closing =>
    obtain ⟨front, rest, rfl, hf, hb⟩ := exists_split (!·.isOpen) pending
    have hclosed : ∀ q ∈ front, q.role ≠ .opening := fun q hq =>
      Token.isOpen_eq_false_iff.mp (by simpa using hf q hq)
    cases rest with
    | nil => exact .inr ⟨rfl, by simpa using hclosed⟩
    | cons o below =>
      have ho : o.role = .opening := Token.isOpen_iff.mp (by simpa using hb o rfl)
      exact .inl ⟨_, _, .close hr hclosed ho⟩

/-- One step of the conversion, inverted. -/
theorem shift_eq_ok_iff {pending t out after} :
    shift pending t = .ok (out, after) ↔ Shift pending t out after := by
  refine ⟨fun h => ?_, Shift.eq_ok⟩
  rcases Shift.total pending t with ⟨out', after', hs⟩ | ⟨hr, hclosed⟩
  · rw [hs.eq_ok] at h
    cases h
    exact hs
  · rw [shift_unopened hr hclosed] at h
    cases h

theorem Shift.unique {pending t out after out' after'} (h : Shift pending t out after)
    (h' : Shift pending t out' after') : out = out' ∧ after = after' := by
  have heq := h.eq_ok.symm.trans h'.eq_ok
  cases heq
  exact ⟨rfl, rfl⟩

/-! ## Runs -/

@[simp] theorem shiftAll_nil (pending : List Token) : shiftAll pending [] = .ok ([], pending) := rfl

theorem shiftAll_cons_iff {pending t ts out after} :
    shiftAll pending (t :: ts) = .ok (out, after) ↔
      ∃ now next rest, Shift pending t now next ∧ shiftAll next ts = .ok (rest, after) ∧
        out = now ++ rest := by
  simp only [shiftAll, bind_eq_ok_iff, shift_eq_ok_iff, Prod.exists, pure_eq_ok, Except.ok.injEq,
    Prod.mk.injEq]
  constructor
  · rintro ⟨now, next, hs, rest, after', hr, rfl, rfl⟩
    exact ⟨now, next, rest, hs, hr, rfl⟩
  · rintro ⟨now, next, rest, hs, hr, rfl⟩
    exact ⟨now, next, hs, rest, after, hr, rfl, rfl⟩

theorem Shift.cons {pending t ts now next rest after} (h : Shift pending t now next)
    (hr : shiftAll next ts = .ok (rest, after)) :
    shiftAll pending (t :: ts) = .ok (now ++ rest, after) :=
  shiftAll_cons_iff.mpr ⟨now, next, rest, h, hr, rfl⟩

theorem shiftAll_append_iff {pending ts us out after} :
    shiftAll pending (ts ++ us) = .ok (out, after) ↔
      ∃ first middle rest, shiftAll pending ts = .ok (first, middle) ∧
        shiftAll middle us = .ok (rest, after) ∧ out = first ++ rest := by
  simp only [shiftAll_append, bind_eq_ok_iff, Prod.exists, pure_eq_ok, Except.ok.injEq,
    Prod.mk.injEq]
  constructor
  · rintro ⟨first, middle, hs, rest, after', hr, rfl, rfl⟩
    exact ⟨first, middle, rest, hs, hr, rfl⟩
  · rintro ⟨first, middle, rest, hs, hr, rfl⟩
    exact ⟨first, middle, hs, rest, after, hr, rfl, rfl⟩

theorem shiftAll_append_of_ok {pending ts us out middle rest after}
    (h : shiftAll pending ts = .ok (out, middle)) (hu : shiftAll middle us = .ok (rest, after)) :
    shiftAll pending (ts ++ us) = .ok (out ++ rest, after) :=
  shiftAll_append_iff.mpr ⟨out, middle, rest, h, hu, rfl⟩

/-- What is left to do after the first tokens, with its faults. -/
theorem shiftAll_append_eq {pending ts out middle} (h : shiftAll pending ts = .ok (out, middle))
    (us : List Token) :
    shiftAll pending (ts ++ us) = (shiftAll middle us).map fun r => (out ++ r.1, r.2) := by
  rw [shiftAll_append, h]
  cases hu : shiftAll middle us <;> simp [hu, Except.map]

theorem Shift.cons_eq {pending t now next} (h : Shift pending t now next) (ts : List Token) :
    shiftAll pending (t :: ts) = (shiftAll next ts).map fun r => (now ++ r.1, r.2) :=
  shiftAll_append_eq (by simpa using h.cons (shiftAll_nil next)) ts

/-! ## Under an open bracket -/

/-- What a step does above an open bracket it does above anything. -/
theorem Shift.above {pending t out after o} (h : Shift pending t out after)
    (ho : o.role = .opening) (below : List Token) :
    Shift (pending ++ o :: below) t out (after ++ o :: below) := by
  cases h with
  | emit h => exact .emit h
  | hold h => exact .hold h
  | @replace _ rest _ h hout hbelow =>
    rw [List.append_assoc]
    refine .replace h hout fun q hq => ?_
    cases rest with
    | nil =>
      cases hq
      exact Token.yieldsTo_of_opening ho t
    | cons b rest => exact hbelow q hq
  | close h hout ho' =>
    rw [List.append_assoc]
    exact .close h hout ho'

theorem shiftAll_above {pending ts out after o} (ho : o.role = .opening) (below : List Token)
    (h : shiftAll pending ts = .ok (out, after)) :
    shiftAll (pending ++ o :: below) ts = .ok (out, after ++ o :: below) := by
  induction ts generalizing pending out with
  | nil =>
    cases h
    rfl
  | cons t ts ih =>
    obtain ⟨now, next, rest, hs, hr, rfl⟩ := shiftAll_cons_iff.mp h
    exact (hs.above ho below).cons (ih hr)

/-! ## What a run keeps -/

/-- The tokens of a list that are no brackets, in their order. -/
def unbracketed (ts : List Token) : List Token :=
  ts.filter (·.kind ≠ .bracket)

@[simp] theorem unbracketed_append (ts us : List Token) :
    unbracketed (ts ++ us) = unbracketed ts ++ unbracketed us := List.filter_append _ _

theorem unbracketed_cons_bracket {t : Token} (h : t.role = .opening ∨ t.role = .closing)
    (ts : List Token) : unbracketed (t :: ts) = unbracketed ts := by
  simp [unbracketed, Token.kind_eq_bracket_iff.mpr h]

/-- No token but a bracket is lost, and none is made. -/
theorem Shift.perm {pending t out after} (h : Shift pending t out after) :
    unbracketed (out ++ after) ~ unbracketed (t :: pending) := by
  cases h with
  | emit h => exact .refl _
  | hold h => exact .refl _
  | replace h hout hbelow => exact List.perm_middle.filter _
  | close h hout ho =>
    rw [unbracketed_cons_bracket (.inr h), unbracketed_append, unbracketed_append,
      unbracketed_cons_bracket (.inl ho)]

theorem shiftAll_perm {pending ts out after} (h : shiftAll pending ts = .ok (out, after)) :
    unbracketed (out ++ after) ~ unbracketed (ts ++ pending) := by
  induction ts generalizing pending out with
  | nil =>
    cases h
    exact .refl _
  | cons t ts ih =>
    obtain ⟨now, next, rest, hs, hr, rfl⟩ := shiftAll_cons_iff.mp h
    have hnow := hs.perm
    have hrest := ih hr
    rw [unbracketed_append] at hnow hrest
    rw [List.append_assoc, unbracketed_append]
    calc unbracketed now ++ unbracketed (rest ++ after)
      _ ~ unbracketed now ++ (unbracketed ts ++ unbracketed next) := by
        rw [← unbracketed_append] at hrest
        simpa using hrest.append_left _
      _ ~ unbracketed ts ++ (unbracketed now ++ unbracketed next) :=
        List.perm_append_comm_assoc _ _ _
      _ ~ unbracketed ts ++ unbracketed (t :: pending) := hnow.append_left _
      _ ~ unbracketed (t :: ts ++ pending) := by
        rw [← unbracketed_append]
        exact List.perm_middle.filter _

/-- What leaves is no bracket, and what waits closes none. -/
theorem Shift.bare {pending t out after} (h : Shift pending t out after)
    (hp : ∀ q ∈ pending, q.role ≠ .closing) :
    (∀ q ∈ out, q.kind ≠ .bracket) ∧ ∀ q ∈ after, q.role ≠ .closing := by
  have hbare {q : Token} (ho : q.role ≠ .opening) (hc : q.role ≠ .closing) : q.kind ≠ .bracket :=
    fun hk => (Token.kind_eq_bracket_iff.mp hk).elim ho hc
  cases h with
  | emit h =>
    refine ⟨fun q hq => ?_, hp⟩
    cases List.mem_singleton.mp hq
    exact hbare (by simp [h]) (by simp [h])
  | hold h =>
    refine ⟨by simp, List.forall_mem_cons.mpr ⟨?_, hp⟩⟩
    rcases h with h | h <;> simp [h]
  | @replace out below _ h hout _ =>
    obtain ⟨hpout, hpbelow⟩ := List.forall_mem_append.mp hp
    refine ⟨fun q hq => hbare (fun ho => ?_) (hpout q hq),
      List.forall_mem_cons.mpr ⟨by simp [h], hpbelow⟩⟩
    have hy := hout q hq
    rw [Token.yieldsTo_of_opening ho] at hy
    cases hy
  | @close out o below _ _ hout _ =>
    obtain ⟨hpout, hprest⟩ := List.forall_mem_append.mp hp
    exact ⟨fun q hq => hbare (hout q hq) (hpout q hq), (List.forall_mem_cons.mp hprest).2⟩

theorem shiftAll_bare {pending ts out after} (h : shiftAll pending ts = .ok (out, after))
    (hp : ∀ q ∈ pending, q.role ≠ .closing) :
    (∀ q ∈ out, q.kind ≠ .bracket) ∧ ∀ q ∈ after, q.role ≠ .closing := by
  induction ts generalizing pending out with
  | nil =>
    cases h
    exact ⟨by simp, hp⟩
  | cons t ts ih =>
    obtain ⟨now, next, rest, hs, hr, rfl⟩ := shiftAll_cons_iff.mp h
    obtain ⟨hnow, hnext⟩ := hs.bare hp
    obtain ⟨hrest, hafter⟩ := ih hr hnext
    exact ⟨List.forall_mem_append.mpr ⟨hnow, hrest⟩, hafter⟩

theorem Shift.mem {pending t out after q} (h : Shift pending t out after)
    (hq : q ∈ out ++ after) (hb : q.kind ≠ .bracket) : q ∈ t :: pending := by
  have hbare : q ∈ unbracketed (out ++ after) := List.mem_filter.mpr ⟨hq, by simpa using hb⟩
  exact List.mem_of_mem_filter (h.perm.mem_iff.mp hbare)

/-- No operand waits. -/
theorem Shift.waits {pending t out after} (h : Shift pending t out after)
    (hp : ∀ q ∈ pending, q.role ≠ .operand) : ∀ q ∈ after, q.role ≠ .operand := by
  cases h with
  | emit h => exact hp
  | hold h =>
    refine List.forall_mem_cons.mpr ⟨?_, hp⟩
    rcases h with h | h <;> simp [h]
  | replace h _ _ =>
    exact List.forall_mem_cons.mpr ⟨by simp [h], (List.forall_mem_append.mp hp).2⟩
  | close _ _ _ => exact (List.forall_mem_cons.mp (List.forall_mem_append.mp hp).2).2

theorem shiftAll_waits {pending ts out after} (h : shiftAll pending ts = .ok (out, after))
    (hp : ∀ q ∈ pending, q.role ≠ .operand) : ∀ q ∈ after, q.role ≠ .operand := by
  induction ts generalizing pending out with
  | nil =>
    cases h
    exact hp
  | cons t ts ih =>
    obtain ⟨now, next, rest, hs, hr, -⟩ := shiftAll_cons_iff.mp h
    exact ih hr (hs.waits hp)

/-- How many brackets are open after a list when `n` are open before it; none where one
closes that was not opened. -/
def depth : Nat → List Token → Option Nat
  | n, [] => some n
  | n, t :: ts =>
    match t.role with
    | .opening => depth (n + 1) ts
    | .closing =>
      match n with
      | 0 => none
      | n + 1 => depth n ts
    | _ => depth n ts

theorem countP_isOpen_eq_zero {ts : List Token} (h : ∀ t ∈ ts, t.role ≠ .opening) :
    ts.countP Token.isOpen = 0 := by
  rw [List.countP_eq_zero]
  exact fun t ht ho => h t ht (Token.isOpen_iff.mp ho)

theorem Shift.depth_eq {pending t out after} (h : Shift pending t out after) (ts : List Token) :
    depth (pending.countP Token.isOpen) (t :: ts) = depth (after.countP Token.isOpen) ts := by
  cases h with
  | emit h => simp [depth, h]
  | hold h =>
    rcases h with h | h
    · have ht : t.isOpen = false := Token.isOpen_eq_false_iff.mpr (by simp [h])
      simp [depth, h, ht]
    · simp [depth, h, Token.isOpen_iff.mpr h]
  | @replace _ below _ h hout _ =>
    have ht : t.isOpen = false := Token.isOpen_eq_false_iff.mpr (by simp [h])
    have hnone : out.countP Token.isOpen = 0 := by
      refine countP_isOpen_eq_zero fun q hq ho => ?_
      have hy := hout q hq
      rw [Token.yieldsTo_of_opening ho] at hy
      cases hy
    simp [depth, h, ht, hnone]
  | @close _ o _ _ h hout ho =>
    simp [depth, h, countP_isOpen_eq_zero hout, Token.isOpen_iff.mpr ho]

/-- The open brackets among the pending tokens are those still open. -/
theorem depth_of_shiftAll {pending ts out after} (h : shiftAll pending ts = .ok (out, after)) :
    depth (pending.countP Token.isOpen) ts = some (after.countP Token.isOpen) := by
  induction ts generalizing pending out with
  | nil =>
    cases h
    rfl
  | cons t ts ih =>
    obtain ⟨now, next, rest, hs, hr, -⟩ := shiftAll_cons_iff.mp h
    rw [hs.depth_eq, ih hr]

theorem depth_append (n : Nat) (ts us : List Token) :
    depth n (ts ++ us) = (depth n ts).bind fun m => depth m us := by
  induction ts generalizing n with
  | nil => rfl
  | cons t ts ih =>
    cases hr : t.role with
    | opening | operand | function | operator => simp [depth, hr, ih]
    | closing => cases n <;> simp [depth, hr, ih]

/-- What is open before a list stays open when the list closes no more than it opens. -/
theorem depth_add {m n : Nat} {ts : List Token} (h : depth n ts = some m) (k : Nat) :
    depth (n + k) ts = some (m + k) := by
  induction ts generalizing n with
  | nil =>
    cases h
    rfl
  | cons t ts ih =>
    cases hr : t.role with
    | opening =>
      simp only [depth, hr] at h ⊢
      rw [Nat.add_right_comm]
      exact ih h
    | operand | function | operator =>
      simp only [depth, hr] at h ⊢
      exact ih h
    | closing =>
      cases n with
      | zero => simp [depth, hr] at h
      | succ n =>
        simp only [depth, hr] at h
        simp only [Nat.add_right_comm n 1 k, depth, hr]
        exact ih h

/-- A list that closes no bracket it has not opened runs to its end. -/
theorem exists_shiftAll {n : Nat} {pending ts : List Token}
    (h : depth (pending.countP Token.isOpen) ts = some n) :
    ∃ out after, shiftAll pending ts = .ok (out, after) := by
  induction ts generalizing pending with
  | nil => exact ⟨[], pending, rfl⟩
  | cons t ts ih =>
    rcases Shift.total pending t with ⟨now, next, hs⟩ | ⟨hr, hclosed⟩
    · rw [hs.depth_eq] at h
      obtain ⟨rest, after, hrest⟩ := ih h
      exact ⟨_, after, hs.cons hrest⟩
    · simp [depth, hr, countP_isOpen_eq_zero hclosed] at h

/-! ## The end of a run -/

theorem drain_eq_ok_iff {pending rest : List Token} :
    drain pending = .ok rest ↔ (∀ q ∈ pending, q.role ≠ .opening) ∧ rest = pending := by
  unfold drain
  by_cases h : ∃ q ∈ pending, q.isOpen = true
  · rw [if_pos (List.any_eq_true.mpr h)]
    obtain ⟨q, hq, ho⟩ := h
    exact ⟨nofun, fun h => absurd (Token.isOpen_iff.mp ho) (h.1 q hq)⟩
  · rw [if_neg (fun ha => h (List.any_eq_true.mp ha))]
    have hclosed : ∀ q ∈ pending, q.role ≠ .opening := fun q hq ho =>
      h ⟨q, hq, Token.isOpen_iff.mpr ho⟩
    rw [Except.ok.injEq]
    exact ⟨fun h => ⟨hclosed, h.symm⟩, fun h => h.2.symm⟩

theorem postfixOrder_eq_ok_iff {ts ordered : List Token} :
    postfixOrder ts = .ok ordered ↔
      ∃ out pending, shiftAll [] ts = .ok (out, pending) ∧
        (∀ q ∈ pending, q.role ≠ .opening) ∧ ordered = out ++ pending := by
  simp only [postfixOrder, bind_eq_ok_iff, drain_eq_ok_iff, Prod.exists, pure_eq_ok,
    Except.ok.injEq]
  constructor
  · rintro ⟨out, pending, hs, rest, ⟨hclosed, rfl⟩, rfl⟩
    exact ⟨out, rest, hs, hclosed, rfl⟩
  · rintro ⟨out, pending, hs, hclosed, rfl⟩
    exact ⟨out, pending, hs, pending, ⟨hclosed, rfl⟩, rfl⟩

theorem postfixOrder_perm {ts ordered : List Token} (h : postfixOrder ts = .ok ordered) :
    unbracketed ordered ~ unbracketed ts := by
  obtain ⟨out, pending, hs, -, rfl⟩ := postfixOrder_eq_ok_iff.mp h
  simpa using shiftAll_perm hs

/-- No bracket is left in postfix order. -/
theorem postfixOrder_bare {ts ordered : List Token} (h : postfixOrder ts = .ok ordered) :
    ∀ t ∈ ordered, t.kind ≠ .bracket := by
  obtain ⟨out, pending, hs, hclosed, rfl⟩ := postfixOrder_eq_ok_iff.mp h
  obtain ⟨hout, hpending⟩ := shiftAll_bare hs (by simp)
  refine List.forall_mem_append.mpr ⟨hout, fun q hq hk => ?_⟩
  exact (Token.kind_eq_bracket_iff.mp hk).elim (hclosed q hq) (hpending q hq)

theorem unbracketed_eq_self {ts : List Token} (h : ∀ t ∈ ts, t.kind ≠ .bracket) :
    unbracketed ts = ts := by
  simpa [unbracketed] using h

/-- Reordering takes the brackets out of a list and does no more than that to its tokens. -/
theorem postfixOrder_perm_unbracketed {ts ordered : List Token}
    (h : postfixOrder ts = .ok ordered) : ordered ~ unbracketed ts := by
  have hperm := postfixOrder_perm h
  rwa [unbracketed_eq_self (postfixOrder_bare h)] at hperm

theorem mem_of_mem_postfixOrder {t : Token} {ts ordered : List Token}
    (h : postfixOrder ts = .ok ordered) (ht : t ∈ ordered) : t ∈ ts :=
  List.mem_of_mem_filter ((postfixOrder_perm_unbracketed h).mem_iff.mp ht)

/-- A list that can be reordered leaves, between brackets, what is pending as it was. -/
theorem shiftAll_bracketed {o c : Token} (ho : o.role = .opening) (hc : c.role = .closing)
    {ts ordered : List Token} (h : postfixOrder ts = .ok ordered) (pending : List Token) :
    shiftAll pending (o :: (ts ++ [c])) = .ok (ordered, pending) := by
  obtain ⟨out, held, hs, hclosed, rfl⟩ := postfixOrder_eq_ok_iff.mp h
  have hrun : shiftAll (o :: pending) ts = .ok (out, held ++ o :: pending) :=
    shiftAll_above ho pending hs
  have hclose : shiftAll (held ++ o :: pending) [c] = .ok (held, pending) := by
    simpa using (Shift.close hc hclosed ho).cons (shiftAll_nil pending)
  exact (Shift.hold (.inr ho)).cons (shiftAll_append_of_ok hrun hclose)

/-- A list that can be reordered closes every bracket it opens. -/
theorem depth_of_postfixOrder {ts ordered : List Token} (h : postfixOrder ts = .ok ordered) :
    depth 0 ts = some 0 := by
  obtain ⟨out, pending, hs, hclosed, -⟩ := postfixOrder_eq_ok_iff.mp h
  simpa [countP_isOpen_eq_zero hclosed] using depth_of_shiftAll hs

/-- A list that closes every bracket it opens can be reordered. -/
theorem exists_postfixOrder {ts : List Token} (h : depth 0 ts = some 0) :
    ∃ ordered, postfixOrder ts = .ok ordered := by
  have hempty : depth (([] : List Token).countP Token.isOpen) ts = some 0 := h
  obtain ⟨out, pending, hs⟩ := exists_shiftAll hempty
  have hdepth : depth 0 ts = some (pending.countP Token.isOpen) := depth_of_shiftAll hs
  have hnone : pending.countP Token.isOpen = 0 := by simpa [h] using hdepth.symm
  refine ⟨out ++ pending, postfixOrder_eq_ok_iff.mpr ⟨out, pending, hs, fun q hq ho => ?_, rfl⟩⟩
  exact List.countP_eq_zero.mp hnone q hq (Token.isOpen_iff.mpr ho)

end PostfixCalc

import PostfixCalc.Session

/-! # What a slot holds

A formula in a slot is the work of one compilation, perhaps long ago and into another slot.
Which one it is, and with which vocabulary, is here read off the commands alone, the latest
first. The session agrees after every list of commands, so what it answers for a slot is
settled by that one compilation, and by none of the commands since that leave the slot. -/

namespace PostfixCalc

namespace Session

def Command.isReset : Command → Bool
  | .reset => true
  | _ => false

def Command.definition? : Command → Option Definition
  | .define d => some d
  | _ => none

/-- The definitions since the last reset, in the order in which they were made. -/
def definitions (past : List Command) : List Definition :=
  ((past.takeWhile (!·.isReset)).filterMap Command.definition?).reverse

/-- The vocabulary that the commands leave. -/
def vocabularyAfter (past : List Command) : Vocabulary :=
  (definitions past).foldl Vocabulary.define .standard

/-- What a text is compiled to after the commands, if it can be. -/
def compiled? (past : List Command) (text : String) : Option Formula :=
  ((vocabularyAfter past).compile text).outcome.toOption

/-- The compilation that the formula in a slot comes from: the commands before it and its
text. A copy of an empty slot is as little a source as a text that cannot be compiled. -/
def origin? : List Command → String → Option (List Command × String)
  | [], _ => none
  | .compile target text :: past, slot =>
    if target = slot ∧ (compiled? past text).isSome then some (past, text)
    else origin? past slot
  | .copySlot source target :: past, slot =>
    if target = slot then (origin? past source).or (origin? past slot) else origin? past slot
  | _ :: past, slot => origin? past slot

/-- Whether a command puts a formula into the slot. -/
def Writes (past : List Command) (slot : String) : Command → Prop
  | .compile target text => target = slot ∧ (compiled? past text).isSome
  | .copySlot source target => target = slot ∧ (origin? past source).isSome
  | _ => False

/-- Whether no command of a list puts a formula into the slot. -/
def Leaves (past : List Command) (slot : String) : List Command → Prop
  | [] => True
  | c :: cs => ¬ Writes past slot c ∧ Leaves (c :: past) slot cs

/-! ## Runs -/

theorem after_concat (s : Session) (cs : List Command) (c : Command) :
    s.after (cs ++ [c]) = ((s.after cs).step c).session := by
  rw [after, List.foldl_append]
  rfl

theorem run_append (s : Session) (cs ds : List Command) :
    s.run (cs ++ ds) = s.run cs ++ (s.after cs).run ds := by
  induction cs generalizing s with
  | nil => rfl
  | cons c cs ih => exact congrArg _ (ih _)

/-! ## Steps -/

variable {past : List Command} {slot : String}

/-- The vocabulary is changed by definitions and resets only. -/
theorem step_vocabulary (s : Session) (c : Command) :
    (s.step c).session.vocabulary =
      if c.isReset then .standard else c.definition?.elim s.vocabulary s.vocabulary.define := by
  cases c with
  | compile slot text =>
    simp only [step, compile]
    split <;> rfl
  | evaluateSlot slot x | copySlot slot target =>
    simp only [step]
    split <;> rfl
  | _ => rfl

theorem put_slots (s : Session) (target slot : String) (f : Formula) :
    (s.put target f).slots slot = if target = slot then some f else s.slots slot := by
  simp only [put, eq_comm]

/-- A compilation puts what it has compiled into its slot, and nothing elsewhere. -/
theorem step_compile_slots (s : Session) (target text slot : String) :
    (s.step (.compile target text)).session.slots slot =
      if target = slot then
        (s.vocabulary.compile text).outcome.toOption.or (s.slots slot)
      else s.slots slot := by
  simp only [step, compile]
  cases (s.vocabulary.compile text).outcome with
  | error e => simp [Except.toOption]
  | ok f => simp [Except.toOption, put_slots]

theorem step_copySlot_slots (s : Session) (source target slot : String) :
    (s.step (.copySlot source target)).session.slots slot =
      if target = slot then (s.slots source).or (s.slots slot) else s.slots slot := by
  simp only [step]
  cases s.slots source with
  | none => simp [answer]
  | some f => simp [put_slots]

/-! ## After a list of commands -/

theorem vocabularyAfter_cons (c : Command) (past : List Command) :
    vocabularyAfter (c :: past) =
      if c.isReset then .standard
      else c.definition?.elim (vocabularyAfter past) (vocabularyAfter past).define := by
  by_cases hreset : c.isReset = true
  · simp [vocabularyAfter, definitions, hreset]
  · cases hd : c.definition? <;> simp [vocabularyAfter, definitions, hreset, hd]

theorem vocabulary_after (past : List Command) :
    (initial.after past.reverse).vocabulary = vocabularyAfter past := by
  induction past with
  | nil => rfl
  | cons c past ih =>
    rw [List.reverse_cons, after_concat, step_vocabulary, ih, vocabularyAfter_cons]

theorem compiled?_eq_some_iff {text : String} {f : Formula} :
    compiled? past text = some f ↔ ((vocabularyAfter past).compile text).outcome = .ok f := by
  unfold compiled?
  cases ((vocabularyAfter past).compile text).outcome <;> simp [Except.toOption]

/-- The compilation that a formula comes from went through, and its command is in the past. -/
theorem origin?_eq_some {before : List Command} {text : String}
    (h : origin? past slot = some (before, text)) :
    (∃ f, compiled? before text = some f) ∧
      ∃ target later, past = later ++ .compile target text :: before := by
  -- For every slot at once: a copy goes on with the origin of another one.
  induction past generalizing slot with
  | nil => cases h
  | cons c past ih =>
    have hearlier {slot : String} (h : origin? past slot = some (before, text)) :
        (∃ f, compiled? before text = some f) ∧
          ∃ target later, c :: past = later ++ .compile target text :: before := by
      obtain ⟨hsome, target, later, rfl⟩ := ih h
      exact ⟨hsome, target, c :: later, rfl⟩
    cases c with
    | compile target written =>
      rw [origin?] at h
      split at h
      · cases h
        exact ⟨Option.isSome_iff_exists.mp (‹_ ∧ _›).2, target, [], rfl⟩
      · exact hearlier h
    | copySlot source target =>
      rw [origin?] at h
      split at h
      · rcases Option.or_eq_some_iff.mp h with h | ⟨-, h⟩ <;> exact hearlier h
      · exact hearlier h
    | _ => exact hearlier h

/-- A slot holds what its origin has compiled. -/
theorem slots_after (past : List Command) (slot : String) :
    (initial.after past.reverse).slots slot =
      (origin? past slot).bind fun o => compiled? o.1 o.2 := by
  induction past generalizing slot with
  | nil => rfl
  | cons c past ih =>
    rw [List.reverse_cons, after_concat]
    cases c with
    | compile target text =>
      rw [step_compile_slots, vocabulary_after, ih, origin?]
      change (if target = slot then (compiled? past text).or _ else _) = _
      by_cases ht : target = slot
      · cases hc : compiled? past text <;> simp [ht, hc]
      · simp [ht]
    | copySlot source target =>
      rw [step_copySlot_slots, ih, ih, origin?]
      by_cases ht : target = slot
      · cases ho : origin? past source with
        | none => simp [ht]
        | some o =>
          -- A formula is there to be copied, for its origin has compiled one.
          obtain ⟨f, hf⟩ := (origin?_eq_some ho).1
          simp [ht, hf]
      · simp [ht]
    | evaluateSlot other x =>
      have hkept : ((initial.after past.reverse).step (.evaluateSlot other x)).session =
          initial.after past.reverse := by
        simp only [step]
        split <;> rfl
      rw [hkept]
      exact ih slot
    | _ => exact ih slot

theorem slots_of_origin? {cs past : List Command} {slot text : String} {f : Formula}
    (h : origin? cs.reverse slot = some (past, text)) (hf : compiled? past text = some f) :
    (initial.after cs).slots slot = some f := by
  rw [← List.reverse_reverse cs, slots_after, h, Option.bind_some, hf]

theorem exists_slots_iff {cs : List Command} {slot : String} :
    (∃ f, (initial.after cs).slots slot = some f) ↔
      ∃ past text, origin? cs.reverse slot = some (past, text) := by
  constructor
  · rintro ⟨f, hf⟩
    rw [← List.reverse_reverse cs, slots_after] at hf
    obtain ⟨⟨past, text⟩, horigin, -⟩ := Option.bind_eq_some_iff.mp hf
    exact ⟨past, text, horigin⟩
  · rintro ⟨past, text, horigin⟩
    obtain ⟨f, hf⟩ := (origin?_eq_some horigin).1
    exact ⟨f, slots_of_origin? horigin hf⟩

/-! ## What leaves a slot as it is -/

theorem origin?_of_not_writes {c : Command} (h : ¬ Writes past slot c) :
    origin? (c :: past) slot = origin? past slot := by
  cases c with
  | compile target text => exact if_neg h
  | copySlot source target =>
    rw [origin?]
    split
    · cases ho : origin? past source with
      | none => rfl
      | some o => exact absurd ⟨‹_›, Option.isSome_iff_exists.mpr ⟨o, ho⟩⟩ h
    · rfl
  | _ => rfl

theorem origin?_of_leaves {cs : List Command} (h : Leaves past slot cs) :
    origin? (cs.reverse ++ past) slot = origin? past slot := by
  induction cs generalizing past with
  | nil => rfl
  | cons c cs ih =>
    calc origin? ((c :: cs).reverse ++ past) slot
      _ = origin? (cs.reverse ++ c :: past) slot := by
        rw [List.reverse_cons, List.append_assoc, List.singleton_append]
      _ = origin? (c :: past) slot := ih h.2
      _ = origin? past slot := origin?_of_not_writes h.1

/-! ## Snapshots -/

/-- What a slot answers is fixed by one compilation, with the definitions made between the
last reset and it, and stays so under all commands that leave the slot. -/
theorem evaluateSlot_origin (cs : List Command) (slot : String) :
    ((∃ f, (initial.after cs).slots slot = some f) ↔
      ∃ past text, origin? cs.reverse slot = some (past, text)) ∧
    ∀ past text, origin? cs.reverse slot = some (past, text) →
      (∃ target later, cs = past.reverse ++ .compile target text :: later) ∧
      ∃ f, ((vocabularyAfter past).compile text).outcome = .ok f ∧
        ∀ ds, Leaves cs.reverse slot ds →
          ∀ x, initial.run (cs ++ ds ++ [.evaluateSlot slot x]) =
            initial.run (cs ++ ds) ++ [(initial.after (cs ++ ds)).report (f x) .value] := by
  refine ⟨exists_slots_iff, fun past text horigin => ?_⟩
  obtain ⟨⟨f, hf⟩, target, later, hpast⟩ := origin?_eq_some horigin
  have hcs : cs = past.reverse ++ .compile target text :: later.reverse := by
    rw [← List.reverse_reverse cs, hpast]
    simp
  refine ⟨⟨target, later.reverse, hcs⟩, f, compiled?_eq_some_iff.mp hf, fun ds hleaves x => ?_⟩
  have hstill : origin? (cs ++ ds).reverse slot = some (past, text) := by
    rw [List.reverse_append, origin?_of_leaves hleaves, horigin]
  rw [run_append]
  simp only [run, step, slots_of_origin? hstill hf]

/-- A formula is copied, and then the function in it gets another meaning. -/
def copied : List Command :=
  [.define (.unary "double" fun a => 2 * a), .compile "a" "double(x)", .copySlot "a" "b"]

def redefined : List Command :=
  [.define (.unary "double" fun a => -a), .compile "b" "foo", .reset, .compile "a" "1"]

theorem evaluateSlot_origin_copied :
    Leaves copied.reverse "b" redefined ∧
    ∃ f, ((Vocabulary.standard.define (.unary "double" fun a => 2 * a)).compile
        "double(x)").outcome = .ok f ∧
      ∀ x, initial.run (copied ++ redefined ++ [.evaluateSlot "b" x]) =
        initial.run (copied ++ redefined) ++
          [(initial.after (copied ++ redefined)).report (f x) .value] := by
  have hleaves : Leaves copied.reverse "b" redefined :=
    ⟨nofun, fun h => absurd h.2 (by decide), nofun, fun h => absurd h.1 (by decide), trivial⟩
  obtain ⟨-, f, hf, hrun⟩ := (evaluateSlot_origin copied "b").2
    [.define (.unary "double" fun a => 2 * a)] "double(x)" rfl
  exact ⟨hleaves, f, hf, hrun redefined hleaves⟩

end Session

end PostfixCalc

import PostfixCalc.Proofs.Boundary
import PostfixCalc.Proofs.Journal

/-! # The pieces of a text

The tokens of a text come from its characters, none lost and none read twice. Put side by
side, what the tokens were written with and what was skipped are the text again, and the
only tokens for which nothing was written are the zeros before minuses that are signs.
Which characters are skipped and which minuses are signs is seen from the character and
what stands before it. -/

namespace PostfixCalc

/-! ## Characters and what stands before them -/

/-- Whether a minus after these characters is a sign. -/
def signPlace (before : List Char) : Bool :=
  before.isEmpty || before.getLast? = some '('

/-- Whether a point after these characters belongs to a numeral: among the digits and points
right before it there is a digit. -/
def numeralPlace (before : List Char) : Bool :=
  (before.reverse.takeWhile fun d => d.isDigit || d = '.').any Char.isDigit

def isSign (before : List Char) (c : Char) : Bool :=
  c = '-' && signPlace before

def isSkipped (before : List Char) (c : Char) : Bool :=
  meaningless c && !(c = '.' && numeralPlace before)

section Characters

variable (p : List Char → Char → Bool)

/-- The places of the characters with a property, counted from the start of the text. -/
def places (before : List Char) : List Char → List Nat
  | [] => []
  | c :: cs => (if p before c then [before.length] else []) ++ places (before ++ [c]) cs

/-- A text without the characters that have a property. -/
def without (before : List Char) : List Char → List Char
  | [] => []
  | c :: cs => (if p before c then [] else [c]) ++ without (before ++ [c]) cs

theorem places_append (before cs ds : List Char) :
    places p before (cs ++ ds) = places p before cs ++ places p (before ++ cs) ds := by
  induction cs generalizing before with
  | nil => simp [places]
  | cons c cs ih => simp [places, ih]

theorem without_append (before cs ds : List Char) :
    without p before (cs ++ ds) = without p before cs ++ without p (before ++ cs) ds := by
  induction cs generalizing before with
  | nil => simp [without]
  | cons c cs ih => simp [without, ih]

/-- Where no character has the property it has no places, and nothing is taken away. -/
theorem places_eq_nil {p : List Char → Char → Bool} {before cs : List Char}
    (h : ∀ bs c ds, cs = bs ++ c :: ds → p (before ++ bs) c = false) :
    places p before cs = [] ∧ without p before cs = cs := by
  induction cs generalizing before with
  | nil => exact ⟨rfl, rfl⟩
  | cons c cs ih =>
    have hc : p before c = false := by simpa using h [] c cs rfl
    have hcs : ∀ bs d ds, cs = bs ++ d :: ds → p (before ++ [c] ++ bs) d = false := by
      rintro bs d ds rfl
      simpa using h (c :: bs) d ds rfl
    obtain ⟨hplaces, hwithout⟩ := ih hcs
    simp [places, without, hc, hplaces, hwithout]

theorem signPlace_concat (before : List Char) (c : Char) :
    signPlace (before ++ [c]) = decide (c = '(') := by
  simp [signPlace]

theorem numeralPlace_concat (before : List Char) (c : Char) :
    numeralPlace (before ++ [c]) = (c.isDigit || c = '.' && numeralPlace before) := by
  cases hc : c.isDigit with
  | true => simp [numeralPlace, hc]
  | false =>
    by_cases hp : c = '.'
    · simp [numeralPlace, hp]
    · simp [numeralPlace, hp, hc]

theorem numeralPlace_numeral {cs : List Char} (h : IsNumeral cs) (before : List Char) :
    numeralPlace (before ++ cs) = true := by
  have hall : ∀ d ∈ cs.reverse, (d.isDigit || d = '.') = true := by simpa using h.mem
  obtain ⟨c, ds, rfl, hc⟩ := h.exists_cons
  rw [numeralPlace, List.reverse_append, List.takeWhile_append_of_pos hall, List.any_append,
    List.any_reverse]
  simp [hc]

end Characters

/-! ## The characters of one lexeme -/

namespace Lexeme

variable {v : Vocabulary} {k : Kind} {l : Lexeme} {before : List Char}

theorem text_ne_nil (h : l.Formed) : l.text.toList ≠ [] := by
  cases l with
  | word _ | numeral _ => exact h.nonempty
  | var capital => cases capital <;> decide
  | operator _ | other _ => simp [text]
  | opening | closing => decide

/-- A bracket or an operator is a lexeme of its own. -/
theorem eq_start_of_mem {d : Char} (hl : l.Formed) (hd : breaks d = true)
    (hm : meaningless d = false) (h : d ∈ l.text.toList) : l = start d := by
  simp only [breaks, Bool.and_eq_true, Bool.not_eq_true', decide_eq_true_eq] at hd
  obtain ⟨⟨hletter, hdigit⟩, hpoint⟩ := hd
  cases l with
  | word _ =>
    have := hl.letters d h
    simp [hletter] at this
  | numeral _ =>
    have := hl.mem d h
    simp [hdigit, hpoint] at this
  | var capital =>
    cases capital <;> cases List.mem_singleton.mp h <;> exact absurd hletter (by decide)
  | operator op =>
    obtain rfl : d = op.symbol := by simpa [text] using h
    exact (start_symbol op).symm
  | opening =>
    cases List.mem_singleton.mp h
    rfl
  | closing =>
    cases List.mem_singleton.mp h
    rfl
  | other c =>
    obtain rfl : d = c := by simpa [text] using h
    exact absurd hl (by simp [Formed, hm])

/-- After an open bracket, and after no other lexeme, a minus is a sign. -/
theorem signPlace_text (hl : l.Formed) (before : List Char) :
    signPlace (before ++ l.text.toList) = decide (l = .opening) := by
  obtain ⟨bs, d, htext⟩ := (List.eq_nil_or_concat' l.text.toList).resolve_left (text_ne_nil hl)
  rw [htext, ← List.append_assoc, signPlace_concat, decide_eq_decide]
  constructor
  · rintro rfl
    exact eq_start_of_mem hl (d := '(') (by decide) (by decide) (by simp [htext])
  · rintro rfl
    have hlast : ['('] = bs ++ [d] := htext
    simpa using (congrArg List.getLast? hlast).symm

/-- Only the minus of an operator is a sign, where one stands. -/
theorem isSign_text (hl : l.Formed) (h : l = .operator .sub → signPlace before = false) :
    ∀ bs c ds, l.text.toList = bs ++ c :: ds → isSign (before ++ bs) c = false := by
  intro bs c ds htext
  by_cases hc : c = '-'
  · subst hc
    obtain rfl : l = .operator .sub :=
      eq_start_of_mem hl (d := '-') (by decide) (by decide) (by simp [htext])
    have hone : ['-'] = bs ++ '-' :: ds := htext
    obtain ⟨rfl, rfl⟩ : bs = [] ∧ ds = [] := by
      cases bs <;> simp_all
    simpa [isSign] using h rfl
  · simp [isSign, hc]

/-- What the text of a token is made of: a numeral, and no other, of digits and points, and any
other of characters that mean something. -/
theorem mem_text (hl : l.Formed) (hk : l.kind? v = some k) :
    ∀ c ∈ l.text.toList, (c.isDigit || c = '.') = decide (k = .number) ∧
      (c ≠ '.' → meaningless c = false) := by
  cases l with
  | word _ =>
    have hnumber : k ≠ .number := (Vocabulary.kind?_ne hk).1
    intro c hc
    have hletter : isLetter c = true := hl.letters c hc
    have hpoint : c ≠ '.' := by
      rintro rfl
      exact absurd hletter (by decide)
    simp [meaningless, hletter, isDigit_of_isLetter hletter, hpoint, hnumber]
  | numeral _ =>
    cases hk
    intro c hc
    have hmem : c.isDigit = true ∨ c = '.' := hl.mem c hc
    exact ⟨by simpa using hmem, fun hpoint => by simp [meaningless, hmem.resolve_right hpoint]⟩
  | var capital =>
    cases hk
    intro c hc
    cases capital <;> cases List.mem_singleton.mp hc <;> decide
  | operator op =>
    cases hk
    intro c hc
    cases op <;> cases List.mem_singleton.mp hc <;> decide
  | opening | closing =>
    cases hk
    intro c hc
    cases List.mem_singleton.mp hc
    decide
  | other _ => cases hk

/-- After a numeral, and after no other token, a point belongs to it. -/
theorem numeralPlace_text (hl : l.Formed) (hk : l.kind? v = some k) (before : List Char) :
    numeralPlace (before ++ l.text.toList) = decide (k = .number) := by
  by_cases hnumber : k = .number
  · subst hnumber
    cases l with
    | numeral _ =>
      rw [text, numeralPlace_numeral hl]
      rfl
    | word _ => exact absurd rfl (Vocabulary.kind?_ne hk).1
    | var _ | operator _ | opening | closing | other _ => cases hk
  · obtain ⟨bs, d, htext⟩ := (List.eq_nil_or_concat' l.text.toList).resolve_left (text_ne_nil hl)
    have hd := (mem_text hl hk d (by simp [htext])).1
    simp only [hnumber, decide_false, Bool.or_eq_false_iff] at hd
    rw [htext, ← List.append_assoc, numeralPlace_concat]
    simp [hd, hnumber]

/-- No character of a token is skipped. -/
theorem isSkipped_text (hl : l.Formed) (hk : l.kind? v = some k) :
    ∀ bs c ds, l.text.toList = bs ++ c :: ds → isSkipped (before ++ bs) c = false := by
  intro bs c ds htext
  obtain ⟨hnumber, hmeaning⟩ := mem_text hl hk c (by simp [htext])
  by_cases hpoint : c = '.'
  · subst hpoint
    obtain rfl : k = .number := by simpa using hnumber.symm
    suffices hplace : numeralPlace (before ++ bs) = true by simp [isSkipped, hplace]
    cases l with
    | numeral _ =>
      have hnumeral : IsNumeral (bs ++ '.' :: ds) := htext ▸ hl
      exact numeralPlace_numeral hnumeral.of_append_point before
    | word _ => exact absurd rfl (Vocabulary.kind?_ne hk).1
    | var _ | operator _ | opening | closing | other _ => cases hk
  · simp [isSkipped, hmeaning hpoint]

/-- Where no numeral stands before it, a point is skipped as any character is that means nothing. -/
theorem isSkipped_other {c : Char} (hc : meaningless c = true)
    (h : c = '.' → numeralPlace before = false) : isSkipped before c = true := by
  by_cases hpoint : c = '.'
  · simp [isSkipped, hc, h hpoint]
  · simp [isSkipped, hc, hpoint]

/-- So it is after a token that it does not go on. -/
theorem isSkipped_after {c : Char} (hl : l.Formed) (hk : l.kind? v = some k)
    (hc : meaningless c = true) (h : l.Apart (.other c)) :
    isSkipped (before ++ l.text.toList) c = true := by
  refine isSkipped_other hc ?_
  rintro rfl
  have hextend := extend?_isSome hk '.'
  have hnone : l.extend? '.' = none := h '.' (by simp [text])
  rw [numeralPlace_text hl hk, decide_eq_false_iff_not]
  rintro rfl
  simp [hnone] at hextend

/-- And so it is after a character that is skipped. -/
theorem isSkipped_concat {c d : Char} (hd : isSkipped before d = true)
    (hc : meaningless c = true) : isSkipped (before ++ [d]) c = true := by
  obtain ⟨hmeaning, hplace⟩ := Bool.and_eq_true_iff.mp hd
  refine isSkipped_other hc fun _ => ?_
  rw [numeralPlace_concat, isDigit_of_meaningless hmeaning, Bool.false_or]
  simpa [imp_iff_not_or] using hplace

end Lexeme

/-! ## Pieces -/

/-- A piece of a text that is read: a token with what was written for it, a character
that was skipped, or a zero for which nothing was written. -/
inductive Piece where
  | zero
  | written (t : Token)
  | skipped (c : Char)
  deriving DecidableEq

namespace Piece

def chars : Piece → List Char
  | zero => []
  | written t => t.text.toList
  | skipped c => [c]

def token? : Piece → Option Token
  | zero => some ⟨.number, "0"⟩
  | written t => some t
  | skipped _ => none

def written? : Piece → Option Token
  | written t => some t
  | _ => none

def isZero (p : Piece) : Bool :=
  p = zero

def isSkipped : Piece → Bool
  | skipped _ => true
  | _ => false

/-- The places of the pieces with a property, in a text of which `n` characters came before. -/
def places (p : Piece → Bool) (n : Nat) : List Piece → List Nat
  | [] => []
  | q :: qs => (if p q then [n] else []) ++ places p (n + q.chars.length) qs

/-- How one piece may follow another: right after a zero comes its minus, and two tokens whose
texts would be one have something between them. -/
def Follows (p q : Piece) : Prop :=
  (p = zero → q = written (.ofOperator .sub)) ∧
    ∀ s ∈ p.token?, ∀ t ∈ q.token?, s.kind.joins t.kind = false

end Piece

/-- `Tiles before cs ts ps`: the pieces `ps` are the characters `cs` and the tokens `ts`, where
the text has the characters `before` before them. -/
structure Tiles (before cs : List Char) (ts : List Token) (ps : List Piece) : Prop where
  tokens : ps.filterMap Piece.token? = ts
  chars : ps.flatMap Piece.chars = cs
  /-- There is one zero for each minus that is a sign, at its place. -/
  zeros : Piece.places Piece.isZero before.length ps = places isSign before cs
  skips : Piece.places Piece.isSkipped before.length ps = places isSkipped before cs
  /-- The texts that were written are all that is not skipped. -/
  kept : (ps.filterMap Piece.written?).flatMap (fun t => t.text.toList) =
    without isSkipped before cs
  follows : ps.IsChain Piece.Follows

namespace Tiles

variable {before cs : List Char} {ts : List Token} {ps : List Piece} {t : Token} {c : Char}

theorem skipped (h : Tiles (before ++ [c]) cs ts ps) (hc : isSkipped before c = true)
    (hsign : isSign before c = false) : Tiles before (c :: cs) ts (.skipped c :: ps) where
  tokens := by simp [List.filterMap_cons, Piece.token?, h.tokens]
  chars := by simp [Piece.chars, h.chars]
  zeros := by simpa [Piece.places, places, Piece.isZero, Piece.chars, hsign] using h.zeros
  skips := by simpa [Piece.places, places, Piece.isSkipped, Piece.chars, hc] using h.skips
  kept := by simpa [List.filterMap_cons, Piece.written?, without, hc] using h.kept
  follows := List.isChain_cons.mpr ⟨fun q _ => ⟨nofun, nofun⟩, h.follows⟩

theorem written (h : Tiles (before ++ t.text.toList) cs ts ps)
    (hsign : ∀ bs c ds, t.text.toList = bs ++ c :: ds → isSign (before ++ bs) c = false)
    (hskip : ∀ bs c ds, t.text.toList = bs ++ c :: ds → isSkipped (before ++ bs) c = false)
    (hfollows : ∀ q ∈ ps.head?, (Piece.written t).Follows q) :
    Tiles before (t.text.toList ++ cs) (t :: ts) (.written t :: ps) where
  tokens := by simp [Piece.token?, h.tokens]
  chars := by simp [Piece.chars, h.chars]
  zeros := by
    rw [places_append, (places_eq_nil hsign).1]
    simpa [Piece.places, Piece.isZero, Piece.chars] using h.zeros
  skips := by
    rw [places_append, (places_eq_nil hskip).1]
    simpa [Piece.places, Piece.isSkipped, Piece.chars] using h.skips
  kept := by
    rw [without_append, (places_eq_nil hskip).2]
    simpa [List.filterMap_cons, Piece.written?] using h.kept
  follows := List.isChain_cons.mpr ⟨hfollows, h.follows⟩

theorem signed (h : Tiles (before ++ ['-']) cs ts ps) (hsign : signPlace before = true)
    (hfollows : ∀ q ∈ ps.head?, (Piece.written (.ofOperator .sub)).Follows q) :
    Tiles before ('-' :: cs) (⟨.number, "0"⟩ :: .ofOperator .sub :: ts)
      (.zero :: .written (.ofOperator .sub) :: ps) := by
  have htext : (Token.ofOperator .sub).text.toList = ['-'] := by decide
  have hskip : isSkipped before '-' = false := by
    have hminus : meaningless '-' = false := by decide
    simp [isSkipped, hminus]
  constructor
  case tokens => simp [Piece.token?, h.tokens]
  case chars => simp [Piece.chars, htext, h.chars]
  case zeros =>
    simpa [Piece.places, places, Piece.isZero, Piece.chars, htext, isSign, hsign] using h.zeros
  case skips =>
    simpa [Piece.places, places, Piece.isSkipped, Piece.chars, htext, hskip] using h.skips
  case kept =>
    simpa [List.filterMap_cons, Piece.written?, without, htext, hskip] using h.kept
  case follows =>
    have hzero : Piece.zero.Follows (.written (.ofOperator .sub)) := by
      refine ⟨fun _ => rfl, ?_⟩
      rintro _ ⟨⟩ _ ⟨⟩
      decide
    exact List.isChain_cons_cons.mpr ⟨hzero, List.isChain_cons.mpr ⟨hfollows, h.follows⟩⟩

end Tiles

/-! ## Reading in pieces -/

namespace Vocabulary

/-- `Becomes v signed l now`: all that one lexeme can be read as. -/
inductive Becomes (v : Vocabulary) : Bool → Lexeme → List Token → Prop
  | skipped {signed} (c : Char) : Becomes v signed (.other c) []
  | signed : Becomes v true (.operator .sub) [⟨.number, "0"⟩, .ofOperator .sub]
  | token {signed l k} (hk : l.kind? v = some k) (hs : l = .operator .sub → signed = false) :
      Becomes v signed l [⟨k, l.text⟩]

variable {v : Vocabulary} {signed : Bool} {l : Lexeme} {ls : List Lexeme} {now ts : List Token}

theorem becomes_of_read (h : (v.readLexeme signed l).outcome = .ok now) :
    Becomes v signed l now := by
  cases l with
  | word name =>
    simp only [readLexeme] at h
    split at h <;> cases h
    refine .token ‹_› ?_
    rintro ⟨⟩
  | operator op =>
    simp only [readLexeme, Logged.outcome_pure, Except.ok.injEq] at h
    split at h <;> cases h
    · rename_i hsign
      obtain ⟨rfl, rfl⟩ : signed = true ∧ op = .sub := by simpa using hsign
      exact .signed
    · rename_i hsign
      refine .token rfl ?_
      rintro ⟨⟩
      simpa using hsign
  | var _ | opening | closing | numeral _ =>
    cases h
    refine .token rfl ?_
    rintro ⟨⟩
  | other c =>
    cases h
    exact .skipped c

/-- A piece that begins what is read after a token may follow the token. -/
theorem follows_of_apart {k : Kind} {q : Piece} (hk : l.kind? v = some k)
    (hls : ∀ m ∈ ls, m.Formed) (hapart : ∀ m ∈ ls.head?, l.Apart m)
    (hq : ∀ t ∈ q.token?, q = .zero ∧ decide (l = .opening) = true ∨
      ∃ m ∈ ls.head?, m.kind? v = some t.kind) (text : String) :
    (Piece.written ⟨k, text⟩).Follows q := by
  refine ⟨nofun, ?_⟩
  rintro _ ⟨⟩ t ht
  rcases hq t ht with ⟨rfl, hopening⟩ | ⟨m, hm, hmk⟩
  · cases ht
    cases of_decide_eq_true hopening
    cases hk
    rfl
  · exact (Lexeme.apart_iff hk (hls m (List.mem_of_mem_head? hm)) hmk).mp (hapart m hm)

/-- The lexemes that are read tile their characters. Of what was read before, they need to know
only the characters, and what follows a lexeme only the kind of the token that comes first. -/
theorem exists_tiles {before : List Char} (hls : ∀ l ∈ ls, l.Formed)
    (hchain : ls.IsChain Lexeme.Apart)
    (hskip : ∀ c, ls.head? = some (.other c) → isSkipped before c = true)
    (h : (v.readLexemes (signPlace before) ls).outcome = .ok ts) :
    ∃ ps, Tiles before (ls.flatMap fun l => l.text.toList) ts ps ∧
      ∀ q ∈ ps.head?, ∀ t ∈ q.token?, q = .zero ∧ signPlace before = true ∨
        ∃ l ∈ ls.head?, l.kind? v = some t.kind := by
  induction ls generalizing before ts with
  | nil =>
    cases h
    exact ⟨[], ⟨rfl, rfl, rfl, rfl, rfl, List.isChain_nil⟩, by simp⟩
  | cons l ls ih =>
    obtain ⟨hl, hrests⟩ := List.forall_mem_cons.mp hls
    obtain ⟨hapart, hlong⟩ := List.isChain_cons.mp hchain
    rw [readLexemes_cons] at h
    obtain ⟨now, hnow, h⟩ := bind_eq_ok_iff.mp h
    obtain ⟨rest, hrest, h⟩ := bind_eq_ok_iff.mp h
    cases h
    have hplace := Lexeme.signPlace_text hl before
    rw [← hplace] at hrest
    have hother {c : Char} (hc : ls.head? = some (.other c)) : meaningless c = true :=
      hrests _ (List.mem_of_mem_head? hc)
    have hbecomes := becomes_of_read hnow
    generalize hs : signPlace before = s at hbecomes
    cases hbecomes with
    | skipped c =>
      have hc : isSkipped before c = true := hskip c rfl
      have htext : (Lexeme.other c).text.toList = [c] := by simp [Lexeme.text]
      have hminus : Lexeme.other c = .operator .sub → signPlace before = false := by
        rintro ⟨⟩
      have hsign : isSign before c = false := by
        simpa using Lexeme.isSign_text hl hminus [] c [] htext
      rw [htext] at hrest
      obtain ⟨ps, hps, -⟩ :=
        ih hrests hlong (fun d hd => Lexeme.isSkipped_concat hc (hother hd)) hrest
      rw [List.flatMap_cons, htext]
      refine ⟨_, hps.skipped hc hsign, ?_⟩
      rintro _ ⟨⟩ _ ⟨⟩
    | signed =>
      have hk : (Lexeme.operator .sub).kind? v = some .binaryOp := rfl
      have htext : (Lexeme.operator .sub).text.toList = ['-'] := by
        simp [Lexeme.text, Operator.symbol]
      obtain ⟨ps, hps, hhead⟩ := ih hrests hlong
        (fun d hd => Lexeme.isSkipped_after hl hk (hother hd) (hapart _ hd)) hrest
      rw [hplace] at hhead
      rw [htext] at hps
      rw [List.flatMap_cons, htext]
      refine ⟨_, hps.signed hs fun q hq => follows_of_apart hk hrests hapart (hhead q hq) _, ?_⟩
      rintro _ ⟨⟩ t ht
      exact .inl ⟨rfl, rfl⟩
    | token hk hsub =>
      obtain ⟨ps, hps, hhead⟩ := ih hrests hlong
        (fun d hd => Lexeme.isSkipped_after hl hk (hother hd) (hapart _ hd)) hrest
      rw [hplace] at hhead
      have hsign := Lexeme.isSign_text hl fun he => hs.trans (hsub he)
      refine ⟨_, hps.written (t := ⟨_, l.text⟩) hsign (Lexeme.isSkipped_text hl hk)
        fun q hq => follows_of_apart hk hrests hapart (hhead q hq) _, ?_⟩
      rintro _ ⟨⟩ _ ⟨⟩
      exact .inr ⟨l, rfl, hk⟩

/-- What characters are read as tiles them. -/
theorem tiles_of_read {cs : List Char} (h : v.read true cs = .ok ts) : ∃ ps, Tiles [] cs ts ps := by
  have hskip : ∀ c, (Lexeme.split cs).head? = some (.other c) → isSkipped [] c = true :=
    fun c hc => Lexeme.isSkipped_other
      (Lexeme.formed_split cs _ (List.mem_of_mem_head? hc)) fun _ => rfl
  obtain ⟨ps, hps, -⟩ :=
    exists_tiles (Lexeme.formed_split cs) (Lexeme.isChain_split cs) hskip h
  rw [Lexeme.flatMap_split] at hps
  exact ⟨ps, hps⟩

/-- A text that is read is tiled by its tokens, its skipped characters and the zeros of its
signs, once its blanks are gone. -/
theorem tokenize_pieces {text : String} (h : (v.tokenize text).outcome = .ok ts) :
    ∃ ps, Tiles [] (unblanked text) ts ps := by
  obtain ⟨-, hread⟩ := v.tokenize_eq_ok_iff.mp h
  exact tiles_of_read hread

/-- Two signs, and points and commas in and between numerals and words. -/
theorem tokenize_pieces_points :
    (standard.tokenize "-2,.5 (- x) pi, e1.2 .,.3").outcome =
      .ok [⟨.number, "0"⟩, .ofOperator .sub, ⟨.number, "2"⟩, ⟨.number, "5"⟩, .opening,
        ⟨.number, "0"⟩, .ofOperator .sub, ⟨.var, "x"⟩, .closing, ⟨.constant, "pi"⟩,
        ⟨.constant, "e"⟩, ⟨.number, "1.2."⟩, ⟨.number, "3"⟩] ∧
    ∃ ts ps, Tiles [] (unblanked "-2,.5 (- x) pi, e1.2 .,.3") ts ps ∧
      Piece.places Piece.isZero 0 ps = [0, 6] ∧
      Piece.places Piece.isSkipped 0 ps = [2, 3, 11, 17, 18] ∧
      (ps.filterMap Piece.written?).flatMap (fun t => t.text.toList) =
        "-25(-x)pie1.2.3".toList := by
  have hts : (standard.tokenize "-2,.5 (- x) pi, e1.2 .,.3").outcome =
      .ok [⟨.number, "0"⟩, .ofOperator .sub, ⟨.number, "2"⟩, ⟨.number, "5"⟩, .opening,
        ⟨.number, "0"⟩, .ofOperator .sub, ⟨.var, "x"⟩, .closing, ⟨.constant, "pi"⟩,
        ⟨.constant, "e"⟩, ⟨.number, "1.2."⟩, ⟨.number, "3"⟩] := by
    decide
  obtain ⟨ps, hps⟩ := tokenize_pieces hts
  exact ⟨hts, _, ps, hps, hps.zeros.trans (by decide), hps.skips.trans (by decide),
    hps.kept.trans (by decide)⟩

end Vocabulary

end PostfixCalc

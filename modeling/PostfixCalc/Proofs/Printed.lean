import PostfixCalc.Proofs.Pieces

/-! # Printed tokens

Spaces separate tokens for the eye only: to the reader the texts of printed tokens stand side
by side. So tokens can be read back just when none of their texts are one lexeme together and
no minus among them is where a minus is a sign. -/

namespace PostfixCalc

/-- The characters of a list of tokens, with nothing between them. -/
def Token.joined (ts : List Token) : List Char :=
  ts.flatMap fun t => t.text.toList

/-- Whether one token may be printed right before another. -/
def Token.Precedes (s t : Token) : Prop :=
  s.kind.joins t.kind = false ∧ (s = .opening → t ≠ .ofOperator .sub)

instance : DecidableRel Token.Precedes :=
  fun _ _ => inferInstanceAs (Decidable (_ ∧ _))

variable {v : Vocabulary} {t : Token} {ts : List Token}

theorem Token.toList_spaced_cons_cons (t u : Token) (us : List Token) :
    (spaced (t :: u :: us)).toList = t.text.toList ++ ' ' :: (spaced (u :: us)).toList := by
  simp [spaced]

theorem unblanked_text (h : t.Spelled v) : unblanked t.text = t.text.toList := by
  simpa [unblanked] using h.not_blank

/-- The spaces go, and nothing else. -/
theorem unblanked_spaced (h : ∀ t ∈ ts, t.Spelled v) :
    unblanked (Token.spaced ts) = Token.joined ts := by
  induction ts with
  | nil => rfl
  | cons t us ih =>
    obtain ⟨ht, hus⟩ := List.forall_mem_cons.mp h
    cases us with
    | nil => simpa [Token.spaced, Token.joined] using unblanked_text ht
    | cons u us =>
      have hfirst : t.text.toList.filter (!isBlank ·) = t.text.toList := unblanked_text ht
      have hspace : isBlank ' ' = true := by decide
      have hrest : (Token.spaced (u :: us)).toList.filter (!isBlank ·) =
          Token.joined (u :: us) := ih hus
      rw [unblanked, Token.toList_spaced_cons_cons, List.filter_append, hfirst,
        List.filter_cons_of_neg (by simp [hspace]), hrest]
      rfl

/-! ## Reading what was printed -/

/-- A token begins with a character that goes on no token before it. -/
theorem extend?_eq_none_of_joins {s : Token} {l : Lexeme} (hs : Lexeme.split s.text.toList = [l])
    (hspelled : s.Spelled v) (ht : t.Spelled v) (h : s.kind.joins t.kind = false) (cs : List Char) :
    ∀ d ∈ (t.text.toList ++ cs).head?, l.extend? d = none := by
  obtain ⟨m, hm, hformed, hkind⟩ := ht.exists_lexeme
  have happart := (Lexeme.apart_iff (hspelled.kind?_of_split hs) hformed hkind).mpr h
  obtain ⟨c, ds, htext, -⟩ := Lexeme.exists_text_eq_cons hformed hkind
  rw [Lexeme.Apart, htext] at happart
  rw [← Lexeme.text_eq_of_split hm, htext]
  exact happart

theorem text_ne_nil (ht : t.Spelled v) : t.text.toList ≠ [] := by
  obtain ⟨l, hl, hformed, -⟩ := ht.exists_lexeme
  rw [← Lexeme.text_eq_of_split hl]
  exact Lexeme.text_ne_nil hformed

/-- A token is read from its text, where nothing that follows goes on it. -/
theorem read_text_append (ht : t.Spelled v) {signed : Bool}
    (hsign : signed = true → t ≠ .ofOperator .sub) {cs : List Char}
    (hcs : ∀ l, Lexeme.split t.text.toList = [l] → ∀ d ∈ cs.head?, l.extend? d = none) :
    v.read signed (t.text.toList ++ cs) =
      v.read (t = .opening) cs >>= fun rest => .ok (t :: rest) := by
  obtain ⟨l, hl, -⟩ := ht.exists_lexeme
  have hopening : l = .opening ↔ t = .opening := by
    constructor
    · rintro rfl
      have hkind := Option.some.inj (ht.kind?_of_split hl)
      have htext := Lexeme.text_eq_of_split hl
      obtain ⟨kind, text⟩ := t
      cases hkind
      cases htext
      rfl
    · rintro rfl
      cases hl
      rfl
  have hfirst : (v.readLexeme signed l).outcome = .ok (t.readAs signed) := by
    have hread := ht.read signed
    rwa [Vocabulary.read, hl, Vocabulary.readLexemes_singleton] at hread
  have hplain : t.readAs signed = [t] := by
    unfold Token.readAs
    rw [if_neg]
    simpa using hsign
  rw [Vocabulary.read, Lexeme.split_append_of_extend_none hl (hcs l hl),
    Vocabulary.readLexemes_cons, hfirst, hplain]
  simp only [hopening]
  rfl

/-- Tokens that may be printed side by side are read again. -/
theorem read_joined (h : ∀ t ∈ ts, t.Spelled v) (hchain : ts.IsChain Token.Precedes)
    {signed : Bool} (hsign : signed = true → ts.head? ≠ some (.ofOperator .sub)) :
    v.read signed (Token.joined ts) = .ok ts := by
  induction ts generalizing signed with
  | nil => rfl
  | cons t us ih =>
    obtain ⟨ht, hus⟩ := List.forall_mem_cons.mp h
    obtain ⟨hnext, hmore⟩ := List.isChain_cons.mp hchain
    have hrest : v.read (t = .opening) (Token.joined us) = .ok us := by
      refine ih hus hmore fun hopening hminus => ?_
      exact (hnext _ hminus).2 (of_decide_eq_true hopening) rfl
    have hfirst : signed = true → t ≠ .ofOperator .sub := fun hs heq => hsign hs (by rw [heq]; rfl)
    have hends : ∀ l, Lexeme.split t.text.toList = [l] →
        ∀ d ∈ (Token.joined us).head?, l.extend? d = none := by
      intro l hl
      cases us with
      | nil => simp [Token.joined]
      | cons u us =>
        exact extend?_eq_none_of_joins hl ht (hus u (by simp)) (hnext u rfl).1 _
    have hjoined : Token.joined (t :: us) = t.text.toList ++ Token.joined us := rfl
    rw [hjoined, read_text_append ht hfirst hends, hrest, ok_bind]

/-! ## What is read from printed tokens -/

namespace Piece

variable {ps : List Piece}

theorem places_eq_nil_iff {p : Piece → Bool} {n : Nat} :
    places p n ps = [] ↔ ∀ q ∈ ps, p q = false := by
  induction ps generalizing n with
  | nil => simp [places]
  | cons q qs ih => simp [places, ih]

/-- Of the tokens of a text, only the zeros were not written. -/
theorem length_joined (ps : List Piece) :
    (Token.joined (ps.filterMap token?)).length =
      (Token.joined (ps.filterMap written?)).length + ps.countP isZero := by
  induction ps with
  | nil => rfl
  | cons p ps ih =>
    simp only [Token.joined] at ih ⊢
    cases p <;> simp [List.filterMap_cons, token?, written?, isZero, ih] <;> omega

theorem eq_map_written (h : ∀ p ∈ ps, p.isZero = false ∧ p.isSkipped = false) :
    ps = (ps.filterMap token?).map written := by
  induction ps with
  | nil => rfl
  | cons p ps ih =>
    obtain ⟨⟨hzero, hskipped⟩, hps⟩ := List.forall_mem_cons.mp h
    cases p with
    | zero => cases hzero
    | written t =>
      have ht : token? (written t) = some t := rfl
      rw [List.filterMap_cons_some ht, List.map_cons, ← ih hps]
    | skipped _ => cases hskipped

end Piece

/-- No character of a token is skipped, whatever stands before it. -/
theorem skips_joined (h : ∀ t ∈ ts, t.Spelled v) (before : List Char) :
    places isSkipped before (Token.joined ts) = [] ∧
      without isSkipped before (Token.joined ts) = Token.joined ts := by
  induction ts generalizing before with
  | nil => exact ⟨rfl, rfl⟩
  | cons t us ih =>
    obtain ⟨ht, hus⟩ := List.forall_mem_cons.mp h
    obtain ⟨l, hl, hformed, hkind⟩ := ht.exists_lexeme
    obtain ⟨hplaces, hwithout⟩ := places_eq_nil (Lexeme.isSkipped_text hformed hkind)
    rw [Lexeme.text_eq_of_split hl] at hplaces hwithout
    obtain ⟨hmore, hrest⟩ := ih hus (before ++ t.text.toList)
    have hjoined : Token.joined (t :: us) = t.text.toList ++ Token.joined us := rfl
    rw [hjoined, places_append, without_append, hplaces, hwithout, hmore, hrest]
    exact ⟨rfl, rfl⟩

/-- Tokens that are read again from their texts side by side are all that their characters are
tiled with. -/
theorem Tiles.eq_map_written {ps : List Piece} (h : ∀ t ∈ ts, t.Spelled v)
    (hps : Tiles [] (Token.joined ts) ts ps) : ps = ts.map .written := by
  obtain ⟨hplaces, hwithout⟩ := skips_joined h []
  have hskips := Piece.places_eq_nil_iff.mp (hps.skips.trans hplaces)
  have hkept : Token.joined (ps.filterMap Piece.written?) = Token.joined ts :=
    hps.kept.trans hwithout
  have hcount : ps.countP Piece.isZero = 0 := by
    have hlength := Piece.length_joined ps
    rw [hps.tokens, hkept] at hlength
    omega
  have hzeros : ∀ p ∈ ps, p.isZero = false := by
    simpa using hcount
  have hmap := Piece.eq_map_written fun p hp => ⟨hzeros p hp, hskips p hp⟩
  rwa [hps.tokens] at hmap

/-- No minus among them is a sign. -/
theorem Tiles.signPlace_eq_false {ps : List Piece} {front rest : List Token}
    (hps : Tiles [] (Token.joined ts) ts ps) (hmap : ps = ts.map .written)
    (hts : ts = front ++ .ofOperator .sub :: rest) :
    signPlace (Token.joined front) = false := by
  have hzeros : ∀ p ∈ ps, p.isZero = false := by
    simp [hmap, Piece.isZero]
  have hnone : places isSign [] (Token.joined ts) = [] :=
    hps.zeros.symm.trans (Piece.places_eq_nil_iff.mpr hzeros)
  have htext : (Token.ofOperator .sub).text.toList = ['-'] := by decide
  have hjoined : Token.joined ts = Token.joined front ++ '-' :: Token.joined rest := by
    simp [hts, Token.joined, htext]
  rw [hjoined, places_append, List.nil_append, places] at hnone
  have hsign := (List.append_eq_nil_iff.mp (List.append_eq_nil_iff.mp hnone).2).1
  simpa [isSign] using hsign

/-- Tokens that are read again from their texts side by side may be printed so. -/
theorem precedes_of_read (h : ∀ t ∈ ts, t.Spelled v)
    (hread : v.read true (Token.joined ts) = .ok ts) :
    ts.head? ≠ some (.ofOperator .sub) ∧ ts.IsChain Token.Precedes := by
  obtain ⟨ps, hps⟩ := Vocabulary.tiles_of_read hread
  have hmap := hps.eq_map_written h
  have hfollows : ts.IsChain fun s t => (Piece.written s).Follows (.written t) := by
    have hchain := hps.follows
    rwa [hmap, List.isChain_map] at hchain
  constructor
  · intro hhead
    obtain ⟨rest, hts⟩ := List.head?_eq_some_iff.mp hhead
    have hminus : ts = [] ++ .ofOperator .sub :: rest := hts
    exact absurd (hps.signPlace_eq_false hmap hminus) (by decide)
  · rw [List.isChain_iff_forall_rel_of_append_cons_cons] at hfollows ⊢
    intro s t front rest hts
    refine ⟨(hfollows hts).2 s rfl t rfl, ?_⟩
    rintro rfl rfl
    have hminus : ts = (front ++ [.opening]) ++ .ofOperator .sub :: rest := by simp [hts]
    have hplace := hps.signPlace_eq_false hmap hminus
    have hend : Token.joined (front ++ [.opening]) = Token.joined front ++ ['('] := by
      simp [Token.joined, Token.opening]
    rw [hend, signPlace_concat] at hplace
    exact absurd hplace (by decide)

namespace Vocabulary

/-- Printed tokens are read again unless two that stand side by side join, or a minus stands
where it is a sign. -/
theorem tokenize_spaced (hne : ts ≠ []) (h : ∀ t ∈ ts, t.Spelled v) :
    (v.tokenize (Token.spaced ts)).outcome = .ok ts ↔
      ts.head? ≠ some (.ofOperator .sub) ∧ ts.IsChain Token.Precedes := by
  have hchars : Token.joined ts ≠ [] := by
    obtain ⟨t, us, rfl⟩ := List.exists_cons_of_ne_nil hne
    have htext := text_ne_nil (h t (by simp))
    simp [Token.joined, htext]
  rw [tokenize_eq_ok_iff, unblanked_spaced h]
  constructor
  · rintro ⟨-, hread⟩
    exact precedes_of_read h hread
  · rintro ⟨hhead, hchain⟩
    exact ⟨hchars, read_joined h hchain fun _ => hhead⟩

/-- A name before a bracket and a numeral before a name are read back, a name before the variable
and a minus after a bracket are not. -/
theorem tokenize_spaced_adjacent :
    (standard.tokenize (Token.spaced [⟨.unaryFn, "sin"⟩, .opening, ⟨.number, "2."⟩,
        ⟨.constant, "pi"⟩, .ofOperator .sub, ⟨.var, "X"⟩, ⟨.var, "x"⟩])).outcome =
      .ok [⟨.unaryFn, "sin"⟩, .opening, ⟨.number, "2."⟩, ⟨.constant, "pi"⟩, .ofOperator .sub,
        ⟨.var, "X"⟩, ⟨.var, "x"⟩] ∧
    (standard.tokenize (Token.spaced [⟨.constant, "e"⟩, ⟨.var, "x"⟩])).outcome ≠
      .ok [⟨.constant, "e"⟩, ⟨.var, "x"⟩] ∧
    (standard.tokenize (Token.spaced [.opening, .ofOperator .sub, ⟨.var, "x"⟩])).outcome ≠
      .ok [.opening, .ofOperator .sub, ⟨.var, "x"⟩] := by
  have hcall : (standard.tokenize "sin(2.pi-Xx").outcome =
      .ok [⟨.unaryFn, "sin"⟩, .opening, ⟨.number, "2."⟩, ⟨.constant, "pi"⟩, .ofOperator .sub,
        ⟨.var, "X"⟩, ⟨.var, "x"⟩] := by
    decide
  have hname : (standard.tokenize "e,x").outcome = .ok [⟨.constant, "e"⟩, ⟨.var, "x"⟩] := by
    decide
  have hminus : (standard.tokenize "(,-x").outcome =
      .ok [.opening, .ofOperator .sub, ⟨.var, "x"⟩] := by
    decide
  refine ⟨(tokenize_spaced (by decide) (spelled_of_tokenize hcall)).mpr (by decide), ?_, ?_⟩
  · exact fun hread => absurd
      ((tokenize_spaced (by decide) (spelled_of_tokenize hname)).mp hread) (by decide)
  · exact fun hread => absurd
      ((tokenize_spaced (by decide) (spelled_of_tokenize hminus)).mp hread) (by decide)

end Vocabulary

end PostfixCalc

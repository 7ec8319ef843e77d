import Stencil.Proofs.Layout

/-!
# Sources behind each other

A source without a complaint leaves no code open, so what stands behind it is cut as
it is cut by itself; only a text at its end goes on into a text behind it. `Cut` says
how characters are cut into atoms, wherever they stand; `cut_of_lexFrom` and `Cut.lexes`
tie it to the lexer, and `Cut.append` puts two sources behind each other.

The end of a piece is known from the characters behind it. As braces close every
block of code, there are always two of them behind a piece of code, and no piece
depends on more (`scanCode_append`).
-/

namespace Stencil

/-! ## Pieces of code -/

/-- A kind of token that stands in code only. -/
def TokenKind.inCode : TokenKind → Bool
  | .text | .codeEnter | .codeExit | .frontMatterMarker | .eof => false
  | _ => true

theorem inCode_of_ite {p : Prop} [Decidable p] {kind other : TokenKind} {rest : Option TokenKind}
    (hkind : kind.inCode = true) (hrest : rest = some other → other.inCode = true) :
    (if p then some kind else rest) = some other → other.inCode = true := by
  split
  · exact fun h => Option.some.inj h ▸ hkind
  · exact hrest

theorem inCode_of_sign? {c : Char} {kind : TokenKind} : sign? c = some kind → kind.inCode = true := by
  unfold sign?
  repeat refine inCode_of_ite rfl ?_
  exact nofun

theorem inCode_of_signWithEquals? {c : Char} {kind : TokenKind} :
    signWithEquals? c = some kind → kind.inCode = true := by
  unfold signWithEquals?
  repeat refine inCode_of_ite rfl ?_
  exact nofun

theorem inCode_of_signAt? {c : Char} {cs : List Char} {kind : TokenKind} {b : Bool}
    (h : signAt? c cs = some (kind, b)) : kind.inCode = true := by
  unfold signAt? at h
  split at h
  · next hk =>
    cases h
    split at hk
    · exact inCode_of_signWithEquals? hk
    · cases hk
  · obtain ⟨kind, hk, hkind⟩ := Option.map_eq_some_iff.mp h
    cases hkind
    exact inCode_of_sign? hk

/-- A piece of code is a token that stands in code only, if it is a token. -/
theorem inCode_of_scanCode {inBlock : Bool} {c : Char} {cs : List Char} {kind : TokenKind}
    {value : String} (h : (scanCode inBlock c cs).1 = .token kind value) : kind.inCode = true := by
  unfold scanCode at h
  split at h
  · cases h
  split at h
  · cases h
  split at h
  · cases h
    rfl
  split at h
  · unfold scanNumber at h
    dsimp only at h
    split at h
    · split at h <;> cases h <;> rfl
    · cases h
      rfl
  split at h
  · unfold scanString at h
    split at h <;> cases h
    rfl
  split at h
  · cases h
    rfl
  split at h
  · cases h
    rfl
  split at h
  · next hsign =>
    cases h
    exact inCode_of_signAt? hsign
  · next hsign =>
    cases h
    exact inCode_of_signAt? hsign
  · cases h

/-! ### Characters behind a piece -/

/-- What is taken while `p` holds does not change behind the first character for which it
fails. -/
theorem takeWhile_append_of_lt {p : Char → Bool} {cs : List Char}
    (h : (cs.takeWhile p).length < cs.length) (ds : List Char) :
    (cs ++ ds).takeWhile p = cs.takeWhile p := by
  rw [List.takeWhile_append, if_neg (Nat.ne_of_lt h)]

/-- A pair that was found is the first one, whatever stands behind it. -/
theorem beforePair_append_of_lt {b : Char} {cs : List Char} (h : (beforePair b cs).length < cs.length)
    (ds : List Char) : beforePair b (cs ++ ds) = beforePair b cs := by
  induction cs with
  | nil => exact absurd h (Nat.not_lt_zero _)
  | cons c cs ih =>
    rw [beforePair] at h ⊢
    have hhead (hcs : cs ≠ []) : (cs ++ ds).head? = cs.head? := by
      rw [List.head?_append, List.head?_eq_some_head hcs, Option.some_or]
    split at h
    · next hpair =>
      have hcs : cs ≠ [] := by
        rintro rfl
        simp at hpair
      rw [List.cons_append, beforePair, hhead hcs, if_pos hpair, if_pos hpair]
    · next hpair =>
      have hlt := Nat.lt_of_succ_lt_succ h
      have hcs : cs ≠ [] := List.ne_nil_of_length_pos (Nat.lt_of_le_of_lt (Nat.zero_le _) hlt)
      rw [List.cons_append, beforePair, hhead hcs, if_neg hpair, if_neg hpair, ih hlt]

/-- Where there is no pair, the first one is looked for behind. -/
theorem beforePair_append_of_eq {b : Char} {cs ds : List Char} (h : beforePair b cs = cs)
    (hseam : ¬ (cs.getLast? = some b ∧ ds.head? = some b)) :
    beforePair b (cs ++ ds) = cs ++ beforePair b ds := by
  induction cs with
  | nil => rfl
  | cons c cs ih =>
    rw [beforePair] at h
    split at h
    · cases h
    · next hpair =>
      have hnot : ¬ (c == b && (cs ++ ds).head? == some b) = true := by
        intro hp
        simp only [Bool.and_eq_true, beq_iff_eq] at hp hpair
        cases cs with
        | nil => exact hseam ⟨congrArg some hp.1, hp.2⟩
        | cons d ds => exact hpair hp
      have hrest : beforePair b (cs ++ ds) = cs ++ beforePair b ds := by
        refine ih (List.tail_eq_of_cons_eq h) fun hs => hseam ⟨?_, hs.2⟩
        rw [List.getLast?_cons, hs.1]
        rfl
      rw [List.cons_append, beforePair, if_neg hnot, hrest, List.cons_append]

/-- A text in front of something else ends where it did. -/
theorem beforePair_in_front {b : Char} {text cs : List Char} (h : beforePair b (text ++ cs) = text)
    (hcs : cs ≠ []) (ds : List Char) : beforePair b (text ++ (cs ++ ds)) = text := by
  have hlt : (beforePair b (text ++ cs)).length < (text ++ cs).length := by
    rw [h, List.length_append]
    exact Nat.lt_add_of_pos_right (List.length_pos_iff.mpr hcs)
  rw [← List.append_assoc, beforePair_append_of_lt hlt, h]

theorem beforePair_of_not_mem {b : Char} {cs : List Char} (h : b ∉ cs) : beforePair b cs = cs := by
  induction cs with
  | nil => rfl
  | cons c cs ih =>
    obtain ⟨hc, hcs⟩ := not_or.mp (mt List.mem_cons.mpr h)
    rw [beforePair, if_neg (by simp [Ne.symm hc]), ih hcs]

theorem beforePair_isPrefix (b : Char) (cs : List Char) : beforePair b cs <+: cs := by
  induction cs with
  | nil => exact List.nil_prefix
  | cons c cs ih =>
    rw [beforePair]
    split
    · exact List.nil_prefix
    · exact List.cons_prefix_cons.mpr ⟨rfl, ih⟩

/-- A literal that was closed is the same, whatever stands behind it. -/
theorem stringBody?_append {quote : Char} (hquote : quote ≠ '\\') {cs body : List Char}
    (h : stringBody? quote cs = some body) (ds : List Char) :
    stringBody? quote (cs ++ ds) = some body := by
  fun_induction stringBody? quote cs generalizing body with
  | case1 | case2 | case5 => cases h
  | case3 c cs hc ih =>
    obtain ⟨body, hbody, rfl⟩ := Option.map_eq_some_iff.mp h
    rw [List.cons_append, List.cons_append, stringBody?, if_neg hc, ih hbody]
    rfl
  | case4 c cs _ hc =>
    cases h
    have hne : c ≠ '\\' := fun e => hquote (by rw [← beq_iff_eq.mp hc, e])
    rw [List.cons_append, stringBody?, if_pos hc]
    exact fun d ds e => absurd e hne
  | case6 c cs _ hc hstop ih =>
    obtain ⟨body, hbody, rfl⟩ := Option.map_eq_some_iff.mp h
    have hne : c ≠ '\\' := fun e => hstop (by simp [e])
    rw [List.cons_append, stringBody?, if_neg hc, if_neg hstop, ih hbody]
    · rfl
    · exact fun d ds e => absurd e hne

/-- The digits of a whole number belong to what is scanned. -/
theorem length_whole_le (c : Char) (cs : List Char) :
    (cs.takeWhile Text.isDecimal).length ≤ (scanNumber c cs).2 := by
  unfold scanNumber
  dsimp only
  split
  · split
    · exact Nat.le_trans (Nat.le_add_right _ 1) (Nat.le_add_right _ _)
    · exact Nat.le_refl _
  · exact Nat.le_refl _

/-- A point may be part of a number, which shows one character behind it. -/
theorem scanNumber_append {c : Char} {cs : List Char} (h : (scanNumber c cs).2 + 2 ≤ cs.length)
    (ds : List Char) : scanNumber c (cs ++ ds) = scanNumber c cs := by
  have hwhole : (cs.takeWhile Text.isDecimal).length + 2 ≤ cs.length :=
    Nat.le_trans (Nat.add_le_add_right (length_whole_le c cs) 2) h
  have htake : (cs ++ ds).takeWhile Text.isDecimal = cs.takeWhile Text.isDecimal :=
    takeWhile_append_of_lt (by omega) ds
  have hdrop : (cs ++ ds).drop (cs.takeWhile Text.isDecimal).length =
      cs.drop (cs.takeWhile Text.isDecimal).length ++ ds :=
    List.drop_append_of_le_length (by omega)
  have hlength : (cs.drop (cs.takeWhile Text.isDecimal).length).length =
    cs.length - (cs.takeWhile Text.isDecimal).length := List.length_drop ..
  unfold scanNumber at h ⊢
  dsimp only at h ⊢
  rw [htake, hdrop]
  generalize cs.drop (cs.takeWhile Text.isDecimal).length = rest at h hlength ⊢
  match rest with
  | [] | [_] =>
    simp only [List.length_nil, List.length_singleton] at hlength
    omega
  | x :: d :: es =>
    by_cases hx : x = '.'
    · subst hx
      simp only [List.cons_append] at h ⊢
      split
      · next hd =>
        rw [if_pos hd] at h
        simp only [List.length_cons] at h hlength
        rw [takeWhile_append_of_lt (by omega)]
      · rfl
    · rw [List.cons_append]
      split
      · next heq => exact absurd (List.cons.inj heq).1 hx
      · split
        · next heq => exact absurd (List.cons.inj heq).1 hx
        · rfl

theorem scanString_append {c : Char} (hc : c ≠ '\\') {cs : List Char}
    (h : ∀ problem, (scanString c cs).1 ≠ .flaw problem) (ds : List Char) :
    scanString c (cs ++ ds) = scanString c cs := by
  unfold scanString at h ⊢
  cases hbody : stringBody? c cs with
  | some body => rw [stringBody?_append hc hbody]
  | none => exact absurd (by rw [hbody]) (h .unterminatedString)

theorem scanComment_append {cs : List Char} (h : (scanComment true cs).2 + 2 ≤ cs.length)
    (ds : List Char) : scanComment true (cs ++ ds) = scanComment true cs := by
  unfold scanComment at h ⊢
  simp only [if_true] at h ⊢
  by_cases hline : (cs.takeWhile (· != '\n')).length < cs.length
  · rw [takeWhile_append_of_lt hline]
  · have hall : cs.takeWhile (· != '\n') = cs :=
      (List.takeWhile_prefix _).eq_of_length_le (Nat.le_of_not_lt hline)
    rw [hall] at h
    rw [List.takeWhile_append, if_pos (by rw [hall]), hall, beforePair_append_of_lt (by omega)]

/-- With two characters more, a piece of code is known. -/
theorem scanCode_append {c : Char} {cs : List Char} (h : (scanCode true c cs).2 + 2 ≤ cs.length)
    (hflaw : ∀ problem, (scanCode true c cs).1 ≠ .flaw problem) (ds : List Char) :
    scanCode true c (cs ++ ds) = scanCode true c cs := by
  have hhead : (cs ++ ds).head? = cs.head? := by
    cases cs with
    | nil => simp at h
    | cons d cs => rfl
  have hsign : signAt? c (cs ++ ds) = signAt? c cs := by rw [signAt?, hhead, signAt?]
  revert h hflaw
  unfold scanCode
  split
  · exact fun h _ => scanComment_append h ds
  split
  · exact fun h _ => by rw [takeWhile_append_of_lt (by omega)]
  split
  · exact fun _ _ => rfl
  split
  · exact fun h _ => scanNumber_append h ds
  split
  · next hquote =>
    refine fun _ hflaw => scanString_append ?_ hflaw ds
    rintro rfl
    exact absurd hquote (by decide)
  split
  · exact fun h _ => by rw [takeWhile_append_of_lt (by dsimp only at h; omega)]
  split
  · exact fun h _ => by rw [takeWhile_append_of_lt (by dsimp only at h; omega)]
  exact fun _ _ => by rw [hsign]

/-! ## Sources -/

/-- The atom that a piece is, if it is a token. -/
def PieceKind.atoms : PieceKind → List Atom
  | .token kind value => [⟨kind, value⟩]
  | _ => []

/-- Characters that are cut into atoms without a complaint, wherever they stand: in
`code`, up to the braces that close it, or outside of it. -/
inductive Cut : Bool → List Char → List Atom → Prop
  | nil : Cut false [] []
  | text {text cs : List Char} {atoms : List Atom} : text ≠ [] →
      beforePair '\x7b' (text ++ cs) = text → Cut false cs atoms →
      Cut false (text ++ cs) (⟨.text, String.ofList text⟩ :: atoms)
  | enter {cs : List Char} {atoms : List Atom} : Cut true cs atoms →
      Cut false ('\x7b' :: '\x7b' :: cs) (.enter :: atoms)
  | piece {c : Char} {lexeme cs : List Char} {kind : PieceKind} {atoms : List Atom} :
      ¬ (c == '\x7d' && (lexeme ++ cs).head? == some '\x7d') = true →
      scanCode true c (lexeme ++ cs) = (kind, lexeme.length) →
      (∀ problem, kind ≠ .flaw problem) → Cut true cs atoms →
      Cut true (c :: (lexeme ++ cs)) (kind.atoms ++ atoms)
  | exit {cs : List Char} {atoms : List Atom} : Cut false cs atoms →
      Cut true ('\x7d' :: '\x7d' :: cs) (.exit :: atoms)

/-- Braces close what stands in code. -/
theorem Cut.two_le_length {code : Bool} {cs : List Char} {atoms : List Atom} (h : Cut code cs atoms)
    (hcode : code = true) : 2 ≤ cs.length := by
  induction h with
  | nil | text | enter => cases hcode
  | piece _ _ _ _ ih =>
    have := ih rfl
    simp only [List.length_cons, List.length_append]
    omega
  | exit => exact Nat.le_add_left 2 _

/-- A piece of code that is cut is known, whatever stands behind. -/
theorem Cut.piece_append {c : Char} {lexeme cs : List Char} {kind : PieceKind} {atoms : List Atom}
    (h : Cut true cs atoms) (hscan : scanCode true c (lexeme ++ cs) = (kind, lexeme.length))
    (hflaw : ∀ problem, kind ≠ .flaw problem) (ds : List Char) :
    (lexeme ++ (cs ++ ds)).head? = (lexeme ++ cs).head? ∧
      scanCode true c (lexeme ++ (cs ++ ds)) = (kind, lexeme.length) := by
  have htwo := h.two_le_length rfl
  constructor
  · cases cs with
    | nil => simp at htwo
    | cons d cs => cases lexeme <;> rfl
  · rw [← List.append_assoc, scanCode_append, hscan]
    · rw [hscan, List.length_append]
      omega
    · rw [hscan]
      exact hflaw

theorem Cut.eq_nil {code : Bool} {cs : List Char} {atoms : List Atom} (h : Cut code cs atoms)
    (hcs : cs = []) : atoms = [] := by
  cases h with
  | nil => rfl
  | text htext => exact absurd (List.append_eq_nil_iff.mp hcs).1 htext
  | enter | piece | exit => cases hcs

/-! ### The lexer -/

/-- The section of code that was opened at a place, or of text. -/
def sectionOf (code : Bool) (opened : Position) : Section := if code then .code opened else .text

/-- A piece in front of what was cut. -/
theorem cuts_piece {l : Lexed} {kind : PieceKind} {lexeme : List Char} {p : Position}
    {atoms : List Atom} : Lexed.Cuts ⟨.piece ⟨kind, lexeme, p⟩ :: l.items, l.stop⟩ atoms ↔
      (∀ problem, kind ≠ .flaw problem) ∧ ∃ rest, atoms = kind.atoms ++ rest ∧ l.Cuts rest := by
  constructor
  · intro h
    have hrest := fun item hitem => h.problems item (List.mem_cons_of_mem _ hitem)
    have hpiece := h.problems _ List.mem_cons_self
    refine ⟨?_, _, ?_, ⟨rfl, hrest⟩⟩
    · rintro problem rfl
      cases hpiece
    · rw [← h.tokens]
      cases kind <;> rfl
  · rintro ⟨hflaw, rest, rfl, h⟩
    refine ⟨?_, fun item hitem => ?_⟩
    · rw [← h.tokens]
      cases kind <;> rfl
    · cases hitem with
      | tail _ hitem => exact h.problems item hitem
      | head =>
        cases kind with
        | flaw problem => exact absurd rfl (hflaw problem)
        | _ => rfl

/-- Without a complaint, a source was cut into the atoms of its tokens. -/
theorem cuts_of_clean {l : Lexed} {file : Option String} (h : l.diagnostics file = []) :
    ∃ ts p, l.tokens = ts ++ [.eof p] ∧ l.Cuts (ts.map Token.atom) := by
  refine ⟨_, _, rfl, rfl, fun item hitem => ?_⟩
  have hnone := List.filterMap_eq_nil_iff.mp h item hitem
  exact Option.map_eq_none_iff.mp hnone

variable {options : LexerOptions}

theorem lexFrom_text {text cs : List Char} (htext : text ≠ [])
    (hbefore : beforePair '\x7b' (text ++ cs) = text) (p : Position) :
    lexFrom options .text p (text ++ cs) =
      let rest := lexFrom options .text (p.after text) cs
      ⟨.piece ⟨spelled .text text, text, p⟩ :: rest.items, rest.stop⟩ := by
  obtain ⟨c, text, rfl⟩ := List.exists_cons_of_ne_nil htext
  have hpiece : nextPiece options .text p c (text ++ cs) =
      (spelled .text (c :: text), text.length, .text) := by
    rw [List.cons_append] at hbefore
    simp only [nextPiece, hbefore, List.isEmpty_cons, Bool.false_eq_true, if_false, List.length_cons,
      Nat.add_sub_cancel]
  have hopen : Section.text ≠ .finished := Section.noConfusion
  rw [List.cons_append, lexFrom_cons hopen hpiece, List.take_left, List.drop_left]

theorem lexFrom_enter (p : Position) (cs : List Char) :
    lexFrom options .text p ('\x7b' :: '\x7b' :: cs) =
      let rest := lexFrom options (.code p) (p.after ['\x7b', '\x7b']) cs
      ⟨.piece ⟨spelled .codeEnter ['\x7b', '\x7b'], ['\x7b', '\x7b'], p⟩ :: rest.items,
        rest.stop⟩ := by
  have hpiece : nextPiece options .text p '\x7b' ('\x7b' :: cs) =
      (spelled .codeEnter ['\x7b', '\x7b'], 1, .code p) := rfl
  have hopen : Section.text ≠ .finished := nofun
  rw [lexFrom_cons hopen hpiece]
  rfl

theorem lexFrom_exit (opened p : Position) (cs : List Char) :
    lexFrom options (.code opened) p ('\x7d' :: '\x7d' :: cs) =
      let rest := lexFrom options .text (p.after ['\x7d', '\x7d']) cs
      ⟨.piece ⟨spelled .codeExit ['\x7d', '\x7d'], ['\x7d', '\x7d'], p⟩ :: rest.items,
        rest.stop⟩ := by
  have hpiece : nextPiece options (.code opened) p '\x7d' ('\x7d' :: cs) =
      (spelled .codeExit ['\x7d', '\x7d'], 1, .text) := rfl
  have hopen : Section.code opened ≠ .finished := nofun
  rw [lexFrom_cons hopen hpiece]
  rfl

theorem lexFrom_piece {c : Char} {cs : List Char} {kind : PieceKind} {more : Nat}
    (hexit : ¬ (c == '\x7d' && cs.head? == some '\x7d') = true)
    (hscan : scanCode true c cs = (kind, more)) (opened p : Position) :
    lexFrom options (.code opened) p (c :: cs) =
      let rest := lexFrom options (.code opened) (p.after (c :: cs.take more)) (cs.drop more)
      ⟨.piece ⟨kind, c :: cs.take more, p⟩ :: rest.items, rest.stop⟩ := by
  have hpiece : nextPiece options (.code opened) p c cs = (kind, more, .code opened) := by
    simp only [nextPiece, if_neg hexit, hscan]
  have hopen : Section.code opened ≠ .finished := Section.noConfusion
  rw [lexFrom_cons hopen hpiece]

theorem beforePair_eq_nil {b c : Char} {cs : List Char} (h : beforePair b (c :: cs) = []) :
    c = b ∧ ∃ rest, cs = b :: rest := by
  rw [beforePair] at h
  split at h
  · next hpair =>
    simp only [Bool.and_eq_true, beq_iff_eq] at hpair
    exact ⟨hpair.1, List.head?_eq_some_iff.mp hpair.2⟩
  · cases h

theorem cut_nil {code : Bool} {atoms : List Atom} {opened p : Position}
    (h : (lexFrom options (sectionOf code opened) p []).Cuts atoms) : Cut code [] atoms := by
  rw [lexFrom_nil] at h
  cases code with
  | false =>
    obtain rfl : [] = atoms := h.tokens
    exact .nil
  | true => exact absurd (h.problems _ List.mem_cons_self) nofun

/-- What the lexer cuts without a complaint is cut. -/
theorem cut_of_lexFrom (n : Nat) {code : Bool} {cs : List Char} {atoms : List Atom}
    (opened : Position) {p : Position} (hn : cs.length ≤ n)
    (h : (lexFrom options (sectionOf code opened) p cs).Cuts atoms) : Cut code cs atoms := by
  induction n generalizing code cs atoms opened p with
  | zero =>
    obtain rfl := List.length_eq_zero_iff.mp (Nat.le_zero.mp hn)
    exact cut_nil h
  | succ n ih =>
    match code, cs with
    | _, [] => exact cut_nil h
    | false, c :: cs =>
      replace h : (lexFrom options .text p (c :: cs)).Cuts atoms := h
      by_cases hempty : beforePair '\x7b' (c :: cs) = []
      · obtain ⟨rfl, cs, rfl⟩ := beforePair_eq_nil hempty
        rw [lexFrom_enter] at h
        obtain ⟨-, rest, rfl, hrest⟩ := cuts_piece.mp h
        have hcut : Cut true cs rest := ih _ (by simp only [List.length_cons] at hn; omega) hrest
        exact .enter hcut
      · obtain ⟨more, hmore⟩ := beforePair_isPrefix '\x7b' (c :: cs)
        have hbefore : beforePair '\x7b' (beforePair '\x7b' (c :: cs) ++ more) =
          beforePair '\x7b' (c :: cs) := by rw [hmore]
        have hlength := congrArg List.length hmore
        have hpos := List.length_pos_iff.mpr hempty
        rw [← hmore] at h ⊢
        generalize beforePair '\x7b' (c :: cs) = text at *
        rw [lexFrom_text hempty hbefore] at h
        obtain ⟨-, rest, rfl, hrest⟩ := cuts_piece.mp h
        rw [List.length_append] at hlength
        have hcut : Cut false more rest := ih opened (by omega) hrest
        exact .text hempty hbefore hcut
    | true, c :: cs =>
      replace h : (lexFrom options (.code opened) p (c :: cs)).Cuts atoms := h
      by_cases hexit : (c == '\x7d' && cs.head? == some '\x7d') = true
      · simp only [Bool.and_eq_true, beq_iff_eq] at hexit
        obtain ⟨rfl, hhead⟩ := hexit
        obtain ⟨cs, rfl⟩ := List.head?_eq_some_iff.mp hhead
        rw [lexFrom_exit] at h
        obtain ⟨-, rest, rfl, hrest⟩ := cuts_piece.mp h
        simp only [List.length_cons] at hn
        have hcut : Cut false cs rest := ih opened (by omega) hrest
        exact .exit hcut
      · rw [lexFrom_piece hexit rfl] at h
        obtain ⟨hflaw, rest, rfl, hrest⟩ := cuts_piece.mp h
        have hcut : Cut true (cs.drop (scanCode true c cs).2) rest :=
          ih _ (by simp only [List.length_cons, List.length_drop] at hn ⊢; omega) hrest
        have htwo := hcut.two_le_length rfl
        rw [List.length_drop] at htwo
        obtain ⟨lexeme, tail, rfl, hlexeme⟩ : ∃ lexeme tail, cs = lexeme ++ tail ∧
            lexeme.length = (scanCode true c cs).2 := by
          refine ⟨_, _, (List.take_append_drop (scanCode true c cs).2 cs).symm, ?_⟩
          rw [List.length_take]
          omega
        rw [← hlexeme, List.drop_left] at hcut
        exact .piece hexit (Prod.ext rfl hlexeme.symm) hflaw hcut

/-- What is cut, the lexer cuts without a complaint, wherever it stands. -/
theorem Cut.lexes {code : Bool} {cs : List Char} {atoms : List Atom} (h : Cut code cs atoms)
    (opened p : Position) : (lexFrom options (sectionOf code opened) p cs).Cuts atoms := by
  induction h generalizing opened p with
  | nil =>
    rw [lexFrom_nil]
    exact ⟨rfl, fun _ h => nomatch h⟩
  | text htext hbefore h ih =>
    show (lexFrom options .text p _).Cuts _
    rw [lexFrom_text htext hbefore]
    exact cuts_piece.mpr ⟨nofun, _, rfl, ih opened _⟩
  | enter h ih =>
    show (lexFrom options .text p _).Cuts _
    rw [lexFrom_enter]
    exact cuts_piece.mpr ⟨nofun, _, rfl, ih p _⟩
  | piece hexit hscan hflaw h ih =>
    show (lexFrom options (.code opened) p _).Cuts _
    rw [lexFrom_piece hexit hscan, List.take_left, List.drop_left]
    exact cuts_piece.mpr ⟨hflaw, _, rfl, ih opened _⟩
  | exit h ih =>
    show (lexFrom options (.code opened) p _).Cuts _
    rw [lexFrom_exit]
    exact cuts_piece.mpr ⟨nofun, _, rfl, ih opened _⟩

/-! ### Two sources -/

/-- Atoms behind each other; a text at the end of the first goes on into one behind it. -/
inductive Joins : List Atom → List Atom → List Atom → Prop
  | behind (as bs : List Atom) : Joins as bs (as ++ bs)
  | merged (before after : List Atom) {a b : List Char} : a ≠ [] → b ≠ [] →
      Joins (before ++ [⟨.text, String.ofList a⟩]) (⟨.text, String.ofList b⟩ :: after)
        (before ++ ⟨.text, String.ofList (a ++ b)⟩ :: after)

theorem Joins.cons {as bs cs : List Atom} (h : Joins as bs cs) (a : Atom) :
    Joins (a :: as) bs (a :: cs) := by
  cases h with
  | behind => exact .behind (a :: as) bs
  | merged before after ha hb => exact .merged (a :: before) after ha hb

theorem Joins.append {as bs cs : List Atom} (h : Joins as bs cs) (front : List Atom) :
    Joins (front ++ as) bs (front ++ cs) := by
  induction front with
  | nil => exact h
  | cons a front ih => exact ih.cons a

/-- A text in front of another source. -/
theorem Cut.text_append {text ds : List Char} {bs : List Atom} (htext : text ≠ [])
    (hbefore : beforePair '\x7b' text = text) (h : Cut false ds bs)
    (hseam : ¬ (text.getLast? = some '\x7b' ∧ ds.head? = some '\x7b')) :
    ∃ atoms, Joins [⟨.text, String.ofList text⟩] bs atoms ∧ Cut false (text ++ ds) atoms := by
  have happend := beforePair_append_of_eq hbefore hseam
  cases h with
  | nil => exact ⟨_, .behind _ _, .text htext (happend.trans (List.append_nil _)) .nil⟩
  | enter h =>
    exact ⟨_, .behind _ _, .text htext (happend.trans (List.append_nil _)) (.enter h)⟩
  | @text more ds atoms hmore hnext h =>
    rw [hnext] at happend
    refine ⟨_, .merged [] atoms htext hmore, ?_⟩
    rw [← List.append_assoc] at happend ⊢
    exact .text (List.append_ne_nil_of_left_ne_nil htext _) happend h

/-- A source behind another one is cut as it is by itself. -/
theorem Cut.append {code : Bool} {cs ds : List Char} {as bs : List Atom} (h : Cut code cs as)
    (hbs : Cut false ds bs) (hseam : ¬ (cs.getLast? = some '\x7b' ∧ ds.head? = some '\x7b')) :
    ∃ atoms, Joins as bs atoms ∧ Cut code (cs ++ ds) atoms := by
  have hlast (front : List Char) {cs : List Char}
      (h : ¬ ((front ++ cs).getLast? = some '\x7b' ∧ ds.head? = some '\x7b')) :
      ¬ (cs.getLast? = some '\x7b' ∧ ds.head? = some '\x7b') := fun hs =>
    h ⟨by rw [List.getLast?_append, hs.1, Option.some_or], hs.2⟩
  induction h with
  | nil => exact ⟨bs, .behind [] bs, hbs⟩
  | @text text cs atoms htext hbefore h ih =>
    cases hcs : cs with
    | nil =>
      subst hcs
      obtain rfl := h.eq_nil rfl
      rw [List.append_nil] at hbefore hseam ⊢
      exact text_append htext hbefore hbs hseam
    | cons d rest =>
      obtain ⟨all, hjoins, hcut⟩ := ih (hlast text hseam)
      have hne : cs ≠ [] := hcs ▸ List.cons_ne_nil d rest
      refine ⟨_, hjoins.cons _, ?_⟩
      rw [← hcs, List.append_assoc]
      exact .text htext (beforePair_in_front hbefore hne ds) hcut
  | @enter cs atoms h ih =>
    obtain ⟨all, hjoins, hcut⟩ := ih (hlast ['\x7b', '\x7b'] hseam)
    exact ⟨_, hjoins.cons _, .enter hcut⟩
  | @piece c lexeme cs kind atoms hexit hscan hflaw h ih =>
    obtain ⟨all, hjoins, hcut⟩ := ih (hlast (c :: lexeme) hseam)
    obtain ⟨hhead, hscan'⟩ := h.piece_append hscan hflaw ds
    refine ⟨_, hjoins.append kind.atoms, ?_⟩
    rw [List.cons_append, List.append_assoc]
    exact .piece (by rwa [hhead]) hscan' hflaw hcut
  | @exit cs atoms h ih =>
    obtain ⟨all, hjoins, hcut⟩ := ih (hlast ['\x7d', '\x7d'] hseam)
    exact ⟨_, hjoins.cons _, .exit hcut⟩

/-! ### What a source ends with -/

/-- A kind of token that stands outside of code, or closes it. -/
def TokenKind.closes : TokenKind → Bool
  | .text | .codeExit => true
  | _ => false

/-- Atoms that leave no code open; in `code`, there is something to close it. -/
structure Closes (code : Bool) (atoms : List Atom) : Prop where
  last : ∀ a ∈ atoms.getLast?, a.kind.closes = true
  ne_nil : code = true → atoms ≠ []

theorem closes_nil : Closes false [] := ⟨nofun, nofun⟩

/-- In front of code that is closed. -/
theorem Closes.inside {code : Bool} {atoms : List Atom} (h : Closes true atoms) (a : Atom) :
    Closes code (a :: atoms) := by
  refine ⟨fun b hb => h.last b ?_, fun _ => List.cons_ne_nil _ _⟩
  obtain ⟨c, rest, rfl⟩ := List.exists_cons_of_ne_nil (h.ne_nil rfl)
  rwa [List.getLast?_cons_cons] at hb

/-- In front of what stands outside of code. -/
theorem Closes.outside {code : Bool} {atoms : List Atom} (h : Closes false atoms) {a : Atom}
    (ha : a.kind.closes = true) : Closes code (a :: atoms) := by
  refine ⟨fun b hb => ?_, fun _ => List.cons_ne_nil _ _⟩
  cases atoms with
  | nil =>
    cases hb
    exact ha
  | cons c rest => exact h.last b (by rwa [List.getLast?_cons_cons] at hb)

/-- Up to its end, and up to every text in it, a source leaves no code open. -/
theorem Cut.closes {code : Bool} {cs : List Char} {atoms before after : List Atom}
    (h : Cut code cs atoms) (hatoms : atoms = before ++ after)
    (hafter : ∀ a ∈ after.head?, a.kind = .text) : Closes code before := by
  induction h generalizing before with
  | nil =>
    obtain ⟨rfl, -⟩ := List.append_eq_nil_iff.mp hatoms.symm
    exact closes_nil
  | text _ _ _ ih =>
    cases before with
    | nil => exact closes_nil
    | cons a before =>
      obtain ⟨rfl, hrest⟩ := List.cons.inj hatoms
      exact (ih hrest).outside rfl
  | enter _ ih =>
    cases before with
    | nil =>
      subst hatoms
      exact absurd (hafter _ rfl) nofun
    | cons a before => exact (ih (List.cons.inj hatoms).2).inside a
  | @piece _ _ _ kind atoms _ hscan _ _ ih =>
    cases kind with
    | token kind value =>
      cases before with
      | nil =>
        subst hatoms
        have hcode := inCode_of_scanCode (congrArg Prod.fst hscan)
        rw [show kind = .text from hafter _ rfl] at hcode
        cases hcode
      | cons a before => exact (ih (List.cons.inj hatoms).2).inside a
    | _ => exact ih hatoms
  | exit _ ih =>
    cases before with
    | nil =>
      subst hatoms
      exact absurd (hafter _ rfl) nofun
    | cons a before =>
      obtain ⟨rfl, hrest⟩ := List.cons.inj hatoms
      exact (ih hrest).outside rfl

/-- A source has no end in it, and no front matter. -/
theorem Cut.isBefore {code : Bool} {cs : List Char} {atoms : List Atom} (h : Cut code cs atoms) :
    ∀ a ∈ atoms, a.kind ≠ .eof ∧ a.kind ≠ .frontMatterMarker := by
  induction h with
  | nil => exact nofun
  | text _ _ _ ih | enter _ ih | exit _ ih => exact List.forall_mem_cons.mpr ⟨⟨nofun, nofun⟩, ih⟩
  | @piece _ _ _ kind _ _ hscan _ _ ih =>
    cases kind with
    | token kind value =>
      have hcode := inCode_of_scanCode (congrArg Prod.fst hscan)
      refine List.forall_mem_cons.mpr ⟨⟨?_, ?_⟩, ih⟩ <;> rintro rfl <;> cases hcode
    | _ => exact ih

end Stencil

import Stencil.Proofs.Concatenation
import Stencil.Proofs.FrontMatter

/-!
# A script in a block of code

A script that is one expression may be put into a template, between braces. It is cut into the same
tokens there (`lexFrom_block`), but for a blank or a comment at its end, to which the blank in front
of the closing braces belongs; and it is read as the same expression, up to its places
(`Template.parse_block`). Only a comment can tell the two apart: in a script it goes on over braces,
which end it in a block.
-/

namespace Stencil

/-! ## Characters -/

/-- What stands behind a script in a block of code. -/
def blockEnd : List Char := [' ', '\x7d', '\x7d']

/-- Braces that close a block come behind a comment, not in it. -/
theorem beforePair_blockEnd {cs : List Char} (h : ¬ ['\x7d', '\x7d'] <:+: cs) :
    beforePair '\x7d' (cs ++ blockEnd) = cs ++ [' '] := by
  have hcs : beforePair '\x7d' cs = cs := by
    have happend := beforePair_append h (.inl rfl)
    rwa [List.append_nil] at happend
  rw [beforePair_append_of_eq hcs (by simp [blockEnd])]
  rfl

/-- A brace is no code. -/
theorem scanCode_brace (inBlock : Bool) (cs : List Char) :
    scanCode inBlock '\x7d' cs = (.flaw (.unexpectedCharacter '\x7d'), 0) := by
  have hsign : signAt? '\x7d' cs = none := by
    unfold signAt?
    rw [show signWithEquals? '\x7d' = none from rfl, ite_self]
    rfl
  unfold scanCode
  rw [hsign]
  rfl

/-- A run of characters ends in the script, or goes on over what the block has behind it. -/
theorem takeWhile_blockEnd (p : Char → Bool) (cs : List Char) :
    (cs ++ blockEnd).takeWhile p = cs.takeWhile p ∨
      cs.takeWhile p = cs ∧ (cs ++ blockEnd).takeWhile p = cs ++ blockEnd.takeWhile p := by
  by_cases hlen : (cs.takeWhile p).length < cs.length
  · exact .inl (takeWhile_append_of_lt hlen _)
  · have hall : cs.takeWhile p = cs :=
      (List.takeWhile_prefix _).eq_of_length_le (Nat.le_of_not_lt hlen)
    exact .inr ⟨hall, by rw [List.takeWhile_append, if_pos (by rw [hall])]⟩

/-- A comment without braces is the same in a block, or it goes on to the end of the script and then
takes the blank behind it. -/
theorem scanComment_blockEnd {cs : List Char}
    (hpair : ¬ ['\x7d', '\x7d'] <:+: cs.takeWhile (· != '\n')) :
    scanComment true (cs ++ blockEnd) = scanComment false cs ∨
      scanComment false cs = (.comment, cs.length) ∧
        scanComment true (cs ++ blockEnd) = (.comment, cs.length + 1) := by
  simp only [scanComment, if_true, Bool.false_eq_true, if_false]
  obtain hline | ⟨hall, hline⟩ := takeWhile_blockEnd (· != '\n') cs
  · have happend := beforePair_append hpair (.inl rfl)
    rw [List.append_nil] at happend
    exact .inl (by rw [hline, happend])
  · rw [hall] at hpair
    have hblock : (cs ++ blockEnd).takeWhile (· != '\n') = cs ++ blockEnd := hline
    refine .inr ⟨by rw [hall], ?_⟩
    rw [hblock, beforePair_blockEnd hpair, List.length_append]
    rfl

/-- A piece of a script is the same in a block, or a blank or comment at its end that takes the
blank behind it. -/
theorem scanCode_blockEnd {c : Char} {cs : List Char} {kind : PieceKind} {more : Nat}
    (h : scanCode false c cs = (kind, more)) (hflaw : ∀ problem, kind ≠ .flaw problem)
    (hcomment : kind = .comment → ¬ ['\x7d', '\x7d'] <:+: cs.take more) :
    scanCode true c (cs ++ blockEnd) = (kind, more) ∨
      kind.atoms = [] ∧ more = cs.length ∧ scanCode true c (cs ++ blockEnd) = (kind, more + 1) := by
  have hsign : signAt? c (cs ++ blockEnd) = signAt? c cs := by
    cases cs <;> rfl
  have htake {p : Char → Bool} (hp : p ' ' = false) : (cs ++ blockEnd).takeWhile p = cs.takeWhile p :=
    takeWhile_stop hp cs _
  revert h
  -- only comments and blanks take what is behind the script; nothing else goes on over a blank
  unfold scanCode
  split
  · intro h
    have hscan : scanComment false cs = (.comment, (cs.takeWhile (· != '\n')).length) := rfl
    cases hscan.symm.trans h
    rw [take_takeWhile_length] at hcomment
    obtain hsame | ⟨hend, hmore⟩ := scanComment_blockEnd (hcomment rfl)
    · exact .inl hsame
    · have hlen : (cs.takeWhile (· != '\n')).length = cs.length := (Prod.mk.inj hend).2
      exact .inr ⟨rfl, hlen, by rw [hmore, hlen]⟩
  split
  · intro h
    cases h
    obtain hblank | ⟨hall, hblank⟩ := takeWhile_blockEnd isCodeBlank cs
    · exact .inl (by rw [hblank])
    · refine .inr ⟨rfl, by rw [hall], ?_⟩
      rw [hblank, hall, List.length_append]
      rfl
  split
  · exact .inl
  split
  · exact fun h => .inl ((scanNumber_stop (by decide) (by decide) c cs _).trans h)
  split
  · next hquote =>
    intro h
    have hslash : c ≠ '\\' := by
      rintro rfl
      exact absurd hquote (by decide)
    refine .inl ((scanString_append hslash (fun problem hp => hflaw problem ?_) _).trans h)
    rw [← hp, h]
  split
  · exact fun h => .inl (by rw [htake (by decide)]; exact h)
  split
  · exact fun h => .inl (by rw [htake (by decide)]; exact h)
  · exact fun h => .inl (by rw [hsign]; exact h)

/-! ## Tokens -/

/-- A place of a script, seen from the template that has the script in a block: two braces and a
blank stand in front of its first line. -/
def Position.indented (p : Position) : Position := if p.line = 1 then ⟨p.line, p.column + 3⟩ else p

theorem Position.next_indented {p : Position} (hp : 1 ≤ p.line) (c : Char) :
    p.indented.next c = (p.next c).indented ∧ 1 ≤ (p.next c).line := by
  unfold Position.indented Position.next
  by_cases hc : c = '\n'
  · by_cases hline : p.line = 1
    · simp [hc, hline]
    · have hbelow : p.line + 1 ≠ 1 := by omega
      simp only [hc, hline, hbelow, if_true, if_false, true_and]
      omega
  · by_cases hline : p.line = 1
    · simp only [hc, hline, if_true, if_false, Position.mk.injEq, true_and, Int.le_refl, and_true]
      omega
    · simp [hc, hline, hp]

theorem Position.after_indented {p : Position} (hp : 1 ≤ p.line) (cs : List Char) :
    p.indented.after cs = (p.after cs).indented ∧ 1 ≤ (p.after cs).line := by
  induction cs generalizing p with
  | nil => exact ⟨rfl, hp⟩
  | cons c cs ih =>
    obtain ⟨hnext, hline⟩ := p.next_indented hp c
    rw [Position.after_cons, Position.after_cons, hnext]
    exact ih hline

theorem Position.before_indented (p q : Position) : p.indented.before q.indented = p.before q := by
  unfold Position.indented Position.before
  by_cases hp : p.line = 1 <;> by_cases hq : q.line = 1
  · simp [hp, hq]
  · simp [hp, hq, beq_eq_false_iff_ne.mpr (Ne.symm hq)]
  · simp [hp, hq, beq_eq_false_iff_ne.mpr hp]
  · simp [hp, hq]

theorem token?_indented {p : Position} (hp : 1 ≤ p.line) (kind : PieceKind) (lexeme : List Char) :
    (LexItem.piece ⟨kind, lexeme, p.indented⟩).token? =
      (LexItem.piece ⟨kind, lexeme, p⟩).token?.map (Token.map Position.indented) := by
  cases kind with
  | token kind value => simp [LexItem.token?, Token.map, Piece.stop, (p.after_indented hp lexeme).1]
  | blank | comment | flaw => rfl

theorem token?_of_atoms {kind : PieceKind} (h : kind.atoms = []) (lexeme : List Char) (p : Position) :
    (LexItem.piece ⟨kind, lexeme, p⟩).token? = none := by
  cases kind with
  | token => cases h
  | blank | comment | flaw => rfl

/-- What is cut off a block without a complaint: the tokens of a script, further right, and then the
braces that close the block. -/
structure Lexed.ClosesBlock (l : Lexed) (ts : List Token) : Prop where
  tokens : ∃ exit stop, l.tokens = ts.map (Token.map Position.indented) ++ [exit, .eof stop] ∧
    exit.kind = .codeExit
  clean : ∀ item ∈ l.items, item.problem? = none

/-- A piece in front of the rest of a block. -/
theorem Lexed.ClosesBlock.cons {l : Lexed} {ts : List Token} (h : l.ClosesBlock ts) {kind : PieceKind}
    (hflaw : ∀ problem, kind ≠ .flaw problem) {lexeme : List Char} {p : Position} (us : List Token)
    (htoken : (LexItem.piece ⟨kind, lexeme, p⟩).token?.toList = us.map (Token.map Position.indented)) :
    Lexed.ClosesBlock ⟨.piece ⟨kind, lexeme, p⟩ :: l.items, l.stop⟩ (us ++ ts) := by
  obtain ⟨⟨exit, stop, htokens, hexit⟩, hclean⟩ := h
  refine ⟨⟨exit, stop, ?_, hexit⟩, fun item hitem => ?_⟩
  · have hfront : Lexed.tokens ⟨.piece ⟨kind, lexeme, p⟩ :: l.items, l.stop⟩ =
        (LexItem.piece ⟨kind, lexeme, p⟩).token?.toList ++ l.tokens := by
      simp only [Lexed.tokens, List.filterMap_cons]
      cases (LexItem.piece ⟨kind, lexeme, p⟩).token? <;> rfl
    rw [hfront, htoken, htokens, List.map_append, List.append_assoc]
  · cases hitem with
    | tail _ hitem => exact hclean item hitem
    | head =>
      cases kind with
      | flaw problem => exact absurd rfl (hflaw problem)
      | token | blank | comment => rfl

theorem Lexed.ClosesBlock.skip {l : Lexed} {ts : List Token} (h : l.ClosesBlock ts) {kind : PieceKind}
    (hatoms : kind.atoms = []) (hflaw : ∀ problem, kind ≠ .flaw problem) (lexeme : List Char)
    (p : Position) : Lexed.ClosesBlock ⟨.piece ⟨kind, lexeme, p⟩ :: l.items, l.stop⟩ ts :=
  h.cons hflaw [] (by rw [token?_of_atoms hatoms]; rfl)

/-- A piece of the script, further right. -/
theorem Lexed.ClosesBlock.piece {l : Lexed} {ts : List Token} (h : l.ClosesBlock ts) {kind : PieceKind}
    (hflaw : ∀ problem, kind ≠ .flaw problem) {p : Position} (hp : 1 ≤ p.line) (lexeme : List Char) :
    Lexed.ClosesBlock ⟨.piece ⟨kind, lexeme, p.indented⟩ :: l.items, l.stop⟩
      ((LexItem.piece ⟨kind, lexeme, p⟩).token?.toList ++ ts) := by
  refine h.cons hflaw _ ?_
  rw [token?_indented hp]
  cases (LexItem.piece ⟨kind, lexeme, p⟩).token? <;> rfl

/-- Nothing of the script is left in front of the braces. -/
theorem closesBlock_nil (options : LexerOptions) (opened p : Position) :
    (lexFrom options (.code opened) p ['\x7d', '\x7d']).ClosesBlock [] := by
  rw [lexFrom_exit, lexFrom_nil]
  exact ⟨⟨_, _, rfl, rfl⟩, List.forall_mem_singleton.mpr rfl⟩

theorem closesBlock_blockEnd (options : LexerOptions) (opened p : Position) :
    (lexFrom options (.code opened) p blockEnd).ClosesBlock [] := by
  have hscan : scanCode true ' ' ['\x7d', '\x7d'] = (.blank, 0) := rfl
  rw [blockEnd, lexFrom_piece (by decide) hscan]
  exact (closesBlock_nil _ _ _).skip rfl (fun _ => PieceKind.noConfusion) _ _

/-- A script without a complaint is cut into the same tokens in a block, unless a comment in it
holds braces. -/
theorem lexFrom_block (options options' : LexerOptions) (n : Nat) {cs : List Char} (hn : cs.length ≤ n)
    {p : Position} (hp : 1 ≤ p.line) (opened : Position)
    (hclean : ∀ item ∈ (lexFrom options .script p cs).items, item.problem? = none)
    (hcomments : ∀ piece, .piece piece ∈ (lexFrom options .script p cs).items →
      piece.kind = .comment → ¬ ['\x7d', '\x7d'] <:+: piece.lexeme) :
    (lexFrom options' (.code opened) p.indented (cs ++ blockEnd)).ClosesBlock
      ((lexFrom options .script p cs).items.filterMap LexItem.token?) := by
  induction n generalizing cs p with
  | zero =>
    obtain rfl := List.length_eq_zero_iff.mp (Nat.le_zero.mp hn)
    rw [lexFrom_nil]
    exact closesBlock_blockEnd _ _ _
  | succ n ih =>
    cases cs with
    | nil =>
      rw [lexFrom_nil]
      exact closesBlock_blockEnd _ _ _
    | cons c cs =>
      rcases hscan : scanCode false c cs with ⟨kind, more⟩
      have hmore : more ≤ cs.length := by
        have hle := scanCode_le false c cs
        rwa [hscan] at hle
      have hpiece : nextPiece options .script p c cs = (kind, more, .script) := by rw [nextPiece, hscan]
      rw [lexFrom_cons Section.noConfusion hpiece] at hclean hcomments ⊢
      obtain ⟨hpiece, hclean⟩ := List.forall_mem_cons.mp hclean
      have hflaw (problem : LexicalProblem) : kind ≠ .flaw problem := by
        rintro rfl
        cases hpiece
      have hcomment (hkind : kind = .comment) : ¬ ['\x7d', '\x7d'] <:+: cs.take more := fun hpair =>
        hcomments _ List.mem_cons_self hkind (hpair.trans (List.suffix_cons _ _).isInfix)
      have hexit : ¬ (c == '\x7d' && (cs ++ blockEnd).head? == some '\x7d') = true := by
        intro hpair
        obtain rfl := beq_iff_eq.mp (Bool.and_eq_true_iff.mp hpair).1
        rw [scanCode_brace] at hscan
        cases hscan
        exact hflaw _ rfl
      rw [List.cons_append]
      obtain hblock | ⟨hatoms, rfl, hblock⟩ := scanCode_blockEnd hscan hflaw hcomment
      · rw [lexFrom_piece hexit hblock, List.take_append_of_le_length hmore,
          List.drop_append_of_le_length hmore]
        have hlength : (cs.drop more).length ≤ n := by
          rw [List.length_drop]
          exact Nat.le_trans (Nat.sub_le _ _) (Nat.le_of_succ_le_succ hn)
        obtain ⟨hafter, hline⟩ := Position.after_indented hp (c :: cs.take more)
        rw [hafter]
        have hrest := ih hlength hline hclean fun piece hitem =>
          hcomments piece (List.mem_cons_of_mem _ hitem)
        have hcons := hrest.piece hflaw hp (c :: cs.take more)
        rw [List.filterMap_cons]
        cases htoken : (LexItem.piece ⟨kind, c :: cs.take more, p⟩).token? with
        | none => rwa [htoken] at hcons
        | some t => rwa [htoken] at hcons
      · rw [lexFrom_piece hexit hblock, List.drop_length, lexFrom_nil, List.filterMap_cons,
          token?_of_atoms hatoms]
        have hbraces : (cs ++ blockEnd).drop (cs.length + 1) = ['\x7d', '\x7d'] := by
          rw [List.drop_append]
          simp [blockEnd]
        rw [hbraces]
        exact (closesBlock_nil _ _ _).skip hatoms hflaw _ _

theorem scanCode_blank (inBlock : Bool) {c : Char} (hc : isCodeBlank c = true) (cs : List Char) :
    scanCode inBlock c cs = (.blank, (cs.takeWhile isCodeBlank).length) := by
  have hhash : (c == '#') = false := by
    refine beq_false_of_ne ?_
    rintro rfl
    exact absurd hc (by decide)
  rw [scanCode, hhash, if_neg Bool.false_ne_true, if_pos hc]

/-- The blanks that a script begins with are no token. -/
theorem lexFrom_script_blanks (options : LexerOptions) (p : Position) (cs : List Char) :
    ∃ items, (lexFrom options .script p cs) =
      (lexFrom options .script (p.after (cs.takeWhile isCodeBlank)) (cs.dropWhile isCodeBlank)).behind items ∧
        items.filterMap LexItem.token? = [] := by
  cases cs with
  | nil => exact ⟨[], rfl, rfl⟩
  | cons c cs =>
    cases hc : isCodeBlank c with
    | false =>
      rw [List.takeWhile_cons_of_neg (by simp [hc]), List.dropWhile_cons_of_neg (by simp [hc])]
      exact ⟨[], rfl, rfl⟩
    | true =>
      rw [List.takeWhile_cons_of_pos hc, List.dropWhile_cons_of_pos hc,
        lexFrom_scripted (show Section.Scripted options p (c :: cs) .script from trivial),
        scanCode_blank false hc]
      have htake : cs.take (cs.takeWhile isCodeBlank).length = cs.takeWhile isCodeBlank :=
        take_takeWhile_length _ _
      have hdrop : cs.drop (cs.takeWhile isCodeBlank).length = cs.dropWhile isCodeBlank := by
        have hsplit := List.take_append_drop (cs.takeWhile isCodeBlank).length cs
        rw [htake] at hsplit
        exact List.append_cancel_left (hsplit.trans List.takeWhile_append_dropWhile.symm)
      dsimp only
      rw [htake, hdrop]
      exact ⟨_, rfl, rfl⟩

/-- A blank in front of a script, and braces around them. -/
theorem lexFrom_opened (options options' : LexerOptions) (opened : Position) {cs : List Char}
    (hclean : ∀ item ∈ (lexFrom options .script .start cs).items, item.problem? = none)
    (hcomments : ∀ piece, .piece piece ∈ (lexFrom options .script .start cs).items →
      piece.kind = .comment → ¬ ['\x7d', '\x7d'] <:+: piece.lexeme) :
    (lexFrom options' (.code opened) ⟨1, 2⟩ (' ' :: (cs ++ blockEnd))).ClosesBlock
      ((lexFrom options .script .start cs).items.filterMap LexItem.token?) := by
  obtain ⟨items, hlex, hnone⟩ := lexFrom_script_blanks options .start cs
  have hcs : cs.takeWhile isCodeBlank ++ cs.dropWhile isCodeBlank = cs := List.takeWhile_append_dropWhile
  have hhead := List.head?_dropWhile_not isCodeBlank cs
  have hblanks : ∀ c ∈ cs.takeWhile isCodeBlank, isCodeBlank c = true := fun c => List.mem_takeWhile_imp
  rw [hlex] at hclean hcomments ⊢
  rw [Lexed.behind, List.filterMap_append, hnone, List.nil_append]
  replace hclean := (List.forall_mem_append.mp hclean).2
  replace hcomments : ∀ piece, _ → _ := fun piece h => hcomments piece (List.mem_append_right items h)
  generalize cs.takeWhile isCodeBlank = blanks, cs.dropWhile isCodeBlank = rest at *
  subst hcs
  have hafter : Position.after ⟨1, 2⟩ (' ' :: blanks) = (Position.start.after blanks).indented ∧
      1 ≤ (Position.start.after blanks).line := Position.start.after_indented (Int.le_refl 1) blanks
  have hexit (ds : List Char) : ¬ (' ' == '\x7d' && ds.head? == some '\x7d') = true := Bool.false_ne_true
  cases rest with
  | nil =>
    have hscan : scanCode true ' ' (blanks ++ [] ++ blockEnd) = (.blank, (blanks ++ [' ']).length) := by
      rw [scanCode_blank true rfl, List.append_nil, List.takeWhile_append_of_pos hblanks]
      rfl
    have hsplit : blanks ++ [] ++ blockEnd = (blanks ++ [' ']) ++ ['\x7d', '\x7d'] := by simp [blockEnd]
    rw [lexFrom_piece (hexit _) hscan, hsplit, List.drop_left, lexFrom_nil]
    exact (closesBlock_nil _ _ _).skip rfl (fun _ => PieceKind.noConfusion) _ _
  | cons c cs =>
    have hc : isCodeBlank c = false := by simpa using hhead
    have hscan : scanCode true ' ' (blanks ++ c :: cs ++ blockEnd) = (.blank, blanks.length) := by
      rw [scanCode_blank true rfl, List.append_assoc, List.takeWhile_append_of_pos hblanks,
        List.cons_append, List.takeWhile_cons_of_neg (by simp [hc]), List.append_nil]
    rw [lexFrom_piece (hexit _) hscan, List.append_assoc, List.take_left, List.drop_left, hafter.1]
    exact (lexFrom_block options options' _ (Nat.le_refl _) hafter.2 opened hclean hcomments).skip rfl
      (fun _ => PieceKind.noConfusion) _ _

/-! ## Expressions -/

namespace Grammar

variable {o o' : Options} {c c' d : Cursor} {statements : Reader (List Node)}

/-- An expression that stands alone begins with no word of a loop or of conditions. -/
theorem isWord_of_readStatement {n : Nat} (hc : c.Ended) {place : Span} {e : Node}
    (h : readStatement o (readStatements o n) c = .ok (.expression place e) d)
    (hrep : d.reported = c.reported) :
    c.current.isWord "if" = false ∧ c.current.isWord "for" = false := by
  obtain ⟨c', hparses, -⟩ := sound_readStatement (steps_extends.readStatements o n)
    (fun hc h hrep => sound_readStatements n hc h hrep) hc h hrep
  have hderives : Derives .disjunction c.rest e.erased c'.rest := by
    rw [Node.erased] at hparses
    generalize c.rest = ts at hparses
    cases hparses with
    | conditions hparses => cases hparses
    | expression hderives => exact hderives
  obtain ⟨t, rest, hr, ht⟩ := hderives.starts (by decide)
  rw [Cursor.current_of_rest hr]
  exact ⟨isWord_of_starts ht (by decide), isWord_of_starts ht (by decide)⟩

/-- An expression of a part is read in the source. -/
theorem Excerpt.readOrSkip_expression (x : Excerpt) (hfile : o'.file = o.file)
    (hdepth : o'.depthLimit = o.depthLimit) {t : Token} {us : List Token}
    (h : x.Cursors (t :: us) c c') {n : Nat} {place : Span} {e : Node}
    (hnode : readStatement o (readStatements o n) c = .ok (.expression place e) d)
    (hrep : d.reported = c.reported) (n' : Nat) :
    ∃ d' vs, readOrSkip o' (readStatements o' n') c' =
        .ok (some ((Node.expression place e).moved (Span.map x.move))) d' ∧
      x.Cursors vs d d' ∧ d.rest.length < c.rest.length := by
  have hcur : c.current = t := Cursor.current_of_rest h.rest
  have hcur' : c'.current = t.map x.move := Cursor.current_of_rest h.rest'
  obtain ⟨hif, hfor⟩ := isWord_of_readStatement h.ended hnode hrep
  have hmeets : (x.likeness hfile hdepth).Meets c.current c'.current :=
    .inl ⟨by rw [hcur, hcur'], hcur ▸ h.holds t List.mem_cons_self⟩
  have hlength : c.rest.length = us.length + 1 + 1 := by simp [h.rest]
  have hsimple := (mirrors_readEnded (L := x.likeness hfile hdepth) mirrors_readSimple).alike ⟨_, h⟩
    (Nat.le_of_eq hlength)
  have hsimple' : readStatement o' (readStatements o' n') c' = _ :=
    readStatement_simple ((hmeets.isWord "if").trans hif) ((hmeets.isWord "for").trans hfor)
  rw [← readStatement_simple hif hfor, hnode, ← hsimple'] at hsimple
  generalize hnode' : readStatement o' (readStatements o' n') c' = r at hsimple
  cases hsimple with
  | ok hlike hnext hlen =>
    obtain ⟨vs, hnext⟩ := hnext
    refine ⟨_, vs, ?_, hnext, by omega⟩
    rw [readOrSkip_run, hnode', hlike]
    rfl

/-- Expressions of a part are read in the source, where a separator ends the part and the source
ends behind it. -/
theorem Excerpt.readStatements_expressions (x : Excerpt) (hfile : o'.file = o.file)
    (hdepth : o'.depthLimit = o.depthLimit) (hstop : isSeparator x.stop = true) {t : Token}
    (hbehind : x.behind = [t]) (ht : t.kind = .eof) (hreported : x.reported = []) {n n' : Nat}
    {ts : List Token} {nodes : List Node} (h : x.Cursors ts c c') (hn : c.rest.length ≤ n)
    (hn' : c.rest.length ≤ n') (hread : readStatements o n c = .ok nodes d) (hc : c.reported = [])
    (hd : d.reported = []) (hend : endsSection d.current = true)
    (hnodes : ∀ node ∈ nodes, ∃ place e, node = .expression place e) :
    ∃ d', readStatements o' n' c' = .ok (movedNodes (Span.map x.move) nodes) d' ∧ d'.rest = [t] ∧
      d'.reported = [] := by
  induction n generalizing n' ts c c' nodes with
  | zero => exact absurd hn (by rw [h.rest]; simp)
  | succ n ih =>
    obtain ⟨n', rfl⟩ : ∃ m, n' = m + 1 := by
      refine Nat.exists_eq_add_one_of_ne_zero ?_
      rw [h.rest] at hn'
      simp only [List.length_append, List.length_singleton] at hn'
      omega
    obtain ⟨rfl, hlast, -⟩ | ⟨t, us, rfl, hcur, hcur'⟩ := h.current
    -- the part is over: in the source the separator is skipped, and then it ends
    · rw [readStatements_stop _ (by rw [hlast, x.ends_last]; rfl)] at hread
      cases hread
      have hrest' : c'.rest = x.stop :: [t] := by rw [h.rest', hbehind]; rfl
      have heof : endsSection (c'.behind x.stop [t]).current = true := by
        rw [Cursor.current_of_rest rfl, endsSection, ht]
      refine ⟨c'.behind x.stop [t], ?_, rfl, h.reported_eq_nil hreported hc⟩
      rw [readStatements_separator hrest' n' hstop, readStatements_stop n' (by rw [heof]; rfl)]
      rfl
    have hholds := h.holds t List.mem_cons_self
    have hr : c.rest = t :: (us ++ [x.last]) := h.rest
    have hr' : c'.rest = t.map x.move :: (us.map (Token.map x.move) ++ x.stop :: x.behind) := h.rest'
    have hatom : SameAtom t (t.map x.move) := rfl
    cases hword : endsSection t || belongsToBlock t with
    | true =>
      rw [readStatements_stop _ (by rwa [hcur])] at hread
      cases hread
      rw [hcur, show endsSection t = false from hholds.isBefore] at hend
      cases hend
    | false =>
    have hword' : (endsSection (t.map x.move) || belongsToBlock (t.map x.move)) = false := by
      rwa [hatom.endsSection, hatom.belongsToBlock]
    cases hsep : isSeparator t with
    | true =>
      obtain ⟨vs, hnext⟩ := h.advance hr hr' rfl hholds.isBefore.ne_eof
      have hlen : (c.behind t (us ++ [x.last])).rest.length + 1 = c.rest.length := by
        rw [hr]
        rfl
      rw [readStatements_separator hr n hsep] at hread
      rw [readStatements_separator hr' n' (hatom.isSeparator.trans hsep)]
      exact ih hnext (by omega) (by omega) hread hc hnodes
    | false =>
    cases htext : t.kind == .text with
    | true =>
      rw [readStatements_text hr n (by simpa using htext)] at hread
      obtain ⟨more, d', -, hnil⟩ := bind_ok hread
      cases hnil
      obtain ⟨_, _, htext⟩ := hnodes _ List.mem_cons_self
      cases htext
    | false =>
    rw [readStatements_statement hr n hword hsep htext] at hread
    obtain ⟨node?, c₁, hfirst, hread⟩ := bind_ok hread
    obtain ⟨more, d', hmore, hread⟩ := bind_ok hread
    cases hread
    have hleads : c.Leads c₁ :=
      after_of_ok hfirst ▸ steps_leads.readOrSkip o (steps_leads.readStatements o n) c
    have hextends : c₁.Extends d := after_of_ok hmore ▸ steps_extends.readStatements o n c₁
    obtain ⟨hrep, -⟩ := hleads.reported.antisymm hextends (hd.trans hc.symm)
    obtain ⟨node, rfl, hnode⟩ := readOrSkip_ok (steps_extends.readStatements o n) hfirst hrep
    obtain ⟨⟨place, e, rfl⟩, hrest⟩ := List.forall_mem_cons.mp hnodes
    obtain ⟨c₁', vs, hskip, hnext, hlen⟩ := x.readOrSkip_expression hfile hdepth h hnode hrep n'
    have hlen' : c₁.rest.length ≤ n' := by omega
    obtain ⟨d', hread', hd'⟩ := ih hnext (by omega) hlen' hmore (hrep.trans hc) hrest
    refine ⟨d', ?_, hd'⟩
    rw [readStatements_statement hr' n' hword' (hatom.isSeparator.trans hsep) htext, bind_of_ok hskip,
      bind_of_ok hread']
    rfl

end Grammar

open Grammar

/-! ## Sources -/

/-- A source in a block of code. -/
def inBlock (source : String) : String := "\x7b\x7b " ++ source ++ " \x7d\x7d"

theorem toList_inBlock (source : String) :
    (inBlock source).toList = '\x7b' :: '\x7b' :: ' ' :: (source.toList ++ blockEnd) := by
  rw [inBlock, String.toList_append, String.toList_append]
  rfl

/-- The braces that open a block are in front of every token in it. -/
theorem before_indented_of_mem_tokens {options : LexerOptions} {cs : List Char} {t : Token}
    (ht : t ∈ (lex options cs).tokens) : Position.start.before t.start.indented = true := by
  obtain ⟨final, htiles⟩ := tiles_lex options cs
  obtain ⟨a, b, -, -, hspan⟩ := htiles.token none ht
  have hstart : t.start = positionAt cs a := congrArg Span.start hspan
  have hline : (positionAt cs a).line = 1 + ((cs.take a).count '\n' : Int) := rfl
  have hcolumn : (positionAt cs a).column = (((cs.take a).reverse.takeWhile (· != '\n')).length : Int) := rfl
  rw [hstart, Position.indented]
  generalize positionAt cs a = p at hline hcolumn
  by_cases hfirst : p.line = 1
  · have hright : (0 : Int) < p.column + 3 := by omega
    simp [Position.before, Position.start, hfirst, hright]
  · have hbelow : (1 : Int) < p.line := by omega
    simp [Position.before, Position.start, hfirst, hbelow]

/-- The comments of a source, each with its number sign. -/
def Lexed.comments (l : Lexed) : List (List Char) :=
  l.items.filterMap fun
    | .piece ⟨.comment, lexeme, _⟩ => some lexeme
    | _ => none

theorem Lexed.mem_comments {l : Lexed} {piece : Piece} (h : .piece piece ∈ l.items)
    (hk : piece.kind = .comment) : piece.lexeme ∈ l.comments := by
  obtain ⟨kind, lexeme, start⟩ := piece
  obtain rfl : kind = .comment := hk
  exact List.mem_filterMap.mpr ⟨_, h, rfl⟩

/-- Where a source is read without complaints and without front matter, its statements are what is
read of its tokens. -/
theorem Template.IsRow.read {options : TemplateOptions} {path : Option String} {source : String}
    {t : Template} {nodes : List Node}
    (hmode : options.lexer.mode = .default ∨ options.lexer.mode = .scriptOnly)
    (h : Template.parse options path source = .ok t) (hrow : t.IsRow path nodes) :
    (∀ item ∈ (lex options.lexer source.toList).items, item.problem? = none) ∧
      ∃ d, readStatements (grammar options path) ((tokens options source).length + 1)
        { rest := tokens options source } = .ok nodes d ∧ d.reported = [] ∧
        endsSection d.current = true := by
  have hplain := parse_plain path source hmode
  cases hread : readSectionBody (grammar options path) ((tokens options source).length + 1)
    { rest := tokens options source } with
  | error x d =>
    rw [hread] at hplain
    cases x with
    | malformed x => exact hplain.elim
    | fault x =>
      rw [h] at hplain
      cases hplain
  | ok read d =>
    rw [hread] at hplain
    obtain ⟨t₀, ht₀, hnodes, hdiagnostics⟩ := hplain
    obtain rfl : t = t₀ := Except.ok.inj (h.symm.trans ht₀)
    rw [hrow.clean, eq_comm, List.append_eq_nil_iff, List.map_eq_nil_iff] at hdiagnostics
    obtain ⟨hlexical, hreported⟩ := hdiagnostics
    obtain ⟨span, inner, hpage⟩ := hrow.page
    obtain rfl : nodes = read := by
      rw [← hnodes, Template.statements, hpage]
    obtain ⟨hread, hend⟩ := readSectionBody_ok (Nat.succ_pos _) hread hreported
    exact ⟨fun item hitem => Option.map_eq_none_iff.mp (List.filterMap_eq_nil_iff.mp hlexical item hitem),
      d, hread, hreported, hend⟩

/-- The braces that open a block. -/
def blockEnter : Token := ⟨.codeEnter, "\x7b\x7b", .start, ⟨1, 2⟩⟩

/-- A script without a complaint in a block: its tokens stand between those of the braces, further
right. -/
theorem lex_inBlock {options : LexerOptions} {source : String} (hmode : options.mode = .default)
    (hclean : ∀ item ∈ (lex { options with mode := .scriptOnly } source.toList).items, item.problem? = none)
    (hcomments : ∀ comment ∈ (lex { options with mode := .scriptOnly } source.toList).comments,
      ¬ ['\x7d', '\x7d'] <:+: comment) :
    ∃ exit stop, exit.kind = .codeExit ∧
      (lex options (inBlock source).toList).tokens = blockEnter ::
        (((lex { options with mode := .scriptOnly } source.toList).items.filterMap
          LexItem.token?).map (Token.map Position.indented) ++ [exit, .eof stop]) ∧
      ∀ item ∈ (lex options (inBlock source).toList).items, item.problem? = none := by
  obtain ⟨⟨exit, stop, htokens, hexit⟩, hblock⟩ :=
    lexFrom_opened { options with mode := .scriptOnly } options .start hclean fun piece hpiece hkind =>
      hcomments piece.lexeme (Lexed.mem_comments hpiece hkind)
  have hlex : lex options (inBlock source).toList =
      (lexFrom options (.code .start) ⟨1, 2⟩ (' ' :: (source.toList ++ blockEnd))).behind
        [.piece ⟨spelled .codeEnter ['\x7b', '\x7b'], ['\x7b', '\x7b'], .start⟩] := by
    rw [lex_default hmode, toList_inBlock, lexFrom_enter]
    rfl
  refine ⟨exit, stop, hexit, ?_, fun item hitem => ?_⟩
  · rw [hlex, Lexed.tokens_behind, htokens]
    rfl
  · rw [hlex] at hitem
    cases hitem with
    | head => rfl
    | tail _ hitem => exact hblock item hitem

/-- A script that ends in `stop`, as a part of the template that has it in a block up to `exit`. -/
def blockExcerpt (stop : Position) (exit : Token) (hexit : exit.kind = .codeExit) (behind : Token) :
    Excerpt where
  move := Position.indented
  front := blockEnter
  last := .eof stop
  stop := exit
  behind := [behind]
  places _ _ := True
  reported := []
  last_kind := rfl
  ends := by rw [endsCode, hexit]
  before_move := Position.before_indented
  places_move _ := trivial
  places_last := trivial

/-- A script that is an expression is read as that expression in a block, unless a comment in it
holds the braces that close the block. -/
theorem Template.parse_block {options : TemplateOptions} {path : Option String} {source : String}
    {t : Template} {place : Span} {e : Node} (hmode : options.lexer.mode = .default)
    (h : Template.parse { options with lexer.mode := .scriptOnly } path source = .ok t)
    (hrow : t.IsRow path [.expression place e])
    (hcomments : ∀ comment ∈ (lex { options.lexer with mode := .scriptOnly } source.toList).comments,
      ¬ ['\x7d', '\x7d'] <:+: comment) :
    ∃ t', Template.parse options path (inBlock source) = .ok t' ∧
      t'.IsRow path [(Node.expression place e).moved (Span.map Position.indented)] := by
  let script : TemplateOptions := { options with lexer.mode := .scriptOnly }
  obtain ⟨hclean, d, hread, hreported, hend⟩ := Template.IsRow.read (.inr rfl) h hrow
  obtain ⟨exit, stop, hexit, htokens, hblock⟩ := lex_inBlock hmode hclean hcomments
  let ts := (lex script.lexer source.toList).items.filterMap LexItem.token?
  have hrest : tokens options (inBlock source) =
      blockEnter :: (ts.map (Token.map Position.indented) ++ [exit, .eof stop]) := htokens
  let x := blockExcerpt (lex script.lexer source.toList).stop exit hexit (.eof stop)
  let c : Cursor := { rest := tokens options (inBlock source) }
  have hscript : tokens script source = ts ++ [x.last] := rfl
  have hcursors : x.Cursors ts { rest := tokens script source }
      (c.behind blockEnter (ts.map (Token.map Position.indented) ++ [exit, .eof stop])) := by
    refine ⟨fun u hu => ⟨?_, ?_⟩, rfl, rfl, .inl ⟨rfl, rfl⟩, [], rfl, .nil⟩
    · exact isBefore_of_lexFrom Section.noConfusion _ _ hu
    · exact before_indented_of_mem_tokens (List.mem_append_left _ hu)
  have hlength : (tokens script source).length ≤ (tokens options (inBlock source)).length := by
    rw [hrest, hscript]
    simp
  have hfile : (grammar options path).file = (grammar script path).file := rfl
  have hseparator : isSeparator exit = true := by rw [isSeparator, hexit]
  obtain ⟨d', hread', hd', hreported'⟩ := x.readStatements_expressions hfile rfl hseparator rfl rfl rfl
    hcursors (Nat.le_succ _) hlength hread rfl hreported hend (by simp)
  have hpage := (readStatements_separator (c := c) hrest _ rfl).trans hread'
  have hends : endsSection d'.current = true := by
    rw [Cursor.current_of_rest hd']
    rfl
  have hplain : (c.current.kind == .frontMatterMarker) = false := by
    rw [Cursor.current_of_rest hrest]
    rfl
  have hsource : inBlock source ≠ "" := by
    intro hempty
    have hlist := congrArg String.toList hempty
    rw [toList_inBlock] at hlist
    exact List.cons_ne_nil _ _ hlist
  have hdiagnostics : (lex options.lexer (inBlock source).toList).diagnostics path = [] :=
    List.filterMap_eq_nil_iff.mpr fun item hitem => Option.map_eq_none_iff.mpr (hblock item hitem)
  have hparse := Template.parse_of_readPage hsource (readPage_run hplain hpage hends)
  rw [hdiagnostics, hreported'] at hparse
  exact ⟨_, hparse, rfl, rfl, _, _, rfl⟩

end Stencil

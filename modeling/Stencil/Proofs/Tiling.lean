import Stencil.Proofs.Seam
import Stencil.Proofs.Totality

/-!
# Where pieces stand

Places are counted along with the reading, but they are those of offsets: `positionAt` says
what an offset is in lines and columns. The pieces of a source lie behind each other, from
its first character to where reading ended, and what a token covers is what it says
(`Laid`, one constructor for each thing the lexer puts down). Everything else about places
is read off that: what is covered once, in which order, and that the range of a diagnostic
is one of the source.
-/

namespace Stencil

/-! ## Offsets -/

/-- The place of an offset: the line feeds in front of it, and the characters since the last one. -/
def positionAt (cs : List Char) (n : Nat) : Position :=
  ⟨1 + (cs.take n).count '\n', ((cs.take n).reverse.takeWhile (· != '\n')).length⟩

/-- The characters between two offsets. -/
def slice (cs : List Char) (a b : Nat) : List Char := (cs.drop a).take (b - a)

/-- Reading along a text leads to where its last line feeds and characters are. -/
theorem Position.after_start (cs : List Char) : Position.start.after cs =
    ⟨1 + cs.count '\n', (cs.reverse.takeWhile (· != '\n')).length⟩ := by
  induction cs using List.reverseRecOn with
  | nil => rfl
  | append_singleton cs c ih =>
    rw [Position.after_append, ih, Position.after_cons, Position.after_nil, Position.next,
      List.reverse_append, List.reverse_singleton, List.singleton_append, List.count_append]
    by_cases hc : c = '\n'
    · subst hc
      rw [if_pos rfl, List.takeWhile_cons_of_neg (by decide), List.count_singleton_self]
      simp [Int.add_assoc]
    · rw [if_neg hc, List.takeWhile_cons_of_pos (by simpa using hc), List.length_cons,
        List.count_singleton, if_neg (by simpa using hc)]
      simp

theorem positionAt_eq (cs : List Char) (n : Nat) : positionAt cs n = Position.start.after (cs.take n) :=
  (Position.after_start _).symm

theorem positionAt_add (cs : List Char) (n k : Nat) :
    positionAt cs (n + k) = (positionAt cs n).after ((cs.drop n).take k) := by
  rw [positionAt_eq, positionAt_eq, ← Position.after_append, List.take_add]

/-- A place is not in front of one that was read before it. -/
theorem Position.not_after_before (p : Position) (cs : List Char) : (p.after cs).before p = false := by
  have hstep (p : Position) (cs : List Char) : p.line ≤ (p.after cs).line ∧
      (p.line = (p.after cs).line → p.column ≤ (p.after cs).column) := by
    induction cs generalizing p with
    | nil => exact ⟨Int.le_refl _, fun _ => Int.le_refl _⟩
    | cons c cs ih =>
      obtain ⟨hline, hcolumn⟩ := ih (p.next c)
      rw [Position.after_cons]
      by_cases hc : c = '\n'
      · have hnext : (p.next c).line = p.line + 1 := by rw [Position.next, if_pos hc]
        exact ⟨by omega, fun h => by omega⟩
      · have hnext : p.next c = ⟨p.line, p.column + 1⟩ := by rw [Position.next, if_neg hc]
        rw [hnext] at hline hcolumn ⊢
        dsimp only at hline hcolumn
        exact ⟨hline, fun h => by have := hcolumn h; omega⟩
  obtain ⟨hline, hcolumn⟩ := hstep p cs
  rw [Position.before, Bool.or_eq_false_iff, decide_eq_false_iff_not, Bool.and_eq_false_iff,
    beq_eq_false_iff_ne, decide_eq_false_iff_not]
  refine ⟨by omega, ?_⟩
  by_cases h : p.line = (p.after cs).line
  · exact .inr (by have := hcolumn h; omega)
  · exact .inl (Ne.symm h)

/-- A range of a source. -/
def RealSpan (cs : List Char) (file : Option String) (span : Span) : Prop :=
  ∃ a b, a ≤ b ∧ b ≤ cs.length ∧ span = ⟨file, positionAt cs a, positionAt cs b⟩

/-- A range of a source does not end before it starts. -/
theorem RealSpan.not_before {cs : List Char} {file : Option String} {span : Span}
    (h : RealSpan cs file span) : span.stop.before span.start = false := by
  obtain ⟨a, b, hab, -, rfl⟩ := h
  obtain ⟨k, rfl⟩ := Nat.exists_eq_add_of_le hab
  show (positionAt cs (a + k)).before (positionAt cs a) = false
  rw [positionAt_add]
  exact Position.not_after_before _ _

/-! ## Pieces -/

/-- What a piece of a kind is made of, in code or outside of it. -/
def PieceKind.Suits (code : Bool) (lexeme : List Char) : PieceKind → Prop
  | .token .text value => code = false ∧ value = String.ofList lexeme
  | .token kind _ => kind ≠ .eof
  | .blank => code = true ∧ ∀ c ∈ lexeme, isCodeBlank c = true
  | .comment => code = true ∧ lexeme.head? = some '#' ∧ '\n' ∉ lexeme
  | .flaw (.unexpectedCharacter c) => code = true ∧ lexeme = [c]
  | .flaw .unterminatedString => code = true ∧ '\n' ∉ lexeme ∧
      (lexeme.head? = some Text.doubleQuote ∨ lexeme.head? = some Text.apostrophe)
  | .flaw _ => False

/-- Whether code is behind a piece: braces open and close it, and markers do. -/
def PieceKind.leaves (code : Bool) : PieceKind → Bool
  | .token .codeEnter _ => true
  | .token .codeExit _ => false
  | .token .frontMatterMarker _ => !code
  | _ => code

/-- Items that lie behind each other, from an offset to another one. -/
inductive Laid (source : List Char) : Bool → Nat → List LexItem → Nat → Prop
  | done {code : Bool} {n : Nat} : n ≤ source.length → Laid source code n [] n
  | complaint {code : Bool} {n m a b : Nat} {items : List LexItem} {problem : LexicalProblem} :
      a ≤ b → b ≤ source.length → Laid source code n items m →
      Laid source code n (.complaint problem (positionAt source a) (positionAt source b) :: items) m
  | piece {code : Bool} {n m : Nat} {items : List LexItem} {kind : PieceKind} {lexeme : List Char} :
      slice source n (n + lexeme.length) = lexeme → kind.Suits code lexeme →
      Laid source (kind.leaves code) (n + lexeme.length) items m →
      Laid source code n (.piece ⟨kind, lexeme, positionAt source n⟩ :: items) m

/-- A piece of code leaves code open. -/
theorem leaves_of_inCode {kind : TokenKind} (h : kind.inCode = true) (value : String)
    (code : Bool) : (PieceKind.token kind value).leaves code = code := by
  cases kind <;> first | rfl | cases h

theorem suits_of_inCode {kind : TokenKind} (h : kind.inCode = true) (value : String)
    (code : Bool) (lexeme : List Char) : (PieceKind.token kind value).Suits code lexeme := by
  cases kind <;> first | exact TokenKind.noConfusion | cases h

theorem take_takeWhile_length (p : Char → Bool) (cs : List Char) :
    cs.take (cs.takeWhile p).length = cs.takeWhile p :=
  (List.prefix_iff_eq_take.mp (List.takeWhile_prefix p)).symm

/-- What does not go on behind the end of a line has no line feed. -/
theorem not_mem_cons_take {c : Char} (hc : c ≠ '\n') {cs : List Char} {n : Nat}
    (h : n ≤ (cs.takeWhile (· != '\n')).length) : '\n' ∉ c :: cs.take n := by
  rintro (_ | ⟨_, hmem⟩)
  · exact hc rfl
  · have hfront := List.take_prefix_take_left (l := cs) h
    rw [take_takeWhile_length] at hfront
    simpa using List.mem_takeWhile_imp (hfront.subset hmem)

theorem scanNumber_token (c : Char) (cs : List Char) :
    ∃ kind value, (scanNumber c cs).1 = .token kind value := by
  unfold scanNumber
  dsimp only
  split
  · split <;> exact ⟨_, _, rfl⟩
  · exact ⟨_, _, rfl⟩

theorem scanComment_suits (inBlock : Bool) (cs : List Char) :
    (scanComment inBlock cs).1.Suits true ('#' :: cs.take (scanComment inBlock cs).2) := by
  refine ⟨rfl, rfl, not_mem_cons_take (by decide) ?_⟩
  show (if inBlock then beforePair '\x7d' (cs.takeWhile (· != '\n'))
    else cs.takeWhile (· != '\n')).length ≤ (cs.takeWhile (· != '\n')).length
  split
  · exact (beforePair_isPrefix _ _).length_le
  · exact Nat.le_refl _

/-- A string is a token, or a flaw up to the end of the line. -/
theorem scanString_suits {c : Char} (hc : c = Text.doubleQuote ∨ c = Text.apostrophe) (cs : List Char) :
    (∃ value, (scanString c cs).1 = .token .string value) ∨
      (scanString c cs).1 = .flaw .unterminatedString ∧
        (scanString c cs).1.Suits true (c :: cs.take (scanString c cs).2) := by
  have hne : c ≠ '\n' := by
    rintro rfl
    revert hc
    decide
  unfold scanString
  split
  · exact .inl ⟨_, rfl⟩
  · exact .inr ⟨rfl, rfl, not_mem_cons_take hne (Nat.le_refl _), hc.imp (congrArg some) (congrArg some)⟩

/-- What a piece of code is made of. It leaves code open. -/
theorem scanCode_suits {inBlock : Bool} {c : Char} {cs : List Char} {kind : PieceKind} {more : Nat}
    (h : scanCode inBlock c cs = (kind, more)) :
    kind.Suits true (c :: cs.take more) ∧ kind.leaves true = true := by
  by_cases htoken : ∃ token value, kind = .token token value
  · obtain ⟨token, value, rfl⟩ := htoken
    have hcode := inCode_of_scanCode (congrArg Prod.fst h)
    exact ⟨suits_of_inCode hcode _ _ _, leaves_of_inCode hcode _ _⟩
  have hnot {token : TokenKind} {value : String} {n : Nat} (h : (.token token value, n) = (kind, more)) :
      False := htoken ⟨token, value, (congrArg Prod.fst h).symm⟩
  unfold scanCode at h
  split at h
  · next hc =>
    obtain rfl : c = '#' := by simpa using hc
    have hcomment := scanComment_suits inBlock cs
    rw [h] at hcomment
    cases h
    exact ⟨hcomment, rfl⟩
  split at h
  · next hc =>
    cases h
    refine ⟨⟨rfl, fun d hd => ?_⟩, rfl⟩
    rw [take_takeWhile_length] at hd
    obtain rfl | hd := List.mem_cons.mp hd
    · exact hc
    · exact List.mem_takeWhile_imp hd
  split at h
  · exact (hnot h).elim
  split at h
  · obtain ⟨token, value, hnumber⟩ := scanNumber_token c cs
    exact (htoken ⟨token, value, (congrArg Prod.fst h).symm.trans hnumber⟩).elim
  split at h
  · next hc =>
    rw [Bool.or_eq_true, beq_iff_eq, beq_iff_eq] at hc
    have hstring := scanString_suits hc cs
    rw [h] at hstring
    obtain ⟨value, hvalue⟩ | ⟨hflaw, hsuits⟩ := hstring
    · exact (htoken ⟨_, value, hvalue⟩).elim
    · obtain rfl : kind = _ := hflaw
      exact ⟨hsuits, rfl⟩
  split at h
  · exact (hnot h).elim
  split at h
  · exact (hnot h).elim
  split at h
  · exact (hnot h).elim
  · exact (hnot h).elim
  · cases h
    exact ⟨⟨rfl, rfl⟩, rfl⟩

/-! ## Sections -/

/-- What is known of a section at an offset: whether it is code, and in which modes there is one. -/
def Section.Stands (options : LexerOptions) (source : List Char) (n : Nat) (code : Bool) :
    Section → Prop
  | .text => code = false
  | .code opened => code = true ∧ ∃ a ≤ n, opened = positionAt source a
  | .front => code = true ∧ (options.mode = .frontMatterOnly ∨ options.mode = .frontMatterAndContent)
  | .script => code = true
  | .finished => options.mode = .frontMatterOnly

theorem stands_afterFrontMatter {options : LexerOptions}
    (h : options.mode = .frontMatterOnly ∨ options.mode = .frontMatterAndContent)
    (source : List Char) (n : Nat) : (afterFrontMatter options).Stands options source n false := by
  obtain h | h := h <;> rw [afterFrontMatter, h]
  · exact h
  · rfl

/-- A piece of code in a section that goes on behind it. -/
theorem piece_suits {inBlock : Bool} {inside following : Section} {c : Char} {cs : List Char}
    {kind : PieceKind} {more : Nat}
    (h : ((scanCode inBlock c cs).1, (scanCode inBlock c cs).2, inside) = (kind, more, following)) :
    kind.Suits true (c :: cs.take more) ∧ kind.leaves true = true ∧ following = inside := by
  obtain ⟨hsuits, hleaves⟩ := @scanCode_suits inBlock c cs _ _ rfl
  cases h
  exact ⟨hsuits, hleaves, rfl⟩

/-- One piece, and the section behind it. -/
theorem nextPiece_suits {options : LexerOptions} {inside following : Section} {source : List Char}
    {n : Nat} {code : Bool} {c : Char} {cs : List Char} {kind : PieceKind} {more : Nat}
    (hne : inside ≠ .finished) (hstands : inside.Stands options source n code)
    (h : nextPiece options inside (positionAt source n) c cs = (kind, more, following)) :
    kind.Suits code (c :: cs.take more) ∧
      ∀ m, n ≤ m → following.Stands options source m (kind.leaves code) := by
  cases inside with
  | text =>
    obtain rfl : code = false := hstands
    unfold nextPiece at h
    dsimp only at h
    split at h
    · cases h
      exact ⟨TokenKind.noConfusion, fun m hm => ⟨rfl, n, hm, rfl⟩⟩
    · next hne =>
      have hfront := beforePair_isPrefix '\x7b' (c :: cs)
      generalize beforePair '\x7b' (c :: cs) = text at h hne hfront
      cases h
      cases text with
      | nil => exact absurd rfl hne
      | cons d ds =>
        obtain ⟨rfl, hds⟩ := List.cons_prefix_cons.mp hfront
        refine ⟨⟨rfl, ?_⟩, fun _ _ => rfl⟩
        rw [List.length_cons, Nat.add_sub_cancel, ← List.prefix_iff_eq_take.mp hds]
  | code opened =>
    obtain ⟨rfl, a, ha, hopened⟩ := hstands
    unfold nextPiece at h
    dsimp only at h
    split at h
    · cases h
      exact ⟨TokenKind.noConfusion, fun _ _ => rfl⟩
    · obtain ⟨hsuits, hleaves, rfl⟩ := piece_suits h
      rw [hleaves]
      exact ⟨hsuits, fun m hm => ⟨rfl, a, Nat.le_trans ha hm, hopened⟩⟩
  | front =>
    obtain ⟨rfl, hmode⟩ := hstands
    unfold nextPiece at h
    dsimp only at h
    split at h
    · cases h
      exact ⟨TokenKind.noConfusion, fun m _ => stands_afterFrontMatter hmode source m⟩
    · obtain ⟨hsuits, hleaves, rfl⟩ := piece_suits h
      rw [hleaves]
      exact ⟨hsuits, fun _ _ => ⟨rfl, hmode⟩⟩
  | script =>
    obtain rfl : code = true := hstands
    unfold nextPiece at h
    obtain ⟨hsuits, hleaves, rfl⟩ := piece_suits h
    rw [hleaves]
    exact ⟨hsuits, fun _ _ => rfl⟩
  | finished => exact absurd rfl hne

/-! ## Reading along -/

section Cut

variable {source lexeme rest : List Char} {n : Nat} (h : source.drop n = lexeme ++ rest)

include h

theorem slice_of_drop : slice source n (n + lexeme.length) = lexeme := by
  rw [slice, h, Nat.add_sub_cancel_left, List.take_left]

theorem drop_of_drop : source.drop (n + lexeme.length) = rest := by
  rw [← List.drop_drop, h, List.drop_left]

theorem add_length_le_of_drop (hn : n ≤ source.length) : n + lexeme.length ≤ source.length := by
  have hlength := congrArg List.length h
  rw [List.length_drop, List.length_append] at hlength
  omega

theorem positionAt_of_drop :
    (positionAt source n).after lexeme = positionAt source (n + lexeme.length) := by
  rw [positionAt_add, h, List.take_left]

end Cut

theorem Laid.length_le {source : List Char} {code : Bool} {n m : Nat} {items : List LexItem}
    (h : Laid source code n items m) : m ≤ source.length := by
  induction h with
  | done h => exact h
  | complaint _ _ _ ih | piece _ _ _ ih => exact ih

/-- What was read from an offset lies in the source, up to its end but for front matter alone. -/
def Lexed.Lies (options : LexerOptions) (source : List Char) (code : Bool) (n : Nat) (l : Lexed) : Prop :=
  ∃ m, Laid source code n l.items m ∧ l.stop = positionAt source m ∧
    (options.mode ≠ .frontMatterOnly → m = source.length)

/-- What is wrong at the end is about a range of the source. -/
theorem laid_atEnd {options : LexerOptions} {inside : Section} {source : List Char} {code : Bool}
    (h : inside.Stands options source source.length code) :
    Laid source code source.length (atEnd inside (positionAt source source.length)) source.length := by
  have hdone : Laid source code source.length [] source.length := .done (Nat.le_refl _)
  cases inside with
  | text | script | finished => exact hdone
  | code opened =>
    obtain ⟨-, a, ha, rfl⟩ := h
    exact .complaint ha (Nat.le_refl _) hdone
  | front => exact .complaint (a := 0) (Nat.zero_le _) (Nat.le_refl _) hdone

/-- The pieces that are cut off lie behind each other. By induction on what is left. -/
theorem lies_lexFrom {options : LexerOptions} {source : List Char} (cs : List Char)
    {inside : Section} {n : Nat} {code : Bool} (hn : n ≤ source.length) (hcs : source.drop n = cs)
    (hstands : inside.Stands options source n code) :
    (lexFrom options inside (positionAt source n) cs).Lies options source code n := by
  induction hlen : cs.length using Nat.strong_induction_on generalizing cs inside n code with
  | _ k ih =>
    cases cs with
    | nil =>
      have hend : n = source.length := Nat.le_antisymm hn (List.drop_eq_nil_iff.mp hcs)
      subst hend
      rw [lexFrom_nil]
      exact ⟨_, laid_atEnd hstands, rfl, fun _ => rfl⟩
    | cons c cs =>
      by_cases hne : inside = .finished
      · subst hne
        rw [lexFrom_finished]
        exact ⟨n, .done hn, rfl, fun hmode => absurd hstands hmode⟩
      · cases hpiece : nextPiece options inside (positionAt source n) c cs with
        | mk kind rest =>
          obtain ⟨more, following⟩ := rest
          obtain ⟨hsuits, hfollowing⟩ := nextPiece_suits hne hstands hpiece
          have hcut : source.drop n = (c :: cs.take more) ++ cs.drop more := by
            rw [hcs, List.cons_append, List.take_append_drop]
          have hlt : (cs.drop more).length < k := by
            rw [← hlen, List.length_drop, List.length_cons]
            omega
          rw [lexFrom_cons hne hpiece, positionAt_of_drop hcut]
          obtain ⟨m, hlaid, hstop, hend⟩ := ih _ hlt (cs.drop more) (add_length_le_of_drop hcut hn)
            (drop_of_drop hcut) (hfollowing _ (Nat.le_add_right _ _)) rfl
          exact ⟨m, .piece (slice_of_drop hcut) hsuits hlaid, hstop, hend⟩

theorem firstLine_append (cs : List Char) : firstLine cs ++ cs.drop (firstLine cs).length = cs := by
  have hline : firstLine cs = cs.take ((cs.takeWhile (· != '\n')).length + 1) := by
    rw [List.take_add, take_takeWhile_length]
    rfl
  refine List.prefix_iff_eq_append.mp ?_
  rw [hline]
  exact List.take_prefix _ cs

/-- A source that should start with front matter, or lacks it. -/
theorem lies_lexFrontMatter {options : LexerOptions}
    (hmode : options.mode = .frontMatterOnly ∨ options.mode = .frontMatterAndContent) (cs : List Char) :
    (lexFrontMatter options cs).Lies options cs false 0 := by
  have hle := Nat.zero_le cs.length
  unfold lexFrontMatter
  split
  · have hcut : cs.drop 0 = firstLine cs ++ cs.drop (firstLine cs).length := (firstLine_append cs).symm
    have hplace : Position.start.after (firstLine cs) = positionAt cs (0 + (firstLine cs).length) :=
      positionAt_of_drop hcut
    dsimp only
    rw [hplace]
    have hstands : Section.front.Stands options cs (0 + (firstLine cs).length) true := ⟨rfl, hmode⟩
    obtain ⟨m, hlaid, hstop, hend⟩ :=
      lies_lexFrom _ (add_length_le_of_drop hcut hle) (drop_of_drop hcut) hstands
    exact ⟨m, .piece (slice_of_drop hcut) TokenKind.noConfusion hlaid, hstop, hend⟩
  · obtain ⟨m, hlaid, hstop, hend⟩ := lies_lexFrom cs hle rfl (stands_afterFrontMatter hmode cs 0)
    exact ⟨m, .complaint (a := 0) (b := 0) (Nat.le_refl 0) hle hlaid, hstop, hend⟩

/-- The pieces of a whole source. -/
theorem lies_lex (options : LexerOptions) (cs : List Char) :
    (lex options cs).Lies options cs (options.mode == .scriptOnly) 0 := by
  have hle := Nat.zero_le cs.length
  cases hmode : options.mode with
  | default =>
    have hstands : Section.text.Stands options cs 0 false := rfl
    simp only [lex, hmode]
    exact lies_lexFrom cs hle rfl hstands
  | scriptOnly =>
    have hstands : Section.script.Stands options cs 0 true := rfl
    simp only [lex, hmode]
    exact lies_lexFrom cs hle rfl hstands
  | frontMatterOnly =>
    simp only [lex, hmode]
    exact lies_lexFrontMatter (.inl hmode) cs
  | frontMatterAndContent =>
    simp only [lex, hmode]
    exact lies_lexFrontMatter (.inr hmode) cs

/-! ## Stretches -/

/-- A stretch of a source: what it is, and the offsets at which it starts and stops. -/
structure Stretch where
  kind : PieceKind
  start : Nat
  stop : Nat

/-- The token that a stretch is, if it is one. -/
def Stretch.token? (cs : List Char) (s : Stretch) : Option Token :=
  match s.kind with
  | .token kind value => some ⟨kind, value, positionAt cs s.start, positionAt cs s.stop⟩
  | _ => none

/-- The stretches of items that lie behind each other, from an offset on. -/
def stretchesFrom (n : Nat) : List LexItem → List Stretch
  | [] => []
  | .complaint .. :: items => stretchesFrom n items
  | .piece p :: items =>
    ⟨p.kind, n, n + p.lexeme.length⟩ :: stretchesFrom (n + p.lexeme.length) items

/-- The stretches of a source. -/
def Lexed.stretches (l : Lexed) : List Stretch := stretchesFrom 0 l.items

/-- The piece of an item, if it is one. -/
def LexItem.piece? : LexItem → Option Piece
  | .piece p => some p
  | .complaint .. => none

/-- Whether code is behind some stretches. -/
def codeBehind (code : Bool) (stretches : List Stretch) : Bool :=
  stretches.foldl (fun code s => s.kind.leaves code) code

/-- How the stretches of a source cover it up to an offset, and what is read off them. -/
structure Tiles (options : LexerOptions) (cs : List Char) (final : Nat) (l : Lexed) : Prop where
  final_le : final ≤ cs.length
  final_eq : options.mode ≠ .frontMatterOnly → final = cs.length
  /-- The places that were counted are those of the offsets. -/
  places : (l.items.filterMap LexItem.piece?).map (fun p => (p.kind, p.start, p.stop)) =
    l.stretches.map fun s => (s.kind, positionAt cs s.start, positionAt cs s.stop)
  within : ∀ s ∈ l.stretches, s.start ≤ s.stop ∧ s.stop ≤ final
  ordered : l.stretches.Pairwise fun s u => s.stop ≤ u.start
  covered : ∀ n < final, ∃! s, s ∈ l.stretches ∧ s.start ≤ n ∧ n < s.stop
  tokens : l.tokens = l.stretches.filterMap (Stretch.token? cs) ++ [Token.eof (positionAt cs final)]
  oneEnd : l.tokens.filter (·.kind == .eof) = [Token.eof (positionAt cs final)]
  /-- What a stretch covers is what it says. Blanks, comments and flaws stand in code. -/
  suits (before : List Stretch) (s : Stretch) (behind : List Stretch) :
    l.stretches = before ++ s :: behind →
      s.kind.Suits (codeBehind (options.mode == .scriptOnly) before) (slice cs s.start s.stop)
  flaws (file : Option String) : ∀ s ∈ l.stretches, ∀ problem, s.kind = .flaw problem →
    ⟨.error, ⟨file, positionAt cs s.start, positionAt cs s.stop⟩, problem.message⟩ ∈ l.diagnostics file
  diagnostics (file : Option String) : ∀ d ∈ l.diagnostics file, RealSpan cs file d.span

/-- The place behind a piece is that of its last offset. -/
theorem stop_eq {source lexeme : List Char} {n : Nat} (kind : PieceKind)
    (h : slice source n (n + lexeme.length) = lexeme) :
    (Piece.mk kind lexeme (positionAt source n)).stop = positionAt source (n + lexeme.length) := by
  rw [slice, Nat.add_sub_cancel_left] at h
  rw [positionAt_add, h, Piece.stop]

namespace Laid

variable {source : List Char} {code : Bool} {n m : Nat} {items : List LexItem}
  (h : Laid source code n items m)

include h

theorem le : n ≤ m := by
  induction h with
  | done => exact Nat.le_refl _
  | complaint _ _ _ ih => exact ih
  | piece _ _ _ ih => exact Nat.le_trans (Nat.le_add_right _ _) ih

theorem within : ∀ s ∈ stretchesFrom n items, n ≤ s.start ∧ s.start ≤ s.stop ∧ s.stop ≤ m := by
  induction h with
  | done => exact fun _ hs => absurd hs List.not_mem_nil
  | complaint _ _ _ ih => exact ih
  | piece _ _ hrest ih =>
    intro s hs
    obtain rfl | hs := List.mem_cons.mp hs
    · exact ⟨Nat.le_refl _, Nat.le_add_right _ _, hrest.le⟩
    · obtain ⟨hstart, hstop, hend⟩ := ih s hs
      exact ⟨Nat.le_trans (Nat.le_add_right _ _) hstart, hstop, hend⟩

theorem ordered : (stretchesFrom n items).Pairwise fun s u => s.stop ≤ u.start := by
  induction h with
  | done => exact .nil
  | complaint _ _ _ ih => exact ih
  | piece _ _ hrest ih => exact .cons (fun s hs => (hrest.within s hs).1) ih

/-- Every character lies in one stretch. -/
theorem covered {k : Nat} (hn : n ≤ k) (hk : k < m) :
    ∃! s, s ∈ stretchesFrom n items ∧ s.start ≤ k ∧ k < s.stop := by
  induction h with
  | done => exact absurd hk (Nat.not_lt.mpr hn)
  | complaint _ _ _ ih => exact ih hn hk
  | @piece code n m items kind lexeme _ _ hrest ih =>
    by_cases hlt : k < n + lexeme.length
    · refine ⟨⟨kind, n, n + lexeme.length⟩, ⟨List.mem_cons_self, hn, hlt⟩, ?_⟩
      rintro s ⟨hs, hstart, -⟩
      obtain rfl | hs := List.mem_cons.mp hs
      · rfl
      · exact absurd (Nat.lt_of_lt_of_le hlt (hrest.within s hs).1) (Nat.not_lt.mpr hstart)
    · obtain ⟨s, ⟨hs, hin⟩, hunique⟩ := ih (Nat.not_lt.mp hlt) hk
      refine ⟨s, ⟨List.mem_cons_of_mem _ hs, hin⟩, ?_⟩
      rintro u ⟨hu, hstart, hstop⟩
      obtain rfl | hu := List.mem_cons.mp hu
      · exact absurd hstop hlt
      · exact hunique u ⟨hu, hstart, hstop⟩

theorem places : (items.filterMap LexItem.piece?).map (fun p => (p.kind, p.start, p.stop)) =
    (stretchesFrom n items).map fun s => (s.kind, positionAt source s.start, positionAt source s.stop) := by
  induction h with
  | done => rfl
  | complaint _ _ _ ih => exact ih
  | @piece code n m items kind lexeme hslice _ _ ih =>
    have hstop := stop_eq kind hslice
    exact congrArg₂ (fun p ps => (kind, positionAt source n, p) :: ps) hstop ih

theorem tokens : items.filterMap LexItem.token? =
    (stretchesFrom n items).filterMap (Stretch.token? source) := by
  induction h with
  | done => rfl
  | complaint _ _ _ ih => exact ih
  | @piece code n m items kind lexeme hslice _ _ ih =>
    rw [stretchesFrom, List.filterMap_cons, List.filterMap_cons, ih]
    have htoken : LexItem.token? (.piece ⟨kind, lexeme, positionAt source n⟩) =
        Stretch.token? source ⟨kind, n, n + lexeme.length⟩ := by
      cases kind with
      | token kind value => exact congrArg (fun p => some (Token.mk kind value _ p)) (stop_eq _ hslice)
      | blank | comment | flaw => rfl
    rw [htoken]

/-- The end of the source is no piece of it. -/
theorem no_end : ∀ t ∈ items.filterMap LexItem.token?, t.kind ≠ .eof := by
  induction h with
  | done => exact fun _ ht => absurd ht List.not_mem_nil
  | complaint _ _ _ ih => exact ih
  | @piece code n m items kind lexeme _ hsuits _ ih =>
    intro t ht
    obtain ⟨item, hitem, ht⟩ := List.mem_filterMap.mp ht
    obtain rfl | hitem := List.mem_cons.mp hitem
    · cases kind with
      | token kind value =>
        cases ht
        rintro rfl
        exact hsuits rfl
      | blank | comment | flaw => cases ht
    · exact ih t (List.mem_filterMap.mpr ⟨item, hitem, ht⟩)

theorem suits {before : List Stretch} {s : Stretch} {behind : List Stretch}
    (hs : stretchesFrom n items = before ++ s :: behind) :
    s.kind.Suits (codeBehind code before) (slice source s.start s.stop) := by
  induction h generalizing before with
  | done => exact absurd hs (by simp [stretchesFrom])
  | complaint _ _ _ ih => exact ih hs
  | @piece code n m items kind lexeme hslice hsuits _ ih =>
    cases before with
    | nil =>
      obtain rfl : Stretch.mk kind n (n + lexeme.length) = s := (List.cons.inj hs).1
      rw [hslice]
      exact hsuits
    | cons u before =>
      obtain rfl : Stretch.mk kind n (n + lexeme.length) = u := (List.cons.inj hs).1
      exact ih (List.cons.inj hs).2

theorem flaws {s : Stretch} (hs : s ∈ stretchesFrom n items) {problem : LexicalProblem}
    (hkind : s.kind = .flaw problem) :
    (problem, positionAt source s.start, positionAt source s.stop) ∈ items.filterMap LexItem.problem? := by
  induction h with
  | done => exact absurd hs List.not_mem_nil
  | complaint _ _ _ ih =>
    exact List.mem_cons_of_mem _ (ih hs)
  | @piece code n m items kind lexeme hslice _ _ ih =>
    obtain rfl | hs := List.mem_cons.mp hs
    · obtain rfl : kind = .flaw problem := hkind
      rw [← stop_eq (.flaw problem) hslice]
      exact List.mem_cons_self
    · obtain ⟨item, hitem, hproblem⟩ := List.mem_filterMap.mp (ih hs)
      exact List.mem_filterMap.mpr ⟨item, List.mem_cons_of_mem _ hitem, hproblem⟩

/-- What is wrong is about a range of the source. -/
theorem problems : ∀ x ∈ items.filterMap LexItem.problem?,
    ∃ a b, a ≤ b ∧ b ≤ source.length ∧ x.2 = (positionAt source a, positionAt source b) := by
  induction h with
  | done => exact fun _ hx => absurd hx List.not_mem_nil
  | complaint hab hb _ ih =>
    intro x hx
    obtain rfl | hx := List.mem_cons.mp hx
    · exact ⟨_, _, hab, hb, rfl⟩
    · exact ih x hx
  | @piece code n m items kind lexeme hslice _ hrest ih =>
    intro x hx
    obtain ⟨item, hitem, hproblem⟩ := List.mem_filterMap.mp hx
    obtain rfl | hitem := List.mem_cons.mp hitem
    · cases kind with
      | flaw problem =>
        cases hproblem
        exact ⟨n, n + lexeme.length, Nat.le_add_right _ _, Nat.le_trans hrest.le hrest.length_le,
          congrArg (_, ·) (stop_eq _ hslice)⟩
      | token | blank | comment => cases hproblem
    · exact ih x (List.mem_filterMap.mpr ⟨item, hitem, hproblem⟩)

end Laid

theorem mem_diagnostics {l : Lexed} {file : Option String} {d : Diagnostic} :
    d ∈ l.diagnostics file ↔ ∃ x ∈ l.items.filterMap LexItem.problem?,
      d = ⟨.error, ⟨file, x.2.1, x.2.2⟩, x.1.message⟩ := by
  rw [Lexed.diagnostics, ← List.map_filterMap, List.mem_map]
  constructor
  · rintro ⟨x, hx, rfl⟩
    exact ⟨x, hx, rfl⟩
  · rintro ⟨x, hx, rfl⟩
    exact ⟨x, hx, rfl⟩

/-- The pieces of a source tile it. -/
theorem tiles_lex (options : LexerOptions) (cs : List Char) :
    ∃ final, Tiles options cs final (lex options cs) := by
  obtain ⟨final, hlaid, hstop, hend⟩ := lies_lex options cs
  have htokens : (lex options cs).tokens =
      (lex options cs).stretches.filterMap (Stretch.token? cs) ++ [Token.eof (positionAt cs final)] := by
    rw [Lexed.tokens, hlaid.tokens, hstop]
    rfl
  refine ⟨final, hlaid.length_le, hend, hlaid.places, fun s hs => (hlaid.within s hs).2, hlaid.ordered,
    fun n hn => hlaid.covered (Nat.zero_le n) hn, htokens, ?_, fun _ _ _ => hlaid.suits, ?_, ?_⟩
  · have hnone : ((lex options cs).items.filterMap LexItem.token?).filter (·.kind == .eof) = [] :=
      List.filter_eq_nil_iff.mpr fun t ht => by simpa using hlaid.no_end t ht
    rw [Lexed.tokens, List.filter_append, hnone, hstop]
    rfl
  · exact fun file s hs problem hkind => mem_diagnostics.mpr ⟨_, hlaid.flaws hs hkind, rfl⟩
  · intro file d hd
    obtain ⟨x, hx, rfl⟩ := mem_diagnostics.mp hd
    obtain ⟨a, b, hab, hb, hplaces⟩ := hlaid.problems x hx
    exact ⟨a, b, hab, hb, by rw [hplaces]⟩

/-- A token of a source covers a range of it. -/
theorem Tiles.token {options : LexerOptions} {cs : List Char} {final : Nat} {l : Lexed}
    (h : Tiles options cs final l) (file : Option String) {t : Token} (ht : t ∈ l.tokens) :
    RealSpan cs file ⟨file, t.start, t.stop⟩ := by
  rw [h.tokens, List.mem_append, List.mem_singleton] at ht
  obtain ht | rfl := ht
  · obtain ⟨s, hs, ht⟩ := List.mem_filterMap.mp ht
    obtain ⟨hle, hfinal⟩ := h.within s hs
    refine ⟨s.start, s.stop, hle, Nat.le_trans hfinal h.final_le, ?_⟩
    unfold Stretch.token? at ht
    split at ht
    · cases ht
      rfl
    · cases ht
  · exact ⟨final, final, Nat.le_refl _, h.final_le, rfl⟩

/-- What is wrong with a source or with the template in it is said about a range of the source. -/
theorem Template.realSpan_of_parse {options : TemplateOptions} {path : Option String} {source : String}
    {t : Template} (h : Template.parse options path source = .ok t) {d : Diagnostic}
    (hd : d ∈ t.diagnostics) : RealSpan source.toList path d.span := by
  obtain ⟨final, htiles⟩ := tiles_lex options.lexer source.toList
  obtain ⟨-, rfl⟩ | ⟨-, page, c, -, -, -, -, hdiagnostics, hreported⟩ := Template.parse_ok h
  · cases hd
  rw [hdiagnostics] at hd
  obtain hd | hd := List.mem_append.mp hd
  · exact htiles.diagnostics path d hd
  · obtain ⟨e, he, rfl⟩ := List.mem_map.mp hd
    exact htiles.token path (hreported e he)

/-- The stretches of a source tile it up to where reading ended, and what is wrong with the source or
with the template in it is said about a range of the source. -/
theorem Template.parse_tiles (options : TemplateOptions) (path : Option String) (source : String) :
    (∃ final, Tiles options.lexer source.toList final (lex options.lexer source.toList)) ∧
      match Template.parse options path source with
      | .ok t => ∀ d ∈ t.diagnostics,
          RealSpan source.toList path d.span ∧ d.span.stop.before d.span.start = false
      | .error _ => True := by
  refine ⟨tiles_lex options.lexer source.toList, ?_⟩
  cases h : Template.parse options path source with
  | ok t =>
    intro d hd
    have hreal := Template.realSpan_of_parse h hd
    exact ⟨hreal, hreal.not_before⟩
  | error e => trivial

end Stencil

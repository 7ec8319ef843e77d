import Stencil.Proofs.Seam

/-!
# Writing tokens

Lexing undoes writing: tokens of code that are written behind each other, with one blank between
them, are cut into the same tokens again, in a script as in a block of code (`lex_written`). A string
may hold anything, and stand between quotes of either kind: what would close it, or end its line, has
a backslash in front of it, so that braces, comments and quotes in it are its own.
-/

namespace Stencil

/-! ## Lexemes -/

/-- The quotes that a string may stand between. -/
inductive Quote where
  | double
  | single
deriving DecidableEq

/-- A quote as a character. -/
def Quote.char : Quote → Char
  | .double => Text.doubleQuote
  | .single => Text.apostrophe

/-- The operators and the signs between expressions. -/
def signs : List Atom :=
  [⟨.eq, "=="⟩, ⟨.ne, "!="⟩, ⟨.le, "<="⟩, ⟨.ge, ">="⟩, ⟨.lt, "<"⟩, ⟨.gt, ">"⟩, ⟨.assign, "="⟩,
    ⟨.plus, "+"⟩, ⟨.minus, "-"⟩, ⟨.star, "*"⟩, ⟨.slash, "/"⟩, ⟨.percent, "%"⟩, ⟨.dot, "."⟩,
    ⟨.comma, ","⟩, ⟨.lparen, "("⟩, ⟨.rparen, ")"⟩, ⟨.lbracket, "["⟩, ⟨.rbracket, "]"⟩,
    ⟨.semicolon, ";"⟩]

/-- A token of code, with what is chosen when it is written. -/
inductive Lexeme where
  | word (name : String)
  | integer (digits : String)
  /-- digits on both sides of a point -/
  | float (whole part : String)
  /-- the arguments of an include, or one of them -/
  | argument (digits : String)
  | string (quote : Quote) (content : String)
  | sign (atom : Atom)
  | newline
deriving DecidableEq

/-- The token that is written. -/
def Lexeme.atom : Lexeme → Atom
  | .word name => .word name
  | .integer digits => ⟨.integer, digits⟩
  | .float whole part => ⟨.float, whole ++ "." ++ part⟩
  | .argument digits => ⟨.argument, digits⟩
  | .string _ content => ⟨.string, content⟩
  | .sign atom => atom
  | .newline => ⟨.newline, "\n"⟩

/-- How the token is written. -/
def Lexeme.spelling : Lexeme → List Char
  | .argument digits => '$' :: digits.toList
  | .string quote content => quote.char :: (escapeIn quote.char content.toList ++ [quote.char])
  | l => l.atom.value.toList

/-- Decimal digits of any script. -/
def AreDigits (text : String) : Prop := ∀ c ∈ text.toList, Text.isDecimal c = true

/-- What may be written as a token of code. Of strings nothing is asked. -/
def Lexeme.IsCode : Lexeme → Prop
  | .word name => IsIdentifier name
  | .integer digits => digits ≠ "" ∧ AreDigits digits
  | .float whole part => (whole ≠ "" ∧ AreDigits whole) ∧ part ≠ "" ∧ AreDigits part
  | .argument digits => AreDigits digits
  | .sign atom => atom ∈ signs
  | .string .. | .newline => True

/-- Tokens in a row, with one blank between them. -/
def written (ls : List Lexeme) : List Char := [' '].intercalate (ls.map Lexeme.spelling)

@[simp] theorem written_nil : written [] = [] := rfl

@[simp] theorem written_singleton (l : Lexeme) : written [l] = l.spelling := by
  simp [written, List.intercalate]

@[simp] theorem written_cons_cons (l m : Lexeme) (ls : List Lexeme) :
    written (l :: m :: ls) = l.spelling ++ ' ' :: written (m :: ls) := by
  simp [written, List.intercalate]

/-! ## One lexeme -/

/-- What may stand behind a lexeme: a blank, the braces that close a block, or nothing. -/
def Parted (rest : List Char) : Prop := ∀ d ∈ rest.head?, d = ' ' ∨ d = '\x7d'

theorem takeWhile_parted {p : Char → Bool} (hblank : p ' ' = false) (hbrace : p '\x7d' = false)
    {cs rest : List Char} (h : ∀ c ∈ cs, p c = true) (hrest : Parted rest) :
    (cs ++ rest).takeWhile p = cs := by
  cases rest with
  | nil => rw [List.takeWhile_append_of_pos h, List.takeWhile_nil, List.append_nil]
  | cons d rest =>
    refine takeWhile_append_cons h ?_ rest
    obtain rfl | rfl := hrest d rfl
    · exact hblank
    · exact hbrace

/-- A digit is not one of the characters that stand for themselves. -/
theorem toNat_of_isDecimal {c : Char} (h : Text.isDecimal c = true) :
    48 ≤ c.toNat ∧ (c.toNat ≤ 57 ∨ 128 ≤ c.toNat) := by
  rw [Text.isDecimal, Text.decimalValue?] at h
  split at h
  · next hrange =>
    simp only [Bool.and_eq_true, decide_eq_true_eq, Char.le_def, UInt32.le_iff_toNat_le] at hrange
    obtain ⟨hlow, hhigh⟩ := hrange
    have hlow : 48 ≤ c.toNat := hlow
    have hhigh : c.toNat ≤ 57 := hhigh
    omega
  split at h
  · cases h
  · next hascii => omega

/-- A lexeme is cut off in front of whatever may stand behind it. -/
structure Lexeme.IsCut (l : Lexeme) (c : Char) (cs : List Char) : Prop where
  spelling : l.spelling = c :: cs
  blank : isCodeBlank c = false
  brace : c ≠ '\x7d'
  scan (inBlock : Bool) {rest : List Char} : Parted rest →
    scanCode inBlock c (cs ++ rest) = (.token l.atom.kind l.atom.value, cs.length)

theorem isCut_of_toNat {l : Lexeme} {c : Char} {cs : List Char} (hspelling : l.spelling = c :: cs)
    (hc : 48 ≤ c.toNat) (hstart : Text.isDecimal c = true ∨ isNameStart c = true)
    (hscan : ∀ {rest}, Parted rest →
      (if Text.isDecimal c then scanNumber c (cs ++ rest)
        else (spelled .identifier (c :: (cs ++ rest).takeWhile isNamePart),
          ((cs ++ rest).takeWhile isNamePart).length)) =
        (.token l.atom.kind l.atom.value, cs.length)) : l.IsCut c cs where
  spelling := hspelling
  blank := isCodeBlank_of_toNat hc
  brace := by
    rintro rfl
    exact absurd hstart (by decide)
  scan inBlock rest hrest := by
    have hblock : scanCode inBlock c (cs ++ rest) = scanCode true c (cs ++ rest) := by
      have hhash : (c == '#') = false := by
        rw [beq_eq_false_iff_ne]
        rintro rfl
        exact absurd hc (by decide)
      rw [scanCode, scanCode, hhash, if_neg Bool.false_ne_true, if_neg Bool.false_ne_true]
    rw [hblock, scanCode_of_toNat hc hstart, hscan hrest]

theorem Lexeme.isCut_word {name : String} (h : IsIdentifier name) :
    ∃ c cs, (Lexeme.word name).IsCut c cs := by
  obtain ⟨c, cs, hname, hc, hcs⟩ := h
  have hrange := toNat_of_isNameStart hc
  refine ⟨c, cs, isCut_of_toNat hname (by omega) (.inr hc) fun hrest => ?_⟩
  rw [isDecimal_of_isNameStart hc, if_neg Bool.false_ne_true,
    takeWhile_parted (by decide) (by decide) hcs hrest, spelled, ← hname, String.ofList_toList]
  rfl

/-- Digits that no point follows are a whole number. -/
theorem scanNumber_digits {c : Char} {cs : List Char} (hcs : ∀ d ∈ cs, Text.isDecimal d = true)
    {rest : List Char} (hrest : Parted rest) :
    scanNumber c (cs ++ rest) = (spelled .integer (c :: cs), cs.length) := by
  simp only [scanNumber, takeWhile_parted (p := Text.isDecimal) (by decide) (by decide) hcs hrest,
    List.drop_left]
  cases rest with
  | nil => rfl
  | cons d rest => obtain rfl | rfl := hrest d rfl <;> rfl

/-- Digits on both sides of a point are a number with a point. -/
theorem scanNumber_point {c d : Char} {cs ds : List Char}
    (hcs : ∀ e ∈ cs, Text.isDecimal e = true) (hds : ∀ e ∈ d :: ds, Text.isDecimal e = true)
    {rest : List Char} (hrest : Parted rest) :
    scanNumber c ((cs ++ '.' :: d :: ds) ++ rest) =
      (spelled .float (c :: (cs ++ '.' :: d :: ds)), (cs ++ '.' :: d :: ds).length) := by
  obtain ⟨hd, hds⟩ := List.forall_mem_cons.mp hds
  rw [List.append_assoc, List.cons_append, List.cons_append]
  simp only [scanNumber, takeWhile_append_cons hcs (by decide : Text.isDecimal '.' = false),
    List.drop_left, hd, if_true,
    takeWhile_parted (p := Text.isDecimal) (by decide) (by decide) hds hrest, List.cons_append,
    List.length_append, List.length_cons, Prod.mk.injEq, true_and]
  omega

theorem Lexeme.isCut_integer {digits : String} (hne : digits ≠ "") (h : AreDigits digits) :
    ∃ c cs, (Lexeme.integer digits).IsCut c cs := by
  obtain ⟨c, cs, hdigits⟩ := List.exists_cons_of_ne_nil (mt String.toList_eq_nil_iff.mp hne)
  rw [AreDigits, hdigits] at h
  obtain ⟨hc, hcs⟩ := List.forall_mem_cons.mp h
  refine ⟨c, cs, isCut_of_toNat hdigits (toNat_of_isDecimal hc).1 (.inl hc) fun hrest => ?_⟩
  rw [if_pos hc, scanNumber_digits hcs hrest, spelled, ← hdigits, String.ofList_toList]
  rfl

theorem Lexeme.isCut_float {whole part : String} (hwhole : whole ≠ "") (h : AreDigits whole)
    (hpart : part ≠ "") (h' : AreDigits part) : ∃ c cs, (Lexeme.float whole part).IsCut c cs := by
  obtain ⟨c, cs, hw⟩ := List.exists_cons_of_ne_nil (mt String.toList_eq_nil_iff.mp hwhole)
  obtain ⟨d, ds, hp⟩ := List.exists_cons_of_ne_nil (mt String.toList_eq_nil_iff.mp hpart)
  rw [AreDigits, hw] at h
  rw [AreDigits, hp] at h'
  obtain ⟨hc, hcs⟩ := List.forall_mem_cons.mp h
  have hvalue : (whole ++ "." ++ part).toList = c :: (cs ++ '.' :: d :: ds) := by
    rw [String.toList_append, String.toList_append, hw, hp]
    simp
  refine ⟨c, cs ++ '.' :: d :: ds,
    isCut_of_toNat hvalue (toNat_of_isDecimal hc).1 (.inl hc) fun hrest => ?_⟩
  rw [if_pos hc, scanNumber_point hcs h' hrest, spelled, ← hvalue, String.ofList_toList]
  rfl

theorem Lexeme.isCut_argument {digits : String} (h : AreDigits digits) :
    (Lexeme.argument digits).IsCut '$' digits.toList where
  spelling := rfl
  blank := by decide
  brace := by decide
  scan inBlock rest hrest := by
    have hscan (cs : List Char) : scanCode inBlock '$' cs =
        (spelled .argument (cs.takeWhile Text.isDecimal), (cs.takeWhile Text.isDecimal).length) := rfl
    rw [hscan, takeWhile_parted (by decide) (by decide) h hrest, spelled, String.ofList_toList]
    rfl

theorem Lexeme.isCut_string (quote : Quote) (content : String) :
    (Lexeme.string quote content).IsCut quote.char
      (escapeIn quote.char content.toList ++ [quote.char]) where
  spelling := rfl
  blank := by cases quote <;> rfl
  brace := by cases quote <;> decide
  scan inBlock rest _ := by
    have hscan (cs : List Char) : scanCode inBlock quote.char cs = scanString quote.char cs := by
      cases quote <;> rfl
    have hslash : quote.char ≠ '\\' := by cases quote <;> decide
    have hfeed : quote.char ≠ '\n' := by cases quote <;> decide
    have hescaped : escaped quote.char = quote.char := by cases quote <;> rfl
    rw [hscan, List.append_assoc, List.singleton_append, scanString,
      stringBody?_escapeIn hslash hfeed]
    simp only [unescape_escapeIn hescaped, String.ofList_toList, List.length_append,
      List.length_singleton]
    rfl

theorem Lexeme.isCut_newline : Lexeme.newline.IsCut '\n' [] where
  spelling := rfl
  blank := rfl
  brace := by decide
  scan _ _ _ := rfl

/-- A sign does not take a blank or a brace with it. -/
theorem Lexeme.isCut_sign {atom : Atom} (h : atom ∈ signs) : ∃ c cs, (Lexeme.sign atom).IsCut c cs := by
  simp only [signs, List.mem_cons, List.not_mem_nil, or_false] at h
  rcases h with rfl | rfl | rfl | rfl | rfl | rfl | rfl | rfl | rfl | rfl | rfl | rfl | rfl | rfl |
      rfl | rfl | rfl | rfl | rfl <;>
    refine ⟨_, _, rfl, by decide, by decide, fun inBlock rest hrest => ?_⟩ <;>
    cases rest with
    | nil => rfl
    | cons d rest => obtain rfl | rfl := hrest d rfl <;> rfl

theorem Lexeme.IsCode.isCut {l : Lexeme} (h : l.IsCode) : ∃ c cs, l.IsCut c cs := by
  cases l with
  | word name => exact isCut_word h
  | integer digits => exact isCut_integer h.1 h.2
  | float whole part => exact isCut_float h.1.1 h.1.2 h.2.1 h.2.2
  | argument digits => exact ⟨_, _, isCut_argument h⟩
  | string quote content => exact ⟨_, _, isCut_string quote content⟩
  | sign atom => exact isCut_sign h
  | newline => exact ⟨_, _, isCut_newline⟩

/-! ## Rows of lexemes -/

variable {options : LexerOptions} {inside : Section} {atoms : List Atom}

/-- A section of code that no marker closes. -/
def Section.IsCode : Section → Prop
  | .code _ | .script => True
  | _ => False

/-- Outside the braces that close a block, a piece of code is what its characters say. -/
theorem lexFrom_code (hinside : inside.IsCode) {c : Char} {cs : List Char} (hc : c ≠ '\x7d')
    {kind : PieceKind} {more : Nat} (hscan : ∀ inBlock, scanCode inBlock c cs = (kind, more))
    (p : Position) :
    lexFrom options inside p (c :: cs) =
      let rest := lexFrom options inside (p.after (c :: cs.take more)) (cs.drop more)
      ⟨.piece ⟨kind, c :: cs.take more, p⟩ :: rest.items, rest.stop⟩ := by
  cases inside with
  | code opened =>
    refine lexFrom_piece ?_ (hscan true) opened p
    rw [beq_eq_false_iff_ne.mpr hc, Bool.false_and]
    exact Bool.false_ne_true
  | script =>
    have hpiece : nextPiece options .script p c cs = (kind, more, .script) := by
      simp only [nextPiece, hscan]
    exact lexFrom_cons Section.noConfusion hpiece
  | text | front | finished => exact False.elim hinside

theorem Lexeme.IsCode.cuts {l : Lexeme} (h : l.IsCode) (hinside : inside.IsCode) {rest : List Char}
    (hrest : Parted rest) (hcuts : ∀ p, (lexFrom options inside p rest).Cuts atoms) (p : Position) :
    (lexFrom options inside p (l.spelling ++ rest)).Cuts (l.atom :: atoms) := by
  obtain ⟨c, cs, hl⟩ := h.isCut
  rw [hl.spelling, List.cons_append, lexFrom_code hinside hl.brace (fun b => hl.scan b hrest) p,
    List.take_left, List.drop_left]
  exact (hcuts _).cons l.atom _ _ _

/-- Blanks in front of what is none are no token. -/
theorem cuts_blanks (hinside : inside.IsCode) {rest : List Char}
    (hrest : ∀ c ∈ rest.head?, isCodeBlank c = false)
    (hcuts : ∀ p, (lexFrom options inside p rest).Cuts atoms) (n : Nat) (p : Position) :
    (lexFrom options inside p (List.replicate n ' ' ++ rest)).Cuts atoms := by
  cases n with
  | zero => exact hcuts p
  | succ n =>
    have htake : (List.replicate n ' ' ++ rest).takeWhile isCodeBlank = List.replicate n ' ' := by
      have hblanks : ∀ c ∈ List.replicate n ' ', isCodeBlank c = true := by
        intro c hc
        rw [List.eq_of_mem_replicate hc]
        rfl
      rw [List.takeWhile_append_of_pos hblanks]
      cases rest with
      | nil => rw [List.takeWhile_nil, List.append_nil]
      | cons c rest =>
        rw [List.takeWhile_cons_of_neg (by simp [hrest c rfl]), List.append_nil]
    have hscan (inBlock : Bool) : scanCode inBlock ' ' (List.replicate n ' ' ++ rest) =
        (.blank, n) := by
      have hrun : scanCode inBlock ' ' (List.replicate n ' ' ++ rest) =
          (.blank, ((List.replicate n ' ' ++ rest).takeWhile isCodeBlank).length) := rfl
      rw [hrun, htake, List.length_replicate]
    have hdrop : (List.replicate n ' ' ++ rest).drop n = rest := by
      rw [List.drop_append_of_le_length (by simp), List.drop_replicate, Nat.sub_self,
        List.replicate_zero, List.nil_append]
    rw [List.replicate_succ, List.cons_append, lexFrom_code hinside (by decide) hscan p, hdrop]
    exact (hcuts _).blank _ _ _

/-- What is written begins with a lexeme, not with a blank. -/
theorem head_written {l : Lexeme} (h : l.IsCode) (ls : List Lexeme) (rest : List Char) :
    ∀ c ∈ (written (l :: ls) ++ rest).head?, isCodeBlank c = false := by
  obtain ⟨c, cs, hl⟩ := h.isCut
  have hhead : (written (l :: ls) ++ rest).head? = some c := by
    cases ls with
    | nil => rw [written_singleton, hl.spelling]; rfl
    | cons m ls => rw [written_cons_cons, hl.spelling]; rfl
  rw [hhead]
  rintro _ ⟨⟩
  exact hl.blank

/-- By induction on the row: each lexeme is cut off in front of the blank behind it. -/
theorem cuts_written (hinside : inside.IsCode) {ls : List Lexeme} (h : ∀ l ∈ ls, l.IsCode)
    {rest : List Char} (hrest : Parted rest)
    (hcuts : ∀ p, (lexFrom options inside p rest).Cuts atoms) (p : Position) :
    (lexFrom options inside p (written ls ++ rest)).Cuts (ls.map Lexeme.atom ++ atoms) := by
  induction ls generalizing p with
  | nil => exact hcuts p
  | cons l ls ih =>
    obtain ⟨hl, hls⟩ := List.forall_mem_cons.mp h
    cases ls with
    | nil =>
      rw [written_singleton]
      exact hl.cuts hinside hrest hcuts p
    | cons m ls =>
      rw [written_cons_cons, List.append_assoc]
      have hblank (cs : List Char) : Parted (' ' :: cs) := by
        rintro _ ⟨⟩
        exact .inl rfl
      refine hl.cuts hinside (hblank _) (fun p => ?_) p
      exact cuts_blanks hinside (head_written (hls m List.mem_cons_self) ls rest) (ih hls) 1 p

/-- The row in a block of code, with blanks in front of it and behind it. -/
def writtenBlock (front behind : Nat) (ls : List Lexeme) : List Char :=
  ['\x7b', '\x7b'] ++ (List.replicate front ' ' ++ (written ls ++ (List.replicate behind ' ' ++
    ['\x7d', '\x7d'])))

theorem cuts_writtenBlock {ls : List Lexeme} (h : ∀ l ∈ ls, l.IsCode) (front behind : Nat)
    (p : Position) : (lexFrom options .text p (writtenBlock front behind ls)).Cuts
      (.enter :: (ls.map Lexeme.atom ++ [.exit])) := by
  have hexit (q : Position) : (lexFrom options (.code p) q ['\x7d', '\x7d']).Cuts [.exit] := by
    rw [lexFrom_exit, lexFrom_nil]
    exact ⟨rfl, List.forall_mem_singleton.mpr rfl⟩
  have hbrace : ∀ c ∈ ['\x7d', '\x7d'].head?, isCodeBlank c = false := by
    rintro _ ⟨⟩
    rfl
  have hinside : (Section.code p).IsCode := trivial
  have hbehind := cuts_blanks hinside hbrace hexit behind
  have hparted : Parted (List.replicate behind ' ' ++ ['\x7d', '\x7d']) := by
    intro d hd
    cases behind <;> cases hd
    · exact .inr rfl
    · exact .inl rfl
  have hrow : (lexFrom options (.code p) (p.after ['\x7b', '\x7b'])
      (List.replicate front ' ' ++ (written ls ++ (List.replicate behind ' ' ++
        ['\x7d', '\x7d'])))).Cuts (ls.map Lexeme.atom ++ [.exit]) := by
    cases ls with
    | nil =>
      -- the blanks in front and behind are one run
      have hrun : List.replicate front ' ' ++ (written [] ++ (List.replicate behind ' ' ++
          ['\x7d', '\x7d'])) = List.replicate (front + behind) ' ' ++ ['\x7d', '\x7d'] := by
        rw [written_nil, List.nil_append, ← List.append_assoc, List.replicate_append_replicate]
      rw [hrun]
      exact cuts_blanks hinside hbrace hexit _ _
    | cons l ls =>
      exact cuts_blanks hinside (head_written (h l List.mem_cons_self) ls _)
        (cuts_written hinside h hparted hbehind) front _
  rw [writtenBlock, List.cons_append, List.cons_append, List.nil_append, lexFrom_enter]
  exact hrow.cons .enter _ _ _

/-! ## The round trip -/

/-- The text was lexed without a complaint as these tokens, and the end. -/
def Lexed.Says (l : Lexed) (atoms : List Atom) : Prop :=
  (∀ file, l.diagnostics file = []) ∧ l.tokens.map Token.atom = atoms ++ [⟨.eof, ""⟩]

theorem Lexed.Cuts.lexed {l : Lexed} (h : l.Cuts atoms) : l.Says atoms := by
  refine ⟨fun file => (h.clean file).1, ?_⟩
  obtain ⟨ts, p, htokens, hatoms⟩ := (h.clean none).2
  rw [htokens, List.map_append, hatoms]
  rfl

/-- Lexing undoes writing. Tokens of code that are written with one blank between them are the
tokens of the script that they make, and of the block of code that has them between its braces,
directly or with any blanks around them; and nothing is wrong with either. -/
theorem lex_written {ls : List Lexeme} (h : ∀ l ∈ ls, l.IsCode) (marker : String) :
    (lex ⟨.scriptOnly, marker⟩ (written ls)).Says (ls.map Lexeme.atom) ∧
      ∀ front behind, (lex ⟨.default, marker⟩ (writtenBlock front behind ls)).Says
        (.enter :: (ls.map Lexeme.atom ++ [.exit])) := by
  refine ⟨?_, fun front behind => (cuts_writtenBlock h front behind .start).lexed⟩
  have hnil (p : Position) : (lexFrom ⟨.scriptOnly, marker⟩ .script p []).Cuts [] := by
    rw [lexFrom_nil]
    exact ⟨rfl, fun _ h => nomatch h⟩
  have hend : Parted [] := by rintro _ ⟨⟩
  have hscript : Section.IsCode .script := trivial
  have hcuts := cuts_written hscript h hend hnil .start
  rw [List.append_nil, List.append_nil] at hcuts
  exact hcuts.lexed

/-- Strings that hold braces, comments, quotes, backslashes and line ends, between words and signs. -/
theorem lex_written_strings :
    let ls : List Lexeme := [.word "if", .string .double "\x7d\x7d # \"\\", .sign ⟨.eq, "=="⟩,
      .string .single "'\\n\n\r\x7b\x7b", .newline, .float "1" "50", .argument "", .argument "0"]
    (∀ l ∈ ls, l.IsCode) ∧
      String.ofList (written ls) =
        "if \"\x7d\x7d # \\\"\\\\\" == '\\'\\\\n\\n\r\x7b\x7b' \n 1.50 $ $0" ∧
      (lex ⟨.scriptOnly, "+++"⟩ (written ls)).Says (ls.map Lexeme.atom) ∧
      (lex ⟨.default, "+++"⟩ (writtenBlock 0 0 ls)).Says (.enter :: (ls.map Lexeme.atom ++ [.exit])) := by
  intro ls
  have hcode : ∀ l ∈ ls, l.IsCode := by
    have hdigits (text : String) (h : text.toList.all Text.isDecimal = true) : AreDigits text :=
      List.all_eq_true.mp h
    simp only [ls, List.forall_mem_cons]
    exact ⟨⟨_, _, rfl, rfl, List.all_eq_true.mp rfl⟩, trivial, (by decide : _ ∈ signs), trivial, trivial,
      ⟨⟨by decide, hdigits _ (by decide)⟩, by decide, hdigits _ (by decide)⟩,
      hdigits _ (by decide), hdigits _ (by decide), fun _ h => nomatch h⟩
  have hlex := lex_written hcode "+++"
  exact ⟨hcode, by decide, hlex.1, hlex.2 0 0⟩

end Stencil

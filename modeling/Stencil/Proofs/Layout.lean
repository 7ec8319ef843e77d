import Stencil.Proofs.Lexing
import Stencil.Proofs.Printing

/-!
# How printed templates are lexed

Lexing undoes `layout`. Every atom of code is cut off as one piece between the blank
in front of it and the next one (`Atom.IsCut`), so a source that is laid out as texts
and code in turn (`Lays`) has the tokens that it was laid out from, and nothing is
wrong with it. Printed pages are laid out so (`IsBody.lays`).
-/

namespace Stencil

/-! ## Characters -/

theorem toNat_of_isNameStart {c : Char} (h : isNameStart c = true) :
    (65 ≤ c.toNat ∧ c.toNat ≤ 122) := by
  have h : (decide (c.val ≥ 'A'.val ∧ c.val ≤ 'Z'.val) ||
      (decide (c.val ≥ 'a'.val) && decide (c.val ≤ 'z'.val)) || c == '_') = true := h
  simp only [Bool.or_eq_true, Bool.and_eq_true, decide_eq_true_eq, beq_iff_eq, ge_iff_le,
    UInt32.le_iff_toNat_le] at h
  rcases h with (⟨h, k⟩ | ⟨h, k⟩) | rfl
  · have h : 65 ≤ c.toNat := h
    have k : c.toNat ≤ 90 := k
    omega
  · have h : 97 ≤ c.toNat := h
    have k : c.toNat ≤ 122 := k
    omega
  · decide

theorem toNat_of_isDigit {c : Char} (h : c.isDigit = true) : 48 ≤ c.toNat ∧ c.toNat ≤ 57 := by
  simp only [Char.isDigit, Bool.and_eq_true, decide_eq_true_eq, ge_iff_le,
    UInt32.le_iff_toNat_le] at h
  exact h

theorem decimalValue?_of_isDigit {c : Char} (h : c.isDigit = true) :
    Text.decimalValue? c = some (c.toNat - 48) := by
  have hc := toNat_of_isDigit h
  have hrange : ('0' ≤ c && c ≤ '9') = true := by
    simp only [Bool.and_eq_true, decide_eq_true_eq, Char.le_def, UInt32.le_iff_toNat_le]
    exact hc
  rw [Text.decimalValue?, if_pos hrange]

theorem isDecimal_of_isDigit {c : Char} (h : c.isDigit = true) : Text.isDecimal c = true := by
  rw [Text.isDecimal, decimalValue?_of_isDigit h]
  rfl

theorem isDecimal_of_isNameStart {c : Char} (h : isNameStart c = true) :
    Text.isDecimal c = false := by
  have hc := toNat_of_isNameStart h
  have hrange : ('0' ≤ c && c ≤ '9') = false := by
    simp only [Bool.and_eq_false_iff, decide_eq_false_iff_not, Char.le_def, UInt32.le_iff_toNat_le]
    refine .inr fun hle => ?_
    have hle : c.toNat ≤ 57 := hle
    omega
  have hascii : c.toNat < 0x80 := by omega
  rw [Text.isDecimal, Text.decimalValue?, hrange, if_neg Bool.false_ne_true, if_pos hascii]
  rfl

/-- A character that is none of those which stand for themselves in code. -/
theorem isCodeBlank_of_toNat {c : Char} (h : 48 ≤ c.toNat) : isCodeBlank c = false := by
  have hne (d : Char) (hd : d.toNat < 48) : (c == d) = false := by
    rw [beq_eq_false_iff_ne]
    rintro rfl
    omega
  have hfeed : (c.toNat == 0x0c) = false := by
    rw [beq_eq_false_iff_ne]
    omega
  simp only [isCodeBlank, hne _ (by decide : (' ' : Char).toNat < 48),
    hne _ (by decide : ('\t' : Char).toNat < 48), hne _ (by decide : ('\r' : Char).toNat < 48),
    hfeed, Bool.or_false]

/-! ## Atoms of code -/

/-- The atom is laid out behind a blank, and in front of another one it is cut off as one
piece. -/
def Atom.IsCut (a : Atom) : Prop :=
  a.layout = ' ' :: a.spelling ∧ ∃ c cs, a.spelling = c :: cs ∧ isCodeBlank c = false ∧
    (c == '\x7d') = false ∧
    ∀ rest, scanCode true c (cs ++ ' ' :: rest) = (.token a.kind a.value, cs.length)

theorem takeWhile_append_cons {p : Char → Bool} {cs : List Char} (h : ∀ c ∈ cs, p c = true)
    {d : Char} (hd : p d = false) (rest : List Char) : (cs ++ d :: rest).takeWhile p = cs := by
  rw [List.takeWhile_append_of_pos h, List.takeWhile_cons_of_neg (by simp [hd]), List.append_nil]

/-- What starts with a digit is a number, and what starts with a letter or an underscore
is a word. -/
theorem scanCode_of_toNat {c : Char} (h : 48 ≤ c.toNat)
    (hc : Text.isDecimal c = true ∨ isNameStart c = true) (cs : List Char) :
    scanCode true c cs =
      if Text.isDecimal c then scanNumber c cs
      else (spelled .identifier (c :: cs.takeWhile isNamePart), (cs.takeWhile isNamePart).length) := by
  have hne (d : Char) (hd : d.toNat < 48) : (c == d) = false := by
    rw [beq_eq_false_iff_ne]
    rintro rfl
    omega
  simp only [scanCode, isCodeBlank_of_toNat h, hne '#' (by decide), hne '\n' (by decide),
    hne '$' (by decide), hne Text.doubleQuote (by decide), hne Text.apostrophe (by decide),
    Bool.or_false, Bool.false_eq_true, if_false]
  split
  · rfl
  · next hdecimal => rw [if_pos (hc.resolve_left hdecimal)]

theorem isCut_word {name : String} (h : IsIdentifier name) : (Atom.word name).IsCut := by
  obtain ⟨c, cs, hname, hc, hcs⟩ := h
  have hrange := toNat_of_isNameStart hc
  refine ⟨rfl, c, cs, hname, isCodeBlank_of_toNat (by omega), ?_, fun rest => ?_⟩
  · rw [beq_eq_false_iff_ne]
    rintro rfl
    exact absurd hc (by decide)
  · rw [scanCode_of_toNat (by omega) (.inr hc), isDecimal_of_isNameStart hc,
      if_neg Bool.false_ne_true, takeWhile_append_cons hcs (by decide), spelled, ← hname,
      String.ofList_toList]
    rfl

theorem isCut_integer {digits : String} {c : Char} {cs : List Char} (hd : digits.toList = c :: cs)
    (h : ∀ d ∈ c :: cs, d.isDigit = true) : (Atom.mk .integer digits).IsCut := by
  have hc := h c List.mem_cons_self
  have hrange := toNat_of_isDigit hc
  have hcs (d : Char) (hmem : d ∈ cs) : Text.isDecimal d = true :=
    isDecimal_of_isDigit (h d (List.mem_cons_of_mem c hmem))
  refine ⟨rfl, c, cs, hd, isCodeBlank_of_toNat (by omega), ?_, fun rest => ?_⟩
  · rw [beq_eq_false_iff_ne]
    rintro rfl
    exact absurd hc (by decide)
  · rw [scanCode_of_toNat (by omega) (.inl (isDecimal_of_isDigit hc)),
      if_pos (isDecimal_of_isDigit hc)]
    simp only [scanNumber, takeWhile_append_cons hcs (by decide : Text.isDecimal ' ' = false),
      List.drop_left, spelled]
    rw [← hd, String.ofList_toList]
    rfl

theorem isCut_float {digits : String} (h : IsDecimals digits) : (Atom.mk .float digits).IsCut := by
  obtain ⟨c, cs, d, ds, hdigits, hall⟩ := h
  have hdecimal (e : Char) (he : e ∈ c :: d :: (cs ++ ds)) : Text.isDecimal e = true :=
    isDecimal_of_isDigit (hall e he)
  have hc := hall c List.mem_cons_self
  have hrange := toNat_of_isDigit hc
  have hcs (e : Char) (he : e ∈ cs) : Text.isDecimal e = true := hdecimal e (by simp [he])
  have hds (e : Char) (he : e ∈ ds) : Text.isDecimal e = true := hdecimal e (by simp [he])
  refine ⟨rfl, c, cs ++ '.' :: d :: ds, hdigits, isCodeBlank_of_toNat (by omega), ?_, fun rest => ?_⟩
  · rw [beq_eq_false_iff_ne]
    rintro rfl
    exact absurd hc (by decide)
  · rw [scanCode_of_toNat (by omega) (.inl (isDecimal_of_isDigit hc)),
      if_pos (isDecimal_of_isDigit hc), List.append_assoc,
      List.cons_append, List.cons_append]
    simp only [scanNumber, takeWhile_append_cons hcs (by decide : Text.isDecimal '.' = false),
      List.drop_left, hdecimal d (by simp), if_true,
      takeWhile_append_cons hds (by decide : Text.isDecimal ' ' = false), spelled]
    rw [List.cons_append, ← hdigits, String.ofList_toList]
    simp only [List.length_append, List.length_cons, Prod.mk.injEq, true_and]
    omega

/-! ### Strings -/

/-- The characters of a string between two quotes of any kind, with a backslash before those that
cannot stand for themselves there. -/
def escapeIn (quote : Char) : List Char → List Char
  | [] => []
  | c :: cs =>
    if c = '\\' then '\\' :: '\\' :: escapeIn quote cs
    else if c = quote then '\\' :: quote :: escapeIn quote cs
    else if c = '\n' then '\\' :: 'n' :: escapeIn quote cs
    else c :: escapeIn quote cs

theorem escape_eq_escapeIn (cs : List Char) : escape cs = escapeIn Text.doubleQuote cs := by
  induction cs with
  | nil => rfl
  | cons c cs ih => rw [escape, escapeIn, ih]

/-- The first quote that no backslash takes with it is the one behind the string. -/
theorem stringBody?_escapeIn {quote : Char} (hslash : quote ≠ '\\') (hfeed : quote ≠ '\n')
    (cs rest : List Char) :
    stringBody? quote (escapeIn quote cs ++ quote :: rest) = some (escapeIn quote cs) := by
  induction cs with
  | nil =>
    rw [escapeIn, List.nil_append, stringBody?, beq_self_eq_true, if_pos rfl]
    exact fun _ _ h _ => hslash h
  | cons c cs ih =>
    rw [escapeIn]
    split
    · rw [List.cons_append, List.cons_append, stringBody?, if_neg (by decide), ih]
      rfl
    split
    · rw [List.cons_append, List.cons_append, stringBody?, if_neg (by simpa using hfeed), ih]
      rfl
    split
    · rw [List.cons_append, List.cons_append, stringBody?, if_neg (by decide), ih]
      rfl
    next hc hq hf =>
    have hquote : (c == quote) = false := beq_eq_false_iff_ne.mpr hq
    have hplain : (c == '\n' || c == '\\') = false := by
      rw [Bool.or_eq_false_iff]
      exact ⟨beq_eq_false_iff_ne.mpr hf, beq_eq_false_iff_ne.mpr hc⟩
    rw [List.cons_append, stringBody?, hquote, if_neg Bool.false_ne_true, hplain,
      if_neg Bool.false_ne_true, ih]
    · rfl
    · exact fun _ _ h _ => hc h

theorem unescape_escapeIn {quote : Char} (hquote : escaped quote = quote) (cs : List Char) :
    unescape (escapeIn quote cs) = cs := by
  induction cs with
  | nil => rfl
  | cons c cs ih =>
    rw [escapeIn]
    split
    · next h => rw [unescape, ih, h]; rfl
    split
    · next h => rw [unescape, ih, h, hquote]
    split
    · next h => rw [unescape, ih, h]; rfl
    next hslash _ _ =>
    rw [unescape, ih]
    exact fun _ _ h _ => hslash h

theorem stringBody?_escape (cs rest : List Char) :
    stringBody? Text.doubleQuote (escape cs ++ Text.doubleQuote :: rest) = some (escape cs) := by
  rw [escape_eq_escapeIn]
  exact stringBody?_escapeIn (by decide) (by decide) cs rest

theorem unescape_escape (cs : List Char) : unescape (escape cs) = cs := by
  rw [escape_eq_escapeIn]
  exact unescape_escapeIn rfl cs

theorem isCut_string (value : String) : (Atom.mk .string value).IsCut := by
  refine ⟨rfl, Text.doubleQuote, escape value.toList ++ [Text.doubleQuote], rfl, by decide,
    by decide, fun rest => ?_⟩
  have hscan (cs : List Char) :
      scanCode true Text.doubleQuote cs = scanString Text.doubleQuote cs := rfl
  rw [hscan, List.append_assoc, List.singleton_append, scanString, stringBody?_escape]
  simp only [unescape_escape, String.ofList_toList, List.length_append, List.length_singleton]

theorem isCut_argument {digits : String} (h : ∀ d ∈ digits.toList, d.isDigit = true) :
    (Atom.mk .argument digits).IsCut := by
  refine ⟨rfl, '$', digits.toList, rfl, by decide, by decide, fun rest => ?_⟩
  have hscan (cs : List Char) : scanCode true '$' cs =
      (spelled .argument (cs.takeWhile Text.isDecimal), (cs.takeWhile Text.isDecimal).length) := rfl
  rw [hscan, takeWhile_append_cons (fun d hd => isDecimal_of_isDigit (h d hd)) (by decide), spelled,
    String.ofList_toList]

/-! ### Numbers -/

theorem isDigit_of_mem_toString {n : Nat} {c : Char} (h : c ∈ (toString n).toList) :
    c.isDigit = true := by
  rw [Nat.toString_eq_repr, Nat.toList_repr] at h
  exact Nat.isDigit_of_mem_toDigits (by decide) (by decide) h

theorem decimalNumber_eq_ofDigitChars {cs : List Char} (h : ∀ c ∈ cs, c.isDigit = true) :
    Text.decimalNumber cs = Nat.ofDigitChars 10 cs 0 := by
  rw [Text.decimalNumber, Nat.ofDigitChars_eq_foldl]
  refine List.foldl_rel rfl fun c hc n m hnm => ?_
  rw [decimalValue?_of_isDigit (h c hc), hnm]
  rfl

/-- A number that may be read is read as itself. -/
theorem natural_toString {n : Nat} (h : n < 10 ^ digitLimit) :
    Grammar.natural (toString n).toList = .ok n := by
  have hlength : (Nat.toDigits 10 n).length ≤ digitLimit :=
    (Nat.length_toDigits_le_iff (by decide) (by decide)).mpr h
  rw [Grammar.natural, decimalNumber_eq_ofDigitChars fun _ => isDigit_of_mem_toString,
    Nat.toString_eq_repr, Nat.toList_repr, if_neg (Nat.not_lt.mpr hlength),
    Nat.ofDigitChars_ten_toDigits]

theorem isCut_natural (n : Nat) : (Atom.mk .integer (toString n)).IsCut := by
  cases hdigits : (toString n).toList with
  | nil =>
    rw [Nat.toString_eq_repr, Nat.toList_repr] at hdigits
    exact absurd hdigits Nat.toDigits_ne_nil
  | cons c cs => exact isCut_integer hdigits fun d hd => isDigit_of_mem_toString (hdigits ▸ hd)

/-! ### Signs -/

/-- The signs that stand between expressions. -/
def marks : List Atom :=
  [⟨.lparen, "("⟩, ⟨.rparen, ")"⟩, ⟨.lbracket, "["⟩, ⟨.rbracket, "]"⟩, ⟨.dot, "."⟩,
    ⟨.comma, ","⟩, ⟨.assign, "="⟩]

theorem isCut_of_mem_marks {a : Atom} (h : a ∈ marks) : a.IsCut := by
  simp only [marks, List.mem_cons, List.not_mem_nil, or_false] at h
  rcases h with rfl | rfl | rfl | rfl | rfl | rfl | rfl <;>
    exact ⟨rfl, _, _, rfl, by decide, by decide, fun _ => rfl⟩

theorem isCut_arithmetic (op : Arithmetic) : op.atom.IsCut := by
  cases op <;> exact ⟨rfl, _, _, rfl, by decide, by decide, fun _ => rfl⟩

theorem isCut_comparison (op : Comparison) : op.atom.IsCut := by
  cases op <;> exact ⟨rfl, _, _, rfl, by decide, by decide, fun _ => rfl⟩

/-! ## Sources -/

/-- Atoms as they stand in a source: in `code`, up to the braces that close it, or
outside of it, where texts stand. -/
inductive Lays : Bool → List Atom → Prop
  | nil : Lays false []
  | text {value : String} {atoms : List Atom} : IsText value →
      (atoms = [] ∨ (∃ rest, atoms = .enter :: rest) ∧ value.toList.getLast? ≠ some '\x7b') →
      Lays false atoms → Lays false (⟨.text, value⟩ :: atoms)
  | enter {atoms : List Atom} : Lays true atoms → Lays false (.enter :: atoms)
  | atom {a : Atom} {atoms : List Atom} : a.IsCut → Lays true atoms → Lays true (a :: atoms)
  | exit {atoms : List Atom} : Lays false atoms → Lays true (.exit :: atoms)

/-- A source was cut into atoms, without a complaint. -/
structure Lexed.Cuts (l : Lexed) (atoms : List Atom) : Prop where
  tokens : (l.items.filterMap LexItem.token?).map Token.atom = atoms
  problems : ∀ item ∈ l.items, item.problem? = none

theorem Lexed.Cuts.cons {l : Lexed} {atoms : List Atom} (h : l.Cuts atoms) (a : Atom)
    (lexeme : List Char) (p stop : Position) :
    Lexed.Cuts ⟨.piece ⟨.token a.kind a.value, lexeme, p⟩ :: l.items, stop⟩ (a :: atoms) where
  tokens := congrArg (a :: ·) h.tokens
  problems item hitem := by
    cases hitem with
    | head => rfl
    | tail _ hitem => exact h.problems item hitem

theorem Lexed.Cuts.blank {l : Lexed} {atoms : List Atom} (h : l.Cuts atoms) (lexeme : List Char)
    (p stop : Position) : Lexed.Cuts ⟨.piece ⟨.blank, lexeme, p⟩ :: l.items, stop⟩ atoms where
  tokens := h.tokens
  problems item hitem := by
    cases hitem with
    | head => rfl
    | tail _ hitem => exact h.problems item hitem

/-- The text in front of the next code block, or of the end. -/
theorem beforePair_append {b : Char} {cs rest : List Char} (h : ¬ [b, b] <:+: cs)
    (hrest : rest = [] ∨ (∃ more, rest = b :: b :: more) ∧ cs.getLast? ≠ some b) :
    beforePair b (cs ++ rest) = cs := by
  induction cs with
  | nil =>
    obtain rfl | ⟨⟨more, rfl⟩, -⟩ := hrest
    · rfl
    · simp [beforePair]
  | cons c cs ih =>
    have htail : ¬ [b, b] <:+: cs := fun hin => h (hin.trans (List.suffix_cons c cs).isInfix)
    have hpair : (c == b && (cs ++ rest).head? == some b) = false := by
      rw [Bool.and_eq_false_iff, beq_eq_false_iff_ne, beq_eq_false_iff_ne]
      by_cases hc : c = b
      · subst hc
        refine .inr fun hhead => ?_
        cases cs with
        | nil =>
          obtain rfl | ⟨-, hlast⟩ := hrest
          · cases hhead
          · exact hlast rfl
        | cons d ds =>
          cases hhead
          exact h ⟨[], ds, rfl⟩
      · exact .inl hc
    rw [List.cons_append, beforePair, hpair, if_neg Bool.false_ne_true, ih htail]
    refine hrest.imp id fun ⟨hmore, hlast⟩ => ⟨hmore, fun hl => hlast ?_⟩
    rw [List.getLast?_cons, hl]
    rfl

/-- What starts in code goes on behind a blank. -/
theorem Lays.layout_eq {atoms : List Atom} (h : Lays true atoms) :
    ∃ rest, layout atoms = ' ' :: rest := by
  cases h with
  | atom ha => exact ⟨_, by rw [layout, List.flatMap_cons, ha.1, List.cons_append]⟩
  | exit => exact ⟨_, rfl⟩

variable {options : LexerOptions}

/-- A blank in front of what is none. -/
theorem cuts_blank {opened p : Position} {c : Char} {cs : List Char} {atoms : List Atom}
    (hc : isCodeBlank c = false)
    (h : (lexFrom options (.code opened) (p.after [' ']) (c :: cs)).Cuts atoms) :
    (lexFrom options (.code opened) p (' ' :: c :: cs)).Cuts atoms := by
  have hpiece : nextPiece options (.code opened) p ' ' (c :: cs) = (.blank, 0, .code opened) := by
    have htake : (c :: cs).takeWhile isCodeBlank = [] := List.takeWhile_cons_of_neg (by simp [hc])
    have hscan : scanCode true ' ' (c :: cs) =
        (.blank, ((c :: cs).takeWhile isCodeBlank).length) := rfl
    have hexit : (' ' == '\x7d' && (c :: cs).head? == some '\x7d') = false := rfl
    simp only [nextPiece, hexit, Bool.false_eq_true, if_false, hscan, htake, List.length_nil]
  have hopen : Section.code opened ≠ .finished := nofun
  rw [lexFrom_cons hopen hpiece]
  exact h.blank _ _ _

/-- A text is cut off in front of the next code block. -/
theorem cuts_text {value : String} {atoms : List Atom} {p : Position} (htext : IsText value)
    (hnext : atoms = [] ∨
      (∃ rest, atoms = .enter :: rest) ∧ value.toList.getLast? ≠ some '\x7b')
    (h : ∀ p, (lexFrom options .text p (layout atoms)).Cuts atoms) :
    (lexFrom options .text p (layout (⟨.text, value⟩ :: atoms))).Cuts (⟨.text, value⟩ :: atoms) := by
  obtain ⟨c, cs, hvalue⟩ : ∃ c cs, value.toList = c :: cs := by
    cases hv : value.toList with
    | nil => exact absurd (String.toList_eq_nil_iff.mp hv) htext.1
    | cons c cs => exact ⟨c, cs, rfl⟩
  have hlayout : layout (⟨.text, value⟩ :: atoms) = c :: (cs ++ layout atoms) := by
    rw [layout, List.flatMap_cons, ← layout]
    show value.toList ++ _ = _
    rw [hvalue, List.cons_append]
  have hbefore : beforePair '\x7b' (c :: (cs ++ layout atoms)) = c :: cs := by
    rw [← List.cons_append, ← hvalue]
    refine beforePair_append htext.2 (hnext.imp ?_ ?_)
    · rintro rfl
      rfl
    · rintro ⟨⟨rest, rfl⟩, hlast⟩
      exact ⟨⟨layout rest, rfl⟩, hlast⟩
  have hpiece : nextPiece options .text p c (cs ++ layout atoms) =
      (.token .text value, cs.length, .text) := by
    simp only [nextPiece, hbefore, List.isEmpty_cons, Bool.false_eq_true, if_false, spelled,
      List.length_cons, Nat.add_sub_cancel]
    rw [← hvalue, String.ofList_toList]
  have hopen : Section.text ≠ .finished := nofun
  rw [hlayout, lexFrom_cons hopen hpiece, List.take_left, List.drop_left]
  exact (h _).cons ⟨.text, value⟩ _ _ _

/-- An atom of code is cut off behind the blank in front of it. -/
theorem cuts_atom {a : Atom} {atoms : List Atom} {opened p : Position} (ha : a.IsCut)
    (hrest : Lays true atoms)
    (h : ∀ p, (lexFrom options (.code opened) p (layout atoms)).Cuts atoms) :
    (lexFrom options (.code opened) p (layout (a :: atoms))).Cuts (a :: atoms) := by
  obtain ⟨hl, c, cs, hspelling, hblank, hbrace, hscan⟩ := ha
  obtain ⟨rest, hlayout⟩ := hrest.layout_eq
  have hsource : layout (a :: atoms) = ' ' :: c :: (cs ++ layout atoms) := by
    rw [layout, List.flatMap_cons, hl, hspelling, ← layout]
    rfl
  have hpiece (p : Position) : nextPiece options (.code opened) p c (cs ++ layout atoms) =
      (.token a.kind a.value, cs.length, .code opened) := by
    simp only [nextPiece, hbrace, Bool.false_and, Bool.false_eq_true, if_false, hlayout, hscan]
  have hopen : Section.code opened ≠ .finished := nofun
  rw [hsource]
  refine cuts_blank hblank ?_
  rw [lexFrom_cons hopen (hpiece _), List.take_left, List.drop_left]
  exact (h _).cons a _ _ _

/-- What was laid out is cut into the same atoms. -/
theorem Lays.cuts {code : Bool} {atoms : List Atom} (h : Lays code atoms) (opened p : Position) :
    (lexFrom options (if code then .code opened else .text) p (layout atoms)).Cuts atoms := by
  induction h generalizing opened p with
  | nil =>
    rw [layout, List.flatMap_nil, lexFrom_nil]
    exact ⟨rfl, fun _ h => nomatch h⟩
  | text htext hnext _ ih => exact cuts_text htext hnext (ih opened)
  | @enter atoms _ ih =>
    have hpiece : nextPiece options .text p '\x7b' ('\x7b' :: layout atoms) =
        (.token .codeEnter "\x7b\x7b", 1, .code p) := rfl
    have hopen : Section.text ≠ .finished := nofun
    show (lexFrom options .text p ('\x7b' :: '\x7b' :: layout atoms)).Cuts _
    rw [lexFrom_cons hopen hpiece]
    exact (ih p _).cons .enter _ _ _
  | atom ha hrest ih => exact cuts_atom ha hrest (ih opened)
  | @exit atoms _ ih =>
    have hpiece (p : Position) : nextPiece options (.code opened) p '\x7d' ('\x7d' :: layout atoms) =
        (.token .codeExit "\x7d\x7d", 1, .text) := rfl
    have hopen : Section.code opened ≠ .finished := nofun
    show (lexFrom options (.code opened) p (' ' :: '\x7d' :: '\x7d' :: layout atoms)).Cuts _
    refine cuts_blank (by decide) ?_
    rw [lexFrom_cons hopen (hpiece _)]
    exact (ih opened _).cons .exit _ _ _

/-- A source that was cut without a complaint: its tokens are the atoms, and the end. -/
theorem Lexed.Cuts.clean {l : Lexed} {atoms : List Atom} (h : l.Cuts atoms) (file : Option String) :
    l.diagnostics file = [] ∧ ∃ ts p, l.tokens = ts ++ [.eof p] ∧ ts.map Token.atom = atoms := by
  refine ⟨List.filterMap_eq_nil_iff.mpr fun item hitem => ?_, _, _, rfl, h.tokens⟩
  rw [h.problems item hitem]
  rfl

theorem lex_default (hmode : options.mode = .default) (cs : List Char) :
    lex options cs = lexFrom options .text .start cs := by
  simp only [Stencil.lex, hmode]

/-- A source without a complaint: its tokens are the atoms, and the end. -/
theorem Lays.lexes {atoms : List Atom} (h : Lays false atoms) (hmode : options.mode = .default)
    (file : Option String) :
    (lex options (layout atoms)).diagnostics file = [] ∧
      ∃ ts p, (lex options (layout atoms)).tokens = ts ++ [.eof p] ∧ ts.map Token.atom = atoms := by
  have hcuts : (lexFrom options .text .start (layout atoms)).Cuts atoms := h.cuts .start .start
  rw [lex_default hmode]
  exact hcuts.clean file

/-! ## Printed trees -/

theorem isCut_reserved {value : String} (h : value ∈ Grammar.reservedWords) :
    (Atom.word value).IsCut := by
  refine isCut_word ?_
  simp only [Grammar.reservedWords, List.mem_cons, List.not_mem_nil, or_false] at h
  rcases h with rfl | rfl | rfl | rfl | rfl | rfl | rfl | rfl | rfl | rfl | rfl <;>
    exact ⟨_, _, rfl, rfl, List.all_eq_true.mp rfl⟩

theorem isCut_unaryOperator (op : UnaryOperator) : op.atom.IsCut := by
  cases op with
  | negate => exact isCut_arithmetic .subtract
  | not => exact isCut_reserved (by decide)

theorem isCut_connective (op : Connective) : op.atom.IsCut := by
  cases op <;> exact isCut_reserved (by decide)

/-- All of the atoms are cut off. -/
def AllCut (atoms : List Atom) : Prop := ∀ a ∈ atoms, a.IsCut

namespace AllCut

variable {as bs : List Atom} {a : Atom}

theorem nil : AllCut [] := fun _ h => nomatch h

theorem cons (ha : a.IsCut) (has : AllCut as) : AllCut (a :: as) :=
  List.forall_mem_cons.mpr ⟨ha, has⟩

theorem append (has : AllCut as) (hbs : AllCut bs) : AllCut (as ++ bs) :=
  List.forall_mem_append.mpr ⟨has, hbs⟩

theorem enclosed (l : Grammar.Level) (e : Node) (has : AllCut as) : AllCut (enclosed l e as) := by
  unfold Stencil.enclosed
  split
  · exact has
  · exact cons (isCut_of_mem_marks (by decide))
      (has.append (cons (isCut_of_mem_marks (by decide)) nil))

end AllCut

variable {spell : Float → String}

theorem allCut_itemAtoms {items : List Node} (h : ∀ e ∈ items, AllCut (e.atoms spell)) :
    AllCut (itemAtoms spell items) := by
  induction items with
  | nil => exact .nil
  | cons e rest ih =>
    have he := h e List.mem_cons_self
    have hrest := ih fun d hd => h d (List.mem_cons_of_mem e hd)
    cases rest with
    | nil => simpa only [itemAtoms] using he
    | cons d rest =>
      rw [itemAtoms]
      · exact he.append (.cons (isCut_of_mem_marks (by decide)) hrest)
      · exact nofun

/-- What an expression is printed as is cut off piece by piece. -/
theorem IsExpression.allCut {e : Node} (h : IsExpression spell e) : AllCut (e.atoms spell) := by
  have close {as : List Atom} {a : Atom} (has : AllCut as) (ha : a ∈ marks) : AllCut (as ++ [a]) :=
    has.append (.cons (isCut_of_mem_marks ha) .nil)
  induction h with
  | null => exact .cons (isCut_reserved (by decide)) .nil
  | bool _ b => cases b <;> exact .cons (isCut_reserved (by decide)) .nil
  | int => exact .cons (isCut_natural _) .nil
  | float _ h => exact .cons (isCut_float h) .nil
  | text _ s => exact .cons (isCut_string s) .nil
  | arguments => exact .cons (isCut_argument fun _ h => nomatch h) .nil
  | argument => exact .cons (isCut_argument fun _ h => isDigit_of_mem_toString h) .nil
  | @name _ name h =>
    rw [Node.atoms]
    split
    · exact .cons (isCut_argument fun _ h => nomatch h) .nil
    · exact .cons (isCut_word h.1) .nil
  | list _ _ ih =>
    rw [Node.atoms]
    exact .cons (isCut_of_mem_marks (by decide)) (close (allCut_itemAtoms ih) (by decide))
  | member _ _ hname ih =>
    rw [Node.atoms]
    exact (ih.enclosed _ _).append
      (.cons (isCut_of_mem_marks (by decide)) (.cons (isCut_word hname) .nil))
  | item _ _ _ ih ihk =>
    rw [Node.atoms]
    exact (ih.enclosed _ _).append
      (.cons (isCut_of_mem_marks (by decide)) (close ihk (by decide)))
  | call _ _ _ ih iha =>
    rw [Node.atoms]
    exact (ih.enclosed _ _).append
      (.cons (isCut_of_mem_marks (by decide)) (close (allCut_itemAtoms iha) (by decide)))
  | unary _ op _ ih =>
    rw [Node.atoms]
    exact .cons (isCut_unaryOperator op) (ih.enclosed _ _)
  | arithmetic _ op _ _ ihl ihr =>
    rw [Node.atoms]
    exact (ihl.enclosed _ _).append (.cons (isCut_arithmetic op) (ihr.enclosed _ _))
  | compare _ op _ _ ihl ihr =>
    rw [Node.atoms]
    exact (ihl.enclosed _ _).append (.cons (isCut_comparison op) (ihr.enclosed _ _))
  | logic _ op _ _ ihl ihr =>
    rw [Node.atoms]
    exact (ihl.enclosed _ _).append (.cons (isCut_connective op) (ihr.enclosed _ _))

theorem Lays.append {as bs : List Atom} (hbs : Lays true bs) (has : AllCut as) :
    Lays true (as ++ bs) := by
  induction as with
  | nil => exact hbs
  | cons a as ih =>
    obtain ⟨ha, has⟩ := List.forall_mem_cons.mp has
    exact .atom ha (ih has)

theorem bodyAtoms_cons {n : Node} (h : n.isText = false) (rest : List Node) :
    bodyAtoms spell (n :: rest) = .enter :: (n.code spell ++ .exit :: bodyAtoms spell rest) := by
  rw [bodyAtoms]
  rintro _ _ _ rfl
  cases h

theorem isText_of_isBranch {n : Node} (h : n.isBranch = true) : n.isText = false := by
  cases n with
  | branch => rfl
  | _ => cases h

theorem elseCode_absent : Node.absent.elseCode spell = [.word "end"] := by
  unfold Node.elseCode
  rfl

/-- Behind the body of a condition there is another condition or a body. -/
theorem elseCode_block (spell : Float → String) (span : Span) (nodes : List Node) :
    (∃ n, nodes = [n] ∧ n.isBranch = true ∧
      (Node.block span nodes).elseCode spell = .word "else" :: n.code spell) ∨
    (Node.block span nodes).elseCode spell =
      .word "else" :: .exit :: (bodyAtoms spell nodes ++ [.enter, .word "end"]) := by
  unfold Node.elseCode
  split
  · next h =>
    cases h
    exact .inl ⟨_, rfl, rfl, rfl⟩
  · next h =>
    cases h
    exact .inr rfl
  · next h => exact absurd rfl (h _ _)

theorem Apart.tail {inside : Prop} {n : Node} {rest : List Node} (h : Apart inside (n :: rest)) :
    Apart inside rest := by
  cases rest with
  | nil => trivial
  | cons => exact h.2.2

/-- A text is followed by code, or by nothing. -/
theorem Apart.next {inside : Prop} {span : Span} {value : String} {number : Nat}
    {rest : List Node} {more : List Atom} (h : Apart inside (.text span value number :: rest))
    (hmore : more = [] ∨ inside ∧ ∃ others, more = .enter :: others) :
    bodyAtoms spell rest ++ more = [] ∨
      (∃ others, bodyAtoms spell rest ++ more = .enter :: others) ∧
        value.toList.getLast? ≠ some '\x7b' := by
  cases rest with
  | nil =>
    rw [bodyAtoms, List.nil_append]
    exact hmore.imp id fun ⟨hinside, hothers⟩ => ⟨hothers, h hinside⟩
  | cons n rest =>
    have hn : n.isText = false := by
      rw [Bool.eq_false_iff]
      exact fun hn => h.1 ⟨rfl, hn⟩
    rw [bodyAtoms_cons hn]
    exact .inr ⟨⟨_, rfl⟩, h.2.1⟩

/-- What a statement of code is printed as goes on with what may stand in code. -/
def Node.LaysCode (spell : Float → String) (n : Node) : Prop :=
  n.isText = false → ∀ atoms, Lays true atoms → Lays true (n.code spell ++ atoms)

theorem lays_bodyAtoms {inside : Prop} {nodes : List Node} {more : List Atom}
    (h : ∀ n ∈ nodes, IsStatement spell n ∧ n.LaysCode spell) (hapart : Apart inside nodes)
    (hmore : more = [] ∨ inside ∧ ∃ others, more = .enter :: others) (hlays : Lays false more) :
    Lays false (bodyAtoms spell nodes ++ more) := by
  induction nodes with
  | nil =>
    rw [bodyAtoms, List.nil_append]
    exact hlays
  | cons n rest ih =>
    obtain ⟨⟨hn, hcode⟩, hrest⟩ := List.forall_mem_cons.mp h
    have hlater := ih hrest hapart.tail
    cases hn with
    | text _ hvalue =>
      rw [bodyAtoms, List.cons_append]
      exact .text hvalue (hapart.next hmore) hlater
    | _ =>
      rw [bodyAtoms_cons rfl, List.cons_append, List.append_assoc]
      exact .enter (hcode rfl _ (.exit hlater))

/-- A body inside a block, and what its block goes on with. -/
theorem lays_inner {nodes : List Node} {atoms : List Atom}
    (h : ∀ n ∈ nodes, IsStatement spell n ∧ n.LaysCode spell) (hapart : Apart True nodes)
    (hlays : Lays true atoms) :
    Lays true (.exit :: (bodyAtoms spell nodes ++ .enter :: atoms)) :=
  .exit (lays_bodyAtoms h hapart (.inr ⟨trivial, _, rfl⟩) (.enter hlays))

theorem lays_otherwise {outer : Span} {otherwise : List Node} {atoms : List Atom}
    (h : ∀ n ∈ otherwise, IsStatement spell n ∧ n.LaysCode spell) (hapart : Apart True otherwise)
    (hlays : Lays true atoms) :
    Lays true ((Node.block outer otherwise).elseCode spell ++ atoms) := by
  obtain ⟨n, rfl, hn, hcode⟩ | hcode := elseCode_block spell outer otherwise
  · have hnext := (h n List.mem_cons_self).2 (isText_of_isBranch hn) atoms hlays
    rw [hcode]
    exact .atom (isCut_reserved (by decide)) hnext
  · have hend : Lays true (.word "end" :: atoms) := .atom (isCut_reserved (by decide)) hlays
    rw [hcode]
    simp only [List.cons_append, List.append_assoc, List.nil_append]
    exact .atom (isCut_reserved (by decide)) (lays_inner h hapart hend)

theorem IsStatement.laysCode {n : Node} (h : IsStatement spell n) : n.LaysCode spell := by
  induction h with
  | text => exact fun hn => nomatch hn
  | expression _ he =>
    intro _ atoms hlays
    rw [Node.code]
    exact hlays.append he.allCut
  | assign _ htarget he =>
    intro _ atoms hlays
    rw [Node.code]
    exact .atom (isCut_word htarget.1)
      (.atom (isCut_of_mem_marks (by decide)) (hlays.append he.allCut))
  | branch _ _ htest hbody hapart ih =>
    intro _ atoms hlays
    have hbodies := fun n hn => And.intro (hbody n hn) (ih n hn)
    have hend : Lays true (.word "end" :: atoms) := .atom (isCut_reserved (by decide)) hlays
    rw [Node.code, elseCode_absent]
    simp only [List.cons_append, List.append_assoc, List.nil_append]
    exact .atom (isCut_reserved (by decide)) ((lays_inner hbodies hapart hend).append htest.allCut)
  | @branchElse _ _ outer _ _ otherwise htest hbody hapart hother hapart' ih ih' =>
    intro _ atoms hlays
    have hbodies := fun n hn => And.intro (hbody n hn) (ih n hn)
    have helse : Lays true ((Node.block outer otherwise).elseCode spell ++ atoms) :=
      lays_otherwise (fun n hn => And.intro (hother n hn) (ih' n hn)) hapart' hlays
    rw [Node.code]
    simp only [List.cons_append, List.append_assoc]
    exact .atom (isCut_reserved (by decide)) ((lays_inner hbodies hapart helse).append htest.allCut)
  | loop _ _ htarget hsource hbody hapart ih =>
    intro _ atoms hlays
    have hbodies := fun n hn => And.intro (hbody n hn) (ih n hn)
    have hend : Lays true (.word "end" :: atoms) := .atom (isCut_reserved (by decide)) hlays
    rw [Node.code]
    simp only [List.cons_append, List.append_assoc, List.nil_append]
    exact .atom (isCut_reserved (by decide)) (.atom (isCut_word htarget.1)
      (.atom (isCut_reserved (by decide)) ((lays_inner hbodies hapart hend).append hsource.allCut)))

/-- A page is cut into the atoms that it was printed as. -/
theorem IsBody.lays {nodes : List Node} (h : IsBody spell nodes) :
    Lays false (pageAtoms spell nodes) := by
  cases nodes with
  | nil => exact .enter (.exit .nil)
  | cons n rest =>
    have hbody := fun m hm => And.intro (h.statements m hm) (h.statements m hm).laysCode
    have hlays := lays_bodyAtoms hbody h.apart (.inl rfl) .nil
    rwa [List.append_nil] at hlays

end Stencil

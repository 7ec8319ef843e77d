/-!
# Surrogates that stand alone

Two surrogates write one character. One of them alone is no character, yet text from
outside may hold it, and a format can make it of its number. It is kept as a stand-in: the
private character that is 0xF0000 further on. `codePoint` and `ofCodePoint` go between
stand-ins and numbers (`codePoint_ofCodePoint`), `readSurrogates` and `writeSurrogates`
between stand-ins and escapes.
-/

namespace Stencil.Text

/-- Whether a number belongs to the first surrogate of a pair. -/
def isFirstSurrogate (n : Nat) : Bool := 0xD800 ≤ n && n < 0xDC00

/-- Whether a number belongs to the second surrogate of a pair. -/
def isSecondSurrogate (n : Nat) : Bool := 0xDC00 ≤ n && n < 0xE000

/-- Whether a number belongs to a surrogate. -/
def isSurrogate (n : Nat) : Bool := isFirstSurrogate n || isSecondSurrogate n

/-- How far a stand-in is from its surrogate. -/
def standInDistance : Nat := 0xF0000

/-- The character of a number; that of a surrogate is its stand-in. -/
def ofCodePoint (n : Nat) : Char :=
  Char.ofNat (if isSurrogate n then n + standInDistance else n)

/-- The number of a character; that of a stand-in is its surrogate. -/
def codePoint (c : Char) : Nat :=
  let n := c.toNat - standInDistance
  if isSurrogate n then n else c.toNat

theorem toNat_ofCodePoint {n : Nat} (h : isSurrogate n = true) :
    (ofCodePoint n).toNat = n + standInDistance := by
  have surrogate := h
  simp only [isSurrogate, isFirstSurrogate, isSecondSurrogate, Bool.or_eq_true,
    Bool.and_eq_true, decide_eq_true_eq] at h
  have valid : (n + standInDistance).isValidChar := by
    simp only [Nat.isValidChar, standInDistance]
    omega
  rw [ofCodePoint, if_pos surrogate, Char.ofNat, dif_pos valid]
  rfl

theorem codePoint_ofCodePoint {n : Nat} (h : isSurrogate n = true) :
    codePoint (ofCodePoint n) = n := by
  simp [codePoint, toNat_ofCodePoint h, h]

/-! ## Escapes -/

/-- The number of a hexadecimal digit. -/
def hexDigit (c : Char) : Nat :=
  if c.isDigit then c.toNat - '0'.toNat else c.toLower.toNat - 'a'.toNat + 10

/-- The number that hexadecimal digits write. -/
def hexNumber (cs : List Char) : Nat := cs.foldl (fun n c => 16 * n + hexDigit c) 0

/-- Whether text begins with the escape of the second surrogate of a pair. -/
def beginsWithSecond : List Char → Bool
  | '\\' :: 'u' :: a :: b :: c :: d :: _ => isSecondSurrogate (hexNumber [a, b, c, d])
  | _ => false

/-- Text in which escapes may stand for characters, with stand-ins in place of the escapes
of surrogates that stand alone. `inPair` says that the first of a pair was just read. -/
def readEscapes (inPair : Bool) : List Char → List Char
  | '\\' :: 'u' :: a :: b :: c :: d :: rest =>
    let n := hexNumber [a, b, c, d]
    let first := isFirstSurrogate n && beginsWithSecond rest
    let paired := first || isSecondSurrogate n && inPair
    if isSurrogate n && !paired then ofCodePoint n :: readEscapes false rest
    else '\\' :: 'u' :: a :: b :: c :: d :: readEscapes first rest
  | '\\' :: c :: rest => '\\' :: c :: readEscapes false rest
  | c :: rest => c :: readEscapes false rest
  | [] => []

/-- Whether a character is the stand-in of a surrogate. -/
def isStandIn (c : Char) : Bool := isSurrogate (codePoint c)

/-- Text with escapes in place of stand-ins. -/
def writeEscapes (cs : List Char) : List Char :=
  cs.flatMap fun c =>
    if isStandIn c then '\\' :: 'u' :: Nat.toDigits 16 (codePoint c) else [c]

/-- The text with stand-ins that a text with escapes means. -/
def readSurrogates (s : String) : String :=
  if s.contains '\\' then String.ofList (readEscapes false s.toList) else s

/-- The text with escapes that means a text with stand-ins. -/
def writeSurrogates (s : String) : String :=
  if s.any isStandIn then String.ofList (writeEscapes s.toList) else s

end Stencil.Text

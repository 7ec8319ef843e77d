import Stencil.Value.Computation
import Stencil.Value.Key

/-!
# Filling in formats

A format is text with placeholders: a percent sign, perhaps a key in
parentheses, flags, a width, a precision, and a letter that says how the value
is written. Values come from a tuple in order, from a dictionary by key, or are
the one value there is.
-/

namespace Stencil

/-! ## Placeholders -/

/-- The marks of a placeholder. -/
structure Flags where
  left : Bool := false
  plus : Bool := false
  space : Bool := false
  alternate : Bool := false
  zero : Bool := false

/-- The flags with one more mark, if the character is one. -/
def Flags.add? (f : Flags) : Char → Option Flags
  | '-' => some { f with left := true }
  | '+' => some { f with plus := true }
  | ' ' => some { f with space := true }
  | '#' => some { f with alternate := true }
  | '0' => some { f with zero := true }
  | _ => none

/-- A placeholder but for its letter. -/
structure Placeholder where
  flags : Flags := {}
  width : Option Nat := none
  precision : Option Nat := none

/-- Takes flags. -/
def takeFlags (f : Flags) : List Char → Flags × List Char
  | [] => (f, [])
  | c :: cs =>
    match f.add? c with
    | some f => takeFlags f cs
    | none => (f, c :: cs)

/-- Takes decimal digits as a number. -/
def takeNumber (cs : List Char) : Nat × List Char :=
  let digits := cs.takeWhile Char.isDigit
  (digits.foldl (fun n c => 10 * n + (c.toNat - 0x30)) 0, cs.dropWhile Char.isDigit)

/-- Takes a key up to its closing parenthesis, with `depth` parentheses open
inside it. -/
def takeKey (depth : Nat) : List Char → Option (List Char × List Char)
  | [] => none
  | ')' :: cs =>
    match depth with
    | 0 => some ([], cs)
    | depth + 1 => (takeKey depth cs).map fun (key, rest) => (')' :: key, rest)
  | c :: cs =>
    (takeKey (if c = '(' then depth + 1 else depth) cs).map fun (key, rest) => (c :: key, rest)

/-! ## Values to fill in -/

/-- The values that are still to be filled in. -/
inductive Arguments where
  | queue (values : List Value)
  /-- the one value there is, until it is used -/
  | single (value : Option Value)

/-- The next value. -/
def Arguments.next : Arguments → Except Fault (Value × Arguments)
  | .queue (v :: vs) => .ok (v, .queue vs)
  | .single (some v) => .ok (v, .single none)
  | _ => .error .tooFewFormatArguments

/-- Whether values are left over. -/
def Arguments.leftOver : Arguments → Bool
  | .queue vs => !vs.isEmpty
  | .single v => v.isSome

/-- The value that a key names: lists have no keys, other values than
dictionaries and lists cannot be asked. -/
def formatValue (source : Value) (key : List Char) : Except Fault Value :=
  match source with
  | .dict _ entries =>
    let name := String.ofList key
    match Entries.get? (.text 0 name) entries with
    | some v => .ok v
    | none => .error (.missingKey name)
  | .list _ => .error (.listIndexNotInteger "str")
  | _ => .error .formatNeedsMapping

/-- Whether values are named by keys. -/
def takesKeys : Value → Bool
  | .dict _ _ | .list _ => true
  | _ => false

/-! ## Numbers -/

/-- The letters in capitals. -/
def capitals (cs : List Char) : List Char := cs.map Char.toUpper

/-- More places than a double has: behind them stand only zeros. -/
def exactPlaces : Nat := 1100

/-- One more than the largest precision. -/
def precisionLimit : Nat := Nat.pow 2 31

/-- The digits of a double, rounded to one digit and `places` more, and where the point
stands. -/
def Number.Dyadic.rounded (d : Number.Dyadic) (places : Nat) : List Char × Int :=
  let exact := min places exactPlaces
  let digits := d.scientific exact
  (digits.text ++ List.replicate (places - exact) '0', digits.point)

/-- Digits without final zeros; at least one digit stays. -/
def withoutFinalZeros (cs : List Char) : List Char :=
  match (cs.reverse.dropWhile (· == '0')).reverse with
  | [] => ['0']
  | kept => kept

/-- A double by a letter among `e`, `f` and `g`, in small letters. The largest
precision there is counts as none before an exponent. -/
def Number.Dyadic.byLetter (d : Number.Dyadic) (letter : Char) (precision : Nat)
    (alternate : Bool) : List Char :=
  let point (cs : List Char) : List Char := if cs.isEmpty && !alternate then [] else '.' :: cs
  let exponential (cs : List Char) (place : Int) : List Char :=
    cs.take 1 ++ point (cs.drop 1) ++ 'e' :: Number.exponentText (place - 1)
  match letter with
  | 'e' =>
    let (cs, place) := d.rounded (if precision + 1 = precisionLimit then 0 else precision)
    exponential cs place
  | 'f' =>
    let exact := min precision exactPlaces
    Number.pointed (d.fixed exact) exact ++ List.replicate (precision - exact) '0' ++
      if precision == 0 && alternate then ['.'] else []
  | _ =>
    let precision := max precision 1
    let places := if alternate then precision - 1 else min (precision - 1) exactPlaces
    let (digits, place) := d.rounded places
    let cs := if alternate then digits else withoutFinalZeros digits
    if place ≤ -4 || (precision : Int) < place then exponential cs place
    else if place ≤ 0 then '0' :: point (List.replicate (-place).toNat '0' ++ cs)
    else
      let whole := place.toNat
      cs.take whole ++ List.replicate (whole - cs.length) '0' ++ point (cs.drop whole)

/-- A double by a letter, with its sign. -/
def doubleByLetter (x : Float) (letter : Char) (p : Placeholder) : List Char :=
  let small := letter.toLower
  let digits :=
    match Number.Dyadic.ofFloat? x with
    | some d =>
      (if d.negative then ['-'] else []) ++
        d.byLetter small (p.precision.getD 6) p.flags.alternate
    | none => (Number.floatText x).toList
  if letter = small then digits else capitals digits

/-- An integer by a letter, with its sign and, in the alternate form, the mark
of its base. The three largest precisions leave no room for these. -/
def integerByLetter (n : Int) (letter : Char) (p : Placeholder) : Except Fault (List Char) := do
  if precisionLimit < p.precision.getD 0 + 4 then throw .precisionTooLarge
  let sign := if n < 0 then ['-'] else []
  let padded (cs : List Char) : List Char :=
    List.replicate (p.precision.getD 0 - cs.length) '0' ++ cs
  match letter with
  | 'o' =>
    return sign ++ (if p.flags.alternate then ['0', 'o'] else []) ++
      padded (Nat.toDigits 8 n.natAbs)
  | 'x' | 'X' =>
    let cs := sign ++ (if p.flags.alternate then ['0', 'x'] else []) ++
      padded (Nat.toDigits 16 n.natAbs)
    return if letter = 'X' then capitals cs else cs
  | _ => return sign ++ padded (← integerText n.natAbs).toList

/-- The integer that a value is written as. In bases other than ten a double is
refused, in base ten it is cut to its whole part. -/
def formatInteger (letter : Char) (v : Value) : Except Fault Int :=
  let based := letter = 'o' || letter = 'x' || letter = 'X'
  match v.numeric? with
  | some (.whole n) => .ok n
  | some (.double x) =>
    if based then .error (.formatNeedsInteger letter v.typeName)
    else
      match Number.Dyadic.ofFloat? x with
      | some d => .ok d.truncate
      | none => .error (if x.isNaN then .nanAsInteger else .infinityAsInteger)
  | none =>
    .error (if based then .formatNeedsInteger letter v.typeName
      else .formatNeedsNumber letter v.typeName)

/-- The double that a value is written as. -/
def formatDouble (v : Value) : Except Fault Float :=
  match v.numeric? with
  | some (.double x) => .ok x
  | some (.whole n) =>
    let x := Number.ofInt n
    if x.isInf then .error .integerTooLargeForFloat else .ok x
  | none => .error (.notReal v.typeName)

/-- The character that a value is: a text of one, or a code point. -/
def formatCharacter (v : Value) : Except Fault Char :=
  match v with
  | .text _ s =>
    match s.toList with
    | [c] => .ok c
    | _ => .error .badFormatCharacter
  | v =>
    match v.integer? with
    | none => .error .badFormatCharacter
    | some n =>
      if n < 0 || 0x110000 ≤ n then .error .formatCharacterOutOfRange
      else .ok (Text.ofCodePoint n.toNat)

/-! ## Layout -/

/-- Text set to the width. -/
def layText (p : Placeholder) (cs : List Char) : List Char :=
  let space := List.replicate (p.width.getD 0 - cs.length) ' '
  if p.flags.left then cs ++ space else space ++ cs

/-- A number set to the width. Zeros go between what stands before the digits
(the sign and the mark of a base, together `lead` characters) and the digits,
spaces outside. -/
def layNumber (p : Placeholder) (marked : Bool) (cs : List Char) : List Char :=
  let (sign, digits) :=
    match cs with
    | '-' :: rest => (['-'], rest)
    | cs => (if p.flags.plus then ['+'] else if p.flags.space then [' '] else [], cs)
  let mark := if marked then digits.take 2 else []
  let digits := if marked then digits.drop 2 else digits
  let gap := p.width.getD 0 - (sign.length + mark.length + digits.length)
  if p.flags.left then sign ++ mark ++ digits ++ List.replicate gap ' '
  else if p.flags.zero then sign ++ mark ++ List.replicate gap '0' ++ digits
  else List.replicate gap ' ' ++ sign ++ mark ++ digits

/-- Text in quotes with every character beyond ASCII escaped. -/
def escapeBeyondAscii (cs : List Char) : List Char :=
  cs.flatMap fun c => if c.toNat < 0x80 then [c] else Text.escaped (Text.codePoint c)

/-- What a value is converted to by a letter, before it is set to a width. -/
inductive Converted where
  | text (cs : List Char)
  /-- `marked` if a mark of the base stands before the digits -/
  | number (marked : Bool) (cs : List Char)

/-- A value converted for a placeholder with a letter that stands at `place`. -/
def Store.convert (s : Store) (p : Placeholder) (letter : Char) (place : Nat) (v : Value) :
    Except Fault Converted := do
  let cut (text : String) : List Char :=
    match p.precision with
    | some n => text.toList.take n
    | none => text.toList
  match letter with
  | 's' => return .text (cut (← s.bare v))
  | 'r' => return .text (cut (← s.quoted v))
  | 'a' => return .text (cut (String.ofList (escapeBeyondAscii (← s.quoted v).toList)))
  | 'd' | 'i' | 'u' =>
    return .number false (← integerByLetter (← formatInteger letter v) letter p)
  | 'o' | 'x' | 'X' =>
    let n ← formatInteger letter v
    return .number p.flags.alternate (← integerByLetter n letter p)
  | 'e' | 'E' | 'f' | 'F' | 'g' | 'G' =>
    return .number false (doubleByLetter (← formatDouble v) letter p)
  | 'c' => return .text [← formatCharacter v]
  | c => throw (.unsupportedFormat c place)

/-- A value filled in for a placeholder. -/
def Store.fill (s : Store) (p : Placeholder) (letter : Char) (place : Nat) (v : Value) :
    Except Fault (List Char) := do
  let converted ← s.convert p letter place v
  if sizeLimit ≤ p.width.getD 0 then throw .outOfMemory
  match converted with
  | .text cs => return layText p cs
  | .number marked cs => return layNumber p marked cs

/-! ## Reading a format -/

/-- One more than the largest width. -/
def widthLimit : Nat := Nat.pow 2 63

/-- Takes the next value as an integer, for a star. -/
def Arguments.star (arguments : Arguments) : Except Fault (Int × Arguments) := do
  let (v, arguments) ← arguments.next
  match v.integer? with
  | some n => return (n, arguments)
  | none => throw .starNeedsInteger

/-- Takes a width: digits, or a star for the next value. A negative one sets to
the left; the least there is has no positive counterpart and counts as none. -/
def takeWidth (p : Placeholder) (arguments : Arguments) (cs : List Char) :
    Except Fault (Placeholder × Arguments × List Char) := do
  match cs with
  | '*' :: rest =>
    let (n, arguments) ← arguments.star
    if n < -(widthLimit : Int) || (widthLimit : Int) ≤ n then throw .integerTooLargeForSize
    let flags := if n < 0 then { p.flags with left := true } else p.flags
    let width := if n.natAbs = widthLimit then 0 else n.natAbs
    return ({ p with flags, width := some width }, arguments, rest)
  | c :: _ =>
    if c.isDigit then
      let (n, rest) := takeNumber cs
      if widthLimit ≤ n then throw .widthTooBig
      return ({ p with width := some n }, arguments, rest)
    else return (p, arguments, cs)
  | [] => return (p, arguments, cs)

/-- Takes a precision: a point, then digits or a star for the next value. A
negative one is zero. -/
def takePrecision (p : Placeholder) (arguments : Arguments) (cs : List Char) :
    Except Fault (Placeholder × Arguments × List Char) := do
  match cs with
  | '.' :: '*' :: rest =>
    let (n, arguments) ← arguments.star
    if n < -(precisionLimit : Int) || (precisionLimit : Int) ≤ n then
      throw .integerTooLargeForPrecision
    return ({ p with precision := some n.toNat }, arguments, rest)
  | '.' :: rest =>
    let (n, rest) := takeNumber rest
    if precisionLimit ≤ n then throw .precisionTooBig
    return ({ p with precision := some n }, arguments, rest)
  | cs => return (p, arguments, cs)

/-- Takes a letter that says nothing: sizes of numbers do not matter. -/
def skipSize : List Char → List Char
  | 'h' :: cs | 'l' :: cs | 'L' :: cs => cs
  | cs => cs

/-- Takes a key, if one is given, and with it the value to fill in. -/
def takeSource (source : Value) (arguments : Arguments) (cs : List Char) :
    Except Fault (Arguments × List Char) := do
  match cs with
  | '(' :: rest =>
    if !takesKeys source then throw .formatNeedsMapping
    match takeKey 0 rest with
    | none => throw .incompleteFormatKey
    | some (key, rest) => return (.single (some (← formatValue source key)), rest)
  | cs => return (arguments, cs)

/-- Fills in the placeholder after a percent sign: what it writes, the values
left, and the rest of the format. `total` is the length of the format. -/
def Store.fillNext (s : Store) (total : Nat) (source : Value) (arguments : Arguments)
    (cs : List Char) : Except Fault (List Char × Arguments × List Char) := do
  let (arguments, cs) ← takeSource source arguments cs
  let (flags, cs) := takeFlags {} cs
  let (p, arguments, cs) ← takeWidth { flags } arguments cs
  let (p, arguments, cs) ← takePrecision p arguments cs
  match skipSize cs with
  | [] => throw .incompleteFormat
  | letter :: rest =>
    let (v, arguments) ← arguments.next
    return (← s.fill p letter (total - rest.length - 1) v, arguments, rest)

/-- The value whose text a format may hand on as it is: a format without percent
signs hands on itself, and one that is a single placeholder for text what it is given. -/
def handedOn? (format source : Value) (arguments : Arguments) : List Char → Option Value
  | '%' :: cs =>
    let given : Except Fault (Option Value) := do
      let (arguments, cs) ← takeSource source arguments cs
      let (flags, cs) := takeFlags {} cs
      let (p, arguments, cs) ← takeWidth { flags } arguments cs
      let (_, arguments, cs) ← takePrecision p arguments cs
      let (v, _) ← arguments.next
      let forText := [['s'], ['r'], ['a']].contains (skipSize cs)
      return if forText && !flags.plus && !flags.space then some v else none
    given.toOption.join
  | cs => if cs.contains '%' then none else some format

/-- Fills in a format from left to right. Two percent signs stand for one. `fuel`
bounds the number of pieces; the length of the format is enough. -/
def Store.fillAll (s : Store) (total : Nat) (source : Value) :
    Nat → Arguments → List Char → Except Fault (List Char × Arguments)
  | 0, arguments, _ => .ok ([], arguments)
  | fuel + 1, arguments, cs =>
    let plain := cs.takeWhile (· != '%')
    match cs.dropWhile (· != '%') with
    | [] => .ok (plain, arguments)
    | _ :: '%' :: rest => do
      let (more, arguments) ← s.fillAll total source fuel arguments rest
      return (plain ++ '%' :: more, arguments)
    | _ :: rest => do
      let (text, arguments, rest) ← s.fillNext total source arguments rest
      let (more, arguments) ← s.fillAll total source fuel arguments rest
      return (plain ++ text ++ more, arguments)

/-- The values that are to be filled in. -/
def Arguments.ofValue : Value → Arguments
  | .tuple _ items => .queue items
  | v => .single (some v)

/-- A format with its placeholders filled in. Values that are left over are a
fault, unless they are named by keys. -/
def formatText (format : String) (source : Value) : Computation String :=
  Computation.read fun s => do
    let cs := format.toList
    let (text, arguments) ← s.fillAll cs.length source (cs.length + 1) (.ofValue source) cs
    if arguments.leftOver && !takesKeys source then throw .tooManyFormatArguments
    return String.ofList text

/-- A format, which a value is, with its placeholders filled in. A text that is handed
on whole is the same object. -/
def formatted (value : Value) (format : String) (source : Value) : Computation Value := do
  let text ← formatText format source
  match handedOn? value source (.ofValue source) format.toList with
  | none => Computation.newText text
  | some v =>
    match Computation.shownBy? v text with
    | none => Computation.newText text
    | some shown => if text = (← Computation.bare v) then pure shown else Computation.newText text

end Stencil

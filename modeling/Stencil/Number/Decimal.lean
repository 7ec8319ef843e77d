import Stencil.Number.Binary

/-!
# Decimal text of doubles

`shortest` chooses digits: the fewest that read back as the same double and, of
those, the nearest. `scientific` and `fixed` round the exact value to a number
of digits or places, a half to the even digit. The layout functions below them
say where the point stands and when an exponent is written.
-/

namespace Stencil.Number

/-- The number of decimal digits of `n`; zero has one. -/
def digitCount (n : Nat) : Nat := (Nat.toDigits 10 n).length

/-- The decimal point of a positive quotient: the `p` with
`10 ^ (p - 1) ≤ num / den < 10 ^ p`. No double is below `10 ^ (-400)`. -/
def pointOf (num den : Nat) : Int :=
  (digitCount (num * Nat.pow 10 400 / den) : Int) - 400

/-- Decimal digits: the number `coefficient * 10 ^ (point - count)`, where
`coefficient` has `count` digits. -/
structure Digits where
  coefficient : Nat
  count : Nat
  point : Int
deriving DecidableEq

/-- The digits as text. -/
def Digits.text (d : Digits) : List Char :=
  let cs := Nat.toDigits 10 d.coefficient
  List.replicate (d.count - cs.length) '0' ++ cs

/-- The same number without final zeros; at least one digit stays. -/
def Digits.trim (d : Digits) : Digits :=
  let kept := (d.text.reverse.dropWhile (· == '0')).length
  let kept := max kept 1
  ⟨d.coefficient / Nat.pow 10 (d.count - kept), kept, d.point⟩

/-- The doubled interval of reals that round to a positive double: four times
its ends and its middle as numerators over one denominator, and whether the
ends belong to it. -/
structure Interval where
  low : Nat
  middle : Nat
  high : Nat
  denominator : Nat
  closed : Bool

/-- The reals that round to `mantissa * 2 ^ exponent`. The gap below a power of
two is half the gap above it. -/
def Dyadic.interval (d : Dyadic) : Interval :=
  let below := if d.mantissa == Nat.pow 2 52 && leastExponent < d.exponent then 1 else 2
  let e := d.exponent - 2
  let scale := if 0 ≤ e then Nat.pow 2 e.toNat else 1
  { low := (4 * d.mantissa - below) * scale
    middle := 4 * d.mantissa * scale
    high := (4 * d.mantissa + 2) * scale
    denominator := if 0 ≤ e then 1 else Nat.pow 2 (-e).toNat
    closed := d.mantissa % 2 == 0 }

/-- The decimal with `count` digits, the point at `point`, that lies in the
interval and nearest to its middle, if one does; a tie goes to the even digit. -/
def Interval.decimal? (i : Interval) (point : Int) (count : Nat) : Option Digits :=
  let place := point - count
  let up := if 0 ≤ place then 1 else Nat.pow 10 (-place).toNat
  let unit := if 0 ≤ place then Nat.pow 10 place.toNat * i.denominator else i.denominator
  let holds (c : Nat) : Bool :=
    if i.closed then i.low * up ≤ c * unit && c * unit ≤ i.high * up
    else i.low * up < c * unit && c * unit < i.high * up
  let c := i.middle * up / unit
  let rest := i.middle * up % unit
  let nearer := if 2 * rest < unit then c else if unit < 2 * rest then c + 1
    else if c % 2 == 0 then c else c + 1
  let other := if nearer == c then c + 1 else c
  if holds nearer then some ⟨nearer, count, point⟩
  else if holds other then some ⟨other, count, point⟩
  else none

/-- The fewest digits that read back as a positive double. Seventeen always
do. -/
def Dyadic.shortest (d : Dyadic) : Digits :=
  let i := d.interval
  let point := pointOf i.middle i.denominator
  match (List.range 17).findSome? fun k => i.decimal? point (k + 1) with
  | some digits =>
    -- a coefficient that reached the next power of ten has one digit too many
    if digits.coefficient == Nat.pow 10 digits.count then ⟨1, 1, point + 1⟩ else digits.trim
  | none => ⟨0, 1, 1⟩

/-- The exact value rounded to `places + 1` significant digits. -/
def Dyadic.scientific (d : Dyadic) (places : Nat) : Digits :=
  let (num, den) := d.ratio
  if num == 0 then ⟨0, places + 1, 1⟩
  else
    let point := pointOf num den
    let shift := (places : Int) + 1 - point
    let c := if 0 ≤ shift then roundDiv (num * Nat.pow 10 shift.toNat) den
      else roundDiv num (den * Nat.pow 10 (-shift).toNat)
    if c == Nat.pow 10 (places + 1) then ⟨c / 10, places + 1, point + 1⟩ else ⟨c, places + 1, point⟩

/-- The exact value rounded to `places` digits after the point. -/
def Dyadic.fixed (d : Dyadic) (places : Nat) : Nat :=
  let (num, den) := d.ratio
  roundDiv (num * Nat.pow 10 places) den

/-- An exponent with its sign and at least two digits. -/
def exponentText (e : Int) : List Char :=
  let cs := Nat.toDigits 10 e.natAbs
  (if e < 0 then '-' else '+') :: (List.replicate (2 - cs.length) '0' ++ cs)

/-- The digits with the point in its place, zeros filled in. -/
def Digits.positional (d : Digits) : List Char :=
  let cs := d.text
  if d.point ≤ 0 then '0' :: '.' :: (List.replicate (-d.point).toNat '0' ++ cs)
  else
    let whole := d.point.toNat
    if whole < cs.length then cs.take whole ++ '.' :: cs.drop whole
    else cs ++ List.replicate (whole - cs.length) '0' ++ ".0".toList

/-- The digits as one digit, the others after a point, and an exponent. -/
def Digits.exponential (d : Digits) : List Char :=
  let cs := d.text
  let rest := cs.drop 1
  cs.take 1 ++ (if rest.isEmpty then [] else '.' :: rest) ++ 'e' :: exponentText (d.point - 1)

/-- The text of a positive double: positional from `1e-4` up to sixteen whole
digits, exponential outside. -/
def Dyadic.text (d : Dyadic) : List Char :=
  if d.mantissa == 0 then "0.0".toList
  else
    let digits := d.shortest
    if -4 < digits.point && digits.point ≤ 16 then digits.positional else digits.exponential

/-- The text of a double. -/
def floatText (x : Float) : String :=
  match Dyadic.ofFloat? x with
  | some d => String.ofList ((if d.negative then ['-'] else []) ++ d.text)
  | none => if x.isNaN then "nan" else if x < 0 then "-inf" else "inf"

/-- `n` in decimal with a point before its last `places` digits. -/
def pointed (n places : Nat) : List Char :=
  let cs := Nat.toDigits 10 n
  let cs := List.replicate (places + 1 - cs.length) '0' ++ cs
  let whole := cs.length - places
  if places == 0 then cs else cs.take whole ++ '.' :: cs.drop whole

/-- The double that a decimal literal writes: the whole and the broken digits as
one number, of which `places` stand after the point. -/
def ofDecimal (digits places : Nat) : Float := ofRatio false digits (Nat.pow 10 places)

end Stencil.Number

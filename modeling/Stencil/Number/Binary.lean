/-!
# Doubles as exact numbers

A finite double is a whole number times a power of two. `Dyadic.ofFloat?` reads
that off the bits, and `ofRatio` is the way back: the double nearest to a
quotient of two natural numbers, a tie going to the even mantissa. Everything
that has to be exact about doubles (their decimal text, their order among the
integers, the remainder of a division) is done on these forms.
-/

namespace Stencil.Number

/-- The finite double `mantissa * 2 ^ exponent`, with its sign. -/
structure Dyadic where
  negative : Bool
  mantissa : Nat
  exponent : Int
deriving DecidableEq

/-- The least exponent of a double. -/
def leastExponent : Int := -1074

/-- The value of a finite double; none for an infinity and for no number. -/
def Dyadic.ofFloat? (x : Float) : Option Dyadic :=
  let bits : Nat := x.toBits.toNat
  let negative := bits / Nat.pow 2 63 == 1
  let biased : Nat := bits / Nat.pow 2 52 % Nat.pow 2 11
  let fraction : Nat := bits % Nat.pow 2 52
  if biased == 2047 then none
  else if biased == 0 then some ⟨negative, fraction, leastExponent⟩
  else some ⟨negative, Nat.pow 2 52 + fraction, (biased : Int) - 1075⟩

/-- A magnitude as a quotient: numerator and denominator. -/
def Dyadic.ratio (d : Dyadic) : Nat × Nat :=
  if 0 ≤ d.exponent then (d.mantissa * Nat.pow 2 d.exponent.toNat, 1)
  else (d.mantissa, Nat.pow 2 (-d.exponent).toNat)

/-- The sign applied to a natural number. -/
def withSign (negative : Bool) (n : Nat) : Int :=
  if negative then -(n : Int) else n

/-- `num / den` rounded to a whole number, a half to the even neighbour. -/
def roundDiv (num den : Nat) : Nat :=
  let quotient := num / den
  let rest := num % den
  if 2 * rest < den then quotient
  else if den < 2 * rest then quotient + 1
  else if quotient % 2 == 0 then quotient else quotient + 1

/-- The exponent of the double nearest to `num / den`, both positive: the one
that leaves a mantissa of 53 bits, but never below the least. -/
def exponentFor (num den : Nat) : Int :=
  let guess : Int := (num.log2 : Int) - den.log2
  let above :=
    if 0 ≤ guess then den * Nat.pow 2 guess.toNat ≤ num
    else den ≤ num * Nat.pow 2 (-guess).toNat
  max leastExponent ((if above then guess else guess - 1) - 52)

/-- The bits of the double nearest to `num / den`, the sign apart. What is too
large becomes infinity. -/
def magnitudeBits (num den : Nat) : Nat :=
  if num == 0 then 0
  else
    let e := exponentFor num den
    let mantissa :=
      if 0 ≤ e then roundDiv num (den * Nat.pow 2 e.toNat)
      else roundDiv (num * Nat.pow 2 (-e).toNat) den
    let bits := if mantissa < Nat.pow 2 52 then mantissa
      else (e + 1075).toNat * Nat.pow 2 52 + (mantissa - Nat.pow 2 52)
    min bits (2047 * Nat.pow 2 52)

/-- The double nearest to `num / den`, negated if asked, for a positive
denominator. -/
def ofRatio (negative : Bool) (num den : Nat) : Float :=
  Float.ofBits (UInt64.ofNat ((if negative then Nat.pow 2 63 else 0) + magnitudeBits num den))

/-- The double nearest to an integer; infinity when there is none. -/
def ofInt (n : Int) : Float := ofRatio (n < 0) n.natAbs 1

/-- The whole part of a finite double, toward zero. -/
def Dyadic.truncate (d : Dyadic) : Int :=
  let (num, den) := d.ratio
  withSign d.negative (num / den)

/-- Whether a finite double is a whole number. -/
def Dyadic.isWhole (d : Dyadic) : Bool :=
  let (num, den) := d.ratio
  num % den == 0

/-- The order of a finite double and an integer, exactly. -/
def Dyadic.compareInt (d : Dyadic) (n : Int) : Ordering :=
  let (num, den) := d.ratio
  compare (withSign d.negative num) (n * den)

/-- The remainder of two finite doubles, the divisor not zero, with the sign of
the dividend; it is a double, so nothing is rounded. -/
def Dyadic.remainder (x y : Dyadic) : Float :=
  let (xn, xd) := x.ratio
  let (yn, yd) := y.ratio
  ofRatio x.negative (xn * yd % (yn * xd)) (xd * yd)

end Stencil.Number

import Stencil.Value.Computation
import Stencil.Value.Format

/-!
# Arithmetic

Integers are exact and of any size; with a double on either side the result is
a double. Division always gives a double, correctly rounded; the remainder has
the sign of the divisor. Sequences can be joined and repeated, and text takes
anything when it is added to, and values to fill in when it is divided with
remainder.
-/

namespace Stencil

/-- The arithmetic operators. -/
inductive Arithmetic where
  | add
  | subtract
  | multiply
  | divide
  | remainder
deriving DecidableEq

/-- How an operator is written. -/
def Arithmetic.symbol : Arithmetic → String
  | .add => "+"
  | .subtract => "-"
  | .multiply => "*"
  | .divide => "/"
  | .remainder => "%"

/-- All arithmetic operators. -/
def Arithmetic.all : List Arithmetic := [.add, .subtract, .multiply, .divide, .remainder]

/-- The operator that is written so. -/
def Arithmetic.ofSymbol? (symbol : String) : Option Arithmetic :=
  Arithmetic.all.find? fun op => op.symbol == symbol

/-- The sequences that can be joined and repeated. -/
inductive Sequence where
  | text (text : String)
  | list (items : List Value)
  | tuple (items : List Value)

/-- The sequence a value is. -/
def Store.sequence? (s : Store) : Value → Option Sequence
  | .text _ t => some (.text t)
  | .list id => some (.list (s.contents id))
  | .tuple _ items => some (.tuple items)
  | _ => none

/-- One more than the largest length of a sequence. -/
def lengthLimit : Int := Nat.pow 2 63

/-- The double nearest to a number, unless it is too large for one. -/
def Numeric.toDouble : Numeric → Except Fault Float
  | .double x => .ok x
  | .whole n =>
    let x := Number.ofInt n
    if x.isInf then .error .integerTooLargeForFloat else .ok x

/-- The quotient of two integers, correctly rounded. A zero keeps the sign that
the signs of both sides give it. -/
def quotient (m n : Int) : Except Fault Float :=
  if n == 0 then .error .divisionByZero
  else
    let x := Number.ofRatio (decide (m < 0) != decide (n < 0)) m.natAbs n.natAbs
    if x.isInf then .error .quotientTooLarge else .ok x

/-- The remainder of two doubles, with the sign of the divisor. -/
def floatRemainder (x y : Float) : Except Fault Float :=
  if y == 0.0 then .error .floatModuloByZero
  else if x.isNaN || y.isNaN || x.isInf then .ok (0.0 / 0.0)
  else
    let rest :=
      match Number.Dyadic.ofFloat? x, Number.Dyadic.ofFloat? y with
      | some d, some e => d.remainder e
      | _, _ => x
    .ok (if rest == 0.0 then (if y < 0.0 then -0.0 else 0.0)
      else if decide (rest < 0.0) != decide (y < 0.0) then rest + y else rest)

/-- Arithmetic on two integers. -/
def Arithmetic.onIntegers (op : Arithmetic) (m n : Int) : Computation Value :=
  match op with
  | .add => Computation.newInt (m + n)
  | .subtract => Computation.newInt (m - n)
  | .multiply => Computation.newInt (m * n)
  | .divide => do Computation.newFloat (← Computation.ofExcept (quotient m n))
  | .remainder => if n == 0 then throw .integerModuloByZero else Computation.newInt (Int.fmod m n)

/-- Arithmetic on two doubles. -/
def Arithmetic.onDoubles (op : Arithmetic) (x y : Float) : Computation Value :=
  match op with
  | .add => Computation.newFloat (x + y)
  | .subtract => Computation.newFloat (x - y)
  | .multiply => Computation.newFloat (x * y)
  | .divide => if y == 0.0 then throw .floatDivisionByZero else Computation.newFloat (x / y)
  | .remainder => do Computation.newFloat (← Computation.ofExcept (floatRemainder x y))

/-- Arithmetic on two numbers. -/
def Arithmetic.onNumbers (op : Arithmetic) : Numeric → Numeric → Computation Value
  | .whole m, .whole n => op.onIntegers m n
  | m, n => do
    let x ← Computation.ofExcept m.toDouble
    let y ← Computation.ofExcept n.toDouble
    op.onDoubles x y

/-- Many copies of some parts, one after the other. -/
def repeated {α : Type} (count : Int) (parts : List α) : List α :=
  if parts.isEmpty then [] else (List.replicate count.toNat parts).flatten

/-- Many copies of a text, one after the other; each step doubles what is there. -/
def repeatedText (count : Nat) (text : String) : String :=
  if count = 0 then ""
  else
    let half := repeatedText (count / 2) text
    if count % 2 = 0 then half ++ half else half ++ half ++ text

theorem toList_repeatedText (count : Nat) (text : String) :
    (repeatedText count text).toList = (List.replicate count text.toList).flatten := by
  fun_induction repeatedText count text with
  | case1 => simp
  | case2 count _ half even ih =>
    have twice : count = count / 2 + count / 2 := by omega
    rw [twice, ← List.replicate_append_replicate, List.flatten_append, ← ih,
      String.toList_append]
  | case3 count _ half odd ih =>
    have twice : count = count / 2 + count / 2 + 1 := by omega
    rw [twice, ← List.replicate_append_replicate, ← List.replicate_append_replicate,
      List.flatten_append, List.flatten_append, ← ih]
    simp [half]

/-- A sequence repeated; a count below one empties it. -/
def Sequence.times (count : Int) : Sequence → Computation Value
  | .text t =>
    let length := count * t.length
    if lengthLimit ≤ length then throw .repetitionTooLong
    else if sizeLimit ≤ length then throw .outOfMemory
    else Computation.newText (if t = "" then "" else repeatedText count.toNat t)
  | .list items =>
    if itemLimit ≤ count * items.length then throw .outOfMemory
    else Computation.newList (repeated count items)
  | .tuple items =>
    if itemLimit ≤ count * items.length then throw .outOfMemory
    else Computation.newTuple (repeated count items)

/-- Whether a value is text. -/
def Value.isText : Value → Bool
  | .text _ _ => true
  | _ => false

/-- Whether a sequence can be changed, so that a copy is not as good as itself. -/
def Sequence.isList : Sequence → Bool
  | .list _ => true
  | _ => false

/-- A value that is a sequence repeated as often as another value says. Text and
tuples taken once are the same object. -/
def Sequence.timesValue (v count : Value) (s : Sequence) : Computation Value :=
  match count.integer? with
  | none => throw (.cannotRepeat count.typeName)
  | some n =>
    if n < -lengthLimit || lengthLimit ≤ n then throw .countTooLarge
    else if n == 1 && !s.isList then pure v
    else s.times n

/-- The texts that show two values, behind each other. Behind nothing, or in front of
it, a text is the same object. -/
def joinTexts (left : Value) (s : String) (right : Value) (t : String) : Computation Value :=
  if s = "" then Computation.textOf right t
  else if t = "" then Computation.textOf left s
  else Computation.newSpelling (s ++ t)

/-- A sequence, which a value is, followed by another of its kind. What stands
behind or in front of nothing is the same object, unless it is a list. -/
def Sequence.followedBy (value : Value) (left : Sequence) (other : Value)
    (right : Option Sequence) : Computation Value :=
  match left, right with
  | .text s, some (.text t) => joinTexts value s other t
  | .list xs, some (.list ys) => Computation.newList (xs ++ ys)
  | .tuple [], some (.tuple _) => pure other
  | .tuple _, some (.tuple []) => pure value
  | .tuple xs, some (.tuple ys) => Computation.newTuple (xs ++ ys)
  | .text _, _ => throw (.cannotConcatenate "str" other.typeName)
  | .list _, _ => throw (.cannotConcatenate "list" other.typeName)
  | .tuple _, _ => throw (.cannotConcatenate "tuple" other.typeName)

/-- The sum of two values, where text adds only to text. -/
def Value.plus (left right : Value) : Computation Value := do
  match left.numeric?, right.numeric? with
  | some m, some n => Arithmetic.add.onNumbers m n
  | _, _ =>
    let s ← get
    match s.sequence? left with
    | some sequence => sequence.followedBy left right (s.sequence? right)
    | none => throw (.unsupported "+" left.typeName right.typeName)

/-- The product of two values. -/
def Value.times (left right : Value) : Computation Value := do
  match left.numeric?, right.numeric? with
  | some m, some n => Arithmetic.multiply.onNumbers m n
  | _, _ =>
    let s ← get
    match s.sequence? left, s.sequence? right with
    | some sequence, _ => sequence.timesValue left right
    | none, some sequence => sequence.timesValue right left
    | none, none => throw (.unsupported "*" left.typeName right.typeName)

/-- A numeric operator on two values. -/
def Arithmetic.onValues (op : Arithmetic) (left right : Value) : Computation Value :=
  match left.numeric?, right.numeric? with
  | some m, some n => op.onNumbers m n
  | _, _ => throw (.unsupported op.symbol left.typeName right.typeName)

/-- The number of digits of an integer and the first of them, in base 2^30, in which
integers are reckoned with. -/
def largeDigits (n : Int) : Nat × Nat :=
  let count := if n == 0 then 0 else n.natAbs.log2 / 30 + 1
  (count, n.natAbs >>> (30 * (count - 1)))

/-- Whether the remainder of two integers is the first of them as an object: the
first digits alone must show that there is nothing to divide. -/
def leavesDividend (m n : Int) : Bool :=
  let (count, first) := largeDigits m
  let (otherCount, otherFirst) := largeDigits n
  1 < otherCount && (count < otherCount || count == otherCount && first < otherFirst) &&
    Int.fmod m n == m

/-- An operator of a template. Adding to text shows the other side as text. -/
def Arithmetic.apply (op : Arithmetic) (left right : Value) : Computation Value :=
  match op with
  | .add => do
    if left.isText || right.isText then
      let s ← Computation.display left
      joinTexts left s right (← Computation.display right)
    else left.plus right
  | .multiply => left.times right
  | .remainder =>
    match left, right with
    | .text _ format, _ => formatted left format right
    | .int _ m, .int _ n =>
      if leavesDividend m n then pure left else op.onValues left right
    | _, _ => op.onValues left right
  | op => op.onValues left right

/-- The negative of a number. -/
def Value.negate (v : Value) : Computation Value :=
  match v.numeric? with
  | some (.whole n) => Computation.newInt (-n)
  | some (.double x) => Computation.newFloat (-x)
  | none => throw (.cannotNegate v.typeName)

end Stencil

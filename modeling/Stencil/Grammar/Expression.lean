import Stencil.Grammar.Cursor
import Stencil.Node
import Stencil.Text.Digit

/-!
# Reading expressions

From the loosest to the tightest: `or`, `and`, `not`, one comparison, sums,
products, the sign, and what stands behind a name: members, items, calls.
Expressions inside brackets, and the operands of `not` and of the sign, lie one
level deeper than what holds them. A reader of one level is built from the
reader of the next; the levels end where the limit is.
-/

namespace Stencil.Grammar

/-- The words that no name may be. -/
def reservedWords : List String :=
  ["if", "for", "else", "end", "in", "and", "or", "not", "true", "false", "null"]

/-- The words that are values. -/
def literal? (word : String) : Option Value :=
  if word = "true" then some (.bool true)
  else if word = "false" then some (.bool false)
  else if word = "null" then some .null
  else none

/-- A sign that compares. -/
def comparison? (t : Token) : Option Comparison :=
  match t.kind with
  | .eq => some .eq
  | .ne => some .ne
  | .lt => some .lt
  | .le => some .le
  | .gt => some .gt
  | .ge => some .ge
  | _ => none

/-- A sign between the parts of a sum. -/
def additive? (t : Token) : Option Arithmetic :=
  match t.kind with
  | .plus => some .add
  | .minus => some .subtract
  | _ => none

/-- A sign between the parts of a product. -/
def multiplicative? (t : Token) : Option Arithmetic :=
  match t.kind with
  | .star => some .multiply
  | .slash => some .divide
  | .percent => some .remainder
  | _ => none

/-- A word as a sign. -/
def word? (word : String) (t : Token) : Option Unit :=
  if t.isWord word then some () else none

/-- The natural number that digits write, unless there are too many. -/
def natural (digits : List Char) : Except Fault Nat :=
  if digitLimit < digits.length then .error (.tooManyDigitsToRead digits.length)
  else .ok (Text.decimalNumber digits)

/-- The double that digits with a point write. -/
def decimal (digits : List Char) : Float :=
  let broken := (digits.dropWhile (· != '.')).drop 1
  Number.ofDecimal (Text.decimalNumber (digits.filter (· != '.'))) broken.length

/-- The number of a token. -/
def numberOf (t : Token) : Reader Nat :=
  match natural t.value.toList with
  | .ok n => return n
  | .error e => throw (.fault e)

/-- Where one level enters the next. -/
inductive Entry where
  | expression
  | negation
  | sign

/-- The readers of the next level. -/
abbrev Inner := Entry → Reader Node

/-- Reads expressions with commas between them up to a closing sign. -/
def readItems (inner : Inner) (closing : Closing) : Nat → Reader (List Node)
  | 0 => return []
  | fuel + 1 => do
    let item ← inner .expression
    if (← current).kind == .comma then
      let _ ← advance
      return item :: (← readItems inner closing fuel)
    else
      let _ ← expect closing.kind (.expectedSeparator closing)
      return [item]

/-- Reads what stands between brackets, up to the closing sign. -/
def readSequence (inner : Inner) (closing : Closing) : Reader (List Node) := do
  if (← current).kind == closing.kind then
    let _ ← advance
    return []
  else readItems inner closing (← get).rest.length

/-- Reads a name, or a word that is a value. -/
def readWord (o : Options) (t : Token) : Reader Node := do
  match literal? t.value with
  | some v =>
    let _ ← advance
    return .const (← spanFrom o t) v
  | none =>
    if t.value ∈ reservedWords then fail (.keywordInExpression t.value)
    else
      let _ ← advance
      return .name (← spanFrom o t) t.value

/-- Reads the arguments of an include, or one of them. -/
def readArgument (o : Options) (t : Token) : Reader Node := do
  let _ ← advance
  let span ← spanFrom o t
  if t.value = "" then return .name span argumentsName
  else return .argument span (← numberOf t)

/-- Reads an expression without signs: a literal, a name, or brackets. -/
def readPrimary (o : Options) (inner : Inner) : Reader Node := do
  let t ← current
  match t.kind with
  | .integer =>
    let _ ← advance
    let span ← spanFrom o t
    return .const span (.int 0 (← numberOf t))
  | .float =>
    let _ ← advance
    return .const (← spanFrom o t) (.float 0 (decimal t.value.toList))
  | .string =>
    let _ ← advance
    return .const (← spanFrom o t) (.text 0 t.value)
  | .argument => readArgument o t
  | .identifier => readWord o t
  | .lparen =>
    let _ ← advance
    let e ← inner .expression
    let _ ← expect .rparen (.expectedClosing .paren)
    return e
  | .lbracket =>
    let _ ← advance
    let items ← readSequence inner .bracket
    return .list (← spanFrom o t) items
  | .codeExit | .eof | .newline => fail .statementOver
  | _ => fail (.unexpected t.value)

/-- Reads members, items and calls behind an expression that began with `start`.
`fuel` bounds their number. -/
def readSuffixes (o : Options) (inner : Inner) (start : Token) : Nat → Node → Reader Node
  | 0, e => return e
  | fuel + 1, e => do
    match (← current).kind with
    | .dot =>
      let _ ← advance
      let name ← expect .identifier .expectedMember
      let span ← spanFrom o start
      readSuffixes o inner start fuel (.member span e name.value)
    | .lbracket =>
      let _ ← advance
      let key ← inner .expression
      let _ ← expect .rbracket (.expectedClosing .bracket)
      let span ← spanFrom o start
      readSuffixes o inner start fuel (.item span e key)
    | .lparen =>
      let _ ← advance
      let arguments ← readSequence inner .paren
      let span ← spanFrom o start
      readSuffixes o inner start fuel (.call span e arguments)
    | _ => return e

/-- Reads an expression with members, items and calls behind it. -/
def readPostfix (o : Options) (inner : Inner) : Reader Node := do
  let start ← current
  let e ← readPrimary o inner
  readSuffixes o inner start (← get).rest.length e

/-- Reads an expression with signs in front of it. -/
def readSign (o : Options) (inner : Inner) : Reader Node := do
  let start ← current
  if start.kind == .minus then
    let _ ← advance
    let operand ← inner .sign
    return .unary (← spanFrom o start) .negate operand
  else readPostfix o inner

/-- Reads a product. -/
def readProduct (o : Options) (inner : Inner) : Reader Node :=
  chain o multiplicative? (readSign o inner) .arithmetic

/-- Reads a sum. -/
def readSum (o : Options) (inner : Inner) : Reader Node :=
  chain o additive? (readProduct o inner) .arithmetic

/-- Reads one comparison at most. -/
def readComparison (o : Options) (inner : Inner) : Reader Node := do
  let start ← current
  let left ← readSum o inner
  match comparison? (← current) with
  | none => return left
  | some op =>
    let _ ← advance
    let right ← readSum o inner
    return .compare (← spanFrom o start) op left right

/-- Reads an expression with `not` in front of it. -/
def readNegation (o : Options) (inner : Inner) : Reader Node := do
  let start ← current
  if start.isWord "not" then
    let _ ← advance
    let operand ← inner .negation
    return .unary (← spanFrom o start) .not operand
  else readComparison o inner

/-- Reads expressions with `and` between them. -/
def readAnd (o : Options) (inner : Inner) : Reader Node :=
  chain o (word? "and") (readNegation o inner) fun span _ => .logic span .and

/-- Reads expressions with `or` between them. -/
def readOr (o : Options) (inner : Inner) : Reader Node :=
  chain o (word? "or") (readAnd o inner) fun span _ => .logic span .or

/-- The readers with `levels` levels to go. -/
def readLevel (o : Options) : Nat → Inner
  | 0, _ => fail (.tooDeep o.depthLimit)
  | levels + 1, .expression => readOr o (readLevel o levels)
  | levels + 1, .negation => readNegation o (readLevel o levels)
  | levels + 1, .sign => readSign o (readLevel o levels)

/-- Reads an expression. -/
def readExpression (o : Options) : Reader Node :=
  readLevel o o.depthLimit.toNat .expression

end Stencil.Grammar

import Stencil.Proofs.Completeness
import Stencil.Proofs.Mirroring

/-!
# Counting open levels

How deep an expression may nest is said by the number of levels that its readers have to go. Here
templates are read once more with a counter in the state: `descend` adds one to it where a level is
opened, refuses a level beyond the limit, and takes one away again on whatever exit. Marks are made
of what the counter is on the way (`Mark`). Otherwise the readers are those of the grammar, step for
step; that both come to the same is shown behind them.
-/

namespace Stencil

/-- A problem that is not about depth. -/
def Problem.IsShallow : Problem → Prop
  | .tooDeep _ => False
  | _ => True

namespace Grammar

variable {α β : Type}

/-! ## Syntax errors about depth -/

theorem isTooDeep_iff {e : SyntaxError} :
    IsTooDeep e ↔ e.message = "Expression is nested too deeply" :=
  ⟨fun ⟨_, h⟩ => h, fun h => ⟨0, h⟩⟩

instance : DecidablePred IsTooDeep := fun _ => decidable_of_iff' _ isTooDeep_iff

/-- How many of the syntax errors say that an expression is nested too deeply. -/
def tooDeepIn (es : List SyntaxError) : Nat := es.countP fun e => IsTooDeep e

/-- Other problems are worded otherwise, from the first letters on. -/
theorem not_isTooDeep {p : Problem} (h : p.IsShallow) (t : Token) : ¬ IsTooDeep (p.at t) := by
  have hfront (front rest : String) (hp : p.message = front ++ rest)
      (hf : ¬ front.toList <+: "Expression is nested too deeply".toList) : ¬ IsTooDeep (p.at t) := by
    refine fun he => hf ?_
    rw [← isTooDeep_iff.mp he, Problem.at, hp, String.toList_append]
    exact List.prefix_append _ _
  cases p with
  | tooDeep => exact h.elim
  | unmatched word => exact hfront "Unexpected '" _ String.append_assoc (by decide)
  | keywordInExpression word =>
    exact hfront "Unexpected keyword '" _ String.append_assoc (by decide)
  | unexpected value => exact hfront "Unexpected '" _ String.append_assoc (by decide)
  | reserved word role =>
    exact hfront "'" _ (String.append_assoc.trans String.append_assoc) (by decide)
  | missingEnd keyword line =>
    exact hfront "Missing 'end' for '" _ (String.append_assoc.trans String.append_assoc) (by decide)
  | expectedEnd value =>
    exact hfront "Expecting end of statement, got '" _ String.append_assoc (by decide)
  | expectedName role => exact hfront "Expecting " _ rfl (by decide)
  | expectedClosing closing => exact hfront "Expecting " _ rfl (by decide)
  | expectedSeparator closing => exact hfront "Expecting ',' or " _ rfl (by decide)
  | expectedIn | expectedMember | statementOver =>
    exact hfront _ "" String.append_empty.symm (by decide)

/-! ## Counted readers -/

/-- What the counter is at a point of a reading. -/
inductive Mark where
  /-- a statement begins -/
  | begins (depth : Nat)
  /-- a level is to be opened: with it, so many are open -/
  | enters (depth : Nat)
  /-- a step is taken that opens no level -/
  | steps (depth : Nat)
deriving DecidableEq

/-- A cursor, the number of levels that are open, and the marks made so far. -/
structure Gauge where
  cursor : Cursor
  depth : Nat := 0
  marks : List Mark := []

/-- A reader that counts levels. -/
abbrev Counted := EStateM Stop Gauge

/-- An outcome, with the counter and the marks there are behind it. -/
def gauged (depth : Nat) (marks : List Mark) :
    EStateM.Result Stop Cursor α → EStateM.Result Stop Gauge α
  | .ok a c => .ok a ⟨c, depth, marks⟩
  | .error e c => .error e ⟨c, depth, marks⟩

namespace Counted

/-- A step that opens no level. -/
def step (r : Reader α) : Counted α := fun g =>
  gauged g.depth (g.marks ++ [.steps g.depth]) (r g.cursor)

instance : MonadLift Reader Counted := ⟨step⟩

/-- Makes a mark. -/
def mark (m : Nat → Mark) : Counted Unit :=
  modify fun g => { g with marks := g.marks ++ [m g.depth] }

/-- Closes a level behind a reader, on whatever exit. -/
def closing (r : Counted α) : Counted α := fun g =>
  match r g with
  | .ok a g => .ok a { g with depth := g.depth - 1 }
  | .error e g => .error e { g with depth := g.depth - 1 }

/-- Opens a level for a reader, and closes it behind it. A level beyond the limit is refused. -/
def descend (o : Options) (r : Counted α) : Counted α := do
  modify fun g => { g with depth := g.depth + 1 }
  mark .enters
  closing do
    let g ← get
    if o.depthLimit < g.depth then
      throw (.malformed ((Problem.tooDeep o.depthLimit).at g.cursor.current))
    else r

/-! ### Expressions -/

/-- Applies a reader as long as a sign stands between what is read. -/
def chainFrom (o : Options) (start : Token) (sign? : Token → Option α) (operand : Counted Node)
    (combine : Span → α → Node → Node → Node) : Nat → Node → Counted Node
  | 0, left => return left
  | fuel + 1, left => do
    match sign? (← current) with
    | none => return left
    | some sign =>
      let _ ← advance
      let right ← operand
      let span ← spanFrom o start
      chainFrom o start sign? operand combine fuel (combine span sign left right)

/-- Operands with signs between them. -/
def chain (o : Options) (sign? : Token → Option α) (operand : Counted Node)
    (combine : Span → α → Node → Node → Node) : Counted Node := do
  let start ← current
  let left ← operand
  chainFrom o start sign? operand combine (← get).cursor.rest.length left

section Expressions

variable (o : Options) (inner : Entry → Counted Node)

/-- Reads expressions with commas between them up to a closing sign. -/
def readItems (inner : Entry → Counted Node) (closing : Closing) : Nat → Counted (List Node)
  | 0 => return []
  | fuel + 1 => do
    let item ← inner .expression
    if (← current).kind == .comma then
      let _ ← advance
      return item :: (← readItems inner closing fuel)
    else
      let _ ← expect closing.kind (.expectedSeparator closing)
      return [item]

/-- Reads what stands between brackets, up to the closing sign. -/
def readSequence (closing : Closing) : Counted (List Node) := do
  if (← current).kind == closing.kind then
    let _ ← advance
    return []
  else readItems inner closing (← get).cursor.rest.length

/-- Reads an expression without signs. -/
def readPrimary : Counted Node := do
  let t ← current
  match t.kind with
  | .integer =>
    let _ ← advance
    let span ← spanFrom o t
    return .const span (.int 0 (← numberOf t))
  | .float =>
    let _ ← advance
    return .const (← spanFrom o t) (.float 0 (decimal t.value.toList))
  | .string =>
    let _ ← advance
    return .const (← spanFrom o t) (.text 0 t.value)
  | .argument => readArgument o t
  | .identifier => readWord o t
  | .lparen =>
    let _ ← advance
    let e ← inner .expression
    let _ ← expect .rparen (.expectedClosing .paren)
    return e
  | .lbracket =>
    let _ ← advance
    let items ← readSequence inner .bracket
    return .list (← spanFrom o t) items
  | .codeExit | .eof | .newline => fail .statementOver
  | _ => fail (.unexpected t.value)

/-- Reads members, items and calls behind an expression. -/
def readSuffixes (start : Token) : Nat → Node → Counted Node
  | 0, e => return e
  | fuel + 1, e => do
    match (← current).kind with
    | .dot =>
      let _ ← advance
      let name ← expect .identifier .expectedMember
      let span ← spanFrom o start
      readSuffixes start fuel (.member span e name.value)
    | .lbracket =>
      let _ ← advance
      let key ← inner .expression
      let _ ← expect .rbracket (.expectedClosing .bracket)
      let span ← spanFrom o start
      readSuffixes start fuel (.item span e key)
    | .lparen =>
      let _ ← advance
      let arguments ← readSequence inner .paren
      let span ← spanFrom o start
      readSuffixes start fuel (.call span e arguments)
    | _ => return e

/-- Reads an expression with members, items and calls behind it. -/
def readPostfix : Counted Node := do
  let start ← current
  let e ← readPrimary o inner
  readSuffixes o inner start (← get).cursor.rest.length e

/-- Reads an expression with signs in front of it. -/
def readSign : Counted Node := do
  let start ← current
  if start.kind == .minus then
    let _ ← advance
    let operand ← inner .sign
    return .unary (← spanFrom o start) .negate operand
  else readPostfix o inner

/-- Reads a sum. -/
def readSum : Counted Node :=
  chain o additive? (chain o multiplicative? (readSign o inner) .arithmetic) .arithmetic

/-- Reads one comparison at most. -/
def readComparison : Counted Node := do
  let start ← current
  let left ← readSum o inner
  match comparison? (← current) with
  | none => return left
  | some op =>
    let _ ← advance
    let right ← readSum o inner
    return .compare (← spanFrom o start) op left right

/-- Reads an expression with `not` in front of it. -/
def readNegation : Counted Node := do
  let start ← current
  if start.isWord "not" then
    let _ ← advance
    let operand ← inner .negation
    return .unary (← spanFrom o start) .not operand
  else readComparison o inner

/-- Reads expressions with `and` and `or` between them. -/
def readOr : Counted Node :=
  chain o (word? "or")
    (chain o (word? "and") (readNegation o inner) fun span _ => .logic span .and)
    fun span _ => .logic span .or

end Expressions

/-- Opens a level and reads what stands there. `fuel` bounds the number of levels. -/
def readLevel (o : Options) : Nat → Entry → Counted Node
  | 0, _ => return .absent
  | fuel + 1, .expression => descend o (readOr o (readLevel o fuel))
  | fuel + 1, .negation => descend o (readNegation o (readLevel o fuel))
  | fuel + 1, .sign => descend o (readSign o (readLevel o fuel))

/-- Reads an expression. -/
def readExpression (o : Options) : Counted Node :=
  readLevel o (o.depthLimit.toNat + 1) .expression

/-! ### Statements -/

section Statements

variable (o : Options) (statements : Counted (List Node))

/-- Reads the statements of a block. -/
def readBody : Counted Node := do
  let start ← current
  let body ← statements
  return .block (← spanFrom o start) body

/-- Reads an assignment. -/
def readAssignment : Counted Node := do
  let start ← current
  let target ← readName .target
  let _ ← advance
  let value ← readExpression o
  let span ← spanFrom o start
  readStatementEnd
  return .assign span target value

/-- Reads a chain of conditions, from the word `if`. -/
def readBranch : Nat → Counted Node
  | 0 => return .absent
  | fuel + 1 => do
    let start ← advance
    let test ← readExpression o
    readStatementEnd
    let body ← readBody o statements
    if (← current).isWord "else" then
      let _ ← advance
      if (← current).isWord "if" then
        let nested ← readBranch fuel
        let otherwise :=
          match nested.span? with
          | some span => .block span [nested]
          | none => .absent
        return .branch (← spanFrom o start) test body otherwise
      else
        readStatementEnd
        let otherwise ← readBody o statements
        readBlockEnd "if" start
        return .branch (← spanFrom o start) test body otherwise
    else
      readBlockEnd "if" start
      return .branch (← spanFrom o start) test body .absent

/-- Reads a loop, from the word `for`. -/
def readLoop : Counted Node := do
  let start ← advance
  let target ← readName .variable
  if !(← current).isWord "in" then fail .expectedIn
  let _ ← advance
  let source ← readExpression o
  readStatementEnd
  let body ← readBody o statements
  readBlockEnd "for" start
  return .loop (← spanFrom o start) target source body

/-- Reads an expression that stands alone. -/
def readExpressionStatement : Counted Node := do
  let start ← current
  let e ← readExpression o
  let span ← spanFrom o start
  readStatementEnd
  return .expression span e

/-- Reads a statement of code. -/
def readStatement : Counted Node := do
  mark .begins
  let t ← current
  if t.isWord "if" then readBranch o statements (← get).cursor.rest.length
  else if t.isWord "for" then readLoop o statements
  else if t.kind == .identifier && (← following).kind == .assign then readAssignment o
  else readExpressionStatement o

/-- Reads a statement, or reports and skips it. -/
def readOrSkip : Counted (Option Node) := fun g =>
  match readStatement o statements g with
  | .ok n g => .ok (some n) g
  | .error (.malformed e) g => step (skipBehind e) g
  | .error (.fault e) g => .error (.fault e) g

end Statements

/-- Reads statements up to the end of a section, or to a word that belongs to the block around
them. -/
def readStatements (o : Options) : Nat → Counted (List Node)
  | 0 => return []
  | fuel + 1 => do
    let t ← current
    if endsSection t || belongsToBlock t then return []
    else if isSeparator t then
      let _ ← advance
      readStatements o fuel
    else if t.kind == .text then
      let _ ← advance
      let span ← spanFrom o t
      return .text span t.value :: (← readStatements o fuel)
    else
      let node? ← readOrSkip o (readStatements o fuel)
      return node?.toList ++ (← readStatements o fuel)

/-- Reads the statements of a section. -/
def readSectionBody (o : Options) : Nat → Counted (List Node)
  | 0 => return []
  | fuel + 1 => do
    let body ← readStatements o ((← get).cursor.rest.length + 1)
    let t ← current
    if endsSection t then return body
    else
      report ((Problem.unmatched t.value).at t)
      let _ ← advance
      return body ++ (← readSectionBody o fuel)

/-- Reads a section: the front matter or the body of a page. -/
def readSection (o : Options) : Counted Node := do
  let start ← current
  let body ← readSectionBody o ((← get).cursor.rest.length + 1)
  return .block (← spanFrom o start) body

/-- Reads a page, with front matter if it begins with a marker. -/
def readPage (o : Options) : Counted Page := do
  let start ← current
  if start.kind == .frontMatterMarker then
    let _ ← advance
    let frontMatter ← readSection o
    if (← current).kind == .frontMatterMarker then
      let _ ← advance
    let body ← readSection o
    return { span := ← spanFrom o start, body, frontMatter }
  else
    let body ← readSection o
    return { span := ← spanFrom o start, body }

end Counted

end Grammar

end Stencil

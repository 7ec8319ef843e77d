import Mathlib.Algebra.Group.Int.Defs
import Mathlib.Algebra.Group.Nat.Defs
import Stencil.Proofs.Grammar
import Stencil.Token.Lexer

/-!
# How templates are printed

A tree is printed as atoms, tokens without their ranges: an expression as
`Node.atoms`, a statement as `Node.code`, the statements of a body as `bodyAtoms`.
Parentheses stand where an operand is of a looser level than its place takes
(`enclosed`), and nowhere else. `layout` writes the atoms down: texts as they are,
code in double braces, with one blank in front of every word and sign in it. A float
is written the way `spell` says.

`IsBody` says which trees are printed: those that a template can be read into.
-/

namespace Stencil

open Grammar

/-! ## Atoms -/

/-- A token without its range. -/
structure Atom where
  kind : TokenKind
  value : String
deriving DecidableEq

/-- What a token is, wherever it stands. -/
def Token.atom (t : Token) : Atom := ⟨t.kind, t.value⟩

namespace Atom

/-- A word. -/
def word (value : String) : Atom := ⟨.identifier, value⟩

/-- The braces that open a code block. -/
def enter : Atom := ⟨.codeEnter, "\x7b\x7b"⟩

/-- The braces that close a code block. -/
def exit : Atom := ⟨.codeExit, "\x7d\x7d"⟩

end Atom

/-- The characters of a string literal, with a backslash before those that cannot
stand for themselves. -/
def escape : List Char → List Char
  | [] => []
  | c :: cs =>
    if c = '\\' then '\\' :: '\\' :: escape cs
    else if c = Text.doubleQuote then '\\' :: Text.doubleQuote :: escape cs
    else if c = '\n' then '\\' :: 'n' :: escape cs
    else c :: escape cs

/-- How an atom is written. -/
def Atom.spelling (a : Atom) : List Char :=
  match a.kind with
  | .string => Text.doubleQuote :: (escape a.value.toList ++ [Text.doubleQuote])
  | .argument => '$' :: a.value.toList
  | _ => a.value.toList

/-- How an atom is written behind the one before it. -/
def Atom.layout (a : Atom) : List Char :=
  match a.kind with
  | .text | .codeEnter => a.spelling
  | _ => ' ' :: a.spelling

/-- How atoms are written in a row. -/
def layout (atoms : List Atom) : List Char := atoms.flatMap Atom.layout

/-! ## Expressions -/

/-- How loose a level is. -/
def Grammar.Level.rank : Level → Nat
  | .primary => 0
  | .suffixed => 1
  | .signed => 2
  | .product => 3
  | .sum => 4
  | .comparison => 5
  | .negation => 6
  | .conjunction => 7
  | .disjunction => 8
  | .items => 9
  | .sequence => 10

/-- The level of an operator. -/
def Arithmetic.level : Arithmetic → Level
  | .add | .subtract => .sum
  | .multiply | .divide | .remainder => .product

/-- The level of the operand to the right of an operator. -/
def Arithmetic.operand : Arithmetic → Level
  | .add | .subtract => .product
  | .multiply | .divide | .remainder => .signed

/-- The level of a connective. -/
def Connective.level : Connective → Level
  | .and => .conjunction
  | .or => .disjunction

/-- The level of the operand to the right of a connective. -/
def Connective.operand : Connective → Level
  | .and => .negation
  | .or => .conjunction

/-- The level of an operator with one operand, and of that operand. -/
def UnaryOperator.level : UnaryOperator → Level
  | .negate => .signed
  | .not => .negation

/-- The level of an expression by itself. -/
def Node.level : Node → Level
  | .member .. | .item .. | .call .. => .suffixed
  | .unary _ op _ => op.level
  | .arithmetic _ op _ _ => op.level
  | .compare .. => .comparison
  | .logic _ op _ _ => op.level
  | _ => .primary

/-- The sign of an operator. -/
def Arithmetic.atom : Arithmetic → Atom
  | .add => ⟨.plus, "+"⟩
  | .subtract => ⟨.minus, "-"⟩
  | .multiply => ⟨.star, "*"⟩
  | .divide => ⟨.slash, "/"⟩
  | .remainder => ⟨.percent, "%"⟩

/-- The sign of a comparison. -/
def Comparison.atom : Comparison → Atom
  | .eq => ⟨.eq, "=="⟩
  | .ne => ⟨.ne, "!="⟩
  | .lt => ⟨.lt, "<"⟩
  | .le => ⟨.le, "<="⟩
  | .gt => ⟨.gt, ">"⟩
  | .ge => ⟨.ge, ">="⟩

/-- The sign of an operator with one operand. -/
def UnaryOperator.atom : UnaryOperator → Atom
  | .negate => ⟨.minus, "-"⟩
  | .not => .word "not"

/-- The word of a connective. -/
def Connective.atom : Connective → Atom
  | .and => .word "and"
  | .or => .word "or"

section Printing

variable (spell : Float → String)

/-- A value as a literal. -/
def Value.atom : Value → Atom
  | .null => .word "null"
  | .bool true => .word "true"
  | .bool false => .word "false"
  | .int _ n => ⟨.integer, toString n.toNat⟩
  | .float _ x => ⟨.float, spell x⟩
  | .text _ s => ⟨.string, s⟩
  | _ => .word "null"

/-- An operand at a place that takes the level `l`: in parentheses if it is looser. -/
def enclosed (l : Level) (e : Node) (atoms : List Atom) : List Atom :=
  if e.level.rank ≤ l.rank then atoms else ⟨.lparen, "("⟩ :: (atoms ++ [⟨.rparen, ")"⟩])

mutual

/-- An expression. -/
def Node.atoms : Node → List Atom
  | .const _ v => [v.atom spell]
  | .name _ name => [if name = argumentsName then ⟨.argument, ""⟩ else .word name]
  | .argument _ index => [⟨.argument, toString index.toNat⟩]
  | .list _ items => ⟨.lbracket, "["⟩ :: (itemAtoms items ++ [⟨.rbracket, "]"⟩])
  | .member _ object name =>
    enclosed .suffixed object object.atoms ++ [⟨.dot, "."⟩, .word name]
  | .item _ object key =>
    enclosed .suffixed object object.atoms ++
      ⟨.lbracket, "["⟩ :: (key.atoms ++ [⟨.rbracket, "]"⟩])
  | .call _ callee arguments =>
    enclosed .suffixed callee callee.atoms ++
      ⟨.lparen, "("⟩ :: (itemAtoms arguments ++ [⟨.rparen, ")"⟩])
  | .unary _ op operand => op.atom :: enclosed op.level operand operand.atoms
  | .arithmetic _ op left right =>
    enclosed op.level left left.atoms ++ op.atom :: enclosed op.operand right right.atoms
  | .compare _ op left right =>
    enclosed .sum left left.atoms ++ op.atom :: enclosed .sum right right.atoms
  | .logic _ op left right =>
    enclosed op.level left left.atoms ++ op.atom :: enclosed op.operand right right.atoms
  | _ => []

/-- Expressions with commas between them. -/
def itemAtoms : List Node → List Atom
  | [] => []
  | [e] => e.atoms
  | e :: rest => e.atoms ++ ⟨.comma, ","⟩ :: itemAtoms rest

end

/-! ## Statements -/

/-- Whether a statement is a condition. -/
def Node.isBranch : Node → Bool
  | .branch .. => true
  | _ => false

/-- Whether a statement is a text. -/
def Node.isText : Node → Bool
  | .text .. => true
  | _ => false

mutual

/-- A statement of code, from its first word to its last. -/
def Node.code : Node → List Atom
  | .expression _ e => e.atoms spell
  | .assign _ target e => .word target :: ⟨.assign, "="⟩ :: e.atoms spell
  | .branch _ test (.block _ body) otherwise =>
    .word "if" :: (test.atoms spell ++ .exit :: (bodyAtoms body ++ .enter :: otherwise.elseCode))
  | .loop _ target source (.block _ body) =>
    .word "for" :: .word target :: .word "in" :: (source.atoms spell ++
      .exit :: (bodyAtoms body ++ [.enter, .word "end"]))
  | _ => []

/-- What stands behind the body of a condition. One condition alone goes on the
chain, and shares its `end`. -/
def Node.elseCode : Node → List Atom
  | .block _ [.branch span test body otherwise] =>
    .word "else" :: Node.code (.branch span test body otherwise)
  | .block _ body => .word "else" :: .exit :: (bodyAtoms body ++ [.enter, .word "end"])
  | _ => [.word "end"]

/-- The statements of a body, each of code in a block of its own. -/
def bodyAtoms : List Node → List Atom
  | [] => []
  | .text _ value _ :: rest => ⟨.text, value⟩ :: bodyAtoms rest
  | n :: rest => .enter :: (n.code ++ .exit :: bodyAtoms rest)

end

/-- The body of a page. Where there is no statement, there is an empty code block. -/
def pageAtoms : List Node → List Atom
  | [] => [.enter, .exit]
  | nodes => bodyAtoms spell nodes

/-- The source of a page. -/
def printed (nodes : List Node) : String := String.ofList (layout (pageAtoms spell nodes))

/-! ## What is printed -/

/-- A letter or an underscore, and letters, digits and underscores behind it. -/
def IsIdentifier (name : String) : Prop :=
  ∃ c cs, name.toList = c :: cs ∧ isNameStart c = true ∧ ∀ d ∈ cs, isNamePart d = true

/-- An identifier that is not reserved. -/
def IsName (name : String) : Prop := IsIdentifier name ∧ name ∉ reservedWords

/-- Digits on both sides of a point. -/
def IsDecimals (text : String) : Prop :=
  ∃ c cs d ds, text.toList = c :: (cs ++ '.' :: d :: ds) ∧ ∀ e ∈ c :: d :: (cs ++ ds), e.isDigit = true

/-- A number that may be read: not negative, and of no more digits than the limit. -/
def IsReadable (n : Int) : Prop := 0 ≤ n ∧ n < 10 ^ digitLimit

/-- A text that code does not interrupt. -/
def IsText (text : String) : Prop := text ≠ "" ∧ ¬ ['\x7b', '\x7b'] <:+: text.toList

/-- The trees of expressions. -/
inductive IsExpression : Node → Prop
  | null (span : Span) : IsExpression (.const span .null)
  | bool (span : Span) (b : Bool) : IsExpression (.const span (.bool b))
  | int (span : Span) {n : Int} : IsReadable n → IsExpression (.const span (.int 0 n))
  | float (span : Span) {x : Float} : IsDecimals (spell x) → decimal (spell x).toList = x →
      IsExpression (.const span (.float 0 x))
  | text (span : Span) (s : String) : IsExpression (.const span (.text 0 s))
  | arguments (span : Span) : IsExpression (.name span argumentsName)
  | argument (span : Span) {index : Int} : IsReadable index → IsExpression (.argument span index)
  | name (span : Span) {name : String} : IsName name → IsExpression (.name span name)
  | list (span : Span) {items : List Node} : (∀ e ∈ items, IsExpression e) →
      IsExpression (.list span items)
  | member (span : Span) {object : Node} {name : String} : IsExpression object →
      IsIdentifier name → IsExpression (.member span object name)
  | item (span : Span) {object key : Node} : IsExpression object → IsExpression key →
      IsExpression (.item span object key)
  | call (span : Span) {callee : Node} {arguments : List Node} : IsExpression callee →
      (∀ e ∈ arguments, IsExpression e) → IsExpression (.call span callee arguments)
  | unary (span : Span) (op : UnaryOperator) {operand : Node} : IsExpression operand →
      IsExpression (.unary span op operand)
  | arithmetic (span : Span) (op : Arithmetic) {left right : Node} : IsExpression left →
      IsExpression right → IsExpression (.arithmetic span op left right)
  | compare (span : Span) (op : Comparison) {left right : Node} : IsExpression left →
      IsExpression right → IsExpression (.compare span op left right)
  | logic (span : Span) (op : Connective) {left right : Node} : IsExpression left →
      IsExpression right → IsExpression (.logic span op left right)

/-- A text that ends with a brace: one more would open a code block. -/
def Node.EndsInBrace : Node → Prop
  | .text _ value _ => value.toList.getLast? = some '\x7b'
  | _ => False

/-- No text stands next to another one, and none that ends with a brace in front of a
code block. One follows the last statement if the statements are `inside` a block. -/
def Apart (inside : Prop) : List Node → Prop
  | [] => True
  | [n] => inside → ¬ n.EndsInBrace
  | n :: m :: rest =>
    ¬ (n.isText = true ∧ m.isText = true) ∧ ¬ n.EndsInBrace ∧ Apart inside (m :: rest)

/-- The trees of statements. -/
inductive IsStatement : Node → Prop
  | text (span : Span) {value : String} : IsText value → IsStatement (.text span value 0)
  | expression (span : Span) {e : Node} : IsExpression spell e →
      IsStatement (.expression span e)
  | assign (span : Span) {target : String} {e : Node} : IsName target →
      IsExpression spell e → IsStatement (.assign span target e)
  | branch (span inner : Span) {test : Node} {body : List Node} : IsExpression spell test →
      (∀ n ∈ body, IsStatement n) → Apart True body →
      IsStatement (.branch span test (.block inner body) .absent)
  | branchElse (span inner outer : Span) {test : Node} {body otherwise : List Node} :
      IsExpression spell test → (∀ n ∈ body, IsStatement n) → Apart True body →
      (∀ n ∈ otherwise, IsStatement n) → Apart True otherwise →
      IsStatement (.branch span test (.block inner body) (.block outer otherwise))
  | loop (span inner : Span) {target : String} {source : Node} {body : List Node} :
      IsName target → IsExpression spell source → (∀ n ∈ body, IsStatement n) →
      Apart True body → IsStatement (.loop span target source (.block inner body))

/-- The bodies of pages. -/
structure IsBody (nodes : List Node) : Prop where
  statements : ∀ n ∈ nodes, IsStatement spell n
  apart : Apart False nodes

end Printing

end Stencil

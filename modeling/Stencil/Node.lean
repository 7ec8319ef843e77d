import Stencil.Span
import Stencil.Value.Arithmetic
import Stencil.Value.Order

/-!
# Syntax trees

A template is read into a tree of nodes: statements, which may write, and
expressions, which have values. Every node knows its range in the source. A
host can build trees by hand; it may leave a node out anywhere, put an
expression where a statement is expected, and use nodes of its own.
-/

namespace Stencil

/-- The operators with one operand. -/
inductive UnaryOperator where
  | negate
  | not
deriving DecidableEq

/-- How an operator is written. -/
def UnaryOperator.symbol : UnaryOperator → String
  | .negate => "-"
  | .not => "not"

/-- The operators that look at truth alone. -/
inductive Connective where
  | and
  | or
deriving DecidableEq

/-- How an operator is written. -/
def Connective.symbol : Connective → String
  | .and => "and"
  | .or => "or"

/-- A node of a syntax tree. -/
inductive Node where
  /-- a node left out -/
  | absent
  -- statements
  | page (span : Span) (body frontMatter : Node)
  | block (span : Span) (body : List Node)
  | text (span : Span) (value : String) (id : Nat := 0)
  | expression (span : Span) (value : Node)
  | assign (span : Span) (target : String) (value : Node)
  | branch (span : Span) (test body otherwise : Node)
  | loop (span : Span) (target : String) (source body : Node)
  -- expressions
  | const (span : Span) (value : Value)
  | name (span : Span) (name : String)
  | argument (span : Span) (index : Int)
  /-- an argument by a value that need not be an integer -/
  | argumentAt (span : Span) (index : Value)
  | list (span : Span) (items : List Node)
  | member (span : Span) (object : Node) (name : String)
  | item (span : Span) (object key : Node)
  | call (span : Span) (callee : Node) (arguments : List Node)
  | unary (span : Span) (op : UnaryOperator) (operand : Node)
  | arithmetic (span : Span) (op : Arithmetic) (left right : Node)
  | compare (span : Span) (op : Comparison) (left right : Node)
  | logic (span : Span) (op : Connective) (left right : Node)
  -- nodes of the host
  /-- writes one value and yields another -/
  | custom (span : Span) (writes value : Value)
  /-- a node that cannot be evaluated -/
  | foreign (span : Span) (typeName : String)
  /-- an operator that there is none of, between two operands -/
  | unknownOperator (span : Span) (symbol : String) (left right : Node)
deriving Inhabited

/-- The range of a node; one left out has none. -/
def Node.span? : Node → Option Span
  | .absent => none
  | .page span _ _ | .block span _ | .text span _ _ | .expression span _ | .assign span _ _
  | .branch span _ _ _ | .loop span _ _ _ | .const span _ | .name span _ | .argument span _
  | .argumentAt span _ | .list span _ | .member span _ _ | .item span _ _ | .call span _ _
  | .unary span _ _ | .arithmetic span _ _ _ | .compare span _ _ _ | .logic span _ _ _
  | .custom span _ _ | .foreign span _ | .unknownOperator span _ _ _ => some span

/-- The nodes right below a node. -/
def Node.children : Node → List Node
  | .page _ body frontMatter => [body, frontMatter]
  | .block _ body => body
  | .expression _ value => [value]
  | .assign _ _ value => [value]
  | .branch _ test body otherwise => [test, body, otherwise]
  | .loop _ _ source body => [source, body]
  | .list _ items => items
  | .member _ object _ => [object]
  | .item _ object key => [object, key]
  | .call _ callee arguments => callee :: arguments
  | .unary _ _ operand => [operand]
  | .arithmetic _ _ left right | .compare _ _ left right | .logic _ _ left right
  | .unknownOperator _ _ left right => [left, right]
  | _ => []

mutual

/-- A tree with its literals numbered. Hand-built trees hold values that have their
numbers already; they keep them. -/
def Node.numbered : Node → StateM Nat Node
  | .page span body frontMatter =>
    return .page span (← body.numbered) (← frontMatter.numbered)
  | .block span body => return .block span (← numberedNodes body)
  | .text span value id => do
    if id = 0 && !isSharedText value then return .text span value (← nextNumber)
    else return .text span value id
  | .expression span value => return .expression span (← value.numbered)
  | .assign span target value => return .assign span target (← value.numbered)
  | .branch span test body otherwise =>
    return .branch span (← test.numbered) (← body.numbered) (← otherwise.numbered)
  | .loop span target source body =>
    return .loop span target (← source.numbered) (← body.numbered)
  | .const span value => return .const span (← value.numbered)
  | .list span items => return .list span (← numberedNodes items)
  | .member span object name => return .member span (← object.numbered) name
  | .item span object key => return .item span (← object.numbered) (← key.numbered)
  | .call span callee arguments =>
    return .call span (← callee.numbered) (← numberedNodes arguments)
  | .unary span op operand => return .unary span op (← operand.numbered)
  | .arithmetic span op left right =>
    return .arithmetic span op (← left.numbered) (← right.numbered)
  | .compare span op left right =>
    return .compare span op (← left.numbered) (← right.numbered)
  | .logic span op left right => return .logic span op (← left.numbered) (← right.numbered)
  | .unknownOperator span symbol left right =>
    return .unknownOperator span symbol (← left.numbered) (← right.numbered)
  | node => return node

/-- Trees with their literals numbered. -/
def numberedNodes : List Node → StateM Nat (List Node)
  | [] => return []
  | node :: rest => return (← node.numbered) :: (← numberedNodes rest)

end

/-- The root of a parsed template. -/
structure Page where
  span : Span
  body : Node
  frontMatter : Node := .absent

/-- The root as a node. -/
def Page.node (p : Page) : Node := .page p.span p.body p.frontMatter

/-- A page with its literals numbered. -/
def Page.numbered (p : Page) : StateM Nat Page :=
  return { p with body := ← p.body.numbered, frontMatter := ← p.frontMatter.numbered }

/-- The name of the arguments of an include. -/
def argumentsName : String := "$"

end Stencil

import Stencil.Evaluation.Include
import Stencil.Node

/-!
# Evaluating nodes

One step of evaluation: what a node does, given `run`, which evaluates the nodes
below it and the templates it includes. A block writes the value of every
statement but the last, whose value is its own; so the last value of a page
travels up to whoever evaluates the page.
-/

namespace Stencil.Eval

/-- Evaluates the nodes below a node, and runs included templates. -/
structure Runner where
  node : Node → Eval Value
  render : Template → Eval Unit

/-! ## Calls -/

/-- Calls a function that sees its arguments alone. Its faults are reported at
the place of the call; what is to pass passes as it is. -/
def callPlain (span : Option Span) (label : String) (call : PlainCall Value) :
    Eval Value := fun s =>
  match call s.store with
  | .ok v store => .ok v { s with store }
  | .error (.reported e) store =>
    report (.callFailed label e.message) span { s with store }
  | .error (.passing f) store => .error f { s with store }

/-- Calls a function that sees its arguments alone. Its faults are not reported. -/
def callUnreported (call : PlainCall Value) : Eval Value := fun s =>
  match call s.store with
  | .ok v store => .ok v { s with store }
  | .error e store => .error e.unreported { s with store }

/-- Calls what a host object is invoked through. It takes the place of a function
that sees the context, so it is given the context, the place of the call and the
list of the arguments; the first two are shown to it as text. Its faults are not
reported. -/
def callInvoked (host : Host) (span : Option Span) (f : Value) (arguments : List Value) :
    Eval Value := do
  let s ← get
  let list ← computed (Computation.newList arguments)
  let place := (span.map fun span => Value.text 0 span.text).getD .null
  let given := [.text 0 (s.context.description s.cache), place, list]
  match f with
  | .function _ (.plain name) | .function _ (.object name _) =>
    callUnreported (host.plain name given)
  | f => failWith (.notCallable f.typeName)

/-- Calls a value. -/
def call (host : Host) (render : Template → Eval Unit) (span : Option Span) (callee : Value)
    (arguments : List Value) : Eval Value :=
  match callee with
  | .function _ .include => do
    let output ← includeTemplate render span arguments
    computed output.value
  | .function _ (.contextual name) => host.contextual name span arguments
  | .function _ f => callPlain span f.label (host.plain f.name arguments)
  | .method receiver m =>
    callPlain span m.name (PlainCall.computed (m.call receiver arguments))
  | v =>
    match v.invocation? with
    | some f => callInvoked host span f arguments
    | none => report (.notAFunction v.typeName) span

/-! ## Expressions -/

/-- One of the arguments of an include. There are none outside an include, nor
behind the last; before the first is a fault. -/
def argument (index : Int) : Eval Value := do
  let s ← get
  match s.context.arguments? with
  | some (.list id) =>
    let items := s.store.contents id
    if s.store.size id ≤ index then return .null
    else if index < -indexLimit then failWith .listIndexTooLarge
    else
      match atIndex? items index with
      | some v => return v
      | none => failWith .listIndexOutOfRange
  | _ => return .null

/-- One of the arguments of an include by a value that need not be an integer. -/
def argumentAt (index : Value) : Eval Value := do
  let s ← get
  match s.context.arguments?, index.numeric? with
  | some (.list _), some (.whole n) => argument n
  | some (.list id), some (.double x) =>
    let count : Int := s.store.size id
    if (compareWhole count x).any (· != .gt) then return .null
    else failWith (.listIndexNotInteger index.typeName)
  | some (.list _), none => failWith (.unordered ">=" index.typeName "int")
  | _, _ => return .null

/-- What stands in brackets behind a value. -/
def item (span : Span) (object key : Value) : Eval Value :=
  compute (fun e =>
    match e.kind with
    | .type => report (.cannotIndex e.message) (some span)
    | _ => failWith e)
    (Computation.item object key)

/-- A sign in front of a value. -/
def negate (span : Span) (v : Value) : Eval Value :=
  compute (fun e =>
    match e.kind with
    | .type => report (.cannotNegate v.typeName) (some span)
    | _ => failWith e)
    v.negate

/-- Arithmetic on two values. Numbers that grow too large are not reported. -/
def arithmetic (span : Span) (op : Arithmetic) (left right : Value) : Eval Value :=
  compute (fun e =>
    match e.kind with
    | .type | .value | .zeroDivision =>
      report (.cannotApply op.symbol left.typeName right.typeName e.message) (some span)
    | _ => failWith e)
    (op.apply left right)

/-- A comparison of two values. -/
def comparison (span : Span) (op : Comparison) (left right : Value) : Eval Value :=
  compute (fun e =>
    match e.kind with
    | .type => report (.cannotCompare left.typeName right.typeName op.symbol) (some span)
    | _ => failWith e)
    (do return .bool (← Computation.compareBy op left right))

/-- Evaluates a call: the callee, which must not be a name that means nothing,
then the arguments. -/
def callNode (host : Host) (run : Runner) (span : Span) (callee : Node)
    (arguments : List Node) : Eval Value := do
  let f ← run.node callee
  match f, callee with
  | .null, .name _ name => report (.functionNotFound name) (some span)
  | f, _ =>
    let values ← arguments.mapM run.node
    call host run.render (some span) f values

/-- Evaluates `and` and `or`; the right side only if it decides. -/
def logic (run : Runner) (op : Connective) (left right : Node) : Eval Value := do
  let l ← truthy (← run.node left)
  match op with
  | .and => if l then return .bool (← truthy (← run.node right)) else return .bool false
  | .or => if l then return .bool true else return .bool (← truthy (← run.node right))

/-! ## Statements -/

/-- Evaluates statements: all values but the last are written. -/
def statements (run : Runner) : List Node → Eval Value
  | [] => return .null
  | [node] => run.node node
  | node :: rest => do
    writeResult node.span? (← run.node node)
    statements run rest

/-- One turn of a loop. -/
def turn (run : Runner) (span : Span) (target : String) (body : Node) (v : Value) : Eval Unit := do
  assign target v (some span)
  writeResult body.span? (← run.node body)

/-- Goes through a list as it is at each turn. `fuel` bounds the number of
turns: a loop may make its own list longer. -/
def loopList (run : Runner) (span : Span) (target : String) (body : Node) (id : ListId) :
    Nat → Nat → Eval Unit
  | 0, _ => throw .exhausted
  | fuel + 1, index => do
    match (← get).store.item? id index with
    | none => return
    | some v =>
      turn run span target body v
      loopList run span target body id fuel (index + 1)

/-- Evaluates a loop. -/
def loop (run : Runner) (fuel : Nat) (span : Span) (target : String) (source body : Node) :
    Eval Value := do
  match ← run.node source with
  | .null => return .null
  | .list id =>
    loopList run span target body id fuel 0
    return .null
  | v =>
    match ← computed (Computation.elements? v) with
    | none => report (.cannotIterate v.typeName) source.span?
    | some items =>
      items.forM (turn run span target body)
      return .null

/-- What a node does. -/
def step (host : Host) (run : Runner) (fuel : Nat) : Node → Eval Value
  | .absent => return .null
  | .page _ body _ => run.node body
  | .block _ body => statements run body
  | .text _ value id => return .text id value
  | .expression _ value => run.node value
  | .assign span target value => do
    assign target (← run.node value) (some span)
    return .null
  | .branch _ test body otherwise => do
    if ← truthy (← run.node test) then run.node body else run.node otherwise
  | .loop span target source body => loop run fuel span target source body
  | .const _ value => return value
  | .name span name => do
    if name = argumentsName then return ((← context).arguments?).getD .null
    else lookUp name (some span)
  | .argument _ index => argument index
  | .argumentAt _ index => argumentAt index
  | .list _ items => do
    let values ← items.mapM run.node
    computed (Computation.newList values)
  | .member _ object name => do computed (Computation.member (← run.node object) name)
  | .item span object key => do
    let v ← run.node object
    item span v (← run.node key)
  | .call span callee arguments => callNode host run span callee arguments
  | .unary span op operand => do
    let v ← run.node operand
    match op with
    | .not => return .bool !(← truthy v)
    | .negate => negate span v
  | .arithmetic span op left right => do
    let l ← run.node left
    arithmetic span op l (← run.node right)
  | .compare span op left right => do
    let l ← run.node left
    comparison span op l (← run.node right)
  | .logic _ op left right => logic run op left right
  | .custom span writes value => do
    write (some span) writes
    return value
  | .foreign _ typeName => failWith (.notEvaluable typeName)
  | .unknownOperator _ symbol left right => do
    let _ ← run.node left
    let _ ← run.node right
    failWith (.missingKey symbol)

end Stencil.Eval

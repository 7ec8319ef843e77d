import Stencil.Proofs.Simulation

/-!
# Runs that are observed

Some of what a run does cannot be read off the states it goes through: which names it read that
mean nothing, which templates its includes rendered, which texts it wrote before a sink was
closed. So here evaluation is written once more as `Traced`, with the events of the run in the
order in which they happen. The events are behind the run, not in the state: nothing that is
evaluated can depend on them, and a sequence has the events of its first part and then those of
its second part. That a traced evaluation comes to what the evaluation comes to is proved where
two evaluations are compared (`evaluate_traced`).

What functions of a host do by themselves is no event.
-/

namespace Stencil

/-- What happens in a run and cannot be read off the states it goes through. -/
inductive Event where
  /-- a name is read that means nothing, at a place -/
  | unknown (name : String) (place : Option Span)
  /-- an include renders a template -/
  | including (t : Template)
  /-- a value is written: its text, if it has one -/
  | wrote (text : Option String)

namespace Eval

variable {α : Type}

/-- What an evaluation with a clean-up behind it comes to, by what it comes to before. -/
def finish (cleanUp : Eval Unit) : EStateM.Result Failure State α → EStateM.Result Failure State α
  | .ok a s =>
    match cleanUp s with
    | .ok _ s => .ok a s
    | .error e s => .error e s
  | .error e s =>
    match cleanUp s with
    | .ok _ s => .error e s
    | .error e s => .error e s

theorem ensuring_run (body : Eval α) (cleanUp : Eval Unit) (s : State) :
    ensuring body cleanUp s = finish cleanUp (body s) := by
  unfold ensuring finish
  cases body s <;> rfl

/-- What a capture comes to, by what the evaluation in the sink of its own comes to. -/
def finishCapture (after : Eval Unit) :
    EStateM.Result Failure State Unit → EStateM.Result Failure State Sink
  | .ok _ s => (do let sink ← popSink; after; return sink : Eval Sink) s
  | .error e s =>
    match (do let _ ← popSink; after : Eval Unit) s with
    | .ok _ s => .error e s
    | .error e s => .error e s

theorem capture_run (body after : Eval Unit) (s : State) :
    capture body after s = finishCapture after ((do pushSink; body : Eval Unit) s) := by
  unfold capture
  cases (do pushSink; body : Eval Unit) s with
  | ok a t =>
    simp only [finishCapture]
    cases (do let sink ← popSink; after; return sink : Eval Sink) t <;> rfl
  | error e t => rfl

/-- An evaluation with the arguments of an include bound in the current scope. -/
def withArguments (span : Option Span) (arguments : List Value) (body : Eval α) : Eval α := do
  let scope ← currentScope
  let list ← computed (Computation.newList arguments)
  assign argumentsName list span
  ensuring body (restoreArguments scope)

end Eval

/-- An evaluation with its events. -/
def Traced (α : Type) : Type := State → EStateM.Result Failure State α × List Event

namespace Traced

variable {α β : Type}

/-- What comes behind an outcome: its events come behind those that there were. -/
def andThen (K : α → Traced β) :
    EStateM.Result Failure State α × List Event → EStateM.Result Failure State β × List Event
  | (.ok a t, events) => ((K a t).1, events ++ (K a t).2)
  | (.error x t, events) => (.error x t, events)

instance : Monad Traced where
  pure a := fun s => (.ok a s, [])
  bind E K := fun s => andThen K (E s)

theorem bind_run (E : Traced α) (K : α → Traced β) (s : State) : (E >>= K) s = andThen K (E s) := rfl

/-- An evaluation in which nothing happens that is an event. -/
def lift (e : Eval α) : Traced α := fun s => (e s, [])

instance : MonadLift Eval Traced := ⟨lift⟩

/-- A sequence whose first part returns without an event. -/
theorem lift_bind_of_ok {e : Eval α} {K : α → Traced β} {s t : State} {a : α} (h : e s = .ok a t) :
    (liftM e >>= K : Traced β) s = K a t := by
  show andThen K (e s, []) = K a t
  rw [h]
  rfl

/-- A sequence whose first part fails without an event. -/
theorem lift_bind_of_error {e : Eval α} {K : α → Traced β} {s t : State} {x : Failure}
    (h : e s = .error x t) : (liftM e >>= K : Traced β) s = (.error x t, []) := by
  show andThen K (e s, []) = _
  rw [h]
  rfl

/-- Something happens. -/
def note (event : Event) : Traced Unit := fun s => (.ok () s, [event])

/-- An evaluation whose outcome is changed by what is behind it. -/
def finishing (finish : EStateM.Result Failure State α → EStateM.Result Failure State β)
    (body : Traced α) : Traced β := fun s => (finish (body s).1, (body s).2)

/-- An evaluation with a clean-up behind it. -/
def ensuring (body : Traced α) (cleanUp : Eval Unit) : Traced α :=
  finishing (Eval.finish cleanUp) body

/-- The meaning of a name. -/
def lookUp (name : String) (span : Option Span) : Traced Value := do
  let c ← Eval.context
  match c.lookUp name with
  | some v => return v
  | none =>
    note (.unknown name (c.locate span))
    Eval.lookUp name span

/-- The only event of reading a name that means nothing. -/
theorem lookUp_run_of_none {name : String} {s : State} (h : s.context.lookUp name = none)
    (span : Option Span) :
    lookUp name span s =
      (Eval.lookUp name span s, [.unknown name (s.context.locate span)]) := by
  unfold lookUp
  rw [lift_bind_of_ok (Eval.context_run s), h]
  rfl

/-- Writes a value to the top sink, if output is enabled. -/
def write (span : Option Span) (v : Value) : Traced Unit := do
  let s ← (get : Eval State)
  if s.context.outputEnabled then
    note (.wrote (s.store.display v).toOption)
    Eval.write span v

theorem write_run (span : Option Span) (v : Value) (s : State) :
    write span v s = (Eval.write span v s,
      if s.context.outputEnabled then [.wrote (s.store.display v).toOption] else []) := by
  unfold write
  rw [lift_bind_of_ok (get_run s)]
  split
  · rfl
  · next h =>
    rw [Eval.write_run_disabled (Bool.eq_false_iff.mpr h)]
    rfl

/-- Writes the value of a statement. -/
def writeResult (span : Option Span) (v : Value) : Traced Unit :=
  if v.isNull then return else write span v

/-- What an evaluation writes, taken off in a sink of its own. -/
def capture (body : Traced Unit) (after : Eval Unit) : Traced Sink :=
  finishing (Eval.finishCapture after) do
    Eval.pushSink
    body

/-- An evaluation with the arguments of an include bound in the current scope. -/
def withArguments (span : Option Span) (arguments : List Value) (body : Traced α) : Traced α := do
  let scope ← Eval.currentScope
  let list ← Eval.computed (Computation.newList arguments)
  Eval.assign argumentsName list span
  ensuring body (Eval.restoreArguments scope)

/-- Renders the template of a name with arguments; `render` runs a template. -/
def includeTemplate (render : Template → Traced Unit) (span : Option Span)
    (arguments : List Value) : Traced Sink := do
  let span := (← Eval.context).locate span
  match arguments with
  | [] => Eval.report .includeArity span
  | nameValue :: arguments =>
    let name ← Eval.includeName span nameValue
    match (← Eval.context).loader with
    | none => Eval.report (.noLoader name) span
    | some loader =>
      let path ← Eval.includePath span loader name
      withArguments span arguments do
        let template ← Eval.includedTemplate span loader name path
        Eval.enterPending span name
        note (.including template)
        capture (render template) (Eval.leavePending name)

section Nodes

variable (host : Host) (run : Node → Traced Value) (render : Template → Traced Unit)

/-- Calls a value. -/
def call (span : Option Span) (callee : Value) (arguments : List Value) : Traced Value :=
  match callee with
  | .function _ .include => do
    let output ← includeTemplate render span arguments
    Eval.computed output.value
  | callee => Eval.call host (fun _ => return) span callee arguments

/-- Evaluates nodes one after the other. -/
def nodes : List Node → Traced (List Value)
  | [] => return []
  | node :: rest => do
    let v ← run node
    let values ← nodes rest
    return v :: values

/-- Evaluates a call. -/
def callNode (span : Span) (callee : Node) (arguments : List Node) : Traced Value := do
  let f ← run callee
  match f, callee with
  | .null, .name _ name => Eval.report (.functionNotFound name) (some span)
  | f, _ =>
    let values ← nodes run arguments
    call host render (some span) f values

/-- Evaluates `and` and `or`. -/
def logic (op : Connective) (left right : Node) : Traced Value := do
  let l ← Eval.truthy (← run left)
  match op with
  | .and => if l then return .bool (← Eval.truthy (← run right)) else return .bool false
  | .or => if l then return .bool true else return .bool (← Eval.truthy (← run right))

/-- Evaluates statements. -/
def statements : List Node → Traced Value
  | [] => return .null
  | [node] => run node
  | node :: rest => do
    writeResult node.span? (← run node)
    statements rest

/-- One turn of a loop. -/
def turn (span : Span) (target : String) (body : Node) (v : Value) : Traced Unit := do
  Eval.assign target v (some span)
  writeResult body.span? (← run body)

/-- Goes through a list as it is at each turn. -/
def loopList (span : Span) (target : String) (body : Node) (id : ListId) :
    Nat → Nat → Traced Unit
  | 0, _ => (throw .exhausted : Eval Unit)
  | fuel + 1, index => do
    let s ← (get : Eval State)
    match s.store.item? id index with
    | none => return
    | some v =>
      turn run span target body v
      loopList span target body id fuel (index + 1)

/-- Evaluates a loop. -/
def loop (fuel : Nat) (span : Span) (target : String) (source body : Node) : Traced Value := do
  match ← run source with
  | .null => return .null
  | .list id =>
    loopList run span target body id fuel 0
    return .null
  | v =>
    match ← Eval.computed (Computation.elements? v) with
    | none => Eval.report (.cannotIterate v.typeName) source.span?
    | some items =>
      items.forM (turn run span target body)
      return .null

/-- What a node does. -/
def step (fuel : Nat) : Node → Traced Value
  | .page _ body _ => run body
  | .block _ body => statements run body
  | .expression _ value => run value
  | .assign span target value => do
    Eval.assign target (← run value) (some span)
    return .null
  | .branch _ test body otherwise => do
    if ← Eval.truthy (← run test) then run body else run otherwise
  | .loop span target source body => loop run fuel span target source body
  | .name span name => do
    if name = argumentsName then return ((← Eval.context).arguments?).getD .null
    else lookUp name (some span)
  | .list _ items => do
    let values ← nodes run items
    Eval.computed (Computation.newList values)
  | .member _ object name => do Eval.computed (Computation.member (← run object) name)
  | .item span object key => do
    let v ← run object
    Eval.item span v (← run key)
  | .call span callee arguments => callNode host run render span callee arguments
  | .unary span op operand => do
    let v ← run operand
    match op with
    | .not => return .bool !(← Eval.truthy v)
    | .negate => Eval.negate span v
  | .arithmetic span op left right => do
    let l ← run left
    Eval.arithmetic span op l (← run right)
  | .compare span op left right => do
    let l ← run left
    Eval.comparison span op l (← run right)
  | .logic _ op left right => logic run op left right
  | .custom span writes value => do
    write (some span) writes
    return value
  | .unknownOperator _ symbol left right => do
    let _ ← run left
    let _ ← run right
    Eval.failWith (.missingKey symbol)
  -- nodes without nodes below them, in which nothing happens
  | node => Eval.step host ⟨fun _ => return .null, fun _ => return⟩ fuel node

end Nodes

/-- An evaluation inside a file, if one is given. -/
def within (path : Option String) (body : Traced α) : Traced α := do
  match path with
  | none => body
  | some path =>
    Eval.pushSourceFile path
    ensuring body do
      let _ ← Eval.popSourceFile

/-- The page of a template, evaluated in its file. -/
def runPage (node : Node → Traced Value) (t : Template) : Traced Value :=
  match t.page with
  | some page => within t.path (node page.node)
  | none => return .null

/-- Writes what a page came to, in the range of the page. -/
def writePage (t : Template) (v : Value) : Traced Unit :=
  match t.page with
  | some page => writeResult (some page.span) v
  | none => return

/-- Renders a template, given how nodes are evaluated. -/
def renderWith (node : Node → Traced Value) (t : Template) : Traced Unit := do
  Eval.checkErrors t
  writePage t (← runPage node t)

/-- Evaluates a node, with `fuel` steps to go down. -/
def evaluate (host : Host) : Nat → Node → Traced Value
  | 0, _ => (throw .exhausted : Eval Value)
  | fuel + 1, node =>
    step host (evaluate host fuel) (renderWith (evaluate host fuel)) fuel node

/-- An evaluation with output turned off. -/
def silently (body : Traced α) : Traced α := do
  let enabled := (← Eval.context).outputEnabled
  Eval.changeContext fun c => { c with outputEnabled := false }
  ensuring body (Eval.changeContext fun c => { c with outputEnabled := enabled })

/-- A run of a template, given how nodes are evaluated. -/
def runWith (node : Node → Traced Value) (t : Template) : Eval.TemplateRun → Traced Value
  | .render => do
    renderWith node t
    return .null
  | .evaluate => do
    Eval.checkErrors t
    silently (runPage node t)
  | .frontMatter => do
    Eval.checkErrors t
    match t.frontMatter? with
    | none => return .null
    | some front => silently (within t.path (node front))

/-- A run of a template with its events. -/
def run (way : Eval.TemplateRun) (host : Host) (fuel : Nat) (t : Template) : Traced Value :=
  runWith (evaluate host fuel) t way

end Traced

end Stencil

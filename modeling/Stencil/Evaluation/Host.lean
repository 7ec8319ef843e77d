import Stencil.Evaluation.Basic
import Stencil.Value.Method

/-!
# Host functions

A host gives templates functions of its own. A plain function sees its arguments
alone; a contextual one also sees the context and the place of the call, and may
write, read scopes or keep the state of its context. What a plain function fails
with becomes a script error at the place of the call; a script error that it
fails with itself stays as it is.
-/

namespace Stencil

/-- How a call of a function that sees its arguments alone fails. -/
inductive CallFailure where
  /-- with a fault that is reported at the place of the call -/
  | reported (e : Fault)
  /-- with a failure that passes as it is -/
  | passing (f : Failure)

/-- The failure with a fault; an object may answer with a script error. -/
def CallFailure.ofFault (e : Fault) : CallFailure :=
  match Failure.ofFault e with
  | .fault e => .reported e
  | f => .passing f

/-- The failure of a call whose faults nobody reports. -/
def CallFailure.unreported : CallFailure → Failure
  | .reported e => .fault e
  | .passing f => f

/-- A call of a function that sees its arguments alone. -/
abbrev PlainCall := EStateM CallFailure Store

/-- The functions of a host, by name. -/
structure Host where
  plain : String → List Value → PlainCall Value
  contextual : String → Option Span → List Value → Eval Value

namespace PlainCall

/-- A computation on values. -/
def computed {α : Type} (c : Computation α) : PlainCall α := fun s =>
  match c s with
  | .ok a s => .ok a s
  | .error e s => .error (.ofFault e) s

/-- Fails with a fault. -/
def failWith {α : Type} (e : Fault) : PlainCall α := throw (.ofFault e)

/-- The only argument of a function, by its name. -/
def only (callee parameter : String) (arguments : List Value) : PlainCall Value :=
  match arguments with
  | [v] => return v
  | [] => failWith (.arity callee (.missing [parameter]))
  | _ => failWith (.arity callee (.surplus 1 arguments.length))

end PlainCall

/-! ## A basic host -/

namespace BasicHost

/-- Values as text, behind each other; of one text nothing is joined. -/
def concat (values : List Value) : Computation Value := do
  let texts ← values.mapM Computation.display
  match values with
  | [v] => Computation.textOf v (String.join texts)
  | _ => Computation.newSpelling (String.join texts)

/-- The functions that see their arguments alone. A value that cannot be shown
fails only when the failure with it is reported. -/
def plain (name : String) (arguments : List Value) : PlainCall Value := do
  match name with
  | "identity" => PlainCall.only name "x" arguments
  | "count" =>
    let v ← PlainCall.only name "x" arguments
    PlainCall.computed do Computation.newInt (← Computation.length v)
  | "nargs" => PlainCall.computed (Computation.newInt arguments.length)
  | "concat" => PlainCall.computed (concat arguments)
  | "fail" => PlainCall.failWith (.hostMissingKey "'k'")
  | "fail_value" =>
    let v ← PlainCall.only name "text" arguments
    match (← get).bare v with
    | .ok text => PlainCall.failWith (.hostBadValue text)
    | .error e => throw (.passing (.ofFault e))
  | "fail_script" =>
    throw (.passing
      (.script { cause := .reported .runtime "custom failure" (some "from the host") [] }))
  | "adder" =>
    let callee := "Adder.__call__"
    match arguments with
    | [a, b] => PlainCall.computed (a.plus b)
    | [] => PlainCall.failWith (.arity callee (.missing ["a", "b"]))
    | [_] => PlainCall.failWith (.arity callee (.missing ["b"]))
    | _ => PlainCall.failWith (.arity callee (.surplus 3 (arguments.length + 1)))
  | _ => return .null

/-- Writes values one after the other. -/
def writeAll (span : Option Span) (values : List Value) : Eval Unit :=
  values.forM (Eval.write span)

/-- A new list. -/
def newList (items : List Value) : Eval Value := Eval.computed (Computation.newList items)

/-- The functions that see the context. -/
def contextual (name : String) (span : Option Span) (arguments : List Value) : Eval Value := do
  match name with
  | "where" =>
    match (← Eval.context).sourceFile? with
    | some path => return .text 0 path
    | none => return .null
  | "pending" => newList ((← Eval.context).pendingNames.map (.text 0 ·))
  | "depths" => newList ((← Eval.context).depths.map fun (n : Nat) => .int 0 n)
  | "span_of" => Eval.computed (Computation.newText ((span.map Span.text).getD "None"))
  | "echo" =>
    writeAll span arguments
    return .null
  | "capture" =>
    Eval.pushSink
    writeAll span arguments
    let sink ← Eval.popSink
    Eval.computed (Computation.newText (sink.text ++ "!"))
  | "push_scope" =>
    Eval.pushScope []
    return .null
  | "pop_scope" =>
    let _ ← Eval.popScope
    return .null
  | "stop_output" =>
    Eval.changeContext fun c => { c with outputEnabled := false }
    return .null
  | _ => return .null

/-- The functions as values, by name. The include of the host is another object
than the one that a context has by itself. -/
def functions : Table Value :=
  (["identity", "count", "nargs", "concat", "fail", "fail_value", "fail_script"].map fun name =>
    (name, .function 1 (.plain name))) ++
  [("adder", .function 1 (.object "adder" "Adder")), ("include", .function 1 .include)] ++
  (["where", "pending", "depths", "span_of", "echo", "capture", "push_scope", "pop_scope",
    "stop_output"].map fun name => (name, .function 1 (.contextual name)))

/-- The function of a name. -/
def function (name : String) : Value :=
  (functions.get? name).getD (.function 1 (.plain name))

end BasicHost

/-- A host with functions to look at values and contexts with, and to fail. -/
def basicHost : Host := ⟨BasicHost.plain, BasicHost.contextual⟩

end Stencil

import Stencil.Proofs.Direct
import Stencil.Proofs.Including

/-!
# Two evaluations side by side

Two evaluations match with respect to a relation on states if from related states
they come to the same: to the same value or to like failures, and to related
states. `Simulation` collects what has to be known of a relation for the steps of
two evaluators to match (`Simulation.step`): the stores and the contexts are the
same but for the sinks, and what one step changes by itself changes both in the
same way. What an include does is left open. `stepWith` is a step with another
meaning of includes, and `Simulation.includeWith` matches two includes that find
and render their templates in different ways.

Trees and failures may differ in their places, unless `placed` holds. `Node.Like`
and `Failure.Like` say so.
-/

namespace Stencil

/-! ## Alike but for places -/

/-- The same failure, up to its place unless `placed`. -/
structure Failure.Like (placed : Prop) (x y : Failure) : Prop where
  unplaced : x.unplaced = y.unplaced
  eq : placed → x = y

theorem Failure.Like.refl {placed : Prop} (x : Failure) : x.Like placed x := ⟨rfl, fun _ => rfl⟩

mutual

/-- The same tree, up to its places unless `placed`. -/
inductive Node.Like (placed : Prop) : Node → Node → Prop
  | absent : Node.Like placed .absent .absent
  | page {span span' : Span} {body body' front front' : Node} : (placed → span = span') →
      body.Like placed body' → front.Like placed front' →
      Node.Like placed (.page span body front) (.page span' body' front')
  | block {span span' : Span} {body body' : List Node} : (placed → span = span') →
      NodesLike placed body body' → Node.Like placed (.block span body) (.block span' body')
  | text {span span' : Span} {value : String} {id : Nat} : (placed → span = span') →
      Node.Like placed (.text span value id) (.text span' value id)
  | expression {span span' : Span} {value value' : Node} : (placed → span = span') →
      value.Like placed value' → Node.Like placed (.expression span value) (.expression span' value')
  | assign {span span' : Span} {target : String} {value value' : Node} : (placed → span = span') →
      value.Like placed value' → Node.Like placed (.assign span target value) (.assign span' target value')
  | branch {span span' : Span} {test test' body body' other other' : Node} :
      (placed → span = span') → test.Like placed test' → body.Like placed body' →
      other.Like placed other' →
      Node.Like placed (.branch span test body other) (.branch span' test' body' other')
  | loop {span span' : Span} {target : String} {source source' body body' : Node} :
      (placed → span = span') → source.Like placed source' → body.Like placed body' →
      Node.Like placed (.loop span target source body) (.loop span' target source' body')
  | const {span span' : Span} {value : Value} : (placed → span = span') →
      Node.Like placed (.const span value) (.const span' value)
  | name {span span' : Span} {name : String} : (placed → span = span') →
      Node.Like placed (.name span name) (.name span' name)
  | argument {span span' : Span} {index : Int} : (placed → span = span') →
      Node.Like placed (.argument span index) (.argument span' index)
  | argumentAt {span span' : Span} {index : Value} : (placed → span = span') →
      Node.Like placed (.argumentAt span index) (.argumentAt span' index)
  | list {span span' : Span} {items items' : List Node} : (placed → span = span') →
      NodesLike placed items items' → Node.Like placed (.list span items) (.list span' items')
  | member {span span' : Span} {object object' : Node} {name : String} : (placed → span = span') →
      object.Like placed object' → Node.Like placed (.member span object name) (.member span' object' name)
  | item {span span' : Span} {object object' key key' : Node} : (placed → span = span') →
      object.Like placed object' → key.Like placed key' →
      Node.Like placed (.item span object key) (.item span' object' key')
  | call {span span' : Span} {callee callee' : Node} {arguments arguments' : List Node} :
      (placed → span = span') → callee.Like placed callee' → NodesLike placed arguments arguments' →
      Node.Like placed (.call span callee arguments) (.call span' callee' arguments')
  | unary {span span' : Span} {op : UnaryOperator} {operand operand' : Node} :
      (placed → span = span') → operand.Like placed operand' →
      Node.Like placed (.unary span op operand) (.unary span' op operand')
  | arithmetic {span span' : Span} {op : Arithmetic} {left left' right right' : Node} :
      (placed → span = span') → left.Like placed left' → right.Like placed right' →
      Node.Like placed (.arithmetic span op left right) (.arithmetic span' op left' right')
  | compare {span span' : Span} {op : Comparison} {left left' right right' : Node} :
      (placed → span = span') → left.Like placed left' → right.Like placed right' →
      Node.Like placed (.compare span op left right) (.compare span' op left' right')
  | logic {span span' : Span} {op : Connective} {left left' right right' : Node} :
      (placed → span = span') → left.Like placed left' → right.Like placed right' →
      Node.Like placed (.logic span op left right) (.logic span' op left' right')
  | custom {span span' : Span} {writes value : Value} : (placed → span = span') →
      Node.Like placed (.custom span writes value) (.custom span' writes value)
  | foreign {span span' : Span} {typeName : String} : (placed → span = span') →
      Node.Like placed (.foreign span typeName) (.foreign span' typeName)
  | unknownOperator {span span' : Span} {symbol : String} {left left' right right' : Node} :
      (placed → span = span') → left.Like placed left' → right.Like placed right' →
      Node.Like placed (.unknownOperator span symbol left right) (.unknownOperator span' symbol left' right')

/-- The same trees in a row, up to their places unless `placed`. -/
inductive NodesLike (placed : Prop) : List Node → List Node → Prop
  | nil : NodesLike placed [] []
  | cons {node node' : Node} {rest rest' : List Node} : node.Like placed node' →
      NodesLike placed rest rest' → NodesLike placed (node :: rest) (node' :: rest')

end

mutual

theorem Node.Like.refl {placed : Prop} : ∀ node : Node, node.Like placed node
  | .absent => .absent
  | .page _ body front => .page (fun _ => rfl) (.refl body) (.refl front)
  | .block _ body => .block (fun _ => rfl) (.refl body)
  | .text .. => .text fun _ => rfl
  | .expression _ value => .expression (fun _ => rfl) (.refl value)
  | .assign _ _ value => .assign (fun _ => rfl) (.refl value)
  | .branch _ test body other => .branch (fun _ => rfl) (.refl test) (.refl body) (.refl other)
  | .loop _ _ source body => .loop (fun _ => rfl) (.refl source) (.refl body)
  | .const .. => .const fun _ => rfl
  | .name .. => .name fun _ => rfl
  | .argument .. => .argument fun _ => rfl
  | .argumentAt .. => .argumentAt fun _ => rfl
  | .list _ items => .list (fun _ => rfl) (.refl items)
  | .member _ object _ => .member (fun _ => rfl) (.refl object)
  | .item _ object key => .item (fun _ => rfl) (.refl object) (.refl key)
  | .call _ callee arguments => .call (fun _ => rfl) (.refl callee) (.refl arguments)
  | .unary _ _ operand => .unary (fun _ => rfl) (.refl operand)
  | .arithmetic _ _ left right => .arithmetic (fun _ => rfl) (.refl left) (.refl right)
  | .compare _ _ left right => .compare (fun _ => rfl) (.refl left) (.refl right)
  | .logic _ _ left right => .logic (fun _ => rfl) (.refl left) (.refl right)
  | .custom .. => .custom fun _ => rfl
  | .foreign .. => .foreign fun _ => rfl
  | .unknownOperator _ _ left right => .unknownOperator (fun _ => rfl) (.refl left) (.refl right)

theorem NodesLike.refl {placed : Prop} : ∀ nodes : List Node, NodesLike placed nodes nodes
  | [] => .nil
  | node :: rest => .cons (.refl node) (.refl rest)

end

mutual

/-- Where places count, the same trees are equal. -/
theorem Node.Like.eq {placed : Prop} (hp : placed) : ∀ {n n' : Node}, n.Like placed n' → n = n'
  | _, _, .absent => rfl
  | _, _, .text hs | _, _, .const hs | _, _, .name hs | _, _, .argument hs | _, _, .argumentAt hs
  | _, _, .custom hs | _, _, .foreign hs => by rw [hs hp]
  | _, _, .block hs h | _, _, .list hs h => by rw [hs hp, h.eq hp]
  | _, _, .expression hs h | _, _, .assign hs h | _, _, .member hs h | _, _, .unary hs h => by
    rw [hs hp, h.eq hp]
  | _, _, .page hs h k | _, _, .loop hs h k | _, _, .item hs h k | _, _, .arithmetic hs h k
  | _, _, .compare hs h k | _, _, .logic hs h k | _, _, .unknownOperator hs h k => by
    rw [hs hp, h.eq hp, k.eq hp]
  | _, _, .call hs h k => by rw [hs hp, h.eq hp, k.eq hp]
  | _, _, .branch hs h k l => by rw [hs hp, h.eq hp, k.eq hp, l.eq hp]

theorem NodesLike.eq {placed : Prop} (hp : placed) : ∀ {ns ns' : List Node}, NodesLike placed ns ns' → ns = ns'
  | _, _, .nil => rfl
  | _, _, .cons h k => by rw [h.eq hp, k.eq hp]

end

theorem NodesLike.append {placed : Prop} {as as' bs bs' : List Node} (h : NodesLike placed as as')
    (k : NodesLike placed bs bs') : NodesLike placed (as ++ bs) (as' ++ bs') := by
  induction as generalizing as' with
  | nil =>
    cases h
    exact k
  | cons a as ih =>
    cases h with
    | cons ha has => exact .cons ha (ih has)

theorem Node.Like.span? {placed : Prop} {node node' : Node} (h : node.Like placed node')
    (hp : placed) : node.span? = node'.span? := by
  cases h with
  | absent => rfl
  | _ => exact congrArg some (‹placed → _› hp)

/-! ## Outcomes -/

namespace Eval

variable {σ α β : Type} {placed : Prop} {R : σ → σ → Prop}

/-- Outcomes that are alike: the same value or like failures, in related states. -/
inductive Alike (placed : Prop) (R : σ → σ → Prop) {α : Type} :
    EStateM.Result Failure σ α → EStateM.Result Failure σ α → Prop
  | ok {a : α} {s t : σ} : R s t → Alike placed R (.ok a s) (.ok a t)
  | error {x y : Failure} {s t : σ} : x.Like placed y → R s t →
      Alike placed R (.error x s) (.error y t)

/-- From related states, two runs come to outcomes that are alike. -/
def Matches (placed : Prop) (R : σ → σ → Prop) (e f : EStateM Failure σ α) : Prop :=
  ∀ s t, R s t → Alike placed R (e s) (f t)

namespace Alike

theorem cases_at {r r' : EStateM.Result Failure σ α} (h : Alike placed R r r') :
    (∃ a s t, r = .ok a s ∧ r' = .ok a t ∧ R s t) ∨
      ∃ x y s t, r = .error x s ∧ r' = .error y t ∧ x.Like placed y ∧ R s t := by
  cases h with
  | ok h => exact .inl ⟨_, _, _, rfl, rfl, h⟩
  | error hx h => exact .inr ⟨_, _, _, _, rfl, rfl, hx, h⟩

theorem fail {s t : σ} (x : Failure) (h : R s t) :
    Alike placed R (.error x s : EStateM.Result Failure σ α) (.error x t) :=
  .error (.refl x) h

theorem mono {R' : σ → σ → Prop} (hR : ∀ s t, R s t → R' s t)
    {r r' : EStateM.Result Failure σ α} (h : Alike placed R r r') : Alike placed R' r r' := by
  cases h with
  | ok h => exact .ok (hR _ _ h)
  | error hx h => exact .error hx (hR _ _ h)

/-- A sequence, from two states. -/
protected theorem bind {e f : EStateM Failure σ α} {k l : α → EStateM Failure σ β} {s t : σ}
    (h : Alike placed R (e s) (f t))
    (hk : ∀ a s' t', e s = .ok a s' → f t = .ok a t' → R s' t' → Alike placed R (k a s') (l a t')) :
    Alike placed R ((e >>= k) s) ((f >>= l) t) := by
  rw [bind_run, bind_run]
  obtain ⟨a, s', t', he, hf, h⟩ | ⟨x, y, s', t', he, hf, hx, h⟩ := h.cases_at
  · rw [he, hf]
    exact hk a s' t' he hf h
  · rw [he, hf]
    exact .error hx h

/-- With a clean-up behind it, from two states. -/
protected theorem ensuring {R : State → State → Prop} {e f : Eval α} {cleanUp cleanUp' : Eval Unit}
    {s t : State} (h : Alike placed R (e s) (f t)) (hc : Matches placed R cleanUp cleanUp') :
    Alike placed R (ensuring e cleanUp s) (ensuring f cleanUp' t) := by
  obtain ⟨a, s', t', he, hf, h⟩ | ⟨x, y, s', t', he, hf, hx, h⟩ := h.cases_at
  all_goals
    simp only [Eval.ensuring, he, hf]
    obtain ⟨_, _, _, hc, hc', hr⟩ | ⟨_, _, _, _, hc, hc', hy, hr⟩ := (hc s' t' h).cases_at
    all_goals rw [hc, hc']
  · exact .ok hr
  · exact .error hy hr
  · exact .error hx hr
  · exact .error hy hr

/-- What runs in a sink of its own, from two states: the sink is closed in states that are
related by `P`, and the clean-up runs in states that are related by `Q`. -/
protected theorem capture {P Q R : State → State → Prop} {body body' cleanUp cleanUp' : Eval Unit}
    {s t : State}
    (h : Alike placed P ((do pushSink; body : Eval Unit) s) ((do pushSink; body' : Eval Unit) t))
    (hpop : ∀ u v, P u v →
      (∃ sink u' v', popSink u = .ok sink u' ∧ popSink v = .ok sink v' ∧ Q u' v') ∨
        ∃ x u' v', popSink u = .error x u' ∧ popSink v = .error x v' ∧ R u' v')
    (hclean : ∀ u v, Q u v → Alike placed R (cleanUp u) (cleanUp' v)) :
    Alike placed R (capture body cleanUp s) (capture body' cleanUp' t) := by
  obtain ⟨a, u, v, e, e', hu⟩ | ⟨x, y, u, v, e, e', hx, hu⟩ := h.cases_at
  all_goals
    obtain ⟨sink, u', v', p, p', hp⟩ | ⟨z, u', v', p, p', hp⟩ := hpop u v hu
  · obtain ⟨_, _, _, c, c', hc⟩ | ⟨_, _, _, _, c, c', hy, hc⟩ := (hclean u' v' hp).cases_at
    all_goals simp only [capture, e, e', bind_run, p, p', c, c', pure_run]
    · exact .ok hc
    · exact .error hy hc
  · simp only [capture, e, e', bind_run, p, p']
    exact .fail z hp
  · obtain ⟨_, _, _, c, c', hc⟩ | ⟨_, _, _, _, c, c', hy, hc⟩ := (hclean u' v' hp).cases_at
    all_goals simp only [capture, e, e', bind_run, p, p', c, c']
    · exact .error hx hc
    · exact .error hy hc
  · simp only [capture, e, e', bind_run, p, p']
    exact .fail z hp

end Alike

namespace Matches

protected theorem pure (a : α) :
    Matches placed R (pure a : EStateM Failure σ α) (pure a) := fun _ _ h => .ok h

protected theorem throw (x : Failure) :
    Matches placed R (throw x : EStateM Failure σ α) (throw x) := fun _ _ h => .fail x h

protected theorem bind {e f : EStateM Failure σ α} {k l : α → EStateM Failure σ β}
    (h : Matches placed R e f)
    (hk : ∀ a, Matches placed R (k a) (l a)) : Matches placed R (e >>= k) (f >>= l) :=
  fun s t hr => (h s t hr).bind fun a s' t' _ _ hr' => hk a s' t' hr'

protected theorem ensuring {R : State → State → Prop} {e f : Eval α} {cleanUp cleanUp' : Eval Unit}
    (h : Matches placed R e f)
    (hc : Matches placed R cleanUp cleanUp') :
    Matches placed R (ensuring e cleanUp) (ensuring f cleanUp') :=
  fun s t hr => (h s t hr).ensuring hc

/-- From the same state, a run comes to the same. -/
protected theorem refl (e : EStateM Failure σ α) : Matches placed Eq e e := by
  rintro s _ rfl
  cases e s with
  | ok a t => exact .ok rfl
  | error x t => exact .fail x rfl

/-- What looks at nothing that related states differ in. -/
theorem get {k : σ → EStateM Failure σ α} (he : ∀ s t, R s t → k t = k s)
    (hk : ∀ u, Matches placed R (k u) (k u)) :
    Matches placed R (do k (← MonadState.get)) (do k (← MonadState.get)) := by
  intro s t h
  simp only [bind_run, get_run, he s t h]
  exact hk s s t h

theorem forM {f g : α → EStateM Failure σ PUnit} (h : ∀ a, Matches placed R (f a) (g a)) (l : List α) :
    Matches placed R (l.forM f) (l.forM g) := by
  induction l with
  | nil => exact .pure _
  | cons a l ih => exact (h a).bind fun _ => ih

end Matches

end Eval

/-! ## What a simulation has to know -/

/-- A context with the sinks of another one. -/
def Context.withSinks (c d : Context) : Context :=
  { c with sink := d.sink, sinksBelow := d.sinksBelow }

/-- A state with other scopes. -/
def State.inScopes (s : State) (scopes : List Scope) : State :=
  { s with context := { s.context with scopes } }

/-- A state with output enabled or not. -/
def State.enabling (s : State) (outputEnabled : Bool) : State :=
  { s with context := { s.context with outputEnabled } }

/-- A state in which a value was written as a text. -/
def State.wrote (s : State) (v : Value) (text : String) : State :=
  { s with context := { s.context with sink := s.context.sink.write v text } }

/-- The place of a call as a value. -/
def placeValue (span : Option Span) : Value := (span.map fun span => Value.text 0 span.text).getD .null

/-- What has to be known of a relation for evaluators to match step by step. Related
states have the same store and, but for the sinks, the same context; the relation is kept
when the store, the scopes, the files or the switch of the output change on both sides in
the same way and when the same is written; and functions of the host keep it too. Those
that see their arguments alone may be given a description of the context: they must not
tell the two descriptions apart. -/
structure Simulation (placed : Prop) (host : Host) (R : State → State → Prop) : Prop where
  store_eq {s t : State} : R s t → t.store = s.store
  context_eq {s t : State} : R s t → t.context = s.context.withSinks t.context
  setStore {s t : State} : R s t → ∀ store, R { s with store } { t with store }
  setScopes {s t : State} : R s t → ∀ scopes, R (s.inScopes scopes) (t.inScopes scopes)
  setFiles {s t : State} : R s t → ∀ files, R (s.inFiles files) (t.inFiles files)
  setEnabled {s t : State} : R s t → ∀ enabled, R (s.enabling enabled) (t.enabling enabled)
  wrote {s t : State} {v : Value} {text : String} : R s t → s.store.display v = .ok text →
    R (s.wrote v text) (t.wrote v text)
  contextual (name : String) {span span' : Option Span} : (placed → span = span') →
    ∀ arguments, Eval.Matches placed R (host.contextual name span arguments)
      (host.contextual name span' arguments)
  invoked {s t : State} : R s t → ∀ {span span' : Option Span}, (placed → span = span') →
    ∀ name list,
      host.plain name [.text 0 (s.context.description s.cache), placeValue span, list] =
        host.plain name [.text 0 (t.context.description t.cache), placeValue span', list]

namespace Eval

/-! ## Steps with another meaning of includes -/

/-- Calls a value; `includes` is what an include does. -/
def callWith (includes : Option Span → List Value → Eval Sink) (host : Host) (span : Option Span)
    (callee : Value) (arguments : List Value) : Eval Value :=
  match callee with
  | .function _ .include => do
    let output ← includes span arguments
    computed output.value
  | callee => call host (fun _ => return) span callee arguments

/-- Evaluates a call, with another meaning of includes. -/
def callNodeWith (includes : Option Span → List Value → Eval Sink) (host : Host)
    (run : Runner) (span : Span) (callee : Node) (arguments : List Node) : Eval Value := do
  let f ← run.node callee
  match f, callee with
  | .null, .name _ name => report (.functionNotFound name) (some span)
  | f, _ =>
    let values ← arguments.mapM run.node
    callWith includes host (some span) f values

/-- What a node does, with another meaning of includes. -/
def stepWith (includes : Option Span → List Value → Eval Sink) (host : Host) (run : Runner)
    (fuel : Nat) (node : Node) : Eval Value :=
  match node with
  | .call span callee arguments => callNodeWith includes host run span callee arguments
  | node => step host run fuel node

theorem call_eq (host : Host) (render : Template → Eval Unit) :
    call host render = callWith (includeTemplate render) host := by
  funext span callee arguments
  unfold callWith
  split
  · rfl
  · next h =>
    unfold call
    split
    · exact absurd rfl (h _)
    · rfl
    · rfl
    · rfl
    · rfl

/-- A step is one with the meaning that includes have. -/
theorem step_eq (host : Host) (run : Runner) (fuel : Nat) (node : Node) :
    step host run fuel node = stepWith (includeTemplate run.render) host run fuel node := by
  cases node with
  | call span callee arguments =>
    show callNode host run span callee arguments = callNodeWith _ host run span callee arguments
    unfold callNode callNodeWith
    exact call_eq host run.render ▸ rfl
  | _ => rfl

/-- An include, with another way to come by the template at a path. -/
def includeWith (fetch : Option Span → Loader → String → String → Eval Template)
    (render : Template → Eval Unit) (span : Option Span) (arguments : List Value) : Eval Sink := do
  let span := (← context).locate span
  match arguments with
  | [] => report .includeArity span
  | nameValue :: arguments =>
    let name ← includeName span nameValue
    match (← context).loader with
    | none => report (.noLoader name) span
    | some loader =>
      let path ← includePath span loader name
      let scope ← currentScope
      let list ← computed (Computation.newList arguments)
      assign argumentsName list span
      ensuring (do
        let template ← fetch span loader name path
        enterPending span name
        capture (render template) (leavePending name))
        (restoreArguments scope)

theorem includeTemplate_eq : includeTemplate = includeWith includedTemplate := rfl

/-- Evaluates a node, with another meaning of includes. -/
def evaluateWith (includes : (Template → Eval Unit) → Option Span → List Value → Eval Sink)
    (host : Host) : Nat → Node → Eval Value
  | 0, _ => throw .exhausted
  | fuel + 1, node =>
    stepWith (includes (renderWith (evaluateWith includes host fuel))) host
      ⟨evaluateWith includes host fuel, renderWith (evaluateWith includes host fuel)⟩ fuel node

theorem evaluate_eq (host : Host) : evaluate host = evaluateWith includeTemplate host := by
  funext fuel
  induction fuel with
  | zero => rfl
  | succ fuel ih =>
    funext node
    rw [evaluate, evaluateWith, step_eq, ih]

/-- A run of a template, given how nodes are evaluated. -/
def TemplateRun.runWith (node : Node → Eval Value) (t : Template) : TemplateRun → Eval Value
  | .render => do
    renderWith node t
    return .null
  | .evaluate => do
    checkErrors t
    silently (runPage node t)
  | .frontMatter => do
    checkErrors t
    match t.frontMatter? with
    | none => return .null
    | some front => silently (within t.path (node front))

theorem TemplateRun.run_eq (host : Host) (fuel : Nat) (t : Template) (way : TemplateRun) :
    way.run host fuel t = way.runWith (Eval.evaluate host fuel) t := by
  cases way <;> rfl

end Eval

namespace Simulation

open Eval

variable {α β : Type} {placed : Prop} {host : Host} {R : State → State → Prop}
  (S : Simulation placed host R)

include S

/-! ## What related states have in common -/

section States

variable {s t : State} (h : R s t)

include h

theorem scopes : t.context.scopes = s.context.scopes := by rw [S.context_eq h]; rfl

theorem files : t.context.sourceFiles = s.context.sourceFiles := by rw [S.context_eq h]; rfl

theorem enabled : t.context.outputEnabled = s.context.outputEnabled := by
  rw [S.context_eq h]
  rfl

theorem loader : t.context.loader = s.context.loader := by rw [S.context_eq h]; rfl

theorem lookUp_eq (name : String) : t.context.lookUp name = s.context.lookUp name := by
  rw [S.context_eq h]
  rfl

theorem strict : t.context.strict = s.context.strict := by rw [S.context_eq h]; rfl

theorem arguments_eq : t.context.arguments? = s.context.arguments? := by
  rw [S.context_eq h]
  rfl

theorem locate_eq (span : Option Span) : t.context.locate span = s.context.locate span := by
  rw [S.context_eq h]
  rfl

theorem locate {span span' : Option Span} (hp : placed → span = span') (k : placed) :
    s.context.locate span = t.context.locate span' := by
  rw [hp k, S.locate_eq h]

end States

/-! ## The operations -/

theorem report (cause : Cause) {span span' : Option Span} (hp : placed → span = span') :
    Matches placed R (report cause span : Eval α) (report cause span') := by
  intro s t h
  refine .error ⟨rfl, fun k => ?_⟩ h
  exact congrArg (fun place => Failure.script ⟨cause, place⟩) (S.locate h hp k)

theorem truthy (v : Value) : Matches placed R (truthy v) (truthy v) := by
  intro s t h
  have e : t.store.truthy v = s.store.truthy v := by rw [S.store_eq h]
  show Alike placed R (.ok _ s) (.ok _ t)
  rw [e]
  exact .ok h

theorem compute {onFault onFault' : Fault → Eval α}
    (hf : ∀ e, Matches placed R (onFault e) (onFault' e)) (c : Computation α) :
    Matches placed R (compute onFault c) (compute onFault' c) := by
  intro s t h
  rw [compute_run, compute_run, S.store_eq h]
  cases c s.store with
  | ok a store => exact .ok (S.setStore h store)
  | error e store => exact hf e _ _ (S.setStore h store)

theorem computed (c : Computation α) : Matches placed R (computed c) (computed c) :=
  S.compute (fun _ => .throw _) c

theorem assign (name : String) (v : Value) {span span' : Option Span} (hp : placed → span = span') :
    Matches placed R (assign name v span) (assign name v span') := by
  intro s t h
  cases hs : s.context.scopes with
  | nil =>
    have ht : t.context.scopes = [] := (S.scopes h).trans hs
    rw [assign_run_nil hs, assign_run_nil ht]
    exact S.report (.cannotSet name) hp s t h
  | cons scope below =>
    have ht : t.context.scopes = scope :: below := (S.scopes h).trans hs
    rw [assign_run hs, assign_run ht]
    exact .ok (S.setScopes h _)

theorem conversionFailure {s t : State} (h : R s t) {span span' : Option Span}
    (hp : placed → span = span') (v : Value) (e : Fault) :
    (conversionFailure s.context span v e).Like placed (conversionFailure t.context span' v e) := by
  refine ⟨unplaced_conversionFailure _ _ _ _ v e, fun k => ?_⟩
  have hl := S.locate h hp k
  cases e with
  | refused reason => rfl
  | _ => exact congrArg (fun place => Failure.script ⟨_, place⟩) hl

theorem write (v : Value) {span span' : Option Span} (hp : placed → span = span') :
    Matches placed R (write span v) (write span' v) := by
  intro s t h
  rcases Bool.eq_false_or_eq_true s.context.outputEnabled with ho | ho
  · have ho' : t.context.outputEnabled = true := (S.enabled h).trans ho
    have hs : t.store.display v = s.store.display v := by rw [S.store_eq h]
    rw [write_run_enabled ho, write_run_enabled ho', hs]
    cases hd : s.store.display v with
    | ok text => exact .ok (S.wrote h hd)
    | error e => exact .error (S.conversionFailure h hp v e) h
  · have ho' : t.context.outputEnabled = false := (S.enabled h).trans ho
    rw [write_run_disabled ho, write_run_disabled ho']
    exact .ok h

theorem writeResult (v : Value) {span span' : Option Span} (hp : placed → span = span') :
    Matches placed R (writeResult span v) (writeResult span' v) := by
  unfold Eval.writeResult
  split
  · exact .pure _
  · exact S.write v hp

theorem lookUp (name : String) {span span' : Option Span} (hp : placed → span = span') :
    Matches placed R (Eval.lookUp name span) (Eval.lookUp name span') := by
  intro s t h
  simp only [Eval.lookUp, bind_run, context_run, S.lookUp_eq h, S.strict h]
  cases s.context.lookUp name with
  | some v => exact .ok h
  | none =>
    cases s.context.strict with
    | true => exact S.report (.undefinedVariable name) hp s t h
    | false => exact .ok h

theorem pushScope (bindings : Table Value) :
    Matches placed R (pushScope bindings) (pushScope bindings) := by
  intro s t h
  have e (u : State) : Eval.pushScope bindings u = .ok () ((⟨u.context, u.store.newNumber.2,
      u.cache, u.library⟩ : State).inScopes (⟨u.store.newNumber.1, bindings⟩ :: u.context.scopes)) := rfl
  rw [e, e, S.store_eq h, S.scopes h]
  exact .ok (S.setScopes (S.setStore h _) _)

theorem popScope : Matches placed R popScope popScope := by
  intro s t h
  cases hs : s.context.scopes with
  | nil =>
    have ht : t.context.scopes = [] := (S.scopes h).trans hs
    simp only [Eval.popScope, bind_run, context_run, hs, ht, throw_run]
    exact .fail _ h
  | cons scope below =>
    have ht : t.context.scopes = scope :: below := (S.scopes h).trans hs
    simp only [Eval.popScope, bind_run, context_run, hs, ht, changeContext_run, pure_run]
    exact .ok (S.setScopes h below)

/-- What runs in a file. -/
theorem within {path : Option String} {body body' : Eval α} (h : Matches placed R body body') :
    Matches placed R (within path body) (within path body') := by
  cases path with
  | none => exact h
  | some path =>
    intro s t hr
    have hf := S.files hr
    have hpush : R (s.inFiles (path :: s.context.sourceFiles))
        (t.inFiles (path :: t.context.sourceFiles)) := by
      rw [hf]
      exact S.setFiles hr _
    refine Alike.ensuring (h _ _ hpush) fun u v hu => ?_
    cases hs : u.context.sourceFiles with
    | nil =>
      have ht : v.context.sourceFiles = [] := (S.files hu).trans hs
      rw [bind_of_error (popSourceFile_run_nil hs), bind_of_error (popSourceFile_run_nil ht)]
      exact .fail _ hu
    | cons file below =>
      have ht : v.context.sourceFiles = file :: below := (S.files hu).trans hs
      rw [bind_of_ok (popSourceFile_run hs), bind_of_ok (popSourceFile_run ht)]
      exact .ok (S.setFiles hu below)

/-! ## Expressions -/

theorem argument (index : Int) : Matches placed R (argument index) (argument index) := by
  refine .get (fun s t h => by simp only [S.arguments_eq h, S.store_eq h]) fun u => ?_
  split
  · next id _ =>
    dsimp only
    by_cases hsize : (u.store.size id : Int) ≤ index
    · simp only [if_pos hsize]
      exact .pure _
    · simp only [if_neg hsize]
      by_cases hlimit : index < -indexLimit
      · simp only [if_pos hlimit]
        exact .throw _
      · simp only [if_neg hlimit]
        cases atIndex? (u.store.contents id) index with
        | some v => exact .pure v
        | none => exact .throw _
  · exact .pure _

theorem argumentAt (index : Value) : Matches placed R (argumentAt index) (argumentAt index) := by
  refine .get (fun s t h => by simp only [S.arguments_eq h, S.store_eq h]) fun u => ?_
  split
  · exact S.argument _
  · dsimp only
    split
    · exact .pure _
    · exact .throw _
  · exact .throw _
  · exact .pure _

theorem item {span span' : Span} (hp : placed → span = span') (object key : Value) :
    Matches placed R (item span object key) (item span' object key) := by
  refine S.compute (fun e => ?_) _
  cases e.kind with
  | type => exact S.report _ fun k => congrArg some (hp k)
  | _ => exact .throw _

theorem negate {span span' : Span} (hp : placed → span = span') (v : Value) :
    Matches placed R (negate span v) (negate span' v) := by
  refine S.compute (fun e => ?_) _
  cases e.kind with
  | type => exact S.report _ fun k => congrArg some (hp k)
  | _ => exact .throw _

theorem arithmetic {span span' : Span} (hp : placed → span = span') (op : Arithmetic)
    (left right : Value) :
    Matches placed R (arithmetic span op left right) (arithmetic span' op left right) := by
  refine S.compute (fun e => ?_) _
  cases e.kind with
  | type | value | zeroDivision => exact S.report _ fun k => congrArg some (hp k)
  | _ => exact .throw _

theorem comparison {span span' : Span} (hp : placed → span = span') (op : Comparison)
    (left right : Value) :
    Matches placed R (comparison span op left right) (comparison span' op left right) := by
  refine S.compute (fun e => ?_) _
  cases e.kind with
  | type => exact S.report _ fun k => congrArg some (hp k)
  | _ => exact .throw _

/-! ## Calls -/

theorem callPlain (label : String) (call : PlainCall Value) {span span' : Option Span}
    (hp : placed → span = span') :
    Matches placed R (callPlain span label call) (callPlain span' label call) := by
  intro s t h
  simp only [Eval.callPlain, S.store_eq h]
  cases call s.store with
  | ok v store => exact .ok (S.setStore h store)
  | error e store =>
    cases e with
    | reported e => exact S.report (.callFailed label e.message) hp _ _ (S.setStore h store)
    | passing x => exact .fail x (S.setStore h store)

theorem callInvoked (f : Value) (arguments : List Value) {span span' : Option Span}
    (hp : placed → span = span') :
    Matches placed R (callInvoked host span f arguments) (callInvoked host span' f arguments) := by
  intro s t h
  have hcall (name : String) (list : Value) (store : Store) : Alike placed R
      (callUnreported (host.plain name
        [.text 0 (s.context.description s.cache), placeValue span, list]) { s with store })
      (callUnreported (host.plain name
        [.text 0 (t.context.description t.cache), placeValue span', list]) { t with store }) := by
    rw [S.invoked h hp name list]
    unfold callUnreported
    cases host.plain name
        [.text 0 (t.context.description t.cache), placeValue span', list] store with
    | ok v store' => exact .ok (S.setStore h store')
    | error e store' => exact .fail e.unreported (S.setStore h store')
  simp only [Eval.callInvoked, bind_run, get_run, newList_run, S.store_eq h]
  split
  · exact hcall _ _ _
  · exact hcall _ _ _
  · exact .fail _ (S.setStore h _)

/-- A call, for includes that match. -/
theorem callWith {includes includes' : Option Span → List Value → Eval Sink}
    {span span' : Option Span} (hp : placed → span = span') (callee : Value)
    (arguments : List Value) (hi : Matches placed R (includes span arguments) (includes' span' arguments)) :
    Matches placed R (Eval.callWith includes host span callee arguments)
      (Eval.callWith includes' host span' callee arguments) := by
  cases callee with
  | function id f =>
    cases f with
    | «include» => exact hi.bind fun sink => S.computed sink.value
    | contextual name => exact S.contextual name hp arguments
    | _ => exact S.callPlain _ _ hp
  | method receiver m => exact S.callPlain _ _ hp
  | _ =>
    simp only [Eval.callWith, Eval.call]
    split
    · exact S.callInvoked _ _ hp
    · exact S.report _ hp

/-! ## Nodes -/

section Nodes

variable {run run' : Runner}
  (hn : ∀ {n n' : Node}, n.Like placed n' → Matches placed R (run.node n) (run'.node n'))

include hn

omit S in
theorem mapM {nodes nodes' : List Node} (h : NodesLike placed nodes nodes') :
    Matches placed R (nodes.mapM run.node) (nodes'.mapM run'.node) := by
  induction nodes generalizing nodes' with
  | nil =>
    cases h
    exact .pure _
  | cons node rest ih =>
    cases h with
    | cons hnode hrest =>
      rw [List.mapM_cons, List.mapM_cons]
      exact (hn hnode).bind fun _ => (ih hrest).bind fun _ => .pure _

theorem callNode {includes includes' : Option Span → List Value → Eval Sink}
    (hi : ∀ {span span' : Option Span}, (placed → span = span') → ∀ arguments,
      Matches placed R (includes span arguments) (includes' span' arguments))
    {span span' : Span} (hp : placed → span = span') {callee callee' : Node}
    (hc : callee.Like placed callee') {arguments arguments' : List Node}
    (ha : NodesLike placed arguments arguments') :
    Matches placed R (callNodeWith includes host run span callee arguments)
      (callNodeWith includes' host run' span' callee' arguments') := by
  have hs : placed → some span = some span' := fun k => congrArg some (hp k)
  refine (hn hc).bind fun f => ?_
  have hcall : Matches placed R
      (do
        let values ← arguments.mapM run.node
        Eval.callWith includes host (some span) f values)
      (do
        let values ← arguments'.mapM run'.node
        Eval.callWith includes' host (some span') f values) :=
    (mapM hn ha).bind fun values => S.callWith hs f values (hi hs values)
  cases f with
  | null =>
    cases hc with
    | name _ => exact S.report _ hs
    | _ => exact hcall
  | _ => exact hcall

theorem logic (op : Connective) {left left' right right' : Node} (hl : left.Like placed left')
    (hr : right.Like placed right') :
    Matches placed R (logic run op left right) (logic run' op left' right') := by
  refine (hn hl).bind fun l => (S.truthy l).bind fun b => ?_
  have hright : Matches placed R (do return Value.bool (← Eval.truthy (← run.node right)))
      (do return Value.bool (← Eval.truthy (← run'.node right'))) :=
    (hn hr).bind fun r => (S.truthy r).bind fun _ => .pure _
  cases op <;> cases b
  · exact .pure _
  · exact hright
  · exact hright
  · exact .pure _

theorem statements {nodes nodes' : List Node} (h : NodesLike placed nodes nodes') :
    Matches placed R (statements run nodes) (statements run' nodes') := by
  induction nodes generalizing nodes' with
  | nil =>
    cases h
    exact .pure _
  | cons node rest ih =>
    cases h with
    | cons hnode hrest =>
      cases hrest with
      | nil => exact hn hnode
      | cons hnext hrest =>
        exact (hn hnode).bind fun v =>
          (S.writeResult v hnode.span?).bind fun _ => ih (.cons hnext hrest)

theorem turn {span span' : Span} (hp : placed → span = span') (target : String) {body body' : Node}
    (hb : body.Like placed body') (v : Value) :
    Matches placed R (turn run span target body v) (turn run' span' target body' v) :=
  (S.assign target v fun k => congrArg some (hp k)).bind fun _ =>
    (hn hb).bind fun w => S.writeResult w hb.span?

theorem loopList {span span' : Span} (hp : placed → span = span') (target : String)
    {body body' : Node} (hb : body.Like placed body') (id : ListId) (fuel index : Nat) :
    Matches placed R (loopList run span target body id fuel index)
      (loopList run' span' target body' id fuel index) := by
  induction fuel generalizing index with
  | zero => exact .throw _
  | succ fuel ih =>
    intro s t h
    simp only [Eval.loopList, bind_run, get_run, S.store_eq h]
    cases s.store.item? id index with
    | none => exact .ok h
    | some v => exact ((S.turn hn hp target hb v).bind fun _ => ih (index + 1)) s t h

theorem loop (fuel : Nat) {span span' : Span} (hp : placed → span = span') (target : String)
    {source source' body body' : Node} (hs : source.Like placed source')
    (hb : body.Like placed body') :
    Matches placed R (loop run fuel span target source body)
      (loop run' fuel span' target source' body') := by
  refine (hn hs).bind fun v => ?_
  split
  · exact .pure _
  · exact (S.loopList hn hp target hb _ fuel 0).bind fun _ => .pure _
  · refine (S.computed _).bind fun items => ?_
    split
    · exact S.report _ hs.span?
    · exact (Matches.forM (S.turn hn hp target hb) _).bind fun _ => .pure _

/-- Two steps match if what runs below them does and the includes do. -/
theorem step {includes includes' : Option Span → List Value → Eval Sink}
    (hi : ∀ {span span' : Option Span}, (placed → span = span') → ∀ arguments,
      Matches placed R (includes span arguments) (includes' span' arguments))
    (fuel : Nat) {node node' : Node} (h : node.Like placed node') :
    Matches placed R (stepWith includes host run fuel node) (stepWith includes' host run' fuel node') := by
  cases h with
  | absent => exact .pure _
  | page _ hb _ => exact hn hb
  | block _ hb => exact S.statements hn hb
  | text _ => exact .pure _
  | expression _ hv => exact hn hv
  | assign hp hv =>
    exact (hn hv).bind fun v => (S.assign _ v fun k => congrArg some (hp k)).bind fun _ => .pure _
  | branch _ ht hb ho =>
    refine (hn ht).bind fun v => (S.truthy v).bind fun b => ?_
    cases b
    · exact hn ho
    · exact hn hb
  | loop hp hs hb => exact S.loop hn fuel hp _ hs hb
  | const _ => exact .pure _
  | @name span span' name hp =>
    show Matches placed R
      (if name = argumentsName then do return ((← context).arguments?).getD .null
        else Eval.lookUp name (some span))
      (if name = argumentsName then do return ((← context).arguments?).getD .null
        else Eval.lookUp name (some span'))
    split
    · intro s t h
      simp only [bind_run, context_run, S.arguments_eq h]
      exact .ok h
    · exact S.lookUp name fun k => congrArg some (hp k)
  | argument _ => exact S.argument _
  | argumentAt _ => exact S.argumentAt _
  | list _ hi => exact (mapM hn hi).bind fun _ => S.computed _
  | member _ ho => exact (hn ho).bind fun _ => S.computed _
  | item hp ho hk => exact (hn ho).bind fun _ => (hn hk).bind fun _ => S.item hp _ _
  | call hp hc ha => exact S.callNode hn hi hp hc ha
  | @unary _ _ op _ _ hp ho =>
    refine (hn ho).bind fun v => ?_
    cases op with
    | not => exact (S.truthy v).bind fun _ => .pure _
    | negate => exact S.negate hp v
  | arithmetic hp hl hr => exact (hn hl).bind fun _ => (hn hr).bind fun _ => S.arithmetic hp _ _ _
  | compare hp hl hr => exact (hn hl).bind fun _ => (hn hr).bind fun _ => S.comparison hp _ _ _
  | logic _ hl hr => exact S.logic hn _ hl hr
  | custom hp => exact (S.write _ fun k => congrArg some (hp k)).bind fun _ => .pure _
  | foreign _ => exact .throw _
  | unknownOperator _ hl hr => exact (hn hl).bind fun _ => (hn hr).bind fun _ => .throw _

end Nodes

/-! ## Templates -/

omit S in
theorem checkErrors (t : Template) : Matches placed R (checkErrors t) (checkErrors t) := by
  unfold Eval.checkErrors
  split
  · exact .throw _
  · exact .pure _

/-- An evaluation with output turned off. -/
theorem silently {body body' : Eval α} (h : Matches placed R body body') :
    Matches placed R (silently body) (silently body') := by
  intro s t hr
  have e (body : Eval α) (u : State) : Eval.silently body u = Eval.ensuring body
      (changeContext fun c => { c with outputEnabled := u.context.outputEnabled })
      (u.enabling false) := rfl
  rw [e, e, S.enabled hr]
  exact Alike.ensuring (h _ _ (S.setEnabled hr false)) fun u v hu => .ok (S.setEnabled hu _)

section Templates

variable {node node' : Node → Eval Value} (hn : ∀ n, Matches placed R (node n) (node' n))
  (t : Template)

include hn

theorem runPage : Matches placed R (runPage node t) (runPage node' t) := by
  unfold Eval.runPage
  cases t.page with
  | none => exact .pure _
  | some page => exact S.within (hn page.node)

/-- The same template, rendered in two ways that match. -/
theorem renderWith : Matches placed R (renderWith node t) (renderWith node' t) := by
  refine (checkErrors t).bind fun _ => (S.runPage hn t).bind fun v => ?_
  unfold writePage
  cases t.page with
  | none => exact .pure _
  | some page => exact S.writeResult v fun _ => rfl

/-- The same template, run in two ways that match. -/
theorem runWith (way : TemplateRun) :
    Matches placed R (way.runWith node t) (way.runWith node' t) := by
  cases way with
  | render => exact (S.renderWith hn t).bind fun _ => .pure _
  | evaluate => exact (checkErrors t).bind fun _ => S.silently (S.runPage hn t)
  | frontMatter =>
    refine (checkErrors t).bind fun _ => ?_
    cases t.frontMatter? with
    | none => exact .pure _
    | some front => exact S.silently (S.within (hn front))

end Templates

/-! ## Includes -/

theorem includeName {span span' : Option Span} (hp : placed → span = span') (v : Value) :
    Matches placed R (includeName span v) (includeName span' v) := by
  refine (S.compute (fun e => S.report _ hp) _).bind fun text => ?_
  dsimp only
  split
  · exact S.report _ hp
  · exact .pure _

/-- The template at a path, from the same cache. -/
theorem includedTemplate {loader : Loader} {span span' : Option Span} {path : String}
    (hcache : ∀ {s t}, R s t → t.cache = s.cache)
    (hset : ∀ {s t}, R s t → ∀ cache, R { s with cache } { t with cache })
    (hload : Matches placed R (ask (loader.load span path)) (ask (loader.load span' path)))
    (hp : placed → span = span') (name : String) :
    Matches placed R (includedTemplate span loader name path)
      (includedTemplate span' loader name path) := by
  have hread : Matches placed R (readIncluded span loader name path)
      (readIncluded span' loader name path) := by
    refine hload.bind fun answer => ?_
    cases answer with
    | none => exact S.report _ hp
    | some text =>
      intro s t h
      have ho : t.context.options = s.context.options := by
        rw [S.context_eq h]
        rfl
      simp only [bind_run, context_run, ho]
      cases Template.parse (includeOptions s.context.options) (some path) text with
      | error e => exact .fail _ h
      | ok template =>
        cases he : template.hasErrors with
        | true =>
          simp only [he, if_true]
          exact S.report _ hp s t h
        | false =>
          simp only [he, Bool.false_eq_true, if_false]
          show Alike placed _ (.ok _ _) (.ok _ _)
          rw [S.store_eq h, hcache h]
          exact .ok (hset (S.setStore h (template.load s.store).2)
            (s.cache.addIfAbsent path (template.load s.store).1).2)
  intro s t h
  simp only [Eval.includedTemplate, bind_run, get_run, hcache h]
  cases s.cache.get? path with
  | some kept => exact .ok h
  | none => exact hread s t h

theorem currentScope : Matches placed R currentScope currentScope := by
  intro s t h
  cases hs : s.context.scopes with
  | nil =>
    have ht : t.context.scopes = [] := (S.scopes h).trans hs
    rw [currentScope_run_nil hs, currentScope_run_nil ht]
    exact .fail _ h
  | cons scope below =>
    have ht : t.context.scopes = scope :: below := (S.scopes h).trans hs
    rw [currentScope_run hs, currentScope_run ht]
    exact .ok h

theorem restoreArguments (scope : Scope) :
    Matches placed R (restoreArguments scope) (restoreArguments scope) := by
  intro s t h
  have e (u : State) : Eval.restoreArguments scope u = .ok () (u.inScopes _) := rfl
  rw [e, e, S.scopes h]
  exact .ok (S.setScopes h _)

/-- Two includes that find and render their templates in different ways, from two
states. The loader must answer alike, what is found must be the same template, and
rendering it in a sink of its own, its name marked as pending, must match for the names
that the loader has a path of. -/
theorem includeWith {fetch fetch' : Option Span → Loader → String → String → Eval Template}
    {render render' : Template → Eval Unit} {span span' : Option Span}
    (hp : placed → span = span') {s t : State} (h : R s t) (arguments : List Value)
    (hask : ∀ loader, s.context.loader = some loader → ∀ {span span' : Option Span},
      (placed → span = span') → ∀ name,
        Matches placed R (ask (loader.resolve span name)) (ask (loader.resolve span' name)))
    (hfetch : ∀ loader, s.context.loader = some loader → ∀ {span span' : Option Span},
      (placed → span = span') → ∀ name path,
        Matches placed R (fetch span loader name path) (fetch' span' loader name path))
    (hinner : ∀ {loader : Loader} {path : String} {u : State},
      s.context.loader = some loader →
      includePath (s.context.locate span) loader (nameAmong s arguments) s = .ok path u →
      ∀ {span span' : Option Span}, (placed → span = span') → ∀ template, Matches placed R
        (do
          enterPending span (nameAmong s arguments)
          capture (render template) (leavePending (nameAmong s arguments)))
        (do
          enterPending span' (nameAmong s arguments)
          capture (render' template) (leavePending (nameAmong s arguments)))) :
    Alike placed R (Eval.includeWith fetch render span arguments s)
      (Eval.includeWith fetch' render' span' arguments t) := by
  have hl : placed → s.context.locate span = t.context.locate span' := S.locate h hp
  simp only [Eval.includeWith, bind_run, context_run]
  cases arguments with
  | nil => exact S.report _ hl s t h
  | cons nameValue arguments =>
    dsimp only
    refine Alike.bind (S.includeName hl nameValue s t h) fun name s₁ t₁ hn _ h₁ => ?_
    obtain ⟨rfl, rfl⟩ := includeName_ok hn arguments
    simp only [bind_run, context_run, S.loader h₁]
    cases hloader : s₁.context.loader with
    | none => exact S.report _ hl _ _ h₁
    | some loader =>
      have hpath : Matches placed R
          (includePath (s₁.context.locate span) loader (nameAmong s₁ (nameValue :: arguments)))
          (includePath (t.context.locate span') loader (nameAmong s₁ (nameValue :: arguments))) := by
        refine (hask loader hloader hl _).bind fun answer => ?_
        split
        · split
          · exact S.report _ hl
          · exact .pure _
        · exact S.report _ hl
      refine Alike.bind (hpath _ _ h₁) fun path s₂ t₂ he _ h₂ => ?_
      refine (S.currentScope.bind fun scope =>
        (S.computed (Computation.newList arguments)).bind fun list =>
        (S.assign argumentsName list hl).bind fun _ =>
        Matches.ensuring ?_ (S.restoreArguments scope)) _ _ h₂
      exact (hfetch loader hloader hl _ path).bind fun template => hinner hloader he hl template

end Simulation

/-! ## Evaluators with includes of their own -/

/-- Evaluators match at every one of a family of relations if their includes do; an
include may go on at another relation of the family than it was called at. -/
theorem Simulation.evaluateWith {ι : Type} {placed : Prop} {host : Host}
    {R : ι → State → State → Prop} (S : ∀ i, Simulation placed host (R i))
    {includes includes' : (Template → Eval Unit) → Option Span → List Value → Eval Sink}
    (hi : ∀ {render render' : Template → Eval Unit},
      (∀ i t, Eval.Matches placed (R i) (render t) (render' t)) →
        ∀ i {span span' : Option Span}, (placed → span = span') → ∀ arguments,
          Eval.Matches placed (R i) (includes render span arguments)
            (includes' render' span' arguments)) (fuel : Nat) :
    ∀ i {node node' : Node}, node.Like placed node' →
      Eval.Matches placed (R i) (Eval.evaluateWith includes host fuel node)
        (Eval.evaluateWith includes' host fuel node') := by
  induction fuel with
  | zero => exact fun i _ _ _ => .throw _
  | succ fuel ih =>
    have hrender (i : ι) (t : Template) : Eval.Matches placed (R i)
        (Eval.renderWith (Eval.evaluateWith includes host fuel) t)
        (Eval.renderWith (Eval.evaluateWith includes' host fuel) t) :=
      (S i).renderWith (fun n => ih i (.refl n)) t
    exact fun i _ _ h => (S i).step (ih i) (hi hrender i) fuel h

end Stencil

import Stencil.Proofs.Recursion

/-!
# Runs with a log

Which templates were asked for, and how the loader answered, cannot be read off a state. So
here evaluation is written once more with a log beside the state: an include puts down whether
it finds its template in the cache (`Fetch.hit`) or asks the loader for the text at its path
(`Fetch.load`), and nothing else is put down. `Logs` says that an evaluation with a log comes to
what the evaluation comes to, and that it changes the cache by includes alone; `logs_evaluate` and
`logs_run` say so of nodes and of templates.

Functions of a host may include as well. What they fetch is put down by functions with a log
that are given for them (`Host.LoggedBy`); for a host whose functions leave the cache there is
nothing to put down.
-/

namespace Stencil

/-- How an include comes by the template at a path. -/
inductive Fetch where
  /-- it is in the cache -/
  | hit (path : String)
  /-- the loader is asked for the text at the path, which is to be read with these options, and
  answers -/
  | load (path : String) (options : TemplateOptions) (answer : Except Failure (Option String))

/-- The path of the template. -/
def Fetch.path : Fetch → String
  | .hit path => path
  | .load path _ _ => path

/-- An evaluation with a log of what includes fetch. -/
abbrev Logged := EStateM Failure (State × List Fetch)

/-- The functions of a host that see the context, with a log. -/
abbrev HostLog := String → Option Span → List Value → Logged Value

namespace Logged

variable {α β : Type}

/-! ## Evaluation with a log -/

/-- An evaluation in which nothing is fetched. -/
def lift (e : Eval α) : Logged α := fun s =>
  match e s.1 with
  | .ok a t => .ok a (t, s.2)
  | .error x t => .error x (t, s.2)

instance : MonadLift Eval Logged := ⟨lift⟩

/-- Puts down how a template was come by. -/
def note (fetch : Fetch) : Logged Unit := fun s => .ok () (s.1, s.2 ++ [fetch])

/-- Asks a loader for the text at a path. -/
def askText (span : Option Span) (loader : Loader) (path : String) : Logged (Option String) :=
  fun s =>
    match Eval.ask (loader.load span path) s.1 with
    | .ok text t => .ok text (t, s.2 ++ [.load path s.1.context.options (.ok text)])
    | .error x t => .error x (t, s.2 ++ [.load path s.1.context.options (.error x)])

/-- Reads what the loader answered, and keeps the template. -/
def readAnswer (span : Option Span) (name path : String) (answer : Option String) :
    Eval Template := do
  match answer with
  | none => Eval.report (.noContent path) span
  | some text =>
    match Template.parse (Eval.includeOptions (← Eval.context).options) (some path) text with
    | .error e => Eval.failWith e
    | .ok template =>
      if template.hasErrors then Eval.report (.unparsable name path template.diagnostics) span
      else
        modifyGet fun s =>
          let (loaded, store) := template.load s.store
          let (kept, cache) := s.cache.addIfAbsent path loaded
          (kept.numbered, { s with store, cache })

theorem readIncluded_eq (span : Option Span) (loader : Loader) (name path : String) :
    Eval.readIncluded span loader name path =
      Eval.ask (loader.load span path) >>= readAnswer span name path := rfl

/-- The template at a path, from the cache if it is there. -/
def includedTemplate (span : Option Span) (loader : Loader) (name path : String) :
    Logged Template := do
  match (← get).1.cache.get? path with
  | some kept =>
    note (.hit path)
    return kept.numbered
  | none =>
    let answer ← askText span loader path
    readAnswer span name path answer

/-- An evaluation with a clean-up behind it. -/
def ensuring (body : Logged α) (cleanUp : Eval Unit) : Logged α := fun s =>
  match body s with
  | .ok a s =>
    match lift cleanUp s with
    | .ok _ s => .ok a s
    | .error e s => .error e s
  | .error e s =>
    match lift cleanUp s with
    | .ok _ s => .error e s
    | .error e s => .error e s

/-- What an evaluation writes, taken off in a sink of its own. -/
def capture (body : Logged Unit) (after : Eval Unit) : Logged Sink := fun s =>
  match (do Eval.pushSink; body : Logged Unit) s with
  | .ok _ s => lift (do let sink ← Eval.popSink; after; return sink) s
  | .error e s =>
    match lift (do let _ ← Eval.popSink; after) s with
    | .ok _ s => .error e s
    | .error e s => .error e s

/-- Renders the template of a name with arguments; `render` runs a template. -/
def includeTemplate (render : Template → Logged Unit) (span : Option Span)
    (arguments : List Value) : Logged Sink := do
  let span := (← Eval.context).locate span
  match arguments with
  | [] => Eval.report .includeArity span
  | nameValue :: arguments =>
    let name ← Eval.includeName span nameValue
    match (← Eval.context).loader with
    | none => Eval.report (.noLoader name) span
    | some loader =>
      let path ← Eval.includePath span loader name
      let scope ← Eval.currentScope
      let list ← Eval.computed (Computation.newList arguments)
      Eval.assign argumentsName list span
      ensuring (do
        let template ← includedTemplate span loader name path
        Eval.enterPending span name
        capture (render template) (Eval.leavePending name))
        (Eval.restoreArguments scope)

section Nodes

variable (functions : HostLog) (host : Host) (run : Node → Logged Value)
  (render : Template → Logged Unit)

/-- Calls a value. -/
def call (span : Option Span) (callee : Value) (arguments : List Value) : Logged Value :=
  match callee with
  | .function _ .include => do
    let output ← includeTemplate render span arguments
    Eval.computed output.value
  | .function _ (.contextual name) => functions name span arguments
  | callee => Eval.call host (fun _ => return) span callee arguments

/-- Evaluates a call. -/
def callNode (span : Span) (callee : Node) (arguments : List Node) : Logged Value := do
  let f ← run callee
  match f, callee with
  | .null, .name _ name => Eval.report (.functionNotFound name) (some span)
  | f, _ =>
    let values ← arguments.mapM run
    call functions host render (some span) f values

/-- Evaluates `and` and `or`. -/
def logic (op : Connective) (left right : Node) : Logged Value := do
  let l ← Eval.truthy (← run left)
  match op with
  | .and => if l then return .bool (← Eval.truthy (← run right)) else return .bool false
  | .or => if l then return .bool true else return .bool (← Eval.truthy (← run right))

/-- Evaluates statements. -/
def statements : List Node → Logged Value
  | [] => return .null
  | [node] => run node
  | node :: rest => do
    Eval.writeResult node.span? (← run node)
    statements rest

/-- One turn of a loop. -/
def turn (span : Span) (target : String) (body : Node) (v : Value) : Logged Unit := do
  Eval.assign target v (some span)
  Eval.writeResult body.span? (← run body)

/-- Goes through a list as it is at each turn. -/
def loopList (span : Span) (target : String) (body : Node) (id : ListId) :
    Nat → Nat → Logged Unit
  | 0, _ => throw .exhausted
  | fuel + 1, index => do
    match (← get).1.store.item? id index with
    | none => return
    | some v =>
      turn run span target body v
      loopList span target body id fuel (index + 1)

/-- Evaluates a loop. -/
def loop (fuel : Nat) (span : Span) (target : String) (source body : Node) : Logged Value := do
  match ← run source with
  | .null => return .null
  | .list id =>
    loopList run span target body id fuel 0
    return .null
  | v =>
    match ← Eval.computed (Computation.elements? v) with
    | none => Eval.report (.cannotIterate v.typeName) source.span?
    | some items =>
      items.forM (turn run span target body)
      return .null

/-- What a node does. -/
def step (fuel : Nat) : Node → Logged Value
  | .page _ body _ => run body
  | .block _ body => statements run body
  | .expression _ value => run value
  | .assign span target value => do
    Eval.assign target (← run value) (some span)
    return .null
  | .branch _ test body otherwise => do
    if ← Eval.truthy (← run test) then run body else run otherwise
  | .loop span target source body => loop run fuel span target source body
  | .list _ items => do
    let values ← items.mapM run
    Eval.computed (Computation.newList values)
  | .member _ object name => do Eval.computed (Computation.member (← run object) name)
  | .item span object key => do
    let v ← run object
    Eval.item span v (← run key)
  | .call span callee arguments => callNode functions host run render span callee arguments
  | .unary span op operand => do
    let v ← run operand
    match op with
    | .not => return .bool !(← Eval.truthy v)
    | .negate => Eval.negate span v
  | .arithmetic span op left right => do
    let l ← run left
    Eval.arithmetic span op l (← run right)
  | .compare span op left right => do
    let l ← run left
    Eval.comparison span op l (← run right)
  | .logic _ op left right => logic run op left right
  | .unknownOperator _ symbol left right => do
    let _ ← run left
    let _ ← run right
    Eval.failWith (.missingKey symbol)
  -- nodes without nodes below them
  | node => Eval.step host ⟨fun _ => return .null, fun _ => return⟩ fuel node

end Nodes

/-- An evaluation inside a file, if one is given. -/
def within (path : Option String) (body : Logged α) : Logged α := do
  match path with
  | none => body
  | some path =>
    Eval.pushSourceFile path
    ensuring body do
      let _ ← Eval.popSourceFile

/-- The page of a template, evaluated in its file. -/
def runPage (node : Node → Logged Value) (t : Template) : Logged Value :=
  match t.page with
  | some page => within t.path (node page.node)
  | none => return .null

/-- Renders a template, given how nodes are evaluated. -/
def renderWith (node : Node → Logged Value) (t : Template) : Logged Unit := do
  Eval.checkErrors t
  Eval.writePage t (← runPage node t)

/-- Evaluates a node, with `fuel` steps to go down. -/
def evaluate (functions : HostLog) (host : Host) : Nat → Node → Logged Value
  | 0, _ => throw .exhausted
  | fuel + 1, node =>
    step functions host (evaluate functions host fuel) (renderWith (evaluate functions host fuel))
      fuel node

/-- An evaluation with output turned off. -/
def silently (body : Logged α) : Logged α := do
  let enabled := (← Eval.context).outputEnabled
  Eval.changeContext fun c => { c with outputEnabled := false }
  ensuring body (Eval.changeContext fun c => { c with outputEnabled := enabled })

/-- A run of a template, given how nodes are evaluated. -/
def runWith (node : Node → Logged Value) (t : Template) : Eval.TemplateRun → Logged Value
  | .render => do
    renderWith node t
    return .null
  | .evaluate => do
    Eval.checkErrors t
    silently (runPage node t)
  | .frontMatter => do
    Eval.checkErrors t
    match t.frontMatter? with
    | none => return .null
    | some front => silently (within t.path (node front))

end Logged

/-! ## What is done to the cache -/

/-- What evaluations do to the cache and to the log: they change neither, or take the templates
of includes, whose paths have no blank ends and are not empty. -/
inductive Fetching : State × List Fetch → State × List Fetch → Prop
  | idle {s t : State} (log : List Fetch) : t.cache = s.cache → Fetching (s, log) (t, log)
  | take (span : Option Span) (loader : Loader) (name : String) {path : String}
      (s : State × List Fetch) : path ≠ "" → Text.strip path = path →
      Fetching s (after (Logged.includedTemplate span loader name path) s)
  | trans {s t u : State × List Fetch} : Fetching s t → Fetching t u → Fetching s u

/-- The cache is the same. -/
def SameCache (s t : State) : Prop := t.cache = s.cache

theorem sequential_sameCache : Sequential SameCache := ⟨fun _ => rfl, fun h k => k.trans h⟩

theorem sequential_fetching : Sequential Fetching := ⟨fun s => .idle s.2 rfl, .trans⟩

/-- An outcome without the log. -/
def withoutLog {α : Type} :
    EStateM.Result Failure (State × List Fetch) α → EStateM.Result Failure State α
  | .ok a t => .ok a t.1
  | .error x t => .error x t.1

/-- `E` is `e` with a log: it comes to the same, and changes the cache by includes alone. -/
structure Logs {α : Type} (e : Eval α) (E : Logged α) : Prop where
  withoutLog (s : State × List Fetch) : withoutLog (E s) = e s.1
  fetching : Moves Fetching E

/-- The functions of a host with a log. -/
def Host.LoggedBy (host : Host) (functions : HostLog) : Prop :=
  ∀ name span arguments, Logs (host.contextual name span arguments) (functions name span arguments)

open Eval

namespace Logs

variable {α β : Type} {e : Eval α} {E : Logged α}

theorem cases_at (h : Logs e E) (s : State × List Fetch) :
    (∃ a t, E s = .ok a t ∧ e s.1 = .ok a t.1 ∧ Fetching s t) ∨
      ∃ x t, E s = .error x t ∧ e s.1 = .error x t.1 ∧ Fetching s t := by
  have hrun := h.withoutLog s
  have hf := h.fetching s
  cases he : E s with
  | ok a t =>
    rw [he] at hrun
    rw [after_of_ok he] at hf
    exact .inl ⟨a, t, rfl, hrun.symm, hf⟩
  | error x t =>
    rw [he] at hrun
    rw [after_of_error he] at hf
    exact .inr ⟨x, t, rfl, hrun.symm, hf⟩

theorem of_cases (h : ∀ s : State × List Fetch,
    (∃ a t, E s = .ok a t ∧ e s.1 = .ok a t.1 ∧ Fetching s t) ∨
      ∃ x t, E s = .error x t ∧ e s.1 = .error x t.1 ∧ Fetching s t) : Logs e E where
  withoutLog s := by
    obtain ⟨a, t, hE, he, -⟩ | ⟨x, t, hE, he, -⟩ := h s
    all_goals
      rw [hE, he]
      rfl
  fetching s := by
    obtain ⟨a, t, hE, -, hf⟩ | ⟨x, t, hE, -, hf⟩ := h s
    · rwa [after_of_ok hE]
    · rwa [after_of_error hE]

/-- Without the log, the state behind is the same. -/
theorem after_fst (h : Logs e E) (s : State × List Fetch) : (after E s).1 = after e s.1 := by
  obtain ⟨a, t, hE, he, -⟩ | ⟨x, t, hE, he, -⟩ := h.cases_at s
  · rw [after_of_ok hE, after_of_ok he]
  · rw [after_of_error hE, after_of_error he]

theorem withoutLog_lift (e : Eval α) (s : State × List Fetch) :
    Stencil.withoutLog (Logged.lift e s) = e s.1 := by
  rw [Logged.lift]
  cases e s.1 <;> rfl

theorem after_lift (e : Eval α) (s : State × List Fetch) :
    after (Logged.lift e) s = (after e s.1, s.2) := by
  rw [after, Logged.lift, after]
  cases e s.1 <;> rfl

/-- What leaves the cache logs itself. -/
theorem lift (h : Moves SameCache e) : Logs e (Logged.lift e) where
  withoutLog := withoutLog_lift e
  fetching s := by
    rw [after_lift]
    exact .idle s.2 (h s.1)

protected theorem pure (a : α) : Logs (pure a) (pure a) := ⟨fun _ => rfl, sequential_fetching.pure a⟩

protected theorem throw (x : Failure) : Logs (throw x : Eval α) (throw x) :=
  ⟨fun _ => rfl, sequential_fetching.throw x⟩

/-- A sequence; the second part only has to be looked at for what the first one returns. -/
theorem bind_ok {k : α → Eval β} {K : α → Logged β} (h : Logs e E)
    (hk : ∀ s a t, e s = .ok a t → Logs (k a) (K a)) : Logs (e >>= k) (E >>= K) := by
  refine of_cases fun s => ?_
  obtain ⟨a, t, hE, he, hf⟩ | ⟨x, t, hE, he, hf⟩ := h.cases_at s
  · rw [bind_of_ok hE, bind_of_ok he]
    obtain ⟨b, u, hK, hk, hfk⟩ | ⟨y, u, hK, hk, hfk⟩ := (hk _ a _ he).cases_at t
    · exact .inl ⟨b, u, hK, hk, hf.trans hfk⟩
    · exact .inr ⟨y, u, hK, hk, hf.trans hfk⟩
  · exact .inr ⟨x, t, bind_of_error hE, bind_of_error he, hf⟩

protected theorem bind {k : α → Eval β} {K : α → Logged β} (h : Logs e E)
    (hk : ∀ a, Logs (k a) (K a)) : Logs (e >>= k) (E >>= K) :=
  h.bind_ok fun _ a _ _ => hk a

/-- What looks at the state. -/
protected theorem get {k : State → Eval α} {K : State × List Fetch → Logged α}
    (h : ∀ s, Logs (k s.1) (K s)) : Logs (do k (← get)) (do K (← get)) where
  withoutLog s := (h s).withoutLog s
  fetching s := (h s).fetching s

protected theorem ensuring (h : Logs e E) {cleanUp : Eval Unit} (hc : Moves SameCache cleanUp) :
    Logs (ensuring e cleanUp) (Logged.ensuring E cleanUp) := by
  refine of_cases fun s => ?_
  obtain ⟨a, t, hE, he, hf⟩ | ⟨x, t, hE, he, hf⟩ := h.cases_at s
  all_goals
    simp only [Logged.ensuring, Eval.ensuring, hE, he]
    obtain ⟨_, u, hC, hc, hfc⟩ | ⟨y, u, hC, hc, hfc⟩ := (lift hc).cases_at t
    all_goals simp only [hC, hc]
  · exact .inl ⟨a, u, rfl, rfl, hf.trans hfc⟩
  · exact .inr ⟨y, u, rfl, rfl, hf.trans hfc⟩
  · exact .inr ⟨x, u, rfl, rfl, hf.trans hfc⟩
  · exact .inr ⟨y, u, rfl, rfl, hf.trans hfc⟩

/-- What runs in a sink of its own. -/
protected theorem capture {body : Eval Unit} {Body : Logged Unit} (h : Logs body Body)
    {cleanUp : Eval Unit} (hc : Moves SameCache cleanUp) :
    Logs (capture body cleanUp) (Logged.capture Body cleanUp) := by
  have S := sequential_sameCache
  have hpush : Moves SameCache pushSink := fun _ => rfl
  have hpop : Moves SameCache popSink := S.popSink fun _ _ _ _ => rfl
  have hinner : Logs (do pushSink; body) (do pushSink; Body) := (lift hpush).bind fun _ => h
  have hok := lift (S.bind hpop fun sink => S.bind hc fun _ => S.pure sink)
  have herror := lift (S.bind hpop fun _ => hc)
  refine of_cases fun s => ?_
  obtain ⟨a, t, hE, he, hf⟩ | ⟨x, t, hE, he, hf⟩ := hinner.cases_at s
  · obtain ⟨sink, u, hC, hc, hfc⟩ | ⟨y, u, hC, hc, hfc⟩ := hok.cases_at t
    all_goals simp only [Logged.capture, Eval.capture, hE, he, hC, hc]
    · exact .inl ⟨sink, u, rfl, rfl, hf.trans hfc⟩
    · exact .inr ⟨y, u, rfl, rfl, hf.trans hfc⟩
  · obtain ⟨_, u, hC, hc, hfc⟩ | ⟨y, u, hC, hc, hfc⟩ := herror.cases_at t
    all_goals simp only [Logged.capture, Eval.capture, hE, he, hC, hc]
    · exact .inr ⟨x, u, rfl, rfl, hf.trans hfc⟩
    · exact .inr ⟨y, u, rfl, rfl, hf.trans hfc⟩

end Logs

/-- Functions that leave the cache have nothing to put down. -/
theorem Host.loggedBy_lift {host : Host}
    (h : ∀ name span arguments, Moves SameCache (host.contextual name span arguments)) :
    host.LoggedBy fun name span arguments => Logged.lift (host.contextual name span arguments) :=
  fun name span arguments => .lift (h name span arguments)

/-! ## Includes -/

namespace Text

theorem dropWhile_rdropWhile (p : Char → Bool) (cs : List Char) :
    ((cs.dropWhile p).rdropWhile p).dropWhile p = (cs.dropWhile p).rdropWhile p := by
  cases hrest : (cs.dropWhile p).rdropWhile p with
  | nil => rfl
  | cons c rest =>
    obtain ⟨more, hmore⟩ := List.rdropWhile_prefix p (cs.dropWhile p)
    have hc : p c = false := by
      have hhead := List.head?_dropWhile_not p cs
      rw [← hmore, hrest] at hhead
      simpa using hhead
    rw [List.dropWhile_cons_of_neg (by simp [hc])]

/-- What is left of a text without its blank ends has none. -/
theorem strip_strip (s : String) : strip (strip s) = strip s := by
  have h (cs : List Char) : trimBoth isBlank (trimBoth isBlank cs) = trimBoth isBlank cs := by
    show ((((cs.dropWhile isBlank).rdropWhile isBlank).dropWhile isBlank).rdropWhile isBlank) =
      (cs.dropWhile isBlank).rdropWhile isBlank
    rw [dropWhile_rdropWhile, List.rdropWhile_idempotent]
  rw [strip, strip, String.toList_ofList, h]

end Text

section Includes

/-- The theory of two evaluations side by side, for one evaluation that leaves the cache: with
idle functions of the host, what is no include does. -/
theorem simulation_sameCache (host : Host) (cache : TemplateCache) :
    Simulation True (host.restricted []) (Along fun s => s.cache = cache) where
  store_eq h := congrArg State.store h.1.symm
  context_eq h := by
    rw [h.1]
    rfl
  setStore := by
    rintro s _ ⟨rfl, h⟩ store
    exact ⟨rfl, h⟩
  setScopes := by
    rintro s _ ⟨rfl, h⟩ scopes
    exact ⟨rfl, h⟩
  setFiles := by
    rintro s _ ⟨rfl, h⟩ files
    exact ⟨rfl, h⟩
  setEnabled := by
    rintro s _ ⟨rfl, h⟩ enabled
    exact ⟨rfl, h⟩
  wrote := by
    rintro s _ v text ⟨rfl, h⟩ -
    exact ⟨rfl, h⟩
  contextual name span span' hp arguments := .pure _
  invoked := by
    rintro s _ ⟨rfl, h⟩ span span' hp name list
    rw [hp trivial]

variable {α : Type}

/-- What matches itself whatever the relation leaves the cache. The host can be any, unless
functions of it that see their arguments alone are called. -/
theorem Logs.leaf (host : Host) {e : Eval α}
    (h : ∀ {R : State → State → Prop}, Simulation True (host.restricted []) R → Matches True R e e) :
    Logs e (Logged.lift e) := by
  refine .lift fun s => ?_
  obtain ⟨a, t, u, he, -, -, ht⟩ | ⟨x, y, t, u, he, -, -, -, ht⟩ :=
    (h (simulation_sameCache host s.cache) s s ⟨rfl, rfl⟩).cases_at
  · rw [after_of_ok he]
    exact ht
  · rw [after_of_error he]
    exact ht

theorem moves_ask (question : Lookup α) : Moves SameCache (ask question) := by
  intro s
  rw [after_ask]
  exact rfl

theorem moves_includePath (span : Option Span) (loader : Loader) (name : String) :
    Moves SameCache (includePath span loader name) := by
  have S := sequential_sameCache
  refine S.bind (moves_ask _) fun answer => ?_
  split
  · split
    · exact S.report _ _
    · exact S.pure _
  · exact S.report _ _

theorem moves_enterPending (span : Option Span) (name : String) :
    Moves SameCache (enterPending span name) :=
  Moves.enterPending fun _ _ => rfl

/-- The path of an include has no blank ends, and is not empty. -/
theorem includePath_stripped {span : Option Span} {loader : Loader} {name path : String}
    {s t : State} (h : includePath span loader name s = .ok path t) :
    path ≠ "" ∧ Text.strip path = path := by
  obtain ⟨raw, l, -, rfl, hne⟩ := includePath_ok h
  exact ⟨hne, Text.strip_strip raw⟩

/-- Reading the answer of the loader is what is left of a fetch behind the load: it is put down
already. -/
theorem Logs.includedTemplate (span : Option Span) (loader : Loader) (name : String) {path : String}
    (hne : path ≠ "") (hstrip : Text.strip path = path) :
    Logs (includedTemplate span loader name path)
      (Logged.includedTemplate span loader name path) where
  withoutLog s := by
    obtain ⟨s, log⟩ := s
    simp only [Logged.includedTemplate, Eval.includedTemplate, bind_run, get_run,
      Logged.readIncluded_eq]
    cases s.cache.get? path with
    | some kept => rfl
    | none =>
      simp only [Logged.askText, bind_run]
      cases ask (loader.load span path) s with
      | error x t => rfl
      | ok answer t =>
        exact withoutLog_lift (Logged.readAnswer span name path answer) (t, _)
  fetching s := .take span loader name s hne hstrip

/-- An include changes the cache by fetching its template alone, if rendering that template does. -/
theorem Logs.includeTemplate {render : Template → Eval Unit} {Render : Template → Logged Unit}
    (hr : ∀ t, Logs (render t) (Render t)) (span : Option Span) (arguments : List Value) :
    Logs (includeTemplate render span arguments) (Logged.includeTemplate Render span arguments) := by
  have S := sequential_sameCache
  refine (Logs.lift S.context).bind fun c => ?_
  cases arguments with
  | nil => exact .lift (S.report _ _)
  | cons nameValue arguments =>
    refine (Logs.leaf basicHost fun S => S.includeName (fun _ => rfl) nameValue).bind fun name => ?_
    refine (Logs.lift S.context).bind fun d => ?_
    cases d.loader with
    | none => exact .lift (S.report _ _)
    | some loader =>
      -- what is fetched has to be known to have a path that an include can have
      refine (Logs.lift (moves_includePath _ _ _)).bind_ok fun s path t hpath => ?_
      obtain ⟨hne, hstrip⟩ := includePath_stripped hpath
      refine (Logs.leaf basicHost fun S => S.currentScope).bind fun scope => ?_
      refine (Logs.leaf basicHost fun S => S.computed _).bind fun list => ?_
      refine (Logs.leaf basicHost fun S => S.assign _ list fun _ => rfl).bind fun _ => ?_
      refine Logs.ensuring ?_ fun _ => rfl
      refine (Logs.includedTemplate _ loader name hne hstrip).bind fun template => ?_
      refine (Logs.lift (moves_enterPending _ _)).bind fun _ => ?_
      exact (hr template).capture fun _ => rfl

end Includes

/-! ## Nodes and templates -/

namespace Logs

section Nodes

variable {host : Host} {functions : HostLog} (hh : host.LoggedBy functions) {run : Runner}
  {node : Node → Logged Value} {render : Template → Logged Unit}
  (hn : ∀ n, Logs (run.node n) (node n)) (hr : ∀ t, Logs (run.render t) (render t))

omit hn in
include hh hr in
theorem call (span : Option Span) (callee : Value) (arguments : List Value) :
    Logs (call host run.render span callee arguments)
      (Logged.call functions host render span callee arguments) := by
  cases callee with
  | function id f =>
    cases f with
    | «include» =>
      exact (Logs.includeTemplate hr span arguments).bind fun output => .leaf host fun S => S.computed _
    | contextual name => exact hh name span arguments
    | _ => exact .leaf host fun S => S.callPlain _ _ fun _ => rfl
  | method receiver m => exact .leaf host fun S => S.callPlain _ _ fun _ => rfl
  | _ =>
    refine .leaf host fun S => ?_
    simp only [Eval.call]
    split
    · exact S.callInvoked _ _ fun _ => rfl
    · exact S.report _ fun _ => rfl

omit hr
include hn

theorem mapM (nodes : List Node) : Logs (nodes.mapM run.node) (nodes.mapM node) := by
  induction nodes with
  | nil => exact .pure _
  | cons n rest ih =>
    rw [List.mapM_cons, List.mapM_cons]
    exact (hn n).bind fun _ => ih.bind fun _ => .pure _

include hh hr in
theorem callNode (span : Span) (callee : Node) (arguments : List Node) :
    Logs (callNode host run span callee arguments)
      (Logged.callNode functions host node render span callee arguments) := by
  refine (hn callee).bind fun f => ?_
  have hcall : Logs
      (do
        let values ← arguments.mapM run.node
        Eval.call host run.render (some span) f values)
      (do
        let values ← arguments.mapM node
        Logged.call functions host render (some span) f values) :=
    (mapM hn arguments).bind fun values => call hh hr (some span) f values
  cases f with
  | null =>
    cases callee with
    | name _ _ => exact .lift (sequential_sameCache.report _ _)
    | _ => exact hcall
  | _ => exact hcall

theorem logic (op : Connective) (left right : Node) :
    Logs (logic run op left right) (Logged.logic node op left right) := by
  have htruthy (v : Value) : Logs (truthy v) (Logged.lift (truthy v)) :=
    .leaf basicHost fun S => S.truthy v
  refine (hn left).bind fun l => (htruthy l).bind fun b => ?_
  have hright : Logs (do return Value.bool (← truthy (← run.node right)))
      (do return Value.bool (← Logged.lift (truthy (← node right)))) :=
    (hn right).bind fun r => (htruthy r).bind fun _ => .pure _
  cases op <;> cases b
  · exact .pure _
  · exact hright
  · exact hright
  · exact .pure _

theorem statements (nodes : List Node) :
    Logs (statements run nodes) (Logged.statements node nodes) := by
  induction nodes with
  | nil => exact .pure _
  | cons n rest ih =>
    cases rest with
    | nil => exact hn n
    | cons next rest =>
      exact (hn n).bind fun v =>
        (Logs.leaf basicHost fun S => S.writeResult v fun _ => rfl).bind fun _ => ih

theorem turn (span : Span) (target : String) (body : Node) (v : Value) :
    Logs (turn run span target body v) (Logged.turn node span target body v) :=
  (Logs.leaf basicHost fun S => S.assign target v fun _ => rfl).bind fun _ =>
    (hn body).bind fun w => .leaf basicHost fun S => S.writeResult w fun _ => rfl

theorem loopList (span : Span) (target : String) (body : Node) (id : ListId) (fuel index : Nat) :
    Logs (loopList run span target body id fuel index)
      (Logged.loopList node span target body id fuel index) := by
  induction fuel generalizing index with
  | zero => exact .throw _
  | succ fuel ih =>
    refine Logs.get (k := fun s => match s.store.item? id index with
      | none => pure ()
      | some v => do
        Eval.turn run span target body v
        Eval.loopList run span target body id fuel (index + 1)) fun s => ?_
    split
    · exact .pure _
    · exact (turn hn span target body _).bind fun _ => ih (index + 1)

theorem loop (fuel : Nat) (span : Span) (target : String) (source body : Node) :
    Logs (loop run fuel span target source body)
      (Logged.loop node fuel span target source body) := by
  refine (hn source).bind fun v => ?_
  cases v with
  | null => exact .pure _
  | list id => exact (loopList hn span target body id fuel 0).bind fun _ => .pure _
  | _ =>
    refine (Logs.leaf basicHost fun S => S.computed _).bind fun items => ?_
    cases items with
    | none => exact .lift (sequential_sameCache.report _ _)
    | some items =>
      refine Logs.bind ?_ fun _ => .pure _
      induction items with
      | nil => exact .pure _
      | cons item rest ih => exact (turn hn span target body item).bind fun _ => ih

include hh hr

/-- A step changes the cache by includes alone, if what runs below it does. -/
theorem step (fuel : Nat) (n : Node) :
    Logs (step host run fuel n) (Logged.step functions host node render fuel n) := by
  have S := sequential_sameCache
  have htruthy (v : Value) : Logs (truthy v) (Logged.lift (truthy v)) :=
    .leaf basicHost fun S => S.truthy v
  have hcomputed {α : Type} (c : Computation α) : Logs (computed c) (Logged.lift (computed c)) :=
    .leaf basicHost fun S => S.computed c
  cases n with
  | page _ body _ => exact hn body
  | block _ body => exact statements hn body
  | expression _ value => exact hn value
  | assign span target value =>
    exact (hn value).bind fun v =>
      (Logs.leaf basicHost fun S => S.assign target v fun _ => rfl).bind fun _ => .pure _
  | branch _ test body otherwise =>
    refine (hn test).bind fun v => (htruthy v).bind fun b => ?_
    cases b
    · exact hn otherwise
    · exact hn body
  | loop span target source body => exact loop hn fuel span target source body
  | list _ items => exact (mapM hn items).bind fun _ => hcomputed _
  | member _ object name => exact (hn object).bind fun _ => hcomputed _
  | item span object key =>
    exact (hn object).bind fun v => (hn key).bind fun k =>
      .leaf basicHost fun S => S.item (fun _ => rfl) v k
  | call span callee arguments => exact callNode hh hn hr span callee arguments
  | unary span op operand =>
    refine (hn operand).bind fun v => ?_
    cases op with
    | not => exact (htruthy v).bind fun _ => .pure _
    | negate => exact .leaf basicHost fun S => S.negate (fun _ => rfl) v
  | arithmetic span op left right =>
    exact (hn left).bind fun l => (hn right).bind fun r =>
      .leaf basicHost fun S => S.arithmetic (fun _ => rfl) op l r
  | compare span op left right =>
    exact (hn left).bind fun l => (hn right).bind fun r =>
      .leaf basicHost fun S => S.comparison (fun _ => rfl) op l r
  | logic _ op left right => exact logic hn op left right
  | unknownOperator _ symbol left right =>
    exact (hn left).bind fun _ => (hn right).bind fun _ => .lift (S.throw _)
  | absent | text | const => exact .lift (S.pure _)
  | foreign span typeName => exact .lift (S.failWith _)
  | argument span index => exact .leaf basicHost fun S => S.argument index
  | argumentAt span index => exact .leaf basicHost fun S => S.argumentAt index
  | custom span writes value =>
    exact .leaf basicHost fun S => (S.write writes fun _ => rfl).bind fun _ => .pure _
  | name span name =>
    refine .lift ?_
    show Moves SameCache (if name = argumentsName then do return ((← context).arguments?).getD .null
      else Eval.lookUp name (some span))
    split
    · exact S.bind S.context fun _ => S.pure _
    · refine S.bind S.context fun c => ?_
      split
      · exact S.pure _
      · split
        · exact S.report _ _
        · exact S.pure _

end Nodes

theorem checkErrors (t : Template) : Logs (checkErrors t) (Logged.lift (checkErrors t)) :=
  .lift (sequential_sameCache.checkErrors t)

theorem within {α : Type} (path : Option String) {e : Eval α} {E : Logged α} (h : Logs e E) :
    Logs (within path e) (Logged.within path E) := by
  cases path with
  | none => exact h
  | some path =>
    have hpush : Moves SameCache (pushSourceFile path) := fun _ => rfl
    exact (lift hpush).bind fun _ => h.ensuring (sequential_sameCache.popSourceFile fun _ _ _ _ => rfl)

theorem silently {α : Type} {e : Eval α} {E : Logged α} (h : Logs e E) :
    Logs (silently e) (Logged.silently E) := by
  have hchange (f : Context → Context) : Moves SameCache (changeContext f) := fun _ => rfl
  exact (lift sequential_sameCache.context).bind fun c =>
    (lift (hchange _)).bind fun _ => h.ensuring (hchange _)

section Templates

variable {node : Node → Eval Value} {logged : Node → Logged Value}
  (hn : ∀ n, Logs (node n) (logged n)) (t : Template)

include hn

theorem runPage : Logs (runPage node t) (Logged.runPage logged t) := by
  unfold Eval.runPage Logged.runPage
  cases t.page with
  | none => exact .pure _
  | some page => exact within t.path (hn page.node)

theorem renderWith : Logs (renderWith node t) (Logged.renderWith logged t) := by
  refine (checkErrors t).bind fun _ => (runPage hn t).bind fun v => .leaf basicHost fun S => ?_
  unfold writePage
  split
  · exact S.writeResult v fun _ => rfl
  · exact .pure _

theorem runWith (way : TemplateRun) : Logs (way.runWith node t) (Logged.runWith logged t way) := by
  cases way with
  | render => exact (renderWith hn t).bind fun _ => .pure _
  | evaluate => exact (checkErrors t).bind fun _ => silently (runPage hn t)
  | frontMatter =>
    refine (checkErrors t).bind fun _ => ?_
    cases t.frontMatter? with
    | none => exact .pure _
    | some front => exact silently (within t.path (hn front))

end Templates

end Logs

/-- Evaluating a node with a log, by induction on the steps: it comes to what the evaluation comes
to, and changes the cache by includes alone. -/
theorem logs_evaluate {host : Host} {functions : HostLog} (hh : host.LoggedBy functions) (fuel : Nat)
    (n : Node) : Logs (evaluate host fuel n) (Logged.evaluate functions host fuel n) := by
  induction fuel generalizing n with
  | zero => exact .throw _
  | succ fuel ih => exact Logs.step hh ih (Logs.renderWith ih) fuel n

end Stencil

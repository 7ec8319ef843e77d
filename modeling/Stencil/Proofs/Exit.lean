import Stencil.Evaluation
import Stencil.Proofs.Bindings
import Stencil.Proofs.Run

/-!
# What evaluations leave behind

An evaluation returns or fails, and either way it leaves a state behind. `after`
is that state, and `Moves R` says that it is related to the state before by `R`,
on whatever exit. `Frame` collects what has to be known of a relation for whole
templates to move by it: what becomes of the store, of a write, of an
assignment, of a host function, of an include and of entering a file. From that,
`Frame.evaluate` and `Frame.renderWith` follow once for all relations, by
induction on the steps that evaluation is given.
-/

namespace Stencil

/-- A state with other files being executed. -/
def State.inFiles (s : State) (files : List String) : State :=
  { s with context := { s.context with sourceFiles := files } }

namespace Eval

variable {α β : Type}

/-! ## Running the operations -/

theorem context_run (s : State) : context s = .ok s.context s := rfl

theorem changeContext_run (f : Context → Context) (s : State) :
    changeContext f s = .ok () { s with context := f s.context } := rfl

theorem report_run (cause : Cause) (span : Option Span) (s : State) :
    (report cause span : Eval α) s = .error (.script ⟨cause, s.context.locate span⟩) s := rfl

theorem compute_run (onFault : Fault → Eval α) (c : Computation α) (s : State) :
    compute onFault c s = match c s.store with
      | .ok a store => .ok a { s with store }
      | .error e store => onFault e { s with store } := rfl

/-- Assigning in the top scope. -/
theorem assign_run {s : State} {scope : Scope} {below : List Scope}
    (h : s.context.scopes = scope :: below) (name : String) (v : Value) (span : Option Span) :
    assign name v span s = .ok () { s with context := { s.context with
      scopes := { scope with bindings := scope.bindings.set name v } :: below } } := by
  simp only [assign, bind_run, context_run, h, changeContext_run]

/-- Without a scope there is nowhere to assign. -/
theorem assign_run_nil {s : State} (h : s.context.scopes = []) (name : String) (v : Value)
    (span : Option Span) : assign name v span s =
      .error (.script ⟨.cannotSet name, s.context.locate span⟩) s := by
  simp only [assign, bind_run, context_run, h, report_run]

/-- The top scope. -/
theorem currentScope_run {s : State} {scope : Scope} {below : List Scope}
    (h : s.context.scopes = scope :: below) : currentScope s = .ok scope s := by
  simp only [currentScope, bind_run, context_run, h, pure_run]

theorem currentScope_run_nil {s : State} (h : s.context.scopes = []) :
    currentScope s = .error (.script { cause := .noScope }) s := by
  simp only [currentScope, bind_run, context_run, h, throw_run]

theorem newList_run (items : List Value) (s : State) :
    computed (Computation.newList items) s =
      .ok (.list (s.store.newList items).1) { s with store := (s.store.newList items).2 } := rfl

theorem pushSink_run (s : State) : pushSink s = .ok () { s with context := { s.context with
    sink := {}, sinksBelow := s.context.sink :: s.context.sinksBelow } } := rfl

/-- Closing a sink that has one below it. -/
theorem popSink_run {s : State} {sink : Sink} {below : List Sink}
    (h : s.context.sinksBelow = sink :: below) :
    popSink s = .ok s.context.sink { s with context := { s.context with
      sink, sinksBelow := below } } := by
  simp only [popSink, bind_run, context_run, h, changeContext_run, pure_run]

/-- The sink at the bottom is not closed. -/
theorem popSink_run_nil {s : State} (h : s.context.sinksBelow = []) :
    popSink s = .error (.script { cause := .unmatchedPop .outputs }) s := by
  simp only [popSink, bind_run, context_run, h, throw_run]

theorem pushSourceFile_run (path : String) (s : State) :
    pushSourceFile path s = .ok () { s with context := { s.context with
      sourceFiles := path :: s.context.sourceFiles } } := rfl

/-- Leaving a file. -/
theorem popSourceFile_run {s : State} {path : String} {below : List String}
    (h : s.context.sourceFiles = path :: below) :
    popSourceFile s = .ok path { s with context := { s.context with sourceFiles := below } } := by
  simp only [popSourceFile, bind_run, context_run, h, changeContext_run, pure_run]

theorem popSourceFile_run_nil {s : State} (h : s.context.sourceFiles = []) :
    popSourceFile s = .error (.script { cause := .unmatchedPop .sourceFiles }) s := by
  simp only [popSourceFile, bind_run, context_run, h, throw_run]

/-- Marking a name that is not pending yet. -/
theorem enterPending_run {s : State} {name : String} (h : name ∉ s.context.pending.getD [])
    (span : Option Span) : enterPending span name s = .ok ()
      { s with context := { s.context with
          pending := some (name :: s.context.pending.getD []) } } := by
  have hc : (s.context.pending.getD []).contains name = false := by
    rw [Bool.eq_false_iff, ne_eq, List.contains_iff_mem]
    exact h
  simp only [enterPending, bind_run, changeContext_run, context_run, Option.getD_some, hc,
    Bool.false_eq_true, if_false]

/-- A name that is pending already is refused. -/
theorem enterPending_run_pending {s : State} {name : String} (h : name ∈ s.context.pending.getD [])
    (span : Option Span) : enterPending span name s =
      .error (.script ⟨.recursive name s.context.pendingNames, s.context.locate span⟩)
        { s with context := { s.context with pending := some (s.context.pending.getD []) } } := by
  have hc : (s.context.pending.getD []).contains name = true := List.contains_iff_mem.mpr h
  simp only [enterPending, bind_run, changeContext_run, context_run, Option.getD_some, hc, if_true,
    report_run]
  rfl

/-- How it fails that a value has no text. -/
def conversionFailure (c : Context) (span : Option Span) (v : Value) : Fault → Failure
  | .refused reason => .ofFault (.refused reason)
  | e => .script ⟨.cannotConvert v.typeName e.message, c.locate span⟩

theorem toText_run (span : Option Span) (v : Value) (s : State) :
    toText span v s = match s.store.display v with
      | .ok text => .ok text s
      | .error e => .error (conversionFailure s.context span v e) s := by
  cases h : s.store.display v with
  | ok text => simp only [toText, compute_run, Computation.display, Computation.read, h]
  | error e =>
    simp only [toText, compute_run, Computation.display, Computation.read, h]
    cases e <;> rfl

/-- With output disabled a write does nothing. -/
theorem write_run_disabled {s : State} (h : s.context.outputEnabled = false) (span : Option Span)
    (v : Value) : write span v s = .ok () s := by
  simp only [write, bind_run, context_run, h, Bool.false_eq_true, if_false, pure_run]

/-- With output enabled a write puts the text of the value into the top sink. -/
theorem write_run_enabled {s : State} (h : s.context.outputEnabled = true) (span : Option Span)
    (v : Value) : write span v s = match s.store.display v with
      | .ok text => .ok () { s with context := { s.context with
          sink := s.context.sink.write v text } }
      | .error e => .error (conversionFailure s.context span v e) s := by
  cases hd : s.store.display v <;>
    simp only [write, bind_run, context_run, h, if_true, toText_run, hd, changeContext_run]

/-- Only templates without errors are run. -/
theorem hasErrors_of_checkErrors {t : Template} {s u : State} {a : Unit}
    (h : checkErrors t s = .ok a u) : t.hasErrors = false := by
  unfold checkErrors at h
  split at h
  · cases h
  · next he => exact Bool.eq_false_iff.mpr he

/-! ## The state behind an evaluation -/

/-- A clean-up runs in the state that the body leaves behind. -/
theorem after_ensuring (body : Eval α) (cleanUp : Eval Unit) (s : State) :
    after (ensuring body cleanUp) s = after cleanUp (after body s) := by
  cases hb : body s with
  | ok a t =>
    rw [after_of_ok hb]
    cases hc : cleanUp t <;> simp only [after, ensuring, hb, hc]
  | error x t =>
    rw [after_of_error hb]
    cases hc : cleanUp t <;> simp only [after, ensuring, hb, hc]

/-- Behind a captured body its sink is closed, and then the clean-up runs. -/
theorem after_capture (body cleanUp : Eval Unit) (s : State) :
    after (capture body cleanUp) s =
      after (do let _ ← popSink; cleanUp) (after (do pushSink; body) s) := by
  cases hb : (do pushSink; body : Eval Unit) s with
  | ok a t =>
    rw [after_of_ok hb]
    cases hp : popSink t with
    | ok sink u => 
      cases hc : cleanUp u <;> simp only [after, capture, hb, bind_run, hp, hc, pure_run]
    | error x u => simp only [after, capture, hb, bind_run, hp]
  | error x t =>
    rw [after_of_error hb]
    cases hc : (do let _ ← popSink; cleanUp : Eval Unit) t <;> simp only [after, capture, hb, hc]

/-- What runs in a file runs with the file on top; then the file is left. -/
theorem after_within (path : String) (body : Eval α) (s : State) :
    after (within (some path) body) s = after (do let _ ← popSourceFile)
      (after body (s.inFiles (path :: s.context.sourceFiles))) :=
  (after_bind_of_ok (pushSourceFile_run path s)).trans (after_ensuring _ _ _)

/-- A question to a loader leaves what the loader makes of its library. -/
theorem after_ask (question : Lookup α) (s : State) :
    after (ask question) s = { s with library := after question s.library } := by
  cases h : question s.library <;> simp only [after, ask, h]

end Eval

/-! ## Evaluations that move by a relation -/

/-- A name is marked as pending, or found to be so; either way there are pending names. -/
theorem Moves.enterPending {R : State → State → Prop} {span : Option Span} {name : String}
    (h : ∀ (s : State) (pending : List String),
      R s { s with context := { s.context with pending := some pending } }) :
    Moves R (Eval.enterPending span name) := by
  intro s
  by_cases hp : name ∈ s.context.pending.getD []
  · rw [after_of_error (Eval.enterPending_run_pending hp span)]
    exact h s _
  · rw [after_of_ok (Eval.enterPending_run hp span)]
    exact h s _

namespace Sequential

variable {α : Type} {R : State → State → Prop}

variable (S : Sequential R)

include S

theorem context : Moves R Eval.context := S.bind S.get fun _ => S.pure _

theorem report (cause : Cause) (span : Option Span) : Moves R (Eval.report cause span : Eval α) :=
  S.bind S.context fun _ => S.throw _

theorem failWith (e : Fault) : Moves R (Eval.failWith e : Eval α) := S.throw _

theorem truthy (v : Value) : Moves R (Eval.truthy v) := S.bind S.get fun _ => S.pure _

theorem checkErrors (t : Template) : Moves R (Eval.checkErrors t) := by
  unfold Eval.checkErrors
  split
  · exact S.throw _
  · exact S.pure _

/-- A computation on values changes the store and nothing else. -/
theorem compute_of_store (hs : ∀ (s : State) (store : Store), R s { s with store })
    {onFault : Fault → Eval α} (h : ∀ e, Moves R (onFault e)) (c : Computation α) :
    Moves R (Eval.compute onFault c) := by
  intro s
  cases hc : c s.store with
  | ok a store => simpa only [after, Eval.compute_run, hc] using hs s store
  | error e store => simpa only [after, Eval.compute_run, hc] using S.trans (hs s store) (h e _)

theorem ensuring {body : Eval α} {cleanUp : Eval Unit} (h : Moves R body) (hc : Moves R cleanUp) :
    Moves R (Eval.ensuring body cleanUp) := by
  intro s
  rw [Eval.after_ensuring]
  exact S.trans (h s) (hc _)

theorem capture (hpush : Moves R Eval.pushSink) (hpop : Moves R Eval.popSink) {body cleanUp : Eval Unit}
    (h : Moves R body) (hc : Moves R cleanUp) : Moves R (Eval.capture body cleanUp) := by
  intro s
  rw [Eval.after_capture]
  exact S.trans (S.bind hpush (fun _ => h) s) (S.bind hpop (fun _ => hc) _)

/-- What is to be shown of a write is what a text does to the top sink. -/
theorem write {span : Option Span} {v : Value}
    (h : ∀ (s : State) (text : String), s.context.outputEnabled = true → s.store.display v = .ok text →
      R s { s with context := { s.context with sink := s.context.sink.write v text } }) :
    Moves R (Eval.write span v) := by
  intro s
  cases ho : s.context.outputEnabled with
  | false =>
    rw [after_of_ok (Eval.write_run_disabled ho span v)]
    exact S.refl s
  | true =>
    have hrun := Eval.write_run_enabled ho span v
    cases hd : s.store.display v with
    | error e =>
      rw [hd] at hrun
      rw [after_of_error hrun]
      exact S.refl s
    | ok text =>
      rw [hd] at hrun
      rw [after_of_ok hrun]
      exact h s text ho hd

/-- What is to be shown of an assignment is what it does to the top scope. -/
theorem assign {name : String} {v : Value} {span : Option Span}
    (h : ∀ (s : State) (scope : Scope) (below : List Scope), s.context.scopes = scope :: below →
      R s { s with context := { s.context with
        scopes := { scope with bindings := scope.bindings.set name v } :: below } }) :
    Moves R (Eval.assign name v span) := by
  intro s
  cases hs : s.context.scopes with
  | nil =>
    rw [after_of_error (Eval.assign_run_nil hs name v span)]
    exact S.refl s
  | cons scope below =>
    rw [after_of_ok (Eval.assign_run hs name v span)]
    exact h s scope below hs

theorem popSink (h : ∀ (s : State) (sink : Sink) (below : List Sink),
      s.context.sinksBelow = sink :: below →
      R s { s with context := { s.context with sink, sinksBelow := below } }) :
    Moves R Eval.popSink := by
  intro s
  cases hs : s.context.sinksBelow with
  | nil =>
    rw [after_of_error (Eval.popSink_run_nil hs)]
    exact S.refl s
  | cons sink below =>
    rw [after_of_ok (Eval.popSink_run hs)]
    exact h s sink below hs

/-- A file is left, if one is being executed. -/
theorem popSourceFile (h : ∀ (s : State) (path : String) (below : List String),
      s.context.sourceFiles = path :: below → R s (s.inFiles below)) :
    Moves R (do let _ ← Eval.popSourceFile) := by
  refine S.bind (fun s => ?_) fun _ => S.pure _
  cases hs : s.context.sourceFiles with
  | nil =>
    rw [after_of_error (Eval.popSourceFile_run_nil hs)]
    exact S.refl s
  | cons path below =>
    rw [after_of_ok (Eval.popSourceFile_run hs)]
    exact h s path below hs

/-- What runs in a file, for a relation that does not look at the files. -/
theorem within (hfiles : ∀ (s : State) (files : List String), R s (s.inFiles files))
    {path : Option String} {body : Eval α} (h : Moves R body) : Moves R (Eval.within path body) := by
  cases path with
  | none => exact h
  | some path =>
    exact S.bind (fun s => hfiles s _) fun _ =>
      S.ensuring h (S.popSourceFile fun s _ below _ => hfiles s below)

end Sequential

namespace Eval

variable {α β : Type} {R : State → State → Prop}

/-! ## Loading templates -/

/-- A relation by which questions to loaders move, and taking what was read into
the cache. -/
structure Loading (R : State → State → Prop) : Prop extends Sequential R where
  store (s : State) (store : Store) : R s { s with store }
  ask {γ : Type} (question : Lookup γ) : Moves R (ask question)
  keep {options : TemplateOptions} {path text : String} {t : Template} :
    Template.parse options (some path) text = .ok t → t.hasErrors = false → ∀ s : State,
      R s { s with
        store := (t.load s.store).2
        cache := (s.cache.addIfAbsent path (t.load s.store).1).2 }

namespace Loading

variable (L : Loading R)

include L

theorem includeName (span : Option Span) (v : Value) : Moves R (includeName span v) := by
  refine L.bind (L.compute_of_store L.store (fun _ => L.report _ _) _) fun name => ?_
  dsimp only
  split
  · exact L.report _ _
  · exact L.pure _

theorem includePath (span : Option Span) (loader : Loader) (name : String) :
    Moves R (includePath span loader name) := by
  refine L.bind (L.ask _) fun path => ?_
  split
  · split
    · exact L.report _ _
    · exact L.pure _
  · exact L.report _ _

theorem readIncluded (span : Option Span) (loader : Loader) (name path : String) :
    Moves R (readIncluded span loader name path) := by
  refine L.bind (L.ask _) fun text => ?_
  cases text with
  | none => exact L.report _ _
  | some text =>
    refine L.bind L.context fun c => ?_
    cases hp : Template.parse (includeOptions c.options) (some path) text with
    | error e => exact L.failWith e
    | ok template =>
      cases he : template.hasErrors with
      | true =>
        simp only [he, if_true]
        exact L.report _ _
      | false =>
        simp only [he, Bool.false_eq_true, if_false]
        exact L.keep hp he

theorem includedTemplate (span : Option Span) (loader : Loader) (name path : String) :
    Moves R (includedTemplate span loader name path) := by
  refine L.bind L.get fun s => ?_
  split
  · exact L.pure _
  · exact L.readIncluded span loader name path

theorem currentScope : Moves R currentScope := by
  refine L.bind L.context fun c => ?_
  split
  · exact L.throw _
  · exact L.pure _

/-- An include moves by a relation if what it does to the context by itself does, and what it
captures. -/
theorem includeTemplate_of_capture (hassign : ∀ v span, Moves R (assign argumentsName v span))
    (henter : ∀ span name, Moves R (enterPending span name))
    (hrestore : ∀ scope, Moves R (restoreArguments scope)) {render : Template → Eval Unit}
    (h : ∀ t name, Moves R (capture (render t) (leavePending name))) (span : Option Span)
    (arguments : List Value) : Moves R (includeTemplate render span arguments) := by
  refine L.bind L.context fun c => ?_
  cases arguments with
  | nil => exact L.report _ _
  | cons nameValue arguments =>
    refine L.bind (L.includeName _ _) fun name => L.bind L.context fun d => ?_
    cases d.loader with
    | none => exact L.report _ _
    | some loader =>
      refine L.bind (L.includePath _ _ _) fun path => L.bind L.currentScope fun scope => ?_
      refine L.bind (L.compute_of_store L.store (fun e => L.failWith e) _) fun list => ?_
      refine L.bind (hassign _ _) fun _ => L.ensuring ?_ (hrestore scope)
      exact L.bind (L.includedTemplate _ _ _ _) fun template =>
        L.bind (henter _ _) fun _ => h template name

/-- An include moves by a relation if everything that it does to the context by
itself does. -/
theorem includeTemplate (hassign : ∀ v span, Moves R (assign argumentsName v span))
    (henter : ∀ span name, Moves R (enterPending span name)) (hpush : Moves R pushSink)
    (hpop : Moves R popSink) (hleave : ∀ name, Moves R (leavePending name))
    (hrestore : ∀ scope, Moves R (restoreArguments scope)) {render : Template → Eval Unit}
    (h : ∀ t, Moves R (render t)) (span : Option Span) (arguments : List Value) :
    Moves R (includeTemplate render span arguments) :=
  L.includeTemplate_of_capture hassign henter hrestore
    (fun t name => L.capture hpush hpop (h t) (hleave name)) span arguments

end Loading

/-! ## Whole templates -/

/-- What has to be known of a relation for templates to move by it. `allowed`
are the names that trees may bind, and `good` the templates that an include may
come upon. -/
structure Frame (host : Host) (allowed : String → Prop) (good : Template → Prop)
    (R : State → State → Prop) : Prop extends Sequential R where
  store (s : State) (store : Store) : R s { s with store }
  contextual (name : String) (span : Option Span) (arguments : List Value) :
    Moves R (host.contextual name span arguments)
  write (span : Option Span) (v : Value) : Moves R (write span v)
  assign {name : String} : allowed name → ∀ v span, Moves R (assign name v span)
  includes {render : Template → Eval Unit} : (∀ t, good t → Moves R (render t)) →
    ∀ span arguments, Moves R (includeTemplate render span arguments)
  within {path : Option String} {body : Eval Value} : Moves R body → Moves R (within path body)
  binds {t : Template} : good t → t.hasErrors = false → t.BindsOnly allowed

namespace Frame

variable {host : Host} {allowed : String → Prop} {good : Template → Prop}

section Rules

variable (F : Frame host allowed good R)

include F

theorem compute {onFault : Fault → Eval α} (h : ∀ e, Moves R (onFault e)) (c : Computation α) :
    Moves R (compute onFault c) :=
  F.compute_of_store F.store h c

theorem computed (c : Computation α) : Moves R (computed c) := F.compute (fun e => F.failWith e) c

theorem writeResult (span : Option Span) (v : Value) : Moves R (writeResult span v) := by
  unfold Eval.writeResult
  split
  · exact F.pure _
  · exact F.write span v

theorem lookUp (name : String) (span : Option Span) : Moves R (lookUp name span) := by
  refine F.bind F.context fun c => ?_
  split
  · exact F.pure _
  · split
    · exact F.report _ _
    · exact F.pure _

/-! ### Calls -/

/-- A call of a function that sees its arguments alone changes the store and
nothing else. -/
theorem callPlain (span : Option Span) (label : String) (call : PlainCall Value) :
    Moves R (callPlain span label call) := by
  intro s
  cases hc : call s.store with
  | ok v store => simpa only [after, Eval.callPlain, hc] using F.store s store
  | error e store =>
    cases e with
    | reported e =>
      have h := F.report (α := Value) (.callFailed label e.message) span { s with store }
      simpa only [after, Eval.callPlain, hc] using F.trans (F.store s store) h
    | passing x => simpa only [after, Eval.callPlain, hc] using F.store s store

theorem callUnreported (call : PlainCall Value) : Moves R (callUnreported call) := by
  intro s
  cases hc : call s.store <;> simpa only [after, Eval.callUnreported, hc] using F.store s _

theorem callInvoked (span : Option Span) (f : Value) (arguments : List Value) :
    Moves R (callInvoked host span f arguments) := by
  refine F.bind F.get fun _ => F.bind (F.computed _) fun _ => ?_
  dsimp only
  split
  · exact F.callUnreported _
  · exact F.callUnreported _
  · exact F.failWith _

theorem call {render : Template → Eval Unit} (h : ∀ t, good t → Moves R (render t))
    (span : Option Span) (callee : Value) (arguments : List Value) :
    Moves R (call host render span callee arguments) := by
  unfold Eval.call
  split
  · exact F.bind (F.includes h _ _) fun _ => F.computed _
  · exact F.contextual _ _ _
  · exact F.callPlain _ _ _
  · exact F.callPlain _ _ _
  · split
    · exact F.callInvoked _ _ _
    · exact F.report _ _

/-! ### Expressions -/

theorem argument (index : Int) : Moves R (argument index) := by
  refine F.bind F.get fun s => ?_
  split
  · dsimp only
    split
    · exact F.pure _
    · split
      · exact F.failWith _
      · split
        · exact F.pure _
        · exact F.failWith _
  · exact F.pure _

theorem argumentAt (index : Value) : Moves R (argumentAt index) := by
  refine F.bind F.get fun s => ?_
  split
  · exact F.argument _
  · dsimp only
    split
    · exact F.pure _
    · exact F.failWith _
  · exact F.failWith _
  · exact F.pure _

theorem item (span : Span) (object key : Value) : Moves R (item span object key) := by
  refine F.compute (fun e => ?_) _
  split
  · exact F.report _ _
  · exact F.failWith _

theorem negate (span : Span) (v : Value) : Moves R (negate span v) := by
  refine F.compute (fun e => ?_) _
  split
  · exact F.report _ _
  · exact F.failWith _

theorem arithmetic (span : Span) (op : Arithmetic) (left right : Value) :
    Moves R (arithmetic span op left right) := by
  refine F.compute (fun e => ?_) _
  split
  · exact F.report _ _
  · exact F.report _ _
  · exact F.report _ _
  · exact F.failWith _

theorem comparison (span : Span) (op : Comparison) (left right : Value) :
    Moves R (comparison span op left right) := by
  refine F.compute (fun e => ?_) _
  split
  · exact F.report _ _
  · exact F.failWith _

/-! ### Nodes -/

section Nodes

variable {run : Runner} (hn : ∀ node, node.BindsOnly allowed → Moves R (run.node node))

include hn

theorem nodes {nodes : List Node} (h : nodesBindOnly allowed nodes) :
    Moves R (nodes.mapM run.node) :=
  F.mapM fun node hmem => hn node (nodesBindOnly_iff.mp h node hmem)

theorem logic (op : Connective) {left right : Node} (hl : left.BindsOnly allowed)
    (hr : right.BindsOnly allowed) : Moves R (logic run op left right) := by
  refine F.bind (hn left hl) fun l => F.bind (F.truthy l) fun b => ?_
  have hright : Moves R (do return Value.bool (← Eval.truthy (← run.node right))) :=
    F.bind (hn right hr) fun r => F.bind (F.truthy r) fun _ => F.pure _
  cases op <;> cases b
  · exact F.pure _
  · exact hright
  · exact hright
  · exact F.pure _

theorem statements {nodes : List Node} (h : nodesBindOnly allowed nodes) :
    Moves R (statements run nodes) := by
  induction nodes with
  | nil => exact F.pure _
  | cons node rest ih =>
    cases rest with
    | nil => exact hn node h.1
    | cons next rest =>
      exact F.bind (hn node h.1) fun _ => F.bind (F.writeResult _ _) fun _ => ih h.2

theorem turn (span : Span) {target : String} {body : Node} (ht : allowed target)
    (hb : body.BindsOnly allowed) (v : Value) : Moves R (turn run span target body v) :=
  F.bind (F.assign ht v _) fun _ => F.bind (hn body hb) fun _ => F.writeResult _ _

theorem loopList (span : Span) {target : String} {body : Node} (ht : allowed target)
    (hb : body.BindsOnly allowed) (id : ListId) (fuel index : Nat) :
    Moves R (loopList run span target body id fuel index) := by
  induction fuel generalizing index with
  | zero => exact F.throw _
  | succ fuel ih =>
    refine F.bind F.get fun s => ?_
    split
    · exact F.pure _
    · exact F.bind (F.turn hn span ht hb _) fun _ => ih (index + 1)

theorem loop (fuel : Nat) (span : Span) {target : String} {source body : Node}
    (ht : allowed target) (hs : source.BindsOnly allowed) (hb : body.BindsOnly allowed) :
    Moves R (loop run fuel span target source body) := by
  refine F.bind (hn source hs) fun v => ?_
  split
  · exact F.pure _
  · exact F.bind (F.loopList hn span ht hb _ _ _) fun _ => F.pure _
  · refine F.bind (F.computed _) fun items => ?_
    split
    · exact F.report _ _
    · exact F.bind (F.forM (F.turn hn span ht hb) _) fun _ => F.pure _

variable (hr : ∀ t, good t → Moves R (run.render t))

include hr

theorem callNode (span : Span) {callee : Node} {arguments : List Node}
    (hc : callee.BindsOnly allowed) (ha : nodesBindOnly allowed arguments) :
    Moves R (callNode host run span callee arguments) := by
  refine F.bind (hn callee hc) fun f => ?_
  split
  · exact F.report _ _
  · exact F.bind (F.nodes hn ha) fun _ => F.call hr _ _ _

/-- One step moves by the relation if the nodes below and the included templates
do. -/
theorem step (fuel : Nat) {node : Node} (h : node.BindsOnly allowed) :
    Moves R (step host run fuel node) := by
  cases node with
  | absent | text | const => exact F.pure _
  | argument span index => exact F.argument index
  | argumentAt span index => exact F.argumentAt index
  | foreign span typeName => exact F.failWith _
  | page span body frontMatter => exact hn body h.1
  | block span body => exact F.statements hn h
  | expression span value => exact hn value h
  | assign span target value =>
    exact F.bind (hn value h.2) fun _ => F.bind (F.assign h.1 _ _) fun _ => F.pure _
  | branch span test body otherwise =>
    refine F.bind (hn test h.1) fun v => F.bind (F.truthy v) fun b => ?_
    cases b
    · exact hn otherwise h.2.2
    · exact hn body h.2.1
  | loop span target source body => exact F.loop hn fuel span h.1 h.2.1 h.2.2
  | name span name =>
    simp only [Eval.step]
    split
    · exact F.bind F.context fun _ => F.pure _
    · exact F.lookUp _ _
  | list span items => exact F.bind (F.nodes hn h) fun _ => F.computed _
  | member span object name => exact F.bind (hn object h) fun _ => F.computed _
  | item span object key =>
    exact F.bind (hn object h.1) fun _ => F.bind (hn key h.2) fun _ => F.item _ _ _
  | call span callee arguments => exact F.callNode hn hr span h.1 h.2
  | unary span op operand =>
    refine F.bind (hn operand h) fun v => ?_
    cases op
    · exact F.negate _ _
    · exact F.bind (F.truthy v) fun _ => F.pure _
  | arithmetic span op left right =>
    exact F.bind (hn left h.1) fun _ => F.bind (hn right h.2) fun _ => F.arithmetic _ _ _ _
  | compare span op left right =>
    exact F.bind (hn left h.1) fun _ => F.bind (hn right h.2) fun _ => F.comparison _ _ _ _
  | logic span op left right => exact F.logic hn op h.1 h.2
  | custom span writes value => exact F.bind (F.write _ _) fun _ => F.pure _
  | unknownOperator span symbol left right =>
    exact F.bind (hn left h.1) fun _ => F.bind (hn right h.2) fun _ => F.failWith _

end Nodes

/-! ### Templates -/

theorem runPage {node : Node → Eval Value}
    (hn : ∀ n : Node, n.BindsOnly allowed → Moves R (node n)) {t : Template}
    (ht : t.BindsOnly allowed) : Moves R (runPage node t) := by
  unfold Eval.runPage
  split
  · next page hp => exact F.within (hn _ (ht page hp))
  · exact F.pure _

theorem renderWith {node : Node → Eval Value}
    (hn : ∀ n : Node, n.BindsOnly allowed → Moves R (node n)) {t : Template} (ht : good t) :
    Moves R (renderWith node t) := by
  intro s
  refine F.bind_at (F.checkErrors t s) fun _ u hok => ?_
  refine F.bind (F.runPage hn (F.binds ht (hasErrors_of_checkErrors hok))) (fun v => ?_) u
  unfold writePage
  split
  · exact F.writeResult _ _
  · exact F.pure _

/-- Evaluation moves by the relation, by induction on the steps it is given: the
nodes below a node and the templates it includes have one step less. -/
theorem evaluate (fuel : Nat) {node : Node} (h : node.BindsOnly allowed) :
    Moves R (evaluate host fuel node) := by
  induction fuel generalizing node with
  | zero => exact F.throw _
  | succ fuel ih => exact F.step (fun _ => ih) (fun _ => F.renderWith fun _ => ih) fuel h

theorem render (fuel : Nat) {t : Template} (ht : good t) : Moves R (render host fuel t) :=
  F.renderWith (fun _ => F.evaluate fuel) ht

end Rules

end Frame

end Eval

end Stencil

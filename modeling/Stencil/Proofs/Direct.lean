import Stencil.Proofs.Exit

/-!
# Writing at once

In the evaluator every statement has a value: a block writes all values but the
last, which travels up through blocks, conditions and pages to a loop, or to
whoever renders the page, and is written there. `Direct` evaluates without such
values: a text and an expression that stands alone are written where they are
executed, and everything around them only sequences, chooses and repeats.

`render_eq_direct` says that both come to the same: to the same state and the
same outcome, whatever is included and whatever functions of the host do to the
output meanwhile. Only the places of errors may differ, as a value that travelled
up is written in the range of what it travelled through; `unplaced` drops them.
`Same` compares evaluations so; it is a congruence for everything that the two
evaluators are put together from.
-/

namespace Stencil

/-! ## The direct evaluator -/

namespace Direct

open Eval

/-- One turn of a loop. -/
def turn (exec : Node → Eval Unit) (span : Span) (target : String) (body : Node) (v : Value) :
    Eval Unit := do
  assign target v (some span)
  exec body

/-- Goes through a list as it is at each turn. -/
def loopList (exec : Node → Eval Unit) (span : Span) (target : String) (body : Node)
    (id : ListId) : Nat → Nat → Eval Unit
  | 0, _ => throw .exhausted
  | fuel + 1, index => do
    match (← get).store.item? id index with
    | none => return
    | some v =>
      turn exec span target body v
      loopList exec span target body id fuel (index + 1)

/-- Repeats the body of a loop. -/
def loop (run : Runner) (exec : Node → Eval Unit) (fuel : Nat) (span : Span) (target : String)
    (source body : Node) : Eval Unit := do
  match ← run.node source with
  | .null => return
  | .list id => loopList exec span target body id fuel 0
  | v =>
    match ← computed (Computation.elements? v) with
    | none => report (.cannotIterate v.typeName) source.span?
    | some items => items.forM (turn exec span target body)

/-- What a statement does. Texts and expressions are written, and so is the value
of a node that is no statement. -/
def statement (host : Host) (run : Runner) (exec : Node → Eval Unit) (fuel : Nat) :
    Node → Eval Unit
  | .absent => return
  | .page _ body _ => exec body
  | .block _ body => body.forM exec
  | .text span value id => writeResult (some span) (.text id value)
  | .expression span value => do writeResult (some span) (← run.node value)
  | .assign span target value => do assign target (← run.node value) (some span)
  | .branch _ test body otherwise => do
    if ← truthy (← run.node test) then exec body else exec otherwise
  | .loop span target source body => loop run exec fuel span target source body
  | node => do writeResult node.span? (← step host run fuel node)

/-- Renders a template, given how statements are executed. -/
def renderWith (exec : Node → Eval Unit) (t : Template) : Eval Unit := do
  checkErrors t
  match t.page with
  | some page => within t.path (exec page.node)
  | none => return

mutual

/-- Executes a statement, with `fuel` steps to go down. -/
def execute (host : Host) : Nat → Node → Eval Unit
  | 0, _ => throw .exhausted
  | fuel + 1, node =>
    statement host ⟨evaluate host fuel, renderWith (execute host fuel)⟩ (execute host fuel) fuel node

/-- The value of an expression; the templates that it includes are executed. -/
def evaluate (host : Host) : Nat → Node → Eval Value
  | 0, _ => throw .exhausted
  | fuel + 1, node => step host ⟨evaluate host fuel, renderWith (execute host fuel)⟩ fuel node

end

/-- Renders a template. -/
def render (host : Host) (fuel : Nat) (t : Template) : Eval Unit := renderWith (execute host fuel) t

end Direct

/-! ## The same but for places -/

/-- A failure without the place it is reported against. -/
def Failure.unplaced : Failure → Failure
  | .script e => .script { e with span := none }
  | x => x

namespace Eval

variable {α β : Type}

/-- An outcome without the place of its failure. -/
def unplaced : EStateM.Result Failure State α → EStateM.Result Failure State α
  | .ok a s => .ok a s
  | .error x s => .error x.unplaced s

/-- From every state, two evaluations come to the same but for the places of
failures. -/
def Same (e f : Eval α) : Prop := ∀ s, unplaced (e s) = unplaced (f s)

namespace Same

theorem refl (e : Eval α) : Same e e := fun _ => rfl

theorem trans {e f g : Eval α} (h : Same e f) (k : Same f g) : Same e g :=
  fun s => (h s).trans (k s)

theorem of_eq {e f : Eval α} (h : e = f) : Same e f := h ▸ refl e

/-- Two outcomes that are the same both return or both fail. -/
theorem cases_at {r r' : EStateM.Result Failure State α} (h : unplaced r = unplaced r') :
    (∃ a t, r = .ok a t ∧ r' = .ok a t) ∨
      ∃ x x' t, r = .error x t ∧ r' = .error x' t ∧ x.unplaced = x'.unplaced := by
  cases r with
  | ok a t =>
    cases r' with
    | ok b u =>
      simp only [unplaced, EStateM.Result.ok.injEq] at h
      obtain ⟨rfl, rfl⟩ := h
      exact .inl ⟨a, t, rfl, rfl⟩
    | error y u => cases h
  | error x t =>
    cases r' with
    | ok b u => cases h
    | error y u =>
      simp only [unplaced, EStateM.Result.error.injEq] at h
      obtain ⟨hx, rfl⟩ := h
      exact .inr ⟨x, y, t, rfl, rfl, hx⟩

/-- A sequence, from one state. -/
theorem bind_at {e e' : Eval α} {f f' : α → Eval β} {s : State} (he : unplaced (e s) = unplaced (e' s))
    (hf : ∀ a t, e s = .ok a t → unplaced (f a t) = unplaced (f' a t)) :
    unplaced ((e >>= f) s) = unplaced ((e' >>= f') s) := by
  rw [bind_run, bind_run]
  obtain ⟨a, t, h, h'⟩ | ⟨x, x', t, h, h', hx⟩ := cases_at he
  · rw [h, h']
    exact hf a t h
  · rw [h, h']
    simp only [unplaced, hx]

theorem bind {e e' : Eval α} {f f' : α → Eval β} (he : Same e e') (hf : ∀ a, Same (f a) (f' a)) :
    Same (e >>= f) (e' >>= f') :=
  fun s => bind_at (he s) fun a t _ => hf a t

theorem ensuring {body body' : Eval α} (h : Same body body') (cleanUp : Eval Unit) :
    Same (ensuring body cleanUp) (ensuring body' cleanUp) := by
  intro s
  obtain ⟨a, t, e, e'⟩ | ⟨x, x', t, e, e', hx⟩ := cases_at (h s)
  · simp only [Eval.ensuring, e, e']
  · cases hc : cleanUp t <;> simp only [Eval.ensuring, e, e', hc, unplaced, hx]

theorem capture {body body' : Eval Unit} (h : Same body body') (cleanUp : Eval Unit) :
    Same (capture body cleanUp) (capture body' cleanUp) := by
  intro s
  have hb : Same (do pushSink; body) (do pushSink; body') := bind (refl _) fun _ => h
  obtain ⟨a, t, e, e'⟩ | ⟨x, x', t, e, e', hx⟩ := cases_at (hb s)
  · simp only [Eval.capture, e, e']
  · simp only [Eval.capture, e, e']
    cases (do let _ ← popSink; cleanUp : Eval Unit) t <;> simp only [unplaced, hx]

theorem mapM {f f' : α → Eval β} (h : ∀ a, Same (f a) (f' a)) (l : List α) :
    Same (l.mapM f) (l.mapM f') := by
  induction l with
  | nil => exact refl _
  | cons a l ih =>
    rw [List.mapM_cons, List.mapM_cons]
    exact bind (h a) fun _ => bind ih fun _ => refl _

theorem forM {f f' : α → Eval Unit} (h : ∀ a, Same (f a) (f' a)) (l : List α) :
    Same (l.forM f) (l.forM f') := by
  induction l with
  | nil => exact refl _
  | cons a l ih => exact bind (h a) fun _ => ih

theorem within {path : Option String} {body body' : Eval α} (h : Same body body') :
    Same (within path body) (within path body') := by
  cases path with
  | none => exact h
  | some path => exact bind (refl _) fun _ => ensuring h _

theorem includeTemplate {render render' : Template → Eval Unit} (h : ∀ t, Same (render t) (render' t))
    (span : Option Span) (arguments : List Value) :
    Same (includeTemplate render span arguments) (includeTemplate render' span arguments) := by
  refine bind (refl _) fun c => ?_
  cases arguments with
  | nil => exact refl _
  | cons nameValue arguments =>
    refine bind (refl _) fun name => bind (refl _) fun d => ?_
    cases d.loader with
    | none => exact refl _
    | some loader =>
      refine bind (refl _) fun path => bind (refl _) fun scope => bind (refl _) fun list =>
        bind (refl _) fun _ => ensuring ?_ _
      exact bind (refl _) fun template => bind (refl _) fun _ => capture (h template) _

end Same

/-- Two ways to go on below a node that come to the same. -/
structure Runner.Same (run run' : Runner) : Prop where
  node (n : Node) : Eval.Same (run.node n) (run'.node n)
  render (t : Template) : Eval.Same (run.render t) (run'.render t)

namespace Same

section Nodes

variable {host : Host} {run run' : Runner} (h : run.Same run')

include h

theorem call (span : Option Span) (callee : Value) (arguments : List Value) :
    Same (call host run.render span callee arguments) (call host run'.render span callee arguments) := by
  unfold Eval.call
  split
  · exact bind (includeTemplate h.render _ _) fun _ => refl _
  all_goals exact refl _

theorem callNode (span : Span) (callee : Node) (arguments : List Node) :
    Same (callNode host run span callee arguments) (callNode host run' span callee arguments) := by
  refine bind (h.node callee) fun f => ?_
  split
  · exact refl _
  · exact bind (mapM h.node _) fun _ => call h _ _ _

theorem logic (op : Connective) (left right : Node) :
    Same (logic run op left right) (logic run' op left right) := by
  refine bind (h.node left) fun l => bind (refl _) fun b => ?_
  have hright : Same (do return Value.bool (← truthy (← run.node right)))
      (do return Value.bool (← truthy (← run'.node right))) :=
    bind (h.node right) fun _ => refl _
  cases op <;> cases b
  · exact refl _
  · exact hright
  · exact hright
  · exact refl _

theorem statements (nodes : List Node) : Same (statements run nodes) (statements run' nodes) := by
  induction nodes with
  | nil => exact refl _
  | cons node rest ih =>
    cases rest with
    | nil => exact h.node node
    | cons next rest => exact bind (h.node node) fun _ => bind (refl _) fun _ => ih

theorem turn (span : Span) (target : String) (body : Node) (v : Value) :
    Same (turn run span target body v) (turn run' span target body v) :=
  bind (refl _) fun _ => bind (h.node body) fun _ => refl _

theorem loopList (span : Span) (target : String) (body : Node) (id : ListId) (fuel index : Nat) :
    Same (loopList run span target body id fuel index) (loopList run' span target body id fuel index) := by
  induction fuel generalizing index with
  | zero => exact refl _
  | succ fuel ih =>
    refine bind (refl _) fun s => ?_
    split
    · exact refl _
    · exact bind (turn h _ _ _ _) fun _ => ih (index + 1)

theorem loop (fuel : Nat) (span : Span) (target : String) (source body : Node) :
    Same (loop run fuel span target source body) (loop run' fuel span target source body) := by
  refine bind (h.node source) fun v => ?_
  split
  · exact refl _
  · exact bind (loopList h _ _ _ _ _ _) fun _ => refl _
  · refine bind (refl _) fun items => ?_
    split
    · exact refl _
    · exact bind (forM (turn h _ _ _) _) fun _ => refl _

/-- A step comes to the same if what runs below it does. -/
theorem step (fuel : Nat) (node : Node) : Same (step host run fuel node) (step host run' fuel node) := by
  cases node with
  | absent | text | const | name | argument | argumentAt | foreign | custom => exact refl _
  | page span body frontMatter => exact h.node body
  | block span body => exact statements h body
  | expression span value => exact h.node value
  | assign span target value => exact bind (h.node value) fun _ => refl _
  | branch span test body otherwise =>
    refine bind (h.node test) fun v => bind (refl _) fun b => ?_
    cases b
    · exact h.node otherwise
    · exact h.node body
  | loop span target source body => exact loop h fuel span target source body
  | list span items => exact bind (mapM h.node items) fun _ => refl _
  | member span object name => exact bind (h.node object) fun _ => refl _
  | item span object key => exact bind (h.node object) fun _ => bind (h.node key) fun _ => refl _
  | call span callee arguments => exact callNode h span callee arguments
  | unary span op operand => exact bind (h.node operand) fun _ => refl _
  | arithmetic span op left right =>
    exact bind (h.node left) fun _ => bind (h.node right) fun _ => refl _
  | compare span op left right =>
    exact bind (h.node left) fun _ => bind (h.node right) fun _ => refl _
  | logic span op left right => exact logic h op left right
  | unknownOperator span symbol left right =>
    exact bind (h.node left) fun _ => bind (h.node right) fun _ => refl _

end Nodes

end Same

end Eval


/-! ## Writing where a value stands -/

/-- The state behind the write of a value that is the result of a statement. -/
def State.written (s : State) (v : Value) : Except Fault State :=
  if v.isNull || !s.context.outputEnabled then .ok s
  else (s.store.display v).map fun text =>
    { s with context := { s.context with sink := s.context.sink.write v text } }

/-- A write does the same in whatever files it happens. -/
theorem State.written_inFiles (s : State) (files : List String) (v : Value) :
    (s.inFiles files).written v = (s.written v).map (·.inFiles files) := by
  show (if v.isNull || !s.context.outputEnabled then _ else (s.store.display v).map _) = _
  unfold written
  split
  · rfl
  · cases s.store.display v <;> rfl

theorem State.sourceFiles_written {s t : State} {v : Value} (h : s.written v = .ok t) :
    t.context.sourceFiles = s.context.sourceFiles := by
  unfold written at h
  split at h
  · cases h
    rfl
  · cases hd : s.store.display v with
    | error e =>
      rw [hd] at h
      cases h
    | ok text =>
      rw [hd] at h
      cases h
      rfl

namespace Eval

theorem writeResult_run (span : Option Span) (v : Value) (s : State) :
    writeResult span v s = match s.written v with
      | .ok t => .ok () t
      | .error e => .error (conversionFailure s.context span v e) s := by
  unfold writeResult State.written
  cases v.isNull with
  | true => rfl
  | false =>
    rw [if_neg Bool.false_ne_true, Bool.false_or]
    rcases Bool.eq_false_or_eq_true s.context.outputEnabled with ho | ho
    · rw [write_run_enabled ho, if_neg (by rw [ho]; decide)]
      cases s.store.display v <;> rfl
    · rw [write_run_disabled ho, if_pos (by rw [ho]; decide)]

/-- How it fails that a value has no text depends on the place in nothing but the
place. -/
theorem unplaced_conversionFailure (c d : Context) (span span' : Option Span) (v : Value) (e : Fault) :
    (conversionFailure c span v e).unplaced = (conversionFailure d span' v e).unplaced := by
  cases e <;> rfl

theorem Same.writeResult (span span' : Option Span) (v : Value) :
    Same (writeResult span v) (writeResult span' v) := by
  intro s
  rw [writeResult_run, writeResult_run]
  cases s.written v with
  | ok t => rfl
  | error e => exact congrArg (EStateM.Result.error · s) (unplaced_conversionFailure _ _ _ _ v e)

/-- What is written behind a file, could as well be written inside, as long as the
file is left where it was entered. -/
theorem unplaced_within (path : String) {body : Eval Value} {s : State} (span : Option Span)
    (h : ∀ v t, body (s.inFiles (path :: s.context.sourceFiles)) = .ok v t → t.context.sourceFiles ≠ []) :
    unplaced ((do writeResult span (← within (some path) body) : Eval Unit) s) =
      unplaced (within (some path) (do writeResult span (← body)) s) := by
  have hp : pushSourceFile path s = .ok () (s.inFiles (path :: s.context.sourceFiles)) := rfl
  cases hb : body (s.inFiles (path :: s.context.sourceFiles)) with
  | error x t =>
    simp only [within, bind_run, hp, Eval.ensuring, hb]
    cases popSourceFile t <;> rfl
  | ok v t =>
    cases hf : t.context.sourceFiles with
    | nil => exact absurd hf (h v t hb)
    | cons file below =>
      have hpop : popSourceFile t = .ok file (t.inFiles below) := popSourceFile_run hf
      simp only [within, bind_run, hp, Eval.ensuring, hb, hpop, pure_run, writeResult_run,
        State.written_inFiles]
      cases hw : t.written v with
      | error e =>
        simp only [Except.map, hpop, unplaced]
        exact congrArg (EStateM.Result.error · (t.inFiles below)) (unplaced_conversionFailure _ _ _ _ v e)
      | ok u =>
        have hu : popSourceFile u = .ok file (u.inFiles below) :=
          popSourceFile_run ((State.sourceFiles_written hw).trans hf)
        simp only [Except.map, hu]

end Eval

/-! ## Files are left as they were entered -/

/-- A relation that steps move by which leave the files being executed. -/
structure OfFiles (R : State → State → Prop) : Prop extends Sequential R where
  of_files {s t : State} : t.context.sourceFiles = s.context.sourceFiles → R s t

namespace OfFiles

open Eval

variable {R : State → State → Prop} (F : OfFiles R)

include F

theorem loading : Loading R where
  toSequential := F.toSequential
  store _ _ := F.of_files rfl
  ask question s := F.of_files (by rw [after_ask])
  keep _ _ _ := F.of_files rfl

theorem assign (name : String) (v : Value) (span : Option Span) : Moves R (assign name v span) :=
  F.toSequential.assign fun _ _ _ _ => F.of_files rfl

theorem popSink : Moves R popSink := F.toSequential.popSink fun _ _ _ _ => F.of_files rfl

theorem enterPending (span : Option Span) (name : String) : Moves R (enterPending span name) :=
  Moves.enterPending fun _ _ => F.of_files rfl

theorem write (span : Option Span) (v : Value) : Moves R (write span v) :=
  F.toSequential.write fun _ _ _ _ => F.of_files rfl

/-- Evaluation moves by such a relation if functions of the host do, and what runs in a file
of its own. -/
theorem frame {host : Host}
    (h : ∀ name span arguments, Moves R (host.contextual name span arguments))
    (hwithin : ∀ {path : Option String} {body : Eval Value}, Moves R body → Moves R (within path body)) :
    Frame host (fun _ => True) (fun _ => True) R where
  toSequential := F.toSequential
  store := F.loading.store
  contextual := h
  write := F.write
  assign _ := F.assign _
  includes hr := F.loading.includeTemplate (F.assign _) F.enterPending (fun _ => F.of_files rfl)
    F.popSink (fun _ _ => F.of_files rfl) (fun _ _ => F.of_files rfl) fun t => hr t trivial
  within := hwithin
  binds _ _ _ _ := Node.bindsOnly_of_forall (fun _ => trivial) _

end OfFiles

/-- A step after which no fewer files are being executed. -/
def State.KeepsFiles (s t : State) : Prop :=
  s.context.sourceFiles.length ≤ t.context.sourceFiles.length

/-- The functions of a host leave no file that they did not enter. -/
def Host.KeepsFiles (host : Host) : Prop :=
  ∀ name span arguments, Moves State.KeepsFiles (host.contextual name span arguments)

namespace Eval

theorem keepsFiles : OfFiles State.KeepsFiles where
  refl _ := Nat.le_refl _
  trans := Nat.le_trans
  of_files h := Nat.le_of_eq (congrArg List.length h.symm)

/-- What is executed in a file of its own leaves that file. -/
theorem keepsFiles_within {path : Option String} {body : Eval Value}
    (h : Moves State.KeepsFiles body) : Moves State.KeepsFiles (within path body) := by
  cases path with
  | none => exact h
  | some path =>
    intro s
    have hs : s.context.sourceFiles.length + 1 ≤
      (after body (s.inFiles (path :: s.context.sourceFiles))).context.sourceFiles.length :=
      h (s.inFiles (path :: s.context.sourceFiles))
    rw [after_within]
    cases hf : (after body (s.inFiles (path :: s.context.sourceFiles))).context.sourceFiles with
    | nil =>
      rw [hf] at hs
      cases hs
    | cons file below =>
      rw [hf] at hs
      rw [after_bind_of_ok (popSourceFile_run hf)]
      exact Nat.le_of_succ_le_succ hs

/-! ## Both evaluators -/

namespace Same

variable {host : Host} {run run' : Runner} (h : run.Same run') {exec : Node → Eval Unit}
  (he : ∀ span n, Same (do Eval.writeResult span (← run.node n)) (exec n))

/-- What has the value null writes nothing at its end. -/
theorem writing_null (e : Eval Unit) (place : Option Span) :
    (do Eval.writeResult place (← (do e; return Value.null : Eval Value)) : Eval Unit) = e := by
  rw [bind_assoc]
  exact bind_pure e

section Statements

include he

/-- Writing the value of a block writes every value of it. -/
theorem statements_exec (span : Option Span) (nodes : List Node) :
    Same (do Eval.writeResult span (← Eval.statements run nodes)) (nodes.forM exec) := by
  induction nodes with
  | nil => exact refl _
  | cons node rest ih =>
    cases rest with
    | nil => exact (he span node).trans (of_eq (bind_pure _).symm)
    | cons next rest =>
      have e : (do Eval.writeResult span (← Eval.statements run (node :: next :: rest)) : Eval Unit) =
          (do
            (do Eval.writeResult node.span? (← run.node node) : Eval Unit)
            Eval.writeResult span (← Eval.statements run (next :: rest))) := by
        simp only [Eval.statements, bind_assoc]
      exact (of_eq e).trans (bind (he _ node) fun _ => ih)

theorem turn_exec (span : Span) (target : String) (body : Node) (v : Value) :
    Same (Eval.turn run span target body v) (Direct.turn exec span target body v) :=
  bind (refl _) fun _ => he _ body

theorem loopList_exec (span : Span) (target : String) (body : Node) (id : ListId) (fuel index : Nat) :
    Same (Eval.loopList run span target body id fuel index)
      (Direct.loopList exec span target body id fuel index) := by
  induction fuel generalizing index with
  | zero => exact refl _
  | succ fuel ih =>
    refine bind (refl _) fun s => ?_
    cases s.store.item? id index with
    | none => exact refl _
    | some v => exact bind (turn_exec he _ _ _ _) fun _ => ih (index + 1)

end Statements

include h he

theorem loop_exec (fuel : Nat) (span : Span) (target : String) (source body : Node)
    (place : Option Span) :
    Same (do Eval.writeResult place (← Eval.loop run fuel span target source body))
      (Direct.loop run' exec fuel span target source body) := by
  have hitems (v : Value) : Same
      (do
        let place' ← (do
          match ← computed (Computation.elements? v) with
          | none => report (.cannotIterate v.typeName) source.span?
          | some items =>
            items.forM (Eval.turn run span target body)
            return .null : Eval Value)
        Eval.writeResult place place')
      (do
        match ← computed (Computation.elements? v) with
        | none => report (.cannotIterate v.typeName) source.span?
        | some items => items.forM (Direct.turn exec span target body)) := by
    rw [bind_assoc]
    refine bind (refl _) fun items => ?_
    cases items with
    | none => exact refl _
    | some items =>
      exact (of_eq (writing_null _ place)).trans (forM (turn_exec he _ _ _) _)
  unfold Eval.loop Direct.loop
  rw [bind_assoc]
  refine bind (h.node source) fun v => ?_
  cases v with
  | null => exact refl _
  | list id =>
    exact (of_eq (writing_null _ place)).trans (loopList_exec he _ _ _ _ _ _)
  | _ => exact hitems _

/-- Writing what a step comes to is to execute the node. -/
theorem step_exec (fuel : Nat) (place : Option Span) (node : Node) :
    Same (do Eval.writeResult place (← Eval.step host run fuel node))
      (Direct.statement host run' exec fuel node) := by
  have hother (n : Node) : Same (do Eval.writeResult place (← Eval.step host run fuel n))
      (do Eval.writeResult n.span? (← Eval.step host run' fuel n)) :=
    bind (step h fuel n) fun v => writeResult _ _ v
  cases node with
  | absent => exact refl _
  | page span body frontMatter => exact he place body
  | block span body => exact statements_exec he place body
  | text span value id => exact writeResult place (some span) (.text id value)
  | expression span value =>
    exact bind (e := run.node value) (h.node value) fun v => writeResult _ _ v
  | assign span target value =>
    simp only [Eval.step, bind_assoc]
    exact bind (h.node value) fun v => of_eq (bind_pure (assign target v (some span)))
  | branch span test body otherwise =>
    simp only [Eval.step, bind_assoc]
    refine bind (h.node test) fun v => bind (refl _) fun b => ?_
    cases b
    · exact he place otherwise
    · exact he place body
  | loop span target source body => exact loop_exec h he fuel span target source body place
  | _ => exact hother _

end Same

section Runs

variable {host : Host} (hk : host.KeepsFiles)

include hk

/-- Writing what a template comes to is to execute it. -/
theorem same_renderWith {fuel : Nat} {exec : Node → Eval Unit}
    (he : ∀ span n, Same (do writeResult span (← evaluate host fuel n)) (exec n)) (t : Template) :
    Same (renderWith (evaluate host fuel) t) (Direct.renderWith exec t) := by
  refine .bind (.refl _) fun _ => ?_
  unfold runPage writePage
  cases t.page with
  | none => exact .refl _
  | some page =>
    refine .trans (fun s => ?_) (.within (he (some page.span) page.node))
    cases t.path with
    | none => rfl
    | some path =>
      refine unplaced_within path (some page.span) fun v u hv hu => ?_
      have h := (keepsFiles.frame hk keepsFiles_within).evaluate fuel
        (page.node.bindsOnly_of_forall fun _ => trivial) (s.inFiles (path :: s.context.sourceFiles))
      rw [after_of_ok hv, State.KeepsFiles, hu] at h
      cases h

/-- Both evaluators come to the same, by induction on the steps they are given:
what is evaluated has the same value, and what is executed writes the value it
would have. -/
theorem same_direct (fuel : Nat) :
    (∀ n, Same (evaluate host fuel n) (Direct.evaluate host fuel n)) ∧
      ∀ span n, Same (do writeResult span (← evaluate host fuel n)) (Direct.execute host fuel n) := by
  induction fuel with
  | zero => exact ⟨fun _ => .refl _, fun _ _ => .refl _⟩
  | succ fuel ih =>
    have hr : Runner.Same ⟨evaluate host fuel, renderWith (evaluate host fuel)⟩
        ⟨Direct.evaluate host fuel, Direct.renderWith (Direct.execute host fuel)⟩ :=
      ⟨ih.1, same_renderWith hk ih.2⟩
    exact ⟨fun n => Same.step hr fuel n, fun span n => Same.step_exec hr ih.2 fuel span n⟩

/-- Rendering writes every text and every expression once, where it is executed. -/
theorem render_eq_direct (fuel : Nat) (t : Template) (s : State) :
    unplaced (render host fuel t s) = unplaced (Direct.render host fuel t s) :=
  same_renderWith hk (same_direct hk fuel).2 t s

end Runs

/-! ## An include that is silenced midway -/

theorem basicHost_keepsFiles : basicHost.KeepsFiles := by
  intro name span arguments
  have L := keepsFiles.loading
  have hlist (items : List Value) : Moves State.KeepsFiles (computed (Computation.newList items)) :=
    L.compute_of_store L.store (fun e => L.failWith e) _
  have htext (text : String) :
      Moves State.KeepsFiles (computed (Computation.newText text) : Eval Value) :=
    L.compute_of_store L.store (fun e => L.failWith e) _
  have hwrite : Moves State.KeepsFiles (BasicHost.writeAll span arguments) :=
    L.forM (keepsFiles.write span) _
  show Moves State.KeepsFiles (BasicHost.contextual name span arguments)
  unfold BasicHost.contextual
  split
  · refine L.bind L.context fun c => ?_
    split <;> exact L.pure _
  · exact L.bind L.context fun _ => hlist _
  · exact L.bind L.context fun _ => hlist _
  · exact htext _
  · exact L.bind hwrite fun _ => L.pure _
  · refine L.bind (fun _ => keepsFiles.of_files rfl) fun _ => L.bind hwrite fun _ => ?_
    exact L.bind keepsFiles.popSink fun _ => htext _
  · exact fun _ => keepsFiles.of_files rfl
  · refine L.bind (fun s => keepsFiles.of_files ?_) fun _ => L.pure _
    cases h : s.context.scopes <;>
      simp only [after, popScope, bind_run, context_run, h, throw_run, changeContext_run, pure_run]
  · exact fun _ => keepsFiles.of_files rfl
  · exact L.pure _

/-- Some place. -/
def somewhere : Span := ⟨none, .start, .start⟩

/-- A template with a condition last in a loop that is last in the template. -/
def marksEach : Template where
  path := some "marks"
  page := some
    { span := somewhere
      body := .block somewhere
        [.text somewhere "[",
         .loop somewhere "x" (.name somewhere argumentsName)
          (.branch somewhere (.name somewhere "x")
            (.block somewhere [.text somewhere "+", .expression somewhere (.name somewhere "x")])
            (.block somewhere [.text somewhere "-"]))] }

/-- A template that includes another one and then turns its output off. -/
def hushes : Template where
  path := some "hushes"
  page := some
    { span := somewhere
      body := .block somewhere
        [.expression somewhere (.call somewhere (.name somewhere "include")
          [.const somewhere (.text 0 "marks"), .const somewhere (.int 0 7), .const somewhere .null]),
         .text somewhere "]",
         .expression somewhere (.call somewhere (.name somewhere "hush") []),
         .text somewhere "."] }

/-- A state with a template in the cache. -/
def withMarks : State where
  context :=
    { loader := some (.function 0)
      scopes := [⟨5, [("hush", .function 1 (.contextual "stop_output"))]⟩] }
  cache := [("marks", ⟨7, marksEach⟩)]

/-- The output of a page whose last statement nests in an include, turned off
before the page ends. -/
theorem render_eq_direct_hushes :
    basicHost.KeepsFiles ∧
      unplaced (render basicHost 20 hushes withMarks) =
        unplaced (Direct.render basicHost 20 hushes withMarks) ∧
      (after (render basicHost 20 hushes) withMarks).context.output = "[+7-]" := by
  refine ⟨basicHost_keepsFiles, render_eq_direct basicHost_keepsFiles 20 hushes withMarks, ?_⟩
  decide +kernel

end Eval

end Stencil

import Stencil.Proofs.Literals
import Stencil.Proofs.Places

/-!
# Whose failure it is

A step of evaluation fails by itself, or because one of its parts does: a node below it, a template
that it includes, or a function of the host. To tell which, it is run with its parts hushed
(`Runner.hushed`, `Host.hushed`): whatever they fail with says nothing then, and a script error that
still comes out of the step is its own. `Eval.naming` places that error in a file and leaves the
failures of parts as they are.

`Tells` relates three outcomes of a step: with its parts hushed, with other parts in their place, and
as it is. Where the parts come to the same, so does the step, and what it fails with by itself names
a file (`TellsOwn.step`): the file that its range belongs to, else the one on top of the files that
are being executed.
-/

namespace Stencil

/-! ## Places of failures -/

/-- The place of a failure. Only script errors have one, and not all of them. -/
def Failure.place? : Failure → Option Span
  | .script e => e.span
  | _ => none

/-- A failure, its place in a file if it has one. -/
def Failure.inFile (file : Option String) : Failure → Failure
  | .script e => .script { e with span := e.span.map (·.inFile file) }
  | x => x

/-- If the failure has a place, it belongs to the file. -/
def Failure.Names (file : Option String) (x : Failure) : Prop :=
  ∀ span, x.place? = some span → span.file = file

namespace Failure

variable {file : Option String} {x : Failure}

theorem Names.inFile (h : x.Names file) : x.inFile file = x := by
  cases x with
  | script e =>
    obtain ⟨cause, place⟩ := e
    cases place with
    | none => rfl
    | some span =>
      obtain rfl := h span rfl
      rfl
  | fault | exhausted => rfl

theorem names_of_place? (h : x.place? = none) : x.Names file := by
  intro span hs
  rw [h] at hs
  cases hs

theorem names_ofFault (e : Fault) : (Failure.ofFault e).Names file :=
  names_of_place? (by cases e <;> rfl)

end Failure

/-! ## Trees in a file -/

/-- The ranges of a tree belong to a file. -/
abbrev Node.LiesIn (file : Option String) (n : Node) : Prop :=
  n.Everywhere fun m => ∀ span, m.span? = some span → span.file = file

/-! ## Hushed parts -/

namespace Eval

variable {α β : Type}

/-- An evaluation whose failures say nothing. -/
def hushed (e : Eval α) : Eval α := fun s =>
  match e s with
  | .ok a t => .ok a t
  | .error _ t => .error .exhausted t

/-- What runs below a node, with failures that say nothing. -/
def Runner.hushed (run : Runner) : Runner where
  node n := Eval.hushed (run.node n)
  render t := Eval.hushed (run.render t)

/-- An evaluation with its own script errors placed in a file. `alone` is the evaluation with its
parts hushed. -/
def naming (file : Option String) (alone body : Eval α) : Eval α := fun s =>
  match alone s with
  | .error (.script e) t => .error ((Failure.script e).inFile file) t
  | _ => body s

end Eval

open Eval

/-- A call of a function that sees its arguments alone, with failures of its own that say nothing. Its
faults are reported by whoever calls. -/
def PlainCall.hushed {α : Type} (call : PlainCall α) : PlainCall α := fun s =>
  match call s with
  | .error (.passing _) t => .error (.passing .exhausted) t
  | r => r

/-- The host with functions whose own failures say nothing. -/
def Host.hushed (host : Host) : Host where
  plain name arguments := (host.plain name arguments).hushed
  contextual name span arguments := Eval.hushed (host.contextual name span arguments)

/-! ## Outcomes -/

/-- These files are being executed, and the templates of the cache were read. -/
structure State.Executes (files : List String) (s : State) : Prop where
  files : s.context.sourceFiles = files
  cache : s.CacheIsRead

/-- The functions of a host leave the files being executed, and what they put into the cache was
read. -/
def Host.LeavesFiles (host : Host) : Prop :=
  ∀ name span arguments, Moves (fun s t : State =>
    s.SameFiles t ∧ (s.CacheIsRead → t.CacheIsRead)) (host.contextual name span arguments)

theorem Host.LeavesFiles.executes {host : Host} (h : host.LeavesFiles) {files : List String} {s : State}
    (hs : s.Executes files) (name : String) (span : Option Span) (arguments : List Value) :
    (after (host.contextual name span arguments) s).Executes files :=
  have ⟨hfiles, hcache⟩ := h name span arguments s
  ⟨hfiles.trans hs.files, hcache hs.cache⟩

section Fits

variable {files : List String} {file : Option String}

/-- A range that is placed in the file when it is reported while these files are executed. -/
def Fits (files : List String) (file : Option String) (span : Option Span) : Prop :=
  ∀ s, span = some s → s.file.or files.head? = file

/-- A located range belongs to the file. -/
theorem Fits.locate {span : Option Span} (h : Fits files file span) {s : State} (hs : s.Executes files)
    {located : Span} (hl : s.context.locate span = some located) : located.file = file := by
  cases span with
  | none => cases hl
  | some span =>
    rw [Context.locate_some, Context.sourceFile?, hs.files] at hl
    cases hl
    exact h span rfl

theorem Node.LiesIn.fits {path : Option String} {n : Node} (h : n.LiesIn path)
    (hpath : path.or files.head? = file) : Fits files file n.span? :=
  fun span hs => h.here span hs ▸ hpath

end Fits

namespace Eval

variable {α β : Type} {files : List String} {file : Option String}

/-- What an evaluation comes to with its parts hushed, with other parts, and as it is. What it fails
with by itself names the file; of the failure of a part nothing is told. -/
inductive Tells (files : List String) (file : Option String) {α : Type} :
    EStateM.Result Failure State α → EStateM.Result Failure State α →
      EStateM.Result Failure State α → Prop
  | ok {a : α} {s : State} : s.Executes files → Tells files file (.ok a s) (.ok a s) (.ok a s)
  | own {x : Failure} {s : State} : x.Names file → s.Executes files →
      Tells files file (.error x s) (.error x s) (.error x s)
  | part {x : Failure} {s : State} : s.Executes files →
      Tells files file (.error .exhausted s) (.error x s) (.error x s)

/-- From wherever these files are being executed, `Tells` holds of the outcomes. -/
def TellsOwn (files : List String) (file : Option String) (e₁ e₂ e₃ : Eval α) : Prop :=
  ∀ s : State, s.Executes files → Tells files file (e₁ s) (e₂ s) (e₃ s)

/-- An evaluation without parts. -/
abbrev FailsAlone (files : List String) (file : Option String) (e : Eval α) : Prop :=
  TellsOwn files file e e e

theorem Tells.cases_alone {r : EStateM.Result Failure State α} (h : Tells files file r r r) :
    (∃ a s, r = .ok a s ∧ s.Executes files) ∨
      ∃ x s, r = .error x s ∧ x.Names file ∧ s.Executes files := by
  generalize hr : r = r₁, r = r₂ at h
  cases h with
  | ok hs => exact .inl ⟨_, _, rfl, hs⟩
  | own hx hs => exact .inr ⟨_, _, rfl, hx, hs⟩
  | part hs =>
    cases hr
    exact .inr ⟨_, _, rfl, Failure.names_of_place? rfl, hs⟩

theorem FailsAlone.names {e : Eval α} (h : FailsAlone files file e) {s t : State}
    (hs : s.Executes files) {x : Failure} (hx : e s = .error x t) : x.Names file := by
  obtain ⟨_, _, he, -⟩ | ⟨y, u, he, hy, -⟩ := (h s hs).cases_alone
  · cases he.symm.trans hx
  · cases he.symm.trans hx
    exact hy

/-- A part, and what stands in its place. -/
theorem TellsOwn.part {e e' : Eval α}
    (h : ∀ s : State, s.Executes files → e' s = e s ∧ (after e s).Executes files) :
    TellsOwn files file (hushed e) e' e := by
  intro s hs
  obtain ⟨heq, ht⟩ := h s hs
  rw [heq]
  unfold hushed
  cases he : e s with
  | ok a t => exact .ok (after_of_ok he ▸ ht)
  | error x t => exact .part (after_of_error he ▸ ht)

/-- With the errors named that it fails with by itself, an evaluation comes to what it comes to. -/
theorem TellsOwn.naming {e₁ e₂ e₃ : Eval α} (h : TellsOwn files file e₁ e₂ e₃) {s : State}
    (hs : s.Executes files) :
    Eval.naming file e₁ e₂ s = e₃ s ∧ (after e₃ s).Executes files := by
  unfold Eval.naming Stencil.after
  generalize e₁ s = r₁, e₂ s = r₂, e₃ s = r₃, h s hs = ht
  cases ht with
  | ok ht | part ht => exact ⟨rfl, ht⟩
  | @own x t hx ht =>
    refine ⟨?_, ht⟩
    cases x with
    | script e =>
      show EStateM.Result.error ((Failure.script e).inFile file) t = _
      rw [hx.inFile]
    | fault | exhausted => rfl

/-! ## Rules -/

namespace TellsOwn

protected theorem pure (a : α) : FailsAlone files file (pure a : Eval α) := fun _ h => .ok h

protected theorem throw {x : Failure} (hx : x.Names file) :
    FailsAlone files file (throw x : Eval α) := fun _ h => .own hx h

/-- A sequence. What comes second may rely on where the first part returned from. -/
theorem bind_of {e₁ e₂ e₃ : Eval α} {k₁ k₂ k₃ : α → Eval β} (h : TellsOwn files file e₁ e₂ e₃)
    (hk : ∀ a s t, s.Executes files → e₃ s = .ok a t → t.Executes files →
      Tells files file (k₁ a t) (k₂ a t) (k₃ a t)) :
    TellsOwn files file (e₁ >>= k₁) (e₂ >>= k₂) (e₃ >>= k₃) := by
  intro s hs
  have ht := h s hs
  rw [bind_run, bind_run, bind_run]
  generalize e₁ s = r₁, e₂ s = r₂, h₃ : e₃ s = r₃ at ht
  cases ht with
  | ok ht => exact hk _ s _ hs h₃ ht
  | own hx ht => exact .own hx ht
  | part ht => exact .part ht

protected theorem bind {e₁ e₂ e₃ : Eval α} {k₁ k₂ k₃ : α → Eval β}
    (h : TellsOwn files file e₁ e₂ e₃) (hk : ∀ a, TellsOwn files file (k₁ a) (k₂ a) (k₃ a)) :
    TellsOwn files file (e₁ >>= k₁) (e₂ >>= k₂) (e₃ >>= k₃) :=
  h.bind_of fun a _ t _ _ ht => hk a t ht

protected theorem get : FailsAlone files file (get : Eval State) := fun _ h => .ok h

protected theorem context : FailsAlone files file Eval.context := fun _ h => .ok h

theorem mapM {f₁ f₂ f₃ : α → Eval β} {l : List α}
    (h : ∀ a ∈ l, TellsOwn files file (f₁ a) (f₂ a) (f₃ a)) :
    TellsOwn files file (l.mapM f₁) (l.mapM f₂) (l.mapM f₃) := by
  induction l with
  | nil => exact .pure _
  | cons a l ih =>
    rw [List.mapM_cons, List.mapM_cons, List.mapM_cons]
    exact (h a List.mem_cons_self).bind fun _ =>
      (ih fun b hb => h b (List.mem_cons_of_mem a hb)).bind fun _ => .pure _

theorem forM {f₁ f₂ f₃ : α → Eval PUnit} (h : ∀ a, TellsOwn files file (f₁ a) (f₂ a) (f₃ a))
    (l : List α) : TellsOwn files file (l.forM f₁) (l.forM f₂) (l.forM f₃) := by
  induction l with
  | nil => exact .pure _
  | cons a l ih => exact (h a).bind fun _ => ih

/-- An evaluation with a clean-up behind it. -/
protected theorem ensuring {e₁ e₂ e₃ : Eval α} {cleanUp : Eval Unit}
    (h : TellsOwn files file e₁ e₂ e₃) (hc : FailsAlone files file cleanUp) :
    TellsOwn files file (ensuring e₁ cleanUp) (ensuring e₂ cleanUp) (ensuring e₃ cleanUp) := by
  intro s hs
  unfold Eval.ensuring
  generalize e₁ s = r₁, e₂ s = r₂, e₃ s = r₃, h s hs = ht
  cases ht with
  | ok ht | own hy ht | part ht =>
    obtain ⟨_, u, he, hu⟩ | ⟨x, u, he, hx, hu⟩ := (hc _ ht).cases_alone <;> simp only [he]
    · first | exact .ok hu | exact .own hy hu | exact .part hu
    · exact .own hx hu

end TellsOwn

/-! ### Operations on the context -/

/-- The part of an include that runs with the arguments bound. -/
def included (render : Template → Eval Unit) (span : Option Span) (loader : Loader)
    (name path : String) : Eval Sink := do
  let template ← includedTemplate span loader name path
  enterPending span name
  capture (render template) (leavePending name)

namespace TellsOwn

/-- What leaves the files and the cache. -/
theorem changeContext {f : Context → Context} (h : ∀ c, (f c).sourceFiles = c.sourceFiles) :
    FailsAlone files file (changeContext f) :=
  fun _ hs => .ok ⟨(h _).trans hs.files, hs.cache⟩

theorem report {span : Option Span} (hspan : Fits files file span) (cause : Cause) :
    FailsAlone files file (report cause span : Eval α) :=
  fun _ hs => .own (fun _ => hspan.locate hs) hs

theorem leavePending (name : String) : FailsAlone files file (leavePending name) :=
  changeContext fun _ => rfl

theorem restoreArguments (scope : Scope) : FailsAlone files file (restoreArguments scope) :=
  changeContext fun _ => rfl

theorem failWith (e : Fault) : FailsAlone files file (failWith e : Eval α) :=
  .throw (Failure.names_ofFault e)

theorem compute {onFault : Fault → Eval α} (h : ∀ e, FailsAlone files file (onFault e))
    (c : Computation α) : FailsAlone files file (compute onFault c) := by
  intro s hs
  rw [compute_run]
  cases c s.store with
  | ok a store => exact .ok ⟨hs.files, hs.cache⟩
  | error e store => exact h e _ ⟨hs.files, hs.cache⟩

theorem computed (c : Computation α) : FailsAlone files file (computed c) :=
  compute failWith c

theorem truthy (v : Value) : FailsAlone files file (truthy v) :=
  TellsOwn.get.bind fun _ => .pure _

theorem ask {question : Lookup α} (h : FailsOnly (Failure.Names file) question) :
    FailsAlone files file (ask question) := by
  intro s hs
  unfold Eval.ask
  cases hq : question s.library with
  | ok a l => exact .ok ⟨hs.files, hs.cache⟩
  | error x l => exact .own (h _ _ _ hq) ⟨hs.files, hs.cache⟩

theorem lookUp (name : String) {span : Option Span} (hspan : Fits files file span) :
    FailsAlone files file (lookUp name span) := by
  refine TellsOwn.context.bind fun c => ?_
  split
  · exact .pure _
  · split
    · exact report hspan _
    · exact .pure _

theorem assign (name : String) (v : Value) {span : Option Span} (hspan : Fits files file span) :
    FailsAlone files file (assign name v span) := by
  refine TellsOwn.context.bind fun c => ?_
  split
  · exact report hspan _
  · exact changeContext fun _ => rfl

theorem currentScope : FailsAlone files file currentScope := by
  refine TellsOwn.context.bind fun c => ?_
  split
  · exact .throw (Failure.names_of_place? rfl)
  · exact .pure _

theorem pushSink : FailsAlone files file pushSink := changeContext fun _ => rfl

theorem popSink : FailsAlone files file popSink := by
  refine TellsOwn.context.bind fun c => ?_
  split
  · exact .throw (Failure.names_of_place? rfl)
  · exact .bind (changeContext fun _ => rfl) fun _ => .pure _

theorem toText {span : Option Span} (hspan : Fits files file span) (v : Value) :
    FailsAlone files file (toText span v) := by
  refine compute (fun e => ?_) _
  split
  · exact failWith _
  · exact report hspan _

theorem write {span : Option Span} (hspan : Fits files file span) (v : Value) :
    FailsAlone files file (write span v) := by
  refine TellsOwn.context.bind fun c => ?_
  split
  · exact (toText hspan v).bind fun _ => changeContext fun _ => rfl
  · exact .pure _

theorem writeResult {span : Option Span} (hspan : Fits files file span) (v : Value) :
    FailsAlone files file (writeResult span v) := by
  unfold Eval.writeResult
  split
  · exact .pure _
  · exact write hspan v

/-- What runs in a sink of its own. -/
protected theorem capture {e₁ e₂ e₃ cleanUp : Eval Unit} (h : TellsOwn files file e₁ e₂ e₃)
    (hc : FailsAlone files file cleanUp) :
    TellsOwn files file (capture e₁ cleanUp) (capture e₂ cleanUp) (capture e₃ cleanUp) := by
  have hbody : TellsOwn files file (do Eval.pushSink; e₁) (do Eval.pushSink; e₂)
      (do Eval.pushSink; e₃) := pushSink.bind fun _ => h
  have hreturn : FailsAlone files file (do let sink ← Eval.popSink; cleanUp; return sink) :=
    popSink.bind fun _ => hc.bind fun _ => .pure _
  have hfail : FailsAlone files file (do let _ ← Eval.popSink; cleanUp) := popSink.bind fun _ => hc
  intro s hs
  unfold Eval.capture
  generalize (do Eval.pushSink; e₁ : Eval Unit) s = r₁, (do Eval.pushSink; e₂ : Eval Unit) s = r₂,
    (do Eval.pushSink; e₃ : Eval Unit) s = r₃, hbody s hs = ht
  cases ht with
  | ok ht =>
    obtain ⟨sink, u, he, hu⟩ | ⟨x, u, he, hx, hu⟩ := (hreturn _ ht).cases_alone <;> simp only [he]
    · exact .ok hu
    · exact .own hx hu
  | own hy ht | part ht =>
    obtain ⟨_, u, he, hu⟩ | ⟨x, u, he, hx, hu⟩ := (hfail _ ht).cases_alone <;> simp only [he]
    · first | exact .own hy hu | exact .part hu
    · exact .own hx hu

/-! ### Includes -/

section Includes

variable {span : Option Span} (hspan : Fits files file span)

include hspan

theorem includeName (v : Value) : FailsAlone files file (includeName span v) := by
  refine (compute (fun e => report hspan _) _).bind fun name => ?_
  dsimp only
  split
  · exact report hspan _
  · exact .pure _

theorem enterPending (name : String) : FailsAlone files file (enterPending span name) := by
  refine .bind (changeContext fun _ => rfl) fun _ => TellsOwn.context.bind fun c => ?_
  split
  · exact report hspan _
  · exact changeContext fun _ => rfl

variable (hplaced : ∀ s, span = some s → s.file = file)

include hplaced

omit hspan in
/-- A loader fails at the place that asks. -/
theorem answers {question : Lookup α} (h : Answers span question) :
    FailsAlone files file (Eval.ask question) := by
  refine ask fun l x l' hx => ?_
  cases h l x l' hx with
  | fault e => exact Failure.names_of_place? rfl
  | notFound reason => exact hplaced

theorem includePath (loader : Loader) (name : String) :
    FailsAlone files file (includePath span loader name) := by
  refine (answers hplaced (Answers.resolve name loader)).bind fun path => ?_
  split
  · split
    · exact report hspan _
    · exact .pure _
  · exact report hspan _

theorem readIncluded (loader : Loader) (name path : String) :
    FailsAlone files file (readIncluded span loader name path) := by
  refine (answers hplaced (Answers.load path loader)).bind fun text => ?_
  cases text with
  | none => exact report hspan _
  | some text =>
    refine TellsOwn.context.bind fun c => ?_
    cases hp : Template.parse (includeOptions c.options) (some path) text with
    | error e => exact failWith e
    | ok template =>
      cases he : template.hasErrors with
      | true =>
        simp only [he, if_true]
        exact report hspan _
      | false =>
        simp only [he, Bool.false_eq_true, if_false]
        exact fun s hs => .ok ⟨hs.files, hs.cache.addIfAbsent path ⟨_, _, _, hp⟩ _⟩

theorem includedTemplate (loader : Loader) (name path : String) :
    FailsAlone files file (includedTemplate span loader name path) := by
  refine TellsOwn.get.bind fun s => ?_
  split
  · exact .pure _
  · exact readIncluded hspan hplaced loader name path

end Includes

/-- What becomes of a context decides what goes on. -/
theorem of_context {k₁ k₂ k₃ : Context → Eval β}
    (h : ∀ s : State, s.Executes files →
      TellsOwn files file (k₁ s.context) (k₂ s.context) (k₃ s.context)) :
    TellsOwn files file (Eval.context >>= k₁) (Eval.context >>= k₂) (Eval.context >>= k₃) :=
  fun s hs => h s hs s hs

section Renders

variable {render₁ render₂ render₃ : Template → Eval Unit}
  (hr : ∀ t : Template, t.IsLoaded → TellsOwn files file (render₁ t) (render₂ t) (render₃ t))
  (hfile : file.or files.head? = file)

include hr

theorem included {span : Option Span} (hspan : Fits files file span)
    (hplaced : ∀ s, span = some s → s.file = file) (loader : Loader) (name path : String) :
    TellsOwn files file (included render₁ span loader name path)
      (included render₂ span loader name path) (included render₃ span loader name path) := by
  refine (includedTemplate hspan hplaced loader name path).bind_of fun template s t _ hrun ht => ?_
  obtain ⟨kept, hkept, rfl⟩ := includedTemplate_cached hrun
  have hloaded : kept.numbered.IsLoaded := ⟨kept, ht.cache path kept hkept, rfl⟩
  exact ((enterPending hspan name).bind fun _ => (hr _ hloaded).capture (leavePending name)) t ht

include hfile

theorem includeTemplate {span : Option Span} (hspan : Fits files file span) (arguments : List Value) :
    TellsOwn files file (includeTemplate render₁ span arguments)
      (includeTemplate render₂ span arguments) (includeTemplate render₃ span arguments) := by
  refine of_context fun s hs => ?_
  -- what follows is reported in the located range, which belongs to the file
  have hplaced (located : Span) (hl : s.context.locate span = some located) : located.file = file :=
    hspan.locate hs hl
  have hlocated : Fits files file (s.context.locate span) := by
    intro located hl
    rw [hplaced located hl]
    exact hfile
  cases arguments with
  | nil => exact report hlocated _
  | cons nameValue arguments =>
    refine (includeName hlocated nameValue).bind fun name => TellsOwn.context.bind fun c => ?_
    cases c.loader with
    | none => exact report hlocated _
    | some loader =>
      refine (includePath hlocated hplaced loader name).bind fun path =>
        currentScope.bind fun scope => (computed _).bind fun list =>
          (assign argumentsName list hlocated).bind fun _ => ?_
      exact (included hr hlocated hplaced loader name path).ensuring (restoreArguments scope)

end Renders

/-! ### Calls -/

section Calls

variable {span : Option Span} (hspan : Fits files file span)

include hspan

/-- A call of a function of the host that sees its arguments alone. -/
theorem callPlain (label : String) (call : PlainCall Value) :
    TellsOwn files file (callPlain span label call.hushed) (callPlain span label call)
      (callPlain span label call) := by
  intro s hs
  unfold Eval.callPlain PlainCall.hushed
  cases call s.store with
  | ok v store => exact .ok ⟨hs.files, hs.cache⟩
  | error e store =>
    cases e with
    | reported e => exact report hspan _ _ ⟨hs.files, hs.cache⟩
    | passing x => exact .part ⟨hs.files, hs.cache⟩

/-- A method is no function of the host. -/
theorem callMethod (label : String) (c : Computation Value) :
    FailsAlone files file (Eval.callPlain span label (PlainCall.computed c)) := by
  intro s hs
  unfold Eval.callPlain PlainCall.computed
  cases c s.store with
  | ok v store => exact .ok ⟨hs.files, hs.cache⟩
  | error e store =>
    have hreport : Tells files file _ _ _ :=
      report (α := Value) hspan (.callFailed label e.message) { s with store } ⟨hs.files, hs.cache⟩
    cases e with
    | refused reason => exact .own (Failure.names_ofFault (.refused reason)) ⟨hs.files, hs.cache⟩
    | _ => exact hreport

omit hspan in
theorem callUnreported (call : PlainCall Value) :
    TellsOwn files file (callUnreported call.hushed) (callUnreported call) (callUnreported call) := by
  intro s hs
  unfold Eval.callUnreported PlainCall.hushed
  cases call s.store with
  | ok v store => exact .ok ⟨hs.files, hs.cache⟩
  | error e store =>
    cases e with
    | reported e => exact .own (Failure.names_of_place? rfl) ⟨hs.files, hs.cache⟩
    | passing x => exact .part ⟨hs.files, hs.cache⟩

omit hspan in
theorem callInvoked (host : Host) (f : Value) (arguments : List Value) :
    TellsOwn files file (callInvoked host.hushed span f arguments)
      (callInvoked host span f arguments) (callInvoked host span f arguments) := by
  refine TellsOwn.get.bind fun s => (computed _).bind fun list => ?_
  cases f with
  | function id f =>
    cases f with
    | plain name | object name => exact callUnreported _
    | «include» | contextual => exact failWith _
  | _ => exact failWith _

variable {host : Host} (hh : host.LeavesFiles)
  {render₁ render₂ render₃ : Template → Eval Unit}
  (hr : ∀ t : Template, t.IsLoaded → TellsOwn files file (render₁ t) (render₂ t) (render₃ t))
  (hfile : file.or files.head? = file)

include hh hr hfile

theorem call (callee : Value) (arguments : List Value) :
    TellsOwn files file (call host.hushed render₁ span callee arguments)
      (call host render₂ span callee arguments) (call host render₃ span callee arguments) := by
  cases callee with
  | function id f =>
    cases f with
    | «include» => exact (includeTemplate hr hfile hspan arguments).bind fun _ => computed _
    | contextual name => exact .part fun s hs => ⟨rfl, hh.executes hs name span arguments⟩
    | plain | object => exact callPlain hspan _ _
  | method receiver m => exact callMethod hspan _ _
  | _ =>
    simp only [Eval.call]
    split
    · exact callInvoked _ _ _
    · exact report hspan _

end Calls

/-! ### Expressions -/

theorem argument (index : Int) : FailsAlone files file (argument index) := by
  refine TellsOwn.get.bind fun s => ?_
  split
  · dsimp only
    split
    · exact .pure _
    · split
      · exact failWith _
      · split
        · exact .pure _
        · exact failWith _
  · exact .pure _

theorem argumentAt (index : Value) : FailsAlone files file (argumentAt index) := by
  refine TellsOwn.get.bind fun s => ?_
  split
  · exact argument _
  · dsimp only
    split
    · exact .pure _
    · exact failWith _
  · exact failWith _
  · exact .pure _

section Expressions

variable {span : Span} (hspan : Fits files file (some span))

include hspan

theorem item (object key : Value) : FailsAlone files file (item span object key) := by
  refine compute (fun e => ?_) _
  split
  · exact report hspan _
  · exact failWith _

theorem negate (v : Value) : FailsAlone files file (negate span v) := by
  refine compute (fun e => ?_) _
  split
  · exact report hspan _
  · exact failWith _

theorem arithmetic (op : Arithmetic) (left right : Value) :
    FailsAlone files file (arithmetic span op left right) := by
  refine compute (fun e => ?_) _
  split
  · exact report hspan _
  · exact report hspan _
  · exact report hspan _
  · exact failWith _

theorem comparison (op : Comparison) (left right : Value) :
    FailsAlone files file (comparison span op left right) := by
  refine compute (fun e => ?_) _
  split
  · exact report hspan _
  · exact failWith _

end Expressions

/-! ### Nodes -/

section Nodes

variable {path : Option String} {host : Host} (hh : host.LeavesFiles) {run₁ run₂ run₃ : Runner}
  (hn : ∀ n : Node, n.LiesIn path → TellsOwn files file (run₁.node n) (run₂.node n) (run₃.node n))
  (hpath : path.or files.head? = file)

include hn

theorem logic (op : Connective) {left right : Node} (hl : left.LiesIn path) (hr : right.LiesIn path) :
    TellsOwn files file (logic run₁ op left right) (logic run₂ op left right)
      (logic run₃ op left right) := by
  have hright := (hn right hr).bind fun r => (truthy r).bind fun b => TellsOwn.pure (Value.bool b)
  refine (hn left hl).bind fun l => (truthy l).bind fun b => ?_
  cases op <;> cases b
  · exact .pure _
  · exact hright
  · exact hright
  · exact .pure _

include hpath

theorem statements {nodes : List Node} (h : ∀ n ∈ nodes, n.LiesIn path) :
    TellsOwn files file (statements run₁ nodes) (statements run₂ nodes) (statements run₃ nodes) := by
  induction nodes with
  | nil => exact .pure _
  | cons node rest ih =>
    have hnode : node.LiesIn path := h node List.mem_cons_self
    cases rest with
    | nil => exact hn node hnode
    | cons next rest =>
      exact (hn node hnode).bind fun v => (writeResult (hnode.fits hpath) v).bind fun _ =>
        ih fun n hmem => h n (List.mem_cons_of_mem _ hmem)

theorem turn {span : Span} (hspan : Fits files file (some span)) (target : String) {body : Node}
    (hb : body.LiesIn path) (v : Value) :
    TellsOwn files file (turn run₁ span target body v) (turn run₂ span target body v)
      (turn run₃ span target body v) :=
  (assign target v hspan).bind fun _ => (hn body hb).bind fun w => writeResult (hb.fits hpath) w

theorem loopList {span : Span} (hspan : Fits files file (some span)) (target : String) {body : Node}
    (hb : body.LiesIn path) (id : ListId) (fuel index : Nat) :
    TellsOwn files file (loopList run₁ span target body id fuel index)
      (loopList run₂ span target body id fuel index) (loopList run₃ span target body id fuel index) := by
  induction fuel generalizing index with
  | zero => exact .throw (Failure.names_of_place? rfl)
  | succ fuel ih =>
    refine TellsOwn.get.bind fun s => ?_
    cases s.store.item? id index with
    | none => exact .pure _
    | some v => exact (turn hn hpath hspan target hb v).bind fun _ => ih (index + 1)

theorem loop (fuel : Nat) {span : Span} (hspan : Fits files file (some span)) (target : String)
    {source body : Node} (hs : source.LiesIn path) (hb : body.LiesIn path) :
    TellsOwn files file (loop run₁ fuel span target source body)
      (loop run₂ fuel span target source body) (loop run₃ fuel span target source body) := by
  refine (hn source hs).bind fun v => ?_
  cases v with
  | null => exact .pure _
  | list id => exact (loopList hn hpath hspan target hb id fuel 0).bind fun _ => .pure _
  | _ =>
    refine (computed _).bind fun items => ?_
    cases items with
    | none => exact report (hs.fits hpath) _
    | some items => exact (forM (turn hn hpath hspan target hb) items).bind fun _ => .pure _

variable (hr : ∀ t : Template, t.IsLoaded →
  TellsOwn files file (run₁.render t) (run₂.render t) (run₃.render t))

include hh hr

theorem callNode {span : Span} (hspan : Fits files file (some span)) {callee : Node}
    (hc : callee.LiesIn path) {arguments : List Node} (ha : ∀ n ∈ arguments, n.LiesIn path) :
    TellsOwn files file (callNode host.hushed run₁ span callee arguments)
      (callNode host run₂ span callee arguments) (callNode host run₃ span callee arguments) := by
  have hfile : file.or files.head? = file := by
    rw [← hpath, Option.or_assoc, Option.or_self]
  refine (hn callee hc).bind fun f => ?_
  have hcall := (mapM fun n hmem => hn n (ha n hmem)).bind fun values =>
    call hspan hh hr hfile f values
  cases f with
  | null =>
    cases callee with
    | name _ _ => exact report hspan _
    | _ => exact hcall
  | _ => exact hcall

/-- A step goes as it does where its parts do: the nodes below, whose ranges lie in the file of the
node, and the templates that it includes. What it fails with by itself names a file. -/
theorem step (fuel : Nat) {node : Node} (h : node.LiesIn path) :
    TellsOwn files file (step host.hushed run₁ fuel node) (step host run₂ fuel node)
      (step host run₃ fuel node) := by
  cases node with
  | absent | text | const => exact .pure _
  | argument span index => exact argument index
  | argumentAt span index => exact argumentAt index
  | foreign span typeName => exact failWith _
  | page span body front => exact hn body (h.child (.head _))
  | block span body => exact statements hn hpath fun n hmem => h.child hmem
  | expression span value => exact hn value (h.child (.head _))
  | assign span target value =>
    exact (hn value (h.child (.head _))).bind fun v =>
      (assign target v (h.fits hpath)).bind fun _ => .pure _
  | branch span test body otherwise =>
    refine (hn test (h.child (.head _))).bind fun v => (truthy v).bind fun b => ?_
    cases b
    · exact hn otherwise (h.child (.tail _ (.tail _ (.head _))))
    · exact hn body (h.child (.tail _ (.head _)))
  | loop span target source body =>
    exact loop hn hpath fuel (h.fits hpath) target (h.child (.head _)) (h.child (.tail _ (.head _)))
  | name span name =>
    simp only [Eval.step]
    split
    · exact TellsOwn.context.bind fun _ => .pure _
    · exact lookUp name (h.fits hpath)
  | list span items =>
    exact (mapM fun n hmem => hn n (h.child hmem)).bind fun _ => computed _
  | member span object name => exact (hn object (h.child (.head _))).bind fun _ => computed _
  | item span object key =>
    exact (hn object (h.child (.head _))).bind fun _ =>
      (hn key (h.child (.tail _ (.head _)))).bind fun _ => item (h.fits hpath) _ _
  | call span callee arguments =>
    exact callNode hh hn hpath hr (h.fits hpath) (h.child (.head _)) fun n hmem =>
      h.child (.tail _ hmem)
  | unary span op operand =>
    refine (hn operand (h.child (.head _))).bind fun v => ?_
    cases op with
    | not => exact (truthy v).bind fun _ => .pure _
    | negate => exact negate (h.fits hpath) v
  | arithmetic span op left right =>
    exact (hn left (h.child (.head _))).bind fun _ =>
      (hn right (h.child (.tail _ (.head _)))).bind fun _ => arithmetic (h.fits hpath) op _ _
  | compare span op left right =>
    exact (hn left (h.child (.head _))).bind fun _ =>
      (hn right (h.child (.tail _ (.head _)))).bind fun _ => comparison (h.fits hpath) op _ _
  | logic span op left right =>
    exact logic hn op (h.child (.head _)) (h.child (.tail _ (.head _)))
  | custom span writes value => exact (write (h.fits hpath) writes).bind fun _ => .pure _
  | unknownOperator span symbol left right =>
    exact (hn left (h.child (.head _))).bind fun _ =>
      (hn right (h.child (.tail _ (.head _)))).bind fun _ => failWith _

end Nodes

/-! ### Templates -/

theorem checkErrors (t : Template) : FailsAlone files file (checkErrors t) := by
  unfold Eval.checkErrors
  split
  · exact .throw (Failure.names_of_place? rfl)
  · exact .pure _

/-- What runs inside a file, if one is given: inside, that file is on top. -/
theorem within {path : Option String} {e₁ e₂ e₃ : Eval Value}
    (h : TellsOwn (path.toList ++ files) file e₁ e₂ e₃) :
    TellsOwn files file (within path e₁) (within path e₂) (within path e₃) := by
  cases path with
  | none => exact h
  | some path =>
    intro s hs
    have hinside : (s.inFiles (path :: files)).Executes (path :: files) := ⟨rfl, hs.cache⟩
    have hpop {u : State} (hu : u.Executes (path :: files)) :
        (do let _ ← popSourceFile : Eval Unit) u = .ok () (u.inFiles files) :=
      bind_of_ok (popSourceFile_run hu.files)
    have hrun (e : Eval Value) : Eval.within (some path) e s =
        Eval.ensuring e (do let _ ← popSourceFile) (s.inFiles (path :: files)) := by
      rw [← hs.files]
      exact bind_of_ok (pushSourceFile_run path s)
    rw [hrun, hrun, hrun]
    unfold Eval.ensuring
    generalize e₁ (s.inFiles (path :: files)) = r₁, e₂ (s.inFiles (path :: files)) = r₂,
      e₃ (s.inFiles (path :: files)) = r₃, h _ hinside = ht
    cases ht with
    | ok hu | own hx hu | part hu =>
      simp only [hpop hu]
      have hout : State.Executes files (State.inFiles _ files) := ⟨rfl, hu.cache⟩
      first | exact .ok hout | exact .own hx hout | exact .part hout

theorem silently {e₁ e₂ e₃ : Eval α} (h : TellsOwn files file e₁ e₂ e₃) :
    TellsOwn files file (silently e₁) (silently e₂) (silently e₃) :=
  TellsOwn.context.bind fun _ => .bind (changeContext fun _ => rfl) fun _ =>
    h.ensuring (changeContext fun _ => rfl)

section Templates

variable {t : Template} {node₁ node₂ node₃ : Node → Eval Value}
  (hn : ∀ n : Node, n.LiesIn t.path →
    TellsOwn (t.path.toList ++ files) file (node₁ n) (node₂ n) (node₃ n))
  (ht : t.hasErrors = false → ∀ page, t.page = some page → page.node.LiesIn t.path)

include hn ht

theorem runPage (he : t.hasErrors = false) :
    TellsOwn files file (runPage node₁ t) (runPage node₂ t) (runPage node₃ t) := by
  unfold Eval.runPage
  cases hp : t.page with
  | none => exact .pure _
  | some page => exact within (hn page.node (ht he page hp))

/-- What a page comes to is written behind it, when its file was left. -/
theorem renderWith (hpath : t.path.or files.head? = file) :
    TellsOwn files file (renderWith node₁ t) (renderWith node₂ t) (renderWith node₃ t) := by
  refine (checkErrors t).bind_of fun _ s u _ hrun hu => ?_
  have he := hasErrors_of_checkErrors hrun
  refine ((runPage hn ht he).bind fun v => ?_) u hu
  unfold writePage
  cases hp : t.page with
  | none => exact .pure _
  | some page => exact writeResult ((ht he page hp).fits hpath) v

theorem runWith (hpath : t.path.or files.head? = file) (way : TemplateRun) :
    TellsOwn files file (way.runWith node₁ t) (way.runWith node₂ t) (way.runWith node₃ t) := by
  cases way with
  | render => exact (renderWith hn ht hpath).bind fun _ => .pure _
  | evaluate =>
    exact (checkErrors t).bind_of fun _ _ u _ hrun hu =>
      silently (runPage hn ht (hasErrors_of_checkErrors hrun)) u hu
  | frontMatter =>
    refine (checkErrors t).bind_of fun _ s u _ hrun hu => ?_
    have he := hasErrors_of_checkErrors hrun
    cases hf : t.frontMatter? with
    | none => exact .ok hu
    | some front =>
      obtain ⟨page, hp, hmem⟩ := Template.frontMatter?_child hf
      exact silently (within (hn front ((ht he page hp).child hmem))) u hu

end Templates

end TellsOwn

end Eval

end Stencil

import Stencil.Proofs.Balance

/-!
# Finding the template of an include

An include first finds its template: it asks the loader for the path of a name, binds
the arguments in the current scope, and takes the template from the cache or reads it.
`findIncluded` is that part of an include. `findIncluded_ok` says what it leaves behind,
and what the include goes on to do: the name is marked as pending, or refused, and the
template is rendered. A loader that does not answer fails with a fault, or at the place
that it is asked from (`Answers.resolve`, `Answers.load`).
-/

namespace Stencil

/-! ## How loaders fail -/

/-- The failures of a loader that is asked from a place. -/
inductive Failure.OfLoader (span : Option Span) : Failure → Prop
  | fault (e : Fault) : Failure.OfLoader span (.fault e)
  | notFound (reason : NotFound) : Failure.OfLoader span (.script ⟨.notFound reason, span⟩)

/-- A question that is asked from a place fails with a fault, or because a template was not found,
at that place. -/
abbrev Answers {α : Type} (span : Option Span) (question : Lookup α) : Prop :=
  FailsOnly (Failure.OfLoader span) question

namespace Answers

variable {α : Type} {span : Option Span}

theorem get {k : Library → Lookup α} (h : ∀ l, Answers span (k l)) : Answers span (do k (← get)) :=
  FailsOnly.bind .get h

theorem notFound (reason : NotFound) : Answers span (Lookup.notFound reason span : Lookup α) :=
  .throw (.notFound reason)

theorem cell (i : Nat) : Answers span (Lookup.cell i) := get fun _ => .pure _

theorem modify (f : Library → Library) : Answers span (modify f : Lookup Unit) := FailsOnly.modify f

mutual

theorem resolve (name : String) :
    ∀ loader : Loader, Answers span (loader.resolve span name)
  | .mapping i => by
    unfold Loader.resolve
    refine (cell i).bind fun c => ?_
    dsimp only
    split
    · exact .pure _
    · exact notFound _
  | .function _ => .pure _
  | .recording i => by
    unfold Loader.resolve
    exact FailsOnly.bind (modify _) fun _ => (cell i).bind fun _ => .pure _
  | .files roots _ => by
    unfold Loader.resolve
    have hfind : Answers span (do
        match findFile (← MonadState.get).tree name roots with
        | .error e => throw (.fault e)
        | .ok (some p) => return some p.text
        | .ok none => Lookup.notFound (.directories name (roots.map FilePath.text)) span) := by
      refine get fun l => ?_
      split
      · exact .throw (.fault _)
      · exact .pure _
      · exact notFound _
    split
    · exact .throw (.fault _)
    · exact hfind
  | .choice i members => by
    unfold Loader.resolve
    refine (resolveFirst name 0 members).bind fun found => ?_
    cases found with
    | none => exact notFound _
    | some found => exact FailsOnly.bind (modify _) fun _ => .pure _

theorem resolveFirst (name : String) :
    ∀ (n : Nat) (members : List Loader), Answers span (Loader.resolveFirst span name n members)
  | _, [] => .pure _
  | n, loader :: rest => by
    intro l x l' h
    have hrest := resolveFirst name (n + 1) rest
    simp only [Loader.resolveFirst] at h
    cases hl : loader.resolve span name l with
    | ok path m =>
      rw [hl] at h
      cases path with
      | none => exact hrest m x l' h
      | some path =>
        dsimp only at h
        split at h
        · exact hrest m x l' h
        · cases h
    | error y m =>
      rw [hl] at h
      dsimp only at h
      split at h
      · exact hrest m x l' h
      · cases h
        exact resolve name loader l _ _ hl

end

mutual

theorem load (path : String) :
    ∀ loader : Loader, Answers span (loader.load span path)
  | .mapping i => (cell i).bind fun _ => .pure _
  | .function i => (cell i).bind fun _ => .pure _
  | .recording i => FailsOnly.bind (modify _) fun _ => (cell i).bind fun _ => .pure _
  | .files _ encoding => by
    unfold Loader.load
    refine get fun l => ?_
    split
    · exact .pure _
    · exact .throw (.fault _)
  | .choice i members => by
    unfold Loader.load
    refine (cell i).bind fun c => ?_
    split
    · exact loadAt path _ members
    · exact loadFirst path members

theorem loadAt (path : String) :
    ∀ (n : Nat) (members : List Loader), Answers span (Loader.loadAt span path n members)
  | _, [] => .pure _
  | 0, loader :: _ => load path loader
  | n + 1, _ :: rest => loadAt path n rest

theorem loadFirst (path : String) :
    ∀ members : List Loader, Answers span (Loader.loadFirst span path members)
  | [] => .pure _
  | loader :: rest => (load path loader).bind fun text => by
    cases text with
    | none => exact loadFirst path rest
    | some text => exact .pure _

end

end Answers

namespace Eval

/-! ## Names and paths -/

/-- The name that an include with these arguments asks for. -/
def nameAmong (s : State) : List Value → String
  | [] => ""
  | v :: _ =>
    match s.store.display v with
    | .ok text => Text.strip text
    | .error _ => ""

theorem includeName_run (span : Option Span) (v : Value) (s : State) :
    includeName span v s = match s.store.display v with
      | .ok text =>
        if Text.strip text = "" then report .emptyName span s else .ok (Text.strip text) s
      | .error e => report (.cannotConvertName v.typeName e.message) span s := by
  simp only [includeName, bind_run, compute_run, Computation.display, Computation.read]
  cases s.store.display v with
  | ok text =>
    dsimp only
    split <;> rfl
  | error e => rfl

theorem includeName_ok {span : Option Span} {v : Value} {name : String} {s t : State}
    (h : includeName span v s = .ok name t) (rest : List Value) :
    nameAmong s (v :: rest) = name ∧ t = s := by
  rw [includeName_run] at h
  cases hd : s.store.display v with
  | error e =>
    rw [hd] at h
    cases h
  | ok text =>
    rw [hd] at h
    dsimp only at h
    split at h
    · cases h
    · cases h
      exact ⟨by simp only [nameAmong, hd], rfl⟩

/-- A name with a path is one that the loader finds; the path is what it finds, without blank ends. -/
theorem includePath_ok {span : Option Span} {loader : Loader} {name path : String} {s t : State}
    (h : includePath span loader name s = .ok path t) :
    ∃ raw l, loader.resolve span name s.library = .ok (some raw) l ∧ path = Text.strip raw ∧
      path ≠ "" := by
  unfold includePath at h
  obtain ⟨answer, u, hask, h⟩ := bind_ok h
  cases hr : loader.resolve span name s.library with
  | error x l =>
    simp only [ask, hr, reduceCtorEq] at hask
  | ok found l =>
    simp only [ask, hr, EStateM.Result.ok.injEq] at hask
    obtain ⟨rfl, -⟩ := hask
    cases found with
    | none => cases h
    | some raw =>
      simp only [Option.map_some] at h
      split at h
      · cases h
      · next hne =>
        cases h
        exact ⟨raw, l, rfl, rfl, hne⟩

/-! ## Templates -/

/-- Loading templates leaves the context. -/
theorem loading_context : Loading fun s t : State => t.context = s.context where
  refl _ := rfl
  trans h k := k.trans h
  store _ _ := rfl
  ask question s := by rw [after_ask]
  keep _ _ _ := rfl

theorem context_of_ok {α : Type} {e : Eval α} (h : Moves (fun s t : State => t.context = s.context) e)
    {s t : State} {a : α} (he : e s = .ok a t) : t.context = s.context := by
  have hs := h s
  rwa [after_of_ok he] at hs

/-- Loading a template leaves the lists. -/
theorem includedTemplate_lists {span : Option Span} {loader : Loader} {name path : String}
    {s u : State} {t : Template} (h : includedTemplate span loader name path s = .ok t u) :
    u.store.lists = s.store.lists := by
  simp only [includedTemplate, bind_run, get_run] at h
  cases hk : s.cache.get? path with
  | some kept =>
    rw [hk] at h
    cases h
    rfl
  | none =>
    rw [hk] at h
    obtain ⟨_, v, _, hask, -, -, -, rfl⟩ := readIncluded_ok h
    have hv : v.store = s.store := by
      rw [← after_of_ok hask, after_ask]
    exact (congrArg Store.lists hv : v.store.lists = s.store.lists)

/-- Finds the template that an include asks for: the name is resolved, the template is
loaded, and the arguments are bound in the current scope. -/
def findIncluded (span : Option Span) (arguments : List Value) : Eval Template := do
  let span := (← context).locate span
  match arguments with
  | [] => report .includeArity span
  | nameValue :: arguments =>
    let name ← includeName span nameValue
    match (← context).loader with
    | none => report (.noLoader name) span
    | some loader =>
      let path ← includePath span loader name
      let _ ← currentScope
      let list ← computed (Computation.newList arguments)
      assign argumentsName list span
      includedTemplate span loader name path

end Eval

/-- Where a range is reported: in its file, else in the one that is being executed. -/
theorem Context.locate_some (c : Context) (span : Span) :
    c.locate (some span) = some (span.inFile (span.file.or c.sourceFile?)) := by
  obtain ⟨file, start, stop⟩ := span
  cases file with
  | some file => rfl
  | none => cases h : c.sourceFile? <;> simp only [locate, h] <;> rfl

/-- A range that was located stays where it is. -/
theorem Context.locate_locate (c : Context) (span : Option Span) :
    c.locate (c.locate span) = c.locate span := by
  cases span with
  | none => rfl
  | some span =>
    rw [locate_some, locate_some]
    show some (span.inFile ((span.file.or c.sourceFile?).or c.sourceFile?)) = _
    rw [Option.or_assoc, Option.or_self]

/-- `t` is `s` with the arguments of an include bound in the current scope. -/
def State.Binds (arguments : List Value) (s t : State) : Prop :=
  ∃ scope below list, s.context.scopes = scope :: below ∧
    t.store.contents list = arguments.tail ∧
    t.context = { s.context with
      scopes := { scope with bindings := scope.bindings.set argumentsName (.list list) } :: below }

namespace Eval

/-- What an include does whose template was found. -/
theorem findIncluded_ok {span : Option Span} {arguments : List Value} {s u : State} {t : Template}
    (h : findIncluded span arguments s = .ok t u) :
    s.Binds arguments u ∧ ∃ scope below, s.context.scopes = scope :: below ∧
      ∀ render, includeTemplate render span arguments s =
        ensuring (do
          enterPending (s.context.locate span) (nameAmong s arguments)
          capture (render t) (leavePending (nameAmong s arguments)))
          (restoreArguments scope) u := by
  cases arguments with
  | nil =>
    unfold findIncluded at h
    rw [bind_of_ok (context_run s)] at h
    cases h
  | cons nameValue arguments =>
    unfold findIncluded at h
    rw [bind_of_ok (context_run s)] at h
    obtain ⟨name, s₂, hname, h⟩ := bind_ok h
    rw [bind_of_ok (context_run s₂)] at h
    cases hl : s₂.context.loader with
    | none =>
      rw [hl] at h
      cases h
    | some loader =>
      rw [hl] at h
      obtain ⟨path, s₃, hpath, h⟩ := bind_ok h
      have h₃ := context_of_ok (loading_context.includePath _ _ _) hpath
      cases hs : s₃.context.scopes with
      | nil =>
        rw [bind_of_error (currentScope_run_nil hs)] at h
        cases h
      | cons scope below =>
        have hscope := currentScope_run hs
        have hlist := newList_run arguments s₃
        have hassign := assign_run (s := { s₃ with store := (s₃.store.newList arguments).2 }) hs
          argumentsName (.list (s₃.store.newList arguments).1) (s.context.locate span)
        rw [bind_of_ok hscope, bind_of_ok hlist, bind_of_ok hassign] at h
        have hfetch : includedTemplate (s.context.locate span) loader name path _ = .ok t u := h
        have h₅ := context_of_ok (loading_context.includedTemplate _ _ _ _) hfetch
        obtain ⟨rfl, rfl⟩ := includeName_ok hname arguments
        have hscopes := h₃ ▸ hs
        have hcontents : u.store.contents (s₃.store.newList arguments).1 = arguments := by
          rw [Store.contents, includedTemplate_lists hfetch]
          exact Store.contents_newList _ arguments
        refine ⟨⟨scope, below, _, hscopes, hcontents, ?_⟩, scope, below, hscopes, fun render => ?_⟩
        · simp only [h₅, h₃]
        · unfold includeTemplate
          rw [bind_of_ok (context_run _)]
          dsimp only
          rw [bind_of_ok hname, bind_of_ok (context_run _), hl]
          dsimp only
          rw [bind_of_ok hpath, bind_of_ok hscope, bind_of_ok hlist, bind_of_ok hassign]
          simp only [ensuring, bind_of_ok hfetch]

end Eval

end Stencil

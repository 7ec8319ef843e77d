import Stencil.Proofs.Twins

/-!
# The recursion guard

The names that are pending are those of the includes whose templates are being
rendered. To say so at every point of a run, `watch` evaluates with a ghost: a list of
names that grows where the template of an include is rendered, and nowhere else. Before
and after every node, and around every included template, it tests the state against
the ghost and gives an alarm if the test fails. `recursion_guard` says that there is no
alarm: whatever the alarm is, the watched run comes to what the run comes to. It also
says which includes are refused, and how deep includes can be nested.
-/

namespace Stencil

/-! ## Watched runs -/

/-- The pending names are these, the innermost include first, and no name occurs twice. -/
structure State.Tracks (names : List String) (s : State) : Prop where
  pending : s.context.pending.getD [] = names
  nodup : names.Nodup

instance (names : List String) (s : State) : Decidable (s.Tracks names) :=
  decidable_of_iff (s.context.pending.getD [] = names ∧ names.Nodup)
    ⟨fun h => ⟨h.1, h.2⟩, fun h => ⟨h.pending, h.nodup⟩⟩

namespace Eval

variable {α : Type}

/-- An evaluation with a test of the state in front of it and behind it, on whatever exit.
A test that fails gives an alarm. -/
def guarded (alarm : Failure) (test : State → Bool) (body : Eval α) : Eval α := fun s =>
  if test s then
    match body s with
    | .ok a t => if test t then .ok a t else .error alarm t
    | .error x t => if test t then .error x t else .error alarm t
  else .error alarm s

/-- A test that holds in front and behind gives no alarm. -/
theorem guarded_run {test : State → Bool} {body : Eval α} {s : State} (h : test s = true)
    (h' : test (after body s) = true) (alarm : Failure) : guarded alarm test body s = body s := by
  unfold guarded
  rw [if_pos h]
  cases hb : body s with
  | ok a t =>
    rw [after_of_ok hb] at h'
    exact if_pos h'
  | error x t =>
    rw [after_of_error hb] at h'
    exact if_pos h'

/-- Evaluates a node with a ghost of the includes around it. The template of an include is
evaluated with the ghost that the call enters. -/
def follow {γ : Type} (enter : Option Span → List Value → State → γ → γ) (alarm : Failure)
    (test : γ → State → Bool) (host : Host) : Nat → γ → Node → Eval Value
  | 0, _, _ => throw .exhausted
  | fuel + 1, ghost, node =>
    let render (ghost : γ) (t : Template) : Eval Unit :=
      guarded alarm (test ghost) (renderWith (follow enter alarm test host fuel ghost) t)
    let includes (span : Option Span) (arguments : List Value) : Eval Sink := fun s =>
      includeTemplate (render (enter span arguments s ghost)) span arguments s
    guarded alarm (test ghost)
      (stepWith includes host ⟨follow enter alarm test host fuel ghost, render ghost⟩ fuel node)

/-- Evaluates a node, given the names of the includes around it. The template of an include
is evaluated with one name more: the one that the include asks for. -/
def watch (alarm : Failure) (test : List String → State → Bool) (host : Host) :
    Nat → List String → Node → Eval Value
  | 0, _, _ => throw .exhausted
  | fuel + 1, names, node =>
    let render (names : List String) (t : Template) : Eval Unit :=
      guarded alarm (test names) (renderWith (watch alarm test host fuel names) t)
    let includes (span : Option Span) (arguments : List Value) : Eval Sink := fun s =>
      includeTemplate (render (nameAmong s arguments :: names)) span arguments s
    guarded alarm (test names)
      (stepWith includes host ⟨watch alarm test host fuel names, render names⟩ fuel node)

/-- To watch is to follow the names that includes ask for. -/
theorem watch_eq_follow (alarm : Failure) (test : List String → State → Bool) (host : Host) (fuel : Nat) :
    watch alarm test host fuel =
      follow (fun _ arguments s names => nameAmong s arguments :: names) alarm test host fuel := by
  induction fuel with
  | zero => rfl
  | succ fuel ih =>
    funext names node
    rw [watch, follow, ih]

end Eval

/-! ## Hosts and loaders -/

/-- The functions of a host leave the pending names, and no sink that they did not open is
missing behind them. -/
def Host.KeepsPending (host : Host) : Prop :=
  ∀ name span arguments, Moves (fun s t : State =>
    t.context.pending.getD [] = s.context.pending.getD [] ∧
      s.context.sinksBelow.length ≤ t.context.sinksBelow.length)
    (host.contextual name span arguments)

/-- The functions of a host leave the loader and what it answers from. -/
def Host.KeepsLoader (host : Host) : Prop :=
  ∀ name span arguments, Moves (fun s t : State =>
    t.context.loader = s.context.loader ∧ t.library = s.library) (host.contextual name span arguments)

/-- What holds of the loader and of what it answers from, holds behind functions that leave
both. -/
theorem Host.KeepsLoader.keeps {host : Host} (h : host.KeepsLoader)
    {Q : Option Loader → Library → Prop} (name : String) (span : Option Span)
    (arguments : List Value) (s : State) (hs : Q s.context.loader s.library) :
    Q (after (host.contextual name span arguments) s).context.loader
      (after (host.contextual name span arguments) s).library := by
  obtain ⟨hl, hlib⟩ := h name span arguments s
  rwa [hl, hlib]

/-- As long as the library is good, which questions do not change, a loader finds paths for
no names but these. -/
structure Loader.FindsOnly (loader : Loader) (good : Library → Prop) (names : List String) : Prop where
  resolve {l : Library} : good l → ∀ span name, good (after (loader.resolve span name) l)
  load {l : Library} : good l → ∀ span path, good (after (loader.load span path) l)
  found {l l' : Library} {span : Option Span} {name path : String} : good l →
    loader.resolve span name l = .ok (some path) l' → Text.strip path ≠ "" → name ∈ names

/-- A mapping finds its own names. -/
theorem Loader.mapping_findsOnly (i : Nat) (names : List String) :
    (Loader.mapping i).FindsOnly (fun l => (l.cell i).texts.names = names) names where
  resolve {l} hl span name := by
    have hl' : after ((Loader.mapping i).resolve span name) l = l := by
      by_cases hn : (l.cell i).texts.names.contains name = true
      · simp only [after, resolve, Lookup.cell, bind_run, get_run, pure_run, hn, if_true]
      · simp only [after, resolve, Lookup.cell, bind_run, get_run, pure_run, hn, Bool.false_eq_true,
          if_false, Lookup.notFound, throw_run]
    rwa [hl']
  load hl _ _ := hl
  found {l l' span name path} hl h _ := by
    subst hl
    simp only [resolve, Lookup.cell, bind_run, get_run, pure_run] at h
    split at h
    · next hn => exact List.contains_iff_mem.mp hn
    · cases h

/-- What is known of the loader and the library at every point of a run, and of the names
that are found then. -/
structure Finding (Q : Option Loader → Library → Prop) (known : String → Prop) : Prop where
  resolve {loader : Loader} {l : Library} : Q (some loader) l → ∀ span name c l,
    Q c l → Q c (after (loader.resolve span name) l)
  load {loader : Loader} {l : Library} : Q (some loader) l → ∀ span path c l,
    Q c l → Q c (after (loader.load span path) l)
  found {loader : Loader} {l l' : Library} {span : Option Span} {name path : String} :
    Q (some loader) l → loader.resolve span name l = .ok (some path) l' →
    Text.strip path ≠ "" → known name

theorem finding_any : Finding (fun _ _ => True) fun _ => True := by
  constructor <;> intros <;> trivial

/-- What questions to a loader do not change is known of it as long as it is the loader. -/
theorem Loader.finding {loader : Loader} {good : Library → Prop} {known : String → Prop}
    (hresolve : ∀ {l}, good l → ∀ span name, good (after (loader.resolve span name) l))
    (hload : ∀ {l}, good l → ∀ span path, good (after (loader.load span path) l))
    (hfound : ∀ {l l' span name path}, good l → loader.resolve span name l = .ok (some path) l' →
      Text.strip path ≠ "" → known name) :
    Finding (fun c l => c = some loader ∧ good l) known where
  resolve hq span name _ _ hc := by
    obtain ⟨hl, -⟩ := hq
    cases hl
    exact ⟨hc.1, hresolve hc.2 span name⟩
  load hq span path _ _ hc := by
    obtain ⟨hl, -⟩ := hq
    cases hl
    exact ⟨hc.1, hload hc.2 span path⟩
  found hq hr hne := by
    obtain ⟨hl, hg⟩ := hq
    cases hl
    exact hfound hg hr hne

theorem Loader.FindsOnly.finding {loader : Loader} {good : Library → Prop} {names : List String}
    (h : loader.FindsOnly good names) :
    Finding (fun c l => c = some loader ∧ good l) (· ∈ names) :=
  Loader.finding h.resolve h.load h.found

/-! ## The invariant -/

/-- What holds of the state while the templates of some includes are being rendered: the
pending names are theirs, they are known, and each of them has a sink. -/
structure State.Inside (Q : Option Loader → Library → Prop) (known : String → Prop)
    (names : List String) (depth : Nat) (s : State) : Prop extends s.Tracks names where
  known : ∀ name ∈ names, known name
  depth : depth ≤ s.context.sinksBelow.length
  loader : Q s.context.loader s.library

namespace State.Inside

variable {Q : Option Loader → Library → Prop} {known : String → Prop} {names : List String}
  {name : String} {depth : Nat} {s : State}

/-- A known name that is not pending is entered, with a sink of its own. -/
theorem entered (h : s.Inside Q known names depth) (hname : known name)
    (hp : name ∉ s.context.pending.getD []) :
    State.Inside Q known (name :: names) (depth + 1) { s with context := { s.context with
      pending := some (name :: s.context.pending.getD [])
      sink := {}, sinksBelow := s.context.sink :: s.context.sinksBelow } } where
  pending := congrArg (name :: ·) h.pending
  nodup := List.nodup_cons.mpr ⟨h.pending ▸ hp, h.nodup⟩
  known := List.forall_mem_cons.mpr ⟨hname, h.known⟩
  depth := Nat.succ_le_succ h.depth
  loader := h.loader

/-- The name that was entered last is left; the others stay pending. -/
theorem left (h : s.Inside Q known (name :: names) depth) :
    (after (Eval.leavePending name) s).Inside Q known names depth where
  pending := by
    show (s.context.pending.map (·.filter (· != name))).getD [] = names
    have hpending := h.pending
    cases hc : s.context.pending with
    | none =>
      rw [hc] at hpending
      cases hpending
    | some pending =>
      rw [hc] at hpending
      obtain rfl : pending = name :: names := hpending
      have hne (n : String) (hn : n ∈ names) : (n != name) = true :=
        bne_iff_ne.mpr fun e => (List.nodup_cons.mp h.nodup).1 (e ▸ hn)
      simpa using hne
  nodup := (List.nodup_cons.mp h.nodup).2
  known := (List.forall_mem_cons.mp h.known).2
  depth := h.depth
  loader := h.loader

end State.Inside

/-- The same state, with something that holds of it. -/
def Along (I : State → Prop) (s t : State) : Prop := s = t ∧ I s

namespace Eval

theorem Matches.along {α : Type} {placed : Prop} {I : State → Prop} {e : Eval α}
    (h : ∀ s, I s → I (after e s)) : Matches placed (Along I) e e := by
  rintro s _ ⟨rfl, hs⟩
  have ht := h s hs
  cases he : e s with
  | ok a t =>
    rw [after_of_ok he] at ht
    exact .ok ⟨rfl, ht⟩
  | error x t =>
    rw [after_of_error he] at ht
    exact .fail x ⟨rfl, ht⟩

/-- A test that holds along a run gives no alarm. -/
theorem Matches.guarded {α : Type} {placed : Prop} {I : State → Prop} {e f : Eval α}
    {test : State → Bool} (ht : ∀ s, I s → test s = true) (h : Matches placed (Along I) e f)
    (alarm : Failure) : Matches placed (Along I) (guarded alarm test e) f := by
  rintro s t hs
  simp only [Eval.guarded, ht s hs.2, if_true]
  obtain ⟨a, u, v, he, hf, hu⟩ | ⟨x, y, u, v, he, hf, hx, hu⟩ := (h s t hs).cases_at
  · simp only [he, hf, ht u hu.2, if_true]
    exact .ok hu
  · simp only [he, hf, ht u hu.2, if_true]
    exact .error hx hu

end Eval

open Eval

/-- Rendering the template of an include, for an include that asks for a known name: inside
there is one name more, and behind it the names are those around it. -/
theorem matches_included {Q : Option Loader → Library → Prop} {known : String → Prop}
    {names : List String} {name : String} (hname : known name)
    {body body' : Eval Unit}
    (h : ∀ depth, Matches True (Along (State.Inside Q known (name :: names) depth)) body body')
    (depth : Nat) (span : Option Span) :
    Matches True (Along (State.Inside Q known names depth))
      (do
        enterPending span name
        capture body (leavePending name))
      (do
        enterPending span name
        capture body' (leavePending name)) := by
  rintro s _ ⟨rfl, hs⟩
  by_cases hp : name ∈ s.context.pending.getD []
  · have he := bind_of_error (f := fun _ => capture body (leavePending name))
      (enterPending_run_pending hp span)
    have he' := bind_of_error (f := fun _ => capture body' (leavePending name))
      (enterPending_run_pending hp span)
    rw [he, he']
    exact .fail _ ⟨rfl, { hs with }⟩
  · have he := bind_of_ok (f := fun _ => capture body (leavePending name)) (enterPending_run hp span)
    have he' := bind_of_ok (f := fun _ => capture body' (leavePending name)) (enterPending_run hp span)
    rw [he, he']
    refine Alike.capture (Q := Along (State.Inside Q known (name :: names) depth))
      (h (depth + 1) _ _ ⟨rfl, hs.entered hname hp⟩) ?_ ?_
    · rintro u _ ⟨rfl, hu⟩
      have hd := hu.depth
      cases hb : u.context.sinksBelow with
      | nil =>
        rw [hb] at hd
        cases hd
      | cons sink below =>
        rw [hb] at hd
        exact .inl ⟨_, _, _, popSink_run hb, popSink_run hb, rfl,
          { hu with depth := Nat.le_of_succ_le_succ hd }⟩
    · rintro u _ ⟨rfl, hu⟩
      exact .ok ⟨rfl, hu.left⟩

section Inside

variable {host : Host} {Q : Option Loader → Library → Prop} {known : String → Prop}
  (hpending : host.KeepsPending)
  (hhost : ∀ name span arguments s, Q s.context.loader s.library →
    Q (after (host.contextual name span arguments) s).context.loader
      (after (host.contextual name span arguments) s).library)

include hpending hhost

theorem simulation_inside (names : List String) (depth : Nat) :
    Simulation True host (Along (State.Inside Q known names depth)) where
  store_eq h := congrArg State.store h.1.symm
  context_eq h := by
    rw [h.1]
    rfl
  setStore := by
    rintro s _ ⟨rfl, h⟩ store
    exact ⟨rfl, { h with }⟩
  setScopes := by
    rintro s _ ⟨rfl, h⟩ scopes
    exact ⟨rfl, { h with }⟩
  setFiles := by
    rintro s _ ⟨rfl, h⟩ files
    exact ⟨rfl, { h with }⟩
  setEnabled := by
    rintro s _ ⟨rfl, h⟩ enabled
    exact ⟨rfl, { h with }⟩
  wrote := by
    rintro s _ v text ⟨rfl, h⟩ -
    exact ⟨rfl, { h with }⟩
  contextual name span span' hp arguments := by
    rw [hp trivial]
    refine .along fun s h => ?_
    obtain ⟨hnames, hsinks⟩ := hpending name span' arguments s
    exact ⟨⟨hnames.trans h.pending, h.nodup⟩, h.known, h.depth.trans hsinks,
      hhost name span' arguments s h.loader⟩
  invoked := by
    rintro s _ ⟨rfl, h⟩ span span' hp name list
    rw [hp trivial]

/-- A followed evaluation comes to what the evaluation comes to, by induction on the steps:
where a test is made, the state is inside the includes whose names the ghost has, and of the ghost
holds what calls keep that find their path. -/
theorem matches_follow {γ : Type} (F : Finding Q known)
    {enter : Option Span → List Value → State → γ → γ} {namesOf : γ → List String} {K : γ → Prop}
    (henter : ∀ {ghost : γ} {loader : Loader} {span : Option Span} {arguments : List Value}
      {path : String} {s u : State}, K ghost → Q (some loader) s.library →
      s.context.loader = some loader →
      includePath (s.context.locate span) loader (nameAmong s arguments) s = .ok path u →
      namesOf (enter span arguments s ghost) = nameAmong s arguments :: namesOf ghost ∧
        K (enter span arguments s ghost))
    {test : γ → State → Bool}
    (htest : ∀ ghost s, K ghost → s.Tracks (namesOf ghost) → test ghost s = true)
    (alarm : Failure) (fuel : Nat) : ∀ ghost depth, K ghost → ∀ {node node' : Node},
      node.Like True node' →
      Matches True (Along (State.Inside Q known (namesOf ghost) depth))
        (follow enter alarm test host fuel ghost node) (evaluate host fuel node') := by
  have hguarded {β : Type} {ghost : γ} (hk : K ghost) {depth : Nat} {e f : Eval β}
      (h : Matches True (Along (State.Inside Q known (namesOf ghost) depth)) e f) :
      Matches True (Along (State.Inside Q known (namesOf ghost) depth))
        (guarded alarm (test ghost) e) f :=
    h.guarded (fun s hs => htest ghost s hk hs.toTracks) alarm
  induction fuel with
  | zero => exact fun _ _ _ _ _ _ => .throw _
  | succ fuel ih =>
    intro ghost depth hk node node' hlike
    have S : Simulation True host (Along (State.Inside Q known (namesOf ghost) depth)) :=
      simulation_inside hpending hhost (namesOf ghost) depth
    rw [follow, evaluate, step_eq]
    refine hguarded hk (S.step (ih ghost depth hk) (fun {span span'} hp arguments => ?_) fuel hlike)
    rintro s _ ⟨rfl, hs⟩
    rw [includeTemplate_eq]
    refine S.includeWith hp ⟨rfl, hs⟩ arguments (fun loader hl span span' hp name => ?_)
      (fun loader hl span span' hp name path => ?_) fun {loader path u} hl he span span' hp t => ?_
    · rw [hp trivial]
      refine .along fun u hu => ?_
      rw [after_ask]
      exact { hu with loader := F.resolve (hl ▸ hs.loader) span' name _ _ hu.loader }
    · refine S.includedTemplate (fun h => congrArg State.cache h.1.symm) ?_ ?_ hp name
      · rintro s _ ⟨rfl, h⟩ cache
        exact ⟨rfl, { h with }⟩
      · rw [hp trivial]
        refine .along fun u hu => ?_
        rw [after_ask]
        exact { hu with loader := F.load (hl ▸ hs.loader) span' path _ _ hu.loader }
    · obtain ⟨raw, l, hr, hraw, hne⟩ := includePath_ok he
      obtain ⟨hnames, hk'⟩ := henter hk (hl ▸ hs.loader) hl he
      rw [hp trivial]
      refine matches_included (F.found (hl ▸ hs.loader) hr (hraw ▸ hne)) (fun depth => ?_) depth span'
      rw [← hnames]
      exact hguarded hk' ((simulation_inside hpending hhost _ depth).renderWith
        (fun n => ih _ depth hk' (.refl n)) t)

/-- A watched evaluation comes to what the evaluation comes to: where a test is made, the state
is inside the includes that the ghost names. -/
theorem matches_watch (F : Finding Q known) {test : List String → State → Bool}
    (htest : ∀ names s, s.Tracks names → (∀ name ∈ names, known name) → test names s = true)
    (alarm : Failure) (fuel : Nat) (names : List String) (depth : Nat)
    (hknown : ∀ name ∈ names, known name) {node node' : Node} (hlike : node.Like True node') :
      Matches True (Along (State.Inside Q known names depth)) (watch alarm test host fuel names node)
        (evaluate host fuel node') := by
  rw [watch_eq_follow]
  refine matches_follow hpending hhost F  (fun hk hq hl he => ⟨rfl, ?_⟩)
    (fun names s hk hs => htest names s hs hk) alarm fuel names depth hknown hlike
  obtain ⟨raw, l, hr, hraw, hne⟩ := includePath_ok he
  exact List.forall_mem_cons.mpr ⟨F.found hq hr (hraw ▸ hne), hk⟩

end Inside

/-! ## The guard -/

namespace Eval

theorem Alike.eq_of_along {α : Type} {I : State → Prop} {r r' : EStateM.Result Failure State α}
    (h : Alike True (Along I) r r') : r = r' := by
  cases h with
  | ok h => rw [h.1]
  | error hx h => rw [h.1, hx.eq trivial]

/-- An include whose template was found is refused, whatever rendering would do, exactly if
its name is pending. -/
theorem include_refused_iff {names : List String} {s u : State} (hs : s.Tracks names)
    {span : Option Span} {arguments : List Value} {t : Template}
    (h : findIncluded span arguments s = .ok t u) :
    (∃ v, v.Tracks names ∧ ∀ render, includeTemplate render span arguments s =
        .error (.script ⟨.recursive (nameAmong s arguments) (sortedNames names),
          s.context.locate span⟩) v) ↔ nameAmong s arguments ∈ names := by
  obtain ⟨⟨_, _, _, -, -, hcontext⟩, scope, below, hscopes, hinclude⟩ := findIncluded_ok h
  generalize nameAmong s arguments = name at hinclude ⊢
  have hpending : u.context.pending.getD [] = names := by
    rw [hcontext]
    exact hs.pending
  have hrestore (v : State) : restoreArguments scope v =
      .ok () { v with context := v.context.changeScope scope.id scope.restoring } := rfl
  constructor
  · rintro ⟨v, -, hv⟩
    by_contra hn
    rw [← hpending] at hn
    have hrun := hv fun _ => pure ()
    rw [hinclude] at hrun
    simp only [ensuring, bind_of_ok (enterPending_run hn _), capture, pushSink, bind_run,
      changeContext_run, pure_run, popSink, context_run, leavePending, hrestore, reduceCtorEq] at hrun
  · intro hn
    rw [← hpending] at hn
    let refused : State :=
      { u with context := { u.context with pending := some (u.context.pending.getD []) } }
    refine ⟨{ refused with context := refused.context.changeScope scope.id scope.restoring },
      ⟨hpending, hs.nodup⟩, fun render => ?_⟩
    rw [hinclude]
    have hlocate : u.context.locate (s.context.locate span) = s.context.locate span := by
      rw [hcontext]
      exact s.context.locate_locate span
    have hsorted : u.context.pendingNames = sortedNames names := congrArg sortedNames hpending
    simp only [ensuring, bind_of_error (enterPending_run_pending hn _), hrestore, hlocate, hsorted,
      refused]

end Eval

/-- The recursion guard. Watching whether the pending names are those of the includes around,
each once, gives no alarm, at whatever point of whatever run. An include whose template
was found is refused exactly if its name is pending, with the pending names in order.
And if the loader finds no names but some, includes are nested no deeper than there are
such names. -/
theorem recursion_guard {host : Host} (hh : host.KeepsPending) (fuel : Nat) (t : Template)
    (way : Eval.TemplateRun) {names : List String} {s : State} (hs : s.Tracks names) :
    (∀ alarm, way.runWith (Eval.watch alarm (fun names s => decide (s.Tracks names)) host fuel names)
        t s = way.run host fuel t s) ∧
      (∀ {names : List String} {s u : State}, s.Tracks names →
        ∀ {span : Option Span} {arguments : List Value} {t : Template},
          Eval.findIncluded span arguments s = .ok t u →
          ((∃ v, v.Tracks names ∧ ∀ render, Eval.includeTemplate render span arguments s =
              .error (.script ⟨.recursive (Eval.nameAmong s arguments) (sortedNames names),
                s.context.locate span⟩) v) ↔ Eval.nameAmong s arguments ∈ names)) ∧
      ∀ {loader : Loader} {good : Library → Prop} {known : List String}, host.KeepsLoader →
        loader.FindsOnly good known → s.context.loader = some loader → good s.library →
        (∀ name ∈ names, name ∈ known) →
        ∀ alarm, way.runWith (Eval.watch alarm
          (fun names s => decide (s.Tracks names ∧ names.length ≤ known.length)) host fuel names)
          t s = way.run host fuel t s := by
  rw [Eval.TemplateRun.run_eq]
  refine ⟨fun alarm => ?_, fun hs _ _ _ h => Eval.include_refused_iff hs h,
    fun {loader good known} hk hfinds hl hg hknown alarm => ?_⟩
  · have hrun := (simulation_inside hh (fun _ _ _ _ h => h) names 0).runWith
      (fun n => matches_watch hh (fun _ _ _ _ h => h) finding_any
        (fun _ _ h _ => decide_eq_true h) alarm fuel names 0 (fun _ _ => trivial) (.refl n)) t way
    exact (hrun s s ⟨rfl, hs, fun _ _ => trivial, Nat.zero_le _, trivial⟩).eq_of_along
  · have hhost := hk.keeps (Q := fun c l => c = some loader ∧ good l)
    have htest (names : List String) (s : State) (h : s.Tracks names)
        (hnames : ∀ name ∈ names, name ∈ known) :
        decide (s.Tracks names ∧ names.length ≤ known.length) = true :=
      decide_eq_true ⟨h, (List.subperm_of_subset h.nodup hnames).length_le⟩
    have hrun := (simulation_inside hh hhost names 0).runWith
      (fun n => matches_watch hh hhost hfinds.finding htest alarm fuel names 0 hknown (.refl n))
      t way
    exact (hrun s s ⟨rfl, hs, hknown, Nat.zero_le _, hl, hg⟩).eq_of_along

theorem quietHost_keepsPending : quietHost.KeepsPending :=
  quietHost_moves
    { refl := fun _ => ⟨rfl, Nat.le_refl _⟩
      trans := fun h k => ⟨k.1.trans h.1, h.2.trans k.2⟩ }
    (fun _ _ => ⟨rfl, Nat.le_refl _⟩) (fun _ _ => ⟨rfl, Nat.le_refl _⟩)
    (fun _ _ => ⟨rfl, Nat.le_refl _⟩) fun _ _ _ => ⟨rfl, Nat.le_refl _⟩

theorem quietHost_keepsLoader : quietHost.KeepsLoader :=
  quietHost_moves
    { refl := fun _ => ⟨rfl, rfl⟩
      trans := fun h k => ⟨k.1.trans h.1, k.2.trans h.2⟩ }
    (fun _ _ => ⟨rfl, rfl⟩) (fun _ _ => ⟨rfl, rfl⟩) (fun _ _ => ⟨rfl, rfl⟩) fun _ _ _ => ⟨rfl, rfl⟩

/-- Two templates that include each other: the third include is refused, and its failure
passes through the other two. -/
theorem recursion_guard_mutual :
    let page := "\x7b\x7b include(\"a\") \x7d\x7d"
    let t : Template := (Template.parse {} none page).toOption.getD {}
    let s : State :=
      { context := { loader := some (.mapping 0), scopes := [⟨5, []⟩] }
        library :=
          { cells := #[{ texts :=
              [("a", some "a\x7b\x7b include(\"b\") \x7d\x7d"), ("b", some "b\x7b\x7b include(\"a\") \x7d\x7d")] }] } }
    quietHost.KeepsPending ∧ quietHost.KeepsLoader ∧ s.Tracks [] ∧
      (∀ alarm, Eval.TemplateRun.render.runWith
          (Eval.watch alarm (fun names s => decide (s.Tracks names)) quietHost 30 []) t s =
        Eval.TemplateRun.render.run quietHost 30 t s) ∧
      (∀ alarm, Eval.TemplateRun.render.runWith
          (Eval.watch alarm (fun names s => decide (s.Tracks names ∧ names.length ≤ 2)) quietHost 30 [])
          t s = Eval.TemplateRun.render.run quietHost 30 t s) ∧
      (match Eval.TemplateRun.render.run quietHost 30 t s with
        | .error (.script ⟨.recursive name _, _⟩) _ => name
        | _ => "") = "a" := by
  intro page t s
  have hs : s.Tracks [] := ⟨rfl, List.nodup_nil⟩
  have hguard := recursion_guard quietHost_keepsPending 30 t .render hs
  have hfinds := Loader.mapping_findsOnly 0 ["a", "b"]
  exact ⟨quietHost_keepsPending, quietHost_keepsLoader, hs, hguard.1,
    hguard.2.2 quietHost_keepsLoader hfinds rfl (by decide +kernel) (fun _ h => nomatch h),
    by decide +kernel⟩

end Stencil

import Stencil.Proofs.Twins
import Stencil.Session

/-!
# The template cache

An include takes its template from the cache if it is there. `rereading` is an evaluator
that never does: each include asks the loader for the text and reads it again. If the
loader answers the same whenever it is asked (`Loader.Steady`), both come to the same,
over whole sessions of contexts that share a cache (`cache_transparent`).

They come to the same only if the literals of a template that is read again are the
objects that they were when the template was first read. That is what `asFirst` sees to:
it notes for each path the numbers of the literals, and nothing else. With literals that
are new objects each time (`asNew`), a template can tell the difference, as methods of
equal texts are equal only if the texts are one object (`cache_tells_objects`).
-/

namespace Stencil

namespace Eval

/-! ## Includes without the cache -/

/-- Loads a template as new objects. -/
def asNew (_path : String) (t : Template) (s : State) : LoadedTemplate × State :=
  let (loaded, store) := t.load s.store
  (loaded, { s with store })

/-- Loads a template as the objects that it was when the path was first asked for. Of
the template that was read then, only the number is noted. -/
def asFirst (path : String) (t : Template) (s : State) : LoadedTemplate × State :=
  match s.cache.get? path with
  | some first => (⟨first.id, t⟩, s)
  | none =>
    let (loaded, store) := t.load s.store
    (loaded, { s with store, cache := s.cache.set path ⟨loaded.id, {}⟩ })

/-- Reads the template at a path, whether or not it was read before. -/
def reread (objects : String → Template → State → LoadedTemplate × State) (span : Option Span)
    (loader : Loader) (name path : String) : Eval Template := do
  match ← ask (loader.load span path) with
  | none => report (.noContent path) span
  | some text =>
    match Template.parse (includeOptions (← context).options) (some path) text with
    | .error e => failWith e
    | .ok template =>
      if template.hasErrors then report (.unparsable name path template.diagnostics) span
      else
        modifyGet fun s =>
          let (loaded, s) := objects path template s
          (loaded.numbered, s)

/-- Evaluates a node; every include reads its template. -/
def rereading (objects : String → Template → State → LoadedTemplate × State) (host : Host) :
    Nat → Node → Eval Value := evaluateWith (includeWith (reread objects)) host

end Eval

/-! ## Loaders that answer the same -/

/-- As long as the library is good, which questions do not change, the answers of a loader
depend on the question alone; and the text at a path does not depend on the place of the
question either. -/
structure Loader.Steady (loader : Loader) (good : Library → Prop) : Prop where
  resolve (span : Option Span) (name : String) :
    Eval.Matches True (fun l m => good l ∧ good m) (loader.resolve span name) (loader.resolve span name)
  load (span : Option Span) (path : String) :
    Eval.Matches True (fun l m => good l ∧ good m) (loader.load span path) (loader.load span path)
  text {span : Option Span} (other : Option Span) {path text : String} {l l' m : Library} :
    good l → good m → loader.load span path l = .ok (some text) l' →
    ∃ m', loader.load other path m = .ok (some text) m' ∧ good m'

/-- The template is what a loader has at a path, read without errors. -/
def Loader.Holds (loader : Loader) (good : Library → Prop) (o : TemplateOptions) (path : String)
    (t : Template) : Prop :=
  ∃ span text l l', good l ∧ loader.load span path l = .ok (some text) l' ∧
    Template.parse (Eval.includeOptions o) (some path) text = .ok t ∧ t.hasErrors = false

/-! ## Cached and noted -/

/-- What is noted of a cache: the numbers. -/
def TemplateCache.noted (cache : TemplateCache) : TemplateCache :=
  cache.map fun (path, kept) => (path, ⟨kept.id, {}⟩)

theorem TemplateCache.get?_noted (cache : TemplateCache) (path : String) :
    Table.get? path cache.noted = (Table.get? path cache).map fun kept => ⟨kept.id, {}⟩ := by
  induction cache with
  | nil => rfl
  | cons entry rest ih =>
    obtain ⟨p, kept⟩ := entry
    show (if p = path then _ else Table.get? path (TemplateCache.noted rest)) =
      (if p = path then _ else _ : Option LoadedTemplate).map _
    split
    · rfl
    · exact ih

theorem TemplateCache.noted_set (cache : TemplateCache) (path : String) (t : LoadedTemplate) :
    TemplateCache.noted (Table.set path t cache) = Table.set path ⟨t.id, {}⟩ cache.noted := by
  induction cache with
  | nil => rfl
  | cons entry rest ih =>
    obtain ⟨p, kept⟩ := entry
    by_cases h : p = path
    · simp only [noted, Table.set, h, if_true, List.map_cons]
    · simp only [noted, Table.set, h, if_false, List.map_cons]
      exact congrArg (_ :: ·) ih

/-- A context is described with the number of the templates in its cache alone. -/
theorem Context.description_eq_of_length {c : Context} {cache cache' : TemplateCache}
    (h : cache.length = cache'.length) : c.description cache = c.description cache' := by
  unfold description
  rw [h]

/-- The states of a run with the cache and of one without: they differ in what is kept of
the templates, which with the cache is what the loader has. -/
structure State.Rereads (loader : Loader) (good : Library → Prop) (o : TemplateOptions)
    (s t : State) : Prop where
  store_eq : t.store = s.store
  context_eq : t.context = s.context
  loader_eq : s.context.loader = some loader
  options_eq : s.context.options = o
  library : good s.library
  library' : good t.library
  cache_eq : t.cache = s.cache.noted
  holds {path : String} {kept : LoadedTemplate} : s.cache.get? path = some kept →
    loader.Holds good o path kept.template

/-- Functions of a host that do the same with the cache and without. -/
def Host.IgnoresCache (host : Host) (loader : Loader) (good : Library → Prop)
    (o : TemplateOptions) : Prop :=
  ∀ name span arguments, Eval.Matches True (State.Rereads loader good o)
    (host.contextual name span arguments) (host.contextual name span arguments)

section Rereads

open Eval

variable {loader : Loader} {good : Library → Prop} {o : TemplateOptions}

/-- A change of the context that leaves the loader and the options. -/
theorem State.Rereads.changeContext {s t : State} (h : s.Rereads loader good o t)
    {f : Context → Context} (hl : ∀ c, (f c).loader = c.loader) (ho : ∀ c, (f c).options = c.options) :
    State.Rereads loader good o { s with context := f s.context } { t with context := f t.context } where
  store_eq := h.store_eq
  context_eq := congrArg f h.context_eq
  loader_eq := (hl _).trans h.loader_eq
  options_eq := (ho _).trans h.options_eq
  library := h.library
  library' := h.library'
  cache_eq := h.cache_eq
  holds := h.holds

theorem State.Rereads.setStore {s t : State} (h : s.Rereads loader good o t) (store : Store) :
    State.Rereads loader good o { s with store } { t with store } where
  store_eq := rfl
  context_eq := h.context_eq
  loader_eq := h.loader_eq
  options_eq := h.options_eq
  library := h.library
  library' := h.library'
  cache_eq := h.cache_eq
  holds := h.holds

theorem State.Rereads.setLibrary {s t : State} (h : s.Rereads loader good o t) {l m : Library}
    (hl : good l) (hm : good m) :
    State.Rereads loader good o { s with library := l } { t with library := m } where
  store_eq := h.store_eq
  context_eq := h.context_eq
  loader_eq := h.loader_eq
  options_eq := h.options_eq
  library := hl
  library' := hm
  cache_eq := h.cache_eq
  holds := h.holds

theorem TemplateCache.length_noted (cache : TemplateCache) : cache.noted.length = cache.length :=
  List.length_map ..

section Questions

variable {α : Type} {question : Lookup α}

theorem matches_asked
    (h : Matches True (fun l m => good l ∧ good m) question question) :
    Matches True (State.Rereads loader good o) (ask question) (ask question) := by
  intro s t hs
  simp only [ask]
  obtain ⟨a, l, m, e, e', hl, hm⟩ | ⟨x, y, l, m, e, e', hx, hl, hm⟩ :=
    (h _ _ ⟨hs.library, hs.library'⟩).cases_at
  · rw [e, e']
    exact .ok (hs.setLibrary hl hm)
  · rw [e, e']
    exact .error hx (hs.setLibrary hl hm)

end Questions

/-- What is kept at a path for the first time is what the loader has there; without the
cache its number is noted. -/
theorem State.Rereads.keep {s t : State} (h : s.Rereads loader good o t) {path : String}
    (hnone : s.cache.get? path = none) {template : Template}
    (hholds : loader.Holds good o path template) :
    State.Rereads loader good o
      { s with
        store := (template.load s.store).2
        cache := s.cache.set path (template.load s.store).1 }
      { t with
        store := (template.load t.store).2
        cache := t.cache.set path ⟨(template.load t.store).1.id, {}⟩ } where
  store_eq := by rw [h.store_eq]
  context_eq := h.context_eq
  loader_eq := h.loader_eq
  options_eq := h.options_eq
  library := h.library
  library' := h.library'
  cache_eq := by
    rw [h.store_eq, h.cache_eq]
    exact (TemplateCache.noted_set _ _ _).symm
  holds {other kept} hkept := by
    by_cases he : other = path
    · subst he
      rw [Table.get?_set_self] at hkept
      cases hkept
      exact hholds
    · rw [Table.get?_set_of_ne he] at hkept
      exact h.holds hkept

/-- Taking a template from the cache, or reading and keeping it, is reading it as the
objects that it was first. -/
theorem matches_reread (hl : loader.Steady good) (span : Option Span) (name path : String) :
    Matches True (State.Rereads loader good o) (includedTemplate span loader name path)
      (reread asFirst span loader name path) := by
  intro s t h
  have hnoted : t.cache.get? path = (s.cache.get? path).map fun kept => ⟨kept.id, {}⟩ := by
    rw [h.cache_eq]
    exact TemplateCache.get?_noted _ _
  simp only [includedTemplate, bind_run, get_run]
  cases hk : s.cache.get? path with
  | some kept =>
    obtain ⟨_, text, _, _, hgood, hload, hparse, herrors⟩ := h.holds hk
    obtain ⟨m, hload', hm⟩ := hl.text span hgood h.library' hload
    have ho : t.context.options = o := (congrArg Context.options h.context_eq).trans h.options_eq
    rw [hk] at hnoted
    have hread : reread asFirst span loader name path t = .ok kept.numbered { t with library := m } := by
      simp only [reread, bind_run, ask, hload', context_run, ho, hparse, herrors, Bool.false_eq_true,
        if_false, modifyGet, MonadStateOf.modifyGet, EStateM.modifyGet, asFirst, hnoted, Option.map_some]
    rw [hread]
    exact .ok (h.setLibrary h.library hm)
  | none =>
    rw [hk] at hnoted
    simp only [readIncluded, reread, bind_run, ask]
    obtain ⟨answer, l, m, e, e', hgood⟩ | ⟨x, y, l, m, e, e', hx, hgood⟩ :=
      (hl.load span path _ _ ⟨h.library, h.library'⟩).cases_at
    · have h' := h.setLibrary hgood.1 hgood.2
      have hreport (cause : Cause) : Alike True (State.Rereads loader good o)
          (report cause span { s with library := l } : EStateM.Result Failure State Template)
          (report cause span { t with library := m }) := by
        refine .error ⟨rfl, fun _ => ?_⟩ h'
        exact congrArg (fun c : Context => Failure.script ⟨cause, c.locate span⟩) h.context_eq.symm
      simp only [e, e']
      cases answer with
      | none => exact hreport _
      | some text =>
        have ho : t.context.options = o := (congrArg Context.options h.context_eq).trans h.options_eq
        simp only [bind_run, context_run, ho, h.options_eq]
        cases hparse : Template.parse (includeOptions o) (some path) text with
        | error e => exact .fail _ h'
        | ok template =>
          cases herrors : template.hasErrors with
          | true =>
            simp only [herrors, if_true]
            exact hreport _
          | false =>
            simp only [herrors, Bool.false_eq_true, if_false, modifyGet, MonadStateOf.modifyGet,
              EStateM.modifyGet, TemplateCache.addIfAbsent, hk, asFirst, hnoted, Option.map_none]
            have hkeep := h'.keep hk ⟨span, text, s.library, l, h.library, e, hparse, herrors⟩
            rw [h.store_eq] at hkeep ⊢
            exact .ok hkeep
    · simp only [e, e']
      exact .error hx (h.setLibrary hgood.1 hgood.2)

/-- Closing a sink comes to the same, if there is one to close and if there is none. -/
theorem matches_popSink : Matches True (State.Rereads loader good o) popSink popSink := by
  intro u v hu
  cases hb : u.context.sinksBelow with
  | nil =>
    have hb' : v.context.sinksBelow = [] := (congrArg Context.sinksBelow hu.context_eq).trans hb
    rw [popSink_run_nil hb, popSink_run_nil hb']
    exact .fail _ hu
  | cons sink below =>
    have hb' : v.context.sinksBelow = sink :: below :=
      (congrArg Context.sinksBelow hu.context_eq).trans hb
    have hsink : v.context.sink = u.context.sink := congrArg Context.sink hu.context_eq
    rw [popSink_run hb, popSink_run hb', hsink]
    exact .ok (hu.changeContext (f := fun c => { c with sink, sinksBelow := below }) (fun _ => rfl)
      fun _ => rfl)

/-- Rendering with a name pending, into a sink of its own. -/
theorem matches_pending {body body' : Eval Unit}
    (h : Matches True (State.Rereads loader good o) body body') (span : Option Span) (name : String) :
    Matches True (State.Rereads loader good o)
      (do
        enterPending span name
        capture body (leavePending name))
      (do
        enterPending span name
        capture body' (leavePending name)) := by
  refine .bind (fun s t hs => ?_) fun _ s t hs => ?_
  · by_cases hn : name ∈ s.context.pending.getD []
    · have hn' : name ∈ t.context.pending.getD [] := hs.context_eq ▸ hn
      rw [enterPending_run_pending hn, enterPending_run_pending hn']
      refine .error ⟨?_, fun _ => ?_⟩ (hs.changeContext
        (f := fun c => { c with pending := some (c.pending.getD []) }) (fun _ => rfl) fun _ => rfl)
      · rw [hs.context_eq]
      · rw [hs.context_eq]
    · have hn' : name ∉ t.context.pending.getD [] := hs.context_eq ▸ hn
      rw [enterPending_run hn, enterPending_run hn']
      exact .ok (hs.changeContext (f := fun c => { c with pending := some (name :: c.pending.getD []) })
        (fun _ => rfl) fun _ => rfl)
  · have hpush := hs.changeContext
      (f := fun c => { c with sink := {}, sinksBelow := c.sink :: c.sinksBelow }) (fun _ => rfl)
      fun _ => rfl
    have hbody : Alike True (State.Rereads loader good o) ((do pushSink; body : Eval Unit) s)
        ((do pushSink; body' : Eval Unit) t) := h _ _ hpush
    refine hbody.capture (Q := State.Rereads loader good o) (fun u v hu => ?_) fun u v hu => ?_
    · obtain ⟨sink, u', v', p, p', hp⟩ | ⟨x, y, u', v', p, p', hx, hp⟩ := (matches_popSink u v hu).cases_at
      · exact .inl ⟨sink, u', v', p, p', hp⟩
      · obtain rfl := hx.eq trivial
        exact .inr ⟨x, u', v', p, p', hp⟩
    · exact .ok (hu.changeContext
        (f := fun c => { c with pending := c.pending.map (·.filter (· != name)) }) (fun _ => rfl)
        fun _ => rfl)

variable {host : Host} (hh : host.IgnoresCache loader good o)

include hh

theorem simulation_rereads : Simulation True host (State.Rereads loader good o) where
  store_eq h := h.store_eq
  context_eq h := by
    rw [h.context_eq]
    rfl
  setStore h := h.setStore
  setScopes h scopes := h.changeContext (f := ({ · with scopes })) (fun _ => rfl) fun _ => rfl
  setFiles h files := h.changeContext (f := ({ · with sourceFiles := files })) (fun _ => rfl)
    fun _ => rfl
  setEnabled h enabled := h.changeContext (f := ({ · with outputEnabled := enabled })) (fun _ => rfl)
    fun _ => rfl
  wrote h _ := by
    rename_i v text _
    unfold State.wrote
    exact h.changeContext (f := fun c => { c with sink := c.sink.write v text }) (fun _ => rfl)
      fun _ => rfl
  contextual name span span' hp arguments := by
    rw [hp trivial]
    exact hh name span' arguments
  invoked {s t} h span span' hp name list := by
    have hlength : t.cache.length = s.cache.length := by rw [h.cache_eq, TemplateCache.length_noted]
    rw [hp trivial, h.context_eq, Context.description_eq_of_length hlength]

/-- With the cache and without, nodes are evaluated alike. -/
theorem matches_rereading (hl : loader.Steady good) (fuel : Nat) (node : Node) :
    Matches True (State.Rereads loader good o) (evaluate host fuel node)
      (rereading asFirst host fuel node) := by
  have S := simulation_rereads hh
  rw [evaluate_eq, includeTemplate_eq]
  refine Simulation.evaluateWith (fun _ : Unit => S) (fun hr _ _ _ hp arguments s t hs => ?_) fuel ()
    (.refl node)
  refine S.includeWith hp hs arguments (fun loader' hl' _ _ hp name => ?_)
    (fun loader' hl' _ _ hp name path => ?_) fun _ _ _ _ hp template => ?_
  · obtain rfl : loader = loader' := Option.some.inj (hs.loader_eq.symm.trans hl')
    rw [hp trivial]
    exact matches_asked (hl.resolve _ name)
  · obtain rfl : loader = loader' := Option.some.inj (hs.loader_eq.symm.trans hl')
    rw [hp trivial]
    exact matches_reread hl _ name path
  · rw [hp trivial]
    exact matches_pending (hr () template) _ _

end Rereads

/-! ## Sessions -/

/-- A run of a template in a context of a session. -/
structure SessionStep where
  context : String
  template : LoadedTemplate
  way : Eval.TemplateRun

/-- Takes steps in a session, given how nodes are evaluated: what each of them came to, and
the contexts and the lists behind it. -/
def Session.perform (node : Node → Eval Value) :
    List SessionStep → Session → List (Except Failure Value × Table (Context × Nat) × Store)
  | [], _ => []
  | step :: rest, s =>
    let (outcome, s) := s.run step.context (step.way.runWith node step.template.numbered)
    (outcome, s.contexts, s.store) :: perform node rest s

/-- The contexts of a session have the same loader, the same options and the same cache. -/
def Session.Shares (s : Session) (loader : Loader) (o : TemplateOptions) (place : Nat) : Prop :=
  ∀ name c p, s.contexts.get? name = some (c, p) → c.loader = some loader ∧ c.options = o ∧ p = place

/-- The cache at a place. -/
def Session.cacheAt (s : Session) (place : Nat) : TemplateCache := s.caches[place]?.getD []

/-- The sessions with the cache and without. -/
structure Session.Rereads (loader : Loader) (good : Library → Prop) (o : TemplateOptions)
    (place : Nat) (s t : Session) : Prop where
  store_eq : t.store = s.store
  contexts_eq : t.contexts = s.contexts
  shares : s.Shares loader o place
  library : good s.library
  library' : good t.library
  place_lt : place < s.caches.size
  place_lt' : place < t.caches.size
  cache_eq : t.cacheAt place = (s.cacheAt place).noted
  holds {path : String} {kept : LoadedTemplate} : (s.cacheAt place).get? path = some kept →
    loader.Holds good o path kept.template

section Sessions

open Eval

variable {loader : Loader} {good : Library → Prop} {o : TemplateOptions} {place : Nat}

theorem Session.stateOf_eq {s : Session} {name : String} {c : Context}
    (h : s.contexts.get? name = some (c, place)) :
    s.stateOf name = ⟨c, s.store, s.cacheAt place, s.library⟩ := by
  simp only [stateOf, h, cacheAt]

theorem Session.withState_eq {s : Session} {name : String} {c : Context}
    (h : s.contexts.get? name = some (c, place)) (u : State) :
    s.withState name u = { s with
      store := u.store
      library := u.library
      contexts := s.contexts.set name (u.context, place)
      caches := s.caches.setIfInBounds place u.cache } := by
  simp only [withState, h]

/-- The sessions behind runs in one of the contexts. -/
theorem Session.Rereads.withState {s t : Session} (h : s.Rereads loader good o place t) {name : String}
    {c : Context} (hc : s.contexts.get? name = some (c, place)) {u v : State}
    (hu : u.Rereads loader good o v) :
    (s.withState name u).Rereads loader good o place (t.withState name v) := by
  have hc' : t.contexts.get? name = some (c, place) := h.contexts_eq ▸ hc
  rw [Session.withState_eq hc, Session.withState_eq hc']
  have hcache {caches : Array TemplateCache} (hlt : place < caches.size) (cache : TemplateCache) :
      (caches.setIfInBounds place cache)[place]?.getD [] = cache := by
    rw [Array.getElem?_setIfInBounds_self_of_lt hlt, Option.getD_some]
  refine
    { store_eq := hu.store_eq
      contexts_eq := by rw [h.contexts_eq, hu.context_eq]
      shares := fun other d p hd => ?_
      library := hu.library
      library' := hu.library'
      place_lt := by rw [Array.size_setIfInBounds]; exact h.place_lt
      place_lt' := by rw [Array.size_setIfInBounds]; exact h.place_lt'
      cache_eq := ?_
      holds := fun hkept => ?_ }
  · by_cases he : other = name
    · subst he
      rw [Table.get?_set_self] at hd
      cases hd
      exact ⟨hu.loader_eq, hu.options_eq, rfl⟩
    · rw [Table.get?_set_of_ne he] at hd
      exact h.shares other d p hd
  · show (t.caches.setIfInBounds place v.cache)[place]?.getD [] =
      TemplateCache.noted ((s.caches.setIfInBounds place u.cache)[place]?.getD [])
    rw [hcache h.place_lt, hcache h.place_lt', hu.cache_eq]
  · replace hkept : Table.get? _ ((s.caches.setIfInBounds place u.cache)[place]?.getD []) = _ := hkept
    rw [hcache h.place_lt] at hkept
    exact hu.holds hkept

/-- One step, with the cache and without: it comes to the same. -/
theorem Session.Rereads.run {α : Type} {s t : Session} (h : s.Rereads loader good o place t)
    {name : String} (hname : (s.contexts.get? name).isSome) {e f : Eval α}
    (hm : Matches True (State.Rereads loader good o) e f) :
    (t.run name f).1 = (s.run name e).1 ∧
      (s.run name e).2.Rereads loader good o place (t.run name f).2 ∧
      ∀ other, (s.contexts.get? other).isSome → ((s.run name e).2.contexts.get? other).isSome := by
  obtain ⟨⟨c, p⟩, hc⟩ := Option.isSome_iff_exists.mp hname
  obtain ⟨hl, ho, rfl⟩ := h.shares name c p hc
  have hc' : t.contexts.get? name = some (c, p) := h.contexts_eq ▸ hc
  have hstate : (s.stateOf name).Rereads loader good o (t.stateOf name) := by
    rw [Session.stateOf_eq hc, Session.stateOf_eq hc']
    exact ⟨h.store_eq, rfl, hl, ho, h.library, h.library', h.cache_eq, h.holds⟩
  have hkeeps (u : State) (other : String) (hs : (s.contexts.get? other).isSome) :
      ((s.withState name u).contexts.get? other).isSome := by
    rw [Session.withState_eq hc]
    by_cases he : other = name
    · subst he
      rw [Table.get?_set_self]
      rfl
    · rwa [Table.get?_set_of_ne he]
  obtain ⟨a, u, v, e₁, e₂, hu⟩ | ⟨x, y, u, v, e₁, e₂, hx, hu⟩ := (hm _ _ hstate).cases_at
  · have hr : s.run name e = (.ok a, s.withState name u) := by simp only [Session.run, e₁]
    have hr' : t.run name f = (.ok a, t.withState name v) := by simp only [Session.run, e₂]
    rw [hr, hr']
    exact ⟨rfl, h.withState hc hu, hkeeps u⟩
  · obtain rfl := hx.eq trivial
    have hr : s.run name e = (.error x, s.withState name u) := by simp only [Session.run, e₁]
    have hr' : t.run name f = (.error x, t.withState name v) := by simp only [Session.run, e₂]
    rw [hr, hr']
    exact ⟨rfl, h.withState hc hu, hkeeps u⟩

/-- A sequence of runs, with the cache and without, by induction on the steps: each comes
to the same, and leaves sessions that are related again. -/
theorem Session.Rereads.perform {node node' : Node → Eval Value}
    (hm : ∀ (t : Template) (way : TemplateRun),
      Matches True (State.Rereads loader good o) (way.runWith node t) (way.runWith node' t)) :
    ∀ {steps : List SessionStep} {s t : Session}, s.Rereads loader good o place t →
      (∀ step ∈ steps, (s.contexts.get? step.context).isSome) →
      t.perform node' steps = s.perform node steps
  | [], _, _, _, _ => rfl
  | step :: rest, s, t, h, hsteps => by
    obtain ⟨houtcome, hbehind, hkeeps⟩ :=
      h.run (hsteps step List.mem_cons_self) (hm step.template.numbered step.way)
    have hrest := Session.Rereads.perform hm hbehind fun later hlater =>
      hkeeps _ (hsteps later (List.mem_cons_of_mem _ hlater))
    simp only [Session.perform, houtcome, hbehind.contexts_eq, hbehind.store_eq, hrest]

end Sessions

/-- The template cache is transparent. In a session whose contexts share a loader that
answers the same, options and an empty cache, each run of a sequence comes to what it
comes to if every include reads its template again, its literals as the objects that they
were when its path was first read: to the same value or failure, with the same contexts
and lists behind it. -/
theorem cache_transparent {loader : Loader} {good : Library → Prop} {o : TemplateOptions}
    (hl : loader.Steady good) {s : Session} (hh : s.host.IgnoresCache loader good o) {place : Nat}
    (hs : s.Shares loader o place) (hg : good s.library) (hc : s.caches[place]? = some [])
    {steps : List SessionStep} (hsteps : ∀ step ∈ steps, (s.contexts.get? step.context).isSome) :
    s.perform (Eval.evaluate s.host s.fuel) steps =
      s.perform (Eval.rereading Eval.asFirst s.host s.fuel) steps := by
  have hcache : s.cacheAt place = [] := by rw [Session.cacheAt, hc, Option.getD_some]
  have hlt : place < s.caches.size := by
    rcases Nat.lt_or_ge place s.caches.size with hlt | hge
    · exact hlt
    · rw [Array.getElem?_eq_none hge] at hc
      cases hc
  have hstart : s.Rereads loader good o place s :=
    { store_eq := rfl
      contexts_eq := rfl
      shares := hs
      library := hg
      library' := hg
      place_lt := hlt
      place_lt' := hlt
      cache_eq := by rw [hcache]; rfl
      holds := fun hkept => by
        rw [hcache] at hkept
        cases hkept }
  exact (Session.Rereads.perform (fun t way => (simulation_rereads hh).runWith
    (matches_rereading hh hl s.fuel) t way) hstart hsteps).symm

/-! ## A loader that answers the same, and a host -/

/-- Noting a call leaves the tables of a cell. -/
theorem Library.cell_changeCell_record (l : Library) (i : Nat) (call : LoaderCall) :
    let noted := l.changeCell i fun c => { c with record := c.record ++ [call] }
    (noted.cell i).texts = (l.cell i).texts ∧ (noted.cell i).paths = (l.cell i).paths := by
  simp only [cell, changeCell, Array.getElem?_modify, if_true]
  cases l.cells[i]? <;> exact ⟨rfl, rfl⟩

/-- A loader with tables of texts and paths answers the same, however often it is asked. -/
theorem Loader.recording_steady (i : Nat) (texts paths : Table (Option String)) :
    (Loader.recording i).Steady fun l => (l.cell i).texts = texts ∧ (l.cell i).paths = paths := by
  have hresolve (span : Option Span) (name : String) {l : Library}
      (hl : (l.cell i).texts = texts ∧ (l.cell i).paths = paths) :
      ∃ l', (Loader.recording i).resolve span name l =
        .ok ((Table.get? name paths).getD (some name)) l' ∧
          (l'.cell i).texts = texts ∧ (l'.cell i).paths = paths := by
    obtain ⟨htexts, hpaths⟩ := l.cell_changeCell_record i (.resolve name span)
    refine ⟨_, ?_, htexts.trans hl.1, hpaths.trans hl.2⟩
    rw [← hl.2, ← hpaths]
    rfl
  have hload (span : Option Span) (path : String) {l : Library}
      (hl : (l.cell i).texts = texts ∧ (l.cell i).paths = paths) :
      ∃ l', (Loader.recording i).load span path l = .ok (Table.get? path texts).join l' ∧
          (l'.cell i).texts = texts ∧ (l'.cell i).paths = paths := by
    obtain ⟨htexts, hpaths⟩ := l.cell_changeCell_record i (.load path span)
    refine ⟨_, ?_, htexts.trans hl.1, hpaths.trans hl.2⟩
    rw [← hl.1, ← htexts]
    rfl
  refine ⟨fun span name l m h => ?_, fun span path l m h => ?_,
    fun {span} other {path text l l' m} hl hm h => ?_⟩
  · obtain ⟨l', el, hl'⟩ := hresolve span name h.1
    obtain ⟨m', em, hm'⟩ := hresolve span name h.2
    rw [el, em]
    exact .ok ⟨hl', hm'⟩
  · obtain ⟨l', el, hl'⟩ := hload span path h.1
    obtain ⟨m', em, hm'⟩ := hload span path h.2
    rw [el, em]
    exact .ok ⟨hl', hm'⟩
  · obtain ⟨l', el, -⟩ := hload span path hl
    obtain ⟨m', em, hm'⟩ := hload other path hm
    rw [el, EStateM.Result.ok.injEq] at h
    exact ⟨m', h.1 ▸ em, hm'⟩

/-- The basic host does the same with the cache and without. -/
theorem basicHost_ignoresCache {loader : Loader} {good : Library → Prop} {o : TemplateOptions} :
    basicHost.IgnoresCache loader good o := by
  intro name span arguments
  -- a host whose functions are idle gives the theory for the basic ones
  have hidle : (⟨fun _ _ => return .null, fun _ _ _ => return .null⟩ : Host).IgnoresCache
      loader good o := fun _ _ _ => .pure _
  have S := simulation_rereads hidle
  have hcontext {f : Context → Eval Value}
      (hf : ∀ c, Eval.Matches True (State.Rereads loader good o) (f c) (f c)) :
      Eval.Matches True (State.Rereads loader good o) (do f (← Eval.context))
        (do f (← Eval.context)) := by
    intro s t h
    simp only [bind_run, Eval.context_run, h.context_eq]
    exact hf _ _ _ h
  have hwrite : Eval.Matches True (State.Rereads loader good o) (BasicHost.writeAll span arguments)
      (BasicHost.writeAll span arguments) := .forM (fun v => S.write v fun _ => rfl) arguments
  show Eval.Matches True (State.Rereads loader good o) (BasicHost.contextual name span arguments)
    (BasicHost.contextual name span arguments)
  unfold BasicHost.contextual
  split
  · refine hcontext fun c => ?_
    split <;> exact .pure _
  · exact hcontext fun c => S.computed _
  · exact hcontext fun c => S.computed _
  · exact S.computed _
  · exact hwrite.bind fun _ => .pure _
  · refine .bind (fun s t h => .ok (h.changeContext
      (f := fun c => { c with sink := {}, sinksBelow := c.sink :: c.sinksBelow }) (fun _ => rfl)
      fun _ => rfl)) fun _ => hwrite.bind fun _ => ?_
    exact matches_popSink.bind fun _ => S.computed _
  · exact (S.pushScope []).bind fun _ => .pure _
  · exact S.popScope.bind fun _ => .pure _
  · exact fun s t h => .ok (h.changeContext (f := ({ · with outputEnabled := false }))
      (fun _ => rfl) fun _ => rfl)
  · exact .pure _

/-- A session with two contexts. The names `f` and `g` have one path, the template at which
cannot be found under `h` and has errors under `e`. -/
def twoContexts (main : String) : Session :=
  let context : Context := { loader := some (.recording 0), scopes := [⟨5, []⟩] }
  { fuel := 40
    contexts := [("main", (context, 0)), ("other", (context, 0))]
    caches := #[[]]
    templates := [("main", ⟨10, (Template.parse {} none main).toOption.getD {}⟩)]
    store := ⟨#[], 1000⟩
    library :=
      { cells := #[{
          texts := [("f", some "\x7b\x7b m = \"abc\".upper \x7d\x7df"), ("e", some "\x7b\x7b ( \x7d\x7d")]
          paths := [("g", some "f"), ("h", none)] }] } }

/-- The steps that render the template of the session in each of its contexts, twice. -/
def Session.fourRenders (s : Session) : List SessionStep :=
  ["main", "other", "other", "main"].map fun context =>
    ⟨context, (s.templates.get? "main").getD ⟨0, {}⟩, .render⟩

/-- What was written by then, in a context. -/
def outputsOf (context : String)
    (steps : List (Except Failure Value × Table (Context × Nat) × Store)) : List String :=
  steps.map fun (_, contexts, _) => ((contexts.get? context).map (·.1.output)).getD ""

theorem twoContexts_shares (main : String) :
    (twoContexts main).Shares (.recording 0) {} 0 := by
  intro name c p h
  simp only [twoContexts, Table.get?] at h
  split at h
  · cases h
    exact ⟨rfl, rfl, rfl⟩
  · split at h
    · cases h
      exact ⟨rfl, rfl, rfl⟩
    · cases h

/-- Templates that are included under two names, that are missing, and that have errors. -/
theorem cache_transparent_two :
    let page := "\x7b\x7b include(\"g\") \x7d\x7d\x7b\x7b a = m \x7d\x7d\x7b\x7b include(\"f\") \x7d\x7d\x7b\x7b a == m \x7d\x7d\x7b\x7b include(\"e\") \x7d\x7d"
    let s := twoContexts page
    let good := fun l : Library => (l.cell 0).texts = (s.library.cell 0).texts ∧
      (l.cell 0).paths = (s.library.cell 0).paths
    (Loader.recording 0).Steady good ∧ basicHost.IgnoresCache (.recording 0) good {} ∧
      s.perform (Eval.evaluate s.host s.fuel) s.fourRenders =
        s.perform (Eval.rereading Eval.asFirst s.host s.fuel) s.fourRenders ∧
      outputsOf "main" (s.perform (Eval.evaluate s.host s.fuel) s.fourRenders) =
        ["fftrue", "fftrue", "fftrue", "fftruefftrue"] := by
  intro page s good
  have hsteady := Loader.recording_steady 0 (s.library.cell 0).texts (s.library.cell 0).paths
  refine ⟨hsteady, basicHost_ignoresCache, ?_, by decide +kernel⟩
  exact cache_transparent hsteady basicHost_ignoresCache (twoContexts_shares page) ⟨rfl, rfl⟩ rfl
    (by decide)

/-- A template that reads a method of a literal in an include, twice, and compares: the
two are equal with the cache, and not if the include reads its template as new objects. -/
theorem cache_tells_objects :
    let page := "\x7b\x7b include(\"f\") \x7d\x7d\x7b\x7b a = m \x7d\x7d\x7b\x7b include(\"f\") \x7d\x7d\x7b\x7b a == m \x7d\x7d"
    let s := twoContexts page
    let steps := [⟨"main", (s.templates.get? "main").getD ⟨0, {}⟩, .render⟩]
    let good := fun l : Library => (l.cell 0).texts = (s.library.cell 0).texts ∧
      (l.cell 0).paths = (s.library.cell 0).paths
    (Loader.recording 0).Steady good ∧ good s.library ∧ s.Shares (.recording 0) {} 0 ∧
      s.caches[0]? = some [] ∧
      outputsOf "main" (s.perform (Eval.evaluate s.host s.fuel) steps) = ["fftrue"] ∧
      outputsOf "main" (s.perform (Eval.rereading Eval.asNew s.host s.fuel) steps) = ["fffalse"] := by
  intro page s steps good
  exact ⟨Loader.recording_steady 0 _ _, ⟨rfl, rfl⟩, twoContexts_shares page, rfl, by decide +kernel,
    by decide +kernel⟩

end Stencil

import Mathlib
import Stencil.Proofs.Exit
import Stencil.Proofs.Names

/-!
# Balanced stacks

Running a template leaves the stacks of its context as it found them, whether it
returns or fails: the same scopes with the same arguments, the same sinks with
nothing but more text at the end of the top one, the same files, and the same
names pending. `Context.Balanced` says so for two contexts, and `stacks_balanced`
for every run, by the theory of `Frame`. What is special are includes
(`moves_includeTemplate`), which bind the arguments, open a sink and mark a name,
and undo all three on every exit.

Functions of the host can do what they like, so they have to be balanced
themselves (`Host.Balanced`), but only those that the run calls
(`Host.Reaches`). Templates are those that were read, in the cache as well
(`LoadedTemplate.IsRead`): they never assign to the name of the arguments.
-/

namespace Stencil

/-! ## Balanced contexts -/

/-- What the name of the arguments is bound to in the current scope itself. -/
def Context.ownArguments? (c : Context) : Option Value :=
  c.scopes.head?.bind fun scope => scope.bindings.get? argumentsName

/-- Whether a template of a name is being included. -/
def Context.IsPending (c : Context) (name : String) : Prop := name ∈ c.pending.getD []

/-- The stacks of `d` are those of `c`; only the top sink may have more text. -/
structure Context.Balanced (c d : Context) : Prop where
  scopes : d.scopes.map Scope.id = c.scopes.map Scope.id
  arguments : d.ownArguments? = c.ownArguments?
  sinksBelow : d.sinksBelow = c.sinksBelow
  sink : ∃ more, d.sink.text = c.sink.text ++ more
  silent : c.outputEnabled = false → d.sink = c.sink
  outputEnabled : d.outputEnabled = c.outputEnabled
  sourceFiles : d.sourceFiles = c.sourceFiles
  pending : ∀ name, d.IsPending name ↔ c.IsPending name

theorem Context.Balanced.refl (c : Context) : c.Balanced c where
  scopes := rfl
  arguments := rfl
  sinksBelow := rfl
  sink := ⟨"", by simp⟩
  silent _ := rfl
  outputEnabled := rfl
  sourceFiles := rfl
  pending _ := Iff.rfl

theorem Context.Balanced.trans {c d e : Context} (h : c.Balanced d) (k : d.Balanced e) :
    c.Balanced e where
  scopes := k.scopes.trans h.scopes
  arguments := k.arguments.trans h.arguments
  sinksBelow := k.sinksBelow.trans h.sinksBelow
  sink := by
    obtain ⟨m, hm⟩ := h.sink
    obtain ⟨n, hn⟩ := k.sink
    exact ⟨m ++ n, by rw [hn, hm, String.append_assoc]⟩
  silent hc := (k.silent (h.outputEnabled.trans hc)).trans (h.silent hc)
  outputEnabled := k.outputEnabled.trans h.outputEnabled
  sourceFiles := k.sourceFiles.trans h.sourceFiles
  pending name := (k.pending name).trans (h.pending name)

/-- A template that was read from a source. -/
def LoadedTemplate.IsRead (t : LoadedTemplate) : Prop :=
  ∃ options path source, Template.parse options path source = .ok t.template

/-- A template that was read, by what it was read from. -/
theorem LoadedTemplate.isRead_of_toBool {options : TemplateOptions} {path : Option String}
    {source : String} (h : (Template.parse options path source).toBool = true) (id : Nat) :
    LoadedTemplate.IsRead ⟨id, (Template.parse options path source).toOption.getD {}⟩ := by
  refine ⟨options, path, source, ?_⟩
  cases hp : Template.parse options path source with
  | ok t => rfl
  | error e =>
    rw [hp] at h
    cases h

/-- What runs of a template: that it was read, with its literals numbered. -/
def Template.IsLoaded (t : Template) : Prop :=
  ∃ kept : LoadedTemplate, kept.IsRead ∧ t = kept.numbered

/-- A template that was read binds nothing but what may be bound, unless it has errors. -/
theorem Template.IsLoaded.bindsOnly {t : Template} (h : t.IsLoaded) (he : t.hasErrors = false) :
    t.BindsOnly IsBindable := by
  obtain ⟨⟨id, read⟩, ⟨options, path, source, hread⟩, rfl⟩ := h
  refine Template.BindsOnly.numbered (Template.parse_bindsOnly hread ?_)
  cases read with
  | mk page => cases page <;> exact he

/-- The templates of the cache were read. -/
def State.CacheIsRead (s : State) : Prop :=
  ∀ path kept, s.cache.get? path = some kept → kept.IsRead

/-- From a state with a good cache, the stacks stay as they were and the cache
stays good. -/
def State.Balanced (s t : State) : Prop :=
  s.CacheIsRead → t.CacheIsRead ∧ s.context.Balanced t.context

theorem State.Balanced.refl (s : State) : s.Balanced s := fun h => ⟨h, .refl _⟩

theorem State.Balanced.trans {s t u : State} (h : s.Balanced t) (k : t.Balanced u) :
    s.Balanced u := fun hs =>
  have ⟨ht, hc⟩ := h hs
  have ⟨hu, hd⟩ := k ht
  ⟨hu, hc.trans hd⟩

/-! ## The steps of a run -/

theorem Sink.write_text (sink : Sink) (v : Value) (text : String) :
    (sink.write v text).text = sink.text ++ text := by
  unfold Sink.write
  split
  · next h => simp [h]
  · rfl

namespace Eval

theorem sequential_balanced : Sequential State.Balanced := ⟨.refl, .trans⟩

theorem moves_write (span : Option Span) (v : Value) : Moves State.Balanced (write span v) := by
  refine sequential_balanced.write fun s text ho _ hs =>
    ⟨hs, { Context.Balanced.refl s.context with sink := ?_, silent := ?_ }⟩
  · exact ⟨text, Sink.write_text _ v text⟩
  · intro h
    rw [ho] at h
    cases h

theorem moves_assign {name : String} (h : IsBindable name) (v : Value) (span : Option Span) :
    Moves State.Balanced (assign name v span) := by
  refine sequential_balanced.assign fun s scope below hsc hs =>
    ⟨hs, { Context.Balanced.refl s.context with scopes := ?_, arguments := ?_ }⟩
  · simp [hsc]
  · simpa [Context.ownArguments?, hsc] using Table.get?_set_of_ne (Ne.symm h) v scope.bindings

theorem moves_within {path : Option String} {body : Eval Value}
    (h : Moves State.Balanced body) : Moves State.Balanced (within path body) := by
  cases path with
  | none => exact h
  | some path =>
    intro s hs
    obtain ⟨ht, hb⟩ := h (s.inFiles (path :: s.context.sourceFiles)) hs
    rw [after_within, after_bind_of_ok (popSourceFile_run hb.sourceFiles)]
    exact ⟨ht, { hb with sourceFiles := rfl }⟩

end Eval

/-! ## Includes -/

theorem TemplateCache.addIfAbsent_fst (cache : TemplateCache) (path : String) (t : LoadedTemplate) :
    Table.get? path (cache.addIfAbsent path t).2 = some (cache.addIfAbsent path t).1 := by
  unfold TemplateCache.addIfAbsent
  split
  · assumption
  · exact Table.get?_set_self path t cache

theorem State.CacheIsRead.addIfAbsent {s : State} (hs : s.CacheIsRead) (path : String)
    {t : LoadedTemplate} (ht : t.IsRead) (store : Store) :
    State.CacheIsRead { s with store, cache := (s.cache.addIfAbsent path t).2 } := by
  intro other kept h
  unfold TemplateCache.addIfAbsent at h
  split at h
  · exact hs other kept h
  · by_cases ho : other = path
    · subst ho
      rw [Table.get?_set_self] at h
      cases h
      exact ht
    · rw [Table.get?_set_of_ne ho] at h
      exact hs other kept h

namespace Eval

theorem balanced_store (s : State) (store : Store) : s.Balanced { s with store } :=
  fun hs => ⟨hs, .refl _⟩

/-- Loading a template changes the cache, but puts nothing into it that was not read. -/
theorem loading_balanced : Loading State.Balanced where
  toSequential := sequential_balanced
  store := balanced_store
  ask question s hs := by
    rw [after_ask]
    exact ⟨hs, .refl _⟩
  keep hp _ _ hs := ⟨hs.addIfAbsent _ ⟨_, _, _, hp⟩ _, .refl _⟩

/-- What reading a template that is included has done where it returns: the answer of the loader was
parsed without errors, and the template is kept. -/
theorem readIncluded_ok {span : Option Span} {loader : Loader} {name path : String} {s u : State}
    {t : Template} (h : readIncluded span loader name path s = .ok t u) :
    ∃ text v template, ask (loader.load span path) s = .ok (some text) v ∧
      Template.parse (includeOptions v.context.options) (some path) text = .ok template ∧
      template.hasErrors = false ∧
      t = (v.cache.addIfAbsent path (template.load v.store).1).1.numbered ∧
      u = { v with
        store := (template.load v.store).2
        cache := (v.cache.addIfAbsent path (template.load v.store).1).2 } := by
  obtain ⟨answer, v, hask, h⟩ := bind_ok h
  cases answer with
  | none => cases h
  | some text =>
    simp only [bind_run, context_run] at h
    cases hp : Template.parse (includeOptions v.context.options) (some path) text with
    | error e =>
      rw [hp] at h
      cases h
    | ok template =>
      simp only [hp] at h
      cases he : template.hasErrors with
      | true => simp only [he, if_true, report_run, reduceCtorEq] at h
      | false =>
        simp only [he, Bool.false_eq_true, if_false] at h
        cases h
        exact ⟨text, v, template, hask, hp, he, rfl, rfl⟩

/-- The template that an include uses is the one that the cache holds. -/
theorem readIncluded_cached {span : Option Span} {loader : Loader} {name path : String}
    {s u : State} {t : Template} (h : readIncluded span loader name path s = .ok t u) :
    ∃ kept, u.cache.get? path = some kept ∧ t = kept.numbered := by
  obtain ⟨_, v, _, -, -, -, rfl, rfl⟩ := readIncluded_ok h
  exact ⟨_, TemplateCache.addIfAbsent_fst v.cache path _, rfl⟩

theorem includedTemplate_cached {span : Option Span} {loader : Loader} {name path : String}
    {s u : State} {t : Template} (h : includedTemplate span loader name path s = .ok t u) :
    ∃ kept, u.cache.get? path = some kept ∧ t = kept.numbered := by
  simp only [includedTemplate, bind_run, get_run] at h
  cases hk : s.cache.get? path with
  | some kept =>
    rw [hk] at h
    cases h
    exact ⟨kept, hk, rfl⟩
  | none =>
    rw [hk] at h
    exact readIncluded_cached h

end Eval

namespace Context

/-- A context in which the template of a name is being rendered into a sink of its
own. -/
def capturing (c : Context) (name : String) : Context :=
  { c with
    pending := some (name :: c.pending.getD [])
    sink := {}
    sinksBelow := c.sink :: c.sinksBelow }

/-- A context with the sink of another one on top again, and a name no longer
pending. -/
def released (d c : Context) (name : String) : Context :=
  { d with
    pending := d.pending.map (·.filter (· != name))
    sink := c.sink
    sinksBelow := c.sinksBelow }

/-- Rendering into a sink of its own is balanced once that sink is closed. -/
theorem Balanced.released {c d : Context} {name : String} (h : (c.capturing name).Balanced d)
    (hn : ¬ c.IsPending name) : c.Balanced (d.released c name) where
  scopes := h.scopes
  arguments := h.arguments
  sinksBelow := rfl
  sink := ⟨"", by simp [Context.released]⟩
  silent _ := rfl
  outputEnabled := h.outputEnabled
  sourceFiles := h.sourceFiles
  pending other := by
    have hp : d.IsPending other ↔ other = name ∨ c.IsPending other := by
      simpa [IsPending, capturing] using h.pending other
    have hr : (d.released c name).IsPending other ↔ d.IsPending other ∧ other ≠ name := by
      cases hd : d.pending <;> simp [IsPending, Context.released, hd]
    rw [hr, hp]
    constructor
    · rintro ⟨rfl | h, hne⟩
      · exact absurd rfl hne
      · exact h
    · exact fun h => ⟨.inr h, fun e => hn (e ▸ h)⟩

end Context

namespace Eval

/-- Rendering with a name pending and the output captured: the name is taken back
and the sink is closed, on every exit. -/
theorem balanced_capture {body : Eval Unit} (hb : Moves State.Balanced body) {s : State}
    {name : String} (hn : ¬ s.context.IsPending name) (span : Option Span) :
    s.Balanced (after (do enterPending span name; capture body (leavePending name)) s) := by
  intro hs
  obtain ⟨ht, hc⟩ := hb { s with context := s.context.capturing name } hs
  have e := calc
    after (do enterPending span name; capture body (leavePending name)) s
      = after (capture body (leavePending name)) _ := after_bind_of_ok (enterPending_run hn span)
    _ = after (do let _ ← popSink; leavePending name) (after (do pushSink; body) _) :=
      after_capture _ _ _
    _ = after (do let _ ← popSink; leavePending name)
          (after body { s with context := s.context.capturing name }) :=
      congrArg _ (after_bind_of_ok (pushSink_run _))
    _ = _ := after_bind_of_ok (popSink_run hc.sinksBelow)
  rw [e]
  exact ⟨ht, hc.released hn⟩

/-- The part of an include that runs with the arguments bound. -/
theorem moves_included {render : Template → Eval Unit}
    (hr : ∀ t, t.IsLoaded → Moves State.Balanced (render t)) (span : Option Span)
    (loader : Loader) (name path : String) :
    Moves State.Balanced (do
      let template ← includedTemplate span loader name path
      enterPending span name
      capture (render template) (leavePending name)) := by
  intro s hs
  refine sequential_balanced.bind_at (loading_balanced.includedTemplate span loader name path s)
    (fun template t ht => ?_) hs
  obtain ⟨kept, hk, rfl⟩ := includedTemplate_cached ht
  intro hcache
  have hloaded : kept.numbered.IsLoaded := ⟨kept, hcache path kept hk, rfl⟩
  by_cases hp : t.context.IsPending name
  · rw [after_bind_of_error (enterPending_run_pending hp span)]
    exact ⟨hcache, { Context.Balanced.refl t.context with pending := fun _ => Iff.rfl }⟩
  · exact balanced_capture (hr _ hloaded) hp span hcache

end Eval

/-- Bindings with the arguments that a scope had. -/
def Scope.restoring (scope : Scope) (bindings : Table Value) : Table Value :=
  match scope.bindings.get? argumentsName with
  | some previous => bindings.set argumentsName previous
  | none => bindings.erase argumentsName

theorem Scope.get?_restoring (scope : Scope) (bindings : Table Value) :
    (scope.restoring bindings).get? argumentsName = scope.bindings.get? argumentsName := by
  unfold restoring
  split
  · next previous h => rw [h, Table.get?_set_self]
  · next h => rw [h, Table.get?_erase_self]

namespace Context

/-- Binding the arguments in the current scope is balanced once the scope has its
own again. -/
theorem Balanced.restored {c d : Context} {scope : Scope} {below : List Scope}
    {bindings : Table Value} (hc : c.scopes = scope :: below)
    (h : Balanced { c with scopes := { scope with bindings } :: below } d) :
    c.Balanced (d.changeScope scope.id scope.restoring) where
  scopes := by
    have hids : d.scopes.map Scope.id = scope.id :: below.map Scope.id := h.scopes
    rw [hc, List.map_cons, ← hids]
    simp only [changeScope, List.map_map]
    refine List.map_congr_left fun other _ => ?_
    simp only [Function.comp_apply]
    split <;> rfl
  arguments := by
    have hids : d.scopes.map Scope.id = scope.id :: below.map Scope.id := h.scopes
    cases hd : d.scopes with
    | nil => simp [hd] at hids
    | cons top rest =>
      have ht : top.id = scope.id := by
        rw [hd] at hids
        exact (List.cons.inj hids).1
      simp [ownArguments?, changeScope, hc, hd, ht, Scope.get?_restoring]
  sinksBelow := h.sinksBelow
  sink := h.sink
  silent := h.silent
  outputEnabled := h.outputEnabled
  sourceFiles := h.sourceFiles
  pending := h.pending

end Context

namespace Eval

/-- What runs with the arguments bound, and puts them back. -/
theorem moves_withArguments {body : Eval Sink} (hb : Moves State.Balanced body)
    (arguments : List Value) (span : Option Span) :
    Moves State.Balanced (do
      let scope ← currentScope
      let list ← computed (Computation.newList arguments)
      assign argumentsName list span
      ensuring body (restoreArguments scope)) := by
  intro s hs
  cases hsc : s.context.scopes with
  | nil =>
    rw [after_bind_of_error (currentScope_run_nil hsc)]
    exact State.Balanced.refl s hs
  | cons scope below =>
    let list := s.store.newList arguments
    let bound : State := { s with
      store := list.2
      context := { s.context with
        scopes := { scope with bindings := scope.bindings.set argumentsName (.list list.1) } :: below } }
    obtain ⟨ht, hc⟩ := hb bound hs
    have e : after (do
        let scope ← currentScope
        let list ← computed (Computation.newList arguments)
        assign argumentsName list span
        ensuring body (restoreArguments scope)) s =
          after (restoreArguments scope) (after body bound) :=
      (after_bind_of_ok (currentScope_run hsc)).trans <|
        (after_bind_of_ok (newList_run arguments s)).trans <|
        (after_bind_of_ok (assign_run (s := { s with store := list.2 }) hsc _ _ span)).trans <|
        after_ensuring _ _ _
    rw [e]
    exact ⟨ht, hc.restored hsc⟩

theorem moves_includeTemplate {render : Template → Eval Unit}
    (hr : ∀ t, t.IsLoaded → Moves State.Balanced (render t)) (span : Option Span)
    (arguments : List Value) : Moves State.Balanced (includeTemplate render span arguments) := by
  have S := sequential_balanced
  refine S.bind S.context fun c => ?_
  cases arguments with
  | nil => exact S.report _ _
  | cons nameValue arguments =>
    refine S.bind (loading_balanced.includeName _ _) fun name => S.bind S.context fun d => ?_
    cases d.loader with
    | none => exact S.report _ _
    | some loader =>
      exact S.bind (loading_balanced.includePath _ _ _) fun path =>
        moves_withArguments (moves_included hr _ loader name path) arguments _

/-! ## Runs of templates -/

/-- The ways to run a template in a context. -/
inductive TemplateRun where
  | render
  | evaluate
  | frontMatter
deriving DecidableEq

/-- A run of a template. Rendering yields nothing. -/
def TemplateRun.run (host : Host) (fuel : Nat) (t : Template) : TemplateRun → Eval Value
  | .render => do
    Eval.render host fuel t
    return .null
  | .evaluate => evaluateIn host fuel t
  | .frontMatter => frontMatterIn host fuel t

end Eval

/-- The functions of the host under these names leave the stacks as they found
them. -/
def Host.Balanced (host : Host) (names : List String) : Prop :=
  ∀ name ∈ names, ∀ span arguments,
    Moves State.Balanced (host.contextual name span arguments)

/-- From a state, a run calls no functions of the host that see the context but
those of `names`: with any others in their place it goes the same way. -/
def Host.Reaches {α : Type} (host : Host) (names : List String) (run : Host → Eval α)
    (s : State) : Prop :=
  ∀ other : Host, other.plain = host.plain →
    (∀ name ∈ names, other.contextual name = host.contextual name) → run other s = run host s

/-- The host with idle functions outside of `names`. -/
def Host.restricted (host : Host) (names : List String) : Host :=
  { host with contextual := fun name =>
      if name ∈ names then host.contextual name else fun _ _ => return .null }

theorem Host.Balanced.restricted {host : Host} {names : List String} (h : host.Balanced names)
    (name : String) (span : Option Span) (arguments : List Value) :
    Moves State.Balanced ((host.restricted names).contextual name span arguments) := by
  unfold Host.restricted
  dsimp only
  split
  · next hn => exact h name hn span arguments
  · exact Eval.sequential_balanced.pure _

theorem Host.Reaches.restricted {α : Type} {host : Host} {names : List String}
    {run : Host → Eval α} {s : State} (h : host.Reaches names run s) :
    run (host.restricted names) s = run host s :=
  h _ rfl fun _ hn => if_pos hn

/-- As `State.Balanced`, with nothing written at all. -/
def State.Silent (s t : State) : Prop :=
  s.CacheIsRead → t.CacheIsRead ∧ s.context.Balanced t.context ∧ t.context.sink = s.context.sink

namespace Eval

theorem sequential_silent : Sequential State.Silent where
  refl _ hs := ⟨hs, .refl _, rfl⟩
  trans h k hs :=
    have ⟨ht, hc, he⟩ := h hs
    have ⟨hu, hd, hf⟩ := k ht
    ⟨hu, hc.trans hd, hf.trans he⟩

/-- The theory of `Frame` for balanced states. -/
theorem frame_balanced {host : Host}
    (h : ∀ name span arguments, Moves State.Balanced (host.contextual name span arguments)) :
    Frame host IsBindable Template.IsLoaded State.Balanced where
  toSequential := sequential_balanced
  store := balanced_store
  contextual := h
  write := moves_write
  assign hn := moves_assign hn
  includes hr := moves_includeTemplate hr
  within := moves_within
  binds ht := ht.bindsOnly

/-- An evaluation with output disabled extends no sink at all. -/
theorem moves_silently {body : Eval Value} (h : Moves State.Balanced body) :
    Moves State.Silent (silently body) := by
  intro s hs
  obtain ⟨ht, hc⟩ := h { s with context := { s.context with outputEnabled := false } } hs
  have e : after (silently body) s = after _ (after body _) :=
    (after_bind_of_ok (context_run s)).trans <|
      (after_bind_of_ok (changeContext_run _ s)).trans <| after_ensuring _ _ _
  rw [e]
  exact ⟨ht, { hc with outputEnabled := rfl, silent := fun _ => hc.silent rfl }, hc.silent rfl⟩

section Runs

variable {host : Host}
  (h : ∀ name span arguments, Moves State.Balanced (host.contextual name span arguments))
  (fuel : Nat) {t : Template} (ht : t.IsLoaded)

include h ht

theorem moves_evaluateIn : Moves State.Silent (evaluateIn host fuel t) := by
  intro s
  refine sequential_silent.bind_at (sequential_silent.checkErrors t s) fun _ u hok => ?_
  have hbinds := ht.bindsOnly (hasErrors_of_checkErrors hok)
  have hpage := (frame_balanced h).runPage (fun _ => (frame_balanced h).evaluate fuel) hbinds
  exact moves_silently hpage u

theorem moves_frontMatterIn : Moves State.Silent (frontMatterIn host fuel t) := by
  intro s
  refine sequential_silent.bind_at (sequential_silent.checkErrors t s) fun _ u hok => ?_
  have hbinds := ht.bindsOnly (hasErrors_of_checkErrors hok)
  split
  · exact sequential_silent.pure _ u
  · next node hn =>
    have hnode := (frame_balanced h).evaluate fuel (hbinds.frontMatter? hn)
    exact moves_silently (moves_within hnode) u

end Runs

/-- Running a template that was read, with functions of the host that are balanced as
far as the run reaches them, leaves the stacks of the context as they were, whether it
returns or fails; and only rendering writes. -/
theorem stacks_balanced {host : Host} {names : List String} (h : host.Balanced names) (fuel : Nat)
    {t : LoadedTemplate} (ht : t.IsRead) (way : TemplateRun) {s : State} (hs : s.CacheIsRead)
    (hr : host.Reaches names (fun host => way.run host fuel t.numbered) s) :
    s.context.Balanced (after (way.run host fuel t.numbered) s).context ∧
      (way ≠ .render →
        (after (way.run host fuel t.numbered) s).context.sink = s.context.sink) := by
  have hloaded : t.numbered.IsLoaded := ⟨t, ht, rfl⟩
  have e : after (way.run (host.restricted names) fuel t.numbered) s =
      after (way.run host fuel t.numbered) s := by
    unfold after
    rw [hr.restricted]
  rw [← e]
  cases way with
  | render =>
    have hrender := (frame_balanced h.restricted).render fuel hloaded
    have hm := sequential_balanced.bind hrender fun _ => sequential_balanced.pure Value.null
    exact ⟨(hm s hs).2, fun hne => absurd rfl hne⟩
  | evaluate =>
    obtain ⟨-, hc, hsink⟩ := moves_evaluateIn h.restricted fuel hloaded s hs
    exact ⟨hc, fun _ => hsink⟩
  | frontMatter =>
    obtain ⟨-, hc, hsink⟩ := moves_frontMatterIn h.restricted fuel hloaded s hs
    exact ⟨hc, fun _ => hsink⟩

/-- An include whose template fails: it calls what is not there. -/
theorem stacks_balanced_failure :
    let source := "a\x7b\x7b include(\"b\") \x7d\x7d"
    let t : LoadedTemplate := ⟨0, (Template.parse {} none source).toOption.getD {}⟩
    let s : State := {
      context := { loader := some (.function 0), scopes := [⟨5, [("$", .int 0 9)]⟩] }
      library := { cells := #[{ texts := [("b", some "b\x7b\x7b x() \x7d\x7d")] }] } }
    t.IsRead ∧ basicHost.Balanced [] ∧ s.CacheIsRead ∧
      basicHost.Reaches [] (fun host => TemplateRun.render.run host 20 t.numbered) s ∧
      (match TemplateRun.render.run basicHost 20 t.numbered s with
        | .ok .. => false
        | .error .. => true) = true ∧
      s.context.Balanced (after (TemplateRun.render.run basicHost 20 t.numbered) s).context := by
  intro source t s
  have hread : t.IsRead := LoadedTemplate.isRead_of_toBool (by decide +kernel) _
  have hbalanced : basicHost.Balanced [] := fun _ h => nomatch h
  have hcache : s.CacheIsRead := fun _ _ h => by cases h
  have hfails : (match TemplateRun.render.run basicHost 20 t.numbered s with
      | .ok .. => false
      | .error .. => true) = true := by
    decide +kernel
  have hreaches : basicHost.Reaches [] (fun host => TemplateRun.render.run host 20 t.numbered) s := by
    intro other _ _
    subst source t s
    cbv
  exact ⟨hread, hbalanced, hcache, hreaches, hfails,
    (stacks_balanced hbalanced 20 hread .render hcache hreaches).1⟩

end Eval

end Stencil

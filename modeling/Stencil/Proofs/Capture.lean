import Stencil.Proofs.Twins

/-!
# An include is a captured rendering in place

An include finds its template, binds its arguments in the current scope, marks its name
as pending and renders the template into a sink of its own. `include_captures` compares
that with rendering the template right there: the call yields exactly the text that the
rendering in place appends to the top sink, fails exactly if it fails, and leaves what
it leaves, but for the sinks and the arguments of the current scope, which are as they
were before the call.

Both renderings are twins: the captured one starts with an empty sink on top of those
that the other one writes to (`Captures`).
-/

namespace Stencil

/-! ## What was captured -/

/-- If a sink holds a sole value that is a text, that is its text. -/
def Sink.Faithful (sink : Sink) : Prop := ∀ n text, sink.sole = some (.text n text) → text = sink.text

theorem Sink.Faithful.write {sink : Sink} (h : sink.Faithful) {store : Store} {v : Value}
    {text : String} (hd : store.display v = .ok text) : (sink.write v text).Faithful := by
  intro n t hsole
  unfold Sink.write at hsole ⊢
  split at hsole
  · next he => simpa only [if_pos he] using h n t hsole
  · next he =>
    simp only [if_neg he]
    split at hsole
    · next hempty =>
      cases hsole
      -- a text shows itself
      have ht : store.display (.text n t) = .ok t := rfl
      rw [ht] at hd
      cases hd
      rw [hempty, String.empty_append]
    · cases hsole

/-- The value of a sink is a text, that of the sink; no list changes. -/
theorem Sink.value_run {sink : Sink} (h : sink.Faithful) (store : Store) :
    ∃ n store', sink.value store = .ok (.text n sink.text) store' ∧
      ∀ id, store'.contents id = store.contents id := by
  have hspelling : ∃ n store', Computation.newSpelling sink.text store =
      .ok (.text n sink.text) store' ∧ ∀ id, store'.contents id = store.contents id := by
    simp only [Computation.newSpelling, modifyGet, MonadStateOf.modifyGet, EStateM.modifyGet,
      Store.newSpelling]
    split
    · exact ⟨0, store, rfl, fun _ => rfl⟩
    · exact ⟨_, _, rfl, fun _ => rfl⟩
  have hknown : ∃ n store', (pure (.text 0 sink.text) : Computation Value) store =
      .ok (.text n sink.text) store' ∧ ∀ id, store'.contents id = store.contents id :=
    ⟨0, store, rfl, fun _ => rfl⟩
  unfold Sink.value
  cases hs : sink.sole with
  | none => exact hspelling
  | some v =>
    cases v with
    | text n t =>
      rw [h n t hs]
      exact ⟨n, store, rfl, fun _ => rfl⟩
    | bool => exact hknown
    | object => exact hknown
    | function id f =>
      cases f with
      | «include» => exact hknown
      | _ => exact hspelling
    | _ => exact hspelling

/-- Of a captured rendering and one in place: below the sink of the one are the sinks of
the other, to whose top sink the same text was appended. -/
def Captures (top : Sink) (below : List Sink) (x : Sink) (xs : List Sink) (y : Sink)
    (ys : List Sink) : Prop :=
  xs = top :: below ∧ ys = below ∧ y.text = top.text ++ x.text ∧ x.Faithful

theorem bottomWrites_captures (top : Sink) (below : List Sink) :
    BottomWrites (Captures top below) := by
  rintro x y xs ys store v text ⟨hxs, hys, htext, hx⟩ hd
  refine ⟨hxs, hys, ?_, hx.write hd⟩
  rw [Sink.write_text, Sink.write_text, htext, String.append_assoc]

theorem twinning_captures {host : Host} {top : Sink} {below : List Sink}
    (h : host.Respects True (Captures top below) Eq) : Twinning True host (Captures top below) Eq where
  toRespects := h
  write := bottomWrites_captures top below
  resolve loader _ _ hp name := by
    rw [hp trivial]
    exact .refl _
  load loader _ _ hp path := by
    rw [hp trivial]
    exact .refl _

/-! ## Including and rendering in place -/

/-- The bindings of a scope with its own arguments put back, for the other names. -/
theorem Scope.get?_restoring_of_ne (scope : Scope) (bindings : Table Value) {name : String}
    (h : name ≠ argumentsName) : (scope.restoring bindings).get? name = bindings.get? name := by
  unfold restoring
  split
  · exact Table.get?_set_of_ne h _ _
  · exact Table.get?_erase_of_ne h _

/-- `t` is `u` with the sinks of `s`, with the arguments of the current scope of `s` as they
were there, and with a name no longer pending. -/
structure State.Released (name : String) (s u t : State) : Prop where
  sinks : t.context.sinks = s.context.sinks
  scopes {scope : Scope} : s.context.scopes.head? = some scope →
    t.context.scopes = (u.context.changeScope scope.id scope.restoring).scopes
  pending (other : String) : t.context.IsPending other ↔ u.context.IsPending other ∧ other ≠ name
  outputEnabled : t.context.outputEnabled = u.context.outputEnabled
  sourceFiles : t.context.sourceFiles = u.context.sourceFiles
  contents (id : ListId) : t.store.contents id = u.store.contents id
  cache : t.cache = u.cache
  library : t.library = u.library

namespace Eval

/-- A state in which a sink of its own has been opened for what is captured. -/
def capturingIn (s : State) : State :=
  { s with context := { s.context with
      sink := {}, sinksBelow := s.context.sink :: s.context.sinksBelow } }

section Captured

variable {body : Eval Unit} {name : String} {c : Context} {s v : State}
  (hsinks : v.context.sinksBelow = c.sink :: c.sinksBelow)

include hsinks

/-- Behind what was captured, the sinks below are on top again. -/
theorem capture_of_ok (h : body (capturingIn s) = .ok () v) :
    capture body (leavePending name) s =
      .ok v.context.sink { v with context := v.context.released c name } := by
  have hb : (do pushSink; body : Eval Unit) s = .ok () v := h
  simp only [capture, hb, bind_run, popSink_run hsinks, leavePending, changeContext_run, pure_run,
    Context.released]

theorem capture_of_error {x : Failure} (h : body (capturingIn s) = .error x v) :
    capture body (leavePending name) s =
      .error x { v with context := v.context.released c name } := by
  have hb : (do pushSink; body : Eval Unit) s = .error x v := h
  simp only [capture, hb, bind_run, popSink_run hsinks, leavePending, changeContext_run,
    Context.released]

end Captured

end Eval

/-- A captured rendering leaves what its twin leaves, once the sinks, the name and the
arguments are put back. -/
theorem State.Twins.released {s u v : State} {name : String} {scope : Scope} {below : List Scope}
    (hs : s.context.scopes = scope :: below)
    (h : v.Twins (Captures s.context.sink s.context.sinksBelow) Eq 0 u) {store : Store}
    (hstore : ∀ id, store.contents id = v.store.contents id) :
    State.Released name s u
      { v with
        context := (v.context.released s.context name).changeScope scope.id scope.restoring
        store } where
  sinks := rfl
  scopes hscope := by
    rw [hs] at hscope
    cases hscope
    rw [h.context_eq]
    rfl
  pending other := by
    rw [h.context_eq]
    show (v.context.released s.context name).IsPending other ↔ v.context.IsPending other ∧ other ≠ name
    cases hv : v.context.pending <;> simp [Context.IsPending, Context.released, hv]
  outputEnabled := by
    rw [h.context_eq]
    rfl
  sourceFiles := by
    rw [h.context_eq]
    rfl
  contents id := by
    rw [h.store_eq]
    exact hstore id
  cache := h.cache_eq.symm
  library := h.library

/-- A state in which a name is marked as pending. -/
def State.marking (s : State) (name : String) : State :=
  { s with context := { s.context with pending := some (name :: s.context.pending.getD []) } }

/-- Calling an include whose template was found and whose name is not pending is rendering
that template in place, captured, with the arguments bound in the current scope: if the
rendering in place returns, the call yields the text that it appended to the top sink,
and if it fails, the call fails in the same way; either way the sinks and the arguments
are those before the call. -/
theorem include_captures {host : Host} (hh : ∀ top below, host.Respects True (Captures top below) Eq)
    (fuel id : Nat) {span : Option Span} {arguments : List Value} {s s₁ : State} {t : Template}
    (h : Eval.findIncluded span arguments s = .ok t s₁)
    (hn : ¬ s.context.IsPending (Eval.nameAmong s arguments)) :
    s.Binds arguments s₁ ∧
      match Eval.render host fuel t (s₁.marking (Eval.nameAmong s arguments)) with
      | .ok _ u => ∃ w n v, u.context.sink.text = s.context.sink.text ++ w ∧
          u.context.sinksBelow = s.context.sinksBelow ∧
          Eval.call host (Eval.render host fuel) span (.function id .include) arguments s =
            .ok (.text n w) v ∧
          State.Released (Eval.nameAmong s arguments) s u v
      | .error x u => ∃ v,
          Eval.call host (Eval.render host fuel) span (.function id .include) arguments s =
            .error x v ∧
          State.Released (Eval.nameAmong s arguments) s u v := by
  obtain ⟨hbinds, scope, below, hscopes, hinclude⟩ := Eval.findIncluded_ok h
  refine ⟨hbinds, ?_⟩
  obtain ⟨_, _, _, -, -, hcontext⟩ := hbinds
  generalize Eval.nameAmong s arguments = name at hn hinclude ⊢
  have hcall : Eval.call host (Eval.render host fuel) span (.function id .include) arguments s =
      (do
        let sink ← Eval.ensuring (Eval.capture (Eval.render host fuel t) (Eval.leavePending name))
          (Eval.restoreArguments scope)
        Eval.computed sink.value : Eval Value) (s₁.marking name) := by
    have hn' : name ∉ s₁.context.pending.getD [] := by
      rw [hcontext]
      exact hn
    show (Eval.includeTemplate (Eval.render host fuel) span arguments >>= fun sink =>
      Eval.computed sink.value) s = _
    rw [bind_run, bind_run, hinclude]
    simp only [Eval.ensuring, bind_of_ok (Eval.enterPending_run hn' _), State.marking]
  have hrestore (u : State) : Eval.restoreArguments scope u =
      .ok () { u with context := u.context.changeScope scope.id scope.restoring } := rfl
  have hstart : State.Twins (Captures s.context.sink s.context.sinksBelow) Eq 0
      (Eval.capturingIn (s₁.marking name)) (s₁.marking name) :=
    { store_eq := rfl
      cache_eq := rfl
      context_eq := rfl
      library := rfl
      sinks := by
        show SinksAlike _ 0 _ (s₁.context.sink :: s₁.context.sinksBelow) s₁.context.sink
          s₁.context.sinksBelow
        rw [hcontext]
        exact .bottom ⟨rfl, rfl, String.append_empty.symm, fun _ _ hsole => by cases hsole⟩ }
  have hrender := (twinning_captures (hh _ _)).render fuel 0 t _ _ hstart
  rw [hcall, bind_run]
  obtain ⟨_, v, u, e, e', htwins⟩ | ⟨x, y, v, u, e, e', hx, htwins⟩ := hrender.cases_at
  · obtain ⟨hxs, hys, htext, hfaithful⟩ := htwins.sinks.base
    obtain ⟨n, store, hvalue, hstore⟩ := Sink.value_run hfaithful v.store
    rw [e']
    refine ⟨v.context.sink.text, n, _, htext, hys, ?_, htwins.released hscopes hstore⟩
    simp only [Eval.ensuring, Eval.capture_of_ok hxs e, hrestore, Eval.computed, Eval.compute_run,
      hvalue]
  · obtain ⟨hxs, -⟩ := htwins.sinks.base
    obtain rfl := hx.eq trivial
    rw [e']
    refine ⟨_, ?_, htwins.released hscopes fun _ => rfl⟩
    simp only [Eval.ensuring, Eval.capture_of_error hxs e, hrestore]

/-- An include in a page that has written something: the template goes through its
arguments, and the arguments around the call come back. -/
theorem include_captures_twice :
    let s : State :=
      { context :=
          { loader := some (.function 0)
            scopes := [⟨5, [("$", .int 0 9)]⟩]
            sink := ⟨"x", none⟩ }
        library :=
          { cells := #[{ texts := [("b", some "<{{ for v in $ }}{{ v + v }};{{ end }}>")] }] } }
    let arguments : List Value := [.text 0 " b ", .int 0 7, .int 0 8]
    (∀ top below, quietHost.Respects True (Captures top below) Eq) ∧
      ¬ s.context.IsPending (Eval.nameAmong s arguments) ∧
      (∃ t s₁, Eval.findIncluded none arguments s = .ok t s₁ ∧ s.Binds arguments s₁ ∧
        match Eval.render quietHost 20 t (s₁.marking (Eval.nameAmong s arguments)) with
        | .ok _ u => ∃ w n v, u.context.sink.text = s.context.sink.text ++ w ∧
            u.context.sinksBelow = s.context.sinksBelow ∧
            Eval.call quietHost (Eval.render quietHost 20) none (.function 0 .include) arguments s =
              .ok (.text n w) v ∧
            State.Released (Eval.nameAmong s arguments) s u v
        | .error x u => ∃ v,
            Eval.call quietHost (Eval.render quietHost 20) none (.function 0 .include) arguments s =
              .error x v ∧
            State.Released (Eval.nameAmong s arguments) s u v) ∧
      (match Eval.call quietHost (Eval.render quietHost 20) none (.function 0 .include) arguments s with
        | .ok (.text _ w) _ => w
        | _ => "") = "<14;16;>" := by
  intro s arguments
  have hh (top : Sink) (below : List Sink) : quietHost.Respects True (Captures top below) Eq :=
    quietHost_respects (bottomWrites_captures top below)
  have hfound : (match Eval.findIncluded none arguments s with
      | .ok .. => true
      | .error .. => false) = true := by
    decide +kernel
  have hn : ¬ s.context.IsPending (Eval.nameAmong s arguments) := fun h => nomatch h
  refine ⟨hh, hn, ?_, by decide +kernel⟩
  cases h : Eval.findIncluded none arguments s with
  | error x u =>
    rw [h] at hfound
    cases hfound
  | ok t s₁ => exact ⟨t, s₁, rfl, include_captures hh 20 0 h hn⟩

end Stencil

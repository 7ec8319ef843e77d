import Stencil.Proofs.Simulation

/-!
# States that differ below their sinks

Twins are states that differ in nothing but a part of their sinks: what an include
opens on top is the same, and what lies below is related by a given relation
(`SinksAlike`). As only the top sink is ever written, and an include closes the sink
that it opened, twins stay twins (`Twinning.evaluate`, `Twinning.render`), provided
the relation at the bottom survives a write and functions of the host neither look
at the sinks nor close one that they did not open (`Twinning`).

The number of sinks on top changes with each include, so the twins of every number
are looked at together.
-/

namespace Stencil

/-- Sinks of which the top `k` are the same and the ones below are related. -/
inductive SinksAlike (B : Sink → List Sink → Sink → List Sink → Prop) :
    Nat → Sink → List Sink → Sink → List Sink → Prop
  | bottom {x y : Sink} {xs ys : List Sink} : B x xs y ys → SinksAlike B 0 x xs y ys
  | above {k : Nat} {x y : Sink} {xs ys : List Sink} (z : Sink) : SinksAlike B k x xs y ys →
      SinksAlike B (k + 1) z (x :: xs) z (y :: ys)

namespace SinksAlike

variable {B : Sink → List Sink → Sink → List Sink → Prop} {k : Nat} {x y : Sink} {xs ys : List Sink}

theorem write {v : Value} {text : String} (h : SinksAlike B k x xs y ys)
    (hB : ∀ {x xs y ys}, B x xs y ys → B (x.write v text) xs (y.write v text) ys) :
    SinksAlike B k (x.write v text) xs (y.write v text) ys := by
  cases h with
  | bottom h => exact .bottom (hB h)
  | above z h => exact .above _ h

theorem base (h : SinksAlike B 0 x xs y ys) : B x xs y ys := by
  cases h with
  | bottom h => exact h

theorem pop (h : SinksAlike B (k + 1) x xs y ys) :
    x = y ∧ ∃ x' xs' y' ys', xs = x' :: xs' ∧ ys = y' :: ys' ∧ SinksAlike B k x' xs' y' ys' := by
  cases h with
  | above z h => exact ⟨rfl, _, _, _, _, rfl, rfl, h⟩

end SinksAlike

/-- States that differ in their sinks below the top `k` and in what their loaders answer
from. -/
structure State.Twins (B : Sink → List Sink → Sink → List Sink → Prop)
    (L : Library → Library → Prop) (k : Nat) (s t : State) : Prop where
  store_eq : t.store = s.store
  cache_eq : t.cache = s.cache
  context_eq : t.context = s.context.withSinks t.context
  library : L s.library t.library
  sinks : SinksAlike B k s.context.sink s.context.sinksBelow t.context.sink t.context.sinksBelow

open Eval

/-- Functions of a host that leave twins as twins. Those that are given a description of
the context do not tell those of twins apart. -/
structure Host.Respects (host : Host) (placed : Prop)
    (B : Sink → List Sink → Sink → List Sink → Prop) (L : Library → Library → Prop) : Prop where
  contextual (k : Nat) (name : String) {span span' : Option Span} : (placed → span = span') →
    ∀ arguments, Matches placed (State.Twins B L k) (host.contextual name span arguments)
      (host.contextual name span' arguments)
  invoked (k : Nat) {s t : State} : s.Twins B L k t → ∀ {span span' : Option Span},
    (placed → span = span') → ∀ name list,
      host.plain name [.text 0 (s.context.description s.cache), placeValue span, list] =
        host.plain name [.text 0 (t.context.description t.cache), placeValue span', list]

/-- A relation at the bottom that survives what is written to both sinks. -/
def BottomWrites (B : Sink → List Sink → Sink → List Sink → Prop) : Prop :=
  ∀ {x y : Sink} {xs ys : List Sink} {store : Store} {v : Value} {text : String},
    B x xs y ys → store.display v = .ok text → B (x.write v text) xs (y.write v text) ys

/-- What has to be known for twins to stay twins: of the relation at the bottom, of the
answers of loaders, and of the functions of a host. -/
structure Twinning (placed : Prop) (host : Host) (B : Sink → List Sink → Sink → List Sink → Prop)
    (L : Library → Library → Prop) : Prop extends host.Respects placed B L where
  write : BottomWrites B
  resolve (loader : Loader) {span span' : Option Span} : (placed → span = span') →
    ∀ name, Matches placed L (loader.resolve span name) (loader.resolve span' name)
  load (loader : Loader) {span span' : Option Span} : (placed → span = span') →
    ∀ path, Matches placed L (loader.load span path) (loader.load span' path)

namespace State.Twins

variable {B : Sink → List Sink → Sink → List Sink → Prop} {L : Library → Library → Prop} {k : Nat}
  {s t : State} (h : s.Twins B L k t)

include h

/-- A change of both contexts that leaves their sinks. -/
theorem changeContext {f : Context → Context} (hf : ∀ c d, f (c.withSinks d) = (f c).withSinks d)
    (hsink : ∀ c, (f c).sink = c.sink) (hbelow : ∀ c, (f c).sinksBelow = c.sinksBelow) :
    State.Twins B L k { s with context := f s.context } { t with context := f t.context } where
  store_eq := h.store_eq
  cache_eq := h.cache_eq
  context_eq := by
    have e : (f s.context).withSinks (f t.context) = (f s.context).withSinks t.context := by
      simp only [Context.withSinks, hsink, hbelow]
    show f t.context = (f s.context).withSinks (f t.context)
    rw [e, ← hf, ← h.context_eq]
  library := h.library
  sinks := by
    simp only [hsink, hbelow]
    exact h.sinks

theorem setStore (store : Store) : State.Twins B L k { s with store } { t with store } where
  store_eq := rfl
  cache_eq := h.cache_eq
  context_eq := h.context_eq
  library := h.library
  sinks := h.sinks

theorem setCache (cache : TemplateCache) : State.Twins B L k { s with cache } { t with cache } where
  store_eq := h.store_eq
  cache_eq := rfl
  context_eq := h.context_eq
  library := h.library
  sinks := h.sinks

theorem setLibrary {l l' : Library} (hl : L l l') :
    State.Twins B L k { s with library := l } { t with library := l' } where
  store_eq := h.store_eq
  cache_eq := h.cache_eq
  context_eq := h.context_eq
  library := hl
  sinks := h.sinks

/-- What is written is written on both sides. -/
theorem wrote {v : Value} {text : String}
    (hB : ∀ {x xs y ys}, B x xs y ys → B (x.write v text) xs (y.write v text) ys) :
    (s.wrote v text).Twins B L k (t.wrote v text) where
  store_eq := h.store_eq
  cache_eq := h.cache_eq
  context_eq := congrArg (fun c : Context => { c with sink := t.context.sink.write v text }) h.context_eq
  library := h.library
  sinks := h.sinks.write hB

/-- A new sink on top is the same on both sides. -/
theorem pushSink : State.Twins B L (k + 1)
    { s with context := { s.context with
        sink := {}, sinksBelow := s.context.sink :: s.context.sinksBelow } }
    { t with context := { t.context with
        sink := {}, sinksBelow := t.context.sink :: t.context.sinksBelow } } where
  store_eq := h.store_eq
  cache_eq := h.cache_eq
  context_eq := congrArg (fun c : Context =>
    { c with sink := {}, sinksBelow := t.context.sink :: t.context.sinksBelow }) h.context_eq
  library := h.library
  sinks := .above _ h.sinks

end State.Twins

namespace Eval

variable {B : Sink → List Sink → Sink → List Sink → Prop} {L : Library → Library → Prop} {k : Nat}

/-- Closing a sink that is the same on both sides yields the same and leaves twins. -/
theorem popSink_twins {s t : State} (h : s.Twins B L (k + 1) t) :
    ∃ sink u v, popSink s = .ok sink u ∧ popSink t = .ok sink v ∧ u.Twins B L k v := by
  obtain ⟨htop, x, xs, y, ys, hx, hy, hs⟩ := h.sinks.pop
  rw [popSink_run hx, popSink_run hy, htop]
  refine ⟨_, _, _, rfl, rfl, ?_⟩
  exact
    { store_eq := h.store_eq
      cache_eq := h.cache_eq
      context_eq := congrArg (fun c : Context => { c with sink := y, sinksBelow := ys }) h.context_eq
      library := h.library
      sinks := hs }

/-- What runs in a sink of its own. -/
theorem matches_capture {placed : Prop} {body body' : Eval Unit}
    (h : Matches placed (State.Twins B L (k + 1)) body body') (name : String) :
    Matches placed (State.Twins B L k) (capture body (leavePending name))
      (capture body' (leavePending name)) := by
  intro s t hs
  have hbody : Alike placed (State.Twins B L (k + 1)) ((do pushSink; body : Eval Unit) s)
      ((do pushSink; body' : Eval Unit) t) := h _ _ hs.pushSink
  refine hbody.capture (fun u v hu => .inl (popSink_twins hu)) fun u v hu => ?_
  exact .ok (hu.changeContext
    (f := fun c => { c with pending := c.pending.map (·.filter (· != name)) })
    (fun _ _ => rfl) (fun _ => rfl) fun _ => rfl)

/-- A question that is answered alike. -/
theorem matches_ask {α : Type} {placed : Prop} {question question' : Lookup α}
    (h : Matches placed L question question') :
    Matches placed (State.Twins B L k) (ask question) (ask question') := by
  intro s t hs
  simp only [ask]
  obtain ⟨a, l, l', e, e', hl⟩ | ⟨x, y, l, l', e, e', hx, hl⟩ := (h _ _ hs.library).cases_at
  · rw [e, e']
    exact .ok (hs.setLibrary hl)
  · rw [e, e']
    exact .error hx (hs.setLibrary hl)

end Eval

/-- The theory of `Simulation` for twins. -/
theorem simulation_twins {placed : Prop} {host : Host}
    {B : Sink → List Sink → Sink → List Sink → Prop} {L : Library → Library → Prop}
    (hh : host.Respects placed B L) (hw : BottomWrites B) (k : Nat) :
    Simulation placed host (State.Twins B L k) where
  store_eq h := h.store_eq
  context_eq h := h.context_eq
  setStore h := h.setStore
  setScopes h scopes := h.changeContext (f := ({ · with scopes })) (fun _ _ => rfl)
    (fun _ => rfl) fun _ => rfl
  setFiles h files := h.changeContext (f := ({ · with sourceFiles := files })) (fun _ _ => rfl)
    (fun _ => rfl) fun _ => rfl
  setEnabled h enabled := h.changeContext (f := ({ · with outputEnabled := enabled }))
    (fun _ _ => rfl) (fun _ => rfl) fun _ => rfl
  wrote h hd := h.wrote fun hB => hw hB hd
  contextual := hh.contextual k
  invoked := hh.invoked k

namespace Twinning

variable {placed : Prop} {host : Host} {B : Sink → List Sink → Sink → List Sink → Prop}
  {L : Library → Library → Prop} (T : Twinning placed host B L)

include T

theorem simulation (k : Nat) : Simulation placed host (State.Twins B L k) :=
  simulation_twins T.toRespects T.write k

/-- A name that is marked as pending, or refused. -/
theorem enterPending (k : Nat) (name : String) {span span' : Option Span}
    (hp : placed → span = span') :
    Matches placed (State.Twins B L k) (enterPending span name) (enterPending span' name) := by
  intro s t h
  have hpending : t.context.pending = s.context.pending := by
    rw [h.context_eq]
    rfl
  by_cases hn : name ∈ s.context.pending.getD []
  · have hn' : name ∈ t.context.pending.getD [] := hpending ▸ hn
    rw [enterPending_run_pending hn, enterPending_run_pending hn']
    refine .error ⟨?_, fun k => ?_⟩ ?_
    · simp only [Context.pendingNames, hpending, Failure.unplaced]
    · simp only [Context.pendingNames, hpending, (T.simulation _).locate h hp k]
    · rw [hpending]
      exact h.changeContext (f := ({ · with pending := some (s.context.pending.getD []) }))
        (fun _ _ => rfl) (fun _ => rfl) fun _ => rfl
  · have hn' : name ∉ t.context.pending.getD [] := hpending ▸ hn
    rw [enterPending_run hn, enterPending_run hn', hpending]
    exact .ok (h.changeContext (f := ({ · with pending := some (name :: s.context.pending.getD []) }))
      (fun _ _ => rfl) (fun _ => rfl) fun _ => rfl)

/-- Twins evaluate a node alike. -/
theorem evaluate (fuel k : Nat) {node node' : Node} (h : node.Like placed node') :
    Matches placed (State.Twins B L k) (evaluate host fuel node) (evaluate host fuel node') := by
  rw [evaluate_eq, includeTemplate_eq]
  refine Simulation.evaluateWith T.simulation (fun hr k _ _ hp arguments s t hs => ?_) fuel k h
  exact (T.simulation k).includeWith hp hs arguments
    (fun loader _ _ _ hp name => matches_ask (T.resolve loader hp name))
    (fun loader _ _ _ hp name path => (T.simulation k).includedTemplate (fun h => h.cache_eq)
      (fun h => h.setCache) (matches_ask (T.load loader hp path)) hp name)
    fun _ _ _ _ hp template => (T.enterPending k _ hp).bind fun _ => matches_capture (hr (k + 1) template) _

/-- Twins render a template alike. -/
theorem render (fuel k : Nat) (t : Template) :
    Matches placed (State.Twins B L k) (render host fuel t) (render host fuel t) :=
  (T.simulation k).renderWith (fun n => T.evaluate fuel k (.refl n)) t

end Twinning

/-! ## A host that respects twins -/

/-- The basic host without the functions that tell how high the stacks are or where they
are called, and without the one that may fail with a sink left open. -/
def quietHost : Host where
  plain name arguments := if name = "concat" then return .null else BasicHost.plain name arguments
  contextual name span arguments :=
    if name ∈ ["depths", "span_of", "capture"] then return .null
    else BasicHost.contextual name span arguments

theorem quietHost_plain (name : String) (a b c d list : Value) :
    quietHost.plain name [a, b, list] = quietHost.plain name [c, d, list] := by
  by_cases hn : name = "concat"
  · simp only [quietHost, if_pos hn]
  · simp only [quietHost, if_neg hn]
    unfold BasicHost.plain
    split
    case h_4 => exact absurd rfl hn
    all_goals rfl

theorem quietHost_respects {placed : Prop} {B : Sink → List Sink → Sink → List Sink → Prop}
    {L : Library → Library → Prop} (hw : BottomWrites B) : quietHost.Respects placed B L where
  invoked k _ _ _ _ _ _ name list := quietHost_plain name _ _ _ _ list
  contextual k name span span' hp arguments := by
    -- a function that is idle gives the theory of twins for the basic ones
    have hidle : (⟨fun _ _ => return .null, fun _ _ _ => return .null⟩ : Host).Respects placed B L :=
      ⟨fun _ _ _ _ _ _ => .pure _, fun _ _ _ _ _ _ _ _ _ => rfl⟩
    have S := simulation_twins hidle hw k
    have hwrite : Matches placed (State.Twins B L k) (BasicHost.writeAll span arguments)
        (BasicHost.writeAll span' arguments) := .forM (fun v => S.write v hp) arguments
    by_cases hn : name ∈ ["depths", "span_of", "capture"]
    · simp only [quietHost, if_pos hn]
      exact .pure _
    simp only [quietHost, if_neg hn]
    unfold BasicHost.contextual
    split
    · intro s t h
      have hfile : t.context.sourceFile? = s.context.sourceFile? := congrArg List.head? (S.files h)
      simp only [bind_run, context_run, hfile]
      cases s.context.sourceFile? <;> exact .ok h
    · intro s t h
      have hpending : t.context.pendingNames = s.context.pendingNames := by
        rw [h.context_eq]
        rfl
      simp only [bind_run, context_run, hpending]
      exact S.computed _ s t h
    · exact absurd (by decide) hn
    · exact absurd (by decide) hn
    · exact hwrite.bind fun _ => .pure _
    · exact absurd (by decide) hn
    · exact (S.pushScope []).bind fun _ => .pure _
    · exact S.popScope.bind fun _ => .pure _
    · exact fun s t h => .ok (h.changeContext (f := ({ · with outputEnabled := false }))
        (fun _ _ => rfl) (fun _ => rfl) fun _ => rfl)
    · exact .pure _

/-- The functions of the quiet host move by a relation if what they do to the state does. -/
theorem quietHost_moves {R : State → State → Prop} (S : Sequential R)
    (hstore : ∀ (s : State) store, R s { s with store })
    (hscopes : ∀ (s : State) scopes, R s (s.inScopes scopes))
    (henabled : ∀ (s : State) enabled, R s (s.enabling enabled))
    (hwrote : ∀ (s : State) v text, R s (s.wrote v text)) (name : String) (span : Option Span)
    (arguments : List Value) : Moves R (quietHost.contextual name span arguments) := by
  have hlist (items : List Value) : Moves R (BasicHost.newList items) :=
    S.compute_of_store hstore (fun e => S.failWith e) (Computation.newList items)
  have hwrite (v : Value) : Moves R (write span v) := S.write fun s text _ _ => hwrote s v text
  by_cases hn : name ∈ ["depths", "span_of", "capture"]
  · simp only [quietHost, if_pos hn]
    exact S.pure _
  simp only [quietHost, if_neg hn]
  unfold BasicHost.contextual
  split
  · refine S.bind S.context fun c => ?_
    split <;> exact S.pure _
  · exact S.bind S.context fun _ => hlist _
  · exact absurd (by decide) hn
  · exact absurd (by decide) hn
  · exact S.bind (S.forM hwrite _) fun _ => S.pure _
  · exact absurd (by decide) hn
  · exact fun s => S.trans (hstore s s.store.newNumber.2) (hscopes _ _)
  · refine S.bind (fun s => ?_) fun _ => S.pure _
    cases hs : s.context.scopes with
    | nil =>
      simp only [after, popScope, bind_run, context_run, hs, throw_run]
      exact S.refl s
    | cons scope below =>
      simp only [after, popScope, bind_run, context_run, hs, changeContext_run, pure_run]
      exact hscopes s below
  · exact fun s => henabled s false
  · exact S.pure _

end Stencil

import Stencil.Proofs.Coupling

/-!
# The basic host in coupled runs

The functions of the basic host that see the context write, open sinks and scopes, and turn output
off. They go together in coupled runs whose states stay related when that is done on both sides.
-/

namespace Stencil.Coupling

open Eval

variable {ι : Type} {host : Host} {P : Pairing ι}

section Scopes

variable (C : Coupling host P) {i : ι} (hscopes : ∀ {s t}, P.states i s t → ∀ {as bs},
  List.Forall₂ (Scope.Rel P.value) as bs → P.states i (s.inScopes as) (t.inScopes bs))

include C hscopes

theorem pushScope {as bs : Table Value} (h : Table.Rel P.value as bs) :
    PairsWith P.fails (fun _ _ => True) (P.states i) (Eval.pushScope as) (Eval.pushScope bs) := by
  intro s t hs
  have hr := C.related hs
  have hstore := C.withStore hs (C.terms.setNumber hr.store (s.store.nextNumber + 1))
  have e (u : State) (bindings : Table Value) : Eval.pushScope bindings u = .ok ()
      ((u.withStore { u.store with nextNumber := u.store.nextNumber + 1 }).inScopes
        (⟨u.store.nextNumber, bindings⟩ :: u.context.scopes)) := rfl
  rw [e, e, C.terms.nextNumber hr.store]
  exact .ok trivial (hscopes hstore (.cons ⟨rfl, h⟩ hr.scopes))

theorem popScope :
    PairsWith P.fails (fun _ _ => True) (P.states i) Eval.popScope Eval.popScope := by
  intro s t hs
  have hr := (C.related hs).scopes
  cases hsc : s.context.scopes with
  | nil =>
    rw [hsc, List.forall₂_nil_left_iff] at hr
    simp only [Eval.popScope, bind_run, context_run, hsc, hr, throw_run]
    exact .error (C.failsAtOnce _ (by rintro ⟨⟩)) hs
  | cons scope below =>
    obtain ⟨scope', below', -, hbelow, htc⟩ := List.forall₂_cons_left_iff.mp (hsc ▸ hr)
    simp only [Eval.popScope, bind_run, context_run, hsc, htc, changeContext_run, pure_run]
    exact .ok trivial (hscopes hs hbelow)

end Scopes

/-- The functions of the basic host that see the context go together: what they do to scopes, to
sinks and to the switch of the output has to be known of the states. -/
theorem basicContextual (C : Coupling host P)
    (hscopes : ∀ {i s t}, P.states i s t → ∀ {as bs}, List.Forall₂ (Scope.Rel P.value) as bs →
      P.states i (s.inScopes as) (t.inScopes bs))
    (henabled : ∀ {i s t}, P.states i s t → P.states i (s.enabling false) (t.enabling false))
    (hwrite : ∀ i span {v w}, P.value v w →
      PairsWith P.fails (fun _ _ => True) (P.states i) (write span v) (write span w))
    (hsink : ∀ {i s t}, P.states i s t → ∃ j,
      P.states j (after pushSink s) (after pushSink t) ∧ (∀ s' t', P.states j s' t' →
        P.states i s' t' ∧ Paired P.fails (fun a b => b.text = a.text) (P.states i) (popSink s')
          (popSink t')))
    (hint : ∀ n : Int, P.value (.int 0 n) (.int 0 n))
    (htext : ∀ text, Pairs P.value P.store (Computation.newText text) (Computation.newText text))
    (i : ι) (name : String) (span : Option Span) {vs ws : List Value}
    (h : List.Forall₂ P.value vs ws) :
    PairsWith P.fails P.value (P.states i) (BasicHost.contextual name span vs)
      (BasicHost.contextual name span ws) := by
  have hcontext {f g : Context → Eval Value} (hf : ∀ s t, P.states i s t →
      Paired P.fails P.value (P.states i) (f s.context s) (g t.context t)) :
      PairsWith P.fails P.value (P.states i) (do f (← context)) (do g (← context)) :=
    fun s t hs => by
      rw [bind_of_ok (context_run s), bind_of_ok (context_run t)]
      exact hf s t hs
  have htexts (texts : List String) :
      List.Forall₂ P.value (texts.map (Value.text 0)) (texts.map (Value.text 0)) :=
    List.forall₂_same.mpr fun v hv => by
      obtain ⟨text, -, rfl⟩ := List.mem_map.mp hv
      exact C.terms.text 0 text
  have hall (j : ι) : PairsWith P.fails (fun _ _ => True) (P.states j) (BasicHost.writeAll span vs)
      (BasicHost.writeAll span ws) := by
    induction h with
    | nil => exact .pure trivial
    | cons hvw _ ih => exact (hwrite j span hvw).bind fun _ _ _ => ih
  unfold BasicHost.contextual
  split
  · refine hcontext fun s t hs => ?_
    rw [Context.sourceFile?, Context.sourceFile?, (C.related hs).sourceFiles]
    cases s.context.sourceFiles.head? with
    | none => exact .ok C.terms.null hs
    | some path => exact .ok (C.terms.text 0 path) hs
  · refine hcontext fun s t hs => ?_
    rw [Context.pendingNames, Context.pendingNames, (C.related hs).pending]
    exact C.newList i (htexts _) s t hs
  · refine hcontext fun s t hs => ?_
    have hr := C.related hs
    have hdepths : t.context.depths = s.context.depths := by
      simp only [Context.depths, Context.sinks, List.length_cons, hr.sinks, hr.sourceFiles,
        hr.scopes.length_eq.symm]
    rw [hdepths]
    refine C.newList i (List.forall₂_same.mpr fun v hv => ?_) s t hs
    obtain ⟨n, -, rfl⟩ := List.mem_map.mp hv
    exact hint n
  · exact C.computed i (htext _)
  · exact (hall i).bind fun _ _ _ => .pure C.terms.null
  · intro s t hs
    obtain ⟨j, hj, hpop⟩ := hsink hs
    have hpush (u : State) : pushSink u = .ok () (after pushSink u) := rfl
    have hbody := hall j _ _ hj
    rw [bind_of_ok (hpush s), bind_of_ok (hpush t), bind_run, bind_run]
    generalize BasicHost.writeAll span vs (after pushSink s) = r,
      BasicHost.writeAll span ws (after pushSink t) = r' at hbody
    cases hbody with
    | error hx hs' => exact .error hx (hpop _ _ hs').1
    | ok _ hs' =>
      exact (hpop _ _ hs').2.bind fun sink sink' hsink => hsink ▸ C.computed i (htext _)
  · exact (C.pushScope hscopes .nil).bind fun _ _ _ => .pure C.terms.null
  · exact (C.popScope hscopes).bind fun _ _ _ => .pure C.terms.null
  · exact fun s t hs => .ok C.terms.null (henabled hs)
  · exact .pure C.terms.null

end Stencil.Coupling

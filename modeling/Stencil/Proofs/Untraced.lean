import Stencil.Proofs.Coupling

/-!
# Traced runs without their events

A traced run comes to what the run comes to: putting down events changes neither the results nor
the states. This is the coupling of a run with itself (`coupling_same`); what it says of nodes is
`evaluate_traced`, and of templates `run_traced`.
-/

namespace Stencil

open Eval

/-- The same values in the same states, whatever happens. -/
def Pairing.same : Pairing Unit where
  value := Eq
  store := Eq
  states _ := Eq
  fits _ := True
  binds _ := True
  known _ := True
  minds _ := False
  fails _ := True
  escapes _ _ _ _ := True

theorem State.Rel.refl (s : State) : State.Rel Eq Eq s s where
  loader := rfl
  options := rfl
  builtins := Table.Rel.refl (fun _ => rfl) _
  scopes := List.forall₂_same.mpr fun _ _ => ⟨rfl, Table.Rel.refl (fun _ => rfl) _⟩
  sourceFiles := rfl
  pending := rfl
  sinks := rfl
  store := rfl
  cache := rfl
  library := rfl

/-- From the same state, a run comes to the same. -/
theorem Pairs.same {α : Type} {Q : α → α → Prop} (hq : ∀ a, Q a a) (e : Eval α) (s : State) :
    Paired (fun _ => True) Q Eq (e s) (e s) := PairsWith.of_eq hq e s s rfl

/-- Bound to the same, a scope on top of others is the same. -/
theorem State.binding_eq {s : State} {scope scope' : Scope} {below below' : List Scope}
    (h : s.context.scopes = scope :: below) (h' : s.context.scopes = scope' :: below') :
    scope' = scope ∧ below' = below := by
  rw [h] at h'
  cases h'
  exact ⟨rfl, rfl⟩

theorem coupling_same (host : Host) : Coupling host Pairing.same where
  terms := terms_eq host
  child _ _ := trivial
  target _ _ := trivial
  constant _ _ := rfl
  related h := h ▸ .refl _
  withStore h _ _ hst := by
    cases h
    cases hst
    rfl
  withLibrary h _ := h ▸ rfl
  withPending h _ := h ▸ rfl
  keeping h _ _ _ _ _ _ := h ▸ rfl
  binding h _ _ _ _ hv _ _ _ _ hs ht := by
    cases h
    cases hv
    obtain ⟨rfl, rfl⟩ := State.binding_eq hs ht
    rfl
  kept _ _ _ _ := trivial
  including _ _ _ _ _ := trivial
  unknown h name span hs ht := by
    cases h
    rw [Traced.lookUp_run_of_none hs]
    exact .together (fun _ _ => id) (Pairs.same (fun _ => rfl) _ _)
  writes span v w hv := by
    rintro _ s _ rfl
    cases hv
    rw [Traced.write_run]
    exact .together (fun _ _ => id) (Pairs.same (fun _ => trivial) _ _)
  failsAtOnce _ _ := trivial
  failsWith _ := trivial
  faults _ := trivial
  exhausts := trivial
  failsToAnswer _ := trivial
  failsToCall _ := trivial
  escapesIncluding _ _ := trivial
  escapesBind _ _ := trivial
  contextual _ name span vs ws h := by
    obtain rfl := eq_of_forall₂ h
    exact .of_eq (fun _ => rfl) _
  file h path := by
    cases h
    exact ⟨(), rfl, PairsWith.of_eq (fun _ => trivial) _, fun _ _ _ _ => trivial⟩
  arguments h _ _ hv _ _ _ _ hs ht := by
    cases h
    cases hv
    obtain ⟨rfl, rfl⟩ := State.binding_eq hs ht
    exact ⟨(), rfl, PairsWith.of_eq (fun _ => trivial) _, fun _ _ _ _ => trivial⟩
  sink h := by
    cases h
    exact ⟨(), rfl, PairsWith.of_eq (fun _ => ⟨rfl, Option.rel_refl (fun _ => rfl) _⟩) _,
      fun _ _ _ _ => trivial⟩

theorem untraced_of_couples {α : Type} {e : Eval α} {E : Traced α}
    (h : Pairing.same.Couples Eq e E) (s : State) : (E s).1 = e s := by
  have hrun := h () s s rfl
  generalize E s = r at hrun
  cases hrun with
  | together _ hpaired => exact hpaired.eq.symm
  | escaped _ hminds _ => exact hminds.elim

/-- Evaluating a node with its events is evaluating it. -/
theorem evaluate_traced (host : Host) (fuel : Nat) (n : Node) (s : State) :
    (Traced.evaluate host fuel n s).1 = evaluate host fuel n s :=
  untraced_of_couples ((coupling_same host).evaluate fuel trivial) s

/-- Running a template with its events is running it. -/
theorem run_traced (host : Host) (fuel : Nat) (t : Template) (way : TemplateRun) (s : State) :
    (Traced.run way host fuel t s).1 = way.run host fuel t s := by
  refine untraced_of_couples ((coupling_same host).run ?_ fuel (fun _ _ _ => trivial) way) s
  rintro _ s _ rfl
  exact ⟨(), rfl, PairsWith.of_eq (fun _ => trivial) _, fun _ _ _ _ => trivial⟩

end Stencil

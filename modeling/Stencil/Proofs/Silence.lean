import Stencil.Proofs.Capture
import Stencil.Proofs.Untraced

/-!
# Evaluating without output

Evaluating a template turns output off, and rendering does not. As long as nothing but empty texts
would be written, that makes no difference to what the page comes to, so rendering writes the value
that evaluating yields (`render_of_writesNothing`). With output turned off, what an include captures
is empty, whatever the included template would write (`includeTemplate_ok`): this is where the
two part.
-/

namespace Stencil

open Eval

/-- The functions of a host that see the context write nothing, leave output enabled or disabled
as it is, and come to the same in either case. -/
structure Host.IgnoresOutput (host : Host) : Prop where
  same (name : String) (span : Option Span) (arguments : List Value) (s : State) :
    Paired (fun _ => True) Eq (fun u v => u = v.enabling false)
      (host.contextual name span arguments (s.enabling false)) (host.contextual name span arguments s)
  enabled (name : String) (span : Option Span) (arguments : List Value) :
    Moves (fun s t => t.context.outputEnabled = s.context.outputEnabled)
      (host.contextual name span arguments)
  sinks (name : String) (span : Option Span) (arguments : List Value) :
    Moves (fun s t => t.context.sinks = s.context.sinks) (host.contextual name span arguments)

/-- No value is written but one with an empty text. -/
def Event.Silent : Event → Prop
  | .wrote text => text = some ""
  | _ => True

instance : DecidablePred Event.Silent
  | .wrote text => inferInstanceAs (Decidable (text = some ""))
  | .unknown .. | .including _ => isTrue trivial

/-- A run with output turned off beside one with output, in which only empty texts are written: the
states differ in nothing else, and the sinks stay those of the index. -/
def Pairing.silent : Pairing (List Sink) where
  value := Eq
  store := Eq
  states sinks s t := s = t.enabling false ∧ t.context.outputEnabled = true ∧ t.context.sinks = sinks
  fits _ := True
  binds _ := True
  known _ := True
  minds event := ¬ event.Silent
  fails _ := True
  escapes _ _ _ _ := True

theorem State.Rel.silenced (t : State) : State.Rel Eq Eq (t.enabling false) t :=
  { State.Rel.refl t with }

/-- An empty text leaves the sinks as they are. -/
theorem State.wrote_empty (s : State) (v : Value) : s.wrote v "" = s := by
  show { s with context := { s.context with sink := s.context.sink.write v "" } } = s
  rw [Sink.write, if_pos rfl]

/-- An operation that does the same with output and without. -/
theorem PairsWith.silent {α : Type} {Q : α → α → Prop} {sinks below : List Sink} {e : Eval α}
    (h : ∀ t, t.context.outputEnabled = true → t.context.sinks = sinks →
      Paired (fun _ => True) Q (Pairing.silent.states below) (e (t.enabling false)) (e t)) :
    ∀ s t, Pairing.silent.states sinks s t →
      Paired (fun _ => True) Q (Pairing.silent.states below) (e s) (e t) := by
  rintro _ t ⟨rfl, ho, hsinks⟩
  exact h t ho hsinks

/-- A value that is displayed as the empty text is written to no effect. -/
theorem write_silent (sinks : List Sink) (span : Option Span) {v : Value} {t : State}
    (ho : t.context.outputEnabled = true) (hsinks : t.context.sinks = sinks)
    (hsilent : (t.store.display v).toOption = some "") :
    Paired (fun _ => True) (fun _ _ => True) (Pairing.silent.states sinks)
      (write span v (t.enabling false)) (write span v t) := by
  rw [write_run_disabled rfl, write_run_enabled ho]
  cases hd : t.store.display v with
  | error e =>
    rw [hd] at hsilent
    cases hsilent
  | ok text =>
    rw [hd] at hsilent
    cases hsilent
    have hwrote := State.wrote_empty t v
    exact .ok trivial ⟨congrArg (·.enabling false) hwrote.symm, ho, hwrote ▸ hsinks⟩

theorem coupling_silent {host : Host} (h : host.IgnoresOutput) : Coupling host Pairing.silent where
  terms := terms_eq host
  child _ _ := trivial
  target _ _ := trivial
  constant _ _ := rfl
  related := by
    rintro _ _ t ⟨rfl, -, -⟩
    exact .silenced t
  withStore := by
    rintro _ _ t ⟨rfl, ho, hsinks⟩ store _ rfl
    exact ⟨rfl, ho, hsinks⟩
  withLibrary := by
    rintro _ _ t ⟨rfl, ho, hsinks⟩ library
    exact ⟨rfl, ho, hsinks⟩
  withPending := by
    rintro _ _ t ⟨rfl, ho, hsinks⟩ pending
    exact ⟨rfl, ho, hsinks⟩
  keeping := by
    rintro _ _ t ⟨rfl, ho, hsinks⟩ _ _ _ _ _ _
    exact ⟨rfl, ho, hsinks⟩
  binding := by
    rintro _ _ t ⟨rfl, ho, hsinks⟩ _ _ _ _ rfl _ _ _ _ hs ht
    obtain ⟨rfl, rfl⟩ := State.binding_eq (s := t) hs ht
    exact ⟨rfl, ho, hsinks⟩
  kept _ _ _ _ := trivial
  including _ _ _ _ _ := trivial
  unknown := by
    rintro _ _ t ⟨rfl, ho, hsinks⟩ name span - ht
    rw [Traced.lookUp_run_of_none ht]
    refine .together (fun event he => ?_) ?_
    · rw [List.mem_singleton.mp he]
      exact fun hsilent => hsilent trivial
    · have hnone : (t.enabling false).context.lookUp name = none := ht
      simp only [Eval.lookUp, bind_run, context_run, ht, hnone]
      show Paired _ _ _ ((if t.context.strict = true then _ else _ : Eval Value) _) _
      split
      · exact .error trivial ⟨rfl, ho, hsinks⟩
      · exact .ok rfl ⟨rfl, ho, hsinks⟩
  writes span v w hv := by
    rintro sinks _ t ⟨rfl, ho, hsinks⟩
    cases hv
    rw [Traced.write_run, if_pos ho]
    by_cases hsilent : (t.store.display v).toOption = some ""
    · refine .together (fun event he => ?_) (write_silent sinks span ho hsinks hsilent)
      rw [List.mem_singleton.mp he]
      exact fun hminds => hminds hsilent
    · exact .at_once hsilent trivial
  failsAtOnce _ _ := trivial
  failsWith _ := trivial
  faults _ := trivial
  exhausts := trivial
  failsToAnswer _ := trivial
  failsToCall _ := trivial
  escapesIncluding _ _ := trivial
  escapesBind _ _ := trivial
  contextual sinks name span vs ws hvs := by
    obtain rfl := eq_of_forall₂ hvs
    refine PairsWith.silent fun t ho hsinks => ?_
    have hsame := h.same name span vs t
    have henabled := h.enabled name span vs t
    have hkept := h.sinks name span vs t
    generalize hr : host.contextual name span vs t = r at hsame
    generalize host.contextual name span vs (t.enabling false) = r' at hsame
    cases hsame with
    | ok hv hu =>
      rw [after_of_ok hr] at henabled hkept
      exact .ok hv ⟨hu, henabled.trans ho, hkept.trans hsinks⟩
    | error hx hu =>
      rw [after_of_error hr] at henabled hkept
      exact .error hx ⟨hu, henabled.trans ho, hkept.trans hsinks⟩
  file := by
    rintro sinks _ t ⟨rfl, ho, hsinks⟩ path
    refine ⟨sinks, ⟨rfl, ho, hsinks⟩, Pairs.leaveFile ?_ ?_, fun _ _ _ _ => trivial⟩
    · rintro _ u ⟨rfl, -, -⟩
      rfl
    · rintro _ u below ⟨rfl, ho, hsinks⟩
      exact ⟨rfl, ho, hsinks⟩
  arguments := by
    rintro sinks _ t ⟨rfl, ho, hsinks⟩ v _ rfl scope _ below _ hs ht
    obtain ⟨rfl, rfl⟩ := State.binding_eq (s := t) hs ht
    exact ⟨sinks, ⟨rfl, ho, hsinks⟩, PairsWith.silent fun t ho hsinks => .ok trivial ⟨rfl, ho, hsinks⟩,
      fun _ _ _ _ => trivial⟩
  sink := by
    rintro sinks _ t ⟨rfl, ho, hsinks⟩
    refine ⟨{} :: sinks, ⟨rfl, ho, congrArg _ hsinks⟩, PairsWith.silent fun u hu hpushed => ?_,
      fun _ _ _ _ => trivial⟩
    obtain ⟨hsink, hbelow⟩ := List.cons.inj hpushed
    have hbelow : u.context.sinksBelow = t.context.sink :: t.context.sinksBelow :=
      hbelow.trans hsinks.symm
    rw [popSink_run hbelow, popSink_run (s := u.enabling false) hbelow]
    exact .ok ⟨rfl, Option.rel_refl (fun _ => rfl) _⟩ ⟨rfl, hu, hsinks⟩

namespace Eval

/-- While the page of a template is evaluated, nothing is written but empty texts. -/
def WritesNothing (host : Host) (fuel : Nat) (t : Template) (s : State) : Prop :=
  ∀ event ∈ (Traced.runPage (Traced.evaluate host fuel) t s).2, event.Silent

section

variable {host : Host} (h : host.IgnoresOutput) {fuel : Nat} {t : Template} {s : State}
  (ho : s.context.outputEnabled = true) (hquiet : WritesNothing host fuel t s)

include h ho hquiet

/-- A page that writes nothing comes to the same with output turned off. -/
theorem runPage_of_writesNothing :
    Paired (fun _ => True) Eq (Pairing.silent.states s.context.sinks)
      (runPage (evaluate host fuel) t (s.enabling false)) (runPage (evaluate host fuel) t s) := by
  have C := coupling_silent h
  have U := coupling_same host
  have huntraced : (Traced.runPage (Traced.evaluate host fuel) t s).1 = runPage (evaluate host fuel) t s :=
    untraced_of_couples (U.runPage (fun _ _ => U.evaluate fuel trivial) fun _ _ => trivial) s
  have hrun : Pairing.silent.Outcome s.context.sinks Eq
      (runPage (evaluate host fuel) t (s.enabling false))
      (Traced.runPage (Traced.evaluate host fuel) t s) :=
    C.runPage (fun _ _ => C.evaluate fuel trivial) (fun _ _ => trivial) _ _ _ ⟨rfl, ho, rfl⟩
  unfold WritesNothing at hquiet
  generalize Traced.runPage (Traced.evaluate host fuel) t s = r at huntraced hquiet hrun
  cases hrun with
  | together _ hpaired => exact huntraced ▸ hpaired
  | escaped _ hminds _ => exact absurd (hquiet _ (List.mem_append_right _ List.mem_cons_self)) hminds

/-- Rendering a template that writes nothing by itself writes the value that evaluating it
yields. -/
theorem render_of_writesNothing :
    render host fuel t s = (do writePage t (← evaluateIn host fuel t)) s := by
  have hpage := runPage_of_writesNothing h ho hquiet
  have hoff : silently (runPage (evaluate host fuel) t) s = ensuring (runPage (evaluate host fuel) t)
      (changeContext fun c => { c with outputEnabled := s.context.outputEnabled }) (s.enabling false) := rfl
  unfold render renderWith evaluateIn
  rw [bind_assoc, bind_run, bind_run]
  cases hcheck : checkErrors t s with
  | error x u => rfl
  | ok _ u =>
    obtain rfl : u = s := by
      unfold checkErrors at hcheck
      split at hcheck <;> cases hcheck
      rfl
    dsimp only
    rw [bind_run, bind_run, hoff, ensuring_run]
    generalize runPage (evaluate host fuel) t (u.enabling false) = r, runPage (evaluate host fuel) t u = r'
      at hpage
    -- with output back on, the state is that of the run with output
    have hback (v : State) (hv : v.context.outputEnabled = true) :
        changeContext (fun c => { c with outputEnabled := u.context.outputEnabled }) (v.enabling false) =
          .ok () v := by
      rw [changeContext_run, ho, ← hv]
      rfl
    cases hpage with
    | ok hv hw =>
      obtain ⟨rfl, hw, -⟩ := hw
      subst hv
      simp only [finish, hback _ hw]
    | error hx hw =>
      obtain ⟨rfl, hw, -⟩ := hw
      simp only [finish, hback _ hw]

end

end Eval

/-! ## Includes -/

/-- A step that writes to the top sink alone, and to none if output is turned off, as it stays then. -/
structure State.WritesOnTop (s t : State) : Prop where
  below : t.context.sinksBelow = s.context.sinksBelow
  faithful : s.context.sink.Faithful → t.context.sink.Faithful
  off : s.context.outputEnabled = false →
    t.context.outputEnabled = false ∧ t.context.sink = s.context.sink

namespace State.WritesOnTop

variable {s t u : State}

theorem of_eq (ho : t.context.outputEnabled = s.context.outputEnabled)
    (hsinks : t.context.sinks = s.context.sinks) : s.WritesOnTop t := by
  obtain ⟨hsink, hbelow⟩ := List.cons.inj hsinks
  exact ⟨hbelow, fun h => hsink ▸ h, fun h => ⟨ho.trans h, hsink⟩⟩

theorem trans (h : s.WritesOnTop t) (k : t.WritesOnTop u) : s.WritesOnTop u where
  below := k.below.trans h.below
  faithful hs := k.faithful (h.faithful hs)
  off hs := by
    obtain ⟨ho, hsink⟩ := h.off hs
    obtain ⟨ho', hsink'⟩ := k.off ho
    exact ⟨ho', hsink'.trans hsink⟩

end State.WritesOnTop

namespace Eval

theorem sequential_writesOnTop : Sequential State.WritesOnTop where
  refl _ := .of_eq rfl rfl
  trans := .trans

theorem loading_writesOnTop : Loading State.WritesOnTop where
  toSequential := sequential_writesOnTop
  store _ _ := .of_eq rfl rfl
  ask question s := by
    rw [after_ask]
    exact .of_eq rfl rfl
  keep _ _ _ := .of_eq rfl rfl

theorem writesOnTop_write (span : Option Span) (v : Value) : Moves State.WritesOnTop (write span v) :=
  sequential_writesOnTop.write fun _ _ ho hd =>
    ⟨rfl, fun h => h.write hd, fun hoff => absurd (ho.symm.trans hoff) Bool.true_eq_false.mp⟩

theorem writesOnTop_assign (name : String) (v : Value) (span : Option Span) :
    Moves State.WritesOnTop (assign name v span) :=
  sequential_writesOnTop.assign fun _ _ _ _ => .of_eq rfl rfl

theorem writesOnTop_enterPending (span : Option Span) (name : String) :
    Moves State.WritesOnTop (enterPending span name) :=
  Moves.enterPending fun _ _ => .of_eq rfl rfl

/-- The sink that is opened for a capture is taken off behind it. -/
theorem writesOnTop_capture {body : Eval Unit} (h : Moves State.WritesOnTop body) (name : String) :
    Moves State.WritesOnTop (capture body (leavePending name)) := by
  intro s
  have hbody := h (capturingIn s)
  have hbelow : (after body (capturingIn s)).context.sinksBelow =
    s.context.sink :: s.context.sinksBelow := hbody.below
  have hpushed : after (do pushSink; body) s = after body (capturingIn s) :=
    after_bind_of_ok (pushSink_run s)
  rw [after_capture, hpushed, after_bind_of_ok (popSink_run hbelow)]
  exact ⟨rfl, id, fun ho => ⟨(hbody.off ho).1, rfl⟩⟩

theorem writesOnTop_within {path : Option String} {body : Eval Value}
    (h : Moves State.WritesOnTop body) : Moves State.WritesOnTop (within path body) :=
  sequential_writesOnTop.within (fun _ _ => .of_eq rfl rfl) h

/-- Evaluation writes to the top sink alone. -/
theorem frame_writesOnTop {host : Host} (h : host.IgnoresOutput) :
    Frame host (fun _ => True) (fun _ => True) State.WritesOnTop where
  toSequential := sequential_writesOnTop
  store _ _ := .of_eq rfl rfl
  contextual name span arguments s :=
    .of_eq (h.enabled name span arguments s) (h.sinks name span arguments s)
  write := writesOnTop_write
  assign _ := writesOnTop_assign _
  includes hr := loading_writesOnTop.includeTemplate_of_capture (writesOnTop_assign _)
    writesOnTop_enterPending (fun _ _ => .of_eq rfl rfl) fun t name => writesOnTop_capture (hr t trivial) name
  within := writesOnTop_within
  binds _ _ _ _ := Node.bindsOnly_of_forall (fun _ => trivial) _

/-- Evaluating a template leaves the sinks as they are, and output enabled or disabled. -/
theorem sinks_evaluateIn {host : Host} (h : host.IgnoresOutput) (fuel : Nat) (t : Template) (s : State) :
    (after (evaluateIn host fuel t) s).context.outputEnabled = s.context.outputEnabled ∧
      (after (evaluateIn host fuel t) s).context.sinks = s.context.sinks := by
  have F := frame_writesOnTop h
  unfold evaluateIn checkErrors
  split
  · exact ⟨rfl, rfl⟩
  · have hwrites := F.runPage (fun _ => F.evaluate fuel) (t := t) (fun _ _ => Node.bindsOnly_of_forall
      (fun _ => trivial) _) (s.enabling false)
    have hoff : after (silently (runPage (evaluate host fuel) t)) s =
        (after (runPage (evaluate host fuel) t) (s.enabling false)).enabling s.context.outputEnabled :=
      after_ensuring (runPage (evaluate host fuel) t)
        (changeContext fun c => { c with outputEnabled := s.context.outputEnabled }) (s.enabling false)
    show (after (silently (runPage (evaluate host fuel) t)) s).context.outputEnabled = _ ∧
      (after (silently (runPage (evaluate host fuel) t)) s).context.sinks = _
    rw [hoff]
    refine ⟨rfl, ?_⟩
    exact congrArg₂ List.cons (hwrites.off rfl).2 hwrites.below

/-- An include that returns found its template. -/
theorem includeTemplate_found {render : Template → Eval Unit} {span : Option Span}
    {arguments : List Value} {s u : State} {sink : Sink}
    (h : includeTemplate render span arguments s = .ok sink u) :
    ∃ t v, findIncluded span arguments s = .ok t v := by
  unfold includeTemplate at h
  unfold findIncluded
  rw [bind_of_ok (context_run s)] at h ⊢
  cases arguments with
  | nil => cases h
  | cons nameValue arguments =>
    obtain ⟨name, s₂, hname, h⟩ := bind_ok h
    rw [bind_of_ok (context_run s₂)] at h
    dsimp only
    rw [bind_of_ok hname, bind_of_ok (context_run s₂)]
    cases hl : s₂.context.loader with
    | none =>
      rw [hl] at h
      cases h
    | some loader =>
      rw [hl] at h
      dsimp only at h ⊢
      obtain ⟨path, s₃, hpath, h⟩ := bind_ok h
      obtain ⟨scope, s₄, hscope, h⟩ := bind_ok h
      obtain ⟨list, s₅, hlist, h⟩ := bind_ok h
      obtain ⟨_, s₆, hassign, h⟩ := bind_ok h
      rw [bind_of_ok hpath, bind_of_ok hscope, bind_of_ok hlist, bind_of_ok hassign]
      rw [ensuring_run] at h
      cases ht : includedTemplate (s.context.locate span) loader name path s₆ with
      | ok t v => exact ⟨t, v, rfl⟩
      | error x v =>
        rw [bind_of_error ht] at h
        simp only [finish] at h
        split at h <;> cases h

/-- What is captured is what was written to the sink of its own. -/
theorem capture_ok {body after : Eval Unit} {s u : State} {sink : Sink}
    (h : capture body after s = .ok sink u) :
    ∃ v, body (capturingIn s) = .ok () v ∧ sink = v.context.sink := by
  have hpushed : (do pushSink; body : Eval Unit) s = body (capturingIn s) := bind_of_ok (pushSink_run s)
  rw [capture_run, hpushed] at h
  cases hbody : body (capturingIn s) with
  | error x v =>
    rw [hbody] at h
    simp only [finishCapture] at h
    split at h <;> cases h
  | ok _ v =>
    rw [hbody] at h
    obtain ⟨top, v₁, hpop, h⟩ := bind_ok h
    obtain ⟨_, v₂, -, h⟩ := bind_ok h
    cases h
    refine ⟨v, rfl, ?_⟩
    cases hb : v.context.sinksBelow with
    | nil =>
      simp only [popSink, bind_run, context_run, hb, throw_run] at hpop
      cases hpop
    | cons below rest =>
      rw [popSink_run hb] at hpop
      cases hpop
      rfl

/-- What an include captures is what rendering its template writes to an empty sink; with output
turned off that is nothing. -/
theorem includeTemplate_ok {host : Host} (h : host.IgnoresOutput) {fuel : Nat} {span : Option Span}
    {arguments : List Value} {s u : State} {sink : Sink}
    (hi : includeTemplate (render host fuel) span arguments s = .ok sink u) :
    ∃ t v w, (∃ v₀, findIncluded span arguments s = .ok t v₀) ∧ v.context.sinks = {} :: s.context.sinks ∧
      v.context.outputEnabled = s.context.outputEnabled ∧ render host fuel t v = .ok () w ∧
      sink = w.context.sink ∧ sink.Faithful ∧ (s.context.outputEnabled = false → sink = {}) := by
  obtain ⟨t, v, hfound⟩ := includeTemplate_found hi
  obtain ⟨⟨_, _, _, -, -, hcontext⟩, scope, -, -, hinclude⟩ := findIncluded_ok hfound
  rw [hinclude, ensuring_run] at hi
  generalize nameAmong s arguments = name at hi
  cases hbody : (do
      enterPending (s.context.locate span) name
      capture (render host fuel t) (leavePending name) : Eval Sink) v with
  | error x w =>
    rw [hbody] at hi
    simp only [finish] at hi
    split at hi <;> cases hi
  | ok captured w =>
    rw [hbody] at hi
    obtain rfl : sink = captured := by
      simp only [finish] at hi
      split at hi <;> cases hi
      rfl
    obtain ⟨_, v₁, henter, hcapture⟩ := bind_ok hbody
    by_cases hn : name ∈ v.context.pending.getD []
    · rw [enterPending_run_pending hn] at henter
      cases henter
    rw [enterPending_run hn] at henter
    cases henter
    obtain ⟨w₁, hr, hsink⟩ := capture_ok hcapture
    let captures : State :=
      capturingIn { v with context := { v.context with pending := some (name :: v.context.pending.getD []) } }
    have hsinks : captures.context.sinks = {} :: s.context.sinks := by
      show {} :: v.context.sinks = _
      rw [hcontext]
      rfl
    have ho : captures.context.outputEnabled = s.context.outputEnabled := by
      show v.context.outputEnabled = _
      rw [hcontext]
    have hwrites : captures.WritesOnTop w₁ := by
      have hmoves := (frame_writesOnTop h).render fuel (t := t) trivial captures
      rwa [after_of_ok hr] at hmoves
    refine ⟨t, captures, w₁, ⟨v, hfound⟩, hsinks, ho, hr, hsink, ?_, fun hoff => ?_⟩
    · have hempty : captures.context.sink.Faithful := by
        rintro n text ⟨⟩
      rw [hsink]
      exact hwrites.faithful hempty
    · rw [hsink]
      exact (hwrites.off (ho.trans hoff)).2

end Eval

end Stencil

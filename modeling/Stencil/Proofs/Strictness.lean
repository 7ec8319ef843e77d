import Stencil.Proofs.CoupledHost
import Stencil.Proofs.Untraced

/-!
# Strict evaluation

With unknown names as errors, a run does what it does without, until it reads a name that means
nothing: then it fails with that name. `strict_run` says so of templates: the reads of unknown
names are the events of the run without errors, and the first one decides. Reading the arguments of
an include, as a list or one by one, never fails in either mode.

Both modes are run side by side (`coupling_strict`). A failure has to come out of the includes and
files around it unchanged, so what is told of the states is also that no sink and no file was closed
that was open before.
-/

namespace Stencil

open Eval

/-! ## The failure of an unknown name -/

/-- The failure that a name means nothing. -/
def Failure.IsUndefined (x : Failure) : Prop := ∃ e, x = .script e ∧ e.kind = .undefinedVariable

theorem Failure.not_isUndefined_fault (e : Fault) : ¬ (Failure.fault e).IsUndefined := by
  rintro ⟨_, ⟨⟩, -⟩

theorem Failure.not_isUndefined_exhausted : ¬ Failure.exhausted.IsUndefined := by
  rintro ⟨_, ⟨⟩, -⟩

theorem Failure.not_isUndefined_ofFault (e : Fault) : ¬ (Failure.ofFault e).IsUndefined := by
  rintro ⟨_, he, hk⟩
  cases e <;> cases he
  cases hk

theorem Failure.not_isUndefined_script {cause : Cause} {place : Option Span}
    (h : cause.kind ≠ .undefinedVariable) : ¬ (Failure.script ⟨cause, place⟩).IsUndefined := by
  rintro ⟨_, ⟨⟩, hk⟩
  exact h hk

theorem Failure.OfLoader.not_isUndefined {span : Option Span} {x : Failure} (h : x.OfLoader span) :
    ¬ x.IsUndefined := by
  cases h with
  | fault e => exact not_isUndefined_fault e
  | notFound reason => exact not_isUndefined_script nofun

/-! ## Both modes side by side -/

/-- A state in which unknown names are errors or not. -/
def State.withStrict (s : State) (strict : Bool) : State :=
  { s with context := { s.context with strict } }

/-- `s` is `t` with unknown names as errors, which they are not in `t`; so many files and so many
sinks above the first one are open at least. -/
structure State.StrictAt (height : Nat × Nat) (s t : State) : Prop where
  eq : s = t.withStrict true
  lax : t.context.strict = false
  files : height.1 ≤ t.context.sourceFiles.length
  sinks : height.2 ≤ t.context.sinksBelow.length

/-- The functions of the host do not look at whether unknown names are errors: they do the same
in both modes and do not fail as a name does that means nothing. -/
structure Host.IgnoresStrictness (host : Host) : Prop where
  contextual (height : Nat × Nat) (name : String) (span : Option Span) (arguments : List Value) :
    PairsWith (¬ ·.IsUndefined) Eq (State.StrictAt height) (host.contextual name span arguments)
      (host.contextual name span arguments)
  plain {name : String} {arguments : List Value} {s t : Store} {x : Failure} :
    host.plain name arguments s = .error (.passing x) t → ¬ x.IsUndefined

/-- A run that failed with a name that means nothing, before it closed what was open. -/
inductive FailsAt (height : Nat × Nat) (name : String) (place : Option Span) {α : Type} :
    EStateM.Result Failure State α → Prop
  | intro {u : State} : height.1 ≤ u.context.sourceFiles.length →
      height.2 ≤ u.context.sinksBelow.length →
      FailsAt height name place (.error (.script ⟨.undefinedVariable name, place⟩) u)

/-- The names that are read and mean nothing, with their places. -/
def Event.unknown? : Event → Option (String × Option Span)
  | .unknown name place => some (name, place)
  | _ => none

/-- A run with unknown names as errors beside one without: the same, until a name is read that
means nothing. -/
def Pairing.strict : Pairing (Nat × Nat) where
  value := Eq
  store := Eq
  states := State.StrictAt
  fits _ := True
  binds _ := True
  known _ := True
  minds event := event.unknown? ≠ none
  fails x := ¬ x.IsUndefined
  escapes height event _ r := ∃ name place, event.unknown? = some (name, place) ∧
    FailsAt height name place r

theorem State.StrictAt.rel {height : Nat × Nat} {s t : State} (h : s.StrictAt height t) :
    State.Rel Eq Eq s t := by
  obtain ⟨rfl, -, -, -⟩ := h
  exact { State.Rel.refl t with }

theorem State.StrictAt.pushed {i : Nat × Nat} {s t : State} (h : s.StrictAt i t) :
    (after pushSink s).StrictAt (i.1, i.2 + 1) (after pushSink t) := by
  obtain ⟨rfl, hl, hf, hk⟩ := h
  exact ⟨rfl, hl, hf, Nat.succ_le_succ hk⟩

/-- A sink above the first ones is closed in both modes. -/
theorem State.StrictAt.popped {F : Failure → Prop} {i : Nat × Nat} {s t : State}
    (h : s.StrictAt (i.1, i.2 + 1) t) :
    Paired F Eq (State.StrictAt i) (popSink s) (popSink t) := by
  obtain ⟨rfl, hl, hf, hk⟩ := h
  obtain ⟨sink, below, hsinks⟩ := List.exists_cons_of_length_pos (Nat.zero_lt_of_lt hk)
  rw [popSink_run hsinks, popSink_run (s := t.withStrict true) hsinks]
  rw [hsinks] at hk
  exact .ok rfl ⟨rfl, hl, hf, Nat.le_of_succ_le_succ hk⟩

/-- What is closed in the same way in both modes, and leaves the files and the sinks as they are. -/
theorem State.StrictAt.brackets {i : Nat × Nat} {s t : State} (h : s.StrictAt i t) {close : Eval Unit}
    (hclose : ∀ u : State, ∃ v : State, close u = .ok () v ∧
      close (u.withStrict true) = .ok () (v.withStrict true) ∧ v.context.strict = u.context.strict ∧
      v.context.sourceFiles = u.context.sourceFiles ∧ v.context.sinksBelow = u.context.sinksBelow) :
    Pairing.strict.Brackets i s t close close := by
  refine ⟨i, h, ?_, ?_⟩
  · rintro _ u ⟨rfl, hl, hf, hk⟩
    obtain ⟨v, hlax, hstrict, hmode, hfiles, hsinks⟩ := hclose u
    rw [hlax, hstrict]
    exact .ok trivial ⟨rfl, hmode.trans hl, hfiles ▸ hf, hsinks ▸ hk⟩
  · rintro event α _ ⟨name, place, hevent, @⟨u, hf, hk⟩⟩
    obtain ⟨v, hlax, -, -, hfiles, hsinks⟩ := hclose u
    refine ⟨name, place, hevent, ?_⟩
    simp only [finish, hlax]
    exact .intro (hfiles ▸ hf) (hsinks ▸ hk)

/-- A file is entered in both modes, and left with the files below it open. -/
theorem State.StrictAt.file {i : Nat × Nat} {s t : State} (h : s.StrictAt i t) (path : String) :
    Pairing.strict.Brackets i (s.inFiles (path :: s.context.sourceFiles))
      (t.inFiles (path :: t.context.sourceFiles)) (do let _ ← popSourceFile)
      (do let _ ← popSourceFile) := by
  obtain ⟨rfl, hl, hf, hk⟩ := h
  refine ⟨(i.1 + 1, i.2), ⟨rfl, hl, Nat.succ_le_succ hf, hk⟩, ?_, ?_⟩
  · rintro _ u ⟨rfl, hl, hf, hk⟩
    obtain ⟨file, below, hfiles⟩ := List.exists_cons_of_length_pos (Nat.zero_lt_of_lt hf)
    rw [bind_of_ok (popSourceFile_run (s := u.withStrict true) hfiles),
      bind_of_ok (popSourceFile_run hfiles)]
    rw [hfiles] at hf
    exact .ok trivial ⟨rfl, hl, Nat.le_of_succ_le_succ hf, hk⟩
  · rintro event α _ ⟨name, place, hevent, @⟨u, hf, hk⟩⟩
    obtain ⟨file, below, hfiles⟩ := List.exists_cons_of_length_pos (Nat.zero_lt_of_lt hf)
    rw [hfiles] at hf
    refine ⟨name, place, hevent, ?_⟩
    simp only [finish, bind_of_ok (popSourceFile_run hfiles), pure_run]
    exact .intro (Nat.le_of_succ_le_succ hf) hk

theorem not_isUndefined_conversionFailure (c : Context) (span : Option Span) (v : Value) (e : Fault) :
    ¬ (conversionFailure c span v e).IsUndefined := by
  cases e with
  | refused reason => exact Failure.not_isUndefined_ofFault (.refused reason)
  | _ => exact Failure.not_isUndefined_script nofun

theorem write_strict (i : Nat × Nat) (span : Option Span) (v : Value) :
    PairsWith (¬ ·.IsUndefined) (fun _ _ => True) (State.StrictAt i) (write span v) (write span v) := by
  rintro _ t ⟨rfl, hl, hf, hk⟩
  rcases Bool.eq_false_or_eq_true t.context.outputEnabled with ho | ho
  · rw [write_run_enabled ho, write_run_enabled (s := t.withStrict true) ho]
    have hdisplay : (t.withStrict true).store.display v = t.store.display v := rfl
    rw [hdisplay]
    cases t.store.display v with
    | ok text => exact .ok trivial ⟨rfl, hl, hf, hk⟩
    | error e => exact .error (not_isUndefined_conversionFailure _ _ _ _) ⟨rfl, hl, hf, hk⟩
  · rw [write_run_disabled ho, write_run_disabled (s := t.withStrict true) ho]
    exact .ok trivial ⟨rfl, hl, hf, hk⟩

theorem coupling_strict {host : Host} (hh : host.IgnoresStrictness) : Coupling host .strict where
  terms := terms_eq host
  child _ _ := trivial
  target _ _ := trivial
  constant _ _ := rfl
  related h := h.rel
  withStore h _ _ hst := by
    obtain ⟨rfl, hl, hf, hs⟩ := h
    cases hst
    exact ⟨rfl, hl, hf, hs⟩
  withLibrary h _ := by
    obtain ⟨rfl, hl, hf, hs⟩ := h
    exact ⟨rfl, hl, hf, hs⟩
  withPending h _ := by
    obtain ⟨rfl, hl, hf, hs⟩ := h
    exact ⟨rfl, hl, hf, hs⟩
  keeping h _ _ _ _ _ _ := by
    obtain ⟨rfl, hl, hf, hs⟩ := h
    exact ⟨rfl, hl, hf, hs⟩
  binding h _ _ _ _ hv _ _ _ _ hs ht := by
    obtain ⟨rfl, hl, hf, hk⟩ := h
    cases hv
    obtain ⟨rfl, rfl⟩ := State.binding_eq (s := State.withStrict _ _) hs ht
    exact ⟨rfl, hl, hf, hk⟩
  kept _ _ _ _ := trivial
  including _ _ _ _ _ := trivial
  unknown {i s t} h name span hs ht := by
    obtain ⟨rfl, hl, hf, hk⟩ := h
    have hfail : Eval.lookUp name span (t.withStrict true) =
        .error (.script ⟨.undefinedVariable name, t.context.locate span⟩) (t.withStrict true) := by
      unfold Eval.lookUp
      rw [bind_of_ok (context_run _), hs]
      rfl
    rw [hfail, Traced.lookUp_run_of_none ht]
    exact .at_once nofun ⟨name, _, rfl, .intro hf hk⟩
  writes span v w hv := by
    intro i s t h
    cases hv
    rw [Traced.write_run]
    refine .together (fun event he => ?_) (write_strict i span v s t h)
    split at he
    · rw [List.mem_singleton.mp he]
      exact fun h => h rfl
    · nomatch he
  failsAtOnce _ := Failure.not_isUndefined_script
  failsWith := Failure.not_isUndefined_ofFault
  faults := Failure.not_isUndefined_fault
  exhausts := Failure.not_isUndefined_exhausted
  failsToAnswer h := h.elim (fun h => (Answers.resolve _ _ _ _ _ h).not_isUndefined)
    fun h => (Answers.load _ _ _ _ _ h).not_isUndefined
  failsToCall := hh.plain
  escapesIncluding _ h := absurd rfl h
  escapesBind {i event α β e s} k h := by
    obtain ⟨name, place, hevent, hr⟩ := h
    generalize he : e s = r at hr
    cases hr with
    | intro hf hk =>
      rw [bind_of_error he]
      exact ⟨name, place, hevent, .intro hf hk⟩
  contextual i name span vs ws h := by
    obtain rfl := eq_of_forall₂ h
    exact hh.contextual i name span vs
  file h path := h.file path
  arguments h _ _ hv _ _ _ _ hs ht := by
    obtain ⟨rfl, hl, hf, hk⟩ := h
    cases hv
    obtain ⟨rfl, rfl⟩ := State.binding_eq (s := State.withStrict _ _) hs ht
    apply State.StrictAt.brackets
    · exact ⟨rfl, hl, hf, hk⟩
    · exact fun _ => ⟨_, rfl, rfl, rfl, rfl, rfl⟩
  sink {i s t} h := by
    refine ⟨(i.1, i.2 + 1), h.pushed, fun s' t' h' => ?_, ?_⟩
    · exact h'.popped.mono (fun _ => id)
        (fun _ _ hsink => hsink ▸ ⟨rfl, Option.rel_refl (fun _ => rfl) _⟩) fun _ _ => id
    · rintro event name' _ ⟨name, place, hevent, @⟨u, hf, hk⟩⟩
      obtain ⟨sink, below, hsinks⟩ := List.exists_cons_of_length_pos (Nat.zero_lt_of_lt hk)
      rw [hsinks] at hk
      refine ⟨name, place, hevent, ?_⟩
      simp only [finishCapture, bind_of_ok (popSink_run hsinks), Eval.leavePending, changeContext_run]
      exact .intro hf (Nat.le_of_succ_le_succ hk)

/-! ## The basic host -/

/-- What a call passes on is not that a name means nothing. -/
abbrev PassesOn {α : Type} (call : PlainCall α) : Prop :=
  FailsOnly (fun f => ∀ x, f = .passing x → ¬ x.IsUndefined) call

namespace PassesOn

variable {α : Type}

theorem ofFault (e : Fault) : ∀ x, CallFailure.ofFault e = .passing x → ¬ x.IsUndefined := by
  intro x h
  unfold CallFailure.ofFault at h
  split at h
  · cases h
  · cases h
    exact Failure.not_isUndefined_ofFault e

theorem computed (c : Computation α) : PassesOn (PlainCall.computed c) := by
  intro s f t h
  unfold PlainCall.computed at h
  cases hc : c s <;> rw [hc] at h <;> cases h
  exact ofFault _

theorem failWith (e : Fault) : PassesOn (PlainCall.failWith e : PlainCall α) := .throw (ofFault e)

theorem only (callee parameter : String) (arguments : List Value) :
    PassesOn (PlainCall.only callee parameter arguments) := by
  unfold PlainCall.only
  split
  · exact .pure _
  · exact failWith _
  · exact failWith _

theorem basicPlain (name : String) (arguments : List Value) :
    PassesOn (BasicHost.plain name arguments) := by
  unfold BasicHost.plain
  split
  · exact only _ _ _
  · exact (only _ _ _).bind fun _ => computed _
  · exact computed _
  · exact computed _
  · exact failWith _
  · refine (only _ _ _).bind fun v => FailsOnly.bind .get fun s => ?_
    split
    · exact failWith _
    · refine .throw ?_
      rintro _ ⟨⟩
      exact Failure.not_isUndefined_ofFault _
  · refine .throw ?_
    rintro _ ⟨⟩
    exact Failure.not_isUndefined_script nofun
  · dsimp only
    split
    · exact computed _
    · exact failWith _
    · exact failWith _
    · exact failWith _
  · exact .pure _

end PassesOn

/-- The functions of the basic host do not look at whether unknown names are errors. -/
theorem basicHost_ignoresStrictness : basicHost.IgnoresStrictness where
  plain h := PassesOn.basicPlain _ _ _ _ _ h _ rfl
  contextual i name span arguments := by
    -- a host whose functions are idle gives the theory for the basic ones
    have hidle : (⟨fun _ _ => return .null, fun _ _ _ => return .null⟩ : Host).IgnoresStrictness :=
      ⟨fun _ _ _ _ => .pure rfl, nofun⟩
    have C := coupling_strict hidle
    refine C.basicContextual ?_ ?_ ?_ ?_ (fun _ => rfl) (fun _ => .of_eq (fun _ => rfl) _) i name span
      (List.forall₂_same.mpr fun _ _ => rfl)
    · intro i s t h as bs hscopes
      obtain ⟨rfl, hl, hf, hk⟩ := h
      obtain rfl := Scope.eq_of_rel hscopes
      exact ⟨rfl, hl, hf, hk⟩
    · intro i s t h
      obtain ⟨rfl, hl, hf, hk⟩ := h
      exact ⟨rfl, hl, hf, hk⟩
    · intro i span v w hv
      cases hv
      exact write_strict i span v
    · intro i s t h
      refine ⟨(i.1, i.2 + 1), h.pushed, fun s' t' h' => ⟨?_, ?_⟩⟩
      · exact ⟨h'.eq, h'.lax, h'.files, Nat.le_of_succ_le h'.sinks⟩
      · exact h'.popped.mono (fun _ => id) (fun _ _ hsink => congrArg Sink.text hsink.symm)
          fun _ _ => id

/-! ## Runs -/

/-- An outcome, with unknown names as errors in the state behind. -/
def strictly {α : Type} : EStateM.Result Failure State α → EStateM.Result Failure State α
  | .ok a s => .ok a (s.withStrict true)
  | .error x s => .error x (s.withStrict true)

theorem Event.filterMap_unknown? {events : List Event}
    (h : ∀ event ∈ events, ¬ event.unknown? ≠ none) : events.filterMap Event.unknown? = [] :=
  List.filterMap_eq_nil_iff.mpr fun event he => not_not.mp (h event he)

/-- One of the arguments of an include can be read, whether there are as many or not. -/
theorem argument_returns {host : Host} {fuel : Nat} {span : Span} {index : Int} {s : State}
    (h : 0 ≤ index ∨ s.context.arguments? = none) :
    ∃ v, evaluate host (fuel + 1) (.argument span index) s = .ok v s := by
  show ∃ v, argument index s = .ok v s
  unfold argument
  rw [bind_of_ok (get_run s)]
  cases harguments : s.context.arguments? with
  | none => exact ⟨_, rfl⟩
  | some v =>
    have hindex : 0 ≤ index := h.resolve_right (by rw [harguments]; exact nofun)
    cases v with
    | list id =>
      dsimp only
      rw [Store.size_eq]
      by_cases hsize : ((s.store.contents id).length : Int) ≤ index
      · rw [if_pos hsize]
        exact ⟨_, rfl⟩
      · have hplace : placeOfIndex? (s.store.contents id).length index = some index.toNat := by
          simp only [placeOfIndex?, if_neg (Int.not_lt.mpr hindex),
            if_pos (And.intro hindex (Int.not_le.mp hsize))]
        have hlt : index.toNat < (s.store.contents id).length := by omega
        have hlimit : ¬ index < -indexLimit := by
          unfold indexLimit
          omega
        rw [if_neg hsize, if_neg hlimit, atIndex?, hplace, Option.bind_some,
          List.getElem?_eq_getElem hlt]
        exact ⟨_, rfl⟩
    | _ => exact ⟨_, rfl⟩

/-- A run with unknown names as errors does exactly what the run without does, if that one reads no
name that means nothing, at any depth of includes; otherwise it fails with the first such name. So
it fails with an unknown name precisely if one is read. Reading the arguments of an include, or one
of them, always returns. -/
theorem strict_run {host : Host} (hh : host.IgnoresStrictness) (fuel : Nat) (t : Template)
    (way : TemplateRun) (s : State) :
    (∃ events, Traced.run way host fuel t (s.withStrict false) =
        (way.run host fuel t (s.withStrict false), events) ∧
      (match events.filterMap Event.unknown? with
        | [] => way.run host fuel t (s.withStrict true) =
            strictly (way.run host fuel t (s.withStrict false))
        | (name, place) :: _ => ∃ u, way.run host fuel t (s.withStrict true) =
            .error (.script ⟨.undefinedVariable name, place⟩) u) ∧
      ((∃ x u, way.run host fuel t (s.withStrict true) = .error x u ∧ x.IsUndefined) ↔
        events.filterMap Event.unknown? ≠ [])) ∧
    ∀ (span : Span) (index : Int), 0 ≤ index ∨ s.context.arguments? = none →
      (∃ v, evaluate host (fuel + 1) (.name span argumentsName) s = .ok v s) ∧
        ∃ v, evaluate host (fuel + 1) (.argument span index) s = .ok v s := by
  refine ⟨?_, fun span index h => ⟨⟨_, rfl⟩, argument_returns h⟩⟩
  have hoff (i : Nat × Nat) (s t : State) (h : s.StrictAt i t) : Pairing.strict.Brackets i
      (s.enabling false) (t.enabling false)
      (changeContext fun c => { c with outputEnabled := s.context.outputEnabled })
      (changeContext fun c => { c with outputEnabled := t.context.outputEnabled }) := by
    obtain ⟨rfl, hl, hf, hk⟩ := h
    apply State.StrictAt.brackets
    · exact ⟨rfl, hl, hf, hk⟩
    · exact fun _ => ⟨_, rfl, rfl, rfl, rfl, rfl⟩
  have hrun := (coupling_strict hh).run hoff fuel (t := t) (fun _ _ _ => trivial) way (0, 0)
    (s.withStrict true) (s.withStrict false) ⟨rfl, rfl, Nat.zero_le _, Nat.zero_le _⟩
  have hsame := run_traced host fuel t way (s.withStrict false)
  generalize Traced.run way host fuel t (s.withStrict false) = traced at hrun hsame
  obtain ⟨lax, events⟩ := traced
  obtain rfl : lax = way.run host fuel t (s.withStrict false) := hsame
  generalize way.run host fuel t (s.withStrict true) = strict at hrun
  refine ⟨events, rfl, ?_⟩
  generalize way.run host fuel t (s.withStrict false) = lax at hrun
  cases hrun with
  | together hquiet hpaired =>
    rw [Event.filterMap_unknown? hquiet]
    cases hpaired with
    | ok hv h =>
      cases hv
      rw [h.eq]
      refine ⟨rfl, ?_, fun h => absurd rfl h⟩
      rintro ⟨x, u, hx, -⟩
      cases hx
    | error hx h =>
      rw [h.eq]
      refine ⟨rfl, ?_, fun h => absurd rfl h⟩
      rintro ⟨y, u, ⟨⟩, hy⟩
      exact absurd hy hx
  | @escaped r before behind event hquiet hminds hescapes =>
    obtain ⟨name, place, hevent, @⟨u, -, -⟩⟩ := hescapes
    rw [List.filterMap_append, Event.filterMap_unknown? hquiet, List.nil_append,
      List.filterMap_cons, hevent]
    exact ⟨⟨u, rfl⟩, fun _ => nofun, fun _ => ⟨_, u, rfl, _, rfl, rfl⟩⟩

/-- A page that would read a name that means nothing in a branch it does not take, and includes a
template that would read another one in an operand it does not need, and then does. -/
theorem strict_run_in_include :
    let t := (Template.parse {} (some "page")
      "\x7b\x7b if 0 \x7d\x7d\x7b\x7b a \x7d\x7d\x7b\x7b end \x7d\x7d\x7b\x7b include(\"f\", 1) \x7d\x7d").toOption.getD {}
    let s : State :=
      { context := { loader := some (.function 0), scopes := [⟨5, []⟩] }
        library := { cells := #[{ texts := [("f", some "\x7b\x7b $0 or b \x7d\x7d\x7b\x7b b \x7d\x7d")] }] } }
    let way := TemplateRun.render
    basicHost.IgnoresStrictness ∧
      ((∃ events, Traced.run way basicHost 30 t (s.withStrict false) =
          (way.run basicHost 30 t (s.withStrict false), events) ∧
        (match events.filterMap Event.unknown? with
          | [] => way.run basicHost 30 t (s.withStrict true) =
              strictly (way.run basicHost 30 t (s.withStrict false))
          | (name, place) :: _ => ∃ u, way.run basicHost 30 t (s.withStrict true) =
              .error (.script ⟨.undefinedVariable name, place⟩) u) ∧
        ((∃ x u, way.run basicHost 30 t (s.withStrict true) = .error x u ∧ x.IsUndefined) ↔
          events.filterMap Event.unknown? ≠ [])) ∧
      ∀ (span : Span) (index : Int), 0 ≤ index ∨ s.context.arguments? = none →
        (∃ v, evaluate basicHost 31 (.name span argumentsName) s = .ok v s) ∧
          ∃ v, evaluate basicHost 31 (.argument span index) s = .ok v s) ∧
      (Traced.run way basicHost 30 t (s.withStrict false)).2.filterMap Event.unknown? =
        [("b", some ⟨some "f", ⟨1, 16⟩, ⟨1, 17⟩⟩)] ∧
      (match way.run basicHost 30 t (s.withStrict false) with
        | .ok _ u => u.context.output
        | .error _ _ => "") = "true" := by
  intro t s way
  refine ⟨basicHost_ignoresStrictness,
    strict_run basicHost_ignoresStrictness 30 t way s, by decide +kernel, by decide +kernel⟩

end Stencil

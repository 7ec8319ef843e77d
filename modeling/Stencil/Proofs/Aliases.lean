import Stencil.Proofs.Fetching

/-!
# Templates with several names

The recursion guard goes by names, and a loader may resolve several names to one path. So the includes
in flight are followed here as calls, with the name that each asks for and the path of its template
(`IncludeCall`); `Eval.TemplateRun.Throughout` says what holds of them at every point of a run. Calls in
flight ask for different names, whatever names are computed: `alias_guard` draws from this how often
a template may be included inside of itself, which is as often as it has names, and that it may not
be at all where the loader resolves different names to different paths.
-/

namespace Stencil

/-- An include that found the path of its template. -/
structure IncludeCall where
  name : String
  path : String
deriving DecidableEq

namespace Eval

/-- The path of the template that an include with these arguments asks for. -/
def pathAmong (span : Option Span) (arguments : List Value) (s : State) : String :=
  match s.context.loader with
  | none => ""
  | some loader =>
    match includePath (s.context.locate span) loader (nameAmong s arguments) s with
    | .ok path _ => path
    | .error _ _ => ""

/-- What an include with these arguments asks for. -/
def callAmong (span : Option Span) (arguments : List Value) (s : State) : IncludeCall :=
  ⟨nameAmong s arguments, pathAmong span arguments s⟩

theorem pathAmong_of_ok {span : Option Span} {arguments : List Value} {loader : Loader} {path : String}
    {s u : State} (hl : s.context.loader = some loader)
    (h : includePath (s.context.locate span) loader (nameAmong s arguments) s = .ok path u) :
    pathAmong span arguments s = path := by
  simp only [pathAmong, hl, h]

/-- Names that are asked for have no blank ends. -/
theorem strip_nameAmong (s : State) (arguments : List Value) :
    Text.strip (nameAmong s arguments) = nameAmong s arguments := by
  have hempty : Text.strip "" = "" := by decide
  cases arguments with
  | nil => exact hempty
  | cons v arguments =>
    rw [nameAmong]
    cases s.store.display v with
    | ok text => exact Text.strip_strip text
    | error e => exact hempty

/-- Throughout a run that begins inside of some includes, `P` holds of the includes in flight and of
the state: following the run with the calls and testing `P` at every point gives no alarm. -/
def TemplateRun.Throughout (way : TemplateRun) (host : Host) (fuel : Nat) (t : Template)
    (calls : List IncludeCall) (s : State) (P : List IncludeCall → State → Prop)
    [∀ calls s, Decidable (P calls s)] : Prop :=
  ∀ alarm, way.runWith (follow (fun span arguments s calls => callAmong span arguments s :: calls) alarm
    (fun calls s => decide (P calls s)) host fuel calls) t s = way.run host fuel t s

end Eval

open Eval

/-- As long as the library is good, which questions do not change, names without blank ends are found
at no paths but these. -/
structure Loader.FindsPaths (loader : Loader) (good : Library → Prop) (known : IncludeCall → Prop) :
    Prop where
  resolve {l : Library} : good l → ∀ span name, good (after (loader.resolve span name) l)
  load {l : Library} : good l → ∀ span path, good (after (loader.load span path) l)
  found {l l' : Library} {span : Option Span} {name raw : String} : good l → Text.strip name = name →
    loader.resolve span name l = .ok (some raw) l' → Text.strip raw ≠ "" →
    known ⟨name, Text.strip raw⟩

/-- A mapping finds each of its names at the path of that name. -/
theorem Loader.mapping_findsPaths (i : Nat) (names : List String) :
    (Loader.mapping i).FindsPaths (fun l => (l.cell i).texts.names = names)
      fun call => call.name ∈ names ∧ call.path = call.name where
  resolve := (mapping_findsOnly i names).resolve
  load := (mapping_findsOnly i names).load
  found {l l' span name raw} hl hname h hne := by
    refine ⟨(mapping_findsOnly i names).found hl h hne, ?_⟩
    simp only [Loader.resolve, Lookup.cell, bind_run, get_run, pure_run] at h
    split at h
    · cases h
      exact hname
    · cases h

/-- A function is asked at the path of the name, whatever the name is. -/
theorem Loader.function_findsPaths (i : Nat) :
    (Loader.function i).FindsPaths (fun _ => True) fun call => call.path = call.name where
  resolve _ _ _ := trivial
  load _ _ _ := trivial
  found _ hname h _ := by
    cases h
    exact hname

theorem Loader.FindsPaths.finding {loader : Loader} {good : Library → Prop} {known : IncludeCall → Prop}
    (h : loader.FindsPaths good known) :
    Finding (fun c l => c = some loader ∧ good l) fun _ => True :=
  Loader.finding h.resolve h.load fun _ _ _ => trivial

/-! ## What holds throughout -/

section Throughout

variable {host : Host} (hh : host.KeepsPending) (fuel : Nat) (t : Template) (way : TemplateRun)
  {calls : List IncludeCall} {s : State} (hs : s.Tracks (calls.map (·.name)))
  {P : List IncludeCall → State → Prop} [∀ calls s, Decidable (P calls s)]

include hh hs

/-- What holds of known calls for different names, which are pending, holds throughout a run that
comes to know of no others. -/
theorem throughout_inside {Q : Option Loader → Library → Prop} {K : IncludeCall → Prop}
    (hhost : ∀ name span arguments s, Q s.context.loader s.library →
      Q (after (host.contextual name span arguments) s).context.loader
        (after (host.contextual name span arguments) s).library)
    (F : Finding Q fun _ => True)
    (hfound : ∀ {loader : Loader} {l l' : Library} {span : Option Span} {name raw : String},
      Q (some loader) l → Text.strip name = name → loader.resolve span name l = .ok (some raw) l' →
      Text.strip raw ≠ "" → K ⟨name, Text.strip raw⟩)
    (hloader : Q s.context.loader s.library) (hcalls : ∀ call ∈ calls, K call)
    (hP : ∀ calls s, s.Tracks (calls.map (·.name)) → (∀ call ∈ calls, K call) → P calls s) :
    way.Throughout host fuel t calls s P := by
  intro alarm
  have hmatches (node : Node) :
      Matches True (Along (State.Inside Q (fun _ => True) (calls.map (·.name)) 0))
        (follow (fun span arguments s calls => callAmong span arguments s :: calls) alarm
          (fun calls s => decide (P calls s)) host fuel calls node)
        (evaluate host fuel node) := by
    refine matches_follow hh hhost F (fun hk hq hl he => ?_)
      (fun calls s hk hs => decide_eq_true (hP calls s hs hk)) alarm fuel calls 0 hcalls (.refl node)
    obtain ⟨raw, l, hr, hraw, hne⟩ := includePath_ok he
    refine ⟨rfl, List.forall_mem_cons.mpr ⟨?_, hk⟩⟩
    rw [callAmong, pathAmong_of_ok hl he, hraw]
    exact hfound hq (strip_nameAmong _ _) hr (hraw ▸ hne)
  rw [TemplateRun.run_eq]
  have hrun := (simulation_inside hh hhost (calls.map (·.name)) 0).runWith hmatches t way
  exact (hrun s s ⟨rfl, hs, fun _ _ => trivial, Nat.zero_le _, hloader⟩).eq_of_along

/-- What holds of calls for different names holds with every loader. -/
theorem throughout_of_tracks (hP : ∀ calls s, s.Tracks (calls.map (·.name)) → P calls s) :
    way.Throughout host fuel t calls s P :=
  throughout_inside hh fuel t way hs (K := fun _ => True) (fun _ _ _ _ h => h) finding_any
    (fun _ _ _ _ => trivial) trivial (fun _ _ => trivial) fun calls s h _ => hP calls s h

/-- What holds of known calls for different names holds with a loader that finds no others. -/
theorem Loader.FindsPaths.throughout {loader : Loader} {good : Library → Prop}
    {known : IncludeCall → Prop} (hfinds : loader.FindsPaths good known) (hk : host.KeepsLoader)
    (hl : s.context.loader = some loader) (hg : good s.library) (hknown : ∀ call ∈ calls, known call)
    (hP : ∀ calls s, s.Tracks (calls.map (·.name)) → (∀ call ∈ calls, known call) → P calls s) :
    way.Throughout host fuel t calls s P := by
  refine throughout_inside hh fuel t way hs (hk.keeps (Q := fun c l => c = some loader ∧ good l))
    hfinds.finding (fun hq hname hr hne => ?_) ⟨hl, hg⟩ hknown hP
  obtain ⟨hl', hg'⟩ := hq
  cases hl'
  exact hfinds.found hg' hname hr hne

end Throughout

/-! ## The guard, by paths -/

/-- There are no more calls than texts that are different for them. -/
theorem length_le_of_nodup {f : IncludeCall → String} {calls : List IncludeCall} {texts : List String}
    (h : (calls.map f).Nodup) (hmem : ∀ call ∈ calls, f call ∈ texts) :
    calls.length ≤ texts.length := by
  have hsubset : calls.map f ⊆ texts := List.forall_mem_map.mpr hmem
  simpa only [List.length_map] using (List.subperm_of_subset h hsubset).length_le

section Known

variable {known : IncludeCall → Prop} {calls : List IncludeCall} {s : State}
  (hs : s.Tracks (calls.map (·.name))) (hcalls : ∀ call ∈ calls, known call)

include hs hcalls

/-- There are no more calls for a path than names that it is known by. -/
theorem count_le_aliases {aliases : String → List String}
    (h : ∀ call, known call → call.name ∈ aliases call.path) (path : String) :
    calls.countP (·.path == path) ≤ (aliases path).length := by
  rw [List.countP_eq_length_filter]
  refine length_le_of_nodup (hs.nodup.sublist (List.filter_sublist.map _)) fun call hcall => ?_
  obtain ⟨hmem, hpath⟩ := List.mem_filter.mp hcall
  exact beq_iff_eq.mp hpath ▸ h call (hcalls call hmem)

/-- Where different names have different paths, so have different calls. -/
theorem nodup_paths
    (h : ∀ call other, known call → known other → call.path = other.path → call.name = other.name) :
    (calls.map (·.path)).Nodup := by
  refine List.Nodup.map_on (fun call hcall other hother hpath => ?_) (List.Nodup.of_map _ hs.nodup)
  have hname := h call other (hcalls call hcall) (hcalls other hother) hpath
  cases call
  cases other
  exact congrArg₂ IncludeCall.mk hname hpath

end Known

/-- The recursion guard, by paths. Throughout every run, the includes in flight ask for different
names, which are those that are pending. As long as the loader stays what it is and finds names only
at certain paths, includes are nested no deeper than there are such names, and a template is in flight
no more often than it has names. Only where the loader finds different names at different paths is no
template in flight twice; there, includes are nested no deeper than there are paths. -/
theorem alias_guard {host : Host} (hh : host.KeepsPending) (fuel : Nat) (t : Template)
    (way : TemplateRun) {calls : List IncludeCall} {s : State} (hs : s.Tracks (calls.map (·.name))) :
    way.Throughout host fuel t calls s (fun calls s => s.Tracks (calls.map (·.name))) ∧
      ∀ {loader : Loader} {good : Library → Prop} {known : IncludeCall → Prop}, host.KeepsLoader →
        loader.FindsPaths good known → s.context.loader = some loader → good s.library →
        (∀ call ∈ calls, known call) →
        (∀ names : List String, (∀ call, known call → call.name ∈ names) →
          way.Throughout host fuel t calls s fun calls _ => calls.length ≤ names.length) ∧
        (∀ aliases : String → List String, (∀ call, known call → call.name ∈ aliases call.path) →
          way.Throughout host fuel t calls s fun calls _ =>
            ∀ call ∈ calls, calls.countP (·.path == call.path) ≤ (aliases call.path).length) ∧
        ((∀ call other, known call → known other → call.path = other.path → call.name = other.name) →
          way.Throughout host fuel t calls s (fun calls _ => (calls.map (·.path)).Nodup) ∧
          ∀ paths : List String, (∀ call, known call → call.path ∈ paths) →
            way.Throughout host fuel t calls s fun calls _ => calls.length ≤ paths.length) := by
  refine ⟨throughout_of_tracks hh fuel t way hs fun _ _ h => h,
    fun {loader good known} hk hfinds hl hg hcalls => ?_⟩
  refine ⟨fun names hnames => ?_, fun aliases haliases => ?_, fun hinjective => ⟨?_, fun paths hpaths => ?_⟩⟩
  · exact hfinds.throughout hh fuel t way hs hk hl hg hcalls fun _ _ h hc =>
      length_le_of_nodup h.nodup fun call hcall => hnames call (hc call hcall)
  · exact hfinds.throughout hh fuel t way hs hk hl hg hcalls fun _ _ h hc call _ =>
      count_le_aliases h hc haliases call.path
  · exact hfinds.throughout hh fuel t way hs hk hl hg hcalls fun _ _ h hc => nodup_paths h hc hinjective
  · exact hfinds.throughout hh fuel t way hs hk hl hg hcalls fun _ _ h hc =>
      length_le_of_nodup (nodup_paths h hc hinjective) fun call hcall => hpaths call (hc call hcall)

/-- Two templates of a mapping that include each other. -/
theorem alias_guard_mutual :
    let page := "\x7b\x7b include(\"a\") \x7d\x7d"
    let t : Template := (Template.parse {} none page).toOption.getD {}
    let s : State :=
      { context := { loader := some (.mapping 0), scopes := [⟨5, []⟩] }
        library :=
          { cells := #[{ texts :=
              [("a", some "a\x7b\x7b include(\"b\") \x7d\x7d"), ("b", some "b\x7b\x7b include(\"a\") \x7d\x7d")] }] } }
    let known : IncludeCall → Prop := fun call => call.name ∈ ["a", "b"] ∧ call.path = call.name
    quietHost.KeepsPending ∧ quietHost.KeepsLoader ∧ s.Tracks [] ∧
      (Loader.mapping 0).FindsPaths (fun l => (l.cell 0).texts.names = ["a", "b"]) known ∧
      TemplateRun.render.Throughout quietHost 30 t [] s (fun calls s => s.Tracks (calls.map (·.name))) ∧
      (TemplateRun.render.Throughout quietHost 30 t [] s fun calls _ => calls.length ≤ 2) ∧
      (TemplateRun.render.Throughout quietHost 30 t [] s fun calls _ =>
        ∀ call ∈ calls, calls.countP (·.path == call.path) ≤ 1) ∧
      (TemplateRun.render.Throughout quietHost 30 t [] s fun calls _ => (calls.map (·.path)).Nodup) := by
  intro page t s known
  have hs : s.Tracks (([] : List IncludeCall).map (·.name)) := ⟨rfl, List.nodup_nil⟩
  have hfinds := Loader.mapping_findsPaths 0 ["a", "b"]
  have hguard := alias_guard quietHost_keepsPending 30 t .render hs
  obtain ⟨hnames, haliases, hpaths⟩ :=
    hguard.2 quietHost_keepsLoader hfinds rfl (by decide +kernel) (List.forall_mem_nil _)
  exact ⟨quietHost_keepsPending, quietHost_keepsLoader, hs, hfinds, hguard.1,
    hnames ["a", "b"] fun _ h => h.1,
    haliases (fun path => [path]) fun _ h => List.mem_singleton.mpr h.2.symm,
    (hpaths fun _ _ h h' hpath => h.2.symm.trans (hpath.trans h'.2)).1⟩

/-- A file that includes itself with a dot in front of its name: the loader finds it there again, and
the guard lets it pass. -/
theorem not_alias_guard :
    ¬ ∀ (host : Host) (fuel : Nat) (t : Template) (way : TemplateRun) (s : State),
      host.KeepsPending → host.KeepsLoader → s.Tracks [] →
      way.Throughout host fuel t [] s fun calls _ => (calls.map (·.path)).Nodup := by
  intro h
  let page := "\x7b\x7b include(\"a\", true) \x7d\x7d"
  let t : Template := (Template.parse {} none page).toOption.getD {}
  let text := "x\x7b\x7b if $0 \x7d\x7d\x7b\x7b include(\"./a\") \x7d\x7d\x7b\x7b end \x7d\x7d"
  let s : State :=
    { context := { loader := some (.files [["d"]] .utf8), scopes := [⟨5, []⟩] }
      library := { tree := { files := [(["d", "a"], text.toUTF8.toList)] } } }
  let followed := TemplateRun.render.runWith (follow
    (fun span arguments s calls => callAmong span arguments s :: calls) .exhausted
    (fun calls _ => decide (calls.map (·.path)).Nodup) quietHost 30 []) t
  have hrun : followed s = TemplateRun.render.run quietHost 30 t s :=
    h quietHost 30 t .render s quietHost_keepsPending quietHost_keepsLoader ⟨rfl, List.nodup_nil⟩ _
  have hfollowed : (after followed s).context.sink.text = "" := by decide +kernel
  rw [after, hrun, ← after] at hfollowed
  have htwice : (after (TemplateRun.render.run quietHost 30 t) s).context.sink.text = "xx" := by
    decide +kernel
  exact absurd (hfollowed.symm.trans htwice) (by decide)

end Stencil

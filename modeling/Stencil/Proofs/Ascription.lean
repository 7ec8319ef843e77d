import Stencil.Proofs.Blame
import Stencil.Proofs.CacheHistory
import Stencil.Proofs.Ranges
import Stencil.Proofs.Recursion

/-!
# Errors name the template

While a template is evaluated, its file is on top of the files being executed; one without a file is
evaluated in the file around it, if there is one. And the script errors of evaluation name that
file, however far they travel: one that comes out of an include still names the template that it was
made in, and what a template writes when its file was left already is placed as if it had not been.

To say so at every point of a run, `Eval.ascribe` evaluates with a ghost: the file of the template
that is being evaluated. Before and behind every node it tests whether this is the file on top, and
gives an alarm if it is not; and it places what a node fails with by itself in that file, whatever
the place was before. `errors_ascribed` says that it comes to what evaluation comes to.
-/

namespace Stencil

open Eval

/-! ## Templates in their file -/

/-- The ranges of a tree that nests belong to its file. -/
theorem Node.Nests.liesIn {file : Option String} {n : Node} (h : n.Nests file) : n.LiesIn file := by
  induction h with
  | absent => exact .intro nofun (List.forall_mem_nil _)
  | @node n span hspan hfile _ _ _ _ ih =>
    refine .intro (fun s hs => ?_) fun m hm => ih m ?_
    · rw [hspan] at hs
      cases hs
      exact hfile
    · cases n with
      | page span body front => exact List.Perm.mem_iff (.swap _ _ _) |>.mp hm
      | _ => exact hm

theorem Node.span?_numbered (n : Node) (k : Nat) : (n.numbered k).1.span? = n.span? := by
  cases n with
  | text span value id =>
    unfold Node.numbered
    split <;> rfl
  | _ => rfl

/-- The literals of a tree are numbered without moving it. -/
theorem Node.LiesIn.numbered {file : Option String} {n : Node} (h : n.LiesIn file) (k : Nat) :
    (n.numbered k).1.LiesIn file := by
  induction h generalizing k with
  | @intro n hhere _ ih =>
    refine .intro (fun span hs => hhere span (n.span?_numbered k ▸ hs)) fun m hm => ?_
    obtain ⟨n', hn', j, rfl⟩ := mem_of_forall₂ (n.children_numbered k) hm
    exact ih n' hn' j

/-- Whatever is said about a source is an error. -/
theorem Template.diagnostics_of_parse {options : TemplateOptions} {path : Option String}
    {source : String} {t : Template} (h : Template.parse options path source = .ok t)
    (he : t.hasErrors = false) : t.diagnostics = [] := by
  obtain ⟨-, rfl⟩ | ⟨-, page, c, -, -, -, -, hdiagnostics, -⟩ := Template.parse_ok h
  · rfl
  refine List.eq_nil_iff_forall_not_mem.mpr fun d hd => ?_
  have hd' : d.isError = true := by
    rw [hdiagnostics, List.mem_append] at hd
    obtain hd | hd := hd
    · obtain ⟨_, _, hd⟩ := List.mem_filterMap.mp hd
      obtain ⟨_, _, rfl⟩ := Option.map_eq_some_iff.mp hd
      rfl
    · obtain ⟨_, _, rfl⟩ := List.mem_map.mp hd
      rfl
  rw [Template.hasErrors, Stencil.hasErrors, List.any_eq_false] at he
  exact he d hd hd'

/-- The ranges of a template without a complaint belong to its file. -/
theorem Template.liesIn_of_parse {options : TemplateOptions} {path : Option String} {source : String}
    {t : Template} (h : Template.parse options path source = .ok t) (hclean : t.diagnostics = [])
    {page : Page} (hpage : t.page = some page) : page.node.LiesIn path := by
  obtain ⟨-, rfl⟩ | ⟨-, page', c, hread, hpage', -, -, hdiagnostics, -⟩ := Template.parse_ok h
  · cases hpage
  obtain rfl := Option.some.inj (hpage.symm.trans hpage')
  exact (Template.nests_of_readPage hread (hdiagnostics.symm.trans hclean)).liesIn

/-- The ranges of a template that runs belong to its file. -/
theorem Template.IsLoaded.liesIn {t : Template} (h : t.IsLoaded) (he : t.hasErrors = false)
    (page : Page) (hp : t.page = some page) : page.node.LiesIn t.path := by
  obtain ⟨⟨id, read⟩, ⟨options, path, source, hread⟩, rfl⟩ := h
  have hpath := Template.path_of_parse hread
  obtain ⟨page₀, path₀, diagnostics, source₀⟩ := read
  cases page₀ with
  | none => nomatch hp
  | some page₀ =>
    cases hp
    obtain rfl : path₀ = path := hpath
    exact (Template.liesIn_of_parse hread (Template.diagnostics_of_parse hread he) rfl).numbered (id + 1)

/-! ## Ascribed runs -/

namespace Eval

/-- Evaluates a node in a file. What it fails with by itself is placed there. Where the file is not
the one on top of those being executed, before the node or behind it, there is an alarm. An included
template is evaluated in its own file, or else in this one. -/
def ascribe (alarm : Failure) (host : Host) : Nat → Option String → Node → Eval Value
  | 0, _, _ => throw .exhausted
  | fuel + 1, file, node =>
    let parts : Runner := ⟨evaluate host fuel, renderWith (evaluate host fuel)⟩
    let render (t : Template) : Eval Unit :=
      naming (t.path.or file) (renderWith (fun n => hushed (evaluate host fuel n)) t)
        (renderWith (ascribe alarm host fuel (t.path.or file)) t)
    guarded alarm (fun s => s.context.sourceFile? = file)
      (naming file (step host.hushed parts.hushed fuel node)
        (step host ⟨ascribe alarm host fuel file, render⟩ fuel node))

/-- A run of a template in a file. -/
def TemplateRun.ascribed (alarm : Failure) (host : Host) (fuel : Nat) (file : Option String)
    (t : Template) (way : TemplateRun) : Eval Value :=
  naming (t.path.or file) (way.runWith (fun n => hushed (Eval.evaluate host fuel n)) t)
    (way.runWith (ascribe alarm host fuel (t.path.or file)) t)

theorem head?_entered (path : Option String) (files : List String) :
    (path.toList ++ files).head? = path.or files.head? := by
  cases path <;> rfl

/-- Where a template has entered its file, that file is on top. -/
theorem or_head?_entered (path : Option String) (files : List String) :
    path.or (path.toList ++ files).head? = (path.toList ++ files).head? := by
  rw [head?_entered, ← Option.or_assoc, Option.or_self]

/-- An ascribed node comes to what the node comes to, by induction on the steps: the nodes below
lie in the same file, and an included template in the file that it enters, if it has one. -/
theorem ascribe_eq (alarm : Failure) {host : Host} (hh : host.LeavesFiles) (fuel : Nat) :
    ∀ {files : List String} {path : Option String}, path.or files.head? = files.head? →
      ∀ {node : Node}, node.LiesIn path → ∀ s : State, s.Executes files →
        ascribe alarm host fuel files.head? node s = evaluate host fuel node s ∧
          (after (evaluate host fuel node) s).Executes files := by
  induction fuel with
  | zero => exact fun _ _ _ _ hs => ⟨rfl, hs⟩
  | succ fuel ih =>
    intro files path hpath node hnode s hs
    let parts : Runner := ⟨evaluate host fuel, renderWith (evaluate host fuel)⟩
    let render (t : Template) : Eval Unit :=
      naming (t.path.or files.head?) (renderWith (fun n => hushed (evaluate host fuel n)) t)
        (renderWith (ascribe alarm host fuel (t.path.or files.head?)) t)
    have hrender (t : Template) (ht : t.IsLoaded) :
        TellsOwn files files.head? (parts.hushed.render t) (render t) (parts.render t) := by
      refine .part fun u hu => (TellsOwn.renderWith (fun n hn => ?_) ht.liesIn rfl).naming hu
      rw [← head?_entered]
      exact .part (ih (or_head?_entered t.path files) hn)
    have hstep : TellsOwn files files.head? (step host.hushed parts.hushed fuel node)
        (step host ⟨ascribe alarm host fuel files.head?, render⟩ fuel node)
        (step host parts fuel node) :=
      .step hh (fun n hn => .part (ih hpath hn)) hpath hrender fuel hnode
    obtain ⟨heq, hafter⟩ := hstep.naming hs
    have hbehind : (after (naming files.head? (step host.hushed parts.hushed fuel node)
        (step host ⟨ascribe alarm host fuel files.head?, render⟩ fuel node)) s).Executes files := by
      rw [Stencil.after, heq]
      exact hafter
    let test (u : State) : Bool := u.context.sourceFile? = files.head?
    have htest {u : State} (hu : u.Executes files) : test u = true :=
      decide_eq_true (congrArg List.head? hu.files)
    refine ⟨?_, hafter⟩
    show guarded alarm test _ s = _
    rw [guarded_run (htest hs) (htest hbehind)]
    exact heq

end Eval

/-- Errors name the template. Testing before and behind every node whether its file is on top gives no
alarm, and placing in that file what a node or a template fails with by itself changes nothing, at
whatever point of whatever run. What a function of the host writes, reads or binds at the place that
it was called from fails in the file on top as well. -/
theorem errors_ascribed {host : Host} (hh : host.LeavesFiles) (fuel : Nat) {t : LoadedTemplate}
    (ht : t.IsRead) (way : Eval.TemplateRun) {s : State} (hs : s.CacheIsRead) :
    (∀ alarm, way.ascribed alarm host fuel s.context.sourceFile? t.numbered s =
      way.run host fuel t.numbered s) ∧
    ∀ {u w : State}, u.CacheIsRead →
      ∀ {span : Option Span}, Fits u.context.sourceFiles u.context.sourceFile? span →
        ∀ {x : Failure}, (∃ v, Eval.write span v u = .error x w) ∨
            (∃ name, Eval.lookUp name span u = .error x w) ∨
            (∃ name v, Eval.assign name v span u = .error x w) →
          x.Names u.context.sourceFile? := by
  refine ⟨fun alarm => ?_, fun {u w} hu {span} hspan {x} hx => ?_⟩
  · have hloaded : t.numbered.IsLoaded := ⟨t, ht, rfl⟩
    have hrun : TellsOwn s.context.sourceFiles (t.numbered.path.or s.context.sourceFile?)
        (way.runWith (fun n => hushed (evaluate host fuel n)) t.numbered)
        (way.runWith (ascribe alarm host fuel (t.numbered.path.or s.context.sourceFile?)) t.numbered)
        (way.runWith (evaluate host fuel) t.numbered) := by
      refine .runWith (fun n hn => ?_) hloaded.liesIn rfl way
      rw [Context.sourceFile?, ← head?_entered]
      exact .part (ascribe_eq alarm hh fuel (or_head?_entered _ _) hn)
    rw [Eval.TemplateRun.run_eq]
    exact (hrun.naming ⟨rfl, hs⟩).1
  · have hexecutes : u.Executes u.context.sourceFiles := ⟨rfl, hu⟩
    rcases hx with ⟨v, hx⟩ | ⟨name, hx⟩ | ⟨name, v, hx⟩
    · exact FailsAlone.names (.write hspan v) hexecutes hx
    · exact FailsAlone.names (.lookUp name hspan) hexecutes hx
    · exact FailsAlone.names (.assign name v hspan) hexecutes hx

theorem quietHost_leavesFiles : quietHost.LeavesFiles :=
  quietHost_moves
    { refl := fun _ => ⟨rfl, id⟩
      trans := fun h k => ⟨k.1.trans h.1, k.2 ∘ h.2⟩ }
    (fun _ _ => ⟨rfl, id⟩) (fun _ _ => ⟨rfl, id⟩) (fun _ _ => ⟨rfl, id⟩) fun _ _ _ => ⟨rfl, id⟩

/-- A template without a file, in one that has a file and is included itself. What it comes to has
no text: that fails in the file around it. -/
theorem errors_ascribed_nested :
    let page := "\x7b\x7b include(\"a\") \x7d\x7d"
    let t : LoadedTemplate := ⟨0, (Template.parse {} (some "page") page).toOption.getD {}⟩
    let kept : LoadedTemplate := ⟨20, (Template.parse {} none "\x7b\x7b u \x7d\x7d").toOption.getD {}⟩
    let u := Value.unprintable 0 "U" (.host "no text")
    let s : State :=
      { context := { loader := some (.mapping 0), scopes := [⟨5, [("u", u)]⟩] }
        cache := [("b", kept)]
        library :=
          { cells := #[{ texts :=
              [("a", some "a\x7b\x7b include(\"b\") \x7d\x7d"), ("b", some "")] }] } }
    quietHost.LeavesFiles ∧ t.IsRead ∧ s.CacheIsRead ∧
      (∀ alarm, Eval.TemplateRun.render.ascribed alarm quietHost 30 none t.numbered s =
        Eval.TemplateRun.render.run quietHost 30 t.numbered s) ∧
      (match Eval.TemplateRun.render.run quietHost 30 t.numbered s with
        | .error x _ => x.place?.bind Span.file
        | _ => none) = some "a" ∧
      ∃ x w, Eval.write (some ⟨none, .start, .start⟩) u (s.inFiles ["a"]) = .error x w ∧
        x.Names (some "a") := by
  intro page t kept u s
  have hread : t.IsRead := LoadedTemplate.isRead_of_toBool (by decide +kernel) _
  have hkept : kept.IsRead := LoadedTemplate.isRead_of_toBool (by decide +kernel) _
  have hcache : s.CacheIsRead := by
    intro path other h
    have h : (if "b" = path then some kept else none) = some other := h
    split at h
    · cases h
      exact hkept
    · cases h
  have hascribed := errors_ascribed quietHost_leavesFiles 30 hread .render hcache
  have hfits : Fits ["a"] (some "a") (some ⟨none, .start, .start⟩) := by
    rintro _ ⟨⟩
    rfl
  have hwrite : Eval.write (some ⟨none, .start, .start⟩) u (s.inFiles ["a"]) =
      .error (.script ⟨.cannotConvert "U" "no text", some ⟨some "a", .start, .start⟩⟩)
        (s.inFiles ["a"]) := rfl
  have hnamed := hascribed.2 (u := s.inFiles ["a"]) hcache hfits (.inl ⟨u, hwrite⟩)
  exact ⟨quietHost_leavesFiles, hread, hcache, hascribed.1, by decide +kernel, _, _, hwrite, hnamed⟩

end Stencil

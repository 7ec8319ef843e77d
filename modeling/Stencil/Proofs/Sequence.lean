import Stencil.Proofs.Numbering
import Stencil.Proofs.Places

/-!
# Sources behind each other

A source that is put behind another one is rendered behind it (`Template.render_append`).
The statements of both sources follow each other on one page, so all that has to be looked
at is what becomes of them at the seam. The value of the last statement of the first
source is no longer handed up but written on the spot, which is the same
(`same_render`); the file that both are executed in is not left in between
(`within_seq`); and a text that goes on over the seam is written at once instead of in
two parts, which leaves the same text in the sink (`NodesJoin.matches_executeRow`).
-/

namespace Stencil

open Eval Grammar

/-! ## Rows of statements -/

namespace Eval

variable {host : Host}

/-- Executes statements as a page does: each writes the value that it has. The steps to go
down are those of the page, which is two steps above. -/
def executeRow (host : Host) : Nat → List Node → Eval Unit
  | fuel + 2, nodes => nodes.forM fun node => do writeResult none (← evaluate host fuel node)
  | _, _ => throw .exhausted

/-- Statements behind each other are executed one after the other. -/
theorem executeRow_append (fuel : Nat) (as bs : List Node) :
    executeRow host fuel (as ++ bs) = (do executeRow host fuel as; executeRow host fuel bs) := by
  obtain _ | _ | fuel := fuel
  · rfl
  · rfl
  · exact List.forM_append

theorem executeRow_cons (fuel : Nat) (node : Node) (rest : List Node) :
    executeRow host fuel (node :: rest) =
      (do executeRow host fuel [node]; executeRow host fuel rest) :=
  executeRow_append fuel [node] rest

/-- A row of statements is rendered by executing them in their file. -/
theorem same_render (hk : host.KeepsFiles) {t : Template} {path : Option String}
    {nodes : List Node} (h : t.IsRow path nodes) (fuel : Nat) :
    Same (render host fuel t) (within path (executeRow host fuel nodes)) := by
  obtain ⟨span, inner, hpage⟩ := h.page
  have hplace (fuel : Nat) (span : Option Span) (n : Node) :
      Same (do writeResult span (← evaluate host fuel n)) (do writeResult none (← evaluate host fuel n)) :=
    .bind (.refl _) fun v => .writeResult span none v
  have hexec : Same
      (do writeResult none (← evaluate host fuel (.page span (.block inner nodes) .absent)))
      (executeRow host fuel nodes) := by
    obtain _ | _ | fuel := fuel
    · exact .refl _
    · exact .refl _
    · exact Same.statements_exec (hplace fuel) none nodes
  refine (same_renderWith hk (hplace fuel) t).trans ?_
  have hcheck : checkErrors t = pure () := by
    rw [checkErrors, Template.hasErrors, h.clean]
    rfl
  rw [Direct.renderWith, hcheck, hpage, h.path]
  exact .within hexec

/-- What is executed in a file that it leaves as it was entered can be executed in two
parts. -/
theorem within_seq (path : Option String) {first : Eval Unit} (h : Moves State.SameFiles first)
    (second : Eval Unit) :
    within path (do first; second) = (do within path first; within path second) := by
  cases path with
  | none => rfl
  | some path =>
    have hwithin (body : Eval Unit) (s : State) : within (some path) body s =
        ensuring body (do let _ ← popSourceFile) (s.inFiles (path :: s.context.sourceFiles)) := rfl
    funext s
    have hfiles := h (s.inFiles (path :: s.context.sourceFiles))
    rw [bind_run, hwithin, hwithin]
    cases hfirst : first (s.inFiles (path :: s.context.sourceFiles)) with
    | error x t =>
      rw [after_of_error hfirst] at hfiles
      simp only [ensuring, bind_run, hfirst, popSourceFile_run hfiles, pure_run]
    | ok a t =>
      rw [after_of_ok hfirst] at hfiles
      -- behind the first part, the file is entered again as it was left
      have hagain : (t.inFiles s.context.sourceFiles).inFiles (path :: s.context.sourceFiles) = t := by
        rw [← show t.context.sourceFiles = path :: s.context.sourceFiles from hfiles]
        rfl
      have hleft : ensuring first (do let _ ← popSourceFile)
          (s.inFiles (path :: s.context.sourceFiles)) = .ok a (t.inFiles s.context.sourceFiles) := by
        simp only [ensuring, bind_run, hfirst, popSourceFile_run hfiles, pure_run]
        rfl
      rw [hleft]
      show _ = within (some path) second (t.inFiles s.context.sourceFiles)
      rw [hwithin, show (t.inFiles s.context.sourceFiles).context.sourceFiles =
        s.context.sourceFiles from rfl, hagain]
      simp only [ensuring, bind_run, hfirst]

end Eval

/-! ## Over the seam -/

section Seam

variable {host : Host} (h : host.IgnoresPlaces)

theorem NodesLike.append_inv {placed : Prop} {as bs nodes : List Node}
    (h : NodesLike placed (as ++ bs) nodes) :
    ∃ as' bs', nodes = as' ++ bs' ∧ NodesLike placed as as' ∧ NodesLike placed bs bs' := by
  induction as generalizing nodes with
  | nil => exact ⟨[], nodes, rfl, .nil, h⟩
  | cons a as ih =>
    cases h with
    | cons ha hrest =>
      obtain ⟨as', bs', rfl, has, hbs⟩ := ih hrest
      exact ⟨_ :: as', bs', rfl, .cons ha has, hbs⟩

theorem State.Twins.refl (s : State) : s.Twins SameTexts Library.Alike 0 s where
  store_eq := rfl
  cache_eq := rfl
  context_eq := rfl
  library := .refl _
  sinks := .bottom rfl

namespace Eval

/-- Evaluations that match, up to the places of failures. -/
theorem Matches.congr {R : State → State → Prop} {α : Type} {e e' f f' : Eval α}
    (h : Matches False R e' f') (he : Same e e') (hf : Same f f') : Matches False R e f := by
  intro s t hst
  have hr := h s t hst
  obtain ⟨a, u, e₁, e₂⟩ | ⟨x, x', u, e₁, e₂, hx⟩ := Same.cases_at (he s)
  all_goals
    obtain ⟨b, v, f₁, f₂⟩ | ⟨y, y', v, f₁, f₂, hy⟩ := Same.cases_at (hf t)
    all_goals
      rw [e₂, f₂] at hr
      rw [e₁, f₁]
      cases hr
  · next hr => exact .ok hr
  · next hxy hr => exact .error ⟨hx.trans (hxy.unplaced.trans hy.symm), nofun⟩ hr

/-- A run is like itself. -/
theorem alike_refl {α : Type} (e : Eval α) (s : State) :
    Alike False (State.Twins SameTexts Library.Alike 0) (e s) (e s) :=
  (Matches.refl e s s rfl).mono fun s _ hst => hst ▸ .refl s

/-- A text is always written as it is. -/
theorem writeResult_text_run (id : Nat) (text : String) (s : State) :
    writeResult none (.text id text) s =
      .ok () (if s.context.outputEnabled then s.wrote (.text id text) text else s) := by
  have hdisplay : s.store.display (.text id text) = .ok text := rfl
  rw [writeResult_run, State.written, hdisplay]
  cases s.context.outputEnabled <;> rfl

end Eval

/-- What is written in two parts on one side is written at once on the other. -/
theorem State.Twins.wroteBoth {L : Library → Library → Prop} {s t : State}
    (h : s.Twins SameTexts L 0 t) (v w u : Value) (a b : String) :
    State.Twins SameTexts L 0 ((s.wrote v a).wrote w b) (t.wrote u (a ++ b)) where
  store_eq := h.store_eq
  cache_eq := h.cache_eq
  context_eq := congrArg (fun c : Context => { c with sink := t.context.sink.write u (a ++ b) })
    h.context_eq
  library := h.library
  sinks := by
    obtain ⟨htop, hbelow⟩ := List.cons.inj h.sinks.base
    refine .bottom ?_
    show (t.context.sink.write u (a ++ b)).text :: t.context.sinksBelow.map Sink.text =
      ((s.context.sink.write v a).write w b).text :: s.context.sinksBelow.map Sink.text
    rw [Sink.write_text, Sink.write_text, Sink.write_text, htop, hbelow, String.append_assoc]

namespace Host.IgnoresPlaces

include h

theorem simulation : Simulation False host (State.Twins SameTexts Library.Alike 0) :=
  h.twinning.simulation 0

/-- Statements that are the same up to their places. -/
theorem matches_executeRow (fuel : Nat) {nodes nodes' : List Node} (hn : NodesLike False nodes nodes') :
    Matches False (State.Twins SameTexts Library.Alike 0) (executeRow host fuel nodes)
      (executeRow host fuel nodes') := by
  obtain _ | _ | fuel := fuel
  · exact .throw _
  · exact .throw _
  · induction nodes generalizing nodes' with
    | nil =>
      cases hn
      exact .pure _
    | cons node rest ih =>
      cases hn with
      | cons hnode hrest =>
        exact ((h.twinning.evaluate fuel 0 hnode).bind fun v => h.simulation.writeResult v nofun).bind
          fun _ => ih hrest

/-- Two texts behind each other are as good as one. -/
theorem matches_texts (fuel : Nat) (span span' place : Span) (a b : List Char) (i j k : Nat) :
    Matches False (State.Twins SameTexts Library.Alike 0)
      (do
        executeRow host fuel [.text span (String.ofList a) i]
        executeRow host fuel [.text span' (String.ofList b) j])
      (executeRow host fuel [.text place (String.ofList (a ++ b)) k]) := by
  obtain _ | _ | _ | fuel := fuel
  · exact .throw _
  · exact .throw _
  · exact .throw _
  · have hrun (span : Span) (text : String) (id : Nat) (s : State) :
        executeRow host (fuel + 3) [.text span text id] s = writeResult none (.text id text) s := by
      show (writeResult none (.text id text) >>= pure) s = _
      rw [bind_pure]
    intro s t hst
    have ht := h.simulation.enabled hst
    rw [bind_run, hrun, hrun, writeResult_text_run, writeResult_text_run, ht, String.ofList_append]
    dsimp only
    rw [hrun, writeResult_text_run]
    cases ho : s.context.outputEnabled with
    | true =>
      have hwrote (v : Value) (text : String) : (s.wrote v text).context.outputEnabled = true := ho
      simp only [if_true, hwrote]
      exact .ok (hst.wroteBoth _ _ _ _ _)
    | false =>
      simp only [Bool.false_eq_true, if_false, ho]
      exact .ok hst

/-- What follows each other is executed as it is put together. -/
theorem matches_join {fresh : Prop} (fuel : Nat) {as bs nodes : List Node}
    (hn : NodesJoin fresh as bs nodes) :
    Matches False (State.Twins SameTexts Library.Alike 0)
      (do executeRow host fuel as; executeRow host fuel bs) (executeRow host fuel nodes) := by
  cases hn with
  | behind hlike =>
    rw [← executeRow_append]
    exact h.matches_executeRow fuel hlike
  | @merged as bs _ span span' place a b i j k _ _ _ hlike =>
    obtain ⟨as', rest, rfl, has, hrest⟩ := hlike.append_inv
    cases hrest with
    | @cons _ _ _ bs' htext hbs =>
      cases htext with
      | @text _ place' =>
        have htexts := h.matches_texts fuel span span' place' a b i j k
        have hleft : (do
              executeRow host fuel (as ++ [.text span (String.ofList a) i])
              executeRow host fuel (.text span' (String.ofList b) j :: bs)) = (do
              executeRow host fuel as
              (do
                executeRow host fuel [.text span (String.ofList a) i]
                executeRow host fuel [.text span' (String.ofList b) j])
              executeRow host fuel bs) := by
          rw [executeRow_append, executeRow_cons fuel (.text span' (String.ofList b) j) bs]
          simp only [bind_assoc]
        rw [hleft, executeRow_append, executeRow_cons fuel _ bs']
        exact (h.matches_executeRow fuel has).bind fun _ => htexts.bind fun _ =>
          h.matches_executeRow fuel hbs

theorem sameFiles_executeRow (fuel : Nat) (nodes : List Node) :
    Moves State.SameFiles (executeRow host fuel nodes) := by
  have F := h.frame
  obtain _ | _ | fuel := fuel
  · exact F.throw _
  · exact F.throw _
  · exact F.forM (fun node => F.bind (F.evaluate fuel (node.bindsOnly_of_forall fun _ => trivial))
      fun v => F.writeResult none v) nodes

/-- Templates behind each other render as the template that they are put together to. -/
theorem matches_render_join {fresh : Prop} (fuel : Nat) {t₁ t₂ t : Template} {path : Option String}
    {nodes₁ nodes₂ nodes : List Node} (h₁ : t₁.IsRow path nodes₁) (h₂ : t₂.IsRow path nodes₂)
    (ht : t.IsRow path nodes) (hn : NodesJoin fresh nodes₁ nodes₂ nodes) :
    Matches False (State.Twins SameTexts Library.Alike 0)
      (do render host fuel t₁; render host fuel t₂) (render host fuel t) := by
  have hparts : Same (do render host fuel t₁; render host fuel t₂)
      (within path (do executeRow host fuel nodes₁; executeRow host fuel nodes₂)) := by
    rw [within_seq path (h.sameFiles_executeRow fuel nodes₁)]
    exact .bind (same_render h.keepsFiles h₁ fuel) fun _ => same_render h.keepsFiles h₂ fuel
  exact (h.simulation.within (h.matches_join fuel hn)).congr hparts
    (same_render h.keepsFiles ht fuel)

end Host.IgnoresPlaces

end Seam

/-! ## Sources -/

/-- Two sources without a complaint make one without a complaint, unless a delimiter comes
about at the seam, and to render it is to render the one and then the other: with the
same outcome, up to the place of a failure, and in the same state, up to what the texts in
the sinks were put together from. Numbers only tell literals apart; those of the second
source are taken so that each literal has the same one on both sides. -/
theorem Template.render_append {options : TemplateOptions} {path : Option String}
    {source₁ source₂ : String} {t₁ t₂ : Template} (hmode : options.lexer.mode = .default)
    (h₁ : Template.parse options path source₁ = .ok t₁) (hclean₁ : t₁.diagnostics = [])
    (h₂ : Template.parse options path source₂ = .ok t₂) (hclean₂ : t₂.diagnostics = [])
    (hseam : ¬ (source₁.toList.getLast? = some '\x7b' ∧ source₂.toList.head? = some '\x7b')) :
    ∃ t, Template.parse options path (source₁ ++ source₂) = .ok t ∧ t.diagnostics = [] ∧
      ∀ id, ∃ id', id ≤ id' ∧ ∀ host : Host, host.IgnoresPlaces → ∀ fuel s,
        Alike False (State.Twins SameTexts Library.Alike 0)
          ((do
            render host fuel (LoadedTemplate.numbered ⟨id, t₁⟩)
            render host fuel (LoadedTemplate.numbered ⟨id', t₂⟩) : Eval Unit) s)
          (render host fuel (LoadedTemplate.numbered ⟨id, t⟩) s) := by
  by_cases hsource₁ : source₁ = ""
  · subst hsource₁
    obtain rfl : { path } = t₁ := Except.ok.inj h₁
    exact ⟨t₂, h₂, hclean₂, fun id => ⟨id, Nat.le_refl id, fun host _ fuel s =>
      alike_refl (render host fuel (LoadedTemplate.numbered ⟨id, t₂⟩)) s⟩⟩
  by_cases hsource₂ : source₂ = ""
  · subst hsource₂
    obtain rfl : { path } = t₂ := Except.ok.inj h₂
    refine ⟨t₁, String.append_empty.symm ▸ h₁, hclean₁, fun id => ⟨id, Nat.le_refl id, ?_⟩⟩
    intro host _ fuel s
    have hnothing : (do
          render host fuel (LoadedTemplate.numbered ⟨id, t₁⟩)
          render host fuel (LoadedTemplate.numbered ⟨id, { path }⟩) : Eval Unit) =
        render host fuel (LoadedTemplate.numbered ⟨id, t₁⟩) := bind_pure _
    rw [hnothing]
    exact alike_refl _ s
  obtain ⟨t, nodes₁, nodes₂, nodes, ht, hrow₁, hrow₂, hrow, hjoin⟩ :=
    Template.parse_append hmode hsource₁ hsource₂ h₁ hclean₁ h₂ hclean₂ hseam
  refine ⟨t, ht, hrow.clean, fun id => ?_⟩
  obtain ⟨m, hm, hnumbered⟩ := hjoin.numbered (id + 1)
  obtain ⟨k, rfl⟩ := Nat.exists_eq_add_of_le' hm
  exact ⟨k + id, Nat.le_add_left id k, fun host h fuel s =>
    h.matches_render_join fuel (hrow₁.numbered (id + 1)) (hrow₂.numbered (k + id + 1))
      (hrow.numbered (id + 1)) hnumbered s s (.refl s)⟩

/-- Two sources with a text that goes on over the seam and an expression behind it. -/
theorem Template.render_append_greeting :
    let source₁ := "\x7b\x7b word \x7d\x7d, wo"
    let source₂ := "rld\x7b\x7b mark \x7d\x7d"
    let read (source : String) : Template := (Template.parse {} (some "page") source).toOption.getD {}
    let s : State :=
      { context := { scopes := [⟨5, [("word", .text 6 "Hello"), ("mark", .text 7 "!")]⟩] } }
    Template.parse {} (some "page") source₁ = .ok (read source₁) ∧ (read source₁).diagnostics = [] ∧
      Template.parse {} (some "page") source₂ = .ok (read source₂) ∧ (read source₂).diagnostics = [] ∧
      quietHost.IgnoresPlaces ∧
      (∃ id', Alike False (State.Twins SameTexts Library.Alike 0)
        ((do
          render quietHost 20 (LoadedTemplate.numbered ⟨8, read source₁⟩)
          render quietHost 20 (LoadedTemplate.numbered ⟨id', read source₂⟩) : Eval Unit) s)
        (render quietHost 20 (LoadedTemplate.numbered ⟨8, read (source₁ ++ source₂)⟩) s)) ∧
      (after (render quietHost 20
        (LoadedTemplate.numbered ⟨8, read (source₁ ++ source₂)⟩)) s).context.output = "Hello, world!" := by
  intro source₁ source₂ read s
  have hread (source : String) (h : (Template.parse {} (some "page") source).toBool = true) :
      Template.parse {} (some "page") source = .ok (read source) := by
    subst read
    dsimp only
    cases hp : Template.parse {} (some "page") source with
    | ok t => rfl
    | error e =>
      rw [hp] at h
      cases h
  have h₁ := hread source₁ (by decide +kernel)
  have h₂ := hread source₂ (by decide +kernel)
  have hclean₁ : (read source₁).diagnostics = [] := List.isEmpty_iff.mp (by decide +kernel)
  have hclean₂ : (read source₂).diagnostics = [] := List.isEmpty_iff.mp (by decide +kernel)
  obtain ⟨t, ht, -, happend⟩ := Template.render_append rfl h₁ hclean₁ h₂ hclean₂ (by decide +kernel)
  obtain rfl : t = read (source₁ ++ source₂) :=
    Except.ok.inj (ht.symm.trans (hread _ (by rw [ht]; rfl)))
  obtain ⟨id', -, hrender⟩ := happend 8
  exact ⟨h₁, hclean₁, h₂, hclean₂, quietHost_ignoresPlaces,
    ⟨id', hrender quietHost quietHost_ignoresPlaces 20 s⟩, by decide +kernel⟩

end Stencil

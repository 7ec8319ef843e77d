import Stencil.Proofs.CodeBlock
import Stencil.Proofs.Sequence
import Stencil.Proofs.Silence

/-!
# Showing the value of an expression

An expression that is evaluated by itself yields a value, and in a block of code the template shows
one: it is the same, as long as nothing is written on the way (`Template.render_inBlock`). Evaluating
turns output off and rendering does not, and the value of an include is what its template writes
while output is on; so what is written on the way makes a difference (`not_render_inBlock`).
-/

namespace Stencil

open Eval Grammar

/-! ## Trees elsewhere -/

mutual

theorem Node.Like.moved (move : Span → Span) : ∀ node : Node, node.Like False (node.moved move)
  | .absent => .absent
  | .page _ body front => .page False.elim (.moved move body) (.moved move front)
  | .block _ body => .block False.elim (.moved move body)
  | .text .. => .text False.elim
  | .expression _ value => .expression False.elim (.moved move value)
  | .assign _ _ value => .assign False.elim (.moved move value)
  | .branch _ test body other =>
    .branch False.elim (.moved move test) (.moved move body) (.moved move other)
  | .loop _ _ source body => .loop False.elim (.moved move source) (.moved move body)
  | .const .. => .const False.elim
  | .name .. => .name False.elim
  | .argument .. => .argument False.elim
  | .argumentAt .. => .argumentAt False.elim
  | .list _ items => .list False.elim (.moved move items)
  | .member _ object _ => .member False.elim (.moved move object)
  | .item _ object key => .item False.elim (.moved move object) (.moved move key)
  | .call _ callee arguments => .call False.elim (.moved move callee) (.moved move arguments)
  | .unary _ _ operand => .unary False.elim (.moved move operand)
  | .arithmetic _ _ left right => .arithmetic False.elim (.moved move left) (.moved move right)
  | .compare _ _ left right => .compare False.elim (.moved move left) (.moved move right)
  | .logic _ _ left right => .logic False.elim (.moved move left) (.moved move right)
  | .custom .. => .custom False.elim
  | .foreign .. => .foreign False.elim
  | .unknownOperator _ _ left right =>
    .unknownOperator False.elim (.moved move left) (.moved move right)

theorem NodesLike.moved (move : Span → Span) :
    ∀ nodes : List Node, NodesLike False nodes (movedNodes move nodes)
  | [] => .nil
  | node :: rest => .cons (.moved move node) (.moved move rest)

end

/-! ## Rows that are alike -/

/-- The expression that a template is, if it is one. -/
def Template.expression? (t : Template) : Option (Span × Node) :=
  match t.page with
  | some ⟨_, .block _ [.expression place e], .absent⟩ => some (place, e)
  | _ => none

theorem Template.isRow_of_expression? {t : Template} (hclean : t.diagnostics = [])
    (h : t.expression?.isSome = true) : ∃ place e, t.IsRow t.path [.expression place e] := by
  unfold expression? at h
  split at h
  · next place e hpage => exact ⟨place, e, rfl, hclean, _, _, hpage⟩
  · cases h

theorem Template.IsRow.load {t : Template} {path : Option String} {nodes : List Node}
    (h : t.IsRow path nodes) (store : Store) : t.load store = (⟨store.nextNumber, t⟩,
      { store with nextNumber := (numberedNodes nodes (store.nextNumber + 1)).2 }) := by
  obtain ⟨span, inner, hpage⟩ := h.page
  obtain ⟨page, _, _, _⟩ := t
  obtain rfl : page = _ := hpage
  rfl

theorem Host.IgnoresPlaces.matches_render_row {host : Host} (h : host.IgnoresPlaces) (fuel : Nat)
    {t t' : Template} {path : Option String} {nodes nodes' : List Node} (ht : t.IsRow path nodes)
    (ht' : t'.IsRow path nodes') (hn : NodesLike False nodes nodes') :
    Matches False (State.Twins SameTexts Library.Alike 0) (render host fuel t) (render host fuel t') :=
  (h.simulation.within (h.matches_executeRow fuel hn)).congr (same_render h.keepsFiles ht fuel)
    (same_render h.keepsFiles ht' fuel)

/-! ## Values that are shown -/

/-- While a template is evaluated that was just loaded, nothing is written but empty texts. -/
def Template.WritesNothing (host : Host) (fuel : Nat) (t : Template) (s : State) : Prop :=
  let (loaded, store) := t.load s.store
  Eval.WritesNothing host fuel loaded.numbered { s with store }

/-- What a page came to is written as the text that it is displayed as. -/
theorem Eval.writePage_run {t : Template} {page : Page} (ht : t.page = some page) {s : State}
    (ho : s.context.outputEnabled = true) (v : Value) :
    match s.store.display v with
    | .ok text => writePage t v s = .ok () (s.wrote v text)
    | .error _ => ∃ x, writePage t v s = .error x s := by
  have hwrite : writePage t v s = writeResult (some page.span) v s := by rw [writePage, ht]
  rw [hwrite, writeResult_run, State.written, ho, Bool.not_true, Bool.or_false]
  cases hv : v.isNull with
  | true =>
    obtain rfl : v = .null := by
      cases v with
      | null => rfl
      | _ => cases hv
    exact congrArg (EStateM.Result.ok ()) (s.wrote_empty .null).symm
  | false =>
    rw [if_neg Bool.false_ne_true]
    cases s.store.display v with
    | ok text => rfl
    | error e => exact ⟨_, rfl⟩

/-- Rendering shows what evaluating comes to: the text that the value is displayed as is written, to
the top sink, and what is left is what evaluating leaves; where no value comes of it, or none that
can be displayed, rendering fails too. -/
def Eval.Shows (s : State) (evaluated : EStateM.Result Failure State Value)
    (rendered : EStateM.Result Failure State Unit) : Prop :=
  match evaluated with
  | .ok v u =>
    match u.store.display v with
    | .ok text => ∃ w, rendered = .ok () w ∧ w.context.sink.text = s.context.sink.text ++ text ∧
        State.Twins SameTexts Library.Alike 0 (u.wrote v text) w
    | .error _ => ∃ x w, rendered = .error x w
  | .error x u => ∃ y w, rendered = .error y w ∧ x.Like False y ∧
      State.Twins SameTexts Library.Alike 0 u w

theorem Eval.shows_of_writesNothing {host : Host} (hplaces : host.IgnoresPlaces)
    (houtput : host.IgnoresOutput) {fuel : Nat} {t t' : Template} {path : Option String}
    {nodes nodes' : List Node} (ht : t.IsRow path nodes) (ht' : t'.IsRow path nodes')
    (hn : NodesLike False nodes nodes') {s : State} (ho : s.context.outputEnabled = true)
    (hquiet : Eval.WritesNothing host fuel t s) :
    Eval.Shows s (evaluateIn host fuel t s) (render host fuel t' s) := by
  have hmatches := hplaces.matches_render_row fuel ht ht' hn s s (.refl s)
  rw [render_of_writesNothing houtput ho hquiet] at hmatches
  obtain ⟨span, inner, hpage⟩ := ht.page
  have hkept := sinks_evaluateIn houtput fuel t s
  unfold Eval.Shows
  cases hv : evaluateIn host fuel t s with
  | error x u =>
    rw [bind_of_error hv] at hmatches
    dsimp only
    generalize render host fuel t' s = r at hmatches
    cases hmatches with
    | error hx hw => exact ⟨_, _, rfl, hx, hw⟩
  | ok v u =>
    rw [after_of_ok hv] at hkept
    have hwrites := writePage_run hpage (hkept.1.trans ho) v
    rw [bind_of_ok hv] at hmatches
    dsimp only
    cases hd : u.store.display v with
    | error e =>
      rw [hd] at hwrites
      obtain ⟨x, hx⟩ := hwrites
      rw [hx] at hmatches
      dsimp only
      generalize render host fuel t' s = r at hmatches
      cases hmatches with
      | error hx hw => exact ⟨_, _, rfl⟩
    | ok text =>
      rw [hd] at hwrites
      rw [hwrites] at hmatches
      dsimp only
      generalize render host fuel t' s = r at hmatches
      cases hmatches with
      | @ok _ _ w hw =>
        refine ⟨w, rfl, ?_, hw⟩
        have htexts : w.context.sink.text = (u.wrote v text).context.sink.text :=
          (List.cons.inj hw.sinks.base).1
        have hsink : u.context.sink = s.context.sink := (List.cons.inj hkept.2).1
        rw [htexts]
        show (u.context.sink.write v text).text = _
        rw [Sink.write_text, hsink]

/-- The value of an include is the text that its template writes to a sink of its own, of which there
is none while output is turned off. -/
def Eval.IncludesText (host : Host) (fuel : Nat) (s : State) : Prop :=
  ∀ span id arguments v u,
    call host (render host fuel) span (.function id .include) arguments s = .ok v u →
      ∃ t s₁ s₂ n, (∃ s₀, findIncluded span arguments s = .ok t s₀) ∧
        s₁.context.sinks = {} :: s.context.sinks ∧
        s₁.context.outputEnabled = s.context.outputEnabled ∧
        render host fuel t s₁ = .ok () s₂ ∧ v = .text n s₂.context.sink.text ∧
        (s.context.outputEnabled = false → s₂.context.sink.text = "")

theorem Eval.includesText {host : Host} (h : host.IgnoresOutput) (fuel : Nat) (s : State) :
    Eval.IncludesText host fuel s := by
  intro span id arguments v u hcall
  obtain ⟨sink, s₃, hinclude, hvalue⟩ := bind_ok hcall
  obtain ⟨t, s₁, s₂, hfound, hsinks, ho, hrender, rfl, hfaithful, hoff⟩ := includeTemplate_ok h hinclude
  obtain ⟨n, store, hrun, -⟩ := Sink.value_run hfaithful s₃.store
  simp only [computed, compute_run, hrun] at hvalue
  cases hvalue
  exact ⟨t, s₁, s₂, n, hfound, hsinks, ho, hrender, rfl, fun hs => by rw [hoff hs]⟩

/-! ## Expressions in blocks -/

/-- In a block of code, an expression shows the value that it yields by itself, unless a comment in it
holds the braces that close the block, as long as nothing is written while it is evaluated with
output on. The value of an include is the text that its template writes, which is empty while output
is turned off. -/
theorem Template.render_inBlock {options : TemplateOptions} {path : Option String} {source : String}
    {t : Template} {place : Span} {e : Node} (hmode : options.lexer.mode = .default)
    (h : Template.parse { options with lexer.mode := .scriptOnly } path source = .ok t)
    (hrow : t.IsRow path [.expression place e])
    (hcomments : ∀ comment ∈ (lex { options.lexer with mode := .scriptOnly } source.toList).comments,
      ¬ ['\x7d', '\x7d'] <:+: comment) :
    ∃ t', Template.parse options path (inBlock source) = .ok t' ∧ t'.diagnostics = [] ∧
      ∀ host : Host, host.IgnoresPlaces → host.IgnoresOutput → ∀ fuel s,
        (s.context.outputEnabled = true → t.WritesNothing host fuel s →
          Shows s ((do evaluateIn host fuel (← Eval.load t) : Eval Value) s)
            ((do render host fuel (← Eval.load t') : Eval Unit) s)) ∧
        IncludesText host fuel s := by
  obtain ⟨t', ht', hrow'⟩ := Template.parse_block hmode h hrow hcomments
  refine ⟨t', ht', hrow'.clean, fun host hplaces houtput fuel s =>
    ⟨fun ho hquiet => ?_, includesText houtput fuel s⟩⟩
  have hlike : NodesLike False [.expression place e]
      [(Node.expression place e).moved (Span.map Position.indented)] := .cons (.moved _ _) .nil
  obtain ⟨hnumbered, hnext, -⟩ := hlike.numbered (s.store.nextNumber + 1)
  have hload := hrow.load s.store
  have hload' := hrow'.load s.store
  rw [← hnext] at hload'
  unfold Template.WritesNothing at hquiet
  rw [hload] at hquiet
  have hshows := shows_of_writesNothing hplaces houtput (hrow.numbered (s.store.nextNumber + 1))
    (hrow'.numbered (s.store.nextNumber + 1)) hnumbered
    (s := { s with store := (t.load s.store).2 }) ho (by rw [hload]; exact hquiet)
  have hrun : Eval.load t s = .ok (LoadedTemplate.numbered (t.load s.store).1)
    { s with store := (t.load s.store).2 } := rfl
  have hrun' : Eval.load t' s = .ok (LoadedTemplate.numbered (t'.load s.store).1)
    { s with store := (t'.load s.store).2 } := rfl
  rw [bind_of_ok hrun, bind_of_ok hrun', hload, hload']
  rw [hload] at hshows
  exact hshows

/-- The quiet host without the functions that see the context. -/
def plainHost : Host := { quietHost with contextual _ _ _ := return .null }

theorem plainHost_ignoresPlaces : plainHost.IgnoresPlaces where
  contextual _ _ _ _ _ _ := .pure _
  invoked _ _ _ _ _ _ _ name list := quietHost_plain name _ _ _ _ list
  files _ _ _ := sameFiles.toSequential.pure _

theorem plainHost_ignoresOutput : plainHost.IgnoresOutput where
  same _ _ _ _ := .ok rfl rfl
  enabled _ _ _ _ := rfl
  sinks _ _ _ _ := rfl

/-- An expression with an include that changes what a name means, and writes nothing. -/
theorem Template.render_inBlock_greeting :
    let source := "word + include(\"f\") + mark # the end"
    let t := (Template.parse expressionOptions (some "page") source).toOption.getD {}
    let t' := (Template.parse {} (some "page") (inBlock source)).toOption.getD {}
    let s : State := {
      context := {
        loader := some (.function 0)
        scopes := [⟨5, [("word", .text 6 "Hello"), ("mark", .text 7 "?")]⟩] }
      library := { cells := #[{ texts := [("f", some "\x7b\x7b mark = \"!\" \x7d\x7d")] }] } }
    Template.parse expressionOptions (some "page") source = .ok t ∧
      (∃ place e, t.IsRow (some "page") [.expression place e]) ∧
      plainHost.IgnoresPlaces ∧ plainHost.IgnoresOutput ∧ t.WritesNothing plainHost 20 s ∧
      Shows s ((do evaluateIn plainHost 20 (← Eval.load t) : Eval Value) s)
        ((do render plainHost 20 (← Eval.load t') : Eval Unit) s) ∧
      (match (do render plainHost 20 (← Eval.load t') : Eval Unit) s with
        | .ok _ w => w.context.output
        | .error _ _ => "") = "Hello!" := by
  intro source t t' s
  have hread : (Template.parse expressionOptions (some "page") source).toBool = true := by decide +kernel
  have ht : Template.parse expressionOptions (some "page") source = .ok t := by
    subst t
    cases hp : Template.parse expressionOptions (some "page") source with
    | ok t => rfl
    | error e =>
      rw [hp] at hread
      cases hread
  have hpath : t.path = some "page" := by decide +kernel
  have hclean : t.diagnostics = [] := List.isEmpty_iff.mp (by decide +kernel)
  have hexpression : t.expression?.isSome = true := by decide +kernel
  obtain ⟨place, e, hrow⟩ := Template.isRow_of_expression? hclean hexpression
  rw [hpath] at hrow
  have hquiet : t.WritesNothing plainHost 20 s := by
    unfold Template.WritesNothing Eval.WritesNothing
    decide +kernel
  obtain ⟨t₀, ht₀, -, hrender⟩ :=
    @Template.render_inBlock {} (some "page") source t place e rfl ht hrow (by decide +kernel)
  obtain rfl : t' = t₀ := by
    show (Template.parse {} (some "page") (inBlock source)).toOption.getD {} = t₀
    rw [ht₀]
    rfl
  have hshows := (hrender plainHost plainHost_ignoresPlaces plainHost_ignoresOutput 20 s).1 rfl hquiet
  exact ⟨ht, ⟨place, e, hrow⟩, plainHost_ignoresPlaces, plainHost_ignoresOutput, hquiet, hshows,
    by decide +kernel⟩

/-- An expression need not show the value that it yields by itself: an include in it may write
something, a comment in it may hold braces, and a function of the host may tell where it is called, or
write something. -/
theorem Template.not_render_inBlock :
    let s : State := {
      context := {
        loader := some (.function 0)
        builtins := BasicHost.functions
        scopes := [⟨5, []⟩] }
      library := { cells := #[{ texts := [("f", some "text")] }] } }
    let evaluated (source : String) : Option String :=
      match (do evaluateIn basicHost 20 (← Eval.load
        ((Template.parse expressionOptions none source).toOption.getD {})) : Eval Value) s with
      | .ok v u => (u.store.display v).toOption
      | .error _ _ => none
    let rendered (source : String) : Option String :=
      match (do render basicHost 20 (← Eval.load
        ((Template.parse {} none (inBlock source)).toOption.getD {})) : Eval Unit) s with
      | .ok _ w => some w.context.output
      | .error _ _ => none
    (evaluated "include(\"f\")" = some "" ∧ rendered "include(\"f\")" = some "text") ∧
      (evaluated "1 # \x7d\x7d" = some "1" ∧ rendered "1 # \x7d\x7d" = some "1 \x7d\x7d") ∧
      (evaluated "span_of()" = some "<template>(1,0)" ∧ rendered "span_of()" = some "<template>(1,3)") ∧
      (evaluated "echo(1)" = some "" ∧ rendered "echo(1)" = some "1") := by
  decide +kernel

end Stencil

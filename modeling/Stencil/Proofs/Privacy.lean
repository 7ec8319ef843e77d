import Stencil.Proofs.CoupledHost
import Stencil.Proofs.Literals
import Stencil.Proofs.Privacy.Method
import Stencil.Proofs.Untraced

/-!
# Private attributes

Attributes of host objects whose names start with an underscore are kept from templates altogether:
from contexts that match, and with models that match, a template comes to results that match, writes
the same texts, and fails in the same way (`private_unseen`). Records and dictionaries show all they
hold, so nothing is said of names with an underscore there.

The two runs go side by side (`coupling_blind`). A template brings nothing but literals into them,
and what the functions of the host do is an assumption on the host.
-/

namespace Stencil

open Eval

variable {M : Matching}

/-! ## States that match -/

/-- Sinks with the same text; if it is that of one value, with values that match. -/
structure Sink.Matches (M : Matching) (a b : Sink) : Prop where
  text : b.text = a.text
  sole : Option.Rel (Value.Matches M) a.sole b.sole

theorem Sink.Matches.empty : Sink.Matches M {} {} := ⟨rfl, .none⟩

theorem Sink.Matches.write {a b : Sink} (h : a.Matches M b) {v w : Value} (hv : v.Matches M w)
    (text : String) : (a.write v text).Matches M (b.write w text) := by
  unfold Sink.write
  split
  · exact h
  · rw [h.text]
    refine ⟨rfl, ?_⟩
    dsimp only
    split
    · exact .some hv
    · exact .none

/-- States that differ in nothing but the private attributes of the objects in them. -/
structure State.Matches (M : Matching) (s t : State) : Prop
    extends State.Rel (Value.Matches M) (Store.Matches M) s t where
  strict : t.context.strict = s.context.strict
  outputEnabled : t.context.outputEnabled = s.context.outputEnabled
  written : List.Forall₂ (Sink.Matches M) s.context.sinks t.context.sinks

namespace State.Matches

variable {s t : State} (h : s.Matches M t)

include h

theorem sink : s.context.sink.Matches M t.context.sink := by
  cases h.written with
  | cons h _ => exact h

theorem sinksBelow : List.Forall₂ (Sink.Matches M) s.context.sinksBelow t.context.sinksBelow := by
  cases h.written with
  | cons _ h => exact h

theorem output : t.context.output = s.context.output := by
  have hlast : Option.Rel (Sink.Matches M) s.context.sinksBelow.getLast?
      t.context.sinksBelow.getLast? := Sorting.getLast?_rel h.sinksBelow
  unfold Context.output
  generalize s.context.sinksBelow.getLast? = a, t.context.sinksBelow.getLast? = b at hlast
  cases hlast with
  | none => exact h.sink.text
  | some hsink => exact hsink.text

theorem withStore {store store' : Store} (hstore : store.Matches M store') :
    (s.withStore store).Matches M (t.withStore store') :=
  { h with store := hstore }

theorem inScopes {as bs : List Scope} (hscopes : List.Forall₂ (Scope.Rel (Value.Matches M)) as bs) :
    (s.inScopes as).Matches M (t.inScopes bs) :=
  { h with scopes := hscopes }

theorem inFiles (files : List String) : (s.inFiles files).Matches M (t.inFiles files) :=
  { h with sourceFiles := rfl }

theorem enabling (outputEnabled : Bool) :
    (s.enabling outputEnabled).Matches M (t.enabling outputEnabled) :=
  { h with outputEnabled := rfl }

/-- A template that is loaded is numbered in the same way on both sides. -/
theorem load (template : Template) :
    (template.load t.store).1 = (template.load s.store).1 ∧
      (s.withStore (template.load s.store).2).Matches M (t.withStore (template.load t.store).2) := by
  simp only [Template.load, h.store.nextNumber, true_and]
  exact h.withStore (h.store.setNumber _)

theorem keeping (path : String) (template : Template) :
    (s.keeping path template).Matches M (t.keeping path template) := by
  obtain ⟨hloaded, hstore⟩ := h.load template
  refine { h with store := hstore.store, cache := ?_ }
  simp only [State.keeping, hloaded, h.cache]

theorem pushSink : (after pushSink s).Matches M (after pushSink t) :=
  { h with
    sinks := congrArg (· + 1) h.sinks
    written := .cons .empty h.written }

end State.Matches

/-- Two runs from states that match, one of which has a cache of templates that were read. -/
abbrev State.MatchesRead (M : Matching) (s t : State) : Prop := s.Matches M t ∧ s.CacheIsRead

/-- The functions of a host do not look at private attributes. -/
structure Host.IgnoresPrivate (host : Host) : Prop where
  plain (M : Matching) (name : String) {vs ws : List Value} : List.Forall₂ (Value.Matches M) vs ws →
    Pairs (Value.Matches M) (Store.Matches M) (host.plain name vs) (host.plain name ws)
  contextual (M : Matching) (name : String) (span : Option Span) {vs ws : List Value} :
    List.Forall₂ (Value.Matches M) vs ws →
    Pairs (Value.Matches M) (State.MatchesRead M) (host.contextual name span vs)
      (host.contextual name span ws)

/-! ## Two runs side by side -/

theorem Value.Matches.sameForm {v w : Value} (h : v.Matches M w) : v.SameForm (Value.Matches M) w := by
  have hinvoked := h.invocation?
  cases h with
  | list hij => exact .list (.list hij)
  | object _ _ _ _ => exact .object hinvoked
  | record _ _ _ _ => exact .record hinvoked
  | method m hv => exact .method m hv
  | _ => constructor

theorem Value.IsLiteral.matches_self {v : Value} (h : v.IsLiteral) : v.Matches M v := by
  cases v with
  | null => exact .null
  | bool b => exact .bool b
  | int id n => exact .int id n
  | float id x => exact .float id x
  | text id s => exact .text id s
  | _ => exact h.elim

theorem terms_matches {host : Host} (hh : host.IgnoresPrivate) (M : Matching) :
    Terms host (Value.Matches M) (Store.Matches M) where
  null := .null
  bool := .bool
  text := .text
  form := Value.Matches.sameForm
  typeName := Value.Matches.typeName
  numeric? := Value.Matches.numeric?
  truthy hs hv := hs.truthy hv
  contents hs hv := by
    cases hv with
    | list hij => exact hs.contents hij
  nextNumber := Store.Matches.nextNumber
  setNumber := Store.Matches.setNumber
  display hs hv := hs.display hv
  newList := M.newList
  sole := M.sinkValue
  member name hv := M.member hv name
  item := M.item
  negate := M.negate
  arithmetic op _ _ _ _ h k := M.arithmetic op h k
  compareBy op _ _ _ _ h k := M.compareBy op h k
  elements? := M.elements?
  method m _ _ _ _ hv h := M.method h m hv
  plain name _ _ := hh.plain M name

/-- A run beside one from a state that matches. Nothing that happens is minded. -/
def Pairing.blind (M : Matching) : Pairing Unit where
  value := Value.Matches M
  store := Store.Matches M
  states _ := State.MatchesRead M
  fits := Node.IsLiteral
  binds _ := True
  known := Template.IsLoaded
  minds _ := False
  fails _ := True
  escapes _ _ _ _ := True

theorem write_matches (span : Option Span) {v w : Value} (hv : v.Matches M w) :
    Pairs (fun _ _ => True) (State.MatchesRead M) (write span v) (write span w) := by
  rintro s t ⟨h, hread⟩
  cases ho : s.context.outputEnabled with
  | false =>
    rw [write_run_disabled ho, write_run_disabled (h.outputEnabled.trans ho)]
    exact .ok trivial ⟨h, hread⟩
  | true =>
    rw [write_run_enabled ho, write_run_enabled (h.outputEnabled.trans ho), h.store.display hv]
    cases s.store.display v with
    | ok text => exact .ok trivial ⟨{ h with written := .cons (h.sink.write hv text) h.sinksBelow }, hread⟩
    | error e =>
      have hfailure : conversionFailure t.context span w e = conversionFailure s.context span v e := by
        unfold conversionFailure
        rw [hv.typeName, h.locate]
      dsimp only
      rw [hfailure]
      exact .error trivial ⟨h, hread⟩

theorem popSink_matches :
    Pairs (fun a b => b.text = a.text ∧ Option.Rel (Value.Matches M) a.sole b.sole)
      (State.MatchesRead M) popSink popSink := by
  rintro s t ⟨h, hread⟩
  have hsinks := h.sinksBelow
  cases hs : s.context.sinksBelow with
  | nil =>
    rw [hs, List.forall₂_nil_left_iff] at hsinks
    rw [popSink_run_nil hs, popSink_run_nil hsinks]
    exact .error trivial ⟨h, hread⟩
  | cons sink below =>
    obtain ⟨sink', below', hsink, hbelow, ht⟩ := List.forall₂_cons_left_iff.mp (hs ▸ hsinks)
    rw [popSink_run hs, popSink_run ht]
    exact .ok ⟨h.sink.text, h.sink.sole⟩
      ⟨{ h with sinks := hbelow.length_eq.symm, written := .cons hsink hbelow }, hread⟩

theorem restoreArguments_matches {scope scope' : Scope} (hscope : Scope.Rel (Value.Matches M) scope scope') :
    Pairs (fun _ _ => True) (State.MatchesRead M) (restoreArguments scope) (restoreArguments scope') := by
  rintro s t ⟨h, hread⟩
  refine .ok trivial ⟨h.inScopes ?_, hread⟩
  refine forall₂_map_of h.scopes fun a b hab => ?_
  have hprevious := hscope.bindings.get? argumentsName
  rw [hab.id, hscope.id]
  split
  · refine ⟨rfl, ?_⟩
    dsimp only
    generalize scope.bindings.get? argumentsName = x, scope'.bindings.get? argumentsName = y
      at hprevious
    cases hprevious with
    | none => exact hab.bindings.erase _
    | some hv => exact hab.bindings.set _ hv
  · exact hab

theorem coupling_blind {host : Host} (hh : host.IgnoresPrivate) (M : Matching) :
    Coupling host (.blind M) where
  terms := terms_matches hh M
  child h hm := h.child hm
  target _ _ := trivial
  constant h hv := (h.here _ hv).matches_self
  related h := h.1.toRel
  withStore h _ _ hst := ⟨h.1.withStore hst, h.2⟩
  withLibrary h _ := ⟨{ h.1 with library := rfl }, h.2⟩
  withPending h _ := ⟨{ h.1 with pending := rfl }, h.2⟩
  keeping h _ _ _ _ hread _ := ⟨h.1.keeping _ _, h.2.addIfAbsent _ ⟨_, _, _, hread⟩ _⟩
  binding h _ _ _ _ hv _ _ _ _ hs ht := by
    have hscopes := h.1.scopes
    rw [hs, ht] at hscopes
    cases hscopes with
    | cons hscope hbelow =>
      exact ⟨h.1.inScopes (.cons ⟨hscope.id, hscope.bindings.set _ hv⟩ hbelow), h.2⟩
  kept h path kept hkept := ⟨kept, h.2 path kept hkept, rfl⟩
  including h _ he _ hp := h.isLiteral he hp
  unknown {i s t} h name span hs ht := by
    rw [Traced.lookUp_run_of_none ht]
    refine .together (fun _ _ => id) ?_
    simp only [Eval.lookUp, bind_run, context_run, hs, ht, h.1.strict]
    cases s.context.strict with
    | false => exact .ok .null h
    | true =>
      simp only [if_true, report_run, h.1.locate]
      exact .error trivial h
  writes span v w hv := by
    intro i s t h
    rw [Traced.write_run]
    exact .together (fun _ _ => id) (write_matches span hv s t h)
  failsAtOnce _ _ := trivial
  failsWith _ := trivial
  faults _ := trivial
  exhausts := trivial
  failsToAnswer _ := trivial
  failsToCall _ := trivial
  escapesIncluding _ _ := trivial
  escapesBind _ _ := trivial
  contextual _ name span _ _ := hh.contextual M name span
  file {i s t} h path := ⟨i, ⟨h.1.sourceFiles ▸ h.1.inFiles _, h.2⟩,
    Pairs.leaveFile (fun _ _ h => h.1.sourceFiles) fun _ _ below h => ⟨h.1.inFiles below, h.2⟩,
    fun _ _ _ _ => trivial⟩
  arguments {i s t} h v w hv scope scope' below below' hs ht := by
    have hscopes := h.1.scopes
    rw [hs, ht] at hscopes
    cases hscopes with
    | cons hscope hbelow =>
      exact ⟨i, ⟨h.1.inScopes (.cons ⟨hscope.id, hscope.bindings.set _ hv⟩ hbelow), h.2⟩,
        restoreArguments_matches hscope, fun _ _ _ _ => trivial⟩
  sink {i s t} h := ⟨i, ⟨h.1.pushSink, h.2⟩, popSink_matches, fun _ _ _ _ => trivial⟩

/-! ## The basic host -/

section BasicHost

variable {vs ws : List Value}

theorem PlainCall.computed_pairs {α β : Type} {Q : α → β → Prop} {c : Computation α}
    {d : Computation β} (h : Pairs Q (Store.Matches M) c d) :
    Pairs Q (Store.Matches M) (PlainCall.computed c) (PlainCall.computed d) := by
  intro s t hs
  have hrun := h s t hs
  unfold PlainCall.computed
  generalize c s = r, d t = r' at hrun
  cases hrun with
  | ok hab hs => exact .ok hab hs
  | error _ hs => exact .error trivial hs

theorem PlainCall.only_matches (h : List.Forall₂ (Value.Matches M) vs ws) (callee parameter : String) :
    Pairs (Value.Matches M) (Store.Matches M) (PlainCall.only callee parameter vs)
      (PlainCall.only callee parameter ws) := by
  match h with
  | .nil => exact .throw trivial
  | .cons hv .nil => exact .pure hv
  | .cons _ (.cons _ hrest) =>
    simp only [PlainCall.only, List.length_cons, hrest.length_eq]
    exact .throw trivial

theorem Matching.displayAll (h : List.Forall₂ (Value.Matches M) vs ws) :
    Pairs Eq (Store.Matches M) (vs.mapM Computation.display) (ws.mapM Computation.display) := by
  induction h with
  | nil => exact .pure rfl
  | cons hv _ ih =>
    rw [List.mapM_cons, List.mapM_cons]
    refine (M.display hv).bind fun text _ ht => ht ▸ ih.bind fun texts _ hts => ?_
    exact hts ▸ .pure rfl

theorem Matching.concat (h : List.Forall₂ (Value.Matches M) vs ws) :
    Pairs (Value.Matches M) (Store.Matches M) (BasicHost.concat vs) (BasicHost.concat ws) := by
  unfold BasicHost.concat
  refine (M.displayAll h).bind fun texts _ ht => ht ▸ ?_
  match h with
  | .nil => exact M.newSpelling _
  | .cons hv .nil => exact M.textOf hv _
  | .cons _ (.cons _ _) => exact M.newSpelling _

/-- Adding up is a call of an object, which counts itself among the arguments. -/
theorem Matching.adder (h : List.Forall₂ (Value.Matches M) vs ws) :
    Pairs (Value.Matches M) (Store.Matches M) (BasicHost.plain "adder" vs)
      (BasicHost.plain "adder" ws) := by
  match h with
  | .nil => exact .throw trivial
  | .cons _ .nil => exact .throw trivial
  | .cons ha (.cons hb .nil) => exact PlainCall.computed_pairs (M.plus ha hb)
  | .cons _ (.cons _ (.cons _ hrest)) =>
    simp only [BasicHost.plain, List.length_cons, hrest.length_eq]
    exact .throw trivial

theorem Matching.basicPlain (name : String) (h : List.Forall₂ (Value.Matches M) vs ws) :
    Pairs (Value.Matches M) (Store.Matches M) (BasicHost.plain name vs)
      (BasicHost.plain name ws) := by
  by_cases hadder : name = "adder"
  · subst hadder
    exact M.adder h
  · unfold BasicHost.plain
    split
    · exact PlainCall.only_matches h _ _
    · refine (PlainCall.only_matches h _ _).bind fun v w hv => PlainCall.computed_pairs ?_
      exact (M.length hv).bind fun n _ hn => hn ▸ M.newInt n
    · rw [h.length_eq]
      exact PlainCall.computed_pairs (M.newInt _)
    · exact PlainCall.computed_pairs (M.concat h)
    · exact .throw trivial
    · refine (PlainCall.only_matches h _ _).bind fun v w hv => PairsWith.get fun s t hs => ?_
      rw [hs.bare hv]
      cases s.bare v with
      | ok text => exact .error trivial hs
      | error e => exact .error trivial hs
    · exact .throw trivial
    · exact absurd rfl hadder
    · exact .pure .null

end BasicHost

/-- What holds of blind runs whatever the host: that of a host whose functions are idle. -/
theorem coupling_idle (M : Matching) :
    Coupling ⟨fun _ _ => return .null, fun _ _ _ => return .null⟩ (.blind M) :=
  coupling_blind ⟨fun _ _ _ _ _ => .pure .null, fun _ _ _ _ _ _ => .pure .null⟩ M

theorem State.MatchesRead.inScopes {s t : State} (h : State.MatchesRead M s t) {as bs : List Scope}
    (hscopes : List.Forall₂ (Scope.Rel (Value.Matches M)) as bs) :
    State.MatchesRead M (s.inScopes as) (t.inScopes bs) :=
  ⟨h.1.inScopes hscopes, h.2⟩

theorem basicHost_ignoresPrivate : basicHost.IgnoresPrivate where
  plain M name _ _ := M.basicPlain name
  contextual M name span _ _ := by
    refine (coupling_idle M).basicContextual ?_ ?_ ?_ ?_ (.int 0) M.newText () name span
    · exact fun h _ _ hscopes => h.inScopes hscopes
    · exact fun h => ⟨h.1.enabling false, h.2⟩
    · exact fun _ span _ _ hv => write_matches span hv
    · refine fun h => ⟨(), ⟨h.1.pushSink, h.2⟩, fun s' t' h' => ⟨h', ?_⟩⟩
      exact (popSink_matches s' t' h').mono (fun _ => id) (fun _ _ hsink => hsink.1) fun _ _ => id

/-! ## Models -/

theorem namedEntries_matches {as bs : List (String × Value)} (h : Table.Rel (Value.Matches M) as bs) :
    List.Forall₂ (Entry.Matches M) (as.map fun (name, v) => (Value.text 0 name, v))
      (bs.map fun (name, v) => (Value.text 0 name, v)) := by
  refine forall₂_map_of h fun a b hab => ?_
  obtain ⟨n, v⟩ := a
  obtain ⟨m, w⟩ := b
  obtain rfl : m = n := hab.1
  exact ⟨.text 0 m, hab.2⟩

theorem Value.Matches.modelEntries {v w : Value} (h : v.Matches M w) :
    Except.Rel (List.Forall₂ (Entry.Matches M)) v.modelEntries w.modelEntries := by
  cases h with
  | null | unprintable _ _ _ => exact .ok .nil
  | dict _ hk hv => exact .ok (forall₂_zip hk hv)
  | record _ _ hn hv => exact .ok (namedEntries_matches (.of_map hn hv))
  | object _ _ hn hv => exact .ok (namedEntries_matches (.of_map hn hv))
  | function _ f => cases f <;> first | exact .ok .nil | exact .error _
  | method m _ => cases m <;> exact .error _
  | _ => exact .error _

section Models

variable {more more' : List (String × Value)} (hmore : Table.Rel (Value.Matches M) more more')

include hmore

theorem checkNames_matches (callee : String) (own : List String) :
    checkNames callee own more' = checkNames callee own more := by
  unfold checkNames
  induction hmore with
  | nil => rfl
  | @cons a b _ _ hab _ ih =>
    obtain ⟨hn, -⟩ := hab
    rw [List.find?_cons, List.find?_cons]
    dsimp only
    rw [hn]
    cases own.contains a.1 with
    | true =>
      dsimp only
      rw [hn]
    | false => exact ih

theorem setEntries_matches {ds es : List (Value × Value)} (hd : List.Forall₂ (Entry.Matches M) ds es) :
    List.Forall₂ (Entry.Matches M)
      (more.foldl (fun d (name, v) => Entries.set (.text 0 name) v d) ds)
      (more'.foldl (fun d (name, v) => Entries.set (.text 0 name) v d) es) := by
  induction hmore generalizing ds es with
  | nil => exact hd
  | cons hab _ ih =>
    obtain ⟨hn, hv⟩ := hab
    rw [List.foldl_cons, List.foldl_cons]
    dsimp only
    rw [hn]
    exact ih (Entries.set_matches hd (.text 0 _) hv)

theorem importModel_matches {v w : Value} (h : v.Matches M w) :
    Except.Rel (List.Forall₂ (Entry.Matches M)) (importModel v more) (importModel w more') := by
  unfold importModel
  rw [checkNames_matches hmore]
  refine Except.Rel.bind (Except.Rel.of_eq rfl) fun _ _ _ => ?_
  exact h.modelEntries.bind fun _ _ hxy =>
    .ok (setEntries_matches hmore (Entries.ofList_matches hxy))

end Models

theorem bindingsOf_matches {xs ys : List (Value × Value)} (h : List.Forall₂ (Entry.Matches M) xs ys) :
    Table.Rel (Value.Matches M) (bindingsOf xs) (bindingsOf ys) := by
  induction h with
  | nil => exact .nil
  | @cons x y _ _ hxy _ ih =>
    obtain ⟨k, v⟩ := x
    obtain ⟨l, w⟩ := y
    obtain ⟨hk, hv⟩ := hxy
    cases hk with
    | text _ name => exact .cons ⟨rfl, hv⟩ ih
    | _ => exact ih

theorem inModel_matches {α β : Type} {Q : α → β → Prop} (way : ModelRun) {model model' : Value}
    (h : model.Matches M model') {more more' : List (String × Value)}
    (hmore : Table.Rel (Value.Matches M) more more') {body : Eval α} {body' : Eval β}
    (hbody : Pairs Q (State.MatchesRead M) body body') :
    Pairs Q (State.MatchesRead M) (inModel way model more body) (inModel way model' more' body') := by
  have hentries : Except.Rel (List.Forall₂ (Entry.Matches M))
      (do
        checkNames way.name ["self", "model"] more
        importModel model more)
      (do
        checkNames way.name ["self", "model"] more'
        importModel model' more') := by
    rw [checkNames_matches hmore]
    exact Except.Rel.bind (Except.Rel.of_eq rfl) fun _ _ _ => importModel_matches hmore h
  unfold inModel
  dsimp only
  generalize (do
    checkNames way.name ["self", "model"] more
    importModel model more) = a, (do
    checkNames way.name ["self", "model"] more'
    importModel model' more') = b at hentries
  cases hentries with
  | error e => exact .throw trivial
  | ok hxy =>
    have hpush := (coupling_idle M).pushScope (i := ()) (fun h _ _ hscopes => h.inScopes hscopes)
      (bindingsOf_matches hxy)
    have hpop := (coupling_idle M).popScope (i := ()) fun h _ _ hscopes => h.inScopes hscopes
    refine hpush.bind fun _ _ _ s t hst => ?_
    rw [ensuring_run, ensuring_run]
    exact (hbody s t hst).finish (hpop.bind fun _ _ _ => .pure trivial)

/-! ## Runs -/

section Runs

variable {host : Host} (hh : host.IgnoresPrivate) (M : Matching) (fuel : Nat)

/-- Nothing that happens is minded, so coupled runs go together to the end. -/
theorem Pairing.Couples.blind {α β : Type} {Q : α → β → Prop} {e : Eval α} {f : Eval β} {E : Traced β}
    (h : (Pairing.blind M).Couples Q e E) (hf : ∀ t, (E t).1 = f t) :
    Pairs Q (State.MatchesRead M) e f := by
  intro s t hst
  have hrun := h () s t hst
  rw [← hf t]
  generalize E t = r at hrun
  cases hrun with
  | together _ hpaired => exact hpaired
  | escaped _ hminds _ => exact hminds.elim

include hh

theorem run_matches (way : TemplateRun) {t : Template} (ht : t.IsLoaded) :
    Pairs (Value.Matches M) (State.MatchesRead M) (way.run host fuel t) (way.run host fuel t) := by
  have hoff (i : Unit) (s s' : State) (h : State.MatchesRead M s s') : (Pairing.blind M).Brackets i
      (s.enabling false) (s'.enabling false)
      (changeContext fun c => { c with outputEnabled := s.context.outputEnabled })
      (changeContext fun c => { c with outputEnabled := s'.context.outputEnabled }) := by
    refine ⟨i, ⟨h.1.enabling false, h.2⟩, fun u u' hu => ?_, fun _ _ _ _ => trivial⟩
    rw [changeContext_run, changeContext_run, h.1.outputEnabled]
    exact .ok trivial ⟨hu.1.enabling _, hu.2⟩
  exact ((coupling_blind hh M).run hoff fuel (fun he _ hp => ht.isLiteral he hp) way).blind M
    (run_traced host fuel t way)

theorem render_matches {t : Template} (ht : t.IsLoaded) :
    Pairs (fun _ _ => True) (State.MatchesRead M) (render host fuel t) (render host fuel t) := by
  have e : render host fuel t = (do let _ ← TemplateRun.render.run host fuel t) := by
    simp only [TemplateRun.run, bind_assoc, pure_bind, bind_pure_unit]
  rw [e]
  exact (run_matches hh M fuel .render ht).bind fun _ _ _ => .pure trivial

omit hh in
/-- A template is loaded with the same numbers on both sides before it runs. -/
theorem loaded_matches {α : Type} {Q : α → α → Prop} {run : Template → Eval α}
    (hrun : ∀ {t}, t.IsLoaded → Pairs Q (State.MatchesRead M) (run t) (run t)) {t : LoadedTemplate}
    (ht : t.IsRead) : Pairs Q (State.MatchesRead M) (do run (← load t.template))
      (do run (← load t.template)) := by
  rintro s s' ⟨h, hread⟩
  obtain ⟨hloaded, hstore⟩ := h.load t.template
  have e (u : State) : load t.template u = .ok (t.template.load u.store).1.numbered
    (u.withStore (t.template.load u.store).2) := rfl
  rw [bind_of_ok (e s), bind_of_ok (e s'), hloaded]
  exact hrun ⟨(t.template.load s.store).1, ht, rfl⟩ _ _ ⟨hstore, hread⟩

/-- What is said of the private attributes of objects makes no difference. From contexts that
differ in nothing else, a template comes to results, and leaves scopes, that differ in nothing else;
what was written is the same, and so is the failure, with all it says. The same is true of models
that differ in nothing else. -/
theorem private_unseen {t : LoadedTemplate} (ht : t.IsRead) {s s' : State} (h : s.Matches M s')
    (hs : s.CacheIsRead) :
    (∀ way : TemplateRun, Paired (fun _ => True) (Value.Matches M)
      (fun u u' => u.Matches M u' ∧ u'.context.output = u.context.output)
      (way.run host fuel t.numbered s) (way.run host fuel t.numbered s')) ∧
    ∀ model model' more more', model.Matches M model' → Table.Rel (Value.Matches M) more more' →
      (∀ way, Paired (fun _ => True) Eq (State.Matches M)
        (renderModel host fuel t.template way model more s)
        (renderModel host fuel t.template way model' more' s')) ∧
      Paired (fun _ => True) (Value.Matches M)
        (fun u u' => u.Matches M u' ∧ u'.context.output = u.context.output)
        (evaluateModel host fuel t.template model more s)
        (evaluateModel host fuel t.template model' more' s') := by
  have hseen (u u' : State) (hu : State.MatchesRead M u u') :
      u.Matches M u' ∧ u'.context.output = u.context.output := ⟨hu.1, hu.1.output⟩
  refine ⟨fun way => ?_, fun model model' more more' hmodel hmore => ⟨fun way => ?_, ?_⟩⟩
  · exact (run_matches hh M fuel way ⟨t, ht, rfl⟩ s s' ⟨h, hs⟩).mono (fun _ => id)
      (fun _ _ => id) hseen
  · have hbody := loaded_matches M (render_matches hh M fuel) ht
    refine Paired.mono ?_ (fun _ => id) (fun _ _ => id) fun u u' hu => (hseen u u' hu).1
    refine (inModel_matches way hmodel hmore hbody s s' ⟨h, hs⟩).bind fun _ _ _ u u' hu => ?_
    rw [bind_of_ok (context_run u), bind_of_ok (context_run u')]
    exact .ok hu.1.output.symm hu
  · have hbody := loaded_matches M (run_matches hh M fuel .evaluate) ht
    exact (inModel_matches .evaluate hmodel hmore hbody s s' ⟨h, hs⟩).mono (fun _ => id) (fun _ _ => id) hseen

end Runs

/-- The lists of two stores that go together when the second has one in front that the first has
not. -/
def Matching.oneHidden : Matching where
  lists i j := j.index = i.index + 1
  injective {i j i' j'} h h' := by
    cases i
    cases j
    cases i'
    cases j'
    dsimp only at h h'
    rw [ListId.mk.injEq, ListId.mk.injEq]
    omega
  left := 0
  right := 1
  fresh k := by
    dsimp only
    omega

/-- A private attribute that holds a number on one side and a list on the other, and one that is
missing on one side, of an object in a scope and of a model. -/
theorem private_unseen_list :
    let M := Matching.oneHidden
    let source := "{{ x.name }}{{ x._key }}{{ [x] }}"
    let t : LoadedTemplate := ⟨0, (Template.parse {} none source).toOption.getD {}⟩
    let v := Value.object 7 "Thing" [("name", .text 0 "n"), ("_key", .int 0 1)]
    let w := Value.object 7 "Thing" [("_key", .list ⟨0⟩), ("_old", .null), ("name", .text 0 "n")]
    let s : State := { context := { scopes := [⟨5, [("x", v)]⟩] } }
    let s' : State := {
      context := { scopes := [⟨5, [("x", w)]⟩] }
      store := { lists := #[#[.text 0 "k"]] } }
    let render := TemplateRun.render.run basicHost 20 t.numbered
    (basicHost.IgnoresPrivate ∧ t.IsRead ∧ s.Matches M s' ∧ s.CacheIsRead ∧ v.Matches M w) ∧
      Paired (fun _ => True) (Value.Matches M)
        (fun u u' => u.Matches M u' ∧ u'.context.output = u.context.output) (render s) (render s') ∧
      Paired (fun _ => True) Eq (State.Matches M)
        (renderModel basicHost 20 t.template .render (.dict 0 [(.text 0 "x", v)]) [] s)
        (renderModel basicHost 20 t.template .render (.dict 0 [(.text 0 "x", w)]) [] s') ∧
      (after render s').context.output = "n[<Thing>]" := by
  intro M source t v w s s' render
  have hread : t.IsRead := LoadedTemplate.isRead_of_toBool (by decide +kernel) 0
  have hcache : s.CacheIsRead := fun _ _ h => by cases h
  have hname : List.Forall₂ (Value.Matches M) [.text 0 "n"] [.text 0 "n"] := .cons (.text 0 "n") .nil
  have hv : v.Matches M w := .object 7 "Thing" (by decide +kernel) hname
  have hstore : s.store.Matches M s'.store := by
    refine ⟨rfl, ⟨0, rfl, rfl⟩, fun {i j} hij => ?_⟩
    rw [Store.contents_of_le (Nat.zero_le _), Store.contents_of_le]
    · exact .nil
    · show 1 ≤ j.index
      rw [show j.index = i.index + 1 from hij]
      omega
  have hs : s.Matches M s' := {
    loader := rfl
    options := rfl
    builtins := .cons ⟨rfl, .function _ _⟩ .nil
    scopes := .cons ⟨rfl, .cons ⟨rfl, hv⟩ .nil⟩ .nil
    sourceFiles := rfl
    pending := rfl
    sinks := rfl
    store := hstore
    cache := rfl
    library := rfl
    strict := rfl
    outputEnabled := rfl
    written := .cons .empty .nil }
  have hmodel : (Value.dict 0 [(.text 0 "x", v)]).Matches M (.dict 0 [(.text 0 "x", w)]) :=
    .dict 0 (.cons (.text 0 "x") .nil) (.cons hv .nil)
  have hunseen := private_unseen basicHost_ignoresPrivate M 20 hread hs hcache
  exact ⟨⟨basicHost_ignoresPrivate, hread, hs, hcache, hv⟩, hunseen.1 .render,
    (hunseen.2 _ _ [] [] hmodel .nil).1 .render, by decide +kernel⟩

end Stencil

import Stencil.Proofs.Capture
import Stencil.Proofs.Untraced

/-!
# What runs change in the scopes

A run changes only what its templates name: of the builtins and of the scopes below the top one
nothing, and of the top one no bindings but those of names that the template binds, or one of those
it included on the way. What the arguments are called means afterwards what it meant before. That
is so whether the run returns or fails (`scopes_framed`).

The run goes beside itself (`coupling_footprint`), once for each name; an include of a template that
binds the name ends what is said of it.
-/

namespace Stencil

open Eval

/-! ## Names that trees bind -/

/-- What holds of the names that a tree binds, holds of those that the trees right below it bind. -/
theorem Node.BindsOnly.child {p : String → Prop} {n m : Node} (h : n.BindsOnly p)
    (hm : m ∈ n.children) : m.BindsOnly p := by
  have hall : nodesBindOnly p n.children := by
    cases n <;> simp_all only [Node.children, Node.BindsOnly, nodesBindOnly, and_self]
  exact nodesBindOnly_iff.mp hall m hm

theorem Node.BindsOnly.target {p : String → Prop} {n : Node} {name : String} (h : n.BindsOnly p)
    (ht : n.target? = some name) : p name := by
  cases n with
  | assign _ _ _ =>
    cases ht
    exact h.1
  | loop _ _ _ _ =>
    cases ht
    exact h.1
  | _ => nomatch ht

/-- Some assignment or some loop of a template binds a name. -/
def Template.Binds (t : Template) (name : String) : Prop := ¬ t.BindsOnly (· ≠ name)

/-- The template that was included, if that is what happened. -/
def Event.included? : Event → Option Template
  | .including t => some t
  | _ => none

/-! ## Scopes that are kept -/

/-- The same scopes, apart from those with a number. -/
abbrev SameBut (id : Nat) : List Scope → List Scope → Prop :=
  List.Forall₂ fun a b => b.id = a.id ∧ (a.id ≠ id → b = a)

theorem SameBut.refl (id : Nat) (scopes : List Scope) : SameBut id scopes scopes :=
  List.forall₂_same.mpr fun _ _ => ⟨rfl, fun _ => rfl⟩

theorem SameBut.trans {id : Nat} {as bs cs : List Scope} (h : SameBut id as bs)
    (k : SameBut id bs cs) : SameBut id as cs := by
  induction h generalizing cs with
  | nil => exact k
  | cons hab _ ih =>
    cases k with
    | cons hbc hrest =>
      exact .cons ⟨hbc.1.trans hab.1,
        fun ha => (hbc.2 (hab.1 ▸ ha)).trans (hab.2 ha)⟩ (ih hrest)

/-- `bs` are the scopes `as`: the same below the top one, as far as the top one does not lie there
once more, and with the same bindings of the names with `kept` in the top one. -/
inductive ScopesKept (kept : String → Prop) : List Scope → List Scope → Prop
  | nil : ScopesKept kept [] []
  | cons {top top' : Scope} {below below' : List Scope} : top'.id = top.id →
      (∀ name, kept name → top'.bindings.get? name = top.bindings.get? name) →
      SameBut top.id below below' → ScopesKept kept (top :: below) (top' :: below')

namespace ScopesKept

variable {kept : String → Prop} {as bs : List Scope} {scope : Scope} {below : List Scope}

theorem refl (scopes : List Scope) : ScopesKept kept scopes scopes := by
  cases scopes with
  | nil => exact .nil
  | cons top below => exact .cons rfl (fun _ _ => rfl) (.refl _ _)

/-- What is kept name by name is kept. -/
theorem of_forall {p : String → Prop} (h : ScopesKept p as bs)
    (hkept : ∀ name, kept name → ScopesKept (· = name) as bs) : ScopesKept kept as bs := by
  cases h with
  | nil => exact .nil
  | cons hid _ hbelow =>
    refine .cons hid (fun name hn => ?_) hbelow
    cases hkept name hn with
    | cons _ hbindings _ => exact hbindings name rfl

/-- Binding another name in the top scope. -/
theorem set (h : ScopesKept kept as (scope :: below)) {name : String} (hn : ¬ kept name) (v : Value) :
    ScopesKept kept as ({ scope with bindings := scope.bindings.set name v } :: below) := by
  cases h with
  | cons hid hbindings hbelow =>
    refine .cons hid (fun other ho => ?_) hbelow
    have hne : other ≠ name := fun h => hn (h ▸ ho)
    exact (Table.get?_set_of_ne hne v scope.bindings).trans (hbindings other ho)

/-- What is kept with the arguments of the top scope bound, is kept once it has its own again. -/
theorem restored (h : ScopesKept kept as (scope :: below)) {bindings : Table Value}
    (hbindings : ∀ name, name ≠ argumentsName → bindings.get? name = scope.bindings.get? name)
    (k : ScopesKept kept ({ scope with bindings } :: below) bs) :
    ScopesKept kept as (bs.map fun b =>
      if b.id == scope.id then { b with bindings := scope.restoring b.bindings } else b) := by
  cases h with
  | @cons top _ below₀ _ hid htop hbelow =>
    cases k with
    | @cons _ top' _ below' hid' htop' hbelow' =>
      rw [List.map_cons, if_pos (beq_iff_eq.mpr hid')]
      refine .cons (hid'.trans hid) (fun name hn => ?_) (hbelow.trans (hid ▸ hbelow'.trans ?_))
      · refine Eq.trans ?_ (htop name hn)
        by_cases hname : name = argumentsName
        · exact hname ▸ scope.get?_restoring top'.bindings
        · exact (scope.get?_restoring_of_ne top'.bindings hname).trans
            ((htop' name hn).trans (hbindings name hname))
      · refine List.forall₂_map_right_iff.mpr (List.forall₂_same.mpr fun b _ => ?_)
        by_cases hb : b.id = scope.id
        · rw [if_pos (beq_iff_eq.mpr hb)]
          exact ⟨rfl, fun hne => absurd hb hne⟩
        · rw [if_neg (mt beq_iff_eq.mp hb)]
          exact ⟨rfl, fun _ => rfl⟩

end ScopesKept

/-- `d` has the builtins of `c`, and its scopes as far as names with `kept` go. -/
structure Context.Framed (kept : String → Prop) (c d : Context) : Prop where
  builtins : d.builtins = c.builtins
  scopes : ScopesKept kept c.scopes d.scopes

/-! ## Functions of the host -/

/-- The same scopes and builtins, and no templates in the cache that were not read. -/
structure State.SameScopes (s t : State) : Prop where
  scopes : t.context.scopes = s.context.scopes
  builtins : t.context.builtins = s.context.builtins
  cache : s.CacheIsRead → t.CacheIsRead

theorem sequential_sameScopes : Sequential State.SameScopes where
  refl _ := ⟨rfl, rfl, id⟩
  trans h k := ⟨k.scopes.trans h.scopes, k.builtins.trans h.builtins, fun hs => k.cache (h.cache hs)⟩

/-- The functions of the host do not touch the scopes and the builtins, nor put templates into the
cache that were not read. -/
def Host.KeepsScopes (host : Host) : Prop :=
  ∀ name span arguments, Moves State.SameScopes (host.contextual name span arguments)

theorem moves_write_sameScopes (span : Option Span) (v : Value) :
    Moves State.SameScopes (write span v) :=
  sequential_sameScopes.write fun _ _ _ _ => ⟨rfl, rfl, id⟩

theorem moves_lookUp_sameScopes (name : String) (span : Option Span) :
    Moves State.SameScopes (Eval.lookUp name span) := by
  have S := sequential_sameScopes
  refine S.bind S.context fun c => ?_
  split
  · exact S.pure _
  · split
    · exact S.report _ _
    · exact S.pure _

theorem moves_popSink_sameScopes : Moves State.SameScopes popSink :=
  sequential_sameScopes.popSink fun _ _ _ _ => ⟨rfl, rfl, id⟩

/-- Only the functions of the basic host that push and pop scopes touch them. -/
theorem basicHost_keepsScopes {names : List String} (hpush : "push_scope" ∉ names)
    (hpop : "pop_scope" ∉ names) : (basicHost.restricted names).KeepsScopes := by
  intro name span arguments
  have S := sequential_sameScopes
  have hstore (s : State) (store : Store) : s.SameScopes { s with store } := ⟨rfl, rfl, id⟩
  have hcomputed (c : Computation Value) : Moves State.SameScopes (Eval.computed c) :=
    S.compute_of_store hstore (fun e => S.failWith e) c
  have hwrite : Moves State.SameScopes (BasicHost.writeAll span arguments) :=
    S.forM (moves_write_sameScopes span) arguments
  have hpushed : Moves State.SameScopes pushSink := fun _ => ⟨rfl, rfl, id⟩
  unfold Host.restricted
  dsimp only
  split
  · next hn =>
    show Moves State.SameScopes (BasicHost.contextual name span arguments)
    unfold BasicHost.contextual
    split
    · refine S.bind S.context fun c => ?_
      split <;> exact S.pure _
    · exact S.bind S.context fun _ => hcomputed _
    · exact S.bind S.context fun _ => hcomputed _
    · exact hcomputed _
    · exact S.bind hwrite fun _ => S.pure _
    · exact S.bind hpushed fun _ => S.bind hwrite fun _ =>
        S.bind moves_popSink_sameScopes fun _ => hcomputed _
    · exact absurd hn hpush
    · exact absurd hn hpop
    · exact S.bind (fun _ => ⟨rfl, rfl, id⟩) fun _ => S.pure _
    · exact S.pure _
  · exact S.pure _

/-! ## Runs -/

/-- A run beside itself, as long as what a name is bound to in the top scope is kept, from a state
on. What the arguments are called is never bound by what an include comes upon; of other names that
is minded. -/
def Pairing.footprint (name : String) : Pairing State where
  value := Eq
  store := Eq
  states i s t := s = t ∧ s.CacheIsRead ∧ i.context.Framed (· = name) s.context
  fits n := n.BindsOnly (· ≠ name)
  binds other := other ≠ name
  known := Template.IsLoaded
  minds event := name ≠ argumentsName ∧ ∃ t, event.included? = some t ∧ t.Binds name
  fails _ := True
  escapes _ _ _ _ := True

theorem State.SameScopes.framed {kept : String → Prop} {c : Context} {s t : State}
    (h : s.SameScopes t) (hs : s.CacheIsRead ∧ c.Framed kept s.context) :
    t.CacheIsRead ∧ c.Framed kept t.context :=
  ⟨h.cache hs.1, h.builtins.trans hs.2.builtins, h.scopes ▸ hs.2.scopes⟩

/-- An outcome beside itself, for what is known of the state behind. -/
theorem Paired.self {α : Type} {Q : α → α → Prop} (hq : ∀ a, Q a a) {known : State → Prop}
    {e : Eval α} {s : State} (h : known (after e s)) :
    Paired (fun _ => True) Q (fun s t => s = t ∧ known s) (e s) (e s) := by
  unfold after at h
  generalize e s = r at h
  cases r with
  | ok a t => exact .ok (hq a) ⟨rfl, h⟩
  | error x t => exact .error trivial ⟨rfl, h⟩

theorem Paired.moved {α : Type} {Q : α → α → Prop} (hq : ∀ a, Q a a) {name : String} {i s : State}
    {e : Eval α} (he : Moves State.SameScopes e)
    (hs : s.CacheIsRead ∧ i.context.Framed (· = name) s.context) :
    Paired (fun _ => True) Q ((Pairing.footprint name).states i) (e s) (e s) :=
  Paired.self hq ((he s).framed hs)

theorem coupling_footprint {host : Host} (hh : host.KeepsScopes) (name : String) :
    Coupling host (.footprint name) where
  terms := terms_eq host
  child h hm := Node.BindsOnly.child h hm
  target h ht := Node.BindsOnly.target h ht
  constant _ _ := rfl
  related h := h.1 ▸ .refl _
  withStore h _ _ hst := by
    obtain ⟨rfl, hs⟩ := h
    cases hst
    exact ⟨rfl, hs.1, hs.2⟩
  withLibrary h _ := by
    obtain ⟨rfl, hs⟩ := h
    exact ⟨rfl, hs.1, hs.2⟩
  withPending h _ := by
    obtain ⟨rfl, hs⟩ := h
    exact ⟨rfl, hs.1, hs.2.builtins, hs.2.scopes⟩
  keeping h _ _ _ _ hread _ := by
    obtain ⟨rfl, hs⟩ := h
    exact ⟨rfl, hs.1.addIfAbsent _ ⟨_, _, _, hread⟩ _, hs.2⟩
  binding h other hother v w hv _ _ _ _ hs ht := by
    obtain ⟨rfl, hs'⟩ := h
    cases hv
    obtain ⟨rfl, rfl⟩ := State.binding_eq hs ht
    exact ⟨rfl, hs'.1, hs'.2.builtins, (hs ▸ hs'.2.scopes).set hother v⟩
  kept h path kept hkept := ⟨kept, h.2.1 path kept hkept, rfl⟩
  including {t} ht hm he := by
    by_cases hn : name = argumentsName
    · exact hn ▸ ht.bindsOnly he
    · exact not_not.mp fun hbinds => hm ⟨hn, t, rfl, hbinds⟩
  unknown {i s t} h other span hs ht := by
    obtain ⟨rfl, hs'⟩ := h
    rw [Traced.lookUp_run_of_none hs]
    refine .together ?_ (.moved (fun _ => rfl) (moves_lookUp_sameScopes other span) hs')
    rintro event he ⟨-, t, ht, -⟩
    rw [List.mem_singleton.mp he] at ht
    cases ht
  writes span v w hv := by
    rintro i s _ ⟨rfl, hs⟩
    cases hv
    rw [Traced.write_run]
    refine .together ?_ (.moved (fun _ => trivial) (moves_write_sameScopes span v) hs)
    rintro event he ⟨-, t, ht, -⟩
    split at he
    · rw [List.mem_singleton.mp he] at ht
      cases ht
    · nomatch he
  failsAtOnce _ _ := trivial
  failsWith _ := trivial
  faults _ := trivial
  exhausts := trivial
  failsToAnswer _ := trivial
  failsToCall _ := trivial
  escapesIncluding _ _ := trivial
  escapesBind _ _ := trivial
  contextual i other span vs ws h := by
    obtain rfl := eq_of_forall₂ h
    rintro s _ ⟨rfl, hs⟩
    exact .moved (fun _ => rfl) (hh other span vs) hs
  file {i s _} h path := by
    obtain ⟨rfl, hs⟩ := h
    refine ⟨i, ⟨rfl, hs.1, hs.2.builtins, hs.2.scopes⟩, ?_, fun _ _ _ _ => trivial⟩
    rintro s _ ⟨rfl, hs⟩
    exact .moved (fun _ => trivial)
      (sequential_sameScopes.popSourceFile fun _ _ _ _ => ⟨rfl, rfl, id⟩) hs
  arguments {i s _} h v _ hv _ _ _ _ hs ht := by
    obtain ⟨rfl, hs'⟩ := h
    cases hv
    obtain ⟨rfl, rfl⟩ := State.binding_eq hs ht
    refine ⟨s.binding _ _ argumentsName v, ⟨rfl, hs'.1, rfl, .refl _⟩, ?_,
      fun _ _ _ _ => trivial⟩
    rintro u _ ⟨rfl, hu⟩
    refine .ok trivial ⟨rfl, hu.1, hu.2.builtins.trans hs'.2.builtins, ?_⟩
    exact (hs ▸ hs'.2.scopes).restored
      (fun other ho => Table.get?_set_of_ne ho v _) hu.2.scopes
  sink {i s _} h := by
    obtain ⟨rfl, hs⟩ := h
    refine ⟨i, ⟨rfl, hs.1, hs.2.builtins, hs.2.scopes⟩, ?_, fun _ _ _ _ => trivial⟩
    rintro s _ ⟨rfl, hs⟩
    exact .moved (fun _ => ⟨rfl, Option.rel_refl (fun _ => rfl) _⟩) moves_popSink_sameScopes hs

/-- Whether a run returns or fails, it leaves the builtins as they were, and the scopes but for what
names are bound to in the top one that the template binds or one that was included on the way. What
the arguments are called is bound to what it was bound to. -/
theorem scopes_framed {host : Host} (hh : host.KeepsScopes) (fuel : Nat) {t : LoadedTemplate}
    (ht : t.IsRead) (way : TemplateRun) {s : State} (hs : s.CacheIsRead) :
    ∃ events, Traced.run way host fuel t.numbered s = (way.run host fuel t.numbered s, events) ∧
      s.context.Framed
        (fun name => name = argumentsName ∨
          ¬ t.numbered.Binds name ∧ ∀ u ∈ events.filterMap Event.included?, ¬ u.Binds name)
        (after (way.run host fuel t.numbered) s).context := by
  have hframed (name : String) (hbinds : name = argumentsName ∨ ¬ t.numbered.Binds name) :
      (Pairing.footprint name).Outcome s Eq (way.run host fuel t.numbered s)
        (Traced.run way host fuel t.numbered s) := by
    refine (coupling_footprint hh name).run ?_ fuel ?_ way s s s ⟨rfl, hs, rfl, .refl _⟩
    · rintro i s _ ⟨rfl, hs⟩
      refine ⟨i, ⟨rfl, hs.1, hs.2.builtins, hs.2.scopes⟩, ?_, fun _ _ _ _ => trivial⟩
      rintro s _ ⟨rfl, hs⟩
      exact .ok trivial ⟨rfl, hs.1, hs.2.builtins, hs.2.scopes⟩
    · intro he
      rcases hbinds with rfl | hbinds
      · exact Template.IsLoaded.bindsOnly ⟨t, ht, rfl⟩ he
      · exact not_not.mp hbinds
  have htraced := run_traced host fuel t.numbered way s
  generalize Traced.run way host fuel t.numbered s = traced at hframed htraced ⊢
  obtain ⟨_, events⟩ := traced
  obtain rfl := htraced
  refine ⟨events, rfl, ?_⟩
  have hkept (name : String) (h : name = argumentsName ∨
      ¬ t.numbered.Binds name ∧ ∀ u ∈ events.filterMap Event.included?, ¬ u.Binds name) :
      s.context.Framed (· = name) (after (way.run host fuel t.numbered) s).context := by
    have hrun := hframed name (h.imp id And.left)
    unfold after
    generalize way.run host fuel t.numbered s = r at hrun
    cases hrun with
    | together _ hpaired =>
      cases hpaired with
      | ok _ hs => exact hs.2.2
      | error _ hs => exact hs.2.2
    | escaped _ hminds _ =>
      obtain ⟨hn, u, hu, hbinds⟩ := hminds
      exact absurd hbinds ((h.resolve_left hn).2 u
        (List.mem_filterMap.mpr ⟨_, List.mem_append_right _ (.head _), hu⟩))
  have harguments := hkept argumentsName (.inl rfl)
  exact ⟨harguments.builtins, .of_forall harguments.scopes fun name hn => (hkept name hn).scopes⟩

/-- A page that binds a name and includes a template that binds another one and then fails, with the
arguments bound to its own: both names have changed in the top scope, a third one and the arguments
have not. -/
theorem scopes_framed_failure :
    let source := "\x7b\x7b a = 1 \x7d\x7d\x7b\x7b include(\"f\", 2) \x7d\x7d"
    let t : LoadedTemplate := ⟨0, (Template.parse {} none source).toOption.getD {}⟩
    let host := basicHost.restricted ["echo", "capture"]
    let s : State := {
      context :=
        { loader := some (.function 0)
          scopes := [⟨6, [("a", .int 0 7), ("b", .int 0 8), ("c", .int 0 9), ("$", .null)]⟩,
            ⟨5, [("a", .int 0 3)]⟩] }
      library := { cells := #[{ texts := [("f", some "\x7b\x7b b = $0 \x7d\x7d\x7b\x7b x() \x7d\x7d")] }] } }
    let u := after (TemplateRun.render.run host 30 t.numbered) s
    let shown := u.context.scopes.map fun scope => scope.bindings.map fun b =>
      (b.1, match b.2 with | .null => none | .int _ n => some n | _ => some 0)
    host.KeepsScopes ∧ t.IsRead ∧ s.CacheIsRead ∧
      (∃ events, Traced.run .render host 30 t.numbered s =
          (TemplateRun.render.run host 30 t.numbered s, events) ∧
        s.context.Framed
          (fun name => name = argumentsName ∨
            ¬ t.numbered.Binds name ∧ ∀ u ∈ events.filterMap Event.included?, ¬ u.Binds name)
          u.context) ∧
      (match TemplateRun.render.run host 30 t.numbered s with
        | .ok .. => false
        | .error .. => true) = true ∧
      shown = [[("a", some 1), ("b", some 2), ("c", some 9), ("$", none)], [("a", some 3)]] := by
  intro source t host s u shown
  have hh : host.KeepsScopes := basicHost_keepsScopes (by decide) (by decide)
  have hread : t.IsRead := LoadedTemplate.isRead_of_toBool (by decide +kernel) 0
  have hcache : s.CacheIsRead := fun _ _ h => by cases h
  exact ⟨hh, hread, hcache, scopes_framed hh 30 hread .render hcache, by decide +kernel,
    by decide +kernel⟩

end Stencil

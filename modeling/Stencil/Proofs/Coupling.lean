import Mathlib
import Stencil.Proofs.Tracing

/-!
# Coupled runs

Two runs of one tree, from states that go together: `Coupling` collects what has to be known of
the states (and of the values in them) for the runs to go together step by step, and
`Coupling.evaluate` and `Coupling.run` conclude it for nodes and templates. The second run is
traced. Its events decide how far the conclusion goes: as long as none is one that the coupling
is told to mind, both runs come to the same, up to the relation of their values; from the first
one that it minds on, all that is known is what the coupling itself says of runs in which it
happens (`Pairing.escapes`).

What values have to satisfy is `Terms`; for values that are the same it holds as it stands
(`terms_eq`).
-/

namespace Stencil

variable {α β γ δ ε σ τ : Type}

/-! ## Outcomes -/

/-- Outcomes that go together: both return, with results related by `Q`, or both fail in the same
way, one with `F`, and the states behind are related by `R`. -/
inductive Paired (F : ε → Prop) (Q : α → β → Prop) (R : σ → τ → Prop) :
    EStateM.Result ε σ α → EStateM.Result ε τ β → Prop
  | ok {a : α} {b : β} {s : σ} {t : τ} : Q a b → R s t → Paired F Q R (.ok a s) (.ok b t)
  | error {x : ε} {s : σ} {t : τ} : F x → R s t → Paired F Q R (.error x s) (.error x t)

/-- From related states, two runs come to outcomes that go together. -/
def PairsWith (F : ε → Prop) (Q : α → β → Prop) (R : σ → τ → Prop) (e : EStateM ε σ α)
    (f : EStateM ε τ β) : Prop := ∀ s t, R s t → Paired F Q R (e s) (f t)

/-- Two runs go together, however they fail. -/
abbrev Pairs (Q : α → β → Prop) (R : σ → τ → Prop) (e : EStateM ε σ α) (f : EStateM ε τ β) : Prop :=
  PairsWith (fun _ => True) Q R e f

namespace Paired

variable {F : ε → Prop} {Q : α → β → Prop} {R : σ → τ → Prop}

theorem mono {F' : ε → Prop} {Q' : α → β → Prop} {R' : σ → τ → Prop} {r : EStateM.Result ε σ α}
    {r' : EStateM.Result ε τ β} (h : Paired F Q R r r') (hf : ∀ x, F x → F' x)
    (hq : ∀ a b, Q a b → Q' a b) (hr : ∀ s t, R s t → R' s t) : Paired F' Q' R' r r' := by
  cases h with
  | ok ha hs => exact .ok (hq _ _ ha) (hr _ _ hs)
  | error hx hs => exact .error (hf _ hx) (hr _ _ hs)

/-- A sequence, from two states. -/
protected theorem bind {Q' : γ → δ → Prop} {e : EStateM ε σ α} {f : EStateM ε τ β}
    {k : α → EStateM ε σ γ} {l : β → EStateM ε τ δ} {s : σ} {t : τ} (h : Paired F Q R (e s) (f t))
    (hk : ∀ a b, Q a b → PairsWith F Q' R (k a) (l b)) :
    Paired F Q' R ((e >>= k) s) ((f >>= l) t) := by
  rw [bind_run, bind_run]
  generalize e s = r, f t = r' at h
  cases h with
  | ok ha hs => exact hk _ _ ha _ _ hs
  | error hx hs => exact .error hx hs

theorem refl (r : EStateM.Result ε σ α) : Paired (fun _ => True) Eq Eq r r := by
  cases r with
  | ok a s => exact .ok rfl rfl
  | error x s => exact .error trivial rfl

/-- Outcomes with the same results in the same states are the same. -/
theorem eq {r r' : EStateM.Result ε σ α} (h : Paired F Eq Eq r r') : r = r' := by
  cases h with
  | ok ha hs => rw [ha, hs]
  | error _ hs => rw [hs]

end Paired

namespace PairsWith

variable {F : ε → Prop} {Q : α → β → Prop} {R : σ → τ → Prop}

protected theorem pure {a : α} {b : β} (h : Q a b) :
    PairsWith F Q R (pure a : EStateM ε σ α) (pure b) := fun _ _ hs => .ok h hs

protected theorem throw {x : ε} (h : F x) :
    PairsWith F Q R (throw x : EStateM ε σ α) (throw x : EStateM ε τ β) := fun _ _ hs => .error h hs

protected theorem bind {Q' : γ → δ → Prop} {e : EStateM ε σ α} {f : EStateM ε τ β}
    {k : α → EStateM ε σ γ} {l : β → EStateM ε τ δ} (h : PairsWith F Q R e f)
    (hk : ∀ a b, Q a b → PairsWith F Q' R (k a) (l b)) : PairsWith F Q' R (e >>= k) (f >>= l) :=
  fun s t hs => (h s t hs).bind hk

/-- What goes on from the states that are found. -/
theorem get {k : σ → EStateM ε σ α} {l : τ → EStateM ε τ β}
    (h : ∀ s t, R s t → Paired F Q R (k s s) (l t t)) :
    PairsWith F Q R (do k (← MonadState.get)) (do l (← MonadState.get)) := fun s t hs => by
  rw [bind_run, bind_run, get_run, get_run]
  exact h s t hs

theorem of_eq {Q : α → α → Prop} (h : ∀ a, Q a a) (e : EStateM ε σ α) : Pairs Q Eq e e := by
  rintro s _ rfl
  exact (Paired.refl (e s)).mono (fun _ => id) (fun a _ hab => hab ▸ h a) fun _ _ => id

end PairsWith

/-! ## Tables and scopes -/

theorem getElem?_rel {Q : α → β → Prop} {as : List α} {bs : List β} (h : List.Forall₂ Q as bs) (n : Nat) :
    Option.Rel Q as[n]? bs[n]? := by
  induction h generalizing n with
  | nil => exact .none
  | cons hab _ ih =>
    cases n with
    | zero => exact .some hab
    | succ n => exact ih n

theorem atIndex?_rel {Q : α → β → Prop} {as : List α} {bs : List β} (h : List.Forall₂ Q as bs) (n : Int) :
    Option.Rel Q (atIndex? as n) (atIndex? bs n) := by
  rw [atIndex?, atIndex?, h.length_eq]
  cases placeOfIndex? bs.length n with
  | none => exact .none
  | some place => exact getElem?_rel h place

/-- Bindings of one name to things related by `Q`. -/
def Bound (Q : α → β → Prop) (a : String × α) (b : String × β) : Prop := b.1 = a.1 ∧ Q a.2 b.2

/-- Tables with the same names in the same order, bound to related things. -/
abbrev Table.Rel (Q : α → β → Prop) : Table α → Table β → Prop := List.Forall₂ (Bound Q)

namespace Table.Rel

variable {Q : α → β → Prop} {as : Table α} {bs : Table β} (h : Table.Rel Q as bs)

include h

theorem get? (name : String) : Option.Rel Q (as.get? name) (bs.get? name) := by
  induction h with
  | nil => exact .none
  | @cons a b _ _ hab _ ih =>
    obtain ⟨hn, hq⟩ := hab
    rw [Table.get?, Table.get?, hn]
    split
    · exact .some hq
    · exact ih

theorem set (name : String) {a : α} {b : β} (hab : Q a b) :
    Table.Rel Q (as.set name a) (bs.set name b) := by
  induction h with
  | nil => exact .cons ⟨rfl, hab⟩ .nil
  | @cons c d _ _ hcd hrest ih =>
    obtain ⟨hn, hq⟩ := hcd
    rw [Table.set, Table.set, hn]
    split
    · exact .cons ⟨rfl, hab⟩ hrest
    · exact .cons ⟨rfl, hq⟩ ih

theorem erase (name : String) : Table.Rel Q (as.erase name) (bs.erase name) := by
  induction h with
  | nil => exact .nil
  | @cons a b _ _ hab _ ih =>
    have hn : b.1 = a.1 := hab.1
    simp only [Table.erase, List.filter_cons, hn]
    split
    · exact .cons hab ih
    · exact ih

end Table.Rel

theorem Table.Rel.refl {Q : α → α → Prop} (hq : ∀ a, Q a a) (t : Table α) : Table.Rel Q t t :=
  List.forall₂_same.mpr fun b _ => ⟨rfl, hq b.2⟩

/-- Tables with the same bindings are the same. -/
theorem Table.eq_of_rel {as bs : Table α} (h : Table.Rel Eq as bs) : as = bs := by
  induction h with
  | nil => rfl
  | cons hab _ ih => rw [ih, Prod.ext hab.1 hab.2.symm]

/-- The same scope, with related bindings. -/
structure Scope.Rel (V : Value → Value → Prop) (a b : Scope) : Prop where
  id : b.id = a.id
  bindings : Table.Rel V a.bindings b.bindings

/-- Scopes with the same bindings are the same. -/
theorem Scope.eq_of_rel {as bs : List Scope} (h : List.Forall₂ (Scope.Rel Eq) as bs) : as = bs := by
  induction h with
  | nil => rfl
  | @cons a b _ _ hab _ ih =>
    have hbindings := Table.eq_of_rel hab.bindings
    have hid := hab.id
    cases a
    cases b
    cases hbindings
    cases hid
    rw [ih]

theorem lookUpScopes_rel {V : Value → Value → Prop} {as bs : List Scope}
    (h : List.Forall₂ (Scope.Rel V) as bs) (name : String) :
    Option.Rel V (Context.lookUpScopes name as) (Context.lookUpScopes name bs) := by
  induction h with
  | nil => exact .none
  | @cons a b _ _ hab _ ih =>
    have hget := hab.bindings.get? name
    rw [Context.lookUpScopes, Context.lookUpScopes]
    cases ha : a.bindings.get? name <;> cases hb : b.bindings.get? name <;> rw [ha, hb] at hget
    · exact ih
    · cases hget
    · cases hget
    · exact hget

/-! ## Values -/

/-- What two values that are related have in common for whoever looks at their forms. -/
inductive Value.SameForm (V : Value → Value → Prop) : Value → Value → Prop
  | null : Value.SameForm V .null .null
  | bool (b c : Bool) : Value.SameForm V (.bool b) (.bool c)
  | int (i j : Nat) (m n : Int) : Value.SameForm V (.int i m) (.int j n)
  | float (i j : Nat) (x y : Float) : Value.SameForm V (.float i x) (.float j y)
  | text (i j : Nat) (s t : String) : Value.SameForm V (.text i s) (.text j t)
  | list {i j : ListId} : V (.list i) (.list j) → Value.SameForm V (.list i) (.list j)
  | tuple (i j : Nat) (vs ws : List Value) : Value.SameForm V (.tuple i vs) (.tuple j ws)
  | dict (i j : Nat) (xs ys : List (Value × Value)) : Value.SameForm V (.dict i xs) (.dict j ys)
  | object {i j : Nat} {type type' : String} {as bs : List (String × Value)} :
      Option.Rel V (Value.object i type as).invocation? (Value.object j type' bs).invocation? →
      Value.SameForm V (.object i type as) (.object j type' bs)
  | record {i j : Nat} {type type' : String} {as bs : List (String × Value)} :
      Option.Rel V (Value.record i type as).invocation? (Value.record j type' bs).invocation? →
      Value.SameForm V (.record i type as) (.record j type' bs)
  | unprintable (i j : Nat) (type type' : String) (r r' : Refusal) :
      Value.SameForm V (.unprintable i type r) (.unprintable j type' r')
  | function (id : Nat) (f : Function) : Value.SameForm V (.function id f) (.function id f)
  | method {v w : Value} (m : Method) : V v w → Value.SameForm V (.method v m) (.method w m)

/-- What has to be known of a relation of values and of one of stores for evaluation not to tell
related ones apart. -/
structure Terms (host : Host) (V : Value → Value → Prop) (S : Store → Store → Prop) : Prop where
  null : V .null .null
  bool (b : Bool) : V (.bool b) (.bool b)
  text (id : Nat) (s : String) : V (.text id s) (.text id s)
  form {v w : Value} : V v w → v.SameForm V w
  typeName {v w : Value} : V v w → w.typeName = v.typeName
  numeric? {v w : Value} : V v w → w.numeric? = v.numeric?
  truthy {s t : Store} {v w : Value} : S s t → V v w → t.truthy w = s.truthy v
  contents {s t : Store} {i j : ListId} : S s t → V (.list i) (.list j) →
    List.Forall₂ V (s.contents i) (t.contents j)
  nextNumber {s t : Store} : S s t → t.nextNumber = s.nextNumber
  setNumber {s t : Store} : S s t → ∀ n, S { s with nextNumber := n } { t with nextNumber := n }
  display {s t : Store} {v w : Value} : S s t → V v w → t.display w = s.display v
  newList {vs ws : List Value} : List.Forall₂ V vs ws →
    Pairs V S (Computation.newList vs) (Computation.newList ws)
  sole {sink sink' : Sink} : sink'.text = sink.text → Option.Rel V sink.sole sink'.sole →
    Pairs V S sink.value sink'.value
  member {v w : Value} (name : String) : V v w →
    Pairs V S (Computation.member v name) (Computation.member w name)
  item {v w k l : Value} : V v w → V k l → Pairs V S (Computation.item v k) (Computation.item w l)
  negate {v w : Value} : V v w → Pairs V S v.negate w.negate
  arithmetic (op : Arithmetic) {v w v' w' : Value} : V v w → V v' w' →
    Pairs V S (op.apply v v') (op.apply w w')
  compareBy (op : Comparison) {v w v' w' : Value} : V v w → V v' w' →
    Pairs Eq S (Computation.compareBy op v v') (Computation.compareBy op w w')
  elements? {v w : Value} : V v w →
    Pairs (Option.Rel (List.Forall₂ V)) S (Computation.elements? v) (Computation.elements? w)
  method (m : Method) {v w : Value} {vs ws : List Value} : V v w → List.Forall₂ V vs ws →
    Pairs V S (m.call v vs) (m.call w ws)
  plain (name : String) {vs ws : List Value} : List.Forall₂ V vs ws →
    Pairs V S (host.plain name vs) (host.plain name ws)

theorem Option.rel_eq {a b : Option α} (h : Option.Rel Eq a b) : a = b := by
  cases h with
  | some h => rw [h]
  | none => rfl

theorem Option.rel_refl {Q : α → α → Prop} (h : ∀ a, Q a a) (a : Option α) : Option.Rel Q a a := by
  cases a with
  | none => exact .none
  | some a => exact .some (h a)

/-- Lists with the same elements are the same. -/
theorem eq_of_forall₂ {as bs : List α} (h : List.Forall₂ Eq as bs) : as = bs := by
  rwa [List.forall₂_eq_eq_eq] at h

/-- Values that are the same in stores that are the same. -/
theorem terms_eq (host : Host) : Terms host Eq Eq where
  null := rfl
  bool _ := rfl
  text _ _ := rfl
  form {v w} h := by
    subst h
    have hrel (o : Option Value) : Option.Rel Eq o o := Option.rel_refl (fun _ => rfl) o
    cases v with
    | null => exact .null
    | list i => exact .list rfl
    | object _ _ _ => exact .object (hrel _)
    | record _ _ _ => exact .record (hrel _)
    | method v m => exact .method m rfl
    | _ => constructor
  typeName h := h ▸ rfl
  numeric? h := h ▸ rfl
  truthy hs hv := hs ▸ hv ▸ rfl
  contents hs hv := by
    cases hs
    cases hv
    exact List.forall₂_same.mpr fun _ _ => rfl
  nextNumber h := h ▸ rfl
  setNumber h n := h ▸ rfl
  display hs hv := hs ▸ hv ▸ rfl
  newList h := eq_of_forall₂ h ▸ .of_eq (fun _ => rfl) _
  sole {sink sink'} ht hs := by
    have h : sink' = sink := by
      cases sink
      cases sink'
      rw [Sink.mk.injEq]
      exact ⟨ht, (Option.rel_eq hs).symm⟩
    exact h ▸ .of_eq (fun _ => rfl) _
  member name h := by
    subst h
    exact .of_eq (fun _ => rfl) _
  item h k := by
    subst h k
    exact .of_eq (fun _ => rfl) _
  negate h := by
    subst h
    exact .of_eq (fun _ => rfl) _
  arithmetic op _ _ _ _ h k := by
    subst h k
    exact .of_eq (fun _ => rfl) _
  compareBy op _ _ _ _ h k := by
    subst h k
    exact .of_eq (fun _ => rfl) _
  elements? h := by
    subst h
    exact .of_eq (Option.rel_refl fun _ => List.forall₂_same.mpr fun _ _ => rfl) _
  method m _ _ _ _ h k := by
    subst h
    exact eq_of_forall₂ k ▸ .of_eq (fun _ => rfl) _
  plain name _ _ h := eq_of_forall₂ h ▸ .of_eq (fun _ => rfl) _

/-! ## States -/

/-- What states of coupled runs have in common, whatever else the coupling says: they may differ in
what was written, in whether output is enabled and in whether unknown names are errors. -/
structure State.Rel (V : Value → Value → Prop) (S : Store → Store → Prop) (s t : State) : Prop where
  loader : t.context.loader = s.context.loader
  options : t.context.options = s.context.options
  builtins : Table.Rel V s.context.builtins t.context.builtins
  scopes : List.Forall₂ (Scope.Rel V) s.context.scopes t.context.scopes
  sourceFiles : t.context.sourceFiles = s.context.sourceFiles
  pending : t.context.pending = s.context.pending
  sinks : t.context.sinksBelow.length = s.context.sinksBelow.length
  store : S s.store t.store
  cache : t.cache = s.cache
  library : t.library = s.library

namespace State.Rel

variable {V : Value → Value → Prop} {S : Store → Store → Prop} {s t : State}

theorem lookUp (h : State.Rel V S s t) (name : String) :
    Option.Rel V (s.context.lookUp name) (t.context.lookUp name) := by
  have hscopes := lookUpScopes_rel h.scopes name
  rw [Context.lookUp, Context.lookUp]
  cases hs : Context.lookUpScopes name s.context.scopes <;>
    cases ht : Context.lookUpScopes name t.context.scopes <;> rw [hs, ht] at hscopes
  · exact h.builtins.get? name
  · cases hscopes
  · cases hscopes
  · exact hscopes

theorem locate (h : State.Rel V S s t) (span : Option Span) :
    t.context.locate span = s.context.locate span := by
  simp only [Context.locate, Context.sourceFile?, h.sourceFiles]

theorem description (h : State.Rel V S s t) :
    t.context.description t.cache = s.context.description s.cache := by
  have hscopes := h.scopes.length_eq
  have hfiles := h.sourceFiles
  have hcache := h.cache
  have hsinks := h.sinks
  unfold Context.description Context.sinks
  rw [List.length_cons, List.length_cons, ← hscopes, hsinks, hfiles, hcache]

end State.Rel

/-- A state with another store. -/
def State.withStore (s : State) (store : Store) : State := { s with store }

/-- A state with other answers of the loaders. -/
def State.withLibrary (s : State) (library : Library) : State := { s with library }

/-- A state with other names pending. -/
def State.withPending (s : State) (pending : Option (List String)) : State :=
  { s with context := { s.context with pending } }

/-- A state with a template loaded and kept under a path, unless there is one already. -/
def State.keeping (s : State) (path : String) (t : Template) : State :=
  { s with
    store := (t.load s.store).2
    cache := (s.cache.addIfAbsent path (t.load s.store).1).2 }

/-- A state with a name bound in a scope that is on top of others. -/
def State.binding (s : State) (scope : Scope) (below : List Scope) (name : String) (v : Value) :
    State :=
  s.inScopes ({ scope with bindings := scope.bindings.set name v } :: below)

/-- A file is left, from states in which the same files are being executed. -/
theorem Pairs.leaveFile {R : State → State → Prop}
    (hfiles : ∀ s t, R s t → t.context.sourceFiles = s.context.sourceFiles)
    (hleave : ∀ s t below, R s t → R (s.inFiles below) (t.inFiles below)) :
    Pairs (fun _ _ => True) R (do let _ ← Eval.popSourceFile) (do let _ ← Eval.popSourceFile) := by
  intro s t h
  cases hs : s.context.sourceFiles with
  | nil =>
    rw [bind_of_error (Eval.popSourceFile_run_nil hs),
      bind_of_error (Eval.popSourceFile_run_nil ((hfiles s t h).trans hs))]
    exact .error trivial h
  | cons file below =>
    rw [bind_of_ok (Eval.popSourceFile_run hs),
      bind_of_ok (Eval.popSourceFile_run ((hfiles s t h).trans hs))]
    exact .ok trivial (hleave s t below h)

/-! ## Trees -/

/-- The name that a node binds. -/
def Node.target? : Node → Option String
  | .assign _ target _ | .loop _ target _ _ => some target
  | _ => none

/-- The values that stand in a node. -/
def Node.constants : Node → List Value
  | .const _ value => [value]
  | .argumentAt _ index => [index]
  | .custom _ writes value => [writes, value]
  | _ => []

/-- Front matter stands right below the page. -/
theorem Template.frontMatter?_child {t : Template} {front : Node} (h : t.frontMatter? = some front) :
    ∃ page, t.page = some page ∧ front ∈ page.node.children := by
  unfold Template.frontMatter? at h
  split at h
  · next page hp =>
    refine ⟨page, hp, ?_⟩
    split at h
    · cases h
    · cases h
      exact .tail _ (.head _)
  · cases h

/-! ## Couplings -/

/-- What is related in coupled runs. -/
structure Pairing (ι : Type) where
  /-- values -/
  value : Value → Value → Prop
  /-- stores -/
  store : Store → Store → Prop
  /-- states; what is said of them may depend on where a run has got to -/
  states : ι → State → State → Prop
  /-- the trees that are run -/
  fits : Node → Prop
  /-- the names that these trees may bind -/
  binds : String → Prop
  /-- the templates that includes may come upon -/
  known : Template → Prop
  /-- the events that the coupling minds -/
  minds : Event → Prop
  /-- how runs may fail -/
  fails : Failure → Prop
  /-- what is known of a first run once such an event has happened in the second -/
  escapes : ι → Event → {α : Type} → EStateM.Result Failure State α → Prop

namespace Pairing

variable {ι : Type} (P : Pairing ι)

/-- The trees that are run of a template. One with errors is not run at all. -/
def Fits (t : Template) : Prop :=
  t.hasErrors = false → ∀ page, t.page = some page → P.fits page.node

/-- What two runs come to: outcomes that go together, unless an event happened that the coupling
minds. -/
inductive Outcome (i : ι) (Q : α → β → Prop) (r : EStateM.Result Failure State α) :
    EStateM.Result Failure State β × List Event → Prop
  | together {r' : EStateM.Result Failure State β} {events : List Event} :
      (∀ event ∈ events, ¬ P.minds event) → Paired P.fails Q (P.states i) r r' → Outcome i Q r (r', events)
  | escaped {r' : EStateM.Result Failure State β} {before behind : List Event} {event : Event} :
      (∀ event ∈ before, ¬ P.minds event) → P.minds event → P.escapes i event r →
      Outcome i Q r (r', before ++ event :: behind)

/-- Two runs go together, wherever a run has got to. -/
def Couples (Q : α → β → Prop) (e : Eval α) (E : Traced β) : Prop :=
  ∀ i s t, P.states i s t → P.Outcome i Q (e s) (E t)

/-- What is opened may be closed again: in between, states are related in some way, and once closed
as they are here. -/
def Brackets (i : ι) (s t : State) (close close' : Eval Unit) : Prop :=
  ∃ j, P.states j s t ∧
    (∀ s' t', P.states j s' t' →
      Paired P.fails (fun _ _ => True) (P.states i) (close s') (close' t')) ∧
    ∀ (event : Event) {α : Type} (r : EStateM.Result Failure State α),
      P.escapes j event r → P.escapes i event (Eval.finish close r)

end Pairing

/-- What has to be known for two runs to go together step by step. -/
structure Coupling {ι : Type} (host : Host) (P : Pairing ι) : Prop where
  terms : Terms host P.value P.store
  -- trees
  child {n m : Node} : P.fits n → m ∈ n.children → P.fits m
  target {n : Node} {name : String} : P.fits n → n.target? = some name → P.binds name
  constant {n : Node} {v : Value} : P.fits n → v ∈ n.constants → P.value v v
  -- states
  related {i : ι} {s t : State} : P.states i s t → State.Rel P.value P.store s t
  withStore {i : ι} {s t : State} : P.states i s t → ∀ {store store'}, P.store store store' →
    P.states i (s.withStore store) (t.withStore store')
  withLibrary {i : ι} {s t : State} : P.states i s t → ∀ library,
    P.states i (s.withLibrary library) (t.withLibrary library)
  withPending {i : ι} {s t : State} : P.states i s t → ∀ pending,
    P.states i (s.withPending pending) (t.withPending pending)
  keeping {i : ι} {s t : State} : P.states i s t → ∀ {options : TemplateOptions} {path text : String}
    {template : Template}, Template.parse options (some path) text = .ok template →
    template.hasErrors = false → P.states i (s.keeping path template) (t.keeping path template)
  binding {i : ι} {s t : State} : P.states i s t → ∀ {name : String}, P.binds name →
    ∀ {v w : Value}, P.value v w → ∀ {scope scope' : Scope} {below below' : List Scope},
    s.context.scopes = scope :: below → t.context.scopes = scope' :: below' →
    P.states i (s.binding scope below name v) (t.binding scope' below' name w)
  -- includes
  kept {i : ι} {s t : State} : P.states i s t → ∀ {path : String} {kept : LoadedTemplate},
    s.cache.get? path = some kept → P.known kept.numbered
  including {t : Template} : P.known t → ¬ P.minds (.including t) → P.Fits t
  -- what may be an event that is minded
  unknown {i : ι} {s t : State} : P.states i s t → ∀ (name : String) (span : Option Span),
    s.context.lookUp name = none → t.context.lookUp name = none →
    P.Outcome i P.value (Eval.lookUp name span s) (Traced.lookUp name span t)
  writes (span : Option Span) {v w : Value} : P.value v w →
    P.Couples (fun _ _ => True) (Eval.write span v) (Traced.write span w)
  escapesIncluding {i : ι} {t : Template} (r : EStateM.Result Failure State Sink) :
    P.minds (.including t) → P.escapes i (.including t) r
  escapesBind {i : ι} {event : Event} {α β : Type} {e : Eval α} {s : State} (k : α → Eval β) :
    P.escapes i event (e s) → P.escapes i event ((e >>= k) s)
  -- failures
  failsAtOnce {cause : Cause} (place : Option Span) : cause.kind ≠ .undefinedVariable →
    P.fails (.script ⟨cause, place⟩)
  failsWith (e : Fault) : P.fails (.ofFault e)
  faults (e : Fault) : P.fails (.fault e)
  exhausts : P.fails .exhausted
  failsToAnswer {loader : Loader} {span : Option Span} {name : String} {l l' : Library} {x : Failure} :
    loader.resolve span name l = .error x l' ∨ loader.load span name l = .error x l' → P.fails x
  failsToCall {name : String} {vs : List Value} {s t : Store} {x : Failure} :
    host.plain name vs s = .error (.passing x) t → P.fails x
  -- functions of the host
  contextual (i : ι) (name : String) (span : Option Span) {vs ws : List Value} :
    List.Forall₂ P.value vs ws → PairsWith P.fails P.value (P.states i) (host.contextual name span vs)
      (host.contextual name span ws)
  -- what is opened and closed
  file {i : ι} {s t : State} : P.states i s t → ∀ path : String, P.Brackets i
    (s.inFiles (path :: s.context.sourceFiles)) (t.inFiles (path :: t.context.sourceFiles))
    (do let _ ← Eval.popSourceFile) (do let _ ← Eval.popSourceFile)
  arguments {i : ι} {s t : State} : P.states i s t → ∀ {v w : Value}, P.value v w →
    ∀ {scope scope' : Scope} {below below' : List Scope}, s.context.scopes = scope :: below →
    t.context.scopes = scope' :: below' → P.Brackets i (s.binding scope below argumentsName v)
      (t.binding scope' below' argumentsName w) (Eval.restoreArguments scope)
      (Eval.restoreArguments scope')
  sink {i : ι} {s t : State} : P.states i s t → ∃ j, P.states j (after Eval.pushSink s) (after Eval.pushSink t) ∧
    (∀ s' t', P.states j s' t' → Paired P.fails (fun a b => b.text = a.text ∧ Option.Rel P.value a.sole b.sole)
      (P.states i) (Eval.popSink s') (Eval.popSink t')) ∧
    ∀ (event : Event) (name : String) (r : EStateM.Result Failure State Unit), P.escapes j event r →
      P.escapes i event (Eval.finishCapture (Eval.leavePending name) r)

/-- Outcomes that go together, each with a clean-up behind it. -/
theorem Paired.finish {F : Failure → Prop} {Q : α → β → Prop} {R R' : State → State → Prop}
    {close close' : Eval Unit}
    (hclose : ∀ s t, R s t → Paired F (fun _ _ => True) R' (close s) (close' t))
    {r : EStateM.Result Failure State α} {r' : EStateM.Result Failure State β}
    (h : Paired F Q R r r') : Paired F Q R' (Eval.finish close r) (Eval.finish close' r') := by
  cases h with
  | @ok a b s t hab hs =>
    have hc := hclose s t hs
    simp only [Eval.finish]
    generalize close s = c, close' t = c' at hc
    cases hc with
    | ok _ hs' => exact .ok hab hs'
    | error hx hs' => exact .error hx hs'
  | @error x s t hx hs =>
    have hc := hclose s t hs
    simp only [Eval.finish]
    generalize close s = c, close' t = c' at hc
    cases hc with
    | ok _ hs' => exact .error hx hs'
    | error hy hs' => exact .error hy hs'

namespace Pairing

variable {ι : Type} {P : Pairing ι} {Q : α → β → Prop}

/-- Where no event happens, outcomes only have to go together. -/
theorem Outcome.lift {i : ι} {e : Eval α} {f : Eval β} {s t : State}
    (h : Paired P.fails Q (P.states i) (e s) (f t)) : P.Outcome i Q (e s) (Traced.lift f t) :=
  .together (fun _ h => nomatch h) h

/-- The first event is one that the coupling minds. -/
theorem Outcome.at_once {i : ι} {r : EStateM.Result Failure State α}
    {r' : EStateM.Result Failure State β} {event : Event} {behind : List Event}
    (hm : P.minds event) (he : P.escapes i event r) :
    P.Outcome i Q r (r', event :: behind) := by
  show P.Outcome i Q r (r', [] ++ event :: behind)
  exact .escaped (fun _ h => nomatch h) hm he

/-- The first event is one that the coupling does not mind. -/
theorem Outcome.cons {i : ι} {r : EStateM.Result Failure State α}
    {r' : EStateM.Result Failure State β} {event : Event} {events : List Event}
    (hm : ¬ P.minds event) (h : P.Outcome i Q r (r', events)) :
    P.Outcome i Q r (r', event :: events) := by
  cases h with
  | together hquiet hpaired => exact .together (List.forall_mem_cons.mpr ⟨hm, hquiet⟩) hpaired
  | escaped hquiet hminds he =>
    rw [← List.cons_append]
    exact .escaped (List.forall_mem_cons.mpr ⟨hm, hquiet⟩) hminds he

namespace Couples

theorem lift {e : Eval α} {f : Eval β} (h : ∀ i, PairsWith P.fails Q (P.states i) e f) :
    P.Couples Q e (Traced.lift f) := fun i s t hs => .lift (h i s t hs)

protected theorem pure {a : α} {b : β} (h : Q a b) : P.Couples Q (pure a) (pure b) :=
  lift fun _ => .pure h

protected theorem throw {x : Failure} (h : P.fails x) :
    P.Couples Q (throw x : Eval α) (Traced.lift (throw x : Eval β)) :=
  lift fun _ => .throw h

end Couples

end Pairing

namespace Coupling

open Eval

variable {ι : Type} {host : Host} {P : Pairing ι} {Q : α → β → Prop} {Q' : γ → δ → Prop}

/-! ## Sequences -/

variable (C : Coupling host P)

include C

/-- A sequence, from two states: the events of its second part come behind those of the first. -/
theorem bind_at {i : ι} {e : Eval α} {E : Traced β} {k : α → Eval γ} {K : β → Traced δ}
    {s t : State} (h : P.Outcome i Q (e s) (E t))
    (hk : ∀ a b s' t', Q a b → P.states i s' t' → P.Outcome i Q' (k a s') (K b t')) :
    P.Outcome i Q' ((e >>= k) s) ((E >>= K) t) := by
  rw [Traced.bind_run]
  generalize E t = r at h
  cases h with
  | @together r events hquiet hpaired =>
    rw [bind_run]
    generalize e s = r₀ at hpaired
    cases hpaired with
    | error hx hs => exact .together hquiet (.error hx hs)
    | @ok a b s' t' hab hs =>
      have hnext := hk a b s' t' hab hs
      show P.Outcome i Q' (k a s') ((K b t').1, events ++ (K b t').2)
      generalize K b t' = r' at hnext
      cases hnext with
      | together hquiet' hpaired' =>
        exact .together (List.forall_mem_append.mpr ⟨hquiet, hquiet'⟩) hpaired'
      | escaped hquiet' hminds hescapes =>
        rw [← List.append_assoc]
        exact .escaped (List.forall_mem_append.mpr ⟨hquiet, hquiet'⟩) hminds hescapes
  | @escaped r before behind event hquiet hminds hescapes =>
    have hescapes' := C.escapesBind k hescapes
    cases r with
    | ok b t' =>
      show P.Outcome i Q' _ ((K b t').1, (before ++ event :: behind) ++ (K b t').2)
      rw [List.append_assoc, List.cons_append]
      exact .escaped hquiet hminds hescapes'
    | error x t' => exact .escaped hquiet hminds hescapes'

protected theorem bind {e : Eval α} {E : Traced β} {k : α → Eval γ} {K : β → Traced δ}
    (h : P.Couples Q e E) (hk : ∀ a b, Q a b → P.Couples Q' (k a) (K b)) :
    P.Couples Q' (e >>= k) (E >>= K) := fun i s t hs =>
  C.bind_at (h i s t hs) fun a b s' t' hab hs' => hk a b hab i s' t' hs'

omit C in
/-- With a clean-up behind, from two states between which and the clean-up the runs go together. -/
theorem ensuring_at {i : ι} {e : Eval α} {E : Traced β} {close close' : Eval Unit} {s t : State}
    (hb : P.Brackets i s t close close') (h : P.Couples Q e E) :
    P.Outcome i Q (ensuring e close s) (Traced.ensuring E close' t) := by
  obtain ⟨j, hs, hclose, hescapes⟩ := hb
  have hrun := h j s t hs
  rw [ensuring_run]
  show P.Outcome i Q _ (finish close' (E t).1, (E t).2)
  generalize e s = r, E t = r' at hrun
  cases hrun with
  | escaped hquiet hminds he => exact .escaped hquiet hminds (hescapes _ _ he)
  | together hquiet hpaired => exact .together hquiet (hpaired.finish hclose)

/-! ## Operations that run no nodes -/

section Operations

variable (i : ι)

theorem report {cause : Cause} (hc : cause.kind ≠ .undefinedVariable) (span : Option Span) :
    PairsWith P.fails Q (P.states i) (report cause span : Eval α) (report cause span : Eval β) :=
  fun s t hs => by
    rw [report_run, report_run, (C.related hs).locate]
    exact .error (C.failsAtOnce _ hc) hs

theorem compute {onFault : Fault → Eval α} {onFault' : Fault → Eval β}
    (hf : ∀ e, PairsWith P.fails Q (P.states i) (onFault e) (onFault' e))
    {c : Computation α} {d : Computation β} (h : Pairs Q P.store c d) :
    PairsWith P.fails Q (P.states i) (compute onFault c) (compute onFault' d) := by
  intro s t hs
  rw [compute_run, compute_run]
  have hc := h _ _ (C.related hs).store
  generalize c s.store = r, d t.store = r' at hc
  cases hc with
  | ok hab hst => exact .ok hab (C.withStore hs hst)
  | error _ hst => exact hf _ _ _ (C.withStore hs hst)

theorem computed {c : Computation α} {d : Computation β} (h : Pairs Q P.store c d) :
    PairsWith P.fails Q (P.states i) (computed c) (computed d) :=
  C.compute i (fun e => .throw (C.failsWith e)) h

theorem truthy {v w : Value} (h : P.value v w) :
    PairsWith P.fails Eq (P.states i) (truthy v) (truthy w) := fun _ _ hs =>
  .ok (C.terms.truthy (C.related hs).store h).symm hs

theorem display {v w : Value} (h : P.value v w) :
    Pairs Eq P.store (Computation.display v) (Computation.display w) := by
  intro s t hs
  simp only [Computation.display, Computation.read, C.terms.display hs h]
  cases s.display v with
  | ok text => exact .ok rfl hs
  | error e => exact .error trivial hs

theorem newList {vs ws : List Value} (h : List.Forall₂ P.value vs ws) :
    PairsWith P.fails P.value (P.states i) (Eval.computed (Computation.newList vs))
      (Eval.computed (Computation.newList ws)) :=
  C.computed i (C.terms.newList h)

theorem assign {name : String} (hb : P.binds name) {v w : Value} (h : P.value v w)
    (span : Option Span) :
    PairsWith P.fails (fun _ _ => True) (P.states i) (assign name v span) (assign name w span) := by
  intro s t hs
  have hscopes := (C.related hs).scopes
  cases hsc : s.context.scopes with
  | nil =>
    rw [hsc, List.forall₂_nil_left_iff] at hscopes
    rw [assign_run_nil hsc, assign_run_nil hscopes, (C.related hs).locate]
    exact .error (C.failsAtOnce _ (by rintro ⟨⟩)) hs
  | cons scope below =>
    obtain ⟨scope', below', -, -, htc⟩ := List.forall₂_cons_left_iff.mp (hsc ▸ hscopes)
    rw [assign_run hsc, assign_run htc]
    exact .ok trivial (C.binding hs hb h hsc htc)

theorem argument (index : Int) :
    PairsWith P.fails P.value (P.states i) (argument index) (argument index) := by
  refine .get fun s t hs => ?_
  have harguments : Option.Rel P.value s.context.arguments? t.context.arguments? :=
    lookUpScopes_rel (C.related hs).scopes argumentsName
  generalize s.context.arguments? = a, t.context.arguments? = b at harguments
  cases harguments with
  | none => exact .ok C.terms.null hs
  | some h =>
    cases C.terms.form h with
    | list h =>
      have hcontents := C.terms.contents (C.related hs).store h
      simp only [Store.size_eq, hcontents.length_eq]
      split
      · exact .ok C.terms.null hs
      · split
        · exact .error (C.failsWith _) hs
        · have hitem := atIndex?_rel hcontents index
          generalize atIndex? (s.store.contents _) index = a, atIndex? (t.store.contents _) index = b
            at hitem
          cases hitem with
          | none => exact .error (C.failsWith _) hs
          | some h => exact .ok h hs
    | _ => exact .ok C.terms.null hs

theorem argumentAt {v w : Value} (h : P.value v w) :
    PairsWith P.fails P.value (P.states i) (argumentAt v) (argumentAt w) := by
  refine .get fun s t hs => ?_
  have harguments : Option.Rel P.value s.context.arguments? t.context.arguments? :=
    lookUpScopes_rel (C.related hs).scopes argumentsName
  rw [C.terms.numeric? h]
  generalize s.context.arguments? = a, t.context.arguments? = b at harguments
  cases harguments with
  | none => exact .ok C.terms.null hs
  | some ha =>
    cases C.terms.form ha with
    | list ha =>
      have hcontents := C.terms.contents (C.related hs).store ha
      cases v.numeric? with
      | none =>
        dsimp only
        rw [C.terms.typeName h]
        exact .error (C.failsWith _) hs
      | some n =>
        cases n with
        | whole n => exact C.argument i n s t hs
        | double x =>
          dsimp only
          rw [Store.size_eq, Store.size_eq, hcontents.length_eq, C.terms.typeName h]
          split
          · exact .ok C.terms.null hs
          · exact .error (C.failsWith _) hs
    | _ => exact .ok C.terms.null hs

theorem item (span : Span) {v w k l : Value} (h : P.value v w) (hk : P.value k l) :
    PairsWith P.fails P.value (P.states i) (item span v k) (item span w l) := by
  refine C.compute i (fun e => ?_) (C.terms.item h hk)
  cases e.kind with
  | type => exact C.report i (by rintro ⟨⟩) _
  | _ => exact .throw (C.failsWith e)

theorem negate (span : Span) {v w : Value} (h : P.value v w) :
    PairsWith P.fails P.value (P.states i) (negate span v) (negate span w) := by
  refine C.compute i (fun e => ?_) (C.terms.negate h)
  rw [C.terms.typeName h]
  cases e.kind with
  | type => exact C.report i (by rintro ⟨⟩) _
  | _ => exact .throw (C.failsWith e)

theorem arithmetic (span : Span) (op : Arithmetic) {v w v' w' : Value} (h : P.value v w)
    (h' : P.value v' w') :
    PairsWith P.fails P.value (P.states i) (arithmetic span op v v') (arithmetic span op w w') := by
  refine C.compute i (fun e => ?_) (C.terms.arithmetic op h h')
  rw [C.terms.typeName h, C.terms.typeName h']
  cases e.kind with
  | type | value | zeroDivision => exact C.report i (by rintro ⟨⟩) _
  | _ => exact .throw (C.failsWith e)

theorem comparison (span : Span) (op : Comparison) {v w v' w' : Value} (h : P.value v w)
    (h' : P.value v' w') :
    PairsWith P.fails P.value (P.states i) (comparison span op v v') (comparison span op w w') := by
  refine C.compute i (fun e => ?_)
    ((C.terms.compareBy op h h').bind fun _ _ hb => hb ▸ .pure (C.terms.bool _))
  rw [C.terms.typeName h, C.terms.typeName h']
  cases e.kind with
  | type => exact C.report i (by rintro ⟨⟩) _
  | _ => exact .throw (C.failsWith e)

theorem callPlain (span : Option Span) (label : String) {c d : PlainCall Value}
    (h : Pairs P.value P.store c d) (hf : ∀ s x t, c s = .error (.passing x) t → P.fails x) :
    PairsWith P.fails P.value (P.states i) (callPlain span label c) (callPlain span label d) := by
  intro s t hs
  have hc := h _ _ (C.related hs).store
  unfold Eval.callPlain
  generalize hr : c s.store = r, d t.store = r' at hc
  cases hc with
  | ok hab hst => exact .ok hab (C.withStore hs hst)
  | @error x _ _ _ hst =>
    cases x with
    | reported e => exact C.report i (by rintro ⟨⟩) _ _ _ (C.withStore hs hst)
    | passing x => exact .error (hf _ _ _ hr) (C.withStore hs hst)

theorem callUnreported {c d : PlainCall Value} (h : Pairs P.value P.store c d)
    (hf : ∀ s x t, c s = .error (.passing x) t → P.fails x) :
    PairsWith P.fails P.value (P.states i) (callUnreported c) (callUnreported d) := by
  intro s t hs
  have hc := h _ _ (C.related hs).store
  unfold Eval.callUnreported
  generalize hr : c s.store = r, d t.store = r' at hc
  cases hc with
  | ok hab hst => exact .ok hab (C.withStore hs hst)
  | @error x _ _ _ hst =>
    refine .error ?_ (C.withStore hs hst)
    cases x with
    | reported e => exact C.faults e
    | passing x => exact hf _ _ _ hr

theorem callInvoked (span : Option Span) {f g : Value} (h : P.value f g) {vs ws : List Value}
    (ha : List.Forall₂ P.value vs ws) :
    PairsWith P.fails P.value (P.states i) (callInvoked host span f vs) (callInvoked host span g ws) := by
  refine .get fun s t hs => ?_
  have hdescription := (C.related hs).description
  refine (C.newList i ha s t hs).bind fun list list' hl => ?_
  have hplace : P.value (placeValue span) (placeValue span) := by
    cases span with
    | none => exact C.terms.null
    | some span => exact C.terms.text 0 span.text
  have hcall (name : String) : PairsWith P.fails P.value (P.states i)
      (Eval.callUnreported (host.plain name
        [.text 0 (s.context.description s.cache), placeValue span, list]))
      (Eval.callUnreported (host.plain name
        [.text 0 (t.context.description t.cache), placeValue span, list'])) := by
    rw [hdescription]
    exact C.callUnreported i
      (C.terms.plain name (.cons (C.terms.text 0 _) (.cons hplace (.cons hl .nil))))
      fun _ _ _ => C.failsToCall
  have hfail : PairsWith P.fails P.value (P.states i) (failWith (.notCallable f.typeName) : Eval Value)
      (failWith (.notCallable g.typeName)) := by
    rw [C.terms.typeName h]
    exact .throw (C.failsWith _)
  cases C.terms.form h with
  | function id f =>
    cases f with
    | plain name => exact hcall name
    | object name _ => exact hcall name
    | _ => exact hfail
  | _ => exact hfail

end Operations

/-! ## Includes -/

section Includes

variable (i : ι)

theorem includeName (span : Option Span) {v w : Value} (h : P.value v w) :
    PairsWith P.fails Eq (P.states i) (includeName span v) (includeName span w) := by
  unfold Eval.includeName
  rw [C.terms.typeName h]
  refine (C.compute i (fun e => C.report i (by rintro ⟨⟩) span) (C.display h)).bind fun text text' ht => ?_
  subst ht
  dsimp only
  split
  · exact C.report i (by rintro ⟨⟩) _
  · exact .pure rfl

theorem ask {question : Lookup α} (hq : ∀ l x l', question l = .error x l' → P.fails x) :
    PairsWith P.fails Eq (P.states i) (ask question) (ask question) := by
  intro s t hs
  unfold Eval.ask
  rw [(C.related hs).library]
  cases h : question s.library with
  | ok a library => exact .ok rfl (C.withLibrary hs library)
  | error x library => exact .error (hq _ _ _ h) (C.withLibrary hs library)

theorem includePath (span : Option Span) (loader : Loader) (name : String) :
    PairsWith P.fails Eq (P.states i) (includePath span loader name) (includePath span loader name) := by
  refine (C.ask i fun _ _ _ h => C.failsToAnswer (.inl h)).bind fun answer answer' ha => ?_
  subst ha
  split
  · split
    · exact C.report i (by rintro ⟨⟩) _
    · exact .pure rfl
  · exact C.report i (by rintro ⟨⟩) _

/-- The template at a path is the same, and is known. -/
theorem includedTemplate (span : Option Span) (loader : Loader) (name path : String) :
    PairsWith P.fails (fun a b => b = a ∧ P.known a) (P.states i) (includedTemplate span loader name path)
      (includedTemplate span loader name path) := by
  have hread : PairsWith P.fails (fun a b => b = a ∧ P.known a) (P.states i)
      (readIncluded span loader name path) (readIncluded span loader name path) := by
    refine (C.ask i fun _ _ _ h => C.failsToAnswer (.inr h)).bind fun answer answer' ha => ?_
    subst ha
    cases answer with
    | none => exact C.report i (by rintro ⟨⟩) _
    | some text =>
      intro s t hs
      have hr := C.related hs
      simp only [bind_run, context_run, hr.options]
      cases hp : Template.parse (includeOptions s.context.options) (some path) text with
      | error e => exact .error (C.failsWith e) hs
      | ok template =>
        cases he : template.hasErrors with
        | true =>
          simp only [he, if_true]
          exact C.report i (by rintro ⟨⟩) _ s t hs
        | false =>
          simp only [he, Bool.false_eq_true, if_false]
          have hk := C.keeping hs hp he
          have hn := C.terms.nextNumber hr.store
          have hload : (template.load t.store).1 = (template.load s.store).1 := by
            simp only [Template.load, hn]
          show Paired _ _ _ (.ok _ _) (.ok _ _)
          refine .ok ⟨?_, C.kept hk (TemplateCache.addIfAbsent_fst s.cache path _)⟩ hk
          rw [hload, hr.cache]
  intro s t hs
  have hr := C.related hs
  simp only [Eval.includedTemplate, bind_run, get_run, hr.cache]
  cases hc : s.cache.get? path with
  | some kept => exact .ok ⟨rfl, C.kept hs hc⟩ hs
  | none => exact hread s t hs

theorem enterPending (span : Option Span) (name : String) :
    PairsWith P.fails (fun _ _ => True) (P.states i) (enterPending span name) (enterPending span name) := by
  intro s t hs
  have hp := (C.related hs).pending
  by_cases h : name ∈ s.context.pending.getD []
  · have h' : name ∈ t.context.pending.getD [] := by rwa [hp]
    rw [enterPending_run_pending h, enterPending_run_pending h', (C.related hs).locate,
      Context.pendingNames, Context.pendingNames, hp]
    exact .error (C.failsAtOnce _ (by rintro ⟨⟩)) (C.withPending hs _)
  · have h' : name ∉ t.context.pending.getD [] := by rwa [hp]
    rw [enterPending_run h, enterPending_run h', hp]
    exact .ok trivial (C.withPending hs _)

theorem leavePending (name : String) :
    PairsWith P.fails (fun _ _ => True) (P.states i) (leavePending name) (leavePending name) := by
  intro s t hs
  have hp := (C.related hs).pending
  rw [Eval.leavePending, changeContext_run, changeContext_run, hp]
  exact .ok trivial (C.withPending hs _)

end Includes

/-- What is captured: the same text, of a related value if it is of one alone. -/
theorem capture {e : Eval Unit} {E : Traced Unit} (h : P.Couples (fun _ _ => True) e E)
    (name : String) :
    P.Couples (fun a b => b.text = a.text ∧ Option.Rel P.value a.sole b.sole)
      (capture e (Eval.leavePending name)) (Traced.capture E (Eval.leavePending name)) := by
  intro i s t hs
  obtain ⟨j, hj, hpop, hescapes⟩ := C.sink hs
  have hbody : P.Outcome j (fun _ _ => True) ((do pushSink; e : Eval Unit) s)
      ((do pushSink; E : Traced Unit) t) := h j _ _ hj
  rw [capture_run]
  show P.Outcome i _ _ (finishCapture _ ((do pushSink; E : Traced Unit) t).1, _)
  generalize (do pushSink; e : Eval Unit) s = r, (do pushSink; E : Traced Unit) t = r' at hbody
  cases hbody with
  | escaped hquiet hminds he => exact .escaped hquiet hminds (hescapes _ name _ he)
  | together hquiet hpaired =>
    refine .together hquiet ?_
    cases hpaired with
    | ok _ hs' =>
      exact (hpop _ _ hs').bind fun a b hab => (C.leavePending i name).bind fun _ _ _ => .pure hab
    | error hx hs' =>
      have hclose := (hpop _ _ hs').bind fun _ _ _ => C.leavePending i name
      simp only [finishCapture]
      revert hclose
      generalize (popSink >>= fun _ => Eval.leavePending name) _ = c,
        (popSink >>= fun _ => Eval.leavePending name) _ = c'
      intro hclose
      cases hclose with
      | ok _ hs => exact .error hx hs
      | error hy hs => exact .error hy hs

theorem withArguments {e : Eval α} {E : Traced β} (h : P.Couples Q e E) (span : Option Span)
    {vs ws : List Value} (ha : List.Forall₂ P.value vs ws) :
    P.Couples Q (withArguments span vs e) (Traced.withArguments span ws E) := by
  intro i s t hs
  have hscopes := (C.related hs).scopes
  unfold Eval.withArguments Traced.withArguments
  cases hsc : s.context.scopes with
  | nil =>
    rw [hsc, List.forall₂_nil_left_iff] at hscopes
    rw [bind_of_error (currentScope_run_nil hsc)]
    rw [Traced.lift_bind_of_error (currentScope_run_nil hscopes)]
    exact .together (fun _ h => nomatch h) (.error (C.failsAtOnce _ (by rintro ⟨⟩)) hs)
  | cons scope below =>
    obtain ⟨scope', below', -, -, htc⟩ := List.forall₂_cons_left_iff.mp (hsc ▸ hscopes)
    have hlist := C.newList i ha s t hs
    rw [newList_run, newList_run] at hlist
    cases hlist with
    | ok hl hs' =>
      rw [bind_of_ok (currentScope_run hsc), bind_of_ok (newList_run vs s),
        bind_of_ok (assign_run (s := { s with store := (s.store.newList vs).2 }) hsc argumentsName _ span)]
      rw [Traced.lift_bind_of_ok (currentScope_run htc), Traced.lift_bind_of_ok (newList_run ws t),
        Traced.lift_bind_of_ok
          (assign_run (s := { t with store := (t.store.newList ws).2 }) htc argumentsName _ span)]
      exact ensuring_at (C.arguments hs' hl hsc htc) h

/-- What an include renders is put down, and only goes on if the coupling does not mind it. -/
theorem noted {t : Template} (hk : P.known t) {Q : Sink → Sink → Prop} {e : Eval Sink} {E : Traced Sink}
    (h : P.Fits t → P.Couples Q e E) : P.Couples Q e (do Traced.note (.including t); E) := by
  intro i s u hs
  show P.Outcome i Q (e s) ((E u).1, [.including t] ++ (E u).2)
  by_cases hm : P.minds (.including t)
  · exact .at_once hm (C.escapesIncluding _ hm)
  · exact .cons hm (h (C.including hk hm) i s u hs)

/-- An include, for ways to render that go together on every template that an include may come
upon. -/
theorem includeTemplate {render : Template → Eval Unit} {Render : Template → Traced Unit}
    (hr : ∀ t, P.Fits t → P.Couples (fun _ _ => True) (render t) (Render t)) (span : Option Span)
    {vs ws : List Value} (ha : List.Forall₂ P.value vs ws) :
    P.Couples (fun a b => b.text = a.text ∧ Option.Rel P.value a.sole b.sole)
      (includeTemplate render span vs) (Traced.includeTemplate Render span ws) := by
  intro i s t hs
  unfold Eval.includeTemplate Traced.includeTemplate
  rw [bind_of_ok (context_run s)]
  rw [Traced.lift_bind_of_ok (context_run t), (C.related hs).locate]
  generalize s.context.locate span = place
  cases ha with
  | nil => exact .lift (C.report i (by rintro ⟨⟩) _ s t hs)
  | @cons v w vs ws hvw ha =>
    refine C.bind_at (.lift (C.includeName i place hvw s t hs)) fun name name' s' t' hname hs' => ?_
    subst hname
    rw [bind_of_ok (context_run s')]
    rw [Traced.lift_bind_of_ok (context_run t'), (C.related hs').loader]
    cases s'.context.loader with
    | none => exact .lift (C.report i (by rintro ⟨⟩) _ s' t' hs')
    | some loader =>
      refine C.bind_at (.lift (C.includePath i place loader name s' t' hs')) fun path path' s t hp hs => ?_
      subst hp
      refine C.withArguments ?_ place ha i s t hs
      refine C.bind (.lift fun i => C.includedTemplate i place loader name path)
        fun template template' ht => ?_
      obtain ⟨rfl, hknown⟩ := ht
      refine C.bind (.lift fun i => C.enterPending i place name) fun _ _ _ => ?_
      exact C.noted hknown fun hfits => C.capture (hr template' hfits) name

/-! ## Nodes -/

/-- The meaning of a name: related values, or a name that means nothing. -/
theorem lookUp (name : String) (span : Option Span) :
    P.Couples P.value (Eval.lookUp name span) (Traced.lookUp name span) := by
  intro i s t hs
  have hlook := (C.related hs).lookUp name
  cases hv : s.context.lookUp name with
  | none =>
    rw [hv] at hlook
    cases hw : t.context.lookUp name with
    | none => exact C.unknown hs name span hv hw
    | some w =>
      rw [hw] at hlook
      cases hlook
  | some v =>
    rw [hv] at hlook
    cases hw : t.context.lookUp name with
    | none =>
      rw [hw] at hlook
      cases hlook
    | some w =>
      rw [hw] at hlook
      cases hlook with
      | some hvw =>
        unfold Eval.lookUp Traced.lookUp
        rw [bind_of_ok (context_run s)]
        rw [Traced.lift_bind_of_ok (context_run t), hv, hw]
        exact .lift (.ok hvw hs)

theorem writeResult (span : Option Span) {v w : Value} (h : P.value v w) :
    P.Couples (fun _ _ => True) (writeResult span v) (Traced.writeResult span w) := by
  cases C.terms.form h with
  | null => exact .pure trivial
  | _ => exact C.writes span h

section Nodes

variable {run : Runner} {node : Node → Traced Value} {render : Template → Traced Unit}
  (hn : ∀ n, P.fits n → P.Couples P.value (run.node n) (node n))
  (hr : ∀ t, P.Fits t → P.Couples (fun _ _ => True) (run.render t) (render t))

omit C in
/-- Computations on values as calls. -/
theorem plainCall_computed {c : Computation α} {d : Computation β} (h : Pairs Q P.store c d) :
    Pairs Q P.store (PlainCall.computed c) (PlainCall.computed d) := by
  intro s t hs
  have hc := h s t hs
  unfold PlainCall.computed
  generalize c s = r, d t = r' at hc
  cases hc with
  | ok hab hs => exact .ok hab hs
  | error _ hs => exact .error trivial hs

theorem failsWith_of_computed {c : Computation α} {s t : Store} {x : Failure}
    (h : PlainCall.computed c s = .error (.passing x) t) : P.fails x := by
  unfold PlainCall.computed at h
  cases hc : c s with
  | ok a u =>
    rw [hc] at h
    cases h
  | error e u =>
    rw [hc] at h
    have hx : CallFailure.ofFault e = .passing x := (EStateM.Result.error.inj h).1
    unfold CallFailure.ofFault at hx
    split at hx
    · cases hx
    · cases hx
      exact C.failsWith e

include hr in
theorem call (span : Option Span) {v w : Value} (h : P.value v w) {vs ws : List Value}
    (ha : List.Forall₂ P.value vs ws) :
    P.Couples P.value (call host run.render span v vs) (Traced.call host render span w ws) := by
  have hreport : P.Couples P.value (Eval.report (.notAFunction v.typeName) span : Eval Value)
      (Traced.lift (Eval.report (.notAFunction w.typeName) span)) := by
    rw [C.terms.typeName h]
    exact .lift fun i => C.report i (by rintro ⟨⟩) span
  cases C.terms.form h with
  | function id f =>
    cases f with
    | «include» =>
      exact C.bind (C.includeTemplate hr span ha) fun sink sink' hsink =>
        .lift fun i => C.computed i (C.terms.sole hsink.1 hsink.2)
    | contextual name => exact .lift fun i => C.contextual i name span ha
    | _ => exact .lift fun i => C.callPlain i span _ (C.terms.plain _ ha) fun _ _ _ => C.failsToCall
  | method m hm =>
    exact .lift fun i => C.callPlain i span _ (plainCall_computed (C.terms.method m hm ha))
      fun _ _ _ h => C.failsWith_of_computed h
  | @object i j type type' as bs ho =>
    unfold Eval.call Traced.call Eval.call
    dsimp only
    generalize (Value.object i type as).invocation? = o, (Value.object j type' bs).invocation? = o'
      at ho ⊢
    cases ho with
    | none => exact hreport
    | some ho => exact .lift fun i => C.callInvoked i span ho ha
  | @record i j type type' as bs ho =>
    unfold Eval.call Traced.call Eval.call
    dsimp only
    generalize (Value.record i type as).invocation? = o, (Value.record j type' bs).invocation? = o'
      at ho ⊢
    cases ho with
    | none => exact hreport
    | some ho => exact .lift fun i => C.callInvoked i span ho ha
  | _ => exact hreport

include hn

theorem nodes {ns : List Node} (h : ∀ n ∈ ns, P.fits n) :
    P.Couples (List.Forall₂ P.value) (ns.mapM run.node) (Traced.nodes node ns) := by
  induction ns with
  | nil => exact .pure .nil
  | cons n rest ih =>
    rw [List.mapM_cons]
    refine C.bind (hn n (h n List.mem_cons_self)) fun v w hv => ?_
    exact C.bind (ih fun m hm => h m (List.mem_cons_of_mem n hm)) fun vs ws hvs =>
      .pure (.cons hv hvs)

include hr in
theorem callNode (span : Span) {callee : Node} {arguments : List Node} (hc : P.fits callee)
    (ha : ∀ n ∈ arguments, P.fits n) :
    P.Couples P.value (callNode host run span callee arguments)
      (Traced.callNode host node render span callee arguments) := by
  refine C.bind (hn callee hc) fun f g hf => ?_
  have hcall : P.Couples P.value
      (do
        let values ← arguments.mapM run.node
        Eval.call host run.render (some span) f values)
      (do
        let values ← Traced.nodes node arguments
        Traced.call host render (some span) g values) :=
    C.bind (C.nodes hn ha) fun vs ws hvs => C.call hr (some span) hf hvs
  cases C.terms.form hf with
  | null =>
    cases callee with
    | name _ _ => exact .lift fun i => C.report i (by rintro ⟨⟩) _
    | _ => exact hcall
  | _ => exact hcall

theorem logic (op : Connective) {left right : Node} (hl : P.fits left) (hright : P.fits right) :
    P.Couples P.value (logic run op left right) (Traced.logic node op left right) := by
  have htruth {v w : Value} (h : P.value v w) :
      P.Couples Eq (Eval.truthy v) (Traced.lift (Eval.truthy w)) := .lift fun i => C.truthy i h
  have hsecond : P.Couples P.value (do return Value.bool (← Eval.truthy (← run.node right)))
      (do return Value.bool (← Traced.lift (Eval.truthy (← node right)))) :=
    C.bind (hn right hright) fun v w hv => C.bind (htruth hv) fun _ _ hb =>
      hb ▸ .pure (C.terms.bool _)
  refine C.bind (hn left hl) fun v w hv => C.bind (htruth hv) fun b b' hb => ?_
  subst hb
  cases op <;> cases b
  · exact .pure (C.terms.bool _)
  · exact hsecond
  · exact hsecond
  · exact .pure (C.terms.bool _)

theorem statements {ns : List Node} (h : ∀ n ∈ ns, P.fits n) :
    P.Couples P.value (statements run ns) (Traced.statements node ns) := by
  induction ns with
  | nil => exact .pure C.terms.null
  | cons n rest ih =>
    have hrest := ih fun m hm => h m (List.mem_cons_of_mem n hm)
    cases rest with
    | nil => exact hn n (h n List.mem_cons_self)
    | cons next rest =>
      exact C.bind (hn n (h n List.mem_cons_self)) fun v w hv =>
        C.bind (C.writeResult n.span? hv) fun _ _ _ => hrest

theorem turn (span : Span) {target : String} (hb : P.binds target) {body : Node} (h : P.fits body)
    {v w : Value} (hv : P.value v w) :
    P.Couples (fun _ _ => True) (turn run span target body v) (Traced.turn node span target body w) :=
  C.bind (.lift fun i => C.assign i hb hv (some span)) fun _ _ _ =>
    C.bind (hn body h) fun _ _ hv => C.writeResult body.span? hv

theorem loopList (span : Span) {target : String} (hb : P.binds target) {body : Node} (h : P.fits body)
    {id id' : ListId} (hid : P.value (.list id) (.list id')) (fuel index : Nat) :
    P.Couples (fun _ _ => True) (loopList run span target body id fuel index)
      (Traced.loopList node span target body id' fuel index) := by
  induction fuel generalizing index with
  | zero => exact .throw C.exhausts
  | succ fuel ih =>
    intro i s t hs
    unfold Eval.loopList Traced.loopList
    rw [bind_of_ok (get_run s)]
    rw [Traced.lift_bind_of_ok (get_run t), Store.item?_eq, Store.item?_eq]
    have hitem := getElem?_rel (C.terms.contents (C.related hs).store hid) index
    generalize (s.store.contents id)[index]? = a, (t.store.contents id')[index]? = b at hitem
    cases hitem with
    | none => exact .lift (.ok trivial hs)
    | some hv => exact C.bind (C.turn hn span hb h hv) (fun _ _ _ => ih (index + 1)) i s t hs

theorem loop (fuel : Nat) (span : Span) {target : String} (hb : P.binds target) {source body : Node}
    (hsource : P.fits source) (h : P.fits body) :
    P.Couples P.value (loop run fuel span target source body)
      (Traced.loop node fuel span target source body) := by
  refine C.bind (hn source hsource) fun v w hv => ?_
  have hreport : P.Couples P.value
      (Eval.report (.cannotIterate v.typeName) source.span? : Eval Value)
      (Traced.lift (Eval.report (.cannotIterate w.typeName) source.span?)) := by
    rw [C.terms.typeName hv]
    exact .lift fun i => C.report i (by rintro ⟨⟩) _
  have hitems {items items' : List Value} (hi : List.Forall₂ P.value items items') :
      P.Couples P.value
        (do items.forM (Eval.turn run span target body); return .null)
        (do items'.forM (Traced.turn node span target body); return .null) := by
    refine C.bind (Q := fun _ _ => True) ?_ fun _ _ _ => .pure C.terms.null
    induction hi with
    | nil => exact .pure trivial
    | cons hv _ ih => exact C.bind (C.turn hn span hb h hv) fun _ _ _ => ih
  cases C.terms.form hv with
  | null => exact .pure C.terms.null
  | list hid =>
    exact C.bind (C.loopList hn span hb h hid fuel 0) fun _ _ _ => .pure C.terms.null
  | _ =>
    refine C.bind (.lift fun i => C.computed i (C.terms.elements? hv)) fun _ _ hi => ?_
    cases hi with
    | none => exact hreport
    | some hi => exact hitems hi

include hr

/-- Steps on one node go together, if what runs below it does. -/
theorem step (fuel : Nat) {n : Node} (h : P.fits n) :
    P.Couples P.value (step host run fuel n) (Traced.step host node render fuel n) := by
  have hchild {m : Node} (hm : m ∈ n.children) : P.Couples P.value (run.node m) (node m) :=
    hn m (C.child h hm)
  have htruth {v w : Value} (h : P.value v w) :
      P.Couples Eq (Eval.truthy v) (Traced.lift (Eval.truthy w)) := .lift fun i => C.truthy i h
  cases n with
  | absent => exact .pure C.terms.null
  | page _ body _ => exact hchild (.head _)
  | block _ body => exact C.statements hn fun m hm => C.child h hm
  | text _ value id => exact .pure (C.terms.text id value)
  | expression _ value => exact hchild (.head _)
  | assign span target value =>
    exact C.bind (hchild (.head _)) fun v w hv =>
      C.bind (.lift fun i => C.assign i (C.target h rfl) hv (some span)) fun _ _ _ => .pure C.terms.null
  | branch _ test body otherwise =>
    refine C.bind (hchild (.head _)) fun v w hv => C.bind (htruth hv) fun b b' hb => ?_
    subst hb
    cases b
    · exact hchild (.tail _ (.tail _ (.head _)))
    · exact hchild (.tail _ (.head _))
  | loop span target source body =>
    exact C.loop hn fuel span (C.target h rfl) (C.child h (.head _)) (C.child h (.tail _ (.head _)))
  | const _ value => exact .pure (C.constant h (.head _))
  | name span name =>
    show P.Couples P.value
      (if name = argumentsName then do return ((← context).arguments?).getD .null
        else Eval.lookUp name (some span))
      (if name = argumentsName then do return ((← Eval.context).arguments?).getD .null
        else Traced.lookUp name (some span))
    split
    · intro i s t hs
      rw [bind_of_ok (context_run s)]
      rw [Traced.lift_bind_of_ok (context_run t)]
      have harguments : Option.Rel P.value s.context.arguments? t.context.arguments? :=
        lookUpScopes_rel (C.related hs).scopes argumentsName
      generalize s.context.arguments? = a, t.context.arguments? = b at harguments
      cases harguments with
      | none => exact .lift (.ok C.terms.null hs)
      | some hv => exact .lift (.ok hv hs)
    · exact C.lookUp name (some span)
  | argument _ index => exact .lift fun i => C.argument i index
  | argumentAt _ index => exact .lift fun i => C.argumentAt i (C.constant h (.head _))
  | list _ items =>
    exact C.bind (C.nodes hn fun m hm => C.child h hm) fun vs ws hvs =>
      .lift fun i => C.newList i hvs
  | member _ object name =>
    exact C.bind (hchild (.head _)) fun v w hv => .lift fun i => C.computed i (C.terms.member name hv)
  | item span object key =>
    exact C.bind (hchild (.head _)) fun v w hv => C.bind (hchild (.tail _ (.head _))) fun k l hk =>
      .lift fun i => C.item i span hv hk
  | call span callee arguments =>
    exact C.callNode hn hr span (C.child h (.head _)) fun m hm => C.child h (.tail _ hm)
  | unary span op operand =>
    refine C.bind (hchild (.head _)) fun v w hv => ?_
    cases op with
    | not => exact C.bind (htruth hv) fun _ _ hb => hb ▸ .pure (C.terms.bool _)
    | negate => exact .lift fun i => C.negate i span hv
  | arithmetic span op left right =>
    exact C.bind (hchild (.head _)) fun l l' hl => C.bind (hchild (.tail _ (.head _))) fun r r' hr =>
      .lift fun i => C.arithmetic i span op hl hr
  | compare span op left right =>
    exact C.bind (hchild (.head _)) fun l l' hl => C.bind (hchild (.tail _ (.head _))) fun r r' hr =>
      .lift fun i => C.comparison i span op hl hr
  | logic _ op left right => exact C.logic hn op (C.child h (.head _)) (C.child h (.tail _ (.head _)))
  | custom span writes value =>
    exact C.bind (C.writes (some span) (C.constant h (.head _))) fun _ _ _ =>
      .pure (C.constant h (.tail _ (.head _)))
  | foreign span typeName => exact .throw (C.failsWith _)
  | unknownOperator _ symbol left right =>
    exact C.bind (hchild (.head _)) fun _ _ _ => C.bind (hchild (.tail _ (.head _))) fun _ _ _ =>
      .throw (C.failsWith _)

end Nodes

/-! ## Templates -/

theorem checkErrors (t : Template) : P.Couples (fun _ _ => t.hasErrors = false) (Eval.checkErrors t)
    (Traced.lift (Eval.checkErrors t)) := by
  unfold Eval.checkErrors
  split
  · exact .throw (C.failsAtOnce _ (by rintro ⟨⟩))
  · next h => exact .pure (Bool.eq_false_iff.mpr h)

/-- What runs in a file. -/
theorem within {e : Eval α} {E : Traced β} (h : P.Couples Q e E) (path : Option String) :
    P.Couples Q (within path e) (Traced.within path E) := by
  cases path with
  | none => exact h
  | some path => exact fun i s t hs => ensuring_at (C.file hs path) h

section Templates

variable {node : Node → Eval Value} {traced : Node → Traced Value}
  (hn : ∀ n, P.fits n → P.Couples P.value (node n) (traced n)) {t : Template}

include hn

theorem runPage (ht : ∀ page, t.page = some page → P.fits page.node) :
    P.Couples P.value (runPage node t) (Traced.runPage traced t) := by
  unfold Eval.runPage Traced.runPage
  cases hp : t.page with
  | none => exact .pure C.terms.null
  | some page => exact C.within (hn page.node (ht page hp)) t.path

theorem renderWith (ht : P.Fits t) :
    P.Couples (fun _ _ => True) (renderWith node t) (Traced.renderWith traced t) := by
  refine C.bind (C.checkErrors t) fun _ _ he => C.bind (C.runPage hn (ht he)) fun v w hv => ?_
  unfold Eval.writePage Traced.writePage
  cases t.page with
  | none => exact .pure trivial
  | some page => exact C.writeResult (some page.span) hv

end Templates

/-- Evaluations of one node go together, by induction on the steps. -/
theorem evaluate (fuel : Nat) {n : Node} (h : P.fits n) :
    P.Couples P.value (evaluate host fuel n) (Traced.evaluate host fuel n) := by
  induction fuel generalizing n with
  | zero => exact .throw C.exhausts
  | succ fuel ih =>
    exact C.step (fun _ hm => ih hm) (fun _ ht => C.renderWith (fun _ hm => ih hm) ht) fuel h

/-- Renderings of one template go together. -/
theorem render (fuel : Nat) {t : Template} (ht : P.Fits t) :
    P.Couples (fun _ _ => True) (render host fuel t)
      (Traced.renderWith (Traced.evaluate host fuel) t) :=
  C.renderWith (fun _ h => C.evaluate fuel h) ht

omit C in
/-- Evaluations with output turned off go together, if turning it off can be undone. -/
theorem silently (hoff : ∀ i s t, P.states i s t → P.Brackets i (s.enabling false) (t.enabling false)
      (changeContext fun c => { c with outputEnabled := s.context.outputEnabled })
      (changeContext fun c => { c with outputEnabled := t.context.outputEnabled }))
    {e : Eval α} {E : Traced β} (h : P.Couples Q e E) :
    P.Couples Q (silently e) (Traced.silently E) :=
  fun i s t hs => ensuring_at (hoff i s t hs) h

/-- Runs of one template go together. -/
theorem run (hoff : ∀ i s t, P.states i s t → P.Brackets i (s.enabling false) (t.enabling false)
      (changeContext fun c => { c with outputEnabled := s.context.outputEnabled })
      (changeContext fun c => { c with outputEnabled := t.context.outputEnabled }))
    (fuel : Nat) {t : Template} (ht : P.Fits t) (way : TemplateRun) :
    P.Couples P.value (way.run host fuel t) (Traced.run way host fuel t) := by
  have hn (n : Node) (h : P.fits n) := C.evaluate fuel h
  cases way with
  | render => exact C.bind (C.render fuel ht) fun _ _ _ => .pure C.terms.null
  | evaluate =>
    exact C.bind (C.checkErrors t) fun _ _ he => silently hoff (C.runPage hn (ht he))
  | frontMatter =>
    refine C.bind (C.checkErrors t) fun _ _ he => ?_
    cases hf : t.frontMatter? with
    | none => exact .pure C.terms.null
    | some front =>
      obtain ⟨page, hp, hfront⟩ := Template.frontMatter?_child hf
      exact silently hoff (C.within (hn front (C.child (ht he page hp) hfront)) t.path)

end Coupling

end Stencil

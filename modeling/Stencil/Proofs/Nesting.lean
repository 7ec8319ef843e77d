import Mathlib.Order.Basic
import Stencil.Proofs.Soundness

/-!
# Ranges inside of ranges

A node holds other nodes, in the order in which they stand in the source (`Node.inOrder`). A tree
nests in a file if every range in it belongs to the file and does not end before it starts, and the
ranges of what a node holds lie inside of its own, one behind the other (`Node.Nests`). Such trees
are put together from rows of nodes that lie between two places (`Row`): rows are joined where one
ends in front of the other, and a node around a row is a row by itself (`Row.around`).
-/

namespace Stencil

/-! ## Places in order -/

namespace Position

instance : LE Position := ⟨fun p q => q.before p = false⟩

theorem le_iff {p q : Position} :
    p ≤ q ↔ p.line < q.line ∨ p.line = q.line ∧ p.column ≤ q.column := by
  show q.before p = false ↔ _
  rw [before, Bool.or_eq_false_iff, decide_eq_false_iff_not, Bool.and_eq_false_iff,
    beq_eq_false_iff_ne, decide_eq_false_iff_not]
  omega

instance : Preorder Position where
  le_refl p := le_iff.mpr (.inr ⟨rfl, Int.le_refl _⟩)
  le_trans p q r hpq hqr := by
    rw [le_iff] at hpq hqr ⊢
    omega

end Position

/-! ## Nested trees -/

/-- What a node holds, in the order of the source: front matter stands in front. -/
def Node.inOrder : Node → List Node
  | .page _ body frontMatter => [frontMatter, body]
  | n => n.children

/-- The ranges of nodes. One left out has none. -/
def spansOf (nodes : List Node) : List Span := nodes.filterMap Node.span?

theorem spansOf_append (ms ns : List Node) : spansOf (ms ++ ns) = spansOf ms ++ spansOf ns :=
  List.filterMap_append

/-- The ranges of a tree belong to a file and nest: none ends before it starts, what a node holds
lies inside of the node, and one child stops before the next one starts. -/
inductive Node.Nests (file : Option String) : Node → Prop
  | absent : Node.Nests file .absent
  | node {n : Node} {span : Span} : n.span? = some span → span.file = file →
      span.start ≤ span.stop →
      (∀ s ∈ spansOf n.inOrder, span.start ≤ s.start ∧ s.stop ≤ span.stop) →
      (spansOf n.inOrder).Pairwise (fun s t => s.stop ≤ t.start) →
      (∀ child ∈ n.inOrder, child.Nests file) →
      n.Nests file

theorem Node.Nests.le {file : Option String} {n : Node} (h : n.Nests file) {span : Span}
    (hs : n.span? = some span) : span.start ≤ span.stop := by
  cases h with
  | absent => cases hs
  | node hspan _ hle =>
    rw [hspan] at hs
    cases hs
    exact hle

/-! ## Rows -/

/-- Ranges that lie between two places, one behind the other. -/
def Spaced (p q : Position) : List Span → Prop
  | [] => True
  | s :: ss => p ≤ s.start ∧ s.start ≤ s.stop ∧ s.stop ≤ q ∧ Spaced s.stop q ss

namespace Spaced

variable {p p' q q' r : Position} {ss ts : List Span}

theorem mono (h : Spaced p q ss) (hp : p' ≤ p) (hq : q ≤ q') : Spaced p' q' ss := by
  induction ss generalizing p p' with
  | nil => trivial
  | cons s ss ih =>
    obtain ⟨hstart, hle, hstop, hrest⟩ := h
    exact ⟨hp.trans hstart, hle, hstop.trans hq, ih hrest (le_refl _)⟩

/-- What lies behind goes behind. -/
theorem append (hs : Spaced p q ss) (ht : Spaced q' r ts) (hq : q ≤ q') (hp : p ≤ q') (hr : q ≤ r) :
    Spaced p r (ss ++ ts) := by
  induction ss generalizing p with
  | nil => exact ht.mono hp (le_refl _)
  | cons s ss ih =>
    obtain ⟨hstart, hle, hstop, hrest⟩ := hs
    exact ⟨hstart, hle, hstop.trans hr, ih hrest (hstop.trans hq)⟩

theorem inside (h : Spaced p q ss) : ∀ s ∈ ss, p ≤ s.start ∧ s.stop ≤ q := by
  induction ss generalizing p with
  | nil => nofun
  | cons s ss ih =>
    obtain ⟨hstart, hle, hstop, hrest⟩ := h
    intro t ht
    obtain rfl | ht := List.mem_cons.mp ht
    · exact ⟨hstart, hstop⟩
    · obtain ⟨hafter, hend⟩ := ih hrest t ht
      exact ⟨hstart.trans (hle.trans hafter), hend⟩

theorem pairwise (h : Spaced p q ss) : ss.Pairwise fun s t => s.stop ≤ t.start := by
  induction ss generalizing p with
  | nil => exact .nil
  | cons s ss ih =>
    obtain ⟨-, -, -, hrest⟩ := h
    exact .cons (fun t ht => (hrest.inside t ht).1) (ih hrest)

end Spaced

/-- Nested trees that lie between two places, one behind the other. -/
structure Row (file : Option String) (p q : Position) (nodes : List Node) : Prop where
  nests : ∀ n ∈ nodes, n.Nests file
  spaced : Spaced p q (spansOf nodes)

namespace Row

variable {file : Option String} {p p' q q' r : Position} {nodes ms : List Node}

theorem nil : Row file p q [] := ⟨nofun, trivial⟩

theorem mono (h : Row file p q nodes) (hp : p' ≤ p) (hq : q ≤ q') : Row file p' q' nodes :=
  ⟨h.nests, h.spaced.mono hp hq⟩

theorem append (h : Row file p q nodes) (h' : Row file q' r ms) (hq : q ≤ q') (hp : p ≤ q')
    (hr : q ≤ r) : Row file p r (nodes ++ ms) := by
  refine ⟨fun n hn => (List.mem_append.mp hn).elim (h.nests n) (h'.nests n), ?_⟩
  rw [spansOf_append]
  exact h.spaced.append h'.spaced hq hp hr

/-- A node left out in front. -/
theorem absent_cons (h : Row file p q nodes) : Row file p q (.absent :: nodes) :=
  ⟨fun n hn => (List.mem_cons.mp hn).elim (fun he => he ▸ .absent) (h.nests n), h.spaced⟩

/-- A tree by itself. -/
theorem one {n : Node} (h : n.Nests file)
    (hn : ∀ span, n.span? = some span → p ≤ span.start ∧ span.stop ≤ q) : Row file p q [n] := by
  refine ⟨fun m hm => List.mem_singleton.mp hm ▸ h, ?_⟩
  cases hs : n.span? with
  | none =>
    rw [spansOf, List.filterMap_cons_none hs]
    trivial
  | some span =>
    rw [spansOf, List.filterMap_cons_some hs]
    exact ⟨(hn span hs).1, h.le hs, (hn span hs).2, trivial⟩

/-- A node around a row. -/
theorem nests_around {n : Node} (span : Span) (hs : n.span? = some span) (hfile : span.file = file)
    (hle : span.start ≤ span.stop) (h : Row file span.start span.stop n.inOrder) : n.Nests file :=
  .node hs hfile hle h.spaced.inside h.spaced.pairwise h.nests

/-- A node around a row is a row by itself. -/
theorem around {n : Node} (hs : n.span? = some ⟨file, p, q⟩) (hle : p ≤ q)
    (h : Row file p q n.inOrder) : Row file p q [n] :=
  one (nests_around _ hs rfl hle h) fun span hspan => by
    obtain rfl : ⟨file, p, q⟩ = span := Option.some.inj (hs.symm.trans hspan)
    exact ⟨le_refl _, le_refl _⟩

end Row

namespace Grammar

/-! ## Places of cursors -/

/-- Tokens that do not end before they start and lie one behind the other. -/
def Ordered (tokens : List Token) : Prop :=
  (∀ t ∈ tokens, t.start ≤ t.stop) ∧ tokens.Pairwise fun t u => t.stop ≤ u.start

namespace Cursor

/-- Where the token ahead starts. -/
def here (c : Cursor) : Position := c.current.start

/-- Where the token read last stops. -/
def there (c : Cursor) : Position :=
  match c.last with
  | some t => t.stop
  | none => c.here

/-- A token was read that does not start before a place. -/
def Since (p : Position) (c : Cursor) : Prop := ∃ t, c.last = some t ∧ p ≤ t.start

/-- The end is ahead, and the tokens are in order. -/
structure Placed (c : Cursor) : Prop where
  ended : c.Ended
  ordered : Ordered (c.last.toList ++ c.rest)

/-- From one cursor one comes to the other: either nothing was read, or something that was ahead. -/
structure Goes (c d : Cursor) : Prop where
  placed : d.Placed
  here : c.here ≤ d.here
  there : c.there ≤ d.there
  reads : d.last = c.last ∧ d.rest = c.rest ∨ d.Since c.here

variable {c d e : Cursor}

namespace Placed

variable (h : c.Placed)

include h

theorem mem_current : c.current ∈ c.rest := by
  obtain ⟨us, hr⟩ := List.head?_eq_some_iff.mp h.ended.head
  rw [hr]
  exact List.mem_cons_self

theorem here_le_stop : c.here ≤ c.current.stop :=
  h.ordered.1 _ (List.mem_append_right _ h.mem_current)

theorem there_le_here : c.there ≤ c.here := by
  unfold there
  cases hl : c.last with
  | none => exact le_refl _
  | some t =>
    have hpairs := h.ordered.2
    rw [hl] at hpairs
    exact (List.pairwise_append.mp hpairs).2.2 t (List.mem_singleton.mpr rfl) _ h.mem_current

theorem there_le_stop : c.there ≤ c.current.stop := h.there_le_here.trans h.here_le_stop

theorem le_there {p : Position} (hs : c.Since p) : p ≤ c.there := by
  obtain ⟨t, hl, hp⟩ := hs
  have hle : t.start ≤ t.stop :=
    h.ordered.1 t (List.mem_append_left _ (by rw [hl]; exact List.mem_singleton.mpr rfl))
  rw [there, hl]
  exact hp.trans hle

theorem goes_refl : c.Goes c := ⟨h, le_refl _, le_refl _, .inl ⟨rfl, rfl⟩⟩

end Placed

theorem Since.mono {p q : Position} (h : c.Since p) (hq : q ≤ p) : c.Since q :=
  h.imp fun _ ht => ⟨ht.1, hq.trans ht.2⟩

/-- What was read stays read. -/
theorem Since.goes {p : Position} (h : c.Since p) (hp : p ≤ c.here) (hd : c.Goes d) : d.Since p := by
  obtain ⟨hl, -⟩ | hs := hd.reads
  · exact h.imp fun _ ht => ⟨hl.trans ht.1, ht.2⟩
  · exact hs.mono hp

theorem Goes.trans (h : c.Goes d) (h' : d.Goes e) : c.Goes e := by
  refine ⟨h'.placed, h.here.trans h'.here, h.there.trans h'.there, ?_⟩
  obtain ⟨hl, hr⟩ | hs := h.reads
  · obtain ⟨hl', hr'⟩ | hs' := h'.reads
    · exact .inl ⟨hl'.trans hl, hr'.trans hr⟩
    · exact .inr (hs'.mono h.here)
  · exact .inr (hs.goes h.here h')

/-- Between the last token read and the one ahead lies nothing. -/
theorem Goes.there_le_here (h : c.Goes d) : c.there ≤ d.here := h.there.trans h.placed.there_le_here

/-- Reading the token ahead. -/
theorem Placed.goes_behind (h : c.Placed) {t : Token} {us : List Token} (hr : c.rest = t :: us)
    (ht : t.kind ≠ .eof) :
    c.Goes (c.behind t us) ∧ (c.behind t us).Since c.here ∧ (c.behind t us).there = c.current.stop := by
  have hcur : c.current = t := current_of_rest hr
  have hordered : Ordered (t :: us) := by
    refine ⟨fun u hu => h.ordered.1 u (List.mem_append_right _ (hr ▸ hu)), ?_⟩
    exact hr ▸ (List.pairwise_append.mp h.ordered.2).2.1
  have hplaced : (c.behind t us).Placed := ⟨h.ended.tail hr ht, hordered⟩
  have hthere : (c.behind t us).there = c.current.stop := by rw [hcur]; rfl
  refine ⟨⟨hplaced, ?_, ?_, .inr ⟨t, rfl, by rw [here, hcur]⟩⟩, ⟨t, rfl, by rw [here, hcur]⟩, hthere⟩
  · exact h.here_le_stop.trans (hthere ▸ hplaced.there_le_here)
  · exact hthere ▸ h.there_le_stop

/-- The range from a token to what was read since. -/
theorem spanFrom_of_since {o : Options} {start : Token} (h : c.Since start.start) :
    c.spanFrom o start = ⟨o.file, start.start, c.there⟩ := by
  obtain ⟨t, hl, hp⟩ := h
  have hp : t.start.before start.start = false := hp
  simp only [spanFrom, there, hl, Option.getD_some, hp, Bool.false_eq_true, if_false]

/-- The range from the token ahead when nothing was read: it may cover that token. -/
theorem Placed.spanFrom_current (h : c.Placed) (o : Options) :
    (c.spanFrom o c.current).file = o.file ∧ (c.spanFrom o c.current).start = c.here ∧
      c.here ≤ (c.spanFrom o c.current).stop ∧ (c.spanFrom o c.current).stop ≤ c.current.stop := by
  refine ⟨rfl, rfl, ?_⟩
  unfold spanFrom
  cases hl : c.last with
  | none =>
    dsimp only [Option.getD_none]
    rw [ite_self]
    exact ⟨h.here_le_stop, le_refl _⟩
  | some t =>
    dsimp only [Option.getD_some]
    have hthere : c.there = t.stop := by rw [there, hl]
    cases hb : t.start.before c.current.start with
    | true => exact ⟨h.here_le_stop, le_refl _⟩
    | false =>
      have hle : t.start ≤ t.stop :=
        h.ordered.1 t (List.mem_append_left _ (by rw [hl]; exact List.mem_singleton.mpr rfl))
      exact ⟨le_trans (b := t.start) hb hle, hthere ▸ h.there_le_stop⟩

end Cursor

/-! ## Readers -/

/-- To read is to come from one cursor to another. -/
theorem advances_goes : Advances fun c d : Cursor => c.Placed → c.Goes d where
  refl _ h := h.goes_refl
  trans hcd hde h := (hcd h).trans (hde (hcd h).placed)
  advance c h := by
    obtain hstay | ⟨us, hr, hk, hnext⟩ := after_advance c
    · rw [hstay]
      exact h.goes_refl
    · rw [hnext]
      exact (h.goes_behind hr hk).1

theorem steps_goes : Steps fun c d : Cursor => c.Placed → c.Goes d where
  toAdvances := advances_goes
  report _ _ h := ⟨⟨h.ended, h.ordered⟩, le_refl _, le_refl _, .inl ⟨rfl, rfl⟩⟩

end Grammar

end Stencil

import Stencil.Proofs.Ranges

/-!
# Where statements end

A statement has tokens of its own, and the token behind them ends it (`Extent`). Readers keep the
token read last, so that the range of a statement stops where that token does (`Cursor.Runs.spanFrom`):
for an expression or an assignment this is the last of its own tokens, since the range is taken before
what ends the statement is read (`ranged_simple`). A block takes its range behind the token that ends
it, and the conditions behind an `else` behind the same one, so that a line end or a semicolon is part
of it (`ranged_closed`). `Template.parse_extents` says this of all statements of a template.
-/

namespace Stencil

mutual

/-- The statements of a tree, at any depth; texts are none. -/
def Node.statements : Node → List Node
  | .page _ body frontMatter => frontMatter.statements ++ body.statements
  | .block _ body => statementsOf body
  | .branch span test body otherwise =>
    .branch span test body otherwise :: (body.statements ++ otherwise.statements)
  | .loop span target source body => .loop span target source body :: body.statements
  | .expression span value => [.expression span value]
  | .assign span target value => [.assign span target value]
  | _ => []

/-- The statements of several trees. -/
def statementsOf : List Node → List Node
  | [] => []
  | node :: rest => node.statements ++ statementsOf rest

end

/-- Whether a statement is closed by the word `end`. -/
def Node.isClosed : Node → Bool
  | .branch .. | .loop .. => true
  | _ => false

theorem Node.isClosed_erased (n : Node) : n.erased.isClosed = n.isClosed := by
  cases n <;> rfl

namespace Grammar

/-- Whether a token is read along with the statement that it ends. -/
def isTerminator (t : Token) : Bool := t.kind == .newline || t.kind == .semicolon

/-- Among tokens stands a statement, from its first token to its last one, which is the word `end`
if the statement is closed by it. The token behind ends the statement. -/
structure Extent (tokens : List Token) (n : Node) (first last next : Token) : Prop where
  parses : ∃ before own behind, tokens = before ++ (own ++ next :: behind) ∧
    own.head? = some first ∧ own.getLast? = some last ∧
    Parses .statement (own ++ next :: behind) n.erased (next :: behind)
  ends : endsStatement next = true
  closed : n.isClosed = true → last.isWord "end" = true
  apart : last.stop ≤ next.start

/-- A statement stands among tokens, and its range goes from its first token to its last one, or to
what ends the statement if that is read before. -/
def Ranged (file : Option String) (tokens : List Token) (n : Node) : Prop :=
  ∃ first last next, Extent tokens n first last next ∧ n.span? = some ⟨file, first.start,
    if n.isClosed && isTerminator next then next.stop else last.stop⟩

theorem Ranged.behind {file : Option String} {ts : List Token} {n : Node} (h : Ranged file ts n)
    (taken : List Token) : Ranged file (taken ++ ts) n := by
  obtain ⟨first, last, next, ⟨⟨before, own, behind, rfl, hparses⟩, hends, hclosed, hapart⟩, hspan⟩ := h
  exact ⟨first, last, next,
    ⟨⟨taken ++ before, own, behind, (List.append_assoc _ _ _).symm, hparses⟩, hends, hclosed, hapart⟩,
    hspan⟩

/-! ## The word `end` -/

/-- The last of the tokens in front is the word `end`. -/
def Closes (ts us : List Token) : Prop := ∃ own t, ts = own ++ t :: us ∧ t.isWord "end" = true

namespace Closes

variable {p : Token → Prop} {ts us vs : List Token}

theorem cons (h : Closes ts us) (t : Token) : Closes (t :: ts) us := by
  obtain ⟨own, u, rfl, hu⟩ := h
  exact ⟨t :: own, u, rfl, hu⟩

theorem consumes (h : Closes us vs) (hc : Consumes p ts us) : Closes ts vs := by
  obtain ⟨own, u, rfl, hu⟩ := h
  obtain ⟨taken, rfl, -⟩ := hc
  exact ⟨taken ++ own, u, (List.append_assoc _ _ _).symm, hu⟩

theorem word {t : Token} (h : t.isWord "end" = true) : Closes (t :: us) us := ⟨[], t, rfl, h⟩

end Closes

/-- A chain of conditions ends with the `end` that its conditions share, a loop with its own. -/
theorem Parses.closes {part : Part} {ts us : List Token} {n : Node} (h : Parses part ts n us)
    (hn : part = .conditions ∨ part = .statement ∧ n.isClosed = true) : Closes ts us := by
  induction h with
  | expression | assign => obtain ⟨⟨⟩⟩ | ⟨-, ⟨⟩⟩ := hn
  | loop _ _ _ _ hs _ hb hw =>
    exact (((((Closes.word hw).consumes hb.consumes).consumes hs.consumes).cons _).cons _).cons _
  | conditions _ ih => exact ih (.inl rfl)
  | when _ ht _ hb hw => exact (((Closes.word hw).consumes hb.consumes).consumes ht.consumes).cons _
  | whenElse _ ht _ hb _ _ ho hw =>
    exact (((((Closes.word hw).consumes ho.consumes).cons _).consumes hb.consumes).consumes
      ht.consumes).cons _
  | whenElseWhen _ ht _ hb _ _ _ ih =>
    exact ((((ih (.inl rfl)).cons _).consumes hb.consumes).consumes ht.consumes).cons _
  | nothing | separator | text | statement => obtain ⟨⟨⟩⟩ | ⟨⟨⟩, -⟩ := hn

/-! ## What is read between two cursors -/

/-- From one cursor one comes to the other by taking tokens, the last of which is the one read last. -/
structure Cursor.Runs (c d : Cursor) : Prop where
  rest : ∃ taken, c.rest = taken ++ d.rest ∧ d.last = taken.getLast?.or c.last
  reported : c.Extends d
  placed : c.Placed → d.Placed

namespace Cursor.Runs

variable {c d e f : Cursor}

theorem refl (c : Cursor) : c.Runs c := ⟨⟨[], rfl, rfl⟩, .of_eq rfl, id⟩

theorem trans (h : c.Runs d) (h' : d.Runs e) : c.Runs e := by
  obtain ⟨taken, hrest, hlast⟩ := h.rest
  obtain ⟨more, hrest', hlast'⟩ := h'.rest
  refine ⟨⟨taken ++ more, ?_, ?_⟩, h.reported.trans h'.reported, h'.placed ∘ h.placed⟩
  · rw [hrest, hrest', List.append_assoc]
  · rw [hlast', hlast, List.getLast?_append, Option.or_assoc]

/-- Between cursors with the same reports nothing is reported. -/
theorem quiet (h : c.Runs d) (h' : d.Runs e) (h'' : e.Runs f) (hf : f.reported = c.reported) :
    e.reported = d.reported :=
  (h'.reported.antisymm h''.reported (h.reported.antisymm (h'.trans h'').reported hf).2).1

theorem length_le (h : c.Runs d) : d.rest.length ≤ c.rest.length := by
  obtain ⟨taken, hrest, -⟩ := h.rest
  rw [hrest, List.length_append]
  omega

theorem ranged {file : Option String} {n : Node} (h : c.Runs d) (hn : Ranged file d.rest n) :
    Ranged file c.rest n := by
  obtain ⟨taken, hrest, -⟩ := h.rest
  rw [hrest]
  exact hn.behind taken

/-- The range from the token ahead to the last one that is taken. -/
theorem spanFrom {o : Options} (hc : c.Placed) (h : c.Runs d) {own : List Token} {last : Token}
    (hrest : c.rest = own ++ d.rest) (hlast : own.getLast? = some last) :
    d.spanFrom o c.current = ⟨o.file, c.current.start, last.stop⟩ := by
  obtain ⟨taken, hrest', hlast'⟩ := h.rest
  obtain rfl : own = taken := List.append_cancel_right (hrest.symm.trans hrest')
  rw [hlast, Option.some_or] at hlast'
  have hordered : Ordered own := by
    have hpairs := (List.pairwise_append.mp hc.ordered.2).2.1
    rw [hrest] at hpairs
    refine ⟨fun t ht => hc.ordered.1 t ?_, (List.pairwise_append.mp hpairs).1⟩
    exact List.mem_append_right _ (hrest ▸ List.mem_append_left _ ht)
  have hstart : c.current.start ≤ last.start := by
    cases own with
    | nil => cases hlast
    | cons t own =>
      rw [current_of_rest hrest]
      obtain rfl | hmem := List.mem_cons.mp (List.mem_of_getLast? hlast)
      · exact le_refl _
      · exact (hordered.1 t List.mem_cons_self).trans ((List.pairwise_cons.mp hordered.2).1 _ hmem)
  rw [spanFrom_of_since ⟨last, hlast', hstart⟩, there, hlast']

end Cursor.Runs

theorem steps_runs : Steps Cursor.Runs where
  refl c := .refl c
  trans h h' := h.trans h'
  report e c := ⟨⟨[], rfl, rfl⟩, steps_extends.report e c, fun h => (steps_goes.report e c h).placed⟩
  advance c := by
    refine ⟨?_, steps_extends.advance c, fun h => (advances_goes.advance c h).placed⟩
    obtain hstay | ⟨us, hr, -, hnext⟩ := after_advance c
    · rw [hstay]
      exact ⟨[], rfl, rfl⟩
    · rw [hnext]
      exact ⟨[c.current], hr, rfl⟩

/-- Two things that hold where a reader returns. -/
theorem Returns.and {α : Type} {c : Cursor} {r : Reader α} {Q Q' : α → Cursor → Prop}
    (h : Returns c r Q) (h' : Returns c r Q') : Returns c r fun a d => Q a d ∧ Q' a d :=
  fun a d hrun => ⟨h a d hrun, h' a d hrun⟩

/-- What every reader does: it takes tokens. -/
theorem returns_runs {α : Type} {c : Cursor} {r : Reader α} (hr : Moves Cursor.Runs r) :
    Returns c r fun _ d => c.Runs d :=
  fun _ _ hrun => after_of_ok hrun ▸ hr c

/-- A token ahead that is not the end is taken. -/
theorem returns_token {c : Cursor} (hk : c.current.kind ≠ .eof) : Returns c advance fun t d =>
    t = c.current ∧ c.Runs d ∧ c.rest.length = d.rest.length + 1 := by
  intro t d hrun
  obtain ⟨hrest, ht, -⟩ := advance_ok hrun hk
  refine ⟨ht, returns_runs steps_runs.advance t d hrun, ?_⟩
  rw [hrest, List.length_cons]

/-! ## Statements -/

variable {o : Options} {c d : Cursor} {n : Node}

/-- The tokens of a statement ahead. -/
theorem Cursor.Placed.extent (h : c.Placed) {us : List Token} (hp : Parses .statement c.rest n.erased us)
    (hends : Ends us) : ∃ own last next behind, c.rest = own ++ us ∧ us = next :: behind ∧
      own.getLast? = some last ∧ Extent c.rest n c.current last next := by
  obtain ⟨next, hnext, hendsNext⟩ := hends
  obtain ⟨behind, rfl⟩ := List.head?_eq_some_iff.mp hnext
  obtain ⟨own, hrest, -⟩ := hp.consumes
  have hlen := hp.length_lt (by decide)
  obtain ⟨first, own', rfl⟩ : ∃ first own', own = first :: own' := by
    cases own with
    | nil => rw [hrest, List.nil_append] at hlen; exact absurd hlen (Nat.lt_irrefl _)
    | cons first own' => exact ⟨first, own', rfl⟩
  obtain ⟨last, hlast⟩ : ∃ last, (first :: own').getLast? = some last :=
    ⟨_, List.getLast?_eq_some_getLast (List.cons_ne_nil _ _)⟩
  refine ⟨first :: own', last, next, behind, hrest, rfl, hlast, ?_, hendsNext, fun hclosed => ?_, ?_⟩
  · rw [current_of_rest hrest]
    exact ⟨[], first :: own', behind, hrest, rfl, hlast, hrest ▸ hp⟩
  · obtain ⟨before, t, hsplit, ht⟩ := hp.closes (.inr ⟨rfl, n.isClosed_erased.trans hclosed⟩)
    have hown : first :: own' = before ++ [t] := by
      refine (List.append_left_inj (next :: behind)).mp ?_
      rw [← hrest, hsplit, List.append_assoc]
      rfl
    rw [hown, List.getLast?_concat] at hlast
    exact Option.some.inj hlast ▸ ht
  · have hpairs := (List.pairwise_append.mp h.ordered.2).2.1
    rw [hrest] at hpairs
    exact (List.pairwise_append.mp hpairs).2.2 _ (List.mem_of_getLast? hlast) _ List.mem_cons_self

/-- A statement whose range is taken before its end is read. -/
theorem ranged_simple (h : c.Placed) (hruns : c.Runs d) (hp : Parses .statement c.rest n.erased d.rest)
    (hends : Ends d.rest) (hspan : n.span? = some (d.spanFrom o c.current)) (hopen : n.isClosed = false) :
    Ranged o.file c.rest n := by
  obtain ⟨own, last, next, behind, hrest, -, hlast, hextent⟩ := h.extent hp hends
  refine ⟨c.current, last, next, hextent, ?_⟩
  rw [hspan, hruns.spanFrom h hrest hlast, hopen]
  rfl

/-- A statement whose range is taken behind its end. -/
theorem ranged_closed (h : c.Placed) (hruns : c.Runs d) (hp : SoundPart .statement c d n)
    (hspan : n.span? = some (d.spanFrom o c.current)) (hclosed : n.isClosed = true) :
    Ranged o.file c.rest n := by
  obtain ⟨c', hparses, hend⟩ := hp
  obtain ⟨own, last, next, behind, hrest, hnext, hlast, hextent⟩ := h.extent hparses hend.ends
  refine ⟨c.current, last, next, hextent, ?_⟩
  rw [hspan, hclosed, Bool.true_and]
  obtain hr | ⟨t, ht, hr⟩ := hend.rest
  · have hleft : isTerminator next = false := by
      have hkinds := hend.left hr
      rw [Cursor.current_of_rest hnext, not_or] at hkinds
      simpa [isTerminator] using hkinds
    rw [hruns.spanFrom h (hr ▸ hrest) hlast, hleft]
    rfl
  · obtain ⟨rfl, rfl⟩ := List.cons.inj (hnext.symm.trans hr)
    have htaken : isTerminator next = true := by simpa [isTerminator] using ht
    have hrest' : c.rest = (own ++ [next]) ++ d.rest := by
      rw [hrest, hnext, List.append_assoc]
      rfl
    rw [hruns.spanFrom h hrest' List.getLast?_concat, htaken]
    rfl

theorem ranged_readExpressionStatement (h : c.Placed) (hrun : readExpressionStatement o c = .ok n d) :
    ∀ m ∈ n.statements, Ranged o.file c.rest m := by
  rw [readExpressionStatement] at hrun
  obtain ⟨_, c₁, h₁, hrun⟩ := bind_ok hrun
  cases h₁
  obtain ⟨e, c₂, h₂, hrun⟩ := bind_ok hrun
  obtain ⟨span, c₃, h₃, hrun⟩ := bind_ok hrun
  cases h₃
  obtain ⟨_, c₄, h₄, hrun⟩ := bind_ok hrun
  cases hrun
  obtain ⟨-, he⟩ := sound_readExpression o h.ended h₂
  have hruns : c.Runs c₂ := returns_runs (steps_runs.readExpression o) _ _ h₂
  exact List.forall_mem_singleton.mpr (ranged_simple h hruns (.expression he)
    (readStatementEnd_ok (he.ended h.ended) h₄).ends rfl rfl)

theorem ranged_readAssignment (h : c.Placed) (ha : ∃ t u us, c.rest = t :: u :: us ∧ u.kind = .assign)
    (hrun : readAssignment o c = .ok n d) : ∀ m ∈ n.statements, Ranged o.file c.rest m := by
  obtain ⟨t, u, us, hrest, hu⟩ := ha
  rw [readAssignment] at hrun
  obtain ⟨_, c₁, h₁, hrun⟩ := bind_ok hrun
  cases h₁
  obtain ⟨name, c₂, h₂, hrun⟩ := bind_ok hrun
  obtain ⟨_, c₃, h₃, hrun⟩ := bind_ok hrun
  obtain ⟨e, c₄, h₄, hrun⟩ := bind_ok hrun
  obtain ⟨span, c₅, h₅, hrun⟩ := bind_ok hrun
  cases h₅
  obtain ⟨_, c₆, h₆, hrun⟩ := bind_ok hrun
  cases hrun
  have hruns : c.Runs c₄ := (returns_runs (steps_runs.readName _) _ _ h₂).trans
    ((returns_runs steps_runs.advance _ _ h₃).trans (returns_runs (steps_runs.readExpression o) _ _ h₄))
  -- the name and the sign behind it are the two tokens ahead
  obtain ⟨t', hrest₂, ht, hword, rfl, -⟩ := readName_ok h₂
  obtain ⟨rfl, hus⟩ := List.cons.inj (hrest.symm.trans hrest₂)
  have hcur : c₂.current = u := Cursor.current_of_rest hus.symm
  have hne : c₂.current.kind ≠ .eof := by rw [hcur, hu]; decide
  obtain ⟨hrest₃, -, -⟩ := advance_ok h₃ hne
  have hended : c₃.Ended := (h.ended.tail hrest₂ (by rw [ht]; decide)).tail hrest₃ hne
  obtain ⟨-, he⟩ := sound_readExpression o hended h₄
  have hparses : Parses .statement c.rest (Node.assign (c₄.spanFrom o c.current) t.value e).erased
      c₄.rest := by
    rw [hrest₂, hrest₃]
    exact .assign ht hword (hcur ▸ hu) he
  exact List.forall_mem_singleton.mpr (ranged_simple h hruns hparses
    (readStatementEnd_ok (he.ended hended) h₆).ends rfl rfl)

section Statements

/-- A row of statements that stand where they were read, if nothing was reported. -/
def ReadsRanged (o : Options) (statements : Reader (List Node)) : Prop :=
  ∀ c : Cursor, c.Placed → Returns c statements fun ns d =>
    d.reported = c.reported → ∀ m ∈ statementsOf ns, Ranged o.file c.rest m

variable {statements : Reader (List Node)} (hm : Moves Cursor.Runs statements)
  (hsound : ∀ {c d : Cursor} {nodes : List Node}, c.Ended → statements c = .ok nodes d →
    d.reported = c.reported → Parses .statements c.rest (.block nowhere (erasedNodes nodes)) d.rest)
  (hs : ReadsRanged o statements)

include hm hs

theorem ranged_readBody (h : c.Placed) : Returns c (readBody o statements) fun b d =>
    c.Runs d ∧ (d.reported = c.reported → ∀ m ∈ b.statements, Ranged o.file c.rest m) := by
  intro b d hrun
  refine ⟨returns_runs (steps_runs.readBody o hm) b d hrun, ?_⟩
  obtain ⟨_, c₁, h₁, hrun⟩ := bind_ok hrun
  cases h₁
  obtain ⟨nodes, c₂, h₂, hrun⟩ := bind_ok hrun
  cases hrun
  exact hs c h nodes d h₂

/-- What stands behind a test: the statements in it, if those behind an `else` stand where they were
read. -/
theorem ranged_readBranchTail {fuel : Nat} (ih : ∀ {c : Cursor}, c.Placed →
      c.current.isWord "if" = true → c.rest.length ≤ fuel →
      Returns c (readBranch o statements fuel) fun n d =>
        d.reported = c.reported → ∀ m ∈ n.statements, Ranged o.file c.rest m)
    {b : Cursor} (hc : c.Placed) (h : b.Runs c) (hf : c.rest.length ≤ fuel) {test body : Node}
    (hbody : c.reported = b.reported → ∀ m ∈ body.statements, Ranged o.file b.rest m) :
    Returns c (readBranchTail o statements fuel b.current test body) fun n d => ∃ otherwise,
      n = Node.branch (d.spanFrom o b.current) test body otherwise ∧ (d.reported = b.reported →
        ∀ m ∈ body.statements ++ otherwise.statements, Ranged o.file b.rest m) := by
  have hfinish {d e : Cursor} {otherwise : Node} (hd : c.Runs d) (he : d.Runs e)
      (hother : e.reported = d.reported → ∀ m ∈ otherwise.statements, Ranged o.file d.rest m) :
      Returns e (do return Node.branch (← spanFrom o b.current) test body otherwise) fun n d =>
        ∃ otherwise, n = Node.branch (d.spanFrom o b.current) test body otherwise ∧
          (d.reported = b.reported →
            ∀ m ∈ body.statements ++ otherwise.statements, Ranged o.file b.rest m) := by
    refine .spanFrom <| .pure ⟨otherwise, rfl, fun hrep m hmem => ?_⟩
    obtain hmem | hmem := List.mem_append.mp hmem
    · exact hbody ((Cursor.Runs.refl b).quiet h (hd.trans he) hrep) m hmem
    · exact (h.trans hd).ranged (hother ((h.trans hd).quiet he (.refl e) hrep) m hmem)
  refine .current ?_
  split
  · next helse =>
    have hne : c.current.kind ≠ .eof := by rw [kind_of_isWord helse]; decide
    refine (returns_token hne).bind fun _ c₁ ⟨_, h₁, hlen⟩ => .current ?_
    split
    · next hif =>
      refine ((returns_runs (steps_runs.readBranch o hm fuel)).and
        (ih (h₁.placed hc) hif (by omega))).bind fun nested c₂ ⟨h₂, hnested⟩ => hfinish h₁ h₂ ?_
      intro hrep m hmem
      refine hnested hrep m ?_
      split at hmem
      · simpa only [Node.statements, statementsOf, List.append_nil] using hmem
      · cases hmem
    · exact (returns_runs steps_runs.readStatementEnd).bind fun _ c₂ h₂ =>
        (ranged_readBody hm hs (h₂.placed (h₁.placed hc))).bind fun otherwise c₃ ⟨h₃, hother⟩ =>
          (returns_runs (steps_runs.readBlockEnd _ _)).bind fun _ c₄ h₄ =>
            hfinish (h₁.trans h₂) (h₃.trans h₄) fun hrep =>
              hother ((Cursor.Runs.refl c₂).quiet h₃ h₄ hrep)
  · exact (returns_runs (steps_runs.readBlockEnd _ _)).bind fun _ c₁ h₁ => hfinish h₁ (.refl c₁) nofun

include hsound

/-- By induction on the number of conditions: those behind an `else` take the range of a statement as
well. -/
theorem ranged_readBranch (fuel : Nat) (h : c.Placed) (hw : c.current.isWord "if" = true)
    (hf : c.rest.length ≤ fuel) : Returns c (readBranch o statements fuel) fun n d =>
      d.reported = c.reported → ∀ m ∈ n.statements, Ranged o.file c.rest m := by
  induction fuel generalizing c with
  | zero => exact absurd hf (Nat.not_le.mpr (List.length_pos_of_mem h.mem_current))
  | succ fuel ih =>
    have hne : c.current.kind ≠ .eof := by rw [kind_of_isWord hw]; decide
    have hparts : Returns c (readBranch o statements (fuel + 1)) fun n d => ∃ test body otherwise,
        n = .branch (d.spanFrom o c.current) test body otherwise ∧ (d.reported = c.reported →
          ∀ m ∈ body.statements ++ otherwise.statements, Ranged o.file c.rest m) := by
      rw [readBranch_succ]
      refine (returns_token hne).bind fun start c₁ ⟨hstart, h₁, hlen⟩ =>
        (returns_runs (steps_runs.readExpression o)).bind fun test c₂ h₂ =>
          (returns_runs steps_runs.readStatementEnd).bind fun _ c₃ h₃ => ?_
      have h₁₃ : c.Runs c₃ := h₁.trans (h₂.trans h₃)
      refine (ranged_readBody hm hs (h₁₃.placed h)).bind fun body c₄ ⟨h₄, hbody⟩ => ?_
      have hlen₄ := (h₂.trans (h₃.trans h₄)).length_le
      have hfront (hrep : c₄.reported = c.reported) : ∀ m ∈ body.statements, Ranged o.file c.rest m :=
        fun m hmem => h₁₃.ranged (hbody (h₁₃.quiet h₄ (.refl c₄) hrep) m hmem)
      subst hstart
      exact (ranged_readBranchTail hm hs ih ((h₁₃.trans h₄).placed h) (h₁₃.trans h₄) (by omega)
        hfront).mono fun n d htail => ⟨test, body, htail⟩
    intro n d hrun hrep
    have hruns : c.Runs d := returns_runs (steps_runs.readBranch o hm _) n d hrun
    obtain ⟨c', hn, hend⟩ :=
      sound_readBranch (fun c => (hm c).reported) hsound _ h.ended hw hf hrun hrep
    obtain ⟨test, body, otherwise, rfl, hparts⟩ := hparts n d hrun
    rw [Node.statements, List.forall_mem_cons]
    exact ⟨ranged_closed h hruns ⟨c', .conditions hn, hend⟩ rfl rfl, hparts hrep⟩

theorem ranged_readLoop (h : c.Placed) (hw : c.current.isWord "for" = true) :
    Returns c (readLoop o statements) fun n d =>
      d.reported = c.reported → ∀ m ∈ n.statements, Ranged o.file c.rest m := by
  have hne : c.current.kind ≠ .eof := by rw [kind_of_isWord hw]; decide
  have hparts : Returns c (readLoop o statements) fun n d => ∃ target source body,
      n = .loop (d.spanFrom o c.current) target source body ∧ (d.reported = c.reported →
        ∀ m ∈ body.statements, Ranged o.file c.rest m) := by
    refine (returns_token hne).bind fun start c₁ ⟨hstart, h₁, _⟩ =>
      (returns_runs (steps_runs.readName _)).bind fun target c₂ h₂ => .current ?_
    subst hstart
    have hrest : Returns c₂ (do
        let _ ← advance
        let source ← readExpression o
        readStatementEnd
        let body ← readBody o statements
        readBlockEnd "for" c.current
        return Node.loop (← spanFrom o c.current) target source body) fun n d =>
          ∃ target source body, n = Node.loop (d.spanFrom o c.current) target source body ∧ (d.reported = c.reported →
            ∀ m ∈ body.statements, Ranged o.file c.rest m) := by
      refine (returns_runs steps_runs.advance).bind fun _ c₃ h₃ =>
        (returns_runs (steps_runs.readExpression o)).bind fun source c₄ h₄ =>
          (returns_runs steps_runs.readStatementEnd).bind fun _ c₅ h₅ => ?_
      have h₁₅ : c.Runs c₅ := h₁.trans (h₂.trans (h₃.trans (h₄.trans h₅)))
      refine (ranged_readBody hm hs (h₁₅.placed h)).bind fun body c₆ ⟨h₆, hbody⟩ =>
        (returns_runs (steps_runs.readBlockEnd _ _)).bind fun _ d h₇ => .spanFrom <| .pure ?_
      exact ⟨target, source, body, rfl, fun hrep m hmem =>
        h₁₅.ranged (hbody (h₁₅.quiet h₆ h₇ hrep) m hmem)⟩
    dsimp only
    split
    · exact .fail_bind _
    · exact hrest
  intro n d hrun hrep
  have hruns : c.Runs d := returns_runs (steps_runs.readLoop o hm) n d hrun
  have hpart := sound_readLoop (fun c => (hm c).reported) hsound h.ended hw hrun hrep
  obtain ⟨target, source, body, rfl, hparts⟩ := hparts n d hrun
  rw [Node.statements, List.forall_mem_cons]
  exact ⟨ranged_closed h hruns hpart rfl rfl, hparts hrep⟩

theorem ranged_readStatement (h : c.Placed) : Returns c (readStatement o statements) fun n d =>
    d.reported = c.reported → ∀ m ∈ n.statements, Ranged o.file c.rest m := by
  refine .current ?_
  split
  · next hw => exact .get (ranged_readBranch hm hsound hs _ h hw (Nat.le_refl _))
  split
  · next hw => exact ranged_readLoop hm hsound hs h hw
  intro n d hrun
  obtain ⟨u, c₁, h₁, hrun⟩ := bind_ok hrun
  obtain ⟨rfl, hfollowing⟩ := following_ok h₁
  split at hrun
  · next hk =>
    rw [Bool.and_eq_true, beq_iff_eq, beq_iff_eq] at hk
    obtain ⟨us, hrest⟩ := hfollowing (by rw [hk.1, hk.2]; decide)
    exact fun _ => ranged_readAssignment h ⟨_, _, _, hrest, hk.2⟩ hrun
  · exact fun _ => ranged_readExpressionStatement h hrun

end Statements

/-! ## Rows and pages -/

theorem ranged_readStatements (o : Options) (fuel : Nat) : ReadsRanged o (readStatements o fuel) := by
  induction fuel with
  | zero => exact fun c h => .pure fun _ => nofun
  | succ fuel ih =>
    intro c h
    refine .current ?_
    split
    · exact .pure fun _ => nofun
    split
    · exact (returns_runs steps_runs.advance).bind fun _ c₁ h₁ =>
        ((returns_runs (steps_runs.readStatements o fuel)).and (ih c₁ (h₁.placed h))).mono
          fun ns d ⟨hd, hns⟩ hrep m hmem => h₁.ranged (hns (h₁.quiet hd (.refl d) hrep) m hmem)
    split
    · exact (returns_runs steps_runs.advance).bind fun _ c₁ h₁ => .spanFrom <|
        ((returns_runs (steps_runs.readStatements o fuel)).and (ih c₁ (h₁.placed h))).bind
          fun ns d ⟨hd, hns⟩ => .pure fun hrep m hmem =>
            h₁.ranged (hns (h₁.quiet hd (.refl d) hrep) m hmem)
    · intro ns d hrun hrep
      obtain ⟨node?, c₁, h₁, hrun⟩ := bind_ok hrun
      obtain ⟨rest, c₂, h₂, hrun⟩ := bind_ok hrun
      cases hrun
      have hfirst : c.Runs c₁ :=
        returns_runs (steps_runs.readOrSkip o (steps_runs.readStatements o fuel)) _ _ h₁
      have hrest : c₁.Runs d := returns_runs (steps_runs.readStatements o fuel) _ _ h₂
      have hrep₁ : c₁.reported = c.reported := (Cursor.Runs.refl c).quiet hfirst hrest hrep
      obtain ⟨n, rfl, hn⟩ := readOrSkip_ok (steps_extends.readStatements o fuel) h₁ hrep₁
      have hhead := ranged_readStatement (steps_runs.readStatements o fuel)
        (sound_readStatements fuel) ih h n c₁ hn hrep₁
      have htail := ih c₁ (hfirst.placed h) rest d h₂ (hrep.trans hrep₁.symm)
      intro m hmem
      obtain hmem | hmem := List.mem_append.mp hmem
      · exact hhead m hmem
      · exact hfirst.ranged (htail m hmem)

theorem ranged_readSection (h : c.Placed) : Returns c (readSection o) fun b d =>
    d.reported = c.reported → ∀ m ∈ b.statements, Ranged o.file c.rest m := by
  intro b d hrun hrep
  obtain ⟨span, nodes, rfl, hread, -⟩ := readSection_ok hrun hrep
  exact ranged_readStatements o _ c h nodes d hread hrep

theorem ranged_readPageBody {b : Cursor} (h : c.Placed) (hb : b.Runs c) {start : Token} {front : Node}
    (hfront : c.reported = b.reported → ∀ m ∈ front.statements, Ranged o.file b.rest m) :
    Returns c (readPageBody o start front) fun p d =>
      d.reported = b.reported → ∀ m ∈ p.node.statements, Ranged o.file b.rest m := by
  refine ((returns_runs (steps_runs.readSection o)).and (ranged_readSection h)).bind
    fun body d ⟨hd, hbody⟩ => .spanFrom <| .pure fun hrep m hmem => ?_
  obtain hmem | hmem := List.mem_append.mp hmem
  · exact hfront ((Cursor.Runs.refl b).quiet hb hd hrep) m hmem
  · exact hb.ranged (hbody (hb.quiet hd (.refl d) hrep) m hmem)

theorem ranged_readPage (h : c.Placed) : Returns c (readPage o) fun p d =>
    d.reported = c.reported → ∀ m ∈ p.node.statements, Ranged o.file c.rest m := by
  rw [readPage_eq]
  refine .current ?_
  split
  · refine (returns_runs steps_runs.advance).bind fun _ c₁ h₁ =>
      ((returns_runs (steps_runs.readSection o)).and (ranged_readSection (h₁.placed h))).bind
        fun front c₂ ⟨h₂, hfront⟩ => .current ?_
    have hfront (hrep : c₂.reported = c.reported) : ∀ m ∈ front.statements, Ranged o.file c.rest m :=
      fun m hmem => h₁.ranged (hfront (h₁.quiet h₂ (.refl c₂) hrep) m hmem)
    split
    · exact (returns_runs steps_runs.advance).bind fun _ c₃ h₃ =>
        ranged_readPageBody ((h₁.trans (h₂.trans h₃)).placed h) (h₁.trans (h₂.trans h₃)) fun hrep =>
          hfront ((Cursor.Runs.refl c).quiet (h₁.trans h₂) h₃ hrep)
    · exact ranged_readPageBody ((h₁.trans h₂).placed h) (h₁.trans h₂) hfront
  · exact ranged_readPageBody h (.refl c) fun _ => nofun

end Grammar

open Grammar

/-- A template that is read without diagnostics: each of its statements has tokens of its own, and its
range goes from the first of them to the last one. Only the range of a chain of conditions or a loop
goes on behind its `end` if a line end or a semicolon stands there, and covers that. -/
theorem Template.parse_extents (options : TemplateOptions) (path : Option String) (source : String)
    {t : Template} (h : Template.parse options path source = .ok t) (hclean : t.diagnostics = [])
    {page : Page} (hpage : t.page = some page) {n : Node} (hn : n ∈ page.node.statements) :
    ∃ first last next, Extent (tokens options source) n first last next ∧
      n.span? = some ⟨path, first.start,
        if n.isClosed && isTerminator next then next.stop else last.stop⟩ := by
  obtain ⟨-, rfl⟩ | ⟨-, page', c, hread, hpage', -, -, hdiagnostics, -⟩ := parse_ok h
  · cases hpage
  obtain rfl := Option.some.inj (hpage.symm.trans hpage')
  have hreported : c.reported = [] :=
    List.map_eq_nil_iff.mp (List.append_eq_nil_iff.mp (hdiagnostics.symm.trans hclean)).2
  have hplaced : Cursor.Placed { rest := tokens options source } :=
    ⟨(lex options.lexer source.toList).ended, ordered_lex _ _⟩
  exact ranged_readPage hplaced page c hread hreported n hn

/-- A loop in a chain of conditions: the range of the chain stops at its `end`, behind which its block
of code ends, and that of the loop goes on to the next line. -/
theorem Template.parse_extents_conditions :
    let source := "\x7b\x7b if a\nx = 1;\nelse if b\nfor i in c\ni\nend\nend \x7d\x7d"
    let t := (Template.parse {} (some "page") source).toOption.getD {}
    Template.parse {} (some "page") source = .ok t ∧ t.diagnostics = [] ∧
      ∃ page, t.page = some page ∧
        page.node.statements.filterMap Node.span? =
          [⟨some "page", ⟨1, 3⟩, ⟨7, 3⟩⟩, ⟨some "page", ⟨2, 0⟩, ⟨2, 5⟩⟩,
            ⟨some "page", ⟨3, 5⟩, ⟨7, 3⟩⟩, ⟨some "page", ⟨4, 0⟩, ⟨7, 0⟩⟩,
            ⟨some "page", ⟨5, 0⟩, ⟨5, 1⟩⟩] ∧
        ∀ n ∈ page.node.statements, ∃ first last next, Extent (tokens {} source) n first last next ∧
          n.span? = some ⟨some "page", first.start,
            if n.isClosed && isTerminator next then next.stop else last.stop⟩ := by
  intro source t
  have ht : Template.parse {} (some "page") source = .ok t := parse_of_toBool (by decide +kernel)
  have hclean : t.diagnostics = [] := List.isEmpty_iff.mp (by decide +kernel)
  have hspans : t.page.map (·.node.statements.filterMap Node.span?) =
      some [⟨some "page", ⟨1, 3⟩, ⟨7, 3⟩⟩, ⟨some "page", ⟨2, 0⟩, ⟨2, 5⟩⟩,
        ⟨some "page", ⟨3, 5⟩, ⟨7, 3⟩⟩, ⟨some "page", ⟨4, 0⟩, ⟨7, 0⟩⟩,
        ⟨some "page", ⟨5, 0⟩, ⟨5, 1⟩⟩] := by decide +kernel
  obtain ⟨page, hpage, hspans⟩ := Option.map_eq_some_iff.mp hspans
  exact ⟨ht, hclean, page, hpage, hspans, fun n hn => Template.parse_extents _ _ _ ht hclean hpage hn⟩

theorem Grammar.Extent.mem_last {ts : List Token} {n : Node} {first last next : Token}
    (h : Extent ts n first last next) : last ∈ ts := by
  obtain ⟨before, own, behind, rfl, -, hlast, -⟩ := h.parses
  exact List.mem_append_right _ (List.mem_append_left _ (List.mem_of_getLast? hlast))

/-- A chain of conditions on lines of its own does not stop where its `end` does. -/
theorem Template.not_parse_extents :
    ¬ ∀ (options : TemplateOptions) (path : Option String) (source : String) (t : Template),
      Template.parse options path source = .ok t → t.diagnostics = [] →
      ∀ page, t.page = some page → ∀ n ∈ page.node.statements,
        ∃ first last next, Extent (tokens options source) n first last next ∧
          n.span? = some ⟨path, first.start, last.stop⟩ := by
  intro h
  let source := "\x7b\x7b if a\nend\n\x7d\x7d"
  let t := (Template.parse {} none source).toOption.getD {}
  have ht : Template.parse {} none source = .ok t := parse_of_toBool (by decide +kernel)
  have hclean : t.diagnostics = [] := List.isEmpty_iff.mp (by decide +kernel)
  have hstatements : t.page.map (·.node.statements.map fun n => (n.isClosed, n.span?)) =
      some [(true, some ⟨none, ⟨1, 3⟩, ⟨3, 0⟩⟩)] := by decide +kernel
  obtain ⟨page, hpage, hstatements⟩ := Option.map_eq_some_iff.mp hstatements
  obtain ⟨n, rest, hn, hpair, -⟩ := List.map_eq_cons_iff.mp hstatements
  obtain ⟨hclosed, hspan⟩ := Prod.mk.inj hpair
  obtain ⟨first, last, next, hextent, hrange⟩ :=
    h {} none source t ht hclean page hpage n (hn ▸ List.mem_cons_self)
  have hstop : last.stop = ⟨3, 0⟩ :=
    congrArg Span.stop (Option.some.inj (hrange.symm.trans hspan))
  have hnone : ∀ u ∈ tokens {} source, u.stop = ⟨3, 0⟩ → u.isWord "end" = false := by decide +kernel
  exact absurd (hextent.closed hclosed) (Bool.eq_false_iff.mp (hnone last hextent.mem_last hstop))

end Stencil

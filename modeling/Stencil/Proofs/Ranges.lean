import Stencil.Proofs.FrontMatter
import Stencil.Proofs.Nesting

/-!
# The ranges of a page

What a reader reads between two cursors lies between them, and nests (`Lies`). The range of a node
goes from the token it begins with to the token read last; a body in which nothing was read takes
the range of the token behind it, which its block goes on to read (`Lies.block`). Readers are gone
through forwards: `Returns c r Q` says that `Q` holds of what `r` returns from `c`. For whole
templates the outcome is `Template.parse_nests`.
-/

namespace Stencil

namespace Grammar

variable {α β : Type}

/-! ## What holds where a reader returns -/

/-- Where a reader returns, `Q` holds of what it returns, and of the cursor behind it. -/
def Returns (c : Cursor) (r : Reader α) (Q : α → Cursor → Prop) : Prop :=
  ∀ a d, r c = .ok a d → Q a d

namespace Returns

variable {c : Cursor} {r : Reader α} {f : α → Reader β} {Q Q' : α → Cursor → Prop}
  {P : β → Cursor → Prop}

protected theorem pure {a : α} (h : Q a c) : Returns c (pure a) Q := by
  intro b d hrun
  cases hrun
  exact h

protected theorem bind (h : Returns c r Q) (hf : ∀ a d, Q a d → Returns d (f a) P) :
    Returns c (r >>= f) P := by
  intro b e hrun
  obtain ⟨a, d, hr, hrun⟩ := bind_ok hrun
  exact hf a d (h a d hr) b e hrun

theorem mono (h : Returns c r Q) (hQ : ∀ a d, Q a d → Q' a d) : Returns c r Q' :=
  fun a d hrun => hQ a d (h a d hrun)

theorem current {f : Token → Reader β} (h : Returns c (f c.current) P) :
    Returns c (Grammar.current >>= f) P := h

theorem get {f : Cursor → Reader β} (h : Returns c (f c) P) : Returns c (get >>= f) P := h

theorem fail (problem : Problem) : Returns c (Grammar.fail problem : Reader α) Q := nofun

theorem fail_bind (problem : Problem) : Returns c (Grammar.fail problem >>= f) P := nofun

theorem spanFrom {o : Options} {start : Token} {f : Span → Reader β}
    (h : Returns c (f (c.spanFrom o start)) P) : Returns c (Grammar.spanFrom o start >>= f) P := h

end Returns

/-- What every reader does: it goes on. -/
theorem returns_goes {c : Cursor} (h : c.Placed) {r : Reader α}
    (hr : Moves (fun c d : Cursor => c.Placed → c.Goes d) r) : Returns c r fun _ d => c.Goes d :=
  fun _ _ hrun => after_of_ok hrun ▸ hr c h

theorem returns_advance {c : Cursor} (h : c.Placed) :
    Returns c advance fun t d => t = c.current ∧ c.Goes d := by
  intro t d hrun
  refine ⟨?_, returns_goes h advances_goes.advance t d hrun⟩
  obtain ⟨us, hr⟩ := List.head?_eq_some_iff.mp h.ended.head
  by_cases hk : c.current.kind = .eof
  · simp only [advance, bind_run, get_run, hr, hk, bne_self_eq_false, Bool.false_eq_true, if_false,
      pure_run] at hrun
    cases hrun
    rfl
  · rw [advance_run hr hk] at hrun
    cases hrun
    rfl

/-- From one cursor one comes to the other by reading at least the token ahead. -/
structure Cursor.Takes (c d : Cursor) : Prop extends c.Goes d where
  since : d.Since c.here
  stop : c.current.stop ≤ d.there

theorem Cursor.Takes.goes {c d e : Cursor} (h : c.Takes d) (h' : d.Goes e) : c.Takes e where
  toGoes := h.toGoes.trans h'
  since := h.since.goes h.here h'
  stop := h.stop.trans h'.there

/-- A token ahead that is not the end is read. -/
theorem returns_advance_token {c : Cursor} (h : c.Placed) (hk : c.current.kind ≠ .eof) :
    Returns c advance fun _ d => c.Takes d := by
  intro t d hrun
  obtain ⟨us, hr⟩ := Cursor.rest_of_current hk
  rw [advance_run hr hk] at hrun
  cases hrun
  obtain ⟨hgoes, hsince, hstop⟩ := h.goes_behind hr hk
  exact ⟨hgoes, hsince, le_of_eq hstop.symm⟩

/-! ## What lies between two cursors -/

/-- Nodes that lie between two cursors. Where there is one with a range, something was read. -/
structure Lies (file : Option String) (c d : Cursor) (nodes : List Node) : Prop where
  goes : c.Goes d
  row : Row file c.here d.there nodes
  since : spansOf nodes ≠ [] → d.Since c.here

namespace Lies

variable {file : Option String} {o : Options} {c d d' e : Cursor} {nodes ms : List Node}

theorem nil (h : c.Goes d) : Lies file c d [] := ⟨h, .nil, fun hne => absurd rfl hne⟩

theorem after (h : Lies file c d nodes) (he : d.Goes e) : Lies file c e nodes where
  goes := h.goes.trans he
  row := h.row.mono (le_refl _) he.there
  since hne := (h.since hne).goes h.goes.here he

theorem before (h : Lies file d e nodes) (hc : c.Goes d) : Lies file c e nodes where
  goes := hc.trans h.goes
  row := h.row.mono hc.here (le_refl _)
  since hne := (h.since hne).mono hc.here

theorem append (h : Lies file c d nodes) (hd : d.Goes d') (h' : Lies file d' e ms) :
    Lies file c e (nodes ++ ms) where
  goes := h.goes.trans (hd.trans h'.goes)
  row := h.row.append h'.row hd.there_le_here (h.goes.trans hd).here (hd.trans h'.goes).there
  since hne := by
    by_cases hn : spansOf nodes = []
    · rw [spansOf_append, hn, List.nil_append] at hne
      exact (h'.since hne).mono (h.goes.trans hd).here
    · exact (h.since hn).goes h.goes.here (hd.trans h'.goes)

/-- A node around what lies between two cursors, with the range from one to the other. -/
theorem around (h : Lies file c d nodes) (hs : d.Since c.here) {n : Node}
    (hspan : n.span? = some ⟨file, c.here, d.there⟩) (hn : n.inOrder = nodes) : Lies file c d [n] where
  goes := h.goes
  row := .around hspan (h.goes.placed.le_there hs) (hn ▸ h.row)
  since _ := hs

end Lies

/-- A reader of one node that has a range. -/
def ReadsOne (o : Options) (r : Reader Node) : Prop :=
  ∀ c : Cursor, c.Placed → Returns c r fun e d => Lies o.file c d [e] ∧ d.Since c.here

/-! ### Expressions -/

section Chain

variable {o : Options} {sign? : Token → Option α} {combine : Span → α → Node → Node → Node}
  (hcombine : ∀ span a l r, (combine span a l r).span? = some span ∧ (combine span a l r).inOrder = [l, r])
  {operand : Reader Node} (ho : ReadsOne o operand)

include hcombine ho

/-- By induction on the number of signs: what was read so far lies in front. -/
theorem returns_chainFrom {b c : Cursor} (fuel : Nat) {left : Node} (hl : Lies o.file b c [left])
    (hs : c.Since b.here) :
    Returns c (chainFrom o b.current sign? operand combine fuel left) fun e d =>
      Lies o.file b d [e] ∧ d.Since b.here := by
  induction fuel generalizing c left with
  | zero => exact .pure ⟨hl, hs⟩
  | succ fuel ih =>
    refine .current ?_
    cases ha : sign? c.current with
    | none => exact .pure ⟨hl, hs⟩
    | some a =>
      refine (returns_goes hl.goes.placed advances_goes.advance).bind fun _ c₁ h₁ =>
        (ho c₁ h₁.placed).bind fun right c₂ ⟨h₂, hs₂⟩ => .spanFrom ?_
      have hs₂ : c₂.Since b.here := hs₂.mono (hl.goes.trans h₁).here
      rw [Cursor.spanFrom_of_since hs₂]
      obtain ⟨hspan, hchildren⟩ := hcombine ⟨o.file, b.here, c₂.there⟩ a left right
      exact ih ((hl.append h₁ h₂).around hs₂ hspan hchildren) hs₂

theorem readsOne_chain : ReadsOne o (chain o sign? operand combine) := fun c h =>
  .current <| (ho c h).bind fun _ _ ⟨hl, hs⟩ => .get <| returns_chainFrom hcombine ho _ hl hs

end Chain

section Levels

variable {o : Options} {inner : Inner} (hi : ∀ entry, ReadsOne o (inner entry))

theorem goes_inner (hi : ∀ entry, ReadsOne o (inner entry)) {c : Cursor} (h : c.Placed) (entry : Entry) :
    Returns c (inner entry) fun e d => Lies o.file c d [e] :=
  (hi entry c h).mono fun _ _ he => he.1

include hi

theorem returns_readItems (closing : Closing) (fuel : Nat) {c : Cursor} (h : c.Placed) :
    Returns c (readItems inner closing fuel) fun items d => Lies o.file c d items := by
  induction fuel generalizing c with
  | zero => exact .pure (.nil h.goes_refl)
  | succ fuel ih =>
    refine (goes_inner hi h _).bind fun item c₁ h₁ => .current ?_
    split
    · exact (returns_goes h₁.goes.placed advances_goes.advance).bind fun _ c₂ h₂ =>
        (ih h₂.placed).bind fun items d hitems => .pure (h₁.append h₂ hitems)
    · exact (returns_goes h₁.goes.placed (advances_goes.expect _ _)).bind fun _ d h₂ =>
        .pure (h₁.after h₂)

theorem returns_readSequence (closing : Closing) {c : Cursor} (h : c.Placed) :
    Returns c (readSequence inner closing) fun items d => Lies o.file c d items := by
  refine .current ?_
  split
  · exact (returns_goes h advances_goes.advance).bind fun _ d hd => .pure (.nil hd)
  · exact .get (returns_readItems hi closing _ h)

omit hi in
/-- A node that is one token. -/
theorem Lies.leaf {file : Option String} {c d : Cursor} {n : Node} (h : c.Goes d) (hs : d.Since c.here)
    (hspan : n.span? = some ⟨file, c.here, d.there⟩) (hn : n.inOrder = []) : Lies file c d [n] :=
  (Lies.nil h).around hs hspan hn

omit hi in
/-- A token, and a node over its range. -/
theorem returns_spanned {c : Cursor} (h : c.Placed) (hk : c.current.kind ≠ .eof) {f : Span → Reader Node}
    {P : Node → Cursor → Prop}
    (hf : ∀ d, c.Goes d → d.Since c.here → Returns d (f ⟨o.file, c.here, d.there⟩) P) :
    Returns c (do
      let _ ← advance
      let span ← spanFrom o c.current
      f span) P :=
  (returns_advance_token h hk).bind fun _ d hd => .spanFrom <| by
    rw [Cursor.spanFrom_of_since hd.since]
    exact hf d hd.toGoes hd.since

omit hi in
theorem returns_readWord {c : Cursor} (h : c.Placed) (hk : c.current.kind ≠ .eof) :
    Returns c (readWord o c.current) fun e d => Lies o.file c d [e] ∧ d.Since c.here := by
  unfold readWord
  split
  · exact returns_spanned h hk fun d hd hs => .pure ⟨.leaf hd hs rfl rfl, hs⟩
  · split
    · exact .fail _
    · exact returns_spanned h hk fun d hd hs => .pure ⟨.leaf hd hs rfl rfl, hs⟩

omit hi in
/-- A number is no step. -/
theorem returns_numberOf {c : Cursor} {t : Token} {f : Nat → Reader Node} {P : Node → Cursor → Prop}
    (h : ∀ n, Returns c (f n) P) : Returns c (numberOf t >>= f) P := by
  intro e d hrun
  obtain ⟨n, c₁, hn, hrun⟩ := bind_ok hrun
  obtain ⟨-, rfl⟩ := numberOf_ok hn
  exact h n e d hrun

omit hi in
theorem returns_readArgument {c : Cursor} (h : c.Placed) (hk : c.current.kind ≠ .eof) :
    Returns c (readArgument o c.current) fun e d => Lies o.file c d [e] ∧ d.Since c.here := by
  refine returns_spanned h hk fun d hd hs => ?_
  split
  · exact .pure ⟨.leaf hd hs rfl rfl, hs⟩
  · exact returns_numberOf fun n => .pure ⟨.leaf hd hs rfl rfl, hs⟩

theorem readsOne_readPrimary : ReadsOne o (readPrimary o inner) := by
  intro c h
  refine .current ?_
  cases hk : c.current.kind
  case integer =>
    exact returns_spanned h (by rw [hk]; decide) fun d hd hs =>
      returns_numberOf fun n => .pure ⟨.leaf hd hs rfl rfl, hs⟩
  case float | string =>
    exact returns_spanned h (by rw [hk]; decide) fun d hd hs => .pure ⟨.leaf hd hs rfl rfl, hs⟩
  case argument => exact returns_readArgument h (by rw [hk]; decide)
  case identifier => exact returns_readWord h (by rw [hk]; decide)
  case lparen =>
    refine (returns_goes h advances_goes.advance).bind fun _ c₁ h₁ =>
      (hi _ c₁ h₁.placed).bind fun e c₂ ⟨h₂, hs⟩ =>
        (returns_goes h₂.goes.placed (advances_goes.expect _ _)).bind fun _ d h₃ => .pure ?_
    exact ⟨(h₂.before h₁).after h₃, (hs.mono h₁.here).goes (h₁.trans h₂.goes).here h₃⟩
  case lbracket =>
    refine (returns_advance_token h (by rw [hk]; decide)).bind fun _ c₁ h₁ =>
      (returns_readSequence hi _ h₁.placed).bind fun items d hitems => .spanFrom <| .pure ?_
    have hs : d.Since c.here := (h₁.goes hitems.goes).since
    rw [Cursor.spanFrom_of_since hs]
    exact ⟨(hitems.before h₁.toGoes).around hs rfl rfl, hs⟩
  all_goals exact .fail _

/-- By induction on the number of suffixes: what was read so far lies in front. -/
theorem returns_readSuffixes {b c : Cursor} (fuel : Nat) {e : Node} (he : Lies o.file b c [e])
    (hs : c.Since b.here) :
    Returns c (readSuffixes o inner b.current fuel e) fun n d =>
      Lies o.file b d [n] ∧ d.Since b.here := by
  induction fuel generalizing c e with
  | zero => exact .pure ⟨he, hs⟩
  | succ fuel ih =>
    refine .current ?_
    cases hk : c.current.kind
    case dot =>
      refine (returns_goes he.goes.placed advances_goes.advance).bind fun _ c₁ h₁ =>
        (returns_goes h₁.placed (advances_goes.expect _ _)).bind fun name c₂ h₂ => .spanFrom ?_
      have hs₂ : c₂.Since b.here := hs.goes he.goes.here (h₁.trans h₂)
      rw [Cursor.spanFrom_of_since hs₂]
      exact ih ((he.after (h₁.trans h₂)).around hs₂ rfl rfl) hs₂
    case lbracket =>
      refine (returns_goes he.goes.placed advances_goes.advance).bind fun _ c₁ h₁ =>
        (goes_inner hi h₁.placed _).bind fun key c₂ h₂ =>
          (returns_goes h₂.goes.placed (advances_goes.expect _ _)).bind fun _ c₃ h₃ => .spanFrom ?_
      have hs₃ : c₃.Since b.here := hs.goes he.goes.here (h₁.trans (h₂.goes.trans h₃))
      rw [Cursor.spanFrom_of_since hs₃]
      exact ih ((he.append h₁ (h₂.after h₃)).around hs₃ rfl rfl) hs₃
    case lparen =>
      refine (returns_goes he.goes.placed advances_goes.advance).bind fun _ c₁ h₁ =>
        (returns_readSequence hi _ h₁.placed).bind fun arguments c₂ h₂ => .spanFrom ?_
      have hs₂ : c₂.Since b.here := hs.goes he.goes.here (h₁.trans h₂.goes)
      rw [Cursor.spanFrom_of_since hs₂]
      exact ih ((he.append h₁ h₂).around hs₂ rfl rfl) hs₂
    all_goals exact .pure ⟨he, hs⟩

theorem readsOne_readPostfix : ReadsOne o (readPostfix o inner) := fun c h =>
  .current <| (readsOne_readPrimary hi c h).bind fun _ _ ⟨he, hs⟩ =>
    .get <| returns_readSuffixes hi _ he hs

omit hi in
/-- A sign or a word, and an operand behind it. -/
theorem returns_prefixed {c : Cursor} (h : c.Placed) {operand : Reader Node} (ho : ReadsOne o operand)
    (op : UnaryOperator) :
    Returns c (do
      let _ ← advance
      let e ← operand
      return .unary (← spanFrom o c.current) op e) fun e d => Lies o.file c d [e] ∧ d.Since c.here := by
  refine (returns_goes h advances_goes.advance).bind fun _ c₁ h₁ =>
    (ho c₁ h₁.placed).bind fun e d ⟨he, hs⟩ => .spanFrom <| .pure ?_
  have hs : d.Since c.here := hs.mono h₁.here
  rw [Cursor.spanFrom_of_since hs]
  exact ⟨(he.before h₁).around hs rfl rfl, hs⟩

theorem readsOne_readSign : ReadsOne o (readSign o inner) := by
  intro c h
  refine .current ?_
  split
  · exact returns_prefixed h (hi _) _
  · exact readsOne_readPostfix hi c h

theorem readsOne_readSum : ReadsOne o (readSum o inner) :=
  readsOne_chain (fun _ _ _ _ => ⟨rfl, rfl⟩)
    (readsOne_chain (fun _ _ _ _ => ⟨rfl, rfl⟩) (readsOne_readSign hi))

theorem readsOne_readComparison : ReadsOne o (readComparison o inner) := by
  intro c h
  refine .current <| (readsOne_readSum hi c h).bind fun left c₁ ⟨hl, hs⟩ => .current ?_
  cases comparison? c₁.current with
  | none => exact .pure ⟨hl, hs⟩
  | some op =>
    refine (returns_goes hl.goes.placed advances_goes.advance).bind fun _ c₂ h₂ =>
      (readsOne_readSum hi c₂ h₂.placed).bind fun right d ⟨hr, _⟩ => .spanFrom <| .pure ?_
    have hs : d.Since c.here := hs.goes hl.goes.here (h₂.trans hr.goes)
    rw [Cursor.spanFrom_of_since hs]
    exact ⟨(hl.append h₂ hr).around hs rfl rfl, hs⟩

theorem readsOne_readNegation : ReadsOne o (readNegation o inner) := by
  intro c h
  refine .current ?_
  split
  · exact returns_prefixed h (hi _) _
  · exact readsOne_readComparison hi c h

theorem readsOne_readOr : ReadsOne o (readOr o inner) :=
  readsOne_chain (fun _ _ _ _ => ⟨rfl, rfl⟩)
    (readsOne_chain (fun _ _ _ _ => ⟨rfl, rfl⟩) (readsOne_readNegation hi))

end Levels

theorem readsOne_readLevel (o : Options) (levels : Nat) (entry : Entry) :
    ReadsOne o (readLevel o levels entry) := by
  induction levels generalizing entry with
  | zero => exact fun _ _ => .fail _
  | succ levels ih =>
    cases entry with
    | expression => exact readsOne_readOr ih
    | negation => exact readsOne_readNegation ih
    | sign => exact readsOne_readSign ih

theorem readsOne_readExpression (o : Options) : ReadsOne o (readExpression o) :=
  readsOne_readLevel o _ _

/-! ### Statements -/

/-- A body, with the range from its first token to its last one. It lies in front of where the token
behind it stops. -/
def ReadsBody (o : Options) (r : Reader Node) : Prop :=
  ∀ c : Cursor, c.Placed → Returns c r fun n d => c.Goes d ∧ Row o.file c.here d.current.stop [n]

namespace Lies

variable {o : Options} {c d : Cursor} {nodes : List Node} (h : Lies o.file c d nodes)

include h

/-- A block in which something was read ends where that does. -/
theorem block_of_since (hs : d.Since c.here) :
    Row o.file c.here d.there [.block (d.spanFrom o c.current) nodes] := by
  rw [Cursor.spanFrom_of_since hs]
  exact (h.around hs rfl rfl).row

/-- A block in which nothing was read takes the range of the token behind it. -/
theorem block_of_not_since (hs : ¬ d.Since c.here) :
    d.last = c.last ∧ d.rest = c.rest ∧
      Row o.file c.here c.current.stop [.block (d.spanFrom o c.current) nodes] := by
  obtain ⟨hl, hr⟩ := h.goes.reads.resolve_right hs
  have hnone : spansOf nodes = [] := of_not_not fun hne => hs (h.since hne)
  have hcur : d.current = c.current := by rw [Cursor.current, hr, Cursor.current]
  have hspan : d.spanFrom o c.current = c.spanFrom o c.current := by
    rw [Cursor.spanFrom, hl, Cursor.spanFrom]
  have hplaced : c.Placed := ⟨by rw [Cursor.Ended, ← hr]; exact h.goes.placed.ended,
    by rw [← hl, ← hr]; exact h.goes.placed.ordered⟩
  obtain ⟨hfile, hstart, hle, hstop⟩ := hplaced.spanFrom_current o
  refine ⟨hl, hr, ?_⟩
  rw [hspan]
  refine .one (Row.nests_around _ rfl hfile (hstart ▸ hle) ⟨h.row.nests, ?_⟩) fun span hs => ?_
  · show Spaced _ _ (spansOf nodes)
    rw [hnone]
    trivial
  · obtain rfl := Option.some.inj hs
    exact ⟨le_of_eq hstart.symm, hstop⟩

theorem block : Row o.file c.here d.current.stop [.block (d.spanFrom o c.current) nodes] := by
  by_cases hs : d.Since c.here
  · exact (h.block_of_since hs).mono (le_refl _) h.goes.placed.there_le_stop
  · obtain ⟨-, hr, hrow⟩ := h.block_of_not_since hs
    have hcur : d.current = c.current := by rw [Cursor.current, hr, Cursor.current]
    exact hcur ▸ hrow

end Lies

/-- A row of statements. -/
def ReadsRow (o : Options) (r : Reader (List Node)) : Prop :=
  ∀ c : Cursor, c.Placed → Returns c r fun ns d => Lies o.file c d ns

section Statements

variable {o : Options} {statements : Reader (List Node)} (hs : ReadsRow o statements)

theorem returns_readStatementEnd {c : Cursor} (h : c.Placed) :
    Returns c readStatementEnd fun _ d => c.Goes d :=
  returns_goes h advances_goes.readStatementEnd

/-- The end of a block is behind the word for it. -/
theorem returns_readBlockEnd {c : Cursor} (h : c.Placed) (keyword : String) (start : Token) :
    Returns c (readBlockEnd keyword start) fun _ d => c.Takes d := by
  refine .current ?_
  dsimp only
  cases hw : c.current.isWord "end" with
  | false => exact .fail_bind _
  | true =>
    have hne : c.current.kind ≠ .eof := by rw [kind_of_isWord hw]; decide
    exact (returns_advance_token h hne).bind fun _ c₁ h₁ =>
      (returns_readStatementEnd h₁.placed).mono fun _ d h₂ => h₁.goes h₂

include hs in
theorem readsBody_readBody : ReadsBody o (readBody o statements) := fun c h =>
  .current <| (hs c h).bind fun _ _ hrow => .spanFrom <| .pure ⟨hrow.goes, hrow.block⟩

theorem returns_readAssignment {c : Cursor} (h : c.Placed) :
    Returns c (readAssignment o) fun n d => Lies o.file c d [n] := by
  refine .current <| (returns_goes h (advances_goes.readName _)).bind fun name c₁ h₁ =>
    (returns_goes h₁.placed advances_goes.advance).bind fun _ c₂ h₂ =>
      (readsOne_readExpression o c₂ h₂.placed).bind fun e c₃ ⟨he, hsince⟩ => .spanFrom ?_
  have hsince : c₃.Since c.here := hsince.mono (h₁.trans h₂).here
  rw [Cursor.spanFrom_of_since hsince]
  exact (returns_readStatementEnd he.goes.placed).bind fun _ d hd =>
    .pure (((he.before (h₁.trans h₂)).around hsince rfl rfl).after hd)

theorem returns_readExpressionStatement {c : Cursor} (h : c.Placed) :
    Returns c (readExpressionStatement o) fun n d => Lies o.file c d [n] := by
  refine .current <| (readsOne_readExpression o c h).bind fun e c₁ ⟨he, hsince⟩ => .spanFrom ?_
  rw [Cursor.spanFrom_of_since hsince]
  exact (returns_readStatementEnd he.goes.placed).bind fun _ d hd =>
    .pure ((he.around hsince rfl rfl).after hd)

/-- A node left out lies anywhere. -/
theorem Lies.absent {file : Option String} {c d : Cursor} (h : c.Goes d) : Lies file c d [.absent] where
  goes := h
  row := .one .absent nofun
  since hne := absurd rfl hne

/-- The conditions behind an `else` are put in a block with their range. -/
theorem Lies.otherwise {file : Option String} {c d : Cursor} {nested : Node}
    (h : Lies file c d [nested]) :
    Lies file c d [match nested.span? with
      | some span => .block span [nested]
      | none => .absent] := by
  cases hspan : nested.span? with
  | none => exact .absent h.goes
  | some span =>
    have hnests : nested.Nests file := h.row.nests nested List.mem_cons_self
    have hone : spansOf [nested] = [span] := List.filterMap_cons_some hspan
    have hspaced := hone ▸ h.row.spaced
    have hfile : span.file = file := by
      cases hnests with
      | absent => cases hspan
      | node hspan' hfile =>
        rw [hspan] at hspan'
        cases hspan'
        exact hfile
    refine ⟨h.goes, .one (Row.nests_around _ rfl hfile (hnests.le hspan) (.one hnests ?_)) ?_, fun _ => ?_⟩
    · intro s hs
      obtain rfl : span = s := Option.some.inj (hspan.symm.trans hs)
      exact ⟨le_refl _, le_refl _⟩
    · intro s hs
      obtain rfl : span = s := Option.some.inj hs
      exact ⟨hspaced.1, hspaced.2.2.1⟩
    · exact h.since (by rw [hone]; exact List.cons_ne_nil _ _)

/-- Behind a body the token is read that it may have taken the range of. -/
theorem Lies.of_body {file : Option String} {c d e : Cursor} {body : Node} (h : c.Goes d)
    (hrow : Row file c.here d.current.stop [body]) (he : d.Takes e) : Lies file c e [body] where
  goes := h.trans he.toGoes
  row := hrow.mono (le_refl _) he.stop
  since _ := he.since.mono h.here

include hs

theorem returns_readBranch (fuel : Nat) {c : Cursor} (h : c.Placed) :
    Returns c (readBranch o statements fuel) fun n d => Lies o.file c d [n] := by
  induction fuel generalizing c with
  | zero => exact .pure (.absent h.goes_refl)
  | succ fuel ih =>
    rw [readBranch_succ]
    refine (returns_advance h).bind fun start c₁ ⟨hstart, h₁⟩ =>
      (readsOne_readExpression o c₁ h₁.placed).bind fun test c₂ ⟨htest, hsince⟩ =>
        (returns_readStatementEnd htest.goes.placed).bind fun _ c₃ h₃ =>
          (readsBody_readBody hs c₃ h₃.placed).bind fun body c₄ ⟨h₄, hbody⟩ => .current ?_
    subst hstart
    have hfront {e : Cursor} (he : c₄.Takes e) : Lies o.file c e [test, body] :=
      (htest.before h₁).append h₃ (.of_body h₄ hbody he)
    have hfinish {e e' : Cursor} {otherwise : Node} (he : c₄.Takes e) (hd : e.Goes e')
        {d : Cursor} (hother : Lies o.file e' d [otherwise]) :
        Returns d (do return .branch (← spanFrom o c.current) test body otherwise) fun n d =>
          Lies o.file c d [n] := by
      have hchildren := (hfront he).append hd hother
      have hsince : d.Since c.here := (hsince.mono h₁.here).goes (h₁.trans htest.goes).here
        (h₃.trans (h₄.trans (he.toGoes.trans (hd.trans hother.goes))))
      refine .spanFrom <| .pure ?_
      rw [Cursor.spanFrom_of_since hsince]
      exact hchildren.around hsince rfl rfl
    split
    · next helse =>
      have hne : c₄.current.kind ≠ .eof := by rw [kind_of_isWord helse]; decide
      refine (returns_advance_token h₄.placed hne).bind fun _ c₅ h₅ => .current ?_
      split
      · exact (ih h₅.placed).bind fun nested c₆ hnested =>
          hfinish h₅ h₅.placed.goes_refl hnested.otherwise
      · exact (returns_readStatementEnd h₅.placed).bind fun _ c₆ h₆ =>
          (readsBody_readBody hs c₆ h₆.placed).bind fun otherwise c₇ ⟨h₇, hother⟩ =>
            (returns_readBlockEnd h₇.placed _ _).bind fun _ c₈ h₈ =>
              hfinish h₅ h₆ (.of_body h₇ hother h₈)
    · exact (returns_readBlockEnd h₄.placed _ _).bind fun _ c₅ h₅ =>
        hfinish h₅ h₅.placed.goes_refl (.absent h₅.placed.goes_refl)

theorem returns_readLoop {c : Cursor} (h : c.Placed) :
    Returns c (readLoop o statements) fun n d => Lies o.file c d [n] := by
  refine (returns_advance h).bind fun start c₁ ⟨hstart, h₁⟩ =>
    (returns_goes h₁.placed (advances_goes.readName _)).bind fun target c₂ h₂ => .current ?_
  subst hstart
  have hrest : Returns c₂ (do
      let _ ← advance
      let source ← readExpression o
      readStatementEnd
      let body ← readBody o statements
      readBlockEnd "for" c.current
      return .loop (← spanFrom o c.current) target source body) fun n d => Lies o.file c d [n] := by
    refine (returns_goes h₂.placed advances_goes.advance).bind fun _ c₃ h₃ =>
      (readsOne_readExpression o c₃ h₃.placed).bind fun source c₄ ⟨hsource, hsince⟩ =>
        (returns_readStatementEnd hsource.goes.placed).bind fun _ c₅ h₅ =>
          (readsBody_readBody hs c₅ h₅.placed).bind fun body c₆ ⟨h₆, hbody⟩ =>
            (returns_readBlockEnd h₆.placed _ _).bind fun _ d h₇ => .spanFrom <| .pure ?_
    have h₁₃ : c.Goes c₃ := h₁.trans (h₂.trans h₃)
    have hsince : d.Since c.here := (hsince.mono h₁₃.here).goes (h₁₃.trans hsource.goes).here
      (h₅.trans (h₆.trans h₇.toGoes))
    rw [Cursor.spanFrom_of_since hsince]
    exact ((hsource.before h₁₃).append h₅ (.of_body h₆ hbody h₇)).around hsince rfl rfl
  dsimp only
  split
  · exact .fail_bind _
  · exact hrest

theorem returns_readStatement {c : Cursor} (h : c.Placed) :
    Returns c (readStatement o statements) fun n d => Lies o.file c d [n] := by
  refine .current ?_
  split
  · exact .get (returns_readBranch hs _ h)
  split
  · exact returns_readLoop hs h
  refine (returns_goes h advances_goes.following).bind fun u c₁ h₁ => ?_
  split
  · exact (returns_readAssignment h₁.placed).mono fun _ _ hn => hn.before h₁
  · exact (returns_readExpressionStatement h₁.placed).mono fun _ _ hn => hn.before h₁

/-- A statement that is skipped leaves nothing. -/
theorem returns_readOrSkip (hm : Moves (fun c d : Cursor => c.Placed → c.Goes d) statements) {c : Cursor}
    (h : c.Placed) :
    Returns c (readOrSkip o statements) fun n? d => Lies o.file c d n?.toList := by
  intro n? d hrun
  have hgoes := returns_goes h (steps_goes.readOrSkip o hm) n? d hrun
  rw [readOrSkip_run] at hrun
  cases hst : readStatement o statements c with
  | ok n e =>
    rw [hst] at hrun
    cases hrun
    exact returns_readStatement hs h n d hst
  | error x e =>
    rw [hst] at hrun
    cases x with
    | fault => cases hrun
    | malformed problem =>
      obtain ⟨_, _, -, hrun⟩ := bind_ok hrun
      obtain ⟨_, _, -, hrun⟩ := bind_ok hrun
      obtain ⟨_, _, -, hrun⟩ := bind_ok hrun
      cases hrun
      exact .nil hgoes

end Statements

theorem readsRow_readStatements (o : Options) (fuel : Nat) : ReadsRow o (readStatements o fuel) := by
  induction fuel with
  | zero => exact fun c h => .pure (.nil h.goes_refl)
  | succ fuel ih =>
    refine fun c h => .current ?_
    split
    · exact .pure (.nil h.goes_refl)
    split
    · exact (returns_goes h advances_goes.advance).bind fun _ c₁ h₁ =>
        (ih c₁ h₁.placed).mono fun _ _ hrow => hrow.before h₁
    split
    · next htext =>
      have hk : c.current.kind = .text := by simpa using htext
      refine (returns_advance_token h (by rw [hk]; decide)).bind fun _ c₁ h₁ => .spanFrom ?_
      rw [Cursor.spanFrom_of_since h₁.since]
      exact (ih c₁ h₁.placed).bind fun rest d hrow =>
        .pure (.append (.leaf h₁.toGoes h₁.since rfl rfl) h₁.placed.goes_refl hrow)
    · exact (returns_readOrSkip ih (steps_goes.readStatements o fuel) h).bind fun n? c₁ hn =>
        (ih c₁ hn.goes.placed).bind fun rest d hrow =>
          .pure (hn.append hn.goes.placed.goes_refl hrow)

theorem readsRow_readSectionBody (o : Options) (fuel : Nat) : ReadsRow o (readSectionBody o fuel) := by
  induction fuel with
  | zero => exact fun c h => .pure (.nil h.goes_refl)
  | succ fuel ih =>
    refine fun c h => .get <| (readsRow_readStatements o _ c h).bind fun body c₁ hbody => .current ?_
    split
    · exact .pure hbody
    · exact (returns_goes hbody.goes.placed (steps_goes.report _)).bind fun _ c₂ h₂ =>
        (returns_goes h₂.placed advances_goes.advance).bind fun _ c₃ h₃ =>
          (ih c₃ h₃.placed).bind fun rest d hrest => .pure (hbody.append (h₂.trans h₃) hrest)

/-- A section is a block around what was read. -/
theorem returns_readSection {o : Options} {c : Cursor} (h : c.Placed) :
    Returns c (readSection o) fun n d => ∃ nodes, n = .block (d.spanFrom o c.current) nodes ∧
      Lies o.file c d nodes :=
  .current <| .get <| (readsRow_readSectionBody o _ c h).bind fun nodes _ hrow =>
    .spanFrom <| .pure ⟨nodes, rfl, hrow⟩

/-! ### Pages -/

/-- Front matter is closed by a marker, and a section that ends right behind it does not end behind
the marker. -/
def FrontMatterCloses (tokens : List Token) : Prop :=
  ∀ first rest, tokens = first :: rest → first.kind = .frontMatterMarker →
    ∃ front marker u behind, rest = front ++ marker :: u :: behind ∧ (∀ t ∈ front, IsBefore t) ∧
      marker.kind = .frontMatterMarker ∧ (endsSection u = true → u.stop ≤ marker.stop)

/-- A page without front matter has the range of its body. -/
theorem nests_plain {o : Options} {c d : Cursor} (h : c.Placed) {p : Page}
    (hrun : readPageBody o c.current .absent c = .ok p d) : p.node.Nests o.file := by
  obtain ⟨body, c₁, hbody, hrun⟩ := bind_ok hrun
  obtain ⟨nodes, rfl, hlies⟩ := returns_readSection h body c₁ hbody
  cases hrun
  have hnests : Node.Nests o.file (.block (d.spanFrom o c.current) nodes) :=
    hlies.block.nests _ List.mem_cons_self
  refine Row.nests_around (d.spanFrom o c.current) rfl rfl (hnests.le rfl) (.absent_cons (.one hnests ?_))
  intro span hs
  obtain rfl := Option.some.inj hs
  exact ⟨le_refl _, le_refl _⟩

/-- Tokens in front of the end of a section are taken up to the first that ends one. -/
theorem rest_of_section {front ts us : List Token} {marker t : Token}
    (hfront : ∀ t ∈ front, IsBefore t) (hmarker : ¬ IsBefore marker) (ht : ¬ IsBefore t)
    (h : Consumes IsBefore (front ++ marker :: us) (t :: ts)) : t :: ts = marker :: us := by
  obtain ⟨taken, heq, htaken⟩ := h
  induction front generalizing taken with
  | nil =>
    cases taken with
    | nil => exact heq.symm
    | cons u taken =>
      obtain ⟨rfl, -⟩ := List.cons.inj heq
      exact absurd (htaken _ List.mem_cons_self) hmarker
  | cons v front ih =>
    cases taken with
    | nil =>
      obtain ⟨rfl, -⟩ := List.cons.inj heq
      exact absurd (hfront _ List.mem_cons_self) ht
    | cons u taken =>
      exact ih (fun t ht => hfront t (List.mem_cons_of_mem _ ht)) taken (List.cons.inj heq).2
        fun t ht => htaken t (List.mem_cons_of_mem _ ht)

/-- A page with front matter: the body stops where the page does, unless nothing is in it. -/
theorem nests_frontMatter {o : Options} {b c d : Cursor} {u : Token} {us : List Token} {front : Node}
    (hb : b.Takes c) (hrest : c.rest = u :: us)
    (hu : endsSection u = true → u.stop ≤ c.there)
    (hfront : Row o.file b.here c.there [front]) {p : Page}
    (hrun : readPageBody o b.current front c = .ok p d) (hrep : d.reported = c.reported) :
    p.node.Nests o.file := by
  obtain ⟨body, c₁, hbody, hrun⟩ := bind_ok hrun
  cases hrun
  have hend := (sound_readSection hb.placed.ended hbody hrep).2
  obtain ⟨nodes, rfl, hlies⟩ := returns_readSection hb.placed body _ hbody
  have hsince : d.Since b.here := (hb.goes hlies.goes).since
  have hrow : Row o.file c.here d.there [.block (d.spanFrom o c.current) nodes] := by
    by_cases hs : d.Since c.here
    · exact hlies.block_of_since hs
    · obtain ⟨-, hr, hrow⟩ := hlies.block_of_not_since hs
      have hd : d.current = u := Cursor.current_of_rest (hr.trans hrest)
      have hc : c.current = u := Cursor.current_of_rest hrest
      exact hrow.mono (le_refl _) ((hc ▸ hu (hd ▸ hend)).trans hlies.goes.there)
  refine Row.nests_around ⟨o.file, b.here, d.there⟩ ?_ rfl
    (hlies.goes.placed.le_there hsince)
    (hfront.append hrow hb.placed.there_le_here hb.here hlies.goes.there)
  exact congrArg some (Cursor.spanFrom_of_since hsince)

/-- Pages nest. -/
theorem page_nests {o : Options} {tokens : List Token} (h : Cursor.Placed { rest := tokens })
    (hcloses : FrontMatterCloses tokens) {p : Page} {d : Cursor}
    (hrun : readPage o { rest := tokens } = .ok p d) (hrep : d.reported = []) :
    p.node.Nests o.file := by
  set b : Cursor := { rest := tokens } with hb
  rw [readPage_eq, bind_of_ok (current_run b)] at hrun
  split at hrun
  swap
  · exact nests_plain h hrun
  next hmarker =>
  have hk : b.current.kind = .frontMatterMarker := by simpa using hmarker
  obtain ⟨first, c₁, h₁, hrun⟩ := bind_ok hrun
  obtain ⟨hrest₁, -, hrep₁⟩ := advance_ok h₁ (by rw [hk]; decide)
  have htakes := returns_advance_token h (by rw [hk]; decide) _ _ h₁
  obtain ⟨rest, marker, u, behind, hrest, hbefore, hmark, hu⟩ := hcloses _ _ hrest₁ hk
  obtain ⟨front, c₂, h₂, hrun⟩ := bind_ok hrun
  -- nothing was reported on the way
  have hext₂ : c₁.Extends c₂ := after_of_ok h₂ ▸ steps_extends.readSection o c₁
  have hext : c₂.Extends d := after_of_ok hrun ▸ steps_extends.readPageTail o b.current front c₂
  obtain ⟨hrep₂, hrep₃⟩ := hext₂.antisymm hext (hrep.trans hrep₁.symm)
  obtain ⟨hparses, hend⟩ := sound_readSection htakes.placed.ended h₂ hrep₂
  obtain ⟨nodes, rfl, hlies⟩ := returns_readSection htakes.placed front c₂ h₂
  obtain ⟨us, hrest₂⟩ := List.head?_eq_some_iff.mp hlies.goes.placed.ended.head
  have hnot : ¬ IsBefore marker := by
    rw [IsBefore, endsSection, hmark]
    decide
  have hsplit : c₂.current :: us = marker :: u :: behind :=
    rest_of_section hbefore hnot (by rw [IsBefore, hend]; decide) (hrest ▸ hrest₂ ▸ hparses.consumes)
  obtain ⟨hcur, rfl⟩ := List.cons.inj hsplit
  rw [readPageTail, bind_of_ok (current_run c₂), hcur, hmark, if_pos (beq_self_eq_true _),
    bind_of_ok (advance_run (hcur ▸ hrest₂) (by rw [hmark]; decide))] at hrun
  obtain ⟨hgoes, hsince, hthere⟩ := hlies.goes.placed.goes_behind (hcur ▸ hrest₂) (by rw [hmark]; decide)
  have hrow : Row o.file b.here (c₂.behind marker (u :: behind)).there
      [.block (c₂.spanFrom o c₁.current) nodes] := hlies.block.mono htakes.here (le_of_eq hthere.symm)
  refine nests_frontMatter (htakes.goes (hlies.goes.trans hgoes)) rfl (fun he => ?_) hrow hrun hrep₃
  rw [hthere, hcur]
  exact hu he

end Grammar

open Grammar

/-! ## The tokens of a source -/

/-- Offsets are in order where their places are. -/
theorem positionAt_le (cs : List Char) {n m : Nat} (h : n ≤ m) : positionAt cs n ≤ positionAt cs m := by
  obtain ⟨k, rfl⟩ := Nat.exists_eq_add_of_le h
  rw [positionAt_add]
  exact Position.not_after_before _ _

/-- The tokens of a source lie behind each other. -/
theorem ordered_lex (options : LexerOptions) (cs : List Char) : Ordered (lex options cs).tokens := by
  obtain ⟨final, htiles⟩ := tiles_lex options cs
  have htoken {s : Stretch} {t : Token} (h : s.token? cs = some t) :
      t.start = positionAt cs s.start ∧ t.stop = positionAt cs s.stop := by
    unfold Stretch.token? at h
    split at h <;> cases h
    exact ⟨rfl, rfl⟩
  rw [htiles.tokens]
  constructor
  · intro t ht
    obtain ht | ht := List.mem_append.mp ht
    · obtain ⟨s, hs, hst⟩ := List.mem_filterMap.mp ht
      obtain ⟨hstart, hstop⟩ := htoken hst
      rw [hstart, hstop]
      exact positionAt_le cs (htiles.within s hs).1
    · rw [List.mem_singleton.mp ht]
      exact le_refl _
  · refine List.pairwise_append.mpr ⟨?_, List.pairwise_singleton _ _, ?_⟩
    · refine List.pairwise_filterMap.mpr (htiles.ordered.imp fun h t ht u hu => ?_)
      rw [(htoken ht).2, (htoken hu).1]
      exact positionAt_le cs h
    · intro t ht u hu
      obtain ⟨s, hs, hst⟩ := List.mem_filterMap.mp ht
      rw [List.mem_singleton.mp hu, (htoken hst).2]
      exact positionAt_le cs (htiles.within s hs).2

/-- What stands right behind front matter and ends a section is the end, with nothing in between. -/
theorem stop_of_endsSection (options : LexerOptions) (q : Position) (cs : List Char) {u : Token}
    {behind : List Token} (h : (lexFrom options (afterFrontMatter options) q cs).tokens = u :: behind)
    (hu : endsSection u = true) : u.stop = q := by
  have hnone : (lexFrom options (afterFrontMatter options) q cs).items.filterMap LexItem.token? = [] := by
    have hfront : afterFrontMatter options ≠ .front := by
      unfold afterFrontMatter
      split <;> exact Section.noConfusion
    cases htokens : (lexFrom options (afterFrontMatter options) q cs).items.filterMap LexItem.token? with
    | nil => rfl
    | cons t ts =>
      rw [Lexed.tokens, htokens] at h
      obtain rfl : t = u := (List.cons.inj h).1
      have hbefore := isBefore_of_lexFrom hfront q cs (htokens ▸ List.mem_cons_self)
      exact absurd hu (ne_true_of_eq_false hbefore)
  have hstop : (lexFrom options (afterFrontMatter options) q cs).stop = q := by
    revert hnone
    cases cs with
    | nil =>
      rw [lexFrom_nil]
      exact fun _ => rfl
    | cons c cs =>
      unfold afterFrontMatter
      split
      · obtain ⟨value, kind, more, following, hpiece⟩ : ∃ value kind more following,
            nextPiece options .text q c cs = (.token kind value, more, following) := by
          simp only [nextPiece]
          split <;> exact ⟨_, _, _, _, rfl⟩
        rw [lexFrom_cons Section.noConfusion hpiece]
        exact fun hnone => absurd hnone (List.cons_ne_nil _ _)
      · rw [lexFrom_finished]
        exact fun _ => rfl
  rw [Lexed.tokens, hnone] at h
  obtain rfl := (List.cons.inj h).1
  exact hstop

/-- Front matter about which nothing is said goes up to a marker. -/
theorem tokens_front (options : LexerOptions) (p : Position) (cs : List Char)
    (h : (lexFrom options .front p cs).items.filterMap LexItem.problem? = []) :
    ∃ front marker q cs', (lexFrom options .front p cs).tokens =
        front ++ marker :: (lexFrom options (afterFrontMatter options) q cs').tokens ∧
      (∀ t ∈ front, IsBefore t) ∧ marker.kind = .frontMatterMarker ∧ marker.stop = q := by
  induction hn : cs.length using Nat.strong_induction_on generalizing p cs with
  | _ n ih =>
    cases cs with
    | nil =>
      rw [lexFrom_nil] at h
      cases h
    | cons c cs =>
      by_cases hmarker : atMarker options.marker.toList p (c :: cs) = true
      · have hpiece : nextPiece options .front p c cs = (.token .frontMatterMarker options.marker,
            (firstLine (c :: cs)).length - 1, afterFrontMatter options) := by
          rw [nextPiece, if_pos hmarker]
        rw [lexFrom_cons Section.noConfusion hpiece]
        exact ⟨[], _, _, _, rfl, List.forall_mem_nil _, rfl, rfl⟩
      · obtain ⟨kind, more, hscan⟩ : ∃ kind more, scanCode false c cs = (kind, more) := ⟨_, _, rfl⟩
        have hpiece : nextPiece options .front p c cs = (kind, more, .front) := by
          rw [nextPiece, if_neg hmarker, hscan]
        rw [lexFrom_cons Section.noConfusion hpiece] at h ⊢
        have hrest := (List.filterMap_eq_nil_iff.mp h · <| List.mem_cons_of_mem _ ·)
        have hlt : (cs.drop more).length < n := by
          rw [List.length_drop, ← hn, List.length_cons]
          omega
        obtain ⟨front, marker, q, cs', htokens, hbefore, hmark, hstop⟩ :=
          ih _ hlt _ _ (List.filterMap_eq_nil_iff.mpr hrest) rfl
        cases kind with
        | token kind value =>
          refine ⟨_ :: front, marker, q, cs', congrArg (_ :: ·) htokens, ?_, hmark, hstop⟩
          intro t ht
          obtain rfl | ht := List.mem_cons.mp ht
          · exact isBefore_of_inCode (inCode_of_scanCode (congrArg Prod.fst hscan)) _ _ _
          · exact hbefore t ht
        | blank | comment | flaw => exact ⟨front, marker, q, cs', htokens, hbefore, hmark, hstop⟩

/-- Sources about which nothing is said close their front matter. -/
theorem frontMatterCloses_lex {options : LexerOptions} {cs : List Char} {file : Option String}
    (h : (lex options cs).diagnostics file = []) : FrontMatterCloses (lex options cs).tokens := by
  intro first rest htokens hk
  have hplain (hmode : options.mode = .default ∨ options.mode = .scriptOnly) : False := by
    obtain ⟨inside, hinside, hlex⟩ := Template.lex_plain hmode cs
    have hfront : inside ≠ .front := by rcases hinside with rfl | rfl <;> exact Section.noConfusion
    have hfirst : first ∈ (lex options cs).tokens := htokens ▸ List.mem_cons_self
    rw [hlex, Lexed.tokens, List.mem_append, List.mem_singleton] at hfirst
    obtain hfirst | rfl := hfirst
    · have hbefore := isBefore_of_lexFrom hfront _ _ hfirst
      rw [IsBefore, endsSection, hk] at hbefore
      cases hbefore
    · cases hk
  have hfrontMatter (hlex : lex options cs = lexFrontMatter options cs) :
      ∃ front marker u behind, rest = front ++ marker :: u :: behind ∧ (∀ t ∈ front, IsBefore t) ∧
        marker.kind = .frontMatterMarker ∧ (endsSection u = true → u.stop ≤ marker.stop) := by
    rw [hlex, Lexed.diagnostics, ← List.map_filterMap, List.map_eq_nil_iff] at h
    rw [hlex] at htokens
    unfold lexFrontMatter at h htokens
    split at h
    · next hmarker =>
      rw [if_pos hmarker] at htokens
      obtain ⟨front, marker, q, cs', hsplit, hbefore, hmark, hstop⟩ := tokens_front options _ _ h
      obtain ⟨-, hrest⟩ := List.cons.inj htokens
      cases hbehind : (lexFrom options (afterFrontMatter options) q cs').tokens with
      | nil => exact absurd hbehind (List.append_ne_nil_of_right_ne_nil _ (List.cons_ne_nil _ _))
      | cons u behind =>
        refine ⟨front, marker, u, behind, ?_, hbefore, hmark, fun hu => ?_⟩
        · rw [← hbehind, ← hsplit]
          exact hrest.symm
        · rw [stop_of_endsSection options q cs' hbehind hu, hstop]
    · cases h
  cases hmode : options.mode with
  | default => exact (hplain (.inl hmode)).elim
  | scriptOnly => exact (hplain (.inr hmode)).elim
  | frontMatterOnly | frontMatterAndContent => exact hfrontMatter (by rw [lex, hmode])

/-- A page of which nothing is reported nests in its file. -/
theorem Template.nests_of_readPage {options : TemplateOptions} {path : Option String} {source : String}
    {page : Page} {c : Cursor}
    (h : readPage (grammar options path) { rest := tokens options source } = .ok page c)
    (hclean : (lex options.lexer source.toList).diagnostics path ++
      c.reported.map (SyntaxError.diagnostic path) = []) : page.node.Nests path := by
  obtain ⟨hlexical, hreported⟩ := List.append_eq_nil_iff.mp hclean
  exact page_nests ⟨(lex options.lexer source.toList).ended, ordered_lex _ _⟩
    (frontMatterCloses_lex hlexical) h (List.map_eq_nil_iff.mp hreported)

/-- Ranges nest, in every template that is read without diagnostics. -/
theorem Template.parse_nests (options : TemplateOptions) (path : Option String) (source : String)
    {t : Template} (h : Template.parse options path source = .ok t) (hclean : t.diagnostics = [])
    {page : Page} (hpage : t.page = some page) : page.node.Nests path := by
  obtain ⟨-, rfl⟩ | ⟨-, page', c, hread, hpage', -, -, hdiagnostics, -⟩ := parse_ok h
  · cases hpage
  obtain rfl := Option.some.inj (hpage.symm.trans hpage')
  exact nests_of_readPage hread (hdiagnostics.symm.trans hclean)

/-- Front matter with nothing in it takes the range of the marker behind it. In the body stands a
chain of conditions, with an empty body and with operands in parentheses. -/
theorem Template.parse_nests_conditions :
    let source := "+++\n+++\n\x7b\x7b if (a)\nelse if -(b + 1) == c.d[0]\nend \x7d\x7dx"
    let t := (Template.parse { lexer := { mode := .frontMatterAndContent } } (some "page")
      source).toOption.getD {}
    Template.parse { lexer := { mode := .frontMatterAndContent } } (some "page") source = .ok t ∧
      t.diagnostics = [] ∧
      ∃ page, t.page = some page ∧ page.node.Nests (some "page") ∧
        spansOf page.node.inOrder =
          [⟨some "page", ⟨2, 0⟩, ⟨3, 0⟩⟩, ⟨some "page", ⟨3, 0⟩, ⟨5, 7⟩⟩] := by
  intro source t
  have hread : (Template.parse { lexer := { mode := .frontMatterAndContent } } (some "page")
      source).toBool = true := by decide +kernel
  have ht : Template.parse { lexer := { mode := .frontMatterAndContent } } (some "page") source =
      .ok t := by
    subst t
    cases hp : Template.parse { lexer := { mode := .frontMatterAndContent } } (some "page") source with
    | ok t => rfl
    | error e =>
      rw [hp] at hread
      cases hread
  have hclean : t.diagnostics = [] := List.isEmpty_iff.mp (by decide +kernel)
  have hspans : t.page.map (spansOf ·.node.inOrder) =
      some [⟨some "page", ⟨2, 0⟩, ⟨3, 0⟩⟩, ⟨some "page", ⟨3, 0⟩, ⟨5, 7⟩⟩] := by decide +kernel
  obtain ⟨page, hpage, hspans⟩ := Option.map_eq_some_iff.mp hspans
  exact ⟨ht, hclean, page, hpage, Template.parse_nests _ _ _ ht hclean hpage, hspans⟩

end Stencil

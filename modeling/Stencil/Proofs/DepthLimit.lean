import Stencil.Proofs.Counting
import Stencil.Proofs.Totality

/-!
# The depth limit

A counted reader beside a reader whose limit may be higher (`Counts`): the counter is put back on
whatever exit, the marks keep to the limit, each try to open a level beyond it makes one syntax
error about depth, and both come to the same, unless there was such a try and the limits differ.
There is one rule for what opens no level (`Counts.step`), one for a sequence, and one for a level
(`Counts.descend`, `Counts.refused`). `page_depthLimit` says what comes of it for whole pages.
-/

namespace Stencil.Grammar

variable {α β : Type}

/-! ## Readers that make no error about depth -/

theorem tooDeepIn_append (es fs : List SyntaxError) :
    tooDeepIn (es ++ fs) = tooDeepIn es + tooDeepIn fs :=
  List.countP_append

/-- An error that is not about depth does not count. -/
theorem tooDeepIn_append_one {e : SyntaxError} (h : ¬ IsTooDeep e) (es : List SyntaxError) :
    tooDeepIn (es ++ [e]) = tooDeepIn es := by
  rw [tooDeepIn_append, tooDeepIn, tooDeepIn, List.countP_singleton, decide_eq_false h]
  rfl

/-- How many syntax errors about depth there are: those reported, and the one that stopped. -/
def tooDeepOf : EStateM.Result Stop Cursor α → Nat
  | .ok _ c => tooDeepIn c.reported
  | .error (.malformed e) c => tooDeepIn (c.reported ++ [e])
  | .error (.fault _) c => tooDeepIn c.reported

/-- A reader that adds no error about depth. -/
def Shallow (r : Reader α) : Prop := ∀ c, tooDeepOf (r c) = tooDeepIn c.reported

namespace Shallow

protected theorem pure (a : α) : Shallow (pure a : Reader α) := fun _ => rfl

protected theorem bind {r : Reader α} {f : α → Reader β} (hr : Shallow r)
    (hf : ∀ a, Shallow (f a)) : Shallow (r >>= f) := by
  intro c
  have h := hr c
  cases hrun : r c with
  | ok a d =>
    rw [hrun] at h
    rw [bind_of_ok hrun]
    exact (hf a d).trans h
  | error x d =>
    rw [hrun] at h
    rw [bind_of_error hrun]
    cases x <;> exact h

theorem get : Shallow (get : Reader Cursor) := fun _ => rfl

theorem current : Shallow current := get.bind fun _ => .pure _

theorem following : Shallow following := by
  refine get.bind fun c => ?_
  split <;> exact .pure _

/-- To advance is to report nothing. -/
theorem advance : Shallow advance := by
  intro c
  cases hr : c.rest with
  | nil => simp only [Grammar.advance, bind_run, get_run, hr, pure_run, tooDeepOf]
  | cons t us =>
    by_cases ht : t.kind = .eof
    · simp [Grammar.advance, bind_run, get_run, hr, ht, pure_run, tooDeepOf]
    · rw [advance_run hr ht]
      rfl

theorem throw (p : Problem) (h : p.IsShallow) (t : Token) :
    Shallow (throw (.malformed (p.at t)) : Reader α) :=
  fun c => tooDeepIn_append_one (not_isTooDeep h t) c.reported

theorem fail (p : Problem) (h : p.IsShallow) : Shallow (fail p : Reader α) :=
  current.bind fun t => throw p h t

theorem expect (kind : TokenKind) (p : Problem) (h : p.IsShallow) : Shallow (expect kind p) := by
  refine current.bind fun t => ?_
  split
  · exact advance
  · exact fail p h

theorem report (p : Problem) (h : p.IsShallow) (t : Token) : Shallow (report (p.at t)) :=
  fun c => tooDeepIn_append_one (not_isTooDeep h t) c.reported

theorem spanFrom (o : Options) (start : Token) : Shallow (spanFrom o start) :=
  get.bind fun _ => .pure _

theorem numberOf (t : Token) : Shallow (numberOf t) := by
  unfold Grammar.numberOf
  split
  · exact .pure _
  · exact fun _ => rfl

theorem readWord (o : Options) (t : Token) : Shallow (readWord o t) := by
  unfold Grammar.readWord
  split
  · exact advance.bind fun _ => (spanFrom o t).bind fun _ => .pure _
  · split
    · exact fail (.keywordInExpression _) trivial
    · exact advance.bind fun _ => (spanFrom o t).bind fun _ => .pure _

theorem readArgument (o : Options) (t : Token) : Shallow (readArgument o t) := by
  refine advance.bind fun _ => (spanFrom o t).bind fun span => ?_
  split
  · exact .pure _
  · exact (numberOf t).bind fun _ => .pure _

theorem readStatementEnd : Shallow readStatementEnd := by
  refine current.bind fun t => ?_
  have hend : Shallow (do
      if t.kind == .newline || t.kind == .semicolon then
        let _ ← Grammar.advance : Reader Unit) := by
    split
    · exact advance.bind fun _ => .pure _
    · exact .pure _
  dsimp only
  split
  · exact (fail (.expectedEnd _) trivial).bind fun _ => hend
  · exact hend

theorem readName (role : NameRole) : Shallow (readName role) := by
  refine (expect _ (.expectedName role) trivial).bind fun t => ?_
  dsimp only
  split
  · exact (throw (.reserved _ _) trivial t).bind fun _ => .pure _
  · exact .pure _

theorem readBlockEnd (keyword : String) (start : Token) :
    Shallow (readBlockEnd keyword start) := by
  refine current.bind fun t => ?_
  have hend : Shallow (do let _ ← Grammar.advance; Grammar.readStatementEnd) :=
    advance.bind fun _ => readStatementEnd
  dsimp only
  split
  · exact (fail (.missingEnd _ _) trivial).bind fun _ => hend
  · exact hend

theorem skipStatement (fuel : Nat) : Shallow (skipStatement fuel) := by
  induction fuel with
  | zero => exact .pure _
  | succ fuel ih =>
    refine current.bind fun t => ?_
    split
    · exact advance.bind fun _ => ih
    · exact .pure _

end Shallow

/-! ## Marks that keep to the limit -/

/-- The deepest level that may be open. -/
def Options.deepest (o : Options) : Nat := o.depthLimit.toNat

/-- Statements begin where no level is open, no more than one level beyond the limit is tried, and
where it is not only tried the limit is kept. -/
def Mark.Keeps (limit : Nat) : Mark → Prop
  | .begins depth => depth = 0
  | .enters depth => 1 ≤ depth ∧ depth ≤ limit + 1
  | .steps depth => depth ≤ limit

/-- A try to open a level beyond the limit. -/
def Mark.isRefused (limit : Nat) : Mark → Bool
  | .enters depth => depth == limit + 1
  | _ => false

/-- How often a level beyond the limit was to be opened. -/
def refusals (limit : Nat) (marks : List Mark) : Nat := marks.countP (·.isRefused limit)

theorem refusals_append (limit : Nat) (ms ns : List Mark) :
    refusals limit (ms ++ ns) = refusals limit ms + refusals limit ns :=
  List.countP_append

theorem refusals_eq_zero {limit : Nat} {marks : List Mark} :
    refusals limit marks = 0 ↔ .enters (limit + 1) ∉ marks := by
  rw [refusals, List.countP_eq_zero]
  constructor
  · intro h hm
    exact h _ hm (beq_self_eq_true _)
  · intro h m hm hr
    cases m with
    | enters depth => exact h (eq_of_beq hr ▸ hm)
    | begins | steps => cases hr

/-! ## A counted reader beside a plain one -/

/-- What is known of the marks `more` of a counted reading from `c` that came to `x`, where a plain
one came to `y`. -/
structure Tally (o : Options) (limit : Int) (c : Cursor) (more : List Mark)
    (x y : EStateM.Result Stop Cursor α) : Prop where
  keeps : ∀ m ∈ more, m.Keeps o.deepest
  counted : tooDeepOf x = tooDeepIn c.reported + refusals o.deepest more
  same : limit = o.depthLimit ∨ refusals o.deepest more = 0 → y = x

/-- A counted reader that puts the counter back, beside a plain one. -/
def Counts (o : Options) (limit : Int) (depth : Nat) (k : Counted α) (r : Reader α) : Prop :=
  ∀ c marks, ∃ x more,
    k ⟨c, depth, marks⟩ = gauged depth (marks ++ more) x ∧ Tally o limit c more x (r c)

namespace Counts

variable {o : Options} {limit : Int} {depth : Nat}

protected theorem pure (a : α) : Counts o limit depth (pure a) (pure a) := fun c marks =>
  ⟨.ok a c, [], by rw [List.append_nil]; rfl, nofun, rfl, fun _ => rfl⟩

/-- What opens no level makes no error about depth. -/
theorem step (hd : depth ≤ o.deepest) {r : Reader α} (h : Shallow r) :
    Counts o limit depth (Counted.step r) r := fun c _ =>
  ⟨r c, [.steps depth], rfl, fun _ hm => List.mem_singleton.mp hm ▸ hd, h c, fun _ => rfl⟩

protected theorem get {k : Gauge → Counted α} {r : Cursor → Reader α}
    (h : ∀ g, Counts o limit depth (k g) (r g.cursor)) :
    Counts o limit depth (get >>= k) (get >>= r) := fun c marks => h ⟨c, depth, marks⟩ c marks

/-- A sequence: marks are made one part behind the other, and so are errors. -/
protected theorem bind {k : Counted α} {r : Reader α} {f : α → Counted β} {q : α → Reader β}
    (h : Counts o limit depth k r) (hf : ∀ a, Counts o limit depth (f a) (q a)) :
    Counts o limit depth (k >>= f) (r >>= q) := by
  intro c marks
  obtain ⟨x, more, hk, ht⟩ := h c marks
  cases x with
  | error e d =>
    refine ⟨.error e d, more, bind_of_error hk, ht.keeps, ?_, fun hs => bind_of_error (ht.same hs)⟩
    rw [← ht.counted]
    cases e <;> rfl
  | ok a d =>
    obtain ⟨y, more', hy, ht'⟩ := hf a d (marks ++ more)
    refine ⟨y, more ++ more', ?_, ?_, ?_, ?_⟩
    · rw [bind_of_ok hk, hy, List.append_assoc]
    · intro m hm
      exact (List.mem_append.mp hm).elim (ht.keeps m) (ht'.keeps m)
    · have hd : tooDeepIn d.reported = _ := ht.counted
      rw [ht'.counted, hd, refusals_append, Nat.add_assoc]
    · intro hs
      rw [refusals_append, Nat.add_eq_zero_iff] at hs
      rw [bind_of_ok (ht.same (hs.imp_right And.left))]
      exact ht'.same (hs.imp_right And.right)

/-- A choice that both make alike. -/
protected theorem ite {p : Prop} [Decidable p] {k l : Counted α} {r q : Reader α}
    (ht : Counts o limit depth k r) (he : Counts o limit depth l q) :
    Counts o limit depth (if p then k else l) (if p then r else q) := by
  split
  · exact ht
  · exact he

theorem closing_run {k : Counted α} {g : Gauge} {marks : List Mark}
    {x : EStateM.Result Stop Cursor α} (h : k g = gauged (depth + 1) marks x) :
    Counted.closing k g = gauged depth marks x := by
  rw [Counted.closing, h]
  cases x <;> rfl

theorem descend_run (o : Options) (k : Counted α) (c : Cursor) (depth : Nat) (marks : List Mark) :
    Counted.descend o k ⟨c, depth, marks⟩ =
      Counted.closing
        (if o.depthLimit < (depth + 1 : Nat) then
          throw (.malformed ((Problem.tooDeep o.depthLimit).at c.current))
        else k) ⟨c, depth + 1, marks ++ [.enters (depth + 1)]⟩ := rfl

/-- A level that the limit allows. -/
theorem descend (hd : depth < o.deepest) {k : Counted α} {r : Reader α}
    (h : Counts o limit (depth + 1) k r) : Counts o limit depth (Counted.descend o k) r := by
  intro c marks
  obtain ⟨x, more, hk, ht⟩ := h c (marks ++ [.enters (depth + 1)])
  have hopen : ¬ o.depthLimit < (depth + 1 : Nat) := by
    rw [Options.deepest] at hd
    omega
  have hzero : refusals o.deepest [.enters (depth + 1)] = 0 :=
    refusals_eq_zero.mpr fun hm => by
      injection List.mem_singleton.mp hm
      omega
  refine ⟨x, .enters (depth + 1) :: more, ?_, ?_, ?_, ?_⟩
  · rw [descend_run, if_neg hopen, closing_run hk, List.append_assoc]
    rfl
  · intro m hm
    obtain rfl | hm := List.mem_cons.mp hm
    · exact ⟨Nat.le_add_left 1 depth, Nat.succ_le_succ (Nat.le_of_lt hd)⟩
    · exact ht.keeps m hm
  · rw [ht.counted, ← List.singleton_append, refusals_append, hzero, Nat.zero_add]
  · rw [← List.singleton_append, refusals_append, hzero, Nat.zero_add]
    exact ht.same

/-- A level beyond the limit: refused, with one error about depth. -/
theorem refused (hd : depth = o.deepest) {k : Counted α} {r : Reader α}
    (h : limit = o.depthLimit → r = fail (.tooDeep o.depthLimit)) :
    Counts o limit depth (Counted.descend o k) r := by
  intro c marks
  subst hd
  have hover : o.depthLimit < (o.deepest + 1 : Nat) := by
    rw [Options.deepest]
    omega
  have hone : refusals o.deepest [.enters (o.deepest + 1)] = 1 := by
    simp [refusals, Mark.isRefused]
  have hdeep : tooDeepIn [(Problem.tooDeep o.depthLimit).at c.current] = 1 := by
    rw [tooDeepIn, List.countP_singleton, decide_eq_true (isTooDeep_iff.mpr rfl), if_pos rfl]
  refine ⟨.error (.malformed ((Problem.tooDeep o.depthLimit).at c.current)) c,
    [.enters (o.deepest + 1)], ?_, ?_, ?_, ?_⟩
  · rw [descend_run, if_pos hover]
    rfl
  · exact fun m hm => List.mem_singleton.mp hm ▸ ⟨Nat.le_add_left 1 _, Nat.le_refl _⟩
  · rw [hone, tooDeepOf, tooDeepIn_append, hdeep]
  · rintro (hs | hs)
    · rw [h hs, fail_run]
    · exact absurd hs (by rw [hone]; exact Nat.one_ne_zero)

/-! ### Expressions -/

theorem current (hd : depth ≤ o.deepest) :
    Counts o limit depth (Counted.step Grammar.current) Grammar.current :=
  step hd .current

theorem advance (hd : depth ≤ o.deepest) :
    Counts o limit depth (Counted.step Grammar.advance) Grammar.advance :=
  step hd .advance

theorem spanFrom (hd : depth ≤ o.deepest) (start : Token) :
    Counts o limit depth (Counted.step (Grammar.spanFrom o start))
      (Grammar.spanFrom { o with depthLimit := limit } start) :=
  step hd (.spanFrom o start)

section Expressions

variable (hd : depth ≤ o.deepest)

include hd

theorem chainFrom {start : Token} {sign? : Token → Option α} {combine : Span → α → Node → Node → Node}
    {operand : Counted Node} {operand' : Reader Node} (h : Counts o limit depth operand operand')
    (fuel : Nat) (left : Node) :
    Counts o limit depth (Counted.chainFrom o start sign? operand combine fuel left)
      (Grammar.chainFrom { o with depthLimit := limit } start sign? operand' combine fuel left) := by
  induction fuel generalizing left with
  | zero => exact .pure _
  | succ fuel ih =>
    refine (current hd).bind fun t => ?_
    cases sign? t with
    | none => exact .pure _
    | some sign =>
      exact (advance hd).bind fun _ => h.bind fun _ => (spanFrom hd start).bind fun _ => ih _

theorem chain {sign? : Token → Option α} {combine : Span → α → Node → Node → Node}
    {operand : Counted Node} {operand' : Reader Node} (h : Counts o limit depth operand operand') :
    Counts o limit depth (Counted.chain o sign? operand combine)
      (Grammar.chain { o with depthLimit := limit } sign? operand' combine) :=
  (current hd).bind fun _ => h.bind fun left => .get fun _ => chainFrom hd h _ left

variable {inner : Entry → Counted Node} {inner' : Inner}
  (hi : ∀ entry, Counts o limit depth (inner entry) (inner' entry))

include hi

theorem readItems (closing : Closing) (fuel : Nat) :
    Counts o limit depth (Counted.readItems inner closing fuel)
      (Grammar.readItems inner' closing fuel) := by
  induction fuel with
  | zero => exact .pure _
  | succ fuel ih =>
    exact (hi _).bind fun _ => (current hd).bind fun _ =>
      .ite ((advance hd).bind fun _ => ih.bind fun _ => .pure _)
        ((step hd (.expect _ (.expectedSeparator _) trivial)).bind fun _ => .pure _)

theorem readSequence (closing : Closing) :
    Counts o limit depth (Counted.readSequence inner closing)
      (Grammar.readSequence inner' closing) :=
  (current hd).bind fun _ =>
    .ite ((advance hd).bind fun _ => .pure _) (.get fun _ => readItems hd hi closing _)

theorem readPrimary :
    Counts o limit depth (Counted.readPrimary o inner)
      (Grammar.readPrimary { o with depthLimit := limit } inner') := by
  refine (current hd).bind fun t => ?_
  have hconst (v : Value) : Counts o limit depth
      (do
        let _ ← Counted.step Grammar.advance
        return Node.const (← Counted.step (Grammar.spanFrom o t)) v)
      (do
        let _ ← Grammar.advance
        return Node.const (← Grammar.spanFrom { o with depthLimit := limit } t) v) :=
    (advance hd).bind fun _ => (spanFrom hd t).bind fun _ => .pure _
  cases t.kind with
  | integer =>
    exact (advance hd).bind fun _ => (spanFrom hd t).bind fun _ =>
      (step hd (.numberOf t)).bind fun _ => .pure _
  | float => exact hconst _
  | string => exact hconst _
  | argument => exact step hd (.readArgument o t)
  | identifier => exact step hd (.readWord o t)
  | lparen =>
    exact (advance hd).bind fun _ => (hi _).bind fun _ =>
      (step hd (.expect _ (.expectedClosing _) trivial)).bind fun _ => .pure _
  | lbracket =>
    exact (advance hd).bind fun _ => (readSequence hd hi _).bind fun _ =>
      (spanFrom hd t).bind fun _ => .pure _
  | codeExit | eof | newline => exact step hd (.fail .statementOver trivial)
  | _ => exact step hd (.fail (.unexpected _) trivial)

theorem readSuffixes (start : Token) (fuel : Nat) (e : Node) :
    Counts o limit depth (Counted.readSuffixes o inner start fuel e)
      (Grammar.readSuffixes { o with depthLimit := limit } inner' start fuel e) := by
  induction fuel generalizing e with
  | zero => exact .pure _
  | succ fuel ih =>
    refine (current hd).bind fun t => ?_
    cases t.kind with
    | dot =>
      exact (advance hd).bind fun _ => (step hd (.expect _ .expectedMember trivial)).bind fun _ =>
        (spanFrom hd start).bind fun _ => ih _
    | lbracket =>
      exact (advance hd).bind fun _ => (hi _).bind fun _ =>
        (step hd (.expect _ (.expectedClosing _) trivial)).bind fun _ =>
          (spanFrom hd start).bind fun _ => ih _
    | lparen =>
      exact (advance hd).bind fun _ => (readSequence hd hi _).bind fun _ =>
        (spanFrom hd start).bind fun _ => ih _
    | _ => exact .pure _

theorem readPostfix :
    Counts o limit depth (Counted.readPostfix o inner)
      (Grammar.readPostfix { o with depthLimit := limit } inner') :=
  (current hd).bind fun start => (readPrimary hd hi).bind fun e =>
    .get fun _ => readSuffixes hd hi start _ e

theorem readSign :
    Counts o limit depth (Counted.readSign o inner)
      (Grammar.readSign { o with depthLimit := limit } inner') :=
  (current hd).bind fun start =>
    .ite ((advance hd).bind fun _ => (hi _).bind fun _ => (spanFrom hd start).bind fun _ => .pure _)
      (readPostfix hd hi)

theorem readSum :
    Counts o limit depth (Counted.readSum o inner)
      (Grammar.readSum { o with depthLimit := limit } inner') :=
  chain hd (chain hd (readSign hd hi))

theorem readComparison :
    Counts o limit depth (Counted.readComparison o inner)
      (Grammar.readComparison { o with depthLimit := limit } inner') := by
  refine (current hd).bind fun start => (readSum hd hi).bind fun _ => (current hd).bind fun t => ?_
  cases comparison? t with
  | none => exact .pure _
  | some op =>
    exact (advance hd).bind fun _ => (readSum hd hi).bind fun _ =>
      (spanFrom hd start).bind fun _ => .pure _

theorem readNegation :
    Counts o limit depth (Counted.readNegation o inner)
      (Grammar.readNegation { o with depthLimit := limit } inner') :=
  (current hd).bind fun start =>
    .ite ((advance hd).bind fun _ => (hi _).bind fun _ => (spanFrom hd start).bind fun _ => .pure _)
      (readComparison hd hi)

theorem readOr :
    Counts o limit depth (Counted.readOr o inner)
      (Grammar.readOr { o with depthLimit := limit } inner') :=
  chain hd (chain hd (readNegation hd hi))

end Expressions

/-- Levels, by induction on how many may still be opened: the last try is refused. -/
theorem readLevel (hl : o.depthLimit ≤ limit) (levels : Nat) (hd : depth + levels = o.deepest)
    (entry : Entry) :
    Counts o limit depth (Counted.readLevel o (levels + 1) entry)
      (Grammar.readLevel { o with depthLimit := limit } (limit.toNat - depth) entry) := by
  induction levels generalizing depth entry with
  | zero =>
    have hover : limit = o.depthLimit →
        Grammar.readLevel { o with depthLimit := limit } (limit.toNat - depth) entry =
          fail (.tooDeep o.depthLimit) := by
      rintro rfl
      rw [show o.depthLimit.toNat - depth = 0 from Nat.sub_eq_zero_of_le (Nat.le_of_eq hd.symm)]
      rfl
    cases entry <;> exact refused hd hover
  | succ levels ih =>
    have hlt : depth < o.deepest := by omega
    have hto : limit.toNat - depth = limit.toNat - (depth + 1) + 1 := by
      have hle : o.deepest ≤ limit.toNat := Int.toNat_le_toNat hl
      omega
    have hi (entry : Entry) : Counts o limit (depth + 1) (Counted.readLevel o (levels + 1) entry)
        (Grammar.readLevel { o with depthLimit := limit } (limit.toNat - (depth + 1)) entry) :=
      ih (by omega) entry
    rw [hto]
    cases entry with
    | expression => exact descend hlt (readOr hlt hi)
    | negation => exact descend hlt (readNegation hlt hi)
    | sign => exact descend hlt (readSign hlt hi)

theorem readExpression (hl : o.depthLimit ≤ limit) :
    Counts o limit 0 (Counted.readExpression o)
      (Grammar.readExpression { o with depthLimit := limit }) :=
  readLevel hl o.deepest (Nat.zero_add _) .expression

/-! ### Statements -/

section Statements

variable (hl : o.depthLimit ≤ limit)
  {statements : Counted (List Node)} {statements' : Reader (List Node)}
  (hs : Counts o limit 0 statements statements')

include hl hs

omit hl in
theorem readBody :
    Counts o limit 0 (Counted.readBody o statements)
      (Grammar.readBody { o with depthLimit := limit } statements') :=
  (current (Nat.zero_le _)).bind fun start => hs.bind fun _ =>
    (spanFrom (Nat.zero_le _) start).bind fun _ => .pure _

omit hl hs in
theorem readStatementEnd :
    Counts o limit 0 (Counted.step Grammar.readStatementEnd) Grammar.readStatementEnd :=
  step (Nat.zero_le _) .readStatementEnd

omit hs in
theorem readAssignment :
    Counts o limit 0 (Counted.readAssignment o)
      (Grammar.readAssignment { o with depthLimit := limit }) :=
  (current (Nat.zero_le _)).bind fun start => (step (Nat.zero_le _) (.readName _)).bind fun _ =>
    (advance (Nat.zero_le _)).bind fun _ => (readExpression hl).bind fun _ =>
      (spanFrom (Nat.zero_le _) start).bind fun _ => readStatementEnd.bind fun _ => .pure _

theorem readBranch (fuel : Nat) :
    Counts o limit 0 (Counted.readBranch o statements fuel)
      (Grammar.readBranch { o with depthLimit := limit } statements' fuel) := by
  induction fuel with
  | zero => exact .pure _
  | succ fuel ih =>
    have hspan (start : Token) (f : Span → Node) : Counts o limit 0
        (do return f (← Counted.step (Grammar.spanFrom o start)))
        (do return f (← Grammar.spanFrom { o with depthLimit := limit } start)) :=
      (spanFrom (Nat.zero_le _) start).bind fun _ => .pure _
    have hend (start : Token) : Counts o limit 0
        (Counted.step (Grammar.readBlockEnd "if" start)) (Grammar.readBlockEnd "if" start) :=
      step (Nat.zero_le _) (.readBlockEnd _ _)
    refine (advance (Nat.zero_le _)).bind fun start => (readExpression hl).bind fun test =>
      readStatementEnd.bind fun _ => (readBody hs).bind fun body =>
        (current (Nat.zero_le _)).bind fun t => .ite ?otherwise ?plain
    case plain => exact (hend start).bind fun _ => hspan start _
    case otherwise =>
      refine (advance (Nat.zero_le _)).bind fun _ => (current (Nat.zero_le _)).bind fun u =>
        .ite (ih.bind fun _ => hspan start _) ?_
      exact readStatementEnd.bind fun _ => (readBody hs).bind fun _ =>
        (hend start).bind fun _ => hspan start _

theorem readLoop :
    Counts o limit 0 (Counted.readLoop o statements)
      (Grammar.readLoop { o with depthLimit := limit } statements') := by
  refine (advance (Nat.zero_le _)).bind fun start =>
    (step (Nat.zero_le _) (.readName _)).bind fun target => (current (Nat.zero_le _)).bind fun t => ?_
  have hrest : Counts o limit 0
      (do
        let _ ← Counted.step Grammar.advance
        let source ← Counted.readExpression o
        Counted.step Grammar.readStatementEnd
        let body ← Counted.readBody o statements
        Counted.step (Grammar.readBlockEnd "for" start)
        return Node.loop (← Counted.step (Grammar.spanFrom o start)) target source body)
      (do
        let _ ← Grammar.advance
        let source ← Grammar.readExpression { o with depthLimit := limit }
        Grammar.readStatementEnd
        let body ← Grammar.readBody { o with depthLimit := limit } statements'
        Grammar.readBlockEnd "for" start
        return Node.loop (← Grammar.spanFrom { o with depthLimit := limit } start) target source body) :=
    (advance (Nat.zero_le _)).bind fun _ => (readExpression hl).bind fun _ =>
      readStatementEnd.bind fun _ => (readBody hs).bind fun _ =>
        (step (Nat.zero_le _) (.readBlockEnd _ _)).bind fun _ =>
          (spanFrom (Nat.zero_le _) start).bind fun _ => .pure _
  exact .ite ((step (Nat.zero_le _) (.fail .expectedIn trivial)).bind fun _ => hrest) hrest

omit hs in
theorem readExpressionStatement :
    Counts o limit 0 (Counted.readExpressionStatement o)
      (Grammar.readExpressionStatement { o with depthLimit := limit }) :=
  (current (Nat.zero_le _)).bind fun start => (readExpression hl).bind fun _ =>
    (spanFrom (Nat.zero_le _) start).bind fun _ => readStatementEnd.bind fun _ => .pure _

omit hl hs in
/-- A statement begins where no level is open. -/
theorem begins {k : Counted α} {r : Reader α} (h : Counts o limit 0 k r) :
    Counts o limit 0 (do Counted.mark .begins; k) r := by
  intro c marks
  obtain ⟨x, more, hk, ht⟩ := h c (marks ++ [.begins 0])
  have hzero : refusals o.deepest (.begins 0 :: more) = refusals o.deepest more :=
    List.countP_cons_of_neg nofun
  refine ⟨x, .begins 0 :: more, ?_, ?_, ?_, ?_⟩
  · rw [← List.singleton_append, ← List.append_assoc]
    exact hk
  · intro m hm
    obtain rfl | hm := List.mem_cons.mp hm
    · exact (rfl : 0 = 0)
    · exact ht.keeps m hm
  · rw [ht.counted, hzero]
  · rw [hzero]
    exact ht.same

theorem readStatement :
    Counts o limit 0 (Counted.readStatement o statements)
      (Grammar.readStatement { o with depthLimit := limit } statements') :=
  begins ((current (Nat.zero_le _)).bind fun _ => .ite (.get fun _ => readBranch hl hs _)
    (.ite (readLoop hl hs) ((step (Nat.zero_le _) .following).bind fun _ =>
      .ite (readAssignment hl) (readExpressionStatement hl))))

omit hl hs in
/-- The error that stopped a statement is reported, and nothing else. -/
theorem tooDeepOf_skipBehind (e : SyntaxError) (d : Cursor) :
    tooDeepOf (skipBehind e d) = tooDeepIn (d.reported ++ [e]) := by
  have hskip : Shallow (do skipStatement (← get).rest.length; return (none : Option Node)) :=
    Shallow.get.bind fun _ => (Shallow.skipStatement _).bind fun _ => .pure _
  rw [skipBehind, bind_of_ok (report_run e d)]
  exact hskip _

/-- A statement that stops is behind its marks; the error in it is reported before it is skipped. -/
theorem readOrSkip :
    Counts o limit 0 (Counted.readOrSkip o statements)
      (Grammar.readOrSkip { o with depthLimit := limit } statements') := by
  intro c marks
  obtain ⟨x, more, hk, ht⟩ := readStatement hl hs c marks
  rw [readOrSkip_run]
  unfold Counted.readOrSkip
  rw [hk]
  cases x with
  | ok n d =>
    exact ⟨.ok (some n) d, more, rfl, ht.keeps, ht.counted, fun hsame => by rw [ht.same hsame]⟩
  | error x d =>
    cases x with
    | fault e =>
      exact ⟨.error (.fault e) d, more, rfl, ht.keeps, ht.counted, fun hsame => by rw [ht.same hsame]⟩
    | malformed e =>
      have hzero : refusals o.deepest (more ++ [.steps 0]) = refusals o.deepest more := by
        rw [refusals_append]
        rfl
      refine ⟨skipBehind e d, more ++ [.steps 0], ?_, ?_, ?_, ?_⟩
      · rw [← List.append_assoc]
        rfl
      · intro m hm
        obtain hm | hm := List.mem_append.mp hm
        · exact ht.keeps m hm
        · exact List.mem_singleton.mp hm ▸ Nat.zero_le _
      · rw [tooDeepOf_skipBehind, hzero]
        exact ht.counted
      · intro hsame
        rw [ht.same (hzero ▸ hsame)]
        rfl

end Statements

variable (hl : o.depthLimit ≤ limit)

include hl

theorem readStatements (fuel : Nat) :
    Counts o limit 0 (Counted.readStatements o fuel)
      (Grammar.readStatements { o with depthLimit := limit } fuel) := by
  induction fuel with
  | zero => exact .pure _
  | succ fuel ih =>
    refine (current (Nat.zero_le _)).bind fun t => .ite (.pure _) (.ite ?_ (.ite ?_ ?_))
    · exact (advance (Nat.zero_le _)).bind fun _ => ih
    · exact (advance (Nat.zero_le _)).bind fun _ => (spanFrom (Nat.zero_le _) t).bind fun _ =>
        ih.bind fun _ => .pure _
    · exact (readOrSkip hl ih).bind fun _ => ih.bind fun _ => .pure _

theorem readSectionBody (fuel : Nat) :
    Counts o limit 0 (Counted.readSectionBody o fuel)
      (Grammar.readSectionBody { o with depthLimit := limit } fuel) := by
  induction fuel with
  | zero => exact .pure _
  | succ fuel ih =>
    refine .get fun _ => (readStatements hl _).bind fun _ => (current (Nat.zero_le _)).bind fun t =>
      .ite (.pure _) ?_
    exact (step (Nat.zero_le _) (.report (.unmatched _) trivial t)).bind fun _ =>
      (advance (Nat.zero_le _)).bind fun _ => ih.bind fun _ => .pure _

theorem readSection :
    Counts o limit 0 (Counted.readSection o)
      (Grammar.readSection { o with depthLimit := limit }) :=
  (current (Nat.zero_le _)).bind fun start => .get fun _ => (readSectionBody hl _).bind fun _ =>
    (spanFrom (Nat.zero_le _) start).bind fun _ => .pure _

theorem readPage :
    Counts o limit 0 (Counted.readPage o)
      (Grammar.readPage { o with depthLimit := limit }) := by
  have hspan (start : Token) (f : Span → Page) : Counts o limit 0
      (do return f (← Counted.step (Grammar.spanFrom o start)))
      (do return f (← Grammar.spanFrom { o with depthLimit := limit } start)) :=
    (spanFrom (Nat.zero_le _) start).bind fun _ => .pure _
  refine (current (Nat.zero_le _)).bind fun start => .ite ?_
    ((readSection hl).bind fun _ => hspan start _)
  refine (advance (Nat.zero_le _)).bind fun _ => (readSection hl).bind fun front =>
    (current (Nat.zero_le _)).bind fun t => ?_
  exact .ite ((advance (Nat.zero_le _)).bind fun _ => (readSection hl).bind fun _ => hspan start _)
    ((readSection hl).bind fun _ => hspan start _)

end Counts

/-! ## Pages -/

/-- The marks of a counted reading, and what it came to. -/
theorem gauged_inj {depth : Nat} {ms ns : List Mark} {x y : EStateM.Result Stop Cursor α}
    (h : gauged depth ms x = gauged depth ns y) : ms = ns ∧ x = y := by
  cases x <;> cases y <;> simp only [gauged, EStateM.Result.ok.injEq, EStateM.Result.error.injEq,
    Gauge.mk.injEq, reduceCtorEq] at h <;> grind

/-- The errors about depth in a template are all reported: none stops the reading of it. -/
theorem tooDeepOf_readPage (o : Options) (c : Cursor) :
    tooDeepOf (readPage o c) = tooDeepIn (after (readPage o) c).reported := by
  cases hr : readPage o c with
  | ok page d => rw [after_of_ok hr, tooDeepOf]
  | error x d =>
    cases x with
    | fault e => rw [after_of_error hr, tooDeepOf]
    | malformed e => exact absurd hr (Settles.readPage o c e d)

theorem tooDeepIn_eq_zero {es : List SyntaxError} :
    tooDeepIn es = 0 ↔ ∀ e ∈ es, ¬ IsTooDeep e := by
  simp [tooDeepIn, List.countP_eq_zero]

/-- What the counter is on the way through a template. -/
def levelsOf (o : Options) (tokens : List Token) : List Mark :=
  (after (Counted.readPage o) { cursor := { rest := tokens } }).marks

/-- A counted reading of a template, beside one with a higher limit. -/
theorem levelsOf_tally {o : Options} {limit : Int} (hl : o.depthLimit ≤ limit) (tokens : List Token) :
    Counted.readPage o { cursor := { rest := tokens } } =
        gauged 0 (levelsOf o tokens) (readPage o { rest := tokens }) ∧
      Tally o limit { rest := tokens } (levelsOf o tokens) (readPage o { rest := tokens })
        (readPage { o with depthLimit := limit } { rest := tokens }) := by
  obtain ⟨x, more, hk, ht⟩ := Counts.readPage (Int.le_refl o.depthLimit) { rest := tokens } []
  obtain rfl : readPage o { rest := tokens } = x := ht.same (.inl rfl)
  have hmore : levelsOf o tokens = more := by
    rw [levelsOf, after, hk]
    cases readPage o { rest := tokens } <;> rfl
  obtain ⟨y, more', hk', ht'⟩ := Counts.readPage hl { rest := tokens } []
  obtain ⟨hm, rfl⟩ := gauged_inj (hk.symm.trans hk')
  obtain rfl : more = more' := hm
  rw [hmore]
  exact ⟨hk, ht'⟩

/-- The limit, for whole templates: the counter is at no level where a statement begins and at the
end; it is never above the limit where it is not only tried to open one more level; there is a
syntax error about depth exactly where that is tried; and where there is none, a higher limit
changes nothing. -/
theorem page_depthLimit (o : Options) (tokens : List Token) :
    Counted.readPage o { cursor := { rest := tokens } } =
        gauged 0 (levelsOf o tokens) (readPage o { rest := tokens }) ∧
      (∀ depth : Nat, .steps depth ∈ levelsOf o tokens → depth = 0 ∨ depth ≤ o.depthLimit) ∧
      (∀ depth, .begins depth ∈ levelsOf o tokens → depth = 0) ∧
      (∀ depth, .enters depth ∈ levelsOf o tokens →
        1 ≤ depth ∧ depth ≤ o.depthLimit.toNat + 1) ∧
      ((∃ e ∈ (after (readPage o) { rest := tokens }).reported, IsTooDeep e) ↔
        .enters (o.depthLimit.toNat + 1) ∈ levelsOf o tokens) ∧
      ∀ limit, o.depthLimit ≤ limit →
        (∀ e ∈ (after (readPage o) { rest := tokens }).reported, ¬ IsTooDeep e) →
        readPage { o with depthLimit := limit } { rest := tokens } = readPage o { rest := tokens } ∧
          pageOf { o with depthLimit := limit } tokens = pageOf o tokens := by
  obtain ⟨hrun, ht⟩ := levelsOf_tally (Int.le_refl o.depthLimit) tokens
  have hcount : tooDeepIn (after (readPage o) { rest := tokens }).reported =
      refusals o.deepest (levelsOf o tokens) := by
    rw [← tooDeepOf_readPage, ht.counted]
    exact Nat.zero_add _
  have hzero : (∀ e ∈ (after (readPage o) { rest := tokens }).reported, ¬ IsTooDeep e) ↔
      .enters (o.deepest + 1) ∉ levelsOf o tokens := by
    rw [← tooDeepIn_eq_zero, hcount, refusals_eq_zero]
  refine ⟨hrun, fun depth hm => ?_, fun depth hm => ht.keeps _ hm, fun depth hm => ht.keeps _ hm,
    ?_, fun limit hl hnone => ?_⟩
  · have hle : depth ≤ o.depthLimit.toNat := ht.keeps _ hm
    omega
  · rw [← not_iff_not, not_exists]
    simpa only [not_and, Options.deepest] using hzero
  · have hsame := (levelsOf_tally hl tokens).2.same (.inr (refusals_eq_zero.mpr (hzero.mp hnone)))
    refine ⟨hsame, ?_⟩
    simp only [pageOf, EStateM.run, hsame]

/-- Three levels: the expression, `not`, and the sign. Two are not enough. -/
theorem page_depthLimit_three :
    let token (kind : TokenKind) (value : String) : Token := ⟨kind, value, .start, .start⟩
    let tokens := [token .codeEnter "", token .identifier "not", token .minus "-",
      token .identifier "x", token .codeExit "", token .eof ""]
    (∀ e ∈ (after (readPage { depthLimit := 3 }) { rest := tokens }).reported, ¬ IsTooDeep e) ∧
      pageOf { depthLimit := 64 } tokens = pageOf { depthLimit := 3 } tokens ∧
      ∃ e ∈ (after (readPage { depthLimit := 2 }) { rest := tokens }).reported, IsTooDeep e := by
  intro token tokens
  have hthree : ∀ e ∈ (after (readPage { depthLimit := 3 }) { rest := tokens }).reported,
      ¬ IsTooDeep e := by decide +kernel
  have hlimit := page_depthLimit { depthLimit := 3 } tokens
  have htwo := page_depthLimit { depthLimit := 2 } tokens
  exact ⟨hthree, (hlimit.2.2.2.2.2 64 (by decide) hthree).2,
    htwo.2.2.2.2.1.mpr (by decide +kernel)⟩

end Stencil.Grammar

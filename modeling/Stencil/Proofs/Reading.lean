import Stencil.Grammar.Statement
import Stencil.Proofs.Run

/-!
# How readers move

What the steps of a reader do to its cursor. All that readers do is to advance and
to report, so they move by every relation by which these two do (`Steps`); in
particular they only add to what was reported (`steps_extends`). A statement that is no
block is read without a report, by every relation by which one advances (`Advances`).
-/

namespace Stencil.Grammar

variable {α β : Type}

/-! ## Running the steps -/

/-- The cursor behind the token ahead. -/
def Cursor.behind (c : Cursor) (t : Token) (us : List Token) : Cursor :=
  { c with last := some t, rest := us }

/-- The range from a token to the token read last. -/
def Cursor.spanFrom (o : Options) (start : Token) (c : Cursor) : Span :=
  let stop := c.last.getD start
  let stop := if stop.start.before start.start then start else stop
  ⟨o.file, start.start, stop.stop⟩

theorem current_run (c : Cursor) : current c = .ok c.current c := rfl

theorem Cursor.current_of_rest {c : Cursor} {t : Token} {us : List Token} (h : c.rest = t :: us) :
    c.current = t := by
  rw [Cursor.current, h]
  rfl

/-- A token ahead that is not the end is one of those that are left. -/
theorem Cursor.rest_of_current {c : Cursor} (h : c.current.kind ≠ .eof) :
    ∃ us, c.rest = c.current :: us := by
  cases hr : c.rest with
  | nil => exact absurd (by rw [Cursor.current, hr]; rfl) h
  | cons t us => exact ⟨us, by rw [Cursor.current_of_rest hr]⟩

theorem following_run {c : Cursor} {t u : Token} {us : List Token} (h : c.rest = t :: u :: us) :
    following c = .ok u c := by
  simp only [following, bind_run, get_run, h, pure_run]

theorem following_total (c : Cursor) : ∃ u, following c = .ok u c := by
  rw [following, bind_of_ok (get_run c)]
  cases c.rest with
  | nil => exact ⟨_, rfl⟩
  | cons t us => cases us <;> exact ⟨_, rfl⟩

theorem advance_run {c : Cursor} {t : Token} {us : List Token} (h : c.rest = t :: us)
    (ht : t.kind ≠ .eof) : advance c = .ok t (c.behind t us) := by
  have hne : (t.kind != .eof) = true := by simpa using ht
  simp only [advance, bind_run, get_run, h, hne, if_true]
  rfl

/-- To advance is to stay at the end, or to go behind the token ahead. -/
theorem after_advance (c : Cursor) : after advance c = c ∨
    ∃ us, c.rest = c.current :: us ∧ c.current.kind ≠ .eof ∧ after advance c = c.behind c.current us := by
  by_cases hk : c.current.kind = .eof
  · refine .inl ?_
    cases hr : c.rest with
    | nil => simp only [after, advance, bind_run, get_run, hr, pure_run]
    | cons t us =>
      rw [Cursor.current_of_rest hr] at hk
      simp [after, advance, bind_run, get_run, hr, hk, pure_run]
  · obtain ⟨us, hr⟩ := Cursor.rest_of_current hk
    exact .inr ⟨us, hr, hk, after_of_ok (advance_run hr hk)⟩

theorem fail_run (problem : Problem) (c : Cursor) :
    (fail problem : Reader α) c = .error (.malformed (problem.at c.current)) c := rfl

theorem expect_run {c : Cursor} {t : Token} {us : List Token} (h : c.rest = t :: us)
    {kind : TokenKind} (hk : t.kind = kind) (hne : kind ≠ .eof) (problem : Problem) :
    expect kind problem c = .ok t (c.behind t us) := by
  have hkind : ((c.current).kind == kind) = true := by
    rw [Cursor.current_of_rest h]
    simpa using hk
  simp only [expect, bind_run, current_run, hkind, if_true]
  exact advance_run h (hk ▸ hne)

theorem spanFrom_run (o : Options) (start : Token) (c : Cursor) :
    spanFrom o start c = .ok (c.spanFrom o start) c := rfl

theorem report_run (e : SyntaxError) (c : Cursor) :
    report e c = .ok () { c with reported := c.reported ++ [e] } := rfl

/-- What becomes of a statement: a syntax error in it is reported and skipped. -/
theorem readOrSkip_run (o : Options) (statements : Reader (List Node)) (c : Cursor) :
    readOrSkip o statements c =
      match readStatement o statements c with
      | .ok n d => .ok (some n) d
      | .error (.malformed e) d =>
        (do
          report e
          skipStatement (← get).rest.length
          return none : Reader (Option Node)) d
      | .error (.fault e) d => .error (.fault e) d := by
  simp only [readOrSkip, tryCatch, tryCatchThe, MonadExceptOf.tryCatch, bind_run]
  delta EStateM.tryCatch
  simp only [bind_run]
  cases h : readStatement o statements c with
  | ok n d => rfl
  | error x d =>
    cases x with
    | fault e => rfl
    | malformed e =>
      have hd : EStateM.Backtrackable.restore d (EStateM.Backtrackable.save c) = d := rfl
      simp only [hd, bind_run, report_run, get_run]
      cases skipStatement d.rest.length { d with reported := d.reported ++ [e] } <;> rfl

/-- Reads what stands behind the body of a condition that began with `start`. -/
def readBranchTail (o : Options) (statements : Reader (List Node)) (fuel : Nat) (start : Token)
    (test body : Node) : Reader Node := do
  if (← current).isWord "else" then
    let _ ← advance
    if (← current).isWord "if" then
      let nested ← readBranch o statements fuel
      let otherwise :=
        match nested.span? with
        | some span => .block span [nested]
        | none => .absent
      return .branch (← spanFrom o start) test body otherwise
    else
      readStatementEnd
      let otherwise ← readBody o statements
      readBlockEnd "if" start
      return .branch (← spanFrom o start) test body otherwise
  else
    readBlockEnd "if" start
    return .branch (← spanFrom o start) test body .absent

theorem readBranch_succ (o : Options) (statements : Reader (List Node)) (fuel : Nat) :
    readBranch o statements (fuel + 1) = (do
      let start ← advance
      let test ← readExpression o
      readStatementEnd
      let body ← readBody o statements
      readBranchTail o statements fuel start test body) := rfl

/-- Reads an assignment up to its end. -/
def readAssigned (o : Options) : Reader Node := do
  let start ← current
  let target ← readName .target
  let _ ← advance
  let value ← readExpression o
  return .assign (← spanFrom o start) target value

/-- Reads an expression that stands alone, up to the end of the statement. -/
def readAlone (o : Options) : Reader Node := do
  let start ← current
  let e ← readExpression o
  return .expression (← spanFrom o start) e

/-- Reads a statement that is no loop and no chain of conditions, up to its end. -/
def readSimple (o : Options) : Reader Node := do
  let t ← current
  let u ← following
  if t.kind == .identifier && u.kind == .assign then readAssigned o else readAlone o

/-- Reads the end of a statement behind it. -/
def readEnded (r : Reader Node) : Reader Node := do
  let n ← r
  readStatementEnd
  return n

theorem readAssignment_eq (o : Options) : readAssignment o = readEnded (readAssigned o) := by
  simp only [readAssignment, readEnded, readAssigned, bind_assoc, pure_bind]

theorem readExpressionStatement_eq (o : Options) :
    readExpressionStatement o = readEnded (readAlone o) := by
  simp only [readExpressionStatement, readEnded, readAlone, bind_assoc, pure_bind]

/-- A statement is told by the token ahead and the one behind it. -/
theorem readStatement_eq (o : Options) (statements : Reader (List Node)) :
    readStatement o statements = (do
      let t ← current
      if t.isWord "if" then readBranch o statements (← get).rest.length
      else if t.isWord "for" then readLoop o statements
      else readEnded (readSimple o)) := by
  funext c
  obtain ⟨u, hu⟩ := following_total c
  have hsimple : readEnded (readSimple o) c =
      (if c.current.kind == .identifier && u.kind == .assign then readAssignment o
       else readExpressionStatement o) c := by
    rw [readEnded, readSimple, bind_assoc, bind_of_ok (current_run c), bind_assoc, bind_of_ok hu,
      readAssignment_eq, readExpressionStatement_eq]
    split <;> rfl
  rw [readStatement, bind_of_ok (current_run c), bind_of_ok (current_run c)]
  split
  · rfl
  split
  · rfl
  · rw [hsimple, bind_of_ok hu]

theorem readStatement_simple {o : Options} {c : Cursor} {statements : Reader (List Node)}
    (hif : c.current.isWord "if" = false) (hfor : c.current.isWord "for" = false) :
    readStatement o statements c = readEnded (readSimple o) c := by
  rw [readStatement_eq, bind_of_ok (current_run c), hif, hfor, if_neg Bool.false_ne_true,
    if_neg Bool.false_ne_true]

/-- Reads the body of a page that began with `start`. -/
def readPageBody (o : Options) (start : Token) (front : Node) : Reader Page := do
  let body ← readSection o
  return { span := ← spanFrom o start, body, frontMatter := front }

/-- Reads what stands behind the front matter of a page that began with `start`. -/
def readPageTail (o : Options) (start : Token) (front : Node) : Reader Page := do
  if (← current).kind == .frontMatterMarker then
    let _ ← advance
    readPageBody o start front
  else readPageBody o start front

theorem readPage_eq (o : Options) : readPage o = (do
    let start ← current
    if start.kind == .frontMatterMarker then
      let _ ← advance
      let front ← readSection o
      readPageTail o start front
    else readPageBody o start .absent) := rfl

/-- A section whose statements are read up to its end. -/
theorem readSection_run {o : Options} {c d : Cursor} {nodes : List Node}
    (h : readStatements o (c.rest.length + 1) c = .ok nodes d) (hend : endsSection d.current = true) :
    readSection o c = .ok (.block (d.spanFrom o c.current) nodes) d := by
  simp only [readSection, readSectionBody, bind_run, current_run, get_run, h, hend, if_true, pure_run,
    spanFrom_run]

/-- At the end of a section there are no more statements. -/
theorem readSection_run_end {o : Options} {c : Cursor} (h : endsSection c.current = true) :
    readSection o c = .ok (.block (c.spanFrom o c.current) []) c := by
  refine readSection_run ?_ h
  simp only [readStatements, bind_run, current_run, h, Bool.true_or, if_true, pure_run]

/-- A page without front matter, whose statements are read up to the end. -/
theorem readPage_run {o : Options} {c d : Cursor} {nodes : List Node}
    (hplain : (c.current.kind == .frontMatterMarker) = false)
    (h : readStatements o (c.rest.length + 1) c = .ok nodes d) (hend : endsSection d.current = true) :
    readPage o c =
      .ok ⟨d.spanFrom o c.current, .block (d.spanFrom o c.current) nodes, .absent⟩ d := by
  have hbody : readPageBody o c.current .absent c =
      .ok ⟨d.spanFrom o c.current, .block (d.spanFrom o c.current) nodes, .absent⟩ d := by
    simp only [readPageBody, bind_run, readSection_run h hend, spanFrom_run, pure_run]
  rw [readPage_eq, bind_of_ok (current_run c), if_neg (by rw [hplain]; exact Bool.false_ne_true)]
  exact hbody

/-! ## Relations that all readers move by -/

variable {R : Cursor → Cursor → Prop}

/-- What has to be known of a relation for readers of one statement to move by it. -/
structure Advances (R : Cursor → Cursor → Prop) : Prop extends Sequential R where
  advance : Moves R advance

/-- What has to be known of a relation for all readers to move by it. -/
structure Steps (R : Cursor → Cursor → Prop) : Prop extends Advances R where
  report (e : SyntaxError) : Moves R (report e)

namespace Advances

variable (S : Advances R)

include S

theorem current : Moves R Grammar.current := S.bind S.get fun _ => S.pure _

theorem following : Moves R Grammar.following := by
  refine S.bind S.get fun c => ?_
  split <;> exact S.pure _

theorem fail (problem : Problem) : Moves R (Grammar.fail problem : Reader α) :=
  S.bind S.current fun _ => S.throw _

theorem expect (kind : TokenKind) (problem : Problem) :
    Moves R (Grammar.expect kind problem) := by
  refine S.bind S.current fun t => ?_
  split
  · exact S.advance
  · exact S.fail _

theorem spanFrom (o : Options) (start : Token) : Moves R (Grammar.spanFrom o start) :=
  S.bind S.get fun _ => S.pure _

theorem numberOf (t : Token) : Moves R (Grammar.numberOf t) := by
  unfold Grammar.numberOf
  split
  · exact S.pure _
  · exact S.throw _

theorem chainFrom {o : Options} {start : Token} {sign? : Token → Option α}
    {operand : Reader Node} {combine : Span → α → Node → Node → Node}
    (h : Moves R operand) (fuel : Nat) (left : Node) :
    Moves R (Grammar.chainFrom o start sign? operand combine fuel left) := by
  induction fuel generalizing left with
  | zero => exact S.pure _
  | succ fuel ih =>
    refine S.bind S.current fun t => ?_
    split
    · exact S.pure _
    · refine S.bind S.advance fun _ => S.bind h fun right => ?_
      exact S.bind (S.spanFrom _ _) fun _ => ih _

theorem chain {o : Options} {sign? : Token → Option α} {operand : Reader Node}
    {combine : Span → α → Node → Node → Node} (h : Moves R operand) :
    Moves R (Grammar.chain o sign? operand combine) :=
  S.bind S.current fun _ => S.bind h fun _ =>
    S.bind S.get fun _ => S.chainFrom h _ _

/-! ### Expressions -/

section Expressions

variable (o : Options) {inner : Inner} (hi : ∀ entry, Moves R (inner entry))

include hi

theorem readItems (closing : Closing) (fuel : Nat) :
    Moves R (Grammar.readItems inner closing fuel) := by
  induction fuel with
  | zero => exact S.pure _
  | succ fuel ih =>
    refine S.bind (hi _) fun item => S.bind S.current fun t => ?_
    split
    · exact S.bind S.advance fun _ =>
        S.bind ih fun _ => S.pure _
    · exact S.bind (S.expect _ _) fun _ => S.pure _

theorem readSequence (closing : Closing) :
    Moves R (Grammar.readSequence inner closing) := by
  refine S.bind S.current fun t => ?_
  split
  · exact S.bind S.advance fun _ => S.pure _
  · exact S.bind S.get fun _ => S.readItems hi _ _

omit hi in
theorem readWord (t : Token) : Moves R (Grammar.readWord o t) := by
  unfold Grammar.readWord
  split
  · exact S.bind S.advance fun _ =>
      S.bind (S.spanFrom _ _) fun _ => S.pure _
  · split
    · exact S.fail _
    · exact S.bind S.advance fun _ =>
        S.bind (S.spanFrom _ _) fun _ => S.pure _

omit hi in
theorem readArgument (t : Token) : Moves R (Grammar.readArgument o t) := by
  refine S.bind S.advance fun _ =>
    S.bind (S.spanFrom _ _) fun span => ?_
  split
  · exact S.pure _
  · exact S.bind (S.numberOf t) fun _ => S.pure _

theorem readPrimary : Moves R (Grammar.readPrimary o inner) := by
  refine S.bind S.current fun t => ?_
  split
  · exact S.bind S.advance fun _ =>
      S.bind (S.spanFrom _ _) fun _ =>
        S.bind (S.numberOf t) fun _ => S.pure _
  · exact S.bind S.advance fun _ =>
      S.bind (S.spanFrom _ _) fun _ => S.pure _
  · exact S.bind S.advance fun _ =>
      S.bind (S.spanFrom _ _) fun _ => S.pure _
  · exact S.readArgument o t
  · exact S.readWord o t
  · exact S.bind S.advance fun _ => S.bind (hi _) fun _ =>
      S.bind (S.expect _ _) fun _ => S.pure _
  · exact S.bind S.advance fun _ =>
      S.bind (S.readSequence hi _) fun _ =>
        S.bind (S.spanFrom _ _) fun _ => S.pure _
  all_goals exact S.fail _

theorem readSuffixes (start : Token) (fuel : Nat) (e : Node) :
    Moves R (Grammar.readSuffixes o inner start fuel e) := by
  induction fuel generalizing e with
  | zero => exact S.pure _
  | succ fuel ih =>
    refine S.bind S.current fun t => ?_
    split
    · exact S.bind S.advance fun _ =>
        S.bind (S.expect _ _) fun _ =>
          S.bind (S.spanFrom _ _) fun _ => ih _
    · exact S.bind S.advance fun _ => S.bind (hi _) fun _ =>
        S.bind (S.expect _ _) fun _ =>
          S.bind (S.spanFrom _ _) fun _ => ih _
    · exact S.bind S.advance fun _ =>
        S.bind (S.readSequence hi _) fun _ =>
          S.bind (S.spanFrom _ _) fun _ => ih _
    · exact S.pure _

theorem readPostfix : Moves R (Grammar.readPostfix o inner) :=
  S.bind S.current fun _ =>
    S.bind (S.readPrimary o hi) fun _ =>
      S.bind S.get fun _ => S.readSuffixes o hi _ _ _

theorem readSign : Moves R (Grammar.readSign o inner) := by
  refine S.bind S.current fun t => ?_
  split
  · exact S.bind S.advance fun _ => S.bind (hi _) fun _ =>
      S.bind (S.spanFrom _ _) fun _ => S.pure _
  · exact S.readPostfix o hi

theorem readSum : Moves R (Grammar.readSum o inner) :=
  S.chain (S.chain (S.readSign o hi))

theorem readComparison : Moves R (Grammar.readComparison o inner) := by
  refine S.bind S.current fun t =>
    S.bind (S.readSum o hi) fun left =>
      S.bind S.current fun u => ?_
  split
  · exact S.pure _
  · exact S.bind S.advance fun _ =>
      S.bind (S.readSum o hi) fun _ =>
        S.bind (S.spanFrom _ _) fun _ => S.pure _

theorem readNegation : Moves R (Grammar.readNegation o inner) := by
  refine S.bind S.current fun t => ?_
  split
  · exact S.bind S.advance fun _ => S.bind (hi _) fun _ =>
      S.bind (S.spanFrom _ _) fun _ => S.pure _
  · exact S.readComparison o hi

theorem readOr : Moves R (Grammar.readOr o inner) :=
  S.chain (S.chain (S.readNegation o hi))

end Expressions

theorem readLevel (o : Options) (levels : Nat) (entry : Entry) :
    Moves R (Grammar.readLevel o levels entry) := by
  induction levels generalizing entry with
  | zero => exact S.fail _
  | succ levels ih =>
    cases entry with
    | expression => exact S.readOr o ih
    | negation => exact S.readNegation o ih
    | sign => exact S.readSign o ih

/-! ### Statements -/

section Statements

variable (o : Options) {statements : Reader (List Node)} (hs : Moves R statements)

theorem readExpression : Moves R (Grammar.readExpression o) := S.readLevel o _ _

theorem readStatementEnd : Moves R Grammar.readStatementEnd := by
  refine S.bind S.current fun t => ?_
  have hend : Moves R (do
      if t.kind == .newline || t.kind == .semicolon then
        let _ ← Grammar.advance : Reader Unit) := by
    split
    · exact S.bind S.advance fun _ => S.pure _
    · exact S.pure _
  dsimp only
  split
  · exact S.bind (S.fail _) fun _ => hend
  · exact hend

theorem readName (role : NameRole) : Moves R (Grammar.readName role) := by
  refine S.bind (S.expect _ _) fun t => ?_
  dsimp only
  split
  · exact S.bind (S.throw _) fun _ => S.pure _
  · exact S.pure _

theorem skipStatement (fuel : Nat) : Moves R (Grammar.skipStatement fuel) := by
  induction fuel with
  | zero => exact S.pure _
  | succ fuel ih =>
    refine S.bind S.current fun t => ?_
    split
    · exact S.bind S.advance fun _ => ih
    · exact S.pure _

theorem readBlockEnd (keyword : String) (start : Token) :
    Moves R (Grammar.readBlockEnd keyword start) := by
  refine S.bind S.current fun t => ?_
  have hend : Moves R (do let _ ← Grammar.advance; Grammar.readStatementEnd) :=
    S.bind S.advance fun _ => S.readStatementEnd
  dsimp only
  split
  · exact S.bind (S.fail _) fun _ => hend
  · exact hend

theorem readSimple : Moves R (Grammar.readSimple o) := by
  refine S.bind S.current fun t => S.bind S.following fun u => ?_
  split
  · exact S.bind S.current fun _ => S.bind (S.readName _) fun _ => S.bind S.advance fun _ =>
      S.bind (S.readExpression o) fun _ => S.bind (S.spanFrom _ _) fun _ => S.pure _
  · exact S.bind S.current fun _ => S.bind (S.readExpression o) fun _ =>
      S.bind (S.spanFrom _ _) fun _ => S.pure _

theorem readEnded {r : Reader Node} (h : Moves R r) : Moves R (Grammar.readEnded r) :=
  S.bind h fun _ => S.bind S.readStatementEnd fun _ => S.pure _

include hs

theorem readBody : Moves R (Grammar.readBody o statements) :=
  S.bind S.current fun _ => S.bind hs fun _ =>
    S.bind (S.spanFrom _ _) fun _ => S.pure _

theorem readBranchTail {fuel : Nat} (hf : Moves R (Grammar.readBranch o statements fuel))
    (start : Token) (test body : Node) :
    Moves R (Grammar.readBranchTail o statements fuel start test body) := by
  refine S.bind S.current fun t => ?_
  split
  · refine S.bind S.advance fun _ => S.bind S.current fun u => ?_
    split
    · exact S.bind hf fun _ => S.bind (S.spanFrom _ _) fun _ => S.pure _
    · exact S.bind S.readStatementEnd fun _ => S.bind (S.readBody o hs) fun _ =>
        S.bind (S.readBlockEnd _ _) fun _ => S.bind (S.spanFrom _ _) fun _ => S.pure _
  · exact S.bind (S.readBlockEnd _ _) fun _ => S.bind (S.spanFrom _ _) fun _ => S.pure _

theorem readBranch (fuel : Nat) : Moves R (Grammar.readBranch o statements fuel) := by
  induction fuel with
  | zero => exact S.pure _
  | succ fuel ih =>
    rw [readBranch_succ]
    exact S.bind S.advance fun start => S.bind (S.readExpression o) fun test =>
      S.bind S.readStatementEnd fun _ => S.bind (S.readBody o hs) fun body =>
        S.readBranchTail o hs ih start test body

theorem readLoop : Moves R (Grammar.readLoop o statements) := by
  refine S.bind S.advance fun start =>
    S.bind (S.readName _) fun target =>
      S.bind S.current fun t => ?_
  have hrest : Moves R (do
      let _ ← Grammar.advance
      let source ← Grammar.readExpression o
      Grammar.readStatementEnd
      let body ← Grammar.readBody o statements
      Grammar.readBlockEnd "for" start
      return .loop (← Grammar.spanFrom o start) target source body : Reader Node) :=
    S.bind S.advance fun _ =>
      S.bind (S.readExpression o) fun _ =>
        S.bind S.readStatementEnd fun _ =>
          S.bind (S.readBody o hs) fun _ =>
            S.bind (S.readBlockEnd _ _) fun _ =>
              S.bind (S.spanFrom _ _) fun _ => S.pure _
  dsimp only
  split
  · exact S.bind (S.fail _) fun _ => hrest
  · exact hrest

theorem readStatement : Moves R (Grammar.readStatement o statements) := by
  rw [readStatement_eq]
  refine S.bind S.current fun t => ?_
  split
  · exact S.bind S.get fun _ => S.readBranch o hs _
  · split
    · exact S.readLoop o hs
    · exact S.readEnded (S.readSimple o)

end Statements

end Advances

namespace Steps

variable (S : Steps R)

include S

theorem readOrSkip (o : Options) {statements : Reader (List Node)} (hs : Moves R statements) :
    Moves R (Grammar.readOrSkip o statements) := by
  intro c
  have h := S.readStatement o hs c
  cases hr : Grammar.readStatement o statements c with
  | ok n d =>
    rw [after_of_ok hr] at h
    simpa only [after, readOrSkip_run, hr] using h
  | error x d =>
    rw [after_of_error hr] at h
    cases x with
    | fault e => simpa only [after, readOrSkip_run, hr] using h
    | malformed e =>
      have hskip := S.bind (S.report e) (fun _ =>
        S.bind S.get fun c =>
          S.bind (S.skipStatement c.rest.length) fun _ =>
            S.pure (none : Option Node)) d
      simpa only [after, readOrSkip_run, hr] using S.trans h hskip

theorem readStatements (o : Options) (fuel : Nat) :
    Moves R (Grammar.readStatements o fuel) := by
  induction fuel with
  | zero => exact S.pure _
  | succ fuel ih =>
    refine S.bind S.current fun t => ?_
    split
    · exact S.pure _
    · split
      · exact S.bind S.advance fun _ => ih
      · split
        · exact S.bind S.advance fun _ =>
            S.bind (S.spanFrom _ _) fun _ =>
              S.bind ih fun _ => S.pure _
        · exact S.bind (S.readOrSkip o ih) fun _ =>
            S.bind ih fun _ => S.pure _

theorem readSectionBody (o : Options) (fuel : Nat) :
    Moves R (Grammar.readSectionBody o fuel) := by
  induction fuel with
  | zero => exact S.pure _
  | succ fuel ih =>
    refine S.bind S.get fun c =>
      S.bind (S.readStatements o _) fun body =>
        S.bind S.current fun t => ?_
    split
    · exact S.pure _
    · exact S.bind (S.report _) fun _ =>
        S.bind S.advance fun _ =>
          S.bind ih fun _ => S.pure _

theorem readSection (o : Options) : Moves R (Grammar.readSection o) :=
  S.bind S.current fun _ =>
    S.bind S.get fun _ =>
      S.bind (S.readSectionBody o _) fun _ =>
        S.bind (S.spanFrom _ _) fun _ => S.pure _

theorem readPageBody (o : Options) (start : Token) (front : Node) :
    Moves R (Grammar.readPageBody o start front) :=
  S.bind (S.readSection o) fun _ => S.bind (S.spanFrom _ _) fun _ => S.pure _

theorem readPageTail (o : Options) (start : Token) (front : Node) :
    Moves R (Grammar.readPageTail o start front) := by
  refine S.bind S.current fun t => ?_
  split
  · exact S.bind S.advance fun _ => S.readPageBody o start front
  · exact S.readPageBody o start front

end Steps

/-! ## Readers only add to what was reported -/

/-- Everything that was reported still is. -/
def Cursor.Extends (c d : Cursor) : Prop := c.reported <+: d.reported

theorem Cursor.Extends.of_eq {c d : Cursor} (h : d.reported = c.reported) : c.Extends d := by
  show c.reported <+: d.reported
  exact h ▸ List.prefix_rfl

theorem Cursor.Extends.trans {c d e : Cursor} (h : c.Extends d) (k : d.Extends e) : c.Extends e :=
  List.IsPrefix.trans h k

/-- Between two cursors with the same reports nothing is reported. -/
theorem Cursor.Extends.antisymm {c d e : Cursor} (h : c.Extends d) (k : d.Extends e)
    (he : e.reported = c.reported) : d.reported = c.reported ∧ e.reported = d.reported := by
  have hd : d.reported = c.reported := by
    have hk : d.reported <+: c.reported := he ▸ k
    exact (h.eq_of_length (Nat.le_antisymm h.length_le hk.length_le)).symm
  exact ⟨hd, he.trans hd.symm⟩

/-- What one advances over is not reported. -/
theorem advances_quiet : Advances fun c d : Cursor => d.reported = c.reported where
  refl _ := rfl
  trans h k := k.trans h
  advance c := by
    obtain hstay | ⟨us, -, -, hnext⟩ := after_advance c
    · rw [hstay]
    · rw [hnext]
      rfl

theorem steps_extends : Steps Cursor.Extends where
  refl _ := List.prefix_rfl
  trans := List.IsPrefix.trans
  report _ _ := List.prefix_append _ _
  advance c := .of_eq (advances_quiet.advance c)

end Stencil.Grammar

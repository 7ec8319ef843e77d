import Stencil.Proofs.Mirroring

/-!
# What was read before

Which token was read last is asked for ranges only, and a range begins with a token that was read:
what reads a token before it asks for a range does not depend on what was read before
(`Forgets`). So the statements of a section are the same behind whatever they stand
(`outcome_recalling`).
-/

namespace Stencil.Grammar

variable {α β : Type} {o : Options} {c : Cursor}

/-- The same tokens ahead, where another one was read last. -/
def Cursor.recalling (c : Cursor) (last : Option Token) : Cursor := { c with last }

theorem advance_recalling (hk : c.current.kind ≠ .eof) (last : Option Token) :
    advance (c.recalling last) = advance c := by
  obtain ⟨us, hr⟩ := Cursor.rest_of_current hk
  have hr' : (c.recalling last).rest = c.current :: us := hr
  rw [advance_run hr hk, advance_run hr' hk]
  rfl

/-- What was read before is of no account for a reader: it forgets it, or fails where it stands. -/
def Forgets (r : Reader α) (c : Cursor) : Prop :=
  ∀ last, r (c.recalling last) = r c ∨
    ∃ e, r c = .error e c ∧ r (c.recalling last) = .error e (c.recalling last)

namespace Forgets

/-- Only the first part of a sequence matters. -/
theorem bind {r : Reader α} (h : Forgets r c) (f : α → Reader β) : Forgets (r >>= f) c := by
  intro last
  obtain h | ⟨e, h, h'⟩ := h last
  · exact .inl (by rw [bind_run, bind_run, h])
  · exact .inr ⟨e, bind_of_error h, bind_of_error h'⟩

theorem advance (hk : c.current.kind ≠ .eof) : Forgets Grammar.advance c :=
  fun last => .inl (advance_recalling hk last)

theorem taking (hk : c.current.kind ≠ .eof) (f : Token → Reader β) :
    Forgets (Grammar.advance >>= f) c := (advance hk).bind f

theorem fail (problem : Problem) : Forgets (Grammar.fail problem : Reader α) c :=
  fun _ => .inr ⟨_, rfl, rfl⟩

theorem current {f : Token → Reader β} (h : Forgets (f c.current) c) :
    Forgets (Grammar.current >>= f) c := by
  intro last
  have hcur : (c.recalling last).current = c.current := rfl
  rw [bind_of_ok (current_run c), bind_of_ok (current_run _), hcur]
  exact h last

theorem following {f : Token → Reader β} (h : ∀ u, Forgets (f u) c) :
    Forgets (Grammar.following >>= f) c := by
  intro last
  obtain ⟨u, hu⟩ := following_total c
  have hu' : Grammar.following (c.recalling last) = .ok u (c.recalling last) := by
    obtain ⟨_, rest, _⟩ := c
    obtain _ | ⟨t, _ | ⟨v, vs⟩⟩ := rest <;> cases hu <;> rfl
  rw [bind_of_ok hu, bind_of_ok hu']
  exact h u last

theorem sized {f : Nat → Reader β} (h : Forgets (f c.rest.length) c) :
    Forgets (do f (← get).rest.length) c := h

theorem expect {kind : TokenKind} (hk : kind ≠ .eof) (problem : Problem) :
    Forgets (Grammar.expect kind problem) c := by
  refine .current ?_
  split
  · next h => exact advance (beq_iff_eq.mp h ▸ hk)
  · exact fail _

theorem chain {sign? : Token → Option α} {operand : Reader Node}
    {combine : Span → α → Node → Node → Node} (h : Forgets operand c) :
    Forgets (Grammar.chain o sign? operand combine) c := .current (h.bind _)

end Forgets

/-! ## Expressions -/

theorem forgets_readWord (t : Token) (hk : c.current.kind ≠ .eof) : Forgets (readWord o t) c := by
  unfold readWord
  split
  · exact .taking hk _
  split
  · exact .fail _
  · exact .taking hk _

theorem forgets_readPrimary (inner : Inner) : Forgets (readPrimary o inner) c := by
  refine .current ?_
  split
  all_goals first
    | exact .fail _
    | next hk => exact forgets_readWord _ (by rw [hk]; decide)
    | next hk => exact .taking (by rw [hk]; decide) _

theorem forgets_readSign (inner : Inner) : Forgets (readSign o inner) c := by
  refine .current ?_
  split
  · next hk => exact .taking (by rw [beq_iff_eq.mp hk]; decide) _
  · exact .current ((forgets_readPrimary inner).bind _)

theorem forgets_readNegation (inner : Inner) : Forgets (readNegation o inner) c := by
  refine .current ?_
  split
  · next hw => exact .taking (by rw [kind_of_isWord hw]; decide) _
  · exact .current ((forgets_readSign inner).chain.chain.bind _)

theorem forgets_readExpression : Forgets (readExpression o) c := by
  unfold readExpression
  cases o.depthLimit.toNat with
  | zero => exact .fail _
  | succ levels => exact (forgets_readNegation (readLevel o levels)).chain.chain

/-! ## Statements -/

theorem forgets_readSimple : Forgets (readSimple o) c := by
  refine .current (.following fun u => ?_)
  split
  · exact .current ((Forgets.bind (.expect (by decide) _) _).bind _)
  · exact .current (forgets_readExpression.bind _)

theorem forgets_readStatement (statements : Reader (List Node)) :
    Forgets (readStatement o statements) c := by
  rw [readStatement_eq]
  refine .current ?_
  split
  · next hw =>
    have hk : c.current.kind ≠ .eof := by rw [kind_of_isWord hw]; decide
    obtain ⟨us, hr⟩ := Cursor.rest_of_current hk
    refine .sized (f := readBranch o statements) ?_
    rw [hr, List.length_cons, readBranch_succ]
    exact .taking hk _
  split
  · next hw => exact .taking (by rw [kind_of_isWord hw]; decide) _
  · exact forgets_readSimple.bind _

/-- In front of a token that goes on with a statement, one is skipped. -/
theorem skipStatement_recalling (n : Nat) (he : endsStatement c.current = false) (last : Option Token) :
    skipStatement (n + 1) (c.recalling last) = skipStatement (n + 1) c := by
  have hcur : (c.recalling last).current = c.current := rfl
  have hk : c.current.kind ≠ .eof := (GoesOn.isBefore he).ne_eof
  rw [skipStatement, bind_of_ok (current_run c), bind_of_ok (current_run _), hcur, he, Bool.not_false,
    if_pos rfl, bind_run, bind_run, advance_recalling hk]

theorem skipBehind_recalling (e : SyntaxError) (he : endsStatement c.current = false)
    (last : Option Token) : skipBehind e (c.recalling last) = skipBehind e c := by
  obtain ⟨us, hr⟩ := Cursor.rest_of_current (GoesOn.isBefore he).ne_eof
  have hlen : c.rest.length = us.length + 1 := congrArg List.length hr
  let d : Cursor := { c with reported := c.reported ++ [e] }
  have hskip : skipStatement c.rest.length (d.recalling last) = skipStatement c.rest.length d := by
    rw [hlen]
    exact skipStatement_recalling (c := d) us.length he last
  have hd : skipBehind e c = (skipStatement c.rest.length >>= fun _ => pure none) d := rfl
  have hd' : skipBehind e (c.recalling last) =
      (skipStatement c.rest.length >>= fun _ => pure none) (d.recalling last) := rfl
  rw [hd, hd', bind_run, bind_run, hskip]

theorem forgets_readOrSkip (statements : Reader (List Node)) (he : endsStatement c.current = false) :
    Forgets (readOrSkip o statements) c := by
  intro last
  rw [readOrSkip_run, readOrSkip_run]
  obtain h | ⟨e, h, h'⟩ := forgets_readStatement (o := o) (c := c) statements last
  · exact .inl (by rw [h])
  rw [h, h']
  cases e with
  | fault e => exact .inr ⟨.fault e, rfl, rfl⟩
  | malformed e => exact .inl (skipBehind_recalling e he last)

theorem forgets_readStatements (n : Nat) (h : (endsSection c.current || belongsToBlock c.current) = false) :
    Forgets (readStatements o (n + 1)) c := by
  refine .current ?_
  rw [h, if_neg Bool.false_ne_true]
  have hk : c.current.kind ≠ .eof := by
    rw [Bool.or_eq_false_iff] at h
    exact IsBefore.ne_eof h.1
  split
  · exact .taking hk _
  next hsep =>
  split
  · exact .taking hk _
  · exact (forgets_readOrSkip _ (endsStatement_of_begins h (Bool.eq_false_iff.mpr hsep))).bind _

/-! ## Sections -/

/-- What came of reading statements: they and the complaints about them, unless there was a fault. -/
def outcome : EStateM.Result Stop Cursor (List Node) → Except Fault (List Node × List SyntaxError)
  | .ok nodes c => .ok (nodes, c.reported)
  | .error (.fault e) _ => .error e
  | .error (.malformed e) c => .ok ([], c.reported ++ [e])

/-- The statements of a section are the same behind whatever they stand. -/
theorem outcome_recalling (n : Nat) (last : Option Token) :
    outcome (readSectionBody o (n + 1) (c.recalling last)) = outcome (readSectionBody o (n + 1) c) := by
  have hlen : (c.recalling last).rest.length = c.rest.length := rfl
  have hcur : (c.recalling last).current = c.current := rfl
  rw [readSectionBody_succ, bind_of_ok (get_run c), bind_of_ok (get_run _), hlen, readSectionTurn]
  cases hstop : endsSection c.current || belongsToBlock c.current with
  | false =>
    obtain h | ⟨e, h, h'⟩ := (forgets_readStatements (o := o) c.rest.length hstop).bind _ last
    · rw [h]
    · rw [h, h']
      cases e <;> rfl
  | true =>
    rw [bind_of_ok (readStatements_stop _ hstop), bind_of_ok (readStatements_stop _ (hcur ▸ hstop)),
      bind_of_ok (current_run c), bind_of_ok (current_run _), hcur]
    split
    · rfl
    · next hend =>
      have hk : c.current.kind ≠ .eof := IsBefore.ne_eof (Bool.eq_false_iff.mpr hend)
      let d : Cursor :=
        { c with reported := c.reported ++ [(Problem.unmatched c.current.value).at c.current] }
      have htake (f : Token → Reader (List Node)) :
          (advance >>= f) (d.recalling last) = (advance >>= f) d := by
        rw [bind_run, bind_run, advance_recalling (c := d) hk]
      exact congrArg outcome (htake _)

end Stencil.Grammar

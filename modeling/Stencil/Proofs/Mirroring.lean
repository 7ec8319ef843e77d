import Stencil.Proofs.Likeness

/-!
# Readers in step

From cursors that correspond, every reader ends in the same way in two readings. The bounds
of loops are compared with the tokens ahead, so any two bounds that suffice will do.
-/

namespace Stencil.Grammar

variable {α β : Type} {o o' : Options}

variable {L : Likeness o o'} {i j k : Nat} {t t' : Token}

theorem mirrors_expect (kind : TokenKind) (hk : GoesOn ⟨kind, "", .start, .start⟩)
    (problem : Problem) : L.Mirrors (k + 1) k L.tokens (expect kind problem) (expect kind problem) := by
  refine .current fun t t' ht => ?_
  rw [ht.kind_beq kind hk.endsCode]
  split
  · next hkind => exact .take ht (.of_beq hkind hk)
  · exact .fail (ht.error problem)

/-! ## Expressions -/

/-- A combination of trees that are in their places. -/
def CombinesPlaces (move : Span → Span) (combine : Span → α → Node → Node → Node) : Prop :=
  ∀ span a left right, (combine span a left right).moved move =
    combine (move span) a (left.moved move) (right.moved move)

section Chain

variable {sign? : Token → Option α} {operand operand' : Reader Node}
  {combine : Span → α → Node → Node → Node}
  (hsign : ∀ t t', L.Meets t t' → sign? t' = sign? t)
  (hon : ∀ t a, sign? t = some a → GoesOn t)
  (ho : ∀ k, L.Mirrors (k + 1) k L.Same operand operand')
  (hcombine : CombinesPlaces L.move combine)

include hsign hon ho hcombine

/-- A chain of operands, with a token for each sign and more for each operand. -/
theorem mirrors_chainFrom {start start' : Token} (hstart : L.tokens start start') {left left' : Node}
    (hleft : L.Same left left') (n n' : Nat) (hn : k ≤ n) (hn' : k ≤ n') :
    L.Mirrors k k L.Same (chainFrom o start sign? operand combine n left)
      (chainFrom o' start' sign? operand' combine n' left') := by
  induction k generalizing n n' left left' with
  | zero => exact .zero
  | succ k ih =>
    obtain ⟨n, rfl⟩ := Nat.exists_eq_add_one_of_ne_zero (Nat.ne_zero_of_lt hn)
    obtain ⟨n', rfl⟩ := Nat.exists_eq_add_one_of_ne_zero (Nat.ne_zero_of_lt hn')
    refine .current fun t t' ht => ?_
    rw [hsign t t' ht]
    split
    · exact .any (.pure hleft)
    · next a ha =>
      refine .behind (.advance ht (hon t a ha) ((ho k).front.bind fun right right' hright =>
        .spanFrom hstart fun span => ?_))
      refine ih ?_ n n' (Nat.le_of_succ_le_succ hn) (Nat.le_of_succ_le_succ hn')
      rw [hleft, hright]
      exact (hcombine span a left right).symm

theorem mirrors_chain : L.Mirrors (k + 1) k L.Same (chain o sign? operand combine)
    (chain o' sign? operand' combine) :=
  .begin ho fun start start' left left' hstart hleft =>
    .loop (chainFrom o start sign? operand combine · left)
      (chainFrom o' start' sign? operand' combine · left')
      fun _ n n' => mirrors_chainFrom hsign hon ho hcombine hstart hleft n n'

end Chain

section Expressions

variable {inner inner' : Inner}
  (hi : ∀ entry k, L.Mirrors (k + 1) k L.Same (inner entry) (inner' entry))

include hi

theorem mirrors_readItems (closing : Closing) (n n' : Nat) (hn : k ≤ n) (hn' : k ≤ n') :
    L.Mirrors k k L.SameRow (readItems inner closing n) (readItems inner' closing n') := by
  induction k generalizing n n' with
  | zero => exact .zero
  | succ k ih =>
    obtain ⟨n, rfl⟩ := Nat.exists_eq_add_one_of_ne_zero (Nat.ne_zero_of_lt hn)
    obtain ⟨n', rfl⟩ := Nat.exists_eq_add_one_of_ne_zero (Nat.ne_zero_of_lt hn')
    refine .behind ((hi .expression k).bind fun item item' hitem => .current fun t t' ht => ?_)
    rw [ht.kind_beq .comma rfl]
    split
    · next hk =>
      refine .front (.advance ht (.of_beq hk rfl) ?_)
      refine (ih n n' (Nat.le_of_succ_le_succ hn) (Nat.le_of_succ_le_succ hn')).bind fun items items' h => ?_
      exact .pure (by rw [Likeness.SameRow, hitem, h, movedNodes])
    · refine .any ((mirrors_expect closing.kind (by cases closing <;> rfl) _).front.bind
        fun _ _ _ => .pure ?_)
      rw [Likeness.SameRow, hitem, movedNodes, movedNodes]

theorem mirrors_readSequence (closing : Closing) :
    L.Mirrors k k L.SameRow (readSequence inner closing) (readSequence inner' closing) := by
  have hclosing : GoesOn ⟨closing.kind, "", .start, .start⟩ := by cases closing <;> rfl
  refine .current fun t t' ht => ?_
  rw [ht.kind_beq closing.kind hclosing.endsCode]
  split
  · next hk => exact .front (.advance ht (.of_beq hk hclosing) (.pure rfl))
  · exact .any (.loop (readItems inner closing) (readItems inner' closing)
      fun _ n n' => mirrors_readItems hi closing n n')

omit hi in
theorem mirrors_readWord (ht : L.tokens t t') (hk : t.kind = .identifier) :
    L.MirrorsAt t t' (k + 1) k L.Same (readWord o t) (readWord o' t') := by
  have hon : GoesOn t := .of_kind hk rfl
  unfold readWord
  rw [(L.atom ht).value]
  split
  · exact .advance (.inl ht) hon (.spanFrom ht fun _ => .pure rfl)
  · split
    · exact .fail (L.error _ ht)
    · exact .advance (.inl ht) hon (.spanFrom ht fun _ => .pure rfl)

omit hi in
theorem mirrors_readArgument (ht : L.tokens t t') (hk : t.kind = .argument) :
    L.MirrorsAt t t' (k + 1) k L.Same (readArgument o t) (readArgument o' t') := by
  refine .advance (.inl ht) (.of_kind hk rfl) (.spanFrom ht fun span => ?_)
  rw [(L.atom ht).value]
  split
  · exact .pure rfl
  · refine (Likeness.Mirrors.numberOf ht (.inr hk)).bind fun n n' hn => ?_
    subst hn
    exact .pure rfl

theorem mirrors_readPrimary :
    L.Mirrors (k + 1) k L.Same (readPrimary o inner) (readPrimary o' inner') := by
  refine .current fun t t' ht => ?_
  obtain ht | ht := ht
  · rw [(L.atom ht).kind]
    split
    · next hk =>
      refine .advance (.inl ht) (.of_kind hk rfl) (.spanFrom ht fun span =>
        (Likeness.Mirrors.numberOf ht (.inl hk)).bind fun n n' hn => ?_)
      subst hn
      exact .pure rfl
    · next hk =>
      rw [(L.atom ht).value]
      exact .advance (.inl ht) (.of_kind hk rfl) (.spanFrom ht fun span => .pure rfl)
    · next hk =>
      rw [(L.atom ht).value]
      exact .advance (.inl ht) (.of_kind hk rfl) (.spanFrom ht fun span => .pure rfl)
    · next hk => exact mirrors_readArgument ht hk
    · next hk => exact mirrors_readWord ht hk
    · next hk =>
      exact .advance (.inl ht) (.of_kind hk rfl) ((hi .expression k).front.bind fun _ _ he =>
        (mirrors_expect .rparen rfl _).front.bind fun _ _ _ => .pure he)
    · next hk =>
      refine .advance (.inl ht) (.of_kind hk rfl) ((mirrors_readSequence hi .bracket).bind
        fun items items' h => .spanFrom ht fun span => .pure ?_)
      rw [Likeness.Same, h, Node.moved]
    all_goals try exact .fail (L.error _ ht)
    rw [(L.atom ht).value]
    exact .fail (L.error _ ht)
  · -- there is no expression at the tail
    obtain hk | hk := kind_of_endsSection (L.ends ht).1 <;>
      obtain hk' | hk' | hk' := Likeness.kind_of_endsCode (L.ends ht).2 <;>
      rw [hk, hk'] <;> exact .fail (L.error_tails _ _ ht)

theorem mirrors_readSuffixes {start start' : Token} (hstart : L.tokens start start') {e e' : Node}
    (he : L.Same e e') (n n' : Nat) (hn : k ≤ n) (hn' : k ≤ n') :
    L.Mirrors k k L.Same (readSuffixes o inner start n e) (readSuffixes o' inner' start' n' e') := by
  induction k generalizing n n' e e' with
  | zero => exact .zero
  | succ k ih =>
    obtain ⟨n, rfl⟩ := Nat.exists_eq_add_one_of_ne_zero (Nat.ne_zero_of_lt hn)
    obtain ⟨n', rfl⟩ := Nat.exists_eq_add_one_of_ne_zero (Nat.ne_zero_of_lt hn')
    have hrest {e e' : Node} (he : L.Same e e') :=
      ih he n n' (Nat.le_of_succ_le_succ hn) (Nat.le_of_succ_le_succ hn')
    refine .current fun t t' ht => ?_
    obtain ht | ht := ht
    · rw [(L.atom ht).kind]
      split
      · next hk =>
        refine .behind (.advance (.inl ht) (.of_kind hk rfl)
          ((mirrors_expect .identifier rfl _).front.bind fun u u' hu =>
            .spanFrom hstart fun span => hrest ?_))
        rw [(L.atom hu).value, Likeness.Same, he, Node.moved]
      · next hk =>
        refine .behind (.advance (.inl ht) (.of_kind hk rfl) ((hi .expression k).front.bind
          fun key key' hkey => (mirrors_expect .rbracket rfl _).front.bind fun _ _ _ =>
            .spanFrom hstart fun span => hrest ?_))
        rw [Likeness.Same, he, hkey, Node.moved]
      · next hk =>
        refine .behind (.advance (.inl ht) (.of_kind hk rfl) ((mirrors_readSequence hi .paren).bind
          fun arguments arguments' h => .spanFrom hstart fun span => hrest ?_))
        rw [Likeness.Same, he, h, Node.moved]
      · exact .any (.pure he)
    · obtain hk | hk := kind_of_endsSection (L.ends ht).1 <;>
        obtain hk' | hk' | hk' := Likeness.kind_of_endsCode (L.ends ht).2 <;>
        rw [hk, hk'] <;> exact .any (.pure he)

theorem mirrors_readPostfix :
    L.Mirrors (k + 1) k L.Same (readPostfix o inner) (readPostfix o' inner') :=
  .begin (fun _ => mirrors_readPrimary hi) fun start start' e e' hstart he =>
    .loop (readSuffixes o inner start · e) (readSuffixes o' inner' start' · e')
      fun _ n n' => mirrors_readSuffixes hi hstart he n n'

theorem mirrors_readSign : L.Mirrors (k + 1) k L.Same (readSign o inner) (readSign o' inner') := by
  refine .current fun t t' ht => ?_
  rw [ht.kind_beq .minus rfl]
  split
  · next hk =>
    have hon : GoesOn t := .of_beq hk rfl
    refine .advance ht hon ((hi .sign k).front.bind fun e e' he =>
      .spanFrom (ht.tokens hon.isBefore) fun span => .pure ?_)
    rw [Likeness.Same, he, Node.moved]
  · exact .any (mirrors_readPostfix hi)

theorem mirrors_readProduct :
    L.Mirrors (k + 1) k L.Same (readProduct o inner) (readProduct o' inner') :=
  mirrors_chain (fun _ _ => Likeness.Meets.multiplicative?) (fun _ _ => chains_product.goesOn)
    (fun _ => mirrors_readSign hi) fun _ _ _ _ => rfl

theorem mirrors_readSum : L.Mirrors (k + 1) k L.Same (readSum o inner) (readSum o' inner') :=
  mirrors_chain (fun _ _ => Likeness.Meets.additive?) (fun _ _ => chains_sum.goesOn)
    (fun _ => mirrors_readProduct hi) fun _ _ _ _ => rfl

theorem mirrors_readComparison :
    L.Mirrors (k + 1) k L.Same (readComparison o inner) (readComparison o' inner') := by
  refine .begin (fun _ => mirrors_readSum hi) fun start start' left left' hstart hleft =>
    .current fun u u' hu => ?_
  rw [hu.comparison?]
  split
  · exact .any (.pure hleft)
  · next op hop =>
    refine .front (.advance hu (IsInner.of_comparison? hop).1 ((mirrors_readSum hi).front.bind
      fun right right' hright => .spanFrom hstart fun span => .pure ?_))
    rw [Likeness.Same, hleft, hright, Node.moved]

theorem mirrors_readNegation :
    L.Mirrors (k + 1) k L.Same (readNegation o inner) (readNegation o' inner') := by
  refine .current fun t t' ht => ?_
  rw [ht.isWord]
  split
  · next hw =>
    have hon : GoesOn t := .of_kind (kind_of_isWord hw) rfl
    refine .advance ht hon ((hi .negation k).front.bind fun e e' he =>
      .spanFrom (ht.tokens hon.isBefore) fun span => .pure ?_)
    rw [Likeness.Same, he, Node.moved]
  · exact .any (mirrors_readComparison hi)

theorem mirrors_readAnd : L.Mirrors (k + 1) k L.Same (readAnd o inner) (readAnd o' inner') :=
  mirrors_chain (fun _ _ => Likeness.Meets.word? "and") (fun _ _ => chains_conjunction.goesOn)
    (fun _ => mirrors_readNegation hi) fun _ _ _ _ => rfl

theorem mirrors_readOr : L.Mirrors (k + 1) k L.Same (readOr o inner) (readOr o' inner') :=
  mirrors_chain (fun _ _ => Likeness.Meets.word? "or") (fun _ _ => chains_disjunction.goesOn)
    (fun _ => mirrors_readAnd hi) fun _ _ _ _ => rfl

end Expressions

/-- The levels that are left are the same in both readings. -/
theorem mirrors_readLevel (levels : Nat) (entry : Entry) (k : Nat) :
    L.Mirrors (k + 1) k L.Same (readLevel o levels entry) (readLevel o' levels entry) := by
  induction levels generalizing entry k with
  | zero =>
    rw [readLevel, readLevel, L.depth]
    exact .fail _
  | succ levels ih =>
    cases entry with
    | expression => exact mirrors_readOr ih
    | negation => exact mirrors_readNegation ih
    | sign => exact mirrors_readSign ih

theorem mirrors_readExpression :
    L.Mirrors (k + 1) k L.Same (readExpression o) (readExpression o') := by
  rw [readExpression, readExpression, L.depth]
  exact mirrors_readLevel _ .expression k

/-! ## Statements -/

theorem mirrors_readStatementEnd [L.Passes] :
    L.Mirrors k k Eq readStatementEnd readStatementEnd := by
  refine .current fun t t' ht => ?_
  have hend : L.MirrorsAt t t' k k Eq
      (do if t.kind == .newline || t.kind == .semicolon then let _ ← advance : Reader Unit)
      (do if t'.kind == .newline || t'.kind == .semicolon then let _ ← advance : Reader Unit) := by
    rw [ht.kind_beq .newline rfl, ht.kind_beq .semicolon rfl]
    split
    · next hk =>
      rw [Bool.or_eq_true, beq_iff_eq, beq_iff_eq] at hk
      have hb : IsBefore t := .of_isSeparator (isSeparator_of_kind hk)
      exact .front (.pass (ht.tokens hb) hb.ne_eof (.pure rfl))
    · exact .any (.pure rfl)
  rw [ht.endsStatement]
  dsimp only
  split
  · next he =>
    have hon : GoesOn t := by rwa [Bool.not_eq_eq_eq_not, Bool.not_true] at he
    have hpair := ht.tokens hon.isBefore
    rw [(L.atom hpair).value]
    exact .fail_bind (L.error _ hpair)
  · exact hend

theorem mirrors_readName (role : NameRole) :
    L.Mirrors (k + 1) k Eq (readName role) (readName role) := by
  refine (mirrors_expect .identifier rfl _).bind fun t t' ht => ?_
  rw [(L.atom ht).value]
  dsimp only
  split
  · exact ⟨fun hc _ => .malformed (L.error _ ht) hc⟩
  · exact .pure rfl

theorem mirrors_skipStatement (n n' : Nat) (hn : k ≤ n) (hn' : k ≤ n') :
    L.Mirrors k k Eq (skipStatement n) (skipStatement n') := by
  induction k generalizing n n' with
  | zero => exact .zero
  | succ k ih =>
    obtain ⟨n, rfl⟩ := Nat.exists_eq_add_one_of_ne_zero (Nat.ne_zero_of_lt hn)
    obtain ⟨n', rfl⟩ := Nat.exists_eq_add_one_of_ne_zero (Nat.ne_zero_of_lt hn')
    refine .current fun t t' ht => ?_
    rw [ht.endsStatement]
    split
    · next he =>
      have hon : endsStatement t = false := by simpa using he
      exact .behind (.advance ht hon
        (ih n n' (Nat.le_of_succ_le_succ hn) (Nat.le_of_succ_le_succ hn')))
    · exact .any (.pure rfl)

/-- In front of a token that does not end the statement, something is skipped. -/
theorem mirrorsAt_skipStatement (ht : L.Meets t t') (he : endsStatement t = false) (n n' : Nat)
    (hn : k < n) (hn' : k < n') :
    L.MirrorsAt t t' (k + 1) k Eq (skipStatement n) (skipStatement n') where
  alike {c c'} hc hcur hcur' hlen := by
    subst hcur hcur'
    obtain ⟨n, rfl⟩ := Nat.exists_eq_add_one_of_ne_zero (Nat.ne_zero_of_lt hn)
    obtain ⟨n', rfl⟩ := Nat.exists_eq_add_one_of_ne_zero (Nat.ne_zero_of_lt hn')
    rw [skipStatement, skipStatement, bind_of_ok (current_run c), bind_of_ok (current_run c'),
      ht.endsStatement, he]
    exact (Likeness.MirrorsAt.advance ht he (mirrors_skipStatement n n'
      (Nat.le_of_lt_succ hn) (Nat.le_of_lt_succ hn'))).alike hc rfl rfl hlen

theorem mirrors_readBlockEnd [L.Passes] {start start' : Token} (hstart : L.tokens start start')
    (keyword : String) :
    L.Mirrors (k + 1) k Eq (readBlockEnd keyword start) (readBlockEnd keyword start') := by
  refine .current fun t t' ht => ?_
  rw [ht.isWord]
  dsimp only
  split
  · exact .fail_bind (ht.missingEnd hstart keyword)
  · next hw =>
    exact .advance ht (.of_kind (kind_of_isWord (by simpa using hw)) rfl) mirrors_readStatementEnd

/-- At the tail no block is closed. -/
theorem mirrorsAt_readBlockEnd_of_tails (ht : L.tails t t') (start start' : Token) (keyword : String)
    {f f' : Unit → Reader β} {Q : β → β → Prop} :
    L.MirrorsAt t t' k j Q (readBlockEnd keyword start >>= f) (readBlockEnd keyword start' >>= f') where
  alike {c c'} hc hcur hcur' hlen := by
    have hfails {c : Cursor} {start : Token} (h : endsCode c.current = true) :
        readBlockEnd keyword start c =
          .error (.malformed ((Problem.missingEnd keyword start.start.line).at c.current)) c := by
      rw [readBlockEnd, bind_of_ok (current_run c), Likeness.isWord_of_endsCode h]
      rfl
    subst hcur hcur'
    rw [bind_of_error (hfails (endsCode_of_endsSection (L.ends ht).1)),
      bind_of_error (hfails (L.ends ht).2)]
    exact .malformed (L.error_tails _ _ ht) hc

theorem mirrors_readAlone :
    L.Mirrors (k + 1) k L.Same (readAlone o) (readAlone o') :=
  .begin (fun _ => mirrors_readExpression) fun start start' e e' hstart he =>
    .spanFrom hstart fun span => .pure (by rw [Likeness.Same, he, Node.moved])

/-- An assignment, where its sign is behind the token ahead. -/
theorem alike_readAssigned {c c' : Cursor} {u : Token} {us : List Token}
    (hc : L.cursors c c') (hstart : L.tokens c.current c'.current) (hr : c.rest = c.current :: u :: us)
    (hu : u.kind = .assign) (hlen : c.rest.length ≤ k + 1) :
    L.Alike k L.Same (readAssigned o c) (readAssigned o' c') := by
  rw [readAssigned, readAssigned, bind_of_ok (current_run c), bind_of_ok (current_run c')]
  refine ((mirrors_readName .target).alike hc hlen).bind fun name name' d d' hname heq hd hdlen => ?_
  subst heq
  obtain ⟨_, hrest, -⟩ := readName_ok hname
  have hcur : d.current = u :=
    Cursor.current_of_rest (List.cons.inj (hrest.symm.trans hr)).2
  have hk : d.current.kind = .assign := by rw [hcur, hu]
  refine (Likeness.MirrorsAt.front (.advance (L.current hd) (.of_kind hk rfl) ?_)).alike hd rfl rfl hdlen
  exact mirrors_readExpression.front.bind fun e e' he => .spanFrom hstart fun span => .pure (by
    rw [Likeness.Same, he, Node.moved])

/-- The tokens behind the one ahead correspond, if no statement ends there. -/
theorem meets_following {c c' : Cursor} (hc : L.cursors c c') (ht : L.tokens c.current c'.current)
    (hon : GoesOn c.current) : ∃ u us u' us', c.rest = c.current :: u :: us ∧
      c'.rest = c'.current :: u' :: us' ∧ L.Meets u u' := by
  have hk := hon.isBefore.ne_eof
  have hk' : c'.current.kind ≠ .eof := (L.atom ht).kind ▸ hk
  obtain ⟨us, hr⟩ := Cursor.rest_of_current hk
  obtain ⟨us', hr'⟩ := Cursor.rest_of_current hk'
  have hd := L.advance hc hr hr' ht hon
  have hmeets : L.Meets _ _ := L.current hd
  have hlen : us.length ≤ us'.length := L.length_le hd
  obtain ⟨u, us, rfl⟩ := List.exists_cons_of_ne_nil (List.ne_nil_of_length_pos (Likeness.length_pos hd))
  obtain ⟨u', us', rfl⟩ := List.exists_cons_of_ne_nil
    (List.ne_nil_of_length_pos (Nat.lt_of_lt_of_le (Nat.succ_pos _) hlen))
  exact ⟨u, us, u', us', hr, hr', hmeets⟩

/-- An assignment has its sign behind a name, which both readings see. -/
theorem mirrors_readSimple : L.Mirrors (k + 1) k L.Same (readSimple o) (readSimple o') where
  alike {c c'} hc hlen := by
    have ht : L.Meets c.current c'.current := L.current hc
    rw [readSimple, readSimple, bind_of_ok (current_run c), bind_of_ok (current_run c'),
      ht.kind_beq .identifier rfl]
    cases hk : c.current.kind == .identifier with
    | false =>
      obtain ⟨u, hu⟩ := following_total c
      obtain ⟨u', hu'⟩ := following_total c'
      rw [bind_of_ok hu, bind_of_ok hu']
      exact mirrors_readAlone.alike hc hlen
    | true =>
      have hon : GoesOn c.current := .of_beq hk rfl
      have hpair := ht.tokens hon.isBefore
      obtain ⟨u, us, u', us', hr, hr', hmeets⟩ := meets_following hc hpair hon
      rw [bind_of_ok (following_run hr), bind_of_ok (following_run hr'), hmeets.kind_beq .assign rfl,
        Bool.true_and]
      split
      · next hu => exact alike_readAssigned hc hpair hr (by simpa using hu) hlen
      · exact mirrors_readAlone.alike hc hlen

theorem mirrors_readEnded [L.Passes] {r r' : Reader Node} (h : L.Mirrors k j L.Same r r') :
    L.Mirrors k j L.Same (readEnded r) (readEnded r') :=
  h.bind fun _ _ hn => mirrors_readStatementEnd.bind fun _ _ _ => .pure hn

/-- Reports a problem and skips to where the statement ends. -/
def skipBehind (e : SyntaxError) : Reader (Option Node) := do
  report e
  skipStatement (← get).rest.length
  return none

/-- What is skipped is at most what is ahead. In front of a token that does not end the
statement it is something. -/
theorem alike_skipBehind {c c' : Cursor} {e e' : SyntaxError} (hc : L.cursors c c')
    (he : L.errors e e') (hlen : c.rest.length ≤ k ∨
      endsStatement c.current = false ∧ c.rest.length ≤ k + 1) :
    L.Alike k (fun n n' => L.SameRow n.toList n'.toList) (skipBehind e c) (skipBehind e' c') := by
  have hd := L.report hc he
  rw [skipBehind, skipBehind, bind_of_ok (report_run e c), bind_of_ok (report_run e' c'),
    bind_of_ok (get_run _), bind_of_ok (get_run _)]
  refine Likeness.Alike.bind (P := Eq) (i := k) ?_ fun _ _ _ _ _ _ hd hlen => .ok rfl hd hlen
  obtain hlen | ⟨hends, hlen⟩ := hlen
  · exact ((mirrors_skipStatement _ _ (Nat.le_refl _) (L.length_le hd)).alike hd (Nat.le_refl _)).mono hlen
  · obtain ⟨m, hm⟩ := Nat.exists_eq_add_one_of_ne_zero (Nat.ne_of_gt (Likeness.length_pos hc))
    have hlt := Nat.lt_of_succ_le (Nat.le_of_eq hm.symm)
    have hskip := (mirrorsAt_skipStatement (L.current hd) hends _ _ hlt
      (Nat.lt_of_lt_of_le hlt (L.length_le hc))).alike hd rfl rfl (Nat.le_of_eq hm)
    exact hskip.mono (Nat.le_of_lt_succ (Nat.lt_of_lt_of_le hlt hlen))

section Statements

variable [L.Closed] {statements statements' : Reader (List Node)}
  (hs : ∀ j, j ≤ k → L.Mirrors j j L.SameRow statements statements')

/-- A reader that reads nothing where a section ends. -/
def Stays (statements : Reader (List Node)) : Prop :=
  ∀ c : Cursor, endsSection c.current = true → statements c = .ok [] c

variable (hstays : Stays statements) (hstays' : Stays statements')

include hs hstays hstays'

/-- The body of a block, and what is read behind it. At the tail the body has no place, and
what is read behind it must not depend on it. -/
theorem mirrors_readBody {f f' : Node → Reader β} {Q : β → β → Prop}
    (hf : ∀ b b', L.Same b b' → L.Mirrors k j Q (f b) (f' b'))
    (htails : ∀ t t' b b', L.tails t t' → L.MirrorsAt t t' k j Q (f b) (f' b')) :
    L.Mirrors k j Q (readBody o statements >>= f) (readBody o' statements' >>= f') where
  alike {c c'} hc hlen := by
    obtain ht | ht := L.current hc
    · have hbody : L.Mirrors k k L.Same
          (do let body ← statements; return .block (← spanFrom o c.current) body)
          (do let body ← statements'; return .block (← spanFrom o' c'.current) body) :=
        (hs k (Nat.le_refl k)).bind fun ns ns' hns => .spanFrom ht fun span => .pure (by
          rw [Likeness.Same, hns, Node.moved])
      rw [readBody, readBody]
      exact (hbody.alike hc hlen).bind fun b b' _ _ _ hb hd hlen => (hf b b' hb).alike hd hlen
    · have hrun {o : Options} {statements : Reader (List Node)} (h : Stays statements) {c : Cursor}
          (hend : endsSection c.current = true) :
          readBody o statements c = .ok (.block (c.spanFrom o c.current) []) c := by
        rw [readBody, bind_of_ok (current_run c), bind_of_ok (h c hend), bind_of_ok (spanFrom_run _ _ c)]
        rfl
      rw [bind_of_ok (hrun hstays (L.ends ht).1), bind_of_ok (hrun hstays' (Likeness.Closed.ends ht))]
      exact (htails _ _ _ _ ht).alike hc rfl rfl hlen

theorem mirrors_readBranchTail {n n' : Nat}
    (hbranch : ∀ t t', L.tokens t t' → t.isWord "if" = true →
      L.MirrorsAt t t' k k L.Same (readBranch o statements n) (readBranch o' statements' n'))
    {start start' : Token} (hstart : L.tokens start start') {test test' body body' : Node}
    (htest : L.Same test test') (hbody : L.Same body body') :
    L.Mirrors k k L.Same (readBranchTail o statements n start test body)
      (readBranchTail o' statements' n' start' test' body') := by
  refine .current fun t t' ht => ?_
  rw [ht.isWord]
  split
  · next hw =>
    refine .front (.advance ht (.of_kind (kind_of_isWord hw) rfl) (.current fun u u' hu => ?_))
    rw [hu.isWord]
    split
    · next hif =>
      have hpair := hu.tokens (.of_kind (kind_of_isWord hif) rfl)
      refine (hbranch u u' hpair hif).bind fun nested nested' hnested => .spanFrom hstart fun span =>
        .pure ?_
      rw [Likeness.Same, htest, hbody, hnested, Node.span?_moved, Node.moved]
      cases nested.span? <;> rfl
    · refine .any (mirrors_readStatementEnd.bind fun _ _ _ => mirrors_readBody hs hstays hstays'
        (fun b b' hb => (mirrors_readBlockEnd hstart "if").front.bind fun _ _ _ =>
          .spanFrom hstart fun span => .pure ?_)
        fun t t' b b' ht => mirrorsAt_readBlockEnd_of_tails ht start start' "if")
      rw [Likeness.Same, htest, hbody, hb, Node.moved]
  · refine .any ((mirrors_readBlockEnd hstart "if").front.bind fun _ _ _ =>
      .spanFrom hstart fun span => .pure ?_)
    rw [Likeness.Same, htest, hbody, Node.moved, Node.moved]

omit [L.Closed] hs hstays hstays' in
theorem mirrorsAt_readBranchTail_of_tails (ht : L.tails t t') (n n' : Nat) (start start' : Token)
    (test test' body body' : Node) {P : Node → Node → Prop} :
    L.MirrorsAt t t' k j P (readBranchTail o statements n start test body)
      (readBranchTail o' statements' n' start' test' body') where
  alike {c c'} hc hcur hcur' hlen := by
    subst hcur hcur'
    rw [readBranchTail, readBranchTail, bind_of_ok (current_run c), bind_of_ok (current_run c'),
      Likeness.isWord_of_endsCode (endsCode_of_endsSection (L.ends ht).1),
      Likeness.isWord_of_endsCode (L.ends ht).2]
    exact (mirrorsAt_readBlockEnd_of_tails ht start start' "if").alike hc rfl rfl hlen

/-- One condition of a chain. -/
theorem mirrorsAt_readBranch_succ {n n' : Nat}
    (hbranch : ∀ t t', L.tokens t t' → t.isWord "if" = true →
      L.MirrorsAt t t' k k L.Same (readBranch o statements n) (readBranch o' statements' n'))
    (ht : L.tokens t t') (hw : t.isWord "if" = true) :
    L.MirrorsAt t t' (k + 1) k L.Same (readBranch o statements (n + 1))
      (readBranch o' statements' (n' + 1)) := by
  rw [readBranch_succ, readBranch_succ]
  exact .advance (.inl ht) (.of_kind (kind_of_isWord hw) rfl) (mirrors_readExpression.front.bind
    fun test test' htest => mirrors_readStatementEnd.bind fun _ _ _ => mirrors_readBody hs hstays hstays'
      (fun body body' hbody => mirrors_readBranchTail hs hstays hstays' hbranch ht htest hbody)
      fun u u' body body' hu => mirrorsAt_readBranchTail_of_tails hu n n' t t' test test' body body')

theorem mirrorsAt_readBranch (n n' : Nat) (hn : k < n) (hn' : k < n') (ht : L.tokens t t')
    (hw : t.isWord "if" = true) : L.MirrorsAt t t' (k + 1) k L.Same (readBranch o statements n)
      (readBranch o' statements' n') := by
  obtain ⟨n, rfl⟩ := Nat.exists_eq_add_one_of_ne_zero (Nat.ne_zero_of_lt hn)
  obtain ⟨n', rfl⟩ := Nat.exists_eq_add_one_of_ne_zero (Nat.ne_zero_of_lt hn')
  refine mirrorsAt_readBranch_succ hs hstays hstays' ?_ ht hw
  induction k generalizing n n' with
  | zero => exact fun _ _ _ _ => .any .zero
  | succ k ih =>
    intro u u' hu hif
    obtain ⟨n, rfl⟩ := Nat.exists_eq_add_one_of_ne_zero (Nat.ne_zero_of_lt (Nat.lt_of_succ_lt_succ hn))
    obtain ⟨n', rfl⟩ :=
      Nat.exists_eq_add_one_of_ne_zero (Nat.ne_zero_of_lt (Nat.lt_of_succ_lt_succ hn'))
    have hs' (j : Nat) (hj : j ≤ k) : L.Mirrors j j L.SameRow statements statements' :=
      hs j (Nat.le_succ_of_le hj)
    exact .behind (mirrorsAt_readBranch_succ hs' hstays hstays' (ih hs' n (Nat.lt_of_succ_lt_succ hn) n'
      (Nat.lt_of_succ_lt_succ hn')) hu hif)

theorem mirrorsAt_readLoop (ht : L.tokens t t') (hw : t.isWord "for" = true) :
    L.MirrorsAt t t' (k + 1) k L.Same (readLoop o statements) (readLoop o' statements') := by
  refine .advance (.inl ht) (.of_kind (kind_of_isWord hw) rfl)
    ((mirrors_readName .variable).front.bind fun name name' hname => .current fun u u' hu => ?_)
  subst hname
  rw [hu.isWord]
  dsimp only
  split
  · exact .fail_bind (hu.error _)
  · next hin =>
    have hon : GoesOn u := .of_kind (kind_of_isWord (by simpa using hin)) rfl
    refine .front (.advance hu hon (mirrors_readExpression.front.bind
      fun source source' hsource => mirrors_readStatementEnd.bind fun _ _ _ =>
        mirrors_readBody hs hstays hstays'
          (fun body body' hbody => (mirrors_readBlockEnd ht "for").front.bind fun _ _ _ =>
            .spanFrom ht fun span => .pure ?_)
          fun v v' body body' hv => mirrorsAt_readBlockEnd_of_tails hv t t' "for"))
    rw [Likeness.Same, hsource, hbody, Node.moved]

theorem mirrors_readStatement :
    L.Mirrors (k + 1) k L.Same (readStatement o statements) (readStatement o' statements') := by
  rw [readStatement_eq, readStatement_eq]
  refine .current fun t t' ht => ?_
  rw [ht.isWord, ht.isWord]
  split
  · next hw =>
    have hpair := ht.tokens (.of_kind (kind_of_isWord hw) rfl)
    refine .sized (readBranch o statements) (readBranch o' statements') fun i n n' hi hn hn' => ?_
    cases i with
    | zero => exact .any .zero
    | succ i =>
      have hle := Nat.le_of_succ_le_succ hi
      have hs' (j : Nat) (hj : j ≤ i) := hs j (Nat.le_trans hj hle)
      exact (mirrorsAt_readBranch hs' hstays hstays' n n' hn hn' hpair hw).mono hle
  split
  · next hw =>
    exact mirrorsAt_readLoop hs hstays hstays' (ht.tokens (.of_kind (kind_of_isWord hw) rfl)) hw
  · exact .any (mirrors_readEnded mirrors_readSimple)

/-- A statement that is skipped takes a token, unless it begins where statements end. -/
theorem mirrorsAt_readOrSkip (hleads : Moves Cursor.Leads statements) (ht : L.Meets t t')
    (he : endsStatement t = false) :
    L.MirrorsAt t t' (k + 1) k (fun n n' => L.SameRow n.toList n'.toList) (readOrSkip o statements)
      (readOrSkip o' statements') where
  alike {c c'} hc hcur hcur' hlen := by
    subst hcur hcur'
    have hread := (mirrors_readStatement hs hstays hstays').alike hc hlen
    have hrest := (steps_leads.readStatement o hleads c).rest
    rw [readOrSkip_run, readOrSkip_run]
    generalize hr : readStatement o statements c = x at hread
    generalize readStatement o' statements' c' = x' at hread
    cases hread with
    | ok hn hd hlen =>
      refine .ok ?_ hd hlen
      rw [Likeness.SameRow, hn]
      rfl
    | fault hf hd => exact .fault hf hd
    | @malformed e e' d d' herr hd =>
      rw [after_of_error hr] at hrest
      refine alike_skipBehind hd herr ?_
      obtain hlt | heq := Nat.lt_or_eq_of_le hrest.length_le
      · exact .inl (Nat.le_of_lt_succ (Nat.lt_of_lt_of_le hlt hlen))
      · have hcur : d.current = c.current := by
          rw [Cursor.current, hrest.eq_of_length heq, Cursor.current]
        exact .inr ⟨by rw [hcur, he], heq ▸ hlen⟩

end Statements

theorem stays_readStatements (o : Options) (n : Nat) : Stays (readStatements o n) := by
  intro c hc
  cases n with
  | zero => rfl
  | succ n =>
    rw [readStatements, bind_of_ok (current_run c), hc]
    rfl

/-- A token between statements that is no text begins a statement. -/
theorem endsStatement_of_begins {t : Token} (hsection : (endsSection t || belongsToBlock t) = false)
    (hseparator : isSeparator t = false) : endsStatement t = false := by
  refine Bool.eq_false_iff.mpr fun he => ?_
  unfold endsStatement at he
  split at he
  all_goals first
    | next hk => rw [isSeparator, hk] at hseparator; cases hseparator
    | next hk => rw [endsSection, hk] at hsection; cases hsection
    | cases he

/-- By induction on the tokens ahead: each turn takes one. -/
theorem mirrors_readStatements [L.Closed] (n n' : Nat) (hn : k ≤ n) (hn' : k ≤ n') :
    L.Mirrors k k L.SameRow (readStatements o n) (readStatements o' n') := by
  induction k using Nat.strong_induction_on generalizing n n' with
  | _ k ih =>
    cases k with
    | zero => exact .zero
    | succ k =>
      obtain ⟨n, rfl⟩ := Nat.exists_eq_add_one_of_ne_zero (Nat.ne_zero_of_lt hn)
      obtain ⟨n', rfl⟩ := Nat.exists_eq_add_one_of_ne_zero (Nat.ne_zero_of_lt hn')
      have hle := Nat.le_of_succ_le_succ hn
      have hle' := Nat.le_of_succ_le_succ hn'
      have hs (j : Nat) (hj : j ≤ k) :
          L.Mirrors j j L.SameRow (readStatements o n) (readStatements o' n') :=
        ih j (Nat.lt_succ_of_le hj) n n' (Nat.le_trans hj hle) (Nat.le_trans hj hle')
      refine .current fun t t' ht => ?_
      rw [ht.endsSection, ht.belongsToBlock, ht.isSeparator, ht.kind_beq .text rfl]
      split
      · exact .any (.pure rfl)
      next hends =>
      split
      · next hsep =>
        have hb := IsBefore.of_isSeparator hsep
        exact .behind (.pass (ht.tokens hb) hb.ne_eof (hs k (Nat.le_refl k)))
      next hsep =>
      split
      · next hk =>
        have hon : GoesOn t := .of_beq hk rfl
        have hpair := ht.tokens hon.isBefore
        refine .behind (.advance ht hon (.spanFrom hpair fun span =>
          (hs k (Nat.le_refl k)).bind fun rest rest' hrest => .pure ?_))
        rw [(L.atom hpair).value, Likeness.SameRow, hrest, movedNodes, Node.moved]
      · have he := endsStatement_of_begins (Bool.eq_false_iff.mpr hends) (Bool.eq_false_iff.mpr hsep)
        refine .behind ((mirrorsAt_readOrSkip hs (stays_readStatements o n) (stays_readStatements o' n')
          (steps_leads.readStatements o n) ht he).bind fun node node' hnode =>
            (hs k (Nat.le_refl k)).bind fun rest rest' hrest => .pure ?_)
        rw [Likeness.SameRow, hrest, hnode, movedNodes_append]

/-! ## Sections -/

/-- One turn of the reader of a section, with `size` as a bound on its statements. -/
def readSectionTurn (o : Options) (fuel size : Nat) : Reader (List Node) := do
  let body ← readStatements o (size + 1)
  let t ← current
  if endsSection t then return body
  else
    report ((Problem.unmatched t.value).at t)
    let _ ← advance
    return body ++ (← readSectionBody o fuel)

theorem readSectionBody_succ (o : Options) (fuel : Nat) :
    readSectionBody o (fuel + 1) = (do readSectionTurn o fuel (← get).rest.length) := rfl

/-- By induction on the tokens ahead: a word that belongs to no block is taken. -/
theorem mirrors_readSectionBody [L.Closed] (n n' : Nat) (hn : k ≤ n) (hn' : k ≤ n') :
    L.Mirrors k k L.SameRow (readSectionBody o n) (readSectionBody o' n') := by
  induction k using Nat.strong_induction_on generalizing n n' with
  | _ k ih =>
    cases k with
    | zero => exact .zero
    | succ k =>
      obtain ⟨n, rfl⟩ := Nat.exists_eq_add_one_of_ne_zero (Nat.ne_zero_of_lt hn)
      obtain ⟨n', rfl⟩ := Nat.exists_eq_add_one_of_ne_zero (Nat.ne_zero_of_lt hn')
      rw [readSectionBody_succ, readSectionBody_succ]
      refine .sized (readSectionTurn o n) (readSectionTurn o' n') fun i m m' hi hm hm' => ?_
      refine .mono (j := i) ?_ (Nat.le_refl i) hi
      refine (mirrors_readStatements _ _ (Nat.le_succ_of_le hm) (Nat.le_succ_of_le hm')).bind
        fun body body' hbody => .current fun t t' ht => ?_
      rw [ht.endsSection]
      split
      · exact .any (.pure hbody)
      · next hends =>
        have hb : IsBefore t := Bool.eq_false_iff.mpr hends
        have hpair := ht.tokens hb
        rw [(L.atom hpair).value]
        cases i with
        | zero => exact .any .zero
        | succ i =>
          have hrest := ih i (Nat.lt_of_lt_of_le (Nat.lt_succ_self i) hi) n n'
            (Nat.le_trans (Nat.le_of_succ_le_succ hi) (Nat.le_of_succ_le_succ hn))
            (Nat.le_trans (Nat.le_of_succ_le_succ hi) (Nat.le_of_succ_le_succ hn'))
          refine .report (L.error _ hpair) (.behind (.pass hpair hb.ne_eof (hrest.bind
            fun rest rest' hrest => .pure ?_)))
          rw [Likeness.SameRow, hbody, hrest, movedNodes_append]

/-- Reads a section that began with `start`, with `size` as a bound on its statements. -/
def readSectionBlock (o : Options) (start : Token) (size : Nat) : Reader Node := do
  let body ← readSectionBody o (size + 1)
  return .block (← spanFrom o start) body

/-! ## Pages -/

section Pages

variable [L.Closed] (hfull : ∀ t t', ¬ L.tails t t')

include hfull

/-- A section that both readings go through to its end has a place. -/
theorem mirrors_readSection : L.Mirrors k k L.Same (readSection o) (readSection o') := by
  refine .current fun t t' ht => .any ?_
  have hstart := ht.resolve_right (hfull t t')
  refine .loop (readSectionBlock o t) (readSectionBlock o' t') fun i n n' hn hn' => ?_
  refine (mirrors_readSectionBody _ _ (Nat.le_succ_of_le hn) (Nat.le_succ_of_le hn')).bind
    fun body body' hbody => .spanFrom hstart fun span => .pure ?_
  rw [Likeness.Same, hbody, Node.moved]

theorem mirrors_readPageBody {start start' : Token} (hstart : L.tokens start start')
    {front front' : Node} (hfront : L.Same front front') :
    L.Mirrors k k (fun p p' => p' = p.moved L.move) (readPageBody o start front)
      (readPageBody o' start' front') := by
  refine (mirrors_readSection hfull).bind fun body body' hbody => .spanFrom hstart fun span => .pure ?_
  rw [hbody, hfront, Page.moved]

theorem mirrors_readPageTail {start start' : Token} (hstart : L.tokens start start')
    {front front' : Node} (hfront : L.Same front front') :
    L.Mirrors k k (fun p p' => p' = p.moved L.move) (readPageTail o start front)
      (readPageTail o' start' front') := by
  refine .current fun t t' ht => ?_
  have hpair := ht.resolve_right (hfull t t')
  rw [(L.atom hpair).kind]
  split
  · next hk =>
    refine .front (.pass hpair ?_ (mirrors_readPageBody hfull hstart hfront))
    rw [beq_iff_eq.mp hk]
    decide
  · exact .any (mirrors_readPageBody hfull hstart hfront)

theorem mirrors_readPage :
    L.Mirrors k k (fun p p' => p' = p.moved L.move) (readPage o) (readPage o') := by
  rw [readPage_eq, readPage_eq]
  refine .current fun t t' ht => ?_
  have hpair := ht.resolve_right (hfull t t')
  rw [(L.atom hpair).kind]
  split
  · next hk =>
    refine .front (.pass hpair ?_ ((mirrors_readSection hfull).bind fun front front' hfront =>
      mirrors_readPageTail hfull hpair hfront))
    rw [beq_iff_eq.mp hk]
    decide
  · exact .any (mirrors_readPageBody hfull hpair rfl)

end Pages

end Stencil.Grammar

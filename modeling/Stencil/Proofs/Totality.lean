import Stencil.Proofs.Layout
import Stencil.Proofs.Mirroring

/-!
# Reading always ends in a template

Reading never stops at a syntax error: what does not follow the grammar is reported and
skipped (`Settles`). Its loops end by themselves: each turn takes a token, so a bound that
is at least the number of tokens ahead is never reached (`bounds_suffice`). What reading
can stop at is a number with more digits than are read, and then no template comes of it
(`Template.parse_total`).

All three are said of one reading, set beside itself (`Likeness.self`).
-/

namespace Stencil.Grammar

variable {α β : Type} {o : Options}

/-! ## A reading and itself -/

/-- What is ahead and what was reported are about tokens of a source. -/
structure Cursor.Within (among : Token → Prop) (c : Cursor) : Prop where
  ended : c.Ended
  rest : ∀ t ∈ c.rest, among t
  reported : ∀ e ∈ c.reported, among e.token

/-- A fault that comes of a token of a source. -/
def TooLong (among : Token → Prop) (e : Fault) : Prop :=
  ∃ t, among t ∧ (t.kind = .integer ∨ t.kind = .argument) ∧ natural t.value.toList = .error e

theorem Cursor.Within.current {among : Token → Prop} {c : Cursor} (h : c.Within among) :
    among c.current :=
  h.rest _ (List.mem_of_mem_head? h.ended.head)

theorem Cursor.Within.behind {among : Token → Prop} {c : Cursor} {t : Token} {us : List Token}
    (h : c.Within among) (hr : c.rest = t :: us) (hk : t.kind ≠ .eof) :
    (c.behind t us).Within among := by
  refine ⟨h.ended.tail hr hk, fun u hu => h.rest u ?_, h.reported⟩
  rw [hr]
  exact List.mem_cons_of_mem _ hu

/-- A cursor beside itself has the same tokens ahead. -/
theorem behind_eq {c : Cursor} {t u : Token} {us vs : List Token} (hr : c.rest = t :: us)
    (hr' : c.rest = u :: vs) : c.behind u vs = c.behind t us := by
  obtain ⟨rfl, rfl⟩ := List.cons.inj (hr.symm.trans hr')
  rfl

/-- A reading beside itself, with what holds of the tokens of its source. -/
def Likeness.self (o : Options) (among : Token → Prop) : Likeness o o where
  move := id
  tokens t t' := t' = t ∧ among t
  tails _ _ := False
  cursors c c' := c' = c ∧ c.Within among
  errors e e' := e' = e ∧ among e.token
  faults := TooLong among
  depth := rfl
  atom h := by rw [h.1]; rfl
  ends := False.elim
  ended h := h.2.ended
  length_le h := by rw [h.1]
  current h := .inl (by rw [h.1]; exact ⟨rfl, h.2.current⟩)
  last _ := False.elim
  advance hc hr hr' _ hon := by
    obtain ⟨rfl, hc⟩ := hc
    exact ⟨behind_eq hr hr', hc.behind hr hon.isBefore.ne_eof⟩
  report {c c' e e'} hc he := by
    obtain ⟨rfl, hc⟩ := hc
    obtain ⟨rfl, he⟩ := he
    refine ⟨rfl, hc.ended, hc.rest, fun e' he' => ?_⟩
    obtain he' | he' := List.mem_append.mp he'
    · exact hc.reported e' he'
    · rw [List.mem_singleton.mp he']
      exact he
  span hc ht := by rw [hc.1, ht.1, id]
  error _ h := by rw [h.1]; exact ⟨rfl, h.2⟩
  error_tails _ _ := False.elim
  missingEnd _ h hs := by rw [h.1, hs.1]; exact ⟨rfl, h.2⟩
  tooLong {t t' e} h hk hn := ⟨t, h.2, hk, hn⟩

instance (among : Token → Prop) : (Likeness.self o among).Closed where
  ends := False.elim
  pass hc hr hr' _ hk := by
    obtain ⟨rfl, hc⟩ := hc
    exact ⟨behind_eq hr hr', hc.behind hr hk⟩

variable {among : Token → Prop}

theorem self_same {n n' : Node} (h : (Likeness.self o among).Same n n') : n' = n :=
  Eq.trans h n.moved_id

theorem self_sameRow {ns ns' : List Node} (h : (Likeness.self o among).SameRow ns ns') : ns' = ns :=
  Eq.trans h (movedNodes_id ns)

/-- What ends alike in one reading is the same. -/
theorem eq_of_alike {j : Nat} {P : α → α → Prop} (hP : ∀ a a', P a a' → a' = a)
    {x x' : EStateM.Result Stop Cursor α} (h : (Likeness.self o among).Alike j P x x') : x' = x := by
  cases h with
  | ok ha hd => rw [hP _ _ ha, hd.1]
  | malformed he hd => rw [he.1, hd.1]
  | fault he hd => rw [hd.1]

/-- A reading beside itself, where nothing has to be known of its source. -/
abbrev Likeness.same (o : Options) : Likeness o o := .self o fun _ => True

theorem same_cursors {c : Cursor} (hc : c.Ended) : (Likeness.same o).cursors c c :=
  ⟨rfl, hc, fun _ _ => trivial, fun _ _ => trivial⟩

theorem same_token (t : Token) : (Likeness.same o).tokens t t := ⟨rfl, trivial⟩

theorem eq_of_mirrors {k j : Nat} {P : α → α → Prop} {r r' : Reader α}
    (h : (Likeness.same o).Mirrors k j P r r') (hP : ∀ a a', P a a' → a' = a)
    {c : Cursor} (hc : c.Ended) (hlen : c.rest.length ≤ k) : r' c = r c :=
  eq_of_alike hP (h.alike (same_cursors hc) hlen)

/-! ## Bounds -/

/-- A bound on a loop that is never reached: from the tokens ahead on, it does not matter. -/
def Suffices (loop : Nat → Reader α) : Prop :=
  ∀ {c : Cursor} {n n' : Nat}, c.Ended → c.rest.length ≤ n → c.rest.length ≤ n' → loop n' c = loop n c

/-- No loop of the readers ends because of its bound. -/
structure BoundsSuffice (o : Options) : Prop where
  product (levels : Nat) (start : Token) (left : Node) : Suffices fun n =>
    chainFrom o start multiplicative? (readSign o (readLevel o levels)) .arithmetic n left
  sum (levels : Nat) (start : Token) (left : Node) : Suffices fun n =>
    chainFrom o start additive? (readProduct o (readLevel o levels)) .arithmetic n left
  conjunction (levels : Nat) (start : Token) (left : Node) : Suffices fun n =>
    chainFrom o start (word? "and") (readNegation o (readLevel o levels))
      (fun span _ => .logic span .and) n left
  disjunction (levels : Nat) (start : Token) (left : Node) : Suffices fun n =>
    chainFrom o start (word? "or") (readAnd o (readLevel o levels)) (fun span _ => .logic span .or)
      n left
  items (levels : Nat) (closing : Closing) : Suffices (readItems (readLevel o levels) closing)
  suffixes (levels : Nat) (start : Token) (e : Node) : Suffices fun n =>
    readSuffixes o (readLevel o levels) start n e
  skipped : Suffices skipStatement
  /-- Conditions are read from the word that begins them, with what reads their bodies. -/
  conditions {c : Cursor} {m n n' : Nat} : c.Ended → c.current.isWord "if" = true →
    c.rest.length ≤ m → c.rest.length ≤ n → c.rest.length ≤ n' →
    readBranch o (readStatements o m) n' c = readBranch o (readStatements o m) n c
  statements : Suffices (readStatements o)
  sections : Suffices (readSectionBody o)

theorem suffices_chainFrom {sign? : Token → Option α} {operand : Reader Node}
    {combine : Span → α → Node → Node → Node}
    (hsign : ∀ t t', (Likeness.same o).Meets t t' → sign? t' = sign? t)
    (hon : ∀ t a, sign? t = some a → GoesOn t)
    (ho : ∀ k, (Likeness.same o).Mirrors (k + 1) k (Likeness.same o).Same operand operand)
    (hcombine : CombinesPlaces id combine) (start : Token) (left : Node) :
    Suffices fun n => chainFrom o start sign? operand combine n left :=
  fun hc hn hn' => eq_of_mirrors (mirrors_chainFrom hsign hon ho hcombine (same_token start)
    left.moved_id.symm _ _ hn hn') (fun _ _ => self_same) hc (Nat.le_refl _)

theorem bounds_suffice (o : Options) : BoundsSuffice o where
  product levels := suffices_chainFrom (fun _ _ => Likeness.Meets.multiplicative?)
    (fun _ _ => chains_product.goesOn) (fun _ => mirrors_readSign (mirrors_readLevel levels))
    fun _ _ _ _ => rfl
  sum levels := suffices_chainFrom (fun _ _ => Likeness.Meets.additive?)
    (fun _ _ => chains_sum.goesOn) (fun _ => mirrors_readProduct (mirrors_readLevel levels))
    fun _ _ _ _ => rfl
  conjunction levels := suffices_chainFrom (fun _ _ => Likeness.Meets.word? "and")
    (fun _ _ => chains_conjunction.goesOn) (fun _ => mirrors_readNegation (mirrors_readLevel levels))
    fun _ _ _ _ => rfl
  disjunction levels := suffices_chainFrom (fun _ _ => Likeness.Meets.word? "or")
    (fun _ _ => chains_disjunction.goesOn) (fun _ => mirrors_readAnd (mirrors_readLevel levels))
    fun _ _ _ _ => rfl
  items levels closing _ _ _ hc hn hn' :=
    eq_of_mirrors (mirrors_readItems (mirrors_readLevel levels) closing _ _ hn hn')
      (fun _ _ => self_sameRow) hc (Nat.le_refl _)
  suffixes levels start e _ _ _ hc hn hn' :=
    eq_of_mirrors (mirrors_readSuffixes (mirrors_readLevel levels) (same_token start)
      e.moved_id.symm _ _ hn hn')
      (fun _ _ => self_same) hc (Nat.le_refl _)
  skipped hc hn hn' :=
    eq_of_mirrors (o := o) (mirrors_skipStatement _ _ hn hn') (fun _ _ h => h.symm) hc (Nat.le_refl _)
  conditions {c m n n'} hc hw hm hn hn' := by
    have hcursors : (Likeness.same o).cursors c c := same_cursors hc
    obtain ⟨k, hk⟩ := Nat.exists_eq_add_one_of_ne_zero (Nat.ne_of_gt (Likeness.length_pos hcursors))
    rw [hk] at hm hn hn'
    have hs (j : Nat) (hj : j ≤ k) : (Likeness.same o).Mirrors j j (Likeness.same o).SameRow
        (readStatements o m) (readStatements o m) :=
      have hjm := Nat.le_trans hj (Nat.le_of_succ_le hm)
      mirrors_readStatements m m hjm hjm
    have hstays := stays_readStatements o m
    exact eq_of_alike (fun _ _ => self_same) ((mirrorsAt_readBranch hs hstays hstays n n' hn hn'
      (same_token _) hw).alike hcursors rfl rfl (Nat.le_of_eq hk))
  statements hc hn hn' :=
    eq_of_mirrors (mirrors_readStatements _ _ hn hn') (fun _ _ => self_sameRow) hc (Nat.le_refl _)
  sections hc hn hn' :=
    eq_of_mirrors (mirrors_readSectionBody _ _ hn hn') (fun _ _ => self_sameRow) hc (Nat.le_refl _)

/-! ## Syntax errors -/

/-- A reader that does not stop at a syntax error. -/
def Settles (r : Reader α) : Prop := ∀ c e d, r c ≠ .error (.malformed e) d

namespace Settles

protected theorem pure (a : α) : Settles (pure a : Reader α) := fun _ _ _ h => by cases h

protected theorem bind {r : Reader α} {f : α → Reader β} (hr : Settles r) (hf : ∀ a, Settles (f a)) :
    Settles (r >>= f) := by
  intro c e d h
  rw [bind_run] at h
  cases hc : r c with
  | ok a c₁ =>
    rw [hc] at h
    exact hf a c₁ e d h
  | error x c₁ =>
    rw [hc] at h
    cases h
    exact hr c e d hc

theorem get : Settles (get : Reader Cursor) := fun _ _ _ h => by cases h

theorem current : Settles current := get.bind fun _ => .pure _

theorem spanFrom (o : Options) (start : Token) : Settles (spanFrom o start) := get.bind fun _ => .pure _

theorem report (e : SyntaxError) : Settles (report e) := fun _ _ _ h => by cases h

theorem advance : Settles advance := by
  intro c e d h
  rw [Grammar.advance, bind_of_ok (get_run c)] at h
  cases hr : c.rest with
  | nil =>
    rw [hr] at h
    cases h
  | cons t us =>
    rw [hr] at h
    dsimp only at h
    split at h <;> cases h

theorem skipStatement (fuel : Nat) : Settles (skipStatement fuel) := by
  induction fuel with
  | zero => exact .pure _
  | succ fuel ih =>
    refine current.bind fun t => ?_
    split
    · exact advance.bind fun _ => ih
    · exact .pure _

theorem skipBehind (e : SyntaxError) : Settles (skipBehind e) :=
  (report e).bind fun _ => get.bind fun _ => (skipStatement _).bind fun _ => .pure _

/-- A statement that does not follow the grammar is skipped. -/
theorem readOrSkip (o : Options) (statements : Reader (List Node)) :
    Settles (readOrSkip o statements) := by
  intro c e d h
  rw [readOrSkip_run] at h
  cases hr : readStatement o statements c with
  | ok n c₁ =>
    rw [hr] at h
    cases h
  | error x c₁ =>
    rw [hr] at h
    cases x with
    | malformed problem => exact skipBehind problem c₁ e d h
    | fault => cases h

theorem readStatements (o : Options) (fuel : Nat) : Settles (readStatements o fuel) := by
  induction fuel with
  | zero => exact .pure _
  | succ fuel ih =>
    refine current.bind fun t => ?_
    split
    · exact .pure _
    split
    · exact advance.bind fun _ => ih
    split
    · exact advance.bind fun _ => (spanFrom _ _).bind fun _ => ih.bind fun _ => .pure _
    · exact (readOrSkip _ _).bind fun _ => ih.bind fun _ => .pure _

theorem readSectionBody (o : Options) (fuel : Nat) : Settles (readSectionBody o fuel) := by
  induction fuel with
  | zero => exact .pure _
  | succ fuel ih =>
    refine get.bind fun c => (readStatements o _).bind fun body => current.bind fun t => ?_
    split
    · exact .pure _
    · exact (report _).bind fun _ => advance.bind fun _ => ih.bind fun _ => .pure _

theorem readSection (o : Options) : Settles (readSection o) :=
  current.bind fun _ => get.bind fun _ => (readSectionBody o _).bind fun _ =>
    (spanFrom _ _).bind fun _ => .pure _

theorem readPageBody (o : Options) (start : Token) (front : Node) :
    Settles (readPageBody o start front) :=
  (readSection o).bind fun _ => (spanFrom _ _).bind fun _ => .pure _

theorem readPage (o : Options) : Settles (readPage o) := by
  rw [readPage_eq]
  refine current.bind fun t => ?_
  split
  · refine advance.bind fun _ => (readSection o).bind fun front => current.bind fun u => ?_
    split
    · exact advance.bind fun _ => readPageBody o t front
    · exact readPageBody o t front
  · exact readPageBody o t .absent

end Settles

/-- A page is read from every row of tokens, unless one of them has too many digits. What is
reported is about tokens of the row. -/
theorem readPage_total (o : Options) {tokens : List Token} (h : ∃ t ∈ tokens, t.kind = .eof) :
    (∃ page c, readPage o { rest := tokens } = .ok page c ∧ ∀ e ∈ c.reported, e.token ∈ tokens) ∨
      ∃ e c, readPage o { rest := tokens } = .error (.fault e) c ∧ TooLong (· ∈ tokens) e := by
  have hcursors : (Likeness.self o (· ∈ tokens)).cursors { rest := tokens } { rest := tokens } :=
    ⟨rfl, h, fun _ ht => ht, fun _ he => absurd he List.not_mem_nil⟩
  have halike := (mirrors_readPage fun _ _ => id).alike hcursors (Nat.le_refl _)
  cases hr : readPage o { rest := tokens } with
  | ok page c =>
    rw [hr] at halike
    cases halike with
    | ok _ hc => exact .inl ⟨page, c, rfl, hc.2.reported⟩
  | error x c =>
    cases x with
    | malformed e => exact absurd hr (Settles.readPage o _ e c)
    | fault e =>
      rw [hr] at halike
      cases halike with
      | fault he => exact .inr ⟨e, c, rfl, he⟩

/-! ## Numbers that are too long -/

/-- A reader that stops at a fault. -/
def FaultsAt (e : Fault) (r : Reader α) (c : Cursor) : Prop := ∃ d, r c = .error (.fault e) d

namespace FaultsAt

variable {e : Fault} {c d : Cursor}

theorem bind {r : Reader α} (h : FaultsAt e r c) (f : α → Reader β) : FaultsAt e (r >>= f) c := by
  obtain ⟨d, hd⟩ := h
  exact ⟨d, bind_of_error hd⟩

/-- A fault behind what was read. -/
theorem behind {r : Reader α} {f : α → Reader β} {a : α} (hr : r c = .ok a d) (h : FaultsAt e (f a) d) :
    FaultsAt e (r >>= f) c := by
  obtain ⟨d', hd⟩ := h
  exact ⟨d', (bind_of_ok hr).trans hd⟩

theorem chain {sign? : Token → Option α} {operand : Reader Node}
    {combine : Span → α → Node → Node → Node} (h : FaultsAt e operand c) :
    FaultsAt e (chain o sign? operand combine) c :=
  .behind (current_run c) (h.bind _)

end FaultsAt

/-- The token ahead is a number with too many digits. -/
structure Cursor.AtTooLong (e : Fault) (c : Cursor) : Prop where
  kind : c.current.kind = .integer
  natural : natural c.current.value.toList = .error e

section TooLong

variable {e : Fault} {c : Cursor} (h : c.AtTooLong e)

include h

theorem faults_readPrimary (inner : Inner) : FaultsAt e (readPrimary o inner) c := by
  have hne : c.current.kind ≠ .eof := by rw [h.kind]; decide
  obtain ⟨us, hr⟩ := Cursor.rest_of_current hne
  refine .behind (current_run c) ?_
  rw [h.kind]
  refine .behind (advance_run hr hne) (.behind (spanFrom_run _ _ _) (.bind ⟨c.behind c.current us, ?_⟩ _))
  rw [numberOf, h.natural]
  rfl

/-- No word is a number. -/
theorem isWord_of_atTooLong (word : String) : c.current.isWord word = false := by
  rw [Token.isWord, h.kind]
  rfl

theorem faults_readSign (inner : Inner) : FaultsAt e (readSign o inner) c := by
  refine .behind (current_run c) ?_
  rw [h.kind]
  exact .behind (current_run c) ((faults_readPrimary h inner).bind _)

theorem faults_readNegation (inner : Inner) : FaultsAt e (readNegation o inner) c := by
  refine .behind (current_run c) ?_
  rw [isWord_of_atTooLong h]
  exact .behind (current_run c) ((faults_readSign h inner).chain.chain.bind _)

theorem faults_readExpression (hdepth : 0 < o.depthLimit) : FaultsAt e (readExpression o) c := by
  obtain ⟨levels, hlevels⟩ : ∃ levels, o.depthLimit.toNat = levels + 1 :=
    Nat.exists_eq_add_one_of_ne_zero (by omega)
  rw [readExpression, hlevels]
  exact (faults_readNegation h _).chain.chain

/-- Nothing is read of a template where a statement begins with such a number. -/
theorem faults_readStatements (hdepth : 0 < o.depthLimit) (n : Nat) :
    FaultsAt e (readStatements o (n + 1)) c := by
  have hstatement : FaultsAt e (readStatement o (readStatements o n)) c := by
    refine .behind (current_run c) ?_
    rw [isWord_of_atTooLong h, isWord_of_atTooLong h]
    obtain ⟨u, hu⟩ := following_total c
    refine .behind hu ?_
    rw [h.kind]
    exact .behind (current_run c) ((faults_readExpression h hdepth).bind _)
  obtain ⟨d, hd⟩ := hstatement
  refine .behind (current_run c) ?_
  rw [belongsToBlock, isWord_of_atTooLong h, isWord_of_atTooLong h, endsSection, isSeparator, h.kind]
  exact .bind ⟨d, by rw [readOrSkip_run, hd]⟩ _

end TooLong

/-- A number alone in a block of code. -/
theorem faults_readPage {e : Fault} {t u : Token} {us : List Token} (ht : t.kind = .codeEnter)
    (hu : u.kind = .integer) (hn : natural u.value.toList = .error e) (hdepth : 0 < o.depthLimit) :
    FaultsAt e (readPage o) { rest := t :: u :: us } := by
  have hcur : (Cursor.mk none (t :: u :: us) []).current = t := rfl
  have hlong : ((Cursor.mk none (t :: u :: us) []).behind t (u :: us)).AtTooLong e := ⟨hu, hn⟩
  have hne : t.kind ≠ .eof := by rw [ht]; decide
  have hstatements (n : Nat) :
      FaultsAt e (readStatements o (n + 2)) (Cursor.mk none (t :: u :: us) []) := by
    refine .behind (current_run _) ?_
    rw [hcur, belongsToBlock, Token.isWord, Token.isWord, endsSection, isSeparator, ht]
    exact .behind (advance_run rfl hne) (faults_readStatements hlong hdepth n)
  refine .behind (current_run _) ?_
  rw [hcur, ht]
  exact .bind (.behind (current_run _) (.behind (get_run _) (.bind (.behind (get_run _)
    ((hstatements _).bind _)) _))) _

end Stencil.Grammar

namespace Stencil

open Grammar

/-! ## Templates -/

theorem digitLimit_lt_of_natural {digits : List Char} {e : Fault} (h : natural digits = .error e) :
    digitLimit < digits.length ∧ e = .tooManyDigitsToRead digits.length := by
  unfold natural at h
  split at h
  · next hlt =>
    cases h
    exact ⟨hlt, rfl⟩
  · cases h

/-- The tokens of a source end. -/
theorem Lexed.ended (l : Lexed) : ∃ t ∈ l.tokens, t.kind = .eof :=
  ⟨Token.eof l.stop, List.mem_append_right _ List.mem_cons_self, rfl⟩

namespace Template

variable {options : TemplateOptions} {path : Option String} {source : String}

/-- The settings of the grammar. -/
abbrev grammar (options : TemplateOptions) (path : Option String) : Grammar.Options :=
  { file := path, depthLimit := options.depthLimit }

/-- The tokens of a source. -/
abbrev tokens (options : TemplateOptions) (source : String) : List Token :=
  (lex options.lexer source.toList).tokens

/-- What a source is read as, once it is known to be read. -/
theorem parse_of_toBool (h : (Template.parse options path source).toBool = true) :
    Template.parse options path source = .ok ((Template.parse options path source).toOption.getD {}) := by
  cases hparse : Template.parse options path source with
  | ok t => rfl
  | error e =>
    rw [hparse] at h
    cases h

/-- A source that is not empty is a page, and what was reported. -/
theorem parse_of_readPage (hsource : source ≠ "") {page : Page} {c : Cursor}
    (h : readPage (grammar options path) { rest := tokens options source } = .ok page c) :
    Template.parse options path source = .ok {
      page := some page
      path
      diagnostics := (lex options.lexer source.toList).diagnostics path ++
        c.reported.map (SyntaxError.diagnostic path)
      source } := by
  have hpage : pageOf (grammar options path) (tokens options source) = .ok (page, c.reported) := by
    rw [pageOf, EStateM.run, h]
  rw [Template.parse, if_neg hsource]
  exact congrArg (· >>= _) hpage

theorem parse_of_fault (hsource : source ≠ "") {e : Fault} {c : Cursor}
    (h : readPage (grammar options path) { rest := tokens options source } = .error (.fault e) c) :
    Template.parse options path source = .error e := by
  have hpage : pageOf (grammar options path) (tokens options source) = .error e := by
    rw [pageOf, EStateM.run, h]
  rw [Template.parse, if_neg hsource]
  exact congrArg (· >>= _) hpage

/-- A template that is read is a page, unless there is no source, and what was reported. That is about
tokens of the source. -/
theorem parse_ok {t : Template} (h : Template.parse options path source = .ok t) :
    source = "" ∧ t = { path } ∨
      source ≠ "" ∧ ∃ page c,
        readPage (grammar options path) { rest := tokens options source } = .ok page c ∧
        t.page = some page ∧ t.path = path ∧ t.source = source ∧
        t.diagnostics = (lex options.lexer source.toList).diagnostics path ++
          c.reported.map (SyntaxError.diagnostic path) ∧
        ∀ e ∈ c.reported, e.token ∈ tokens options source := by
  by_cases hempty : source = ""
  · rw [Template.parse, if_pos hempty] at h
    exact .inl ⟨hempty, (Except.ok.inj h).symm⟩
  obtain ⟨page, c, hread, hreported⟩ | ⟨e, c, hread, -⟩ :=
    readPage_total (grammar options path) (lex options.lexer source.toList).ended
  · rw [parse_of_readPage hempty hread] at h
    obtain rfl := Except.ok.inj h
    exact .inr ⟨hempty, page, c, hread, rfl, rfl, rfl, rfl, hreported⟩
  · rw [parse_of_fault hempty hread] at h
    cases h

/-- What comes of reading a template. Every loop of the reader ends by itself. A template comes of
it whose diagnostics are those of the tokens and then those of the grammar, in the order in which
they came up; or else there is a literal with more digits than are read, and no template at all. -/
theorem parse_total (options : TemplateOptions) (path : Option String) (source : String) :
    BoundsSuffice (grammar options path) ∧
      match Template.parse options path source with
      | .ok t =>
        (t.hasErrors = true ↔ ∃ d ∈ t.diagnostics, d.severity = .error) ∧
        (source = "" ∧ t = { path } ∨
          source ≠ "" ∧ ∃ page c,
            readPage (grammar options path) { rest := tokens options source } = .ok page c ∧
            t.page = some page ∧ t.path = path ∧ t.source = source ∧
            t.diagnostics = (lex options.lexer source.toList).diagnostics path ++
              c.reported.map (SyntaxError.diagnostic path))
      | .error e => ∃ t ∈ tokens options source, (t.kind = .integer ∨ t.kind = .argument) ∧
          digitLimit < t.value.toList.length ∧ e = .tooManyDigitsToRead t.value.toList.length := by
  have herrors (t : Template) : t.hasErrors = true ↔ ∃ d ∈ t.diagnostics, d.severity = .error := by
    simp only [Template.hasErrors, Stencil.hasErrors, List.any_eq_true, Diagnostic.isError, beq_iff_eq]
  refine ⟨bounds_suffice _, ?_⟩
  cases h : Template.parse options path source with
  | ok t =>
    refine ⟨herrors t, (parse_ok h).imp_right ?_⟩
    rintro ⟨hempty, page, c, hread, hpage, hpath, hsource, hdiagnostics, -⟩
    exact ⟨hempty, page, c, hread, hpage, hpath, hsource, hdiagnostics⟩
  | error e =>
    have hempty : source ≠ "" := by
      rintro rfl
      cases h
    obtain ⟨page, c, hread, -⟩ | ⟨e', c, hread, t, ht, hk, hn⟩ :=
      readPage_total (grammar options path) (lex options.lexer source.toList).ended
    · rw [parse_of_readPage hempty hread] at h
      cases h
    · obtain ⟨hlt, he⟩ := digitLimit_lt_of_natural hn
      rw [parse_of_fault hempty hread] at h
      cases h
      exact ⟨t, ht, hk, hlt, he⟩

/-- The atoms of a block of code with a number of `n` digits. -/
def numberBlock (n : Nat) : List Atom :=
  [.enter, ⟨.integer, String.ofList (List.replicate n '1')⟩, .exit]

/-- There is no template where a number has more digits than are read. -/
theorem parse_numberBlock {n : Nat} (hn : digitLimit < n) (path : Option String) :
    Template.parse {} path (String.ofList (layout (numberBlock n))) =
      .error (.tooManyDigitsToRead n) := by
  obtain ⟨m, rfl⟩ := Nat.exists_eq_add_one_of_ne_zero (Nat.ne_zero_of_lt hn)
  have hdigits : (String.ofList (List.replicate (m + 1) '1')).toList = '1' :: List.replicate m '1' :=
    String.toList_ofList
  have hcut : (Atom.mk .integer (String.ofList (List.replicate (m + 1) '1'))).IsCut :=
    isCut_integer hdigits fun d hd => by
      rw [List.eq_of_mem_replicate (n := m + 1) hd]
      rfl
  have hlays : Lays false (numberBlock (m + 1)) := .enter (.atom hcut (.exit .nil))
  have hmode : ({} : LexerOptions).mode = .default := rfl
  obtain ⟨-, ts, p, htokens, hatoms⟩ := hlays.lexes hmode path
  obtain ⟨t, ts, rfl, ht, hatoms⟩ := List.map_eq_cons_iff.mp hatoms
  obtain ⟨u, ts, rfl, hu, -⟩ := List.map_eq_cons_iff.mp hatoms
  have hnatural : natural u.value.toList = .error (.tooManyDigitsToRead (m + 1)) := by
    have hvalue : u.value = String.ofList (List.replicate (m + 1) '1') := congrArg Atom.value hu
    rw [natural, hvalue, String.toList_ofList, List.length_replicate, if_pos hn]
  have hfaults : FaultsAt (.tooManyDigitsToRead (m + 1)) (readPage (grammar {} path))
      { rest := t :: u :: (ts ++ [.eof p]) } :=
    faults_readPage (congrArg Atom.kind ht) (congrArg Atom.kind hu) hnatural
      (Int.ofNat_lt.mpr (Nat.succ_pos 63))
  obtain ⟨d, hd⟩ := hfaults
  refine parse_of_fault ?_ (c := d) ?_
  · intro h
    have hlist := congrArg String.toList h
    rw [String.toList_ofList] at hlist
    exact List.cons_ne_nil _ _ hlist
  · rw [tokens, String.toList_ofList, htokens]
    exact hd

/-- Reading does not always end in a template. -/
theorem not_parse_always : ¬ ∀ (options : TemplateOptions) (path : Option String) (source : String),
    ∃ t, Template.parse options path source = .ok t := by
  intro h
  obtain ⟨t, ht⟩ := h {} none (String.ofList (layout (numberBlock (digitLimit + 1))))
  rw [parse_numberBlock (Nat.lt_succ_self _)] at ht
  cases ht

end Template

end Stencil

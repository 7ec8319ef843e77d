import Stencil.Proofs.Completeness
import Stencil.Proofs.Soundness

/-!
# What the parser accepts

As long as no expression nests too deeply, the statements of a derivation are read
without a complaint; a complaint that one does stays among what is reported
(`Overrun`), whatever is read afterwards. Together with what is known of readers
that do not complain, the parser accepts what the grammar derives and nothing else
(`accepts_iff_grammatical`).
-/

namespace Stencil.Grammar

variable {α β : Type} {stops deep : Prop} {reported : List SyntaxError} {ts us : List Token}

/-! ## Outcomes of statements -/

/-- It was reported that an expression nests too deeply. -/
def Overrun (c : Cursor) : Prop := ∃ x ∈ c.reported, IsTooDeep x

theorem Overrun.extends {c d : Cursor} (h : Overrun c) (hd : c.Extends d) : Overrun d := by
  obtain ⟨x, hx, hdeep⟩ := h
  exact ⟨x, hd.subset hx, hdeep⟩

/-- Reading came to what is expected, or found out that an expression nests too
deeply. That was reported, unless reading `stops` at it. -/
def Lands (stops deep : Prop) (reported : List SyntaxError) (expected : α → Cursor → Prop)
    (r : EStateM.Result Stop Cursor α) : Prop :=
  (∃ a d, r = .ok a d ∧ expected a d ∧ d.reported = reported) ∨
    deep ∧ ((∃ a d, r = .ok a d ∧ Overrun d) ∨
      ∃ x d, r = .error x d ∧ (Overrun d ∨ stops ∧ ∃ e, x = .malformed e ∧ IsTooDeep e))

theorem Lands.mono {expected : α → Cursor → Prop} {r : EStateM.Result Stop Cursor α}
    (h : Lands stops deep reported expected r) (deep' : Prop) (hd : deep → deep') :
    Lands stops deep' reported expected r :=
  h.imp id fun h => ⟨hd h.1, h.2⟩

/-- What reports everything does not stop. -/
theorem Lands.of_reports {expected : α → Cursor → Prop} {r : EStateM.Result Stop Cursor α}
    (h : Lands False deep reported expected r) : Lands True deep reported expected r := by
  obtain h | ⟨hdeep, h | ⟨x, d, hr, h | ⟨h, -⟩⟩⟩ := h
  · exact .inl h
  · exact .inr ⟨hdeep, .inl h⟩
  · exact .inr ⟨hdeep, .inr ⟨x, d, hr, .inl h⟩⟩
  · exact h.elim

theorem Lands.bind {r : Reader α} {f : α → Reader β} {c : Cursor} {expected : α → Cursor → Prop}
    {expected' : β → Cursor → Prop} (h : Lands stops deep reported expected (r c))
    (hm : ∀ a, Moves Cursor.Extends (f a))
    (hf : ∀ a d, expected a d → d.reported = reported →
      Lands stops deep reported expected' (f a d)) :
    Lands stops deep reported expected' ((r >>= f) c) := by
  obtain ⟨a, d, hr, ha, hrep⟩ | ⟨hdeep, ⟨a, d, hr, ho⟩ | ⟨x, d, hr, ho⟩⟩ := h
  · rw [bind_of_ok hr]
    exact hf a d ha hrep
  · rw [bind_of_ok hr]
    have ho' := ho.extends (hm a d)
    refine .inr ⟨hdeep, ?_⟩
    cases hfr : f a d with
    | ok b e =>
      rw [after_of_ok hfr] at ho'
      exact .inl ⟨b, e, rfl, ho'⟩
    | error x e =>
      rw [after_of_error hfr] at ho'
      exact .inr ⟨x, e, rfl, .inl ho'⟩
  · exact .inr ⟨hdeep, .inr ⟨x, d, bind_of_error hr, ho⟩⟩

/-- What is read behind an expression. -/
theorem Gives.bindLands {r : Reader α} {f : α → Reader β} {c : Cursor} {expected : α → Prop}
    {expected' : β → Cursor → Prop} (h : Gives deep reported expected us (r c))
    (hf : ∀ a d, expected a → d.rest = us → d.reported = reported →
      Lands True deep reported expected' (f a d)) :
    Lands True deep reported expected' ((r >>= f) c) := by
  obtain ⟨a, d, hr, ha, hd, hrep⟩ | ⟨x, d, hr, hdeep, hx, hrep⟩ := h
  · rw [bind_of_ok hr]
    exact hf a d ha hd hrep
  · exact .inr ⟨hdeep, .inr ⟨_, d, bind_of_error hr, .inr ⟨trivial, x, rfl, hx⟩⟩⟩

theorem Lands.pure {a : α} {d : Cursor} {expected : α → Cursor → Prop} (ha : expected a d)
    (hrep : d.reported = reported) : Lands stops deep reported expected ((pure a : Reader α) d) :=
  .inl ⟨a, d, rfl, ha, hrep⟩

/-! ## Ends of statements -/

/-- `d` comes behind the end of a statement that is ahead of `c`. Reading statements
from there is to read them from `c`, where the end is a separator. -/
structure PastEnd (o : Options) (c d : Cursor) : Prop where
  run : readStatementEnd c = .ok () d
  reported : d.reported = c.reported
  statements : ∃ k, d.rest.length + k = c.rest.length ∧
    ∀ fuel, readStatements o (fuel + k) c = readStatements o fuel d

theorem Ends.cons (h : Ends ts) : ∃ t us, ts = t :: us ∧ endsStatement t = true := by
  obtain ⟨t, ht, he⟩ := h
  cases ts with
  | nil => cases ht
  | cons u us =>
    cases ht
    exact ⟨_, us, rfl, he⟩

theorem Ends.pastEnd (o : Options) {c : Cursor} (h : Ends c.rest) : ∃ d, PastEnd o c d := by
  obtain ⟨t, us, hr, he⟩ := h.cons
  have hcur := Cursor.current_of_rest hr
  by_cases hk : t.kind = .newline ∨ t.kind = .semicolon
  · have hne : t.kind ≠ .eof := by rintro hk'; rw [hk'] at hk; simp at hk
    have hsep : isSeparator t = true := by
      rcases hk with hk | hk <;> simp only [isSeparator, hk]
    have hnot : (endsSection t || belongsToBlock t) = false := by
      rcases hk with hk | hk <;> simp [endsSection, belongsToBlock, Token.isWord, hk]
    have hkb : (t.kind == .newline || t.kind == .semicolon) = true := by simpa using hk
    refine ⟨c.behind t us, ⟨?_, rfl, 1, ?_, fun fuel => ?_⟩⟩
    · rw [readStatementEnd, bind_of_ok (current_run c), hcur]
      simp only [he, Bool.not_true, Bool.false_eq_true, if_false, hkb, if_true]
      rw [bind_of_ok (advance_run hr hne)]
      rfl
    · rw [hr]
      rfl
    · rw [readStatements, bind_of_ok (current_run c), hcur, hnot, if_neg Bool.false_ne_true,
        if_pos hsep, bind_of_ok (advance_run hr hne)]
  · have hkb : (t.kind == .newline || t.kind == .semicolon) = false := by simpa using hk
    refine ⟨c, ⟨?_, rfl, 0, rfl, fun fuel => rfl⟩⟩
    rw [readStatementEnd, bind_of_ok (current_run c), hcur]
    simp only [he, Bool.not_true, Bool.false_eq_true, if_false, hkb]
    rfl

/-- Behind a part of a template the end of a statement is read. -/
def EndsBehind (o : Options) (us : List Token) (d : Cursor) : Prop :=
  ∃ c, c.rest = us ∧ PastEnd o c d

/-- What ends the statements of a block or of a section. -/
def Stops (us : List Token) : Prop :=
  ∃ t ∈ us.head?, (endsSection t || belongsToBlock t) = true

theorem stops_of_isWord {t : Token} (h : t.isWord "end" = true ∨ t.isWord "else" = true) :
    Stops (t :: us) := by
  refine ⟨t, rfl, ?_⟩
  rcases h with h | h <;> simp [belongsToBlock, h]

/-! ## Where statements begin -/

theorem isWord_eq_false {t : Token} {v w : String} (h : t.isWord v = true) (hne : v ≠ w) :
    t.isWord w = false := by
  rw [Token.isWord, Bool.and_eq_true, beq_iff_eq, beq_iff_eq] at h
  simp [Token.isWord, h.2, hne]

/-- A word that is not reserved is none of those that are. -/
theorem isWord_of_not_mem {t : Token} {w : String} (h : t.value ∉ reservedWords)
    (hw : w ∈ reservedWords) : t.isWord w = false := by
  rw [Token.isWord, Bool.and_eq_false_iff]
  exact .inr (beq_eq_false_iff_ne.mpr fun e => h (e ▸ hw))

/-- A word that begins an expression is none that begins or ends a block. -/
theorem isWord_of_starts {t : Token} (h : Level.disjunction.starts t = true) {w : String}
    (hw : w ∈ ["if", "for", "end", "else"]) : t.isWord w = false := by
  cases hword : t.isWord w with
  | false => rfl
  | true =>
    rw [Token.isWord, Bool.and_eq_true, beq_iff_eq, beq_iff_eq] at hword
    simp only [Level.starts, startsPrimary, Token.isWord, hword.1, hword.2] at h
    simp only [List.mem_cons, List.not_mem_nil, or_false] at hw
    rcases hw with rfl | rfl | rfl | rfl <;> revert h <;> decide

/-- A token that a statement may begin with is none of those that stand between or
behind statements. -/
theorem Parses.starts {n : Node} (h : Parses .statement ts n us) :
    ∃ t rest, ts = t :: rest ∧ (endsSection t || belongsToBlock t) = false ∧
      isSeparator t = false ∧ (t.kind == .text) = false := by
  have hidentifier {t : Token} (hk : t.kind = .identifier) (hend : t.isWord "end" = false)
      (helse : t.isWord "else" = false) : (endsSection t || belongsToBlock t) = false ∧
        isSeparator t = false ∧ (t.kind == .text) = false := by
    simp [endsSection, belongsToBlock, isSeparator, hk, hend, helse]
  cases h with
  | expression h =>
    obtain ⟨t, rest, rfl, ht⟩ := h.starts (by decide)
    refine ⟨t, rest, rfl, ?_⟩
    have hend := isWord_of_starts ht (w := "end") (by decide)
    have helse := isWord_of_starts ht (w := "else") (by decide)
    by_cases hk : t.kind = .identifier
    · exact hidentifier hk hend helse
    · have hnot : t.isWord "not" = false := by simp [Token.isWord, hk]
      simp only [Level.starts, hnot, Bool.or_false] at ht
      cases hkind : t.kind <;>
        simp_all [startsPrimary, endsSection, belongsToBlock, isSeparator]
  | assign hk hv =>
    exact ⟨_, _, rfl, hidentifier hk (isWord_of_not_mem hv (by decide))
      (isWord_of_not_mem hv (by decide))⟩
  | loop ht =>
    exact ⟨_, _, rfl, hidentifier (kind_of_isWord ht) (isWord_eq_false ht (by decide))
      (isWord_eq_false ht (by decide))⟩
  | conditions h =>
    cases h with
    | when ht | whenElse ht | whenElseWhen ht =>
      exact ⟨_, _, rfl, hidentifier (kind_of_isWord ht) (isWord_eq_false ht (by decide))
        (isWord_eq_false ht (by decide))⟩

theorem Parses.isWord_if {n : Node} (h : Parses .conditions ts n us) :
    ∃ t rest, ts = t :: rest ∧ t.isWord "if" = true := by
  cases h with
  | when ht | whenElse ht | whenElseWhen ht => exact ⟨_, _, rfl, ht⟩

/-- An expression in front of the end of a statement is no assignment. -/
theorem Derives.no_assign {l : Level} {e : Node} (h : Derives l ts e us) (hl : l ≠ .sequence)
    (hu : Ends us) : ∃ t u rest, ts = t :: u :: rest ∧ u.kind ≠ .assign := by
  obtain ⟨taken, rfl, htaken⟩ := h.consumes
  obtain ⟨u, rest, rfl, he⟩ := hu.cons
  have hlt := h.length_lt hl
  match taken with
  | [] => simp at hlt
  | [t] =>
    refine ⟨t, u, rest, rfl, fun hk => ?_⟩
    simp [endsStatement, hk] at he
  | t :: v :: others =>
    exact ⟨t, v, others ++ u :: rest, rfl, (htaken v (by simp)).2.2.2⟩

/-! ## One statement -/

variable (o : Options)

/-- Wherever a statement stands, it is read. -/
def ReadsStatement (ts : List Token) (n : Node) (us : List Token) : Prop :=
  ∀ fuel c, c.rest = ts → ts.length ≤ fuel → Ends us →
    Lands True (o.depthLimit.toNat ≤ ts.length) c.reported
      (fun a d => a.erased = n ∧ EndsBehind o us d)
      (readStatement o (readStatements o fuel) c)

/-- Wherever a chain of conditions stands, it is read. -/
def ReadsConditions (ts : List Token) (n : Node) (us : List Token) : Prop :=
  ∀ fuel count c, c.rest = ts → ts.length ≤ fuel → ts.length ≤ count → Ends us →
    Lands True (o.depthLimit.toNat ≤ ts.length) c.reported
      (fun a d => a.erased = n ∧ EndsBehind o us d)
      (readBranch o (readStatements o fuel) count c)

/-- Wherever statements stand, they are read, if something follows that ends them. -/
def ReadsStatements (ts : List Token) (b : Node) (us : List Token) : Prop :=
  ∀ fuel c, c.rest = ts → ts.length < fuel → Stops us →
    Lands False (o.depthLimit.toNat ≤ ts.length) c.reported
      (fun nodes d => .block nowhere (erasedNodes nodes) = b ∧ d.rest = us) (readStatements o fuel c)

variable {o} {vs : List Token} {c d : Cursor} {n body : Node} {fuel : Nat}

/-- The end of a statement, read behind it. -/
theorem lands_statementEnd {expected : α → Prop} {f : Unit → Reader α} (hends : Ends us)
    (hc : c.rest = us)
    (hf : ∀ d, PastEnd o c d → Lands stops deep c.reported (fun a d => expected a ∧ EndsBehind o vs d)
      (f () d)) :
    Lands stops deep c.reported (fun a d => expected a ∧ EndsBehind o vs d)
      ((readStatementEnd >>= f) c) := by
  subst hc
  obtain ⟨d, hd⟩ := hends.pastEnd o
  rw [bind_of_ok hd.run]
  exact hf d hd

/-- Statements, read behind the end of what stands before them. -/
theorem lands_readStatements (h : ReadsStatements o us body vs) (hc : c.rest = us)
    (hd : PastEnd o c d) (hfuel : us.length < fuel) (hstops : Stops vs) :
    Lands False (o.depthLimit.toNat ≤ us.length) c.reported
      (fun nodes d => .block nowhere (erasedNodes nodes) = body ∧ d.rest = vs)
      (readStatements o fuel d) := by
  obtain ⟨k, -, hrun⟩ := hd.statements
  rw [← hrun]
  exact h _ c hc (by omega) hstops

theorem lands_readBody {n : Nat} (h : ReadsStatements o us body vs) (hc : c.rest = us)
    (hd : PastEnd o c d) (hfuel : us.length < fuel) (hstops : Stops vs) (hn : us.length ≤ n) :
    Lands True (o.depthLimit.toNat ≤ n) c.reported (fun b d => b.erased = body ∧ d.rest = vs)
      (readBody o (readStatements o fuel) d) := by
  rw [readBody, bind_of_ok (current_run d)]
  have hstatements := (lands_readStatements h hc hd hfuel hstops).of_reports
  refine (hstatements.mono _ fun hd => Nat.le_trans hd hn).bind (fun _ => ?_) fun nodes e he hrep => ?_
  · exact steps_extends.bind (steps_extends.spanFrom _ _) fun _ => steps_extends.pure _
  · rw [bind_of_ok (spanFrom_run o _ e)]
    exact .pure ⟨by rw [Node.erased]; exact he.1, he.2⟩ hrep

/-- The word `end`, and the end of the statement that it ends. -/
theorem readBlockEnd_run {t : Token} (o : Options) (hc : c.rest = t :: us)
    (ht : t.isWord "end" = true) (hends : Ends us) (keyword : String) (start : Token) :
    ∃ d, readBlockEnd keyword start c = .ok () d ∧ EndsBehind o us d ∧ d.reported = c.reported := by
  have hne : t.kind ≠ .eof := by rw [kind_of_isWord ht]; decide
  obtain ⟨d, hd⟩ := Ends.pastEnd o (c := c.behind t us) hends
  refine ⟨d, ?_, ⟨_, rfl, hd⟩, hd.reported⟩
  rw [readBlockEnd, bind_of_ok (current_run c), Cursor.current_of_rest hc]
  simp only [ht, Bool.not_true, Bool.false_eq_true, if_false]
  rw [bind_of_ok (advance_run hc hne)]
  exact hd.run

theorem readsStatement_expression {e : Node} (h : Derives .disjunction ts e us) :
    ReadsStatement o ts (.expression nowhere e) us := by
  intro fuel c hc _ hends
  obtain ⟨t, u, rest, rfl, hassign⟩ := h.no_assign (by decide) hends
  obtain ⟨t', rest', hts, hstarts⟩ := h.starts (by decide)
  obtain ⟨rfl, -⟩ := List.cons.inj hts
  have hif := isWord_of_starts hstarts (w := "if") (by decide)
  have hfor := isWord_of_starts hstarts (w := "for") (by decide)
  have hno : (t.kind == .identifier && u.kind == .assign) = false := by simp [hassign]
  rw [readStatement, bind_of_ok (current_run c), Cursor.current_of_rest hc, hif,
    if_neg Bool.false_ne_true, hfor, if_neg Bool.false_ne_true, bind_of_ok (following_run hc),
    hno, if_neg Bool.false_ne_true, readExpressionStatement, bind_of_ok (current_run c)]
  refine (gives_readExpression h hc hends.follows).bindLands fun a d ha hd hrep => ?_
  rw [bind_of_ok (spanFrom_run o _ d), ← hrep]
  refine lands_statementEnd hends hd fun d' hd' => ?_
  exact .pure ⟨by rw [Node.erased, ha], ⟨d, hd, hd'⟩⟩ hd'.reported

theorem readName_run {t : Token} (hc : c.rest = t :: us) (ht : t.kind = .identifier)
    (hv : t.value ∉ reservedWords) (role : NameRole) :
    readName role c = .ok t.value (c.behind t us) := by
  rw [readName, bind_of_ok (expect_run hc ht (by decide) _)]
  dsimp only
  rw [if_neg hv]
  rfl

theorem readsStatement_assign {t u : Token} {e : Node} (ht : t.kind = .identifier)
    (hv : t.value ∉ reservedWords) (hu : u.kind = .assign) (h : Derives .disjunction ts e us) :
    ReadsStatement o (t :: u :: ts) (.assign nowhere t.value e) us := by
  intro fuel c hc _ hends
  have hne : u.kind ≠ .eof := by rw [hu]; decide
  have hyes : (t.kind == .identifier && u.kind == .assign) = true := by simp [ht, hu]
  rw [readStatement, bind_of_ok (current_run c), Cursor.current_of_rest hc,
    isWord_of_not_mem (w := "if") hv (by decide), if_neg Bool.false_ne_true,
    isWord_of_not_mem (w := "for") hv (by decide), if_neg Bool.false_ne_true,
    bind_of_ok (following_run hc), hyes, if_pos rfl, readAssignment, bind_of_ok (current_run c),
    bind_of_ok (readName_run hc ht hv _), bind_of_ok (advance_run rfl hne)]
  have hexpr := (gives_readExpression (o := o) h (c := (c.behind t (u :: ts)).behind u ts) rfl
    hends.follows).mono (o.depthLimit.toNat ≤ (t :: u :: ts).length)
    fun hn => by simp only [List.length_cons]; omega
  refine hexpr.bindLands fun a d ha hd hrep => ?_
  rw [bind_of_ok (spanFrom_run o _ d)]
  show Lands _ _ ((c.behind t (u :: ts)).behind u ts).reported _ _
  rw [← hrep]
  refine lands_statementEnd hends hd fun d' hd' => ?_
  exact .pure ⟨by rw [Node.erased, ha], ⟨d, hd, hd'⟩⟩ hd'.reported

theorem readsStatement_loop {t u v w : Token} {source : Node} (ht : t.isWord "for" = true)
    (hu : u.kind = .identifier) (hword : u.value ∉ reservedWords) (hv : v.isWord "in" = true)
    (hs : Derives .disjunction ts source us) (hends : Ends us)
    (hb : ReadsStatements o us body (w :: vs)) (hw : w.isWord "end" = true) :
    ReadsStatement o (t :: u :: v :: ts) (.loop nowhere u.value source body) vs := by
  intro fuel c hc hfuel hends'
  have hlen := hs.length_lt (by decide)
  simp only [List.length_cons] at hfuel
  have hne : t.kind ≠ .eof := by rw [kind_of_isWord ht]; decide
  have hne' : v.kind ≠ .eof := by rw [kind_of_isWord hv]; decide
  rw [readStatement, bind_of_ok (current_run c), Cursor.current_of_rest hc,
    isWord_eq_false ht (by decide), if_neg Bool.false_ne_true, if_pos ht, readLoop,
    bind_of_ok (advance_run hc hne), bind_of_ok (readName_run rfl hu hword _),
    bind_of_ok (current_run _), Cursor.current_of_rest (t := v) rfl]
  simp only [hv, Bool.not_true, Bool.false_eq_true, if_false]
  rw [bind_of_ok (advance_run (c := (c.behind t _).behind u _) rfl hne')]
  have hexpr := (gives_readExpression (o := o) hs
    (c := ((c.behind t (u :: v :: ts)).behind u (v :: ts)).behind v ts) rfl hends.follows).mono
    (o.depthLimit.toNat ≤ (t :: u :: v :: ts).length)
    fun hn => by simp only [List.length_cons]; omega
  refine hexpr.bindLands fun a d ha hd hrep => ?_
  show Lands _ _ (((c.behind t (u :: v :: ts)).behind u (v :: ts)).behind v ts).reported _ _
  rw [← hrep]
  refine lands_statementEnd hends hd fun d' hd' => ?_
  have hlen' : us.length ≤ (t :: u :: v :: ts).length := by simp only [List.length_cons]; omega
  have hbody := lands_readBody hb hd hd' (by omega : us.length < fuel)
    (stops_of_isWord (.inl hw)) hlen'
  refine hbody.bind (fun b => ?_) fun b e he hrep' => ?_
  · exact steps_extends.bind (steps_extends.readBlockEnd _ _) fun _ =>
      steps_extends.bind (steps_extends.spanFrom _ _) fun _ => steps_extends.pure _
  · obtain ⟨e', hrun, hbehind, hrep''⟩ := readBlockEnd_run o he.2 hw hends' "for" t
    rw [bind_of_ok hrun, bind_of_ok (spanFrom_run o _ e')]
    exact .pure ⟨by rw [Node.erased, ha, he.1], hbehind⟩ (hrep''.trans hrep')

/-- A chain of conditions up to the body of the first. -/
theorem lands_condition {t : Token} {test : Node} {count : Nat} {expected : Node → Cursor → Prop}
    (ht : t.isWord "if" = true) (hc : c.rest = t :: ts) (htest : Derives .disjunction ts test us)
    (hends : Ends us) (hb : ReadsStatements o us body vs) (hfuel : us.length < fuel)
    (hstops : Stops vs)
    (hf : ∀ a b d, a.erased = test → b.erased = body → d.rest = vs → d.reported = c.reported →
      Lands True (o.depthLimit.toNat ≤ (t :: ts).length) c.reported expected
        (readBranchTail o (readStatements o fuel) count t a b d)) :
    Lands True (o.depthLimit.toNat ≤ (t :: ts).length) c.reported expected
      (readBranch o (readStatements o fuel) (count + 1) c) := by
  have hne : t.kind ≠ .eof := by rw [kind_of_isWord ht]; decide
  have hlen := htest.length_lt (by decide)
  rw [readBranch_succ, bind_of_ok (advance_run hc hne)]
  have hexpr := (gives_readExpression (o := o) htest (c := c.behind t ts) rfl hends.follows).mono
    (o.depthLimit.toNat ≤ (t :: ts).length)
    fun hn => by simp only [List.length_cons]; omega
  refine hexpr.bindLands fun a d ha hd hrep => ?_
  subst hd
  obtain ⟨d', hd'⟩ := hends.pastEnd o
  rw [bind_of_ok hd'.run, ← hrep]
  have hlen' : d.rest.length ≤ (t :: ts).length := by simp only [List.length_cons]; omega
  have hbody := lands_readBody hb rfl hd' hfuel hstops hlen'
  have hstatements := steps_extends.readStatements o fuel
  refine hbody.bind (fun b => ?_) fun b e he hrep' => ?_
  · exact steps_extends.readBranchTail o hstatements
      (steps_extends.readBranch o hstatements count) t a b
  · rw [hrep]
    exact hf a b e ha he.1 he.2 (hrep'.trans hrep)

theorem readsConditions_when {t u : Token} {test : Node} (ht : t.isWord "if" = true)
    (htest : Derives .disjunction ts test us) (hends : Ends us)
    (hb : ReadsStatements o us body (u :: vs)) (hu : u.isWord "end" = true) :
    ReadsConditions o (t :: ts) (.branch nowhere test body .absent) vs := by
  intro fuel count c hc hfuel hcount hends'
  have hlen := htest.length_lt (by decide)
  rw [List.length_cons] at hfuel
  cases count with
  | zero => simp at hcount
  | succ count =>
    refine lands_condition ht hc htest hends hb (by omega) (stops_of_isWord (.inl hu))
      fun a b d ha hbody hd hrep => ?_
    obtain ⟨d', hrun, hbehind, hrep'⟩ := readBlockEnd_run o hd hu hends' "if" t
    rw [readBranchTail, bind_of_ok (current_run d), Cursor.current_of_rest hd,
      isWord_eq_false hu (by decide), if_neg Bool.false_ne_true, bind_of_ok hrun,
      bind_of_ok (spanFrom_run o t d')]
    exact .pure ⟨by rw [Node.erased, ha, hbody]; rfl, hbehind⟩ (hrep'.trans hrep)

theorem readsConditions_whenElse {t u v : Token} {ws : List Token} {test otherwise : Node}
    (ht : t.isWord "if" = true) (htest : Derives .disjunction ts test us) (hends : Ends us)
    (hb : ReadsStatements o us body (u :: vs)) (hlen' : vs.length < us.length)
    (hu : u.isWord "else" = true) (hends' : Ends vs)
    (ho : ReadsStatements o vs otherwise (v :: ws)) (hv : v.isWord "end" = true) :
    ReadsConditions o (t :: ts) (.branch nowhere test body otherwise) ws := by
  intro fuel count c hc hfuel hcount hends''
  have hlen := htest.length_lt (by decide)
  rw [List.length_cons] at hfuel
  cases count with
  | zero => simp at hcount
  | succ count =>
    refine lands_condition ht hc htest hends hb (by omega) (stops_of_isWord (.inr hu))
      fun a b d ha hbody hd hrep => ?_
    have hne : u.kind ≠ .eof := by rw [kind_of_isWord hu]; decide
    obtain ⟨w, others, rfl, hw⟩ := hends'.cons
    have hnot : w.isWord "if" = false := by
      cases hword : w.isWord "if" with
      | false => rfl
      | true => simp [endsStatement, kind_of_isWord hword] at hw
    rw [readBranchTail, bind_of_ok (current_run d), Cursor.current_of_rest hd, if_pos hu,
      bind_of_ok (advance_run hd hne), bind_of_ok (current_run _),
      Cursor.current_of_rest (t := w) rfl, hnot, if_neg Bool.false_ne_true]
    obtain ⟨d', hd'⟩ := hends'.pastEnd o (c := d.behind u (w :: others))
    rw [bind_of_ok hd'.run, ← hrep]
    have hlen'' : (w :: others).length ≤ (t :: ts).length := by
      rw [List.length_cons (a := t)]
      omega
    have hothers := lands_readBody ho rfl hd' (by omega : (w :: others).length < fuel)
      (stops_of_isWord (.inl hv)) hlen''
    refine hothers.bind (fun b => ?_) fun b' e he hrep' => ?_
    · exact steps_extends.bind (steps_extends.readBlockEnd _ _) fun _ =>
        steps_extends.bind (steps_extends.spanFrom _ _) fun _ => steps_extends.pure _
    · obtain ⟨e', hrun, hbehind, hrep''⟩ := readBlockEnd_run o he.2 hv hends'' "if" t
      rw [bind_of_ok hrun, bind_of_ok (spanFrom_run o t e')]
      exact .pure ⟨by rw [Node.erased, ha, hbody, he.1], hbehind⟩ (hrep''.trans hrep')

theorem span?_of_erased {n : Node} {test body otherwise : Node}
    (h : n.erased = .branch nowhere test body otherwise) : ∃ span, n.span? = some span := by
  cases n with
  | absent => cases h
  | _ => exact ⟨_, rfl⟩

theorem Parses.eq_branch (h : Parses .conditions ts n us) :
    ∃ test body otherwise, n = .branch nowhere test body otherwise := by
  cases h with
  | when | whenElse | whenElseWhen => exact ⟨_, _, _, rfl⟩

theorem readsConditions_whenElseWhen {t u : Token} {ws : List Token} {test n : Node}
    (ht : t.isWord "if" = true) (htest : Derives .disjunction ts test us) (hends : Ends us)
    (hb : ReadsStatements o us body (u :: vs)) (hlen' : vs.length < us.length)
    (hu : u.isWord "else" = true) (hparses : Parses .conditions vs n ws)
    (hn : ReadsConditions o vs n ws) :
    ReadsConditions o (t :: ts) (.branch nowhere test body (.block nowhere [n])) ws := by
  intro fuel count c hc hfuel hcount hends'
  have hlen := htest.length_lt (by decide)
  rw [List.length_cons] at hfuel hcount
  cases count with
  | zero => simp at hcount
  | succ count =>
    refine lands_condition ht hc htest hends hb (by omega) (stops_of_isWord (.inr hu))
      fun a b d ha hbody hd hrep => ?_
    have hne : u.kind ≠ .eof := by rw [kind_of_isWord hu]; decide
    obtain ⟨w, others, rfl, hw⟩ := hparses.isWord_if
    rw [readBranchTail, bind_of_ok (current_run d), Cursor.current_of_rest hd, if_pos hu,
      bind_of_ok (advance_run hd hne), bind_of_ok (current_run _),
      Cursor.current_of_rest (t := w) rfl, if_pos hw, ← hrep]
    have hnested := (hn fuel count (d.behind u (w :: others)) rfl (by omega) (by omega) hends').mono
      (o.depthLimit.toNat ≤ (t :: ts).length)
      fun hn => by rw [List.length_cons]; omega
    refine hnested.bind (fun b => ?_) fun b' e he hrep' => ?_
    · exact steps_extends.bind (steps_extends.spanFrom _ _) fun _ => steps_extends.pure _
    · obtain ⟨_, _, _, rfl⟩ := hparses.eq_branch
      obtain ⟨place, hplace⟩ := span?_of_erased he.1
      rw [bind_of_ok (spanFrom_run o t e), hplace]
      refine .pure ⟨?_, he.2⟩ hrep'
      rw [Node.erased, ha, hbody, Node.erased, erasedNodes, he.1]
      rfl

theorem readsStatement_conditions (hparses : Parses .conditions ts n us)
    (h : ReadsConditions o ts n us) : ReadsStatement o ts n us := by
  intro fuel c hc hfuel hends
  obtain ⟨t, rest, rfl, ht⟩ := hparses.isWord_if
  rw [readStatement, bind_of_ok (current_run c), Cursor.current_of_rest hc, if_pos ht,
    bind_of_ok (get_run c)]
  exact h fuel _ c hc hfuel (Nat.le_of_eq (congrArg _ hc.symm)) hends

/-! ## Statements in a row -/

section Rows

variable {t : Token}

/-- In front of what belongs to others, there is no more to read. -/
theorem readStatements_stop (fuel : Nat)
    (h : (endsSection c.current || belongsToBlock c.current) = true) :
    readStatements o fuel c = .ok [] c := by
  cases fuel with
  | zero => rfl
  | succ fuel =>
    rw [readStatements, bind_of_ok (current_run c), if_pos h]
    rfl

variable (hc : c.rest = t :: us)

include hc

theorem readStatements_separator (fuel : Nat) (ht : isSeparator t = true) :
    readStatements o (fuel + 1) c = readStatements o fuel (c.behind t us) := by
  have hnot : (endsSection t || belongsToBlock t) = false := by
    unfold isSeparator at ht
    split at ht <;> first
      | next hk => simp [endsSection, belongsToBlock, Token.isWord, hk]
      | cases ht
  rw [readStatements, bind_of_ok (current_run c), Cursor.current_of_rest hc, hnot,
    if_neg Bool.false_ne_true, if_pos ht,
    bind_of_ok (advance_run hc (IsBefore.of_isSeparator ht).ne_eof)]

theorem readStatements_text (fuel : Nat) (ht : t.kind = .text) :
    readStatements o (fuel + 1) c =
      (do return .text ((c.behind t us).spanFrom o t) t.value :: (← readStatements o fuel) :
        Reader (List Node)) (c.behind t us) := by
  have hne : t.kind ≠ .eof := by rw [ht]; decide
  have hnot : (endsSection t || belongsToBlock t) = false := by
    simp [endsSection, belongsToBlock, Token.isWord, ht]
  have hsep : isSeparator t = false := by simp [isSeparator, ht]
  have htext : (t.kind == .text) = true := by rw [ht]; rfl
  rw [readStatements, bind_of_ok (current_run c), Cursor.current_of_rest hc, hnot,
    if_neg Bool.false_ne_true, hsep, if_neg Bool.false_ne_true, if_pos htext,
    bind_of_ok (advance_run hc hne), bind_of_ok (spanFrom_run o t _)]

theorem readStatements_statement (fuel : Nat)
    (hstop : (endsSection t || belongsToBlock t) = false) (hsep : isSeparator t = false)
    (htext : (t.kind == .text) = false) :
    readStatements o (fuel + 1) c = (do
      let node? ← readOrSkip o (readStatements o fuel)
      return node?.toList ++ (← readStatements o fuel) : Reader (List Node)) c := by
  rw [readStatements, bind_of_ok (current_run c), Cursor.current_of_rest hc, hstop,
    if_neg Bool.false_ne_true, hsep, if_neg Bool.false_ne_true, htext, if_neg Bool.false_ne_true]

end Rows

theorem readsStatements_nothing : ReadsStatements o us (.block nowhere []) us := by
  intro fuel c hc hfuel hstops
  obtain ⟨t, ht, hstop⟩ := hstops
  have hcur : c.current = t := by rw [Cursor.current, hc, ht]; rfl
  rw [readStatements_stop fuel (hcur ▸ hstop)]
  exact .pure ⟨rfl, hc⟩ rfl

theorem readsStatements_separator {t : Token} (ht : isSeparator t = true)
    (h : ReadsStatements o ts body us) : ReadsStatements o (t :: ts) body us := by
  intro fuel c hc hfuel hstops
  rw [List.length_cons] at hfuel
  cases fuel with
  | zero => omega
  | succ fuel =>
    rw [readStatements_separator hc fuel ht]
    exact (h fuel (c.behind t ts) rfl (by omega) hstops).mono _
      fun hn => by rw [List.length_cons]; omega

theorem readsStatements_text {t : Token} {nodes : List Node} (ht : t.kind = .text)
    (h : ReadsStatements o ts (.block nowhere nodes) us) :
    ReadsStatements o (t :: ts) (.block nowhere (.text nowhere t.value :: nodes)) us := by
  intro fuel c hc hfuel hstops
  rw [List.length_cons] at hfuel
  cases fuel with
  | zero => omega
  | succ fuel =>
    rw [readStatements_text hc fuel ht]
    have hrest := (h fuel (c.behind t ts) rfl (by omega) hstops).mono
      (o.depthLimit.toNat ≤ (t :: ts).length)
      fun hn => by rw [List.length_cons]; omega
    refine hrest.bind (fun _ => steps_extends.pure _) fun nodes' d hd hrep => ?_
    obtain ⟨-, hnodes⟩ := Node.block.inj hd.1
    exact .pure ⟨by rw [erasedNodes, hnodes, Node.erased], hd.2⟩ hrep

/-- A statement that is read is not skipped. One that nests too deeply is
reported. -/
theorem lands_readOrSkip {statements : Reader (List Node)} {expected : Node → Cursor → Prop}
    (h : Lands True deep reported expected (readStatement o statements c)) :
    Lands False deep reported (fun n? d => ∃ n, n? = some n ∧ expected n d)
      (readOrSkip o statements c) := by
  have hskip (e : SyntaxError) (d : Cursor) : Cursor.Extends
      { d with reported := d.reported ++ [e] } (after (do
        report e
        skipStatement (← get).rest.length
        return none : Reader (Option Node)) d) := by
    rw [after_bind_of_ok (report_run e d), after_bind_of_ok (get_run _)]
    exact steps_extends.bind (steps_extends.skipStatement _) (fun _ =>
      steps_extends.pure (none : Option Node)) _
  rw [readOrSkip_run]
  obtain ⟨n, d, hr, hn, hrep⟩ | ⟨hdeep, ⟨n, d, hr, ho⟩ | ⟨x, d, hr, ho⟩⟩ := h
  · rw [hr]
    exact .inl ⟨some n, d, rfl, ⟨n, rfl, hn⟩, hrep⟩
  · rw [hr]
    exact .inr ⟨hdeep, .inl ⟨some n, d, rfl, ho⟩⟩
  · rw [hr]
    refine .inr ⟨hdeep, ?_⟩
    cases x with
    | fault e =>
      obtain ho | ⟨-, y, hy, -⟩ := ho
      · exact .inr ⟨_, d, rfl, .inl ho⟩
      · cases hy
    | malformed e =>
      have ho' : Overrun { d with reported := d.reported ++ [e] } := by
        obtain ⟨y, hy, hyd⟩ | ⟨-, y, hy, hyd⟩ := ho
        · exact ⟨y, List.mem_append_left _ hy, hyd⟩
        · cases hy
          exact ⟨e, List.mem_append_right _ List.mem_cons_self, hyd⟩
      have hafter := ho'.extends (hskip e d)
      cases hrun : (do
        report e
        skipStatement (← get).rest.length
        return none : Reader (Option Node)) d with
      | ok a d' =>
        rw [after_of_ok hrun] at hafter
        exact .inl ⟨a, d', hrun, hafter⟩
      | error y d' =>
        rw [after_of_error hrun] at hafter
        exact .inr ⟨y, d', hrun, .inl hafter⟩

theorem readsStatements_statement {nodes : List Node} (hparses : Parses .statement ts n us)
    (hn : ReadsStatement o ts n us) (hends : Ends us)
    (h : ReadsStatements o us (.block nowhere nodes) vs) :
    ReadsStatements o ts (.block nowhere (n :: nodes)) vs := by
  intro fuel c hc hfuel hstops
  have hlen := hparses.length_lt (by decide)
  obtain ⟨t, rest, rfl, hnot, hsep, htext⟩ := hparses.starts
  cases fuel with
  | zero => omega
  | succ fuel =>
    rw [readStatements_statement hc fuel hnot hsep htext]
    have hstatement := hn fuel c hc (by omega) hends
    refine (lands_readOrSkip hstatement).bind (fun _ => ?_)
      fun n? d hd hrep => ?_
    · exact steps_extends.bind (steps_extends.readStatements o fuel) fun _ => steps_extends.pure _
    · obtain ⟨m, rfl, hm, c', hc', hbehind⟩ := hd
      have hrest := (lands_readStatements h hc' hbehind (by omega : us.length < fuel) hstops).mono
        (o.depthLimit.toNat ≤ (t :: rest).length) fun hn => by omega
      rw [← hrep, hbehind.reported]
      refine hrest.bind (fun _ => steps_extends.pure _) fun nodes' e he hrep' => ?_
      obtain ⟨-, hnodes⟩ := Node.block.inj he.1
      refine .pure ⟨?_, he.2⟩ hrep'
      rw [Option.toList_some, List.singleton_append, erasedNodes, hnodes, hm]

/-- What is to be shown of a part, one after the other. -/
def CompletePart (o : Options) : Part → List Token → Node → List Token → Prop
  | .statement => ReadsStatement o
  | .conditions => ReadsConditions o
  | .statements => ReadsStatements o

/-- By induction on the derivation. -/
theorem Parses.complete {p : Part} (h : Parses p ts n us) : CompletePart o p ts n us := by
  induction h with
  | expression h => exact readsStatement_expression h
  | assign ht hv hu h => exact readsStatement_assign ht hv hu h
  | loop ht hu hword hv hs hends _ hw ih => exact readsStatement_loop ht hu hword hv hs hends ih hw
  | conditions h ih => exact readsStatement_conditions h ih
  | when ht htest hends _ hu ih => exact readsConditions_when ht htest hends ih hu
  | whenElse ht htest hends hb hu hends' _ hv ih ih' =>
    have hlen := hb.consumes.length_le
    rw [List.length_cons] at hlen
    exact readsConditions_whenElse ht htest hends ih hlen hu hends' ih' hv
  | whenElseWhen ht htest hends hb hu hn ih ih' =>
    have hlen := hb.consumes.length_le
    rw [List.length_cons] at hlen
    exact readsConditions_whenElseWhen ht htest hends ih hlen hu hn ih'
  | nothing => exact readsStatements_nothing
  | separator ht _ ih => exact readsStatements_separator ht ih
  | text ht _ ih => exact readsStatements_text ht ih
  | statement h hends _ ih ih' => exact readsStatements_statement h ih hends ih'

/-! ## Sections and pages -/

/-- What stands up to the end of a section is read. -/
theorem lands_readSection {t : Token} {b : Node} (h : Parses .statements ts b (t :: us))
    (ht : endsSection t = true) (hc : c.rest = ts) :
    Lands False (o.depthLimit.toNat ≤ ts.length) c.reported
      (fun a d => a.erased = b ∧ d.rest = t :: us) (readSection o c) := by
  have hstatements := h.complete (o := o) (c.rest.length + 1) c hc (by rw [hc]; omega)
    ⟨t, rfl, by rw [ht, Bool.true_or]⟩
  have hbody : Lands False (o.depthLimit.toNat ≤ ts.length) c.reported
      (fun nodes d => .block nowhere (erasedNodes nodes) = b ∧ d.rest = t :: us)
      (readSectionBody o (c.rest.length + 1) c) := by
    rw [readSectionBody, bind_of_ok (get_run c)]
    refine hstatements.bind (fun body => steps_extends.bind steps_extends.current fun u => ?_)
      fun nodes d hd hrep => ?_
    · split
      · exact steps_extends.pure _
      · exact steps_extends.bind (steps_extends.report _) fun _ =>
          steps_extends.bind steps_extends.advance fun _ =>
            steps_extends.bind (steps_extends.readSectionBody o _) fun _ => steps_extends.pure _
    · rw [bind_of_ok (current_run d), Cursor.current_of_rest hd.2, if_pos ht]
      exact .pure hd hrep
  rw [readSection, bind_of_ok (current_run c), bind_of_ok (get_run c)]
  refine hbody.bind (fun _ => ?_) fun nodes d hd hrep => ?_
  · exact steps_extends.bind (steps_extends.spanFrom _ _) fun _ => steps_extends.pure _
  · rw [bind_of_ok (spanFrom_run o _ d)]
    exact .pure ⟨by rw [Node.erased]; exact hd.1, hd.2⟩ hrep

theorem Consumes.current_ne_marker {t : Token} (h : Consumes IsBefore ts [t]) (ht : t.kind = .eof)
    (hc : c.rest = ts) : (c.current.kind == .frontMatterMarker) = false := by
  obtain ⟨taken, rfl, hbefore⟩ := h
  cases taken with
  | nil => rw [Cursor.current_of_rest hc, ht]; rfl
  | cons u taken =>
    have hu := hbefore u List.mem_cons_self
    rw [Cursor.current_of_rest hc, beq_eq_false_iff_ne]
    intro hk
    simp [IsBefore, endsSection, hk] at hu

theorem lands_readPageBody {start t : Token} {b front : Node} (h : Parses .statements ts b [t])
    (ht : t.kind = .eof) (hc : c.rest = ts) :
    Lands False (o.depthLimit.toNat ≤ ts.length) c.reported
      (fun p d => p.erased = ⟨nowhere, b, front.erased⟩ ∧ d.rest = [t])
      (readPageBody o start front c) := by
  refine (lands_readSection h (by simp only [endsSection, ht]) hc).bind (fun _ => ?_)
    fun body d hd hrep => ?_
  · exact steps_extends.bind (steps_extends.spanFrom _ _) fun _ => steps_extends.pure _
  · rw [bind_of_ok (spanFrom_run o _ d)]
    exact .pure ⟨by rw [Page.erased, hd.1], hd.2⟩ hrep

/-- A page that is derived up to the end of the source is read. -/
theorem lands_readPage {t : Token} {p : Page} (h : ParsesPage ts p [t]) (ht : t.kind = .eof)
    (hc : c.rest = ts) :
    Lands False (o.depthLimit.toNat ≤ ts.length) c.reported
      (fun q d => q.erased = p ∧ d.rest = [t]) (readPage o c) := by
  rw [readPage_eq, bind_of_ok (current_run c)]
  cases h with
  | plain hb =>
    rw [hb.consumes.current_ne_marker ht hc, if_neg Bool.false_ne_true]
    exact lands_readPageBody hb ht hc
  | @frontMatter u ts _ front hu hf =>
    have hmarker : (u.kind == .frontMatterMarker) = true := by simpa using hu
    have hnot : (t.kind == .frontMatterMarker) = false := by rw [ht]; rfl
    have hne : u.kind ≠ .eof := by rw [hu]; decide
    have hlen := hf.consumes.length_le
    rw [Cursor.current_of_rest hc, hmarker, if_pos rfl, bind_of_ok (advance_run hc hne)]
    have hfront := (lands_readSection (o := o) (c := c.behind u ts) hf
      (by simp only [endsSection, ht]) rfl).mono
      (o.depthLimit.toNat ≤ (u :: ts).length) fun hn => by rw [List.length_cons]; omega
    refine hfront.bind (steps_extends.readPageTail o u) fun f d hd hrep => ?_
    rw [readPageTail, bind_of_ok (current_run d), Cursor.current_of_rest hd.2, hnot,
      if_neg Bool.false_ne_true, ← hd.1, ← hrep]
    exact (lands_readPageBody .nothing ht hd.2).mono _ fun hn => by
      rw [List.length_cons]
      omega
  | @both u v ts us _ front body hu hf hv hb =>
    have hmarker : (u.kind == .frontMatterMarker) = true := by simpa using hu
    have hmarker' : (v.kind == .frontMatterMarker) = true := by simpa using hv
    have hne : u.kind ≠ .eof := by rw [hu]; decide
    have hne' : v.kind ≠ .eof := by rw [hv]; decide
    have hlen := hf.consumes.length_le
    rw [List.length_cons] at hlen
    rw [Cursor.current_of_rest hc, hmarker, if_pos rfl, bind_of_ok (advance_run hc hne)]
    have hfront := (lands_readSection (o := o) (c := c.behind u ts) hf
      (by simp only [endsSection, hv]) rfl).mono
      (o.depthLimit.toNat ≤ (u :: ts).length) fun hn => by rw [List.length_cons]; omega
    refine hfront.bind (steps_extends.readPageTail o u) fun f d hd hrep => ?_
    have hlands : Lands False (o.depthLimit.toNat ≤ us.length) d.reported
        (fun p e => p.erased = ⟨nowhere, body, f.erased⟩ ∧ e.rest = [t])
        (readPageBody o u f (d.behind v us)) := lands_readPageBody hb ht rfl
    rw [readPageTail, bind_of_ok (current_run d), Cursor.current_of_rest hd.2, hmarker', if_pos rfl,
      bind_of_ok (advance_run hd.2 hne'), ← hd.1, ← hrep]
    exact hlands.mono _ fun hn => by
      rw [List.length_cons]
      omega

/-! ## What is accepted -/

/-- Tokens as they come from a source: the end of the source is the last one and no
other, and markers stand in front. -/
structure Framed (tokens : List Token) : Prop where
  ended : ∃ before t, tokens = before ++ [t] ∧ t.kind = .eof ∧ ∀ u ∈ before, u.kind ≠ .eof
  markers : MarkersInFront tokens

/-- No expression among the tokens was found to nest too deeply. -/
def StaysShallow (o : Options) (tokens : List Token) : Prop :=
  ¬ Overrun (after (readPage o) { rest := tokens })

/-- Where the end is ahead, nothing else is. -/
theorem Framed.rest_eq {tokens us taken : List Token} {t : Token} (h : Framed tokens)
    (hr : tokens = taken ++ t :: us) (ht : t.kind = .eof) : us = [] := by
  obtain ⟨before, u, hsplit, -, hbefore⟩ := h.ended
  rcases List.eq_nil_or_concat us with rfl | ⟨others, w, rfl⟩
  · rfl
  · rw [hsplit, List.concat_eq_append, ← List.cons_append, ← List.append_assoc] at hr
    obtain ⟨rfl, -⟩ := List.append_inj' hr rfl
    exact absurd ht (hbefore t (List.mem_append_right _ List.mem_cons_self))

theorem ParsesPage.suffix {p : Page} (h : ParsesPage ts p us) : us <:+ ts := by
  have hsuffix {p : Part} {ts us : List Token} {n : Node} (h : Parses p ts n us) : us <:+ ts := by
    obtain ⟨taken, rfl, -⟩ := h.consumes
    exact List.suffix_append _ _
  cases h with
  | plain h => exact hsuffix h
  | frontMatter _ h => exact (hsuffix h).trans (List.suffix_cons _ _)
  | both _ hf _ h =>
    exact (hsuffix h).trans ((List.suffix_cons _ _).trans
      ((hsuffix hf).trans (List.suffix_cons _ _)))

/-- What is read without a complaint is read up to the end. -/
theorem Framed.read_to_end {tokens : List Token} (h : Framed tokens) {page : Page} {c : Cursor}
    (hrun : readPage o { rest := tokens } = .ok page c) (hrep : c.reported = []) :
    ∃ t, t.kind = .eof ∧ c.rest = [t] ∧ ParsesPage tokens page.erased [t] := by
  obtain ⟨before, t, hsplit, ht, -⟩ := h.ended
  have hended : Cursor.Ended { rest := tokens } :=
    ⟨t, hsplit ▸ List.mem_append_right _ List.mem_cons_self, ht⟩
  obtain ⟨hparses, hend⟩ := sound_readPage hended hrun hrep
  have hparses : ParsesPage tokens page.erased c.rest := hparses
  obtain ⟨u, hhead, hu⟩ := hend h.markers
  obtain ⟨us, hr⟩ := List.head?_eq_some_iff.mp hhead
  rw [hr] at hparses ⊢
  obtain ⟨taken, htaken⟩ := hparses.suffix
  obtain rfl := h.rest_eq htaken.symm hu
  exact ⟨u, hu, rfl, hparses⟩

/-- What the grammar derives is read without a complaint. -/
theorem Grammatical.accepted {tokens : List Token} {p : Page} (h : Grammatical tokens p)
    (hshallow : StaysShallow o tokens) :
    ∃ page c, readPage o { rest := tokens } = .ok page c ∧ c.reported = [] ∧ page.erased = p := by
  obtain ⟨t, ht, hparses⟩ := h
  obtain ⟨page, c, hrun, ⟨hpage, -⟩, hrep⟩ | ⟨-, ⟨page, c, hrun, hover⟩ | ⟨x, c, hrun, hover⟩⟩ :=
    lands_readPage (o := o) (c := { rest := tokens }) hparses ht rfl
  · exact ⟨page, c, hrun, hrep, hpage⟩
  · rw [StaysShallow, after_of_ok hrun] at hshallow
    exact absurd hover hshallow
  · rw [StaysShallow, after_of_error hrun] at hshallow
    exact absurd (hover.resolve_right fun h => h.1) hshallow

/-- A page that a reader came to, without a complaint. -/
theorem pageOf_of_readPage {tokens : List Token} {page : Page} {c : Cursor}
    (h : readPage o { rest := tokens } = .ok page c) (hrep : c.reported = []) :
    pageOf o tokens = .ok (page, []) := by
  rw [pageOf, EStateM.run, h, ← hrep]

/-- A page without a complaint is what a reader came to. -/
theorem readPage_of_pageOf {tokens : List Token} {page : Page}
    (h : pageOf o tokens = .ok (page, [])) :
    ∃ c, readPage o { rest := tokens } = .ok page c ∧ c.reported = [] := by
  rw [pageOf, EStateM.run] at h
  cases hrun : readPage o { rest := tokens } with
  | ok q c =>
    rw [hrun] at h
    obtain ⟨rfl, hrep⟩ := Prod.mk.inj (Except.ok.inj h)
    exact ⟨c, rfl, hrep⟩
  | error x c =>
    rw [hrun] at h
    cases x with
    | fault e => cases h
    | malformed e =>
      obtain ⟨-, hrep⟩ := Prod.mk.inj (Except.ok.inj h)
      simp at hrep

/-- The parser accepts what the grammar derives, with the tree of the derivation, and
nothing else. It goes through all of the tokens, and the texts among them are the texts
of the tree. -/
theorem accepts_iff_grammatical {tokens : List Token} (h : Framed tokens)
    (hshallow : StaysShallow o tokens) :
    (∀ p, (∃ page, pageOf o tokens = .ok (page, []) ∧ page.erased = p) ↔ Grammatical tokens p) ∧
      ∀ page c, readPage o { rest := tokens } = .ok page c → c.reported = [] →
        (∃ t, t.kind = .eof ∧ c.rest = [t]) ∧ page.node.texts = textsOf tokens := by
  refine ⟨fun p => ⟨?_, fun hp => ?_⟩, fun page c hrun hrep => ?_⟩
  · rintro ⟨page, hpage, rfl⟩
    obtain ⟨c, hrun, hrep⟩ := readPage_of_pageOf hpage
    obtain ⟨t, ht, -, hparses⟩ := h.read_to_end hrun hrep
    exact ⟨t, ht, hparses⟩
  · obtain ⟨page, c, hrun, hrep, hpage⟩ := hp.accepted hshallow
    exact ⟨page, pageOf_of_readPage hrun hrep, hpage⟩
  · obtain ⟨t, ht, hrest, hparses⟩ := h.read_to_end hrun hrep
    refine ⟨⟨t, ht, hrest⟩, ?_⟩
    have herased : page.erased.node.texts = page.node.texts := page.node.texts_erased
    have hnone : textsOf [t] = [] := textsOf_cons_of_kind ht rfl []
    rw [hparses.texts, herased, hnone, List.append_nil]

/-- A chain of two conditions that share their `end`, with a text in each. -/
theorem accepts_iff_grammatical_chain :
    let token (kind : TokenKind) (value : String) : Token := ⟨kind, value, .start, .start⟩
    let tokens := [token .codeEnter "", token .identifier "if", token .identifier "a",
      token .codeExit "", token .text "x", token .codeEnter "", token .identifier "else",
      token .identifier "if", token .identifier "b", token .codeExit "", token .text "y",
      token .codeEnter "", token .identifier "end", token .codeExit "", token .eof ""]
    Framed tokens ∧ StaysShallow {} tokens ∧
      ∃ p, Grammatical tokens p ∧ p.node.texts = ["x", "y"] := by
  intro token tokens
  have hframed : Framed tokens :=
    ⟨⟨tokens.dropLast, token .eof "", rfl, rfl, by decide +kernel⟩, .inl (by decide +kernel)⟩
  have hreported : (after (readPage {}) { rest := tokens }).reported = [] := by decide +kernel
  have hshallow : StaysShallow {} tokens := by
    rintro ⟨x, hx, -⟩
    rw [hreported] at hx
    cases hx
  have haccepts := accepts_iff_grammatical hframed hshallow
  cases hrun : readPage {} { rest := tokens } with
  | ok page c =>
    rw [after_of_ok hrun] at hreported
    have hpage : pageOf {} tokens = .ok (page, []) := pageOf_of_readPage hrun hreported
    have htexts := (haccepts.2 page c hrun hreported).2
    refine ⟨hframed, hshallow, page.erased, (haccepts.1 _).mp ⟨page, hpage, rfl⟩, ?_⟩
    have herased : page.erased.node.texts = page.node.texts := page.node.texts_erased
    rw [herased, htexts]
    decide +kernel
  | error x c =>
    have hok : (match readPage {} { rest := tokens } with
      | .ok .. => true
      | .error .. => false) = true := by decide +kernel
    rw [hrun] at hok
    cases hok

end Stencil.Grammar

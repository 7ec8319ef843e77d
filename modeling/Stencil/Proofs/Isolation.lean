import Stencil.Proofs.Crossing
import Stencil.Proofs.Outset
import Stencil.Proofs.Totality

/-!
# Broken statements

A statement of code that does not follow the grammar is skipped up to the separator behind it: what
stands in front of it and behind it is read as it is without it, and one complaint more is made,
about a token of the statement (`sectionOf_broken`). The statements in front of it are read by
themselves (`crosses_row`), those behind it are read as at the beginning of a section
(`outcome_recalling`), and in the statement itself no reader gets past the separator: `Shared` sets
readings of the same tokens side by side that have others behind them.
-/

namespace Stencil.Grammar

variable {o : Options} {c c' d : Cursor}

/-! ## The same tokens in two readings -/

/-- Tokens that two readings have ahead, the last of which ends statements. -/
structure Shared where
  ahead : List Token
  /-- what the first reading has behind them -/
  behind : List Token
  /-- what the second one has -/
  behind' : List Token
  /-- what the second reading has reported before -/
  reported : List SyntaxError
  ends : ∀ t ∈ ahead.getLast?, endsStatement t = true
  length_le : behind.length ≤ behind'.length

namespace Shared

variable (x : Shared)

/-- Cursors with the same tokens ahead: there are always some. -/
structure Cursors (ts : List Token) (c c' : Cursor) : Prop where
  rest : c.rest = ts ++ x.behind
  rest' : c'.rest = ts ++ x.behind'
  suffix : ts <:+ x.ahead
  ne_nil : ts ≠ []
  last : c'.last = c.last
  reported : c'.reported = x.reported ++ c.reported
  ended : c.Ended

variable {x}

theorem Cursors.cons {ts : List Token} (h : x.Cursors ts c c') : ∃ t us, ts = t :: us ∧
    c.rest = t :: (us ++ x.behind) ∧ c'.rest = t :: (us ++ x.behind') ∧ t ∈ x.ahead := by
  obtain ⟨t, us, rfl⟩ := List.exists_cons_of_ne_nil h.ne_nil
  exact ⟨t, us, rfl, h.rest, h.rest', h.suffix.subset List.mem_cons_self⟩

theorem Cursors.spanFrom {ts : List Token} (h : x.Cursors ts c c') (t : Token) :
    c'.spanFrom o t = c.spanFrom o t := by
  rw [Cursor.spanFrom, Cursor.spanFrom, h.last]

/-- A token is taken that is not the last one. -/
theorem Cursors.advance {ts us us' : List Token} {t t' : Token} (h : x.Cursors ts c c')
    (hr : c.rest = t :: us) (hr' : c'.rest = t' :: us') (hk : t.kind ≠ .eof)
    (hlast : t ∉ x.ahead.getLast?) : ∃ vs, x.Cursors vs (c.behind t us) (c'.behind t' us') := by
  obtain ⟨u, vs, rfl, hu, hu', -⟩ := h.cons
  obtain ⟨rfl, rfl⟩ := List.cons.inj (hu.symm.trans hr)
  obtain ⟨rfl, rfl⟩ := List.cons.inj (hu'.symm.trans hr')
  refine ⟨vs, rfl, rfl, (List.suffix_cons u vs).trans h.suffix, ?_, rfl, h.reported, ?_⟩
  · rintro rfl
    obtain ⟨front, hfront⟩ := h.suffix
    refine hlast ?_
    rw [← hfront, List.getLast?_concat]
    rfl
  · exact h.ended.tail (d := c.behind u (vs ++ x.behind)) hr hk

variable (x)

/-- Two readings of the tokens that both have. -/
def likeness (o : Options) : Likeness o o where
  __ := Likeness.self o (· ∈ x.ahead)
  cursors c c' := ∃ ts, x.Cursors ts c c'
  faults _ := True
  ended h := h.elim fun _ h => h.ended
  length_le := by
    rintro c c' ⟨ts, h⟩
    have := x.length_le
    rw [h.rest, h.rest', List.length_append, List.length_append]
    omega
  current := by
    rintro c c' ⟨ts, h⟩
    obtain ⟨t, us, -, hr, hr', ht⟩ := h.cons
    rw [Cursor.current_of_rest hr, Cursor.current_of_rest hr']
    exact .inl ⟨rfl, ht⟩
  last _ := False.elim
  advance := by
    rintro c c' t t' us us' ⟨ts, h⟩ hr hr' - hon
    refine h.advance hr hr' hon.isBefore.ne_eof fun hlast => ?_
    have hends := x.ends t hlast
    rw [show endsStatement t = false from hon] at hends
    cases hends
  report := by
    rintro c c' e e' ⟨ts, h⟩ ⟨rfl, -⟩
    refine ⟨ts, h.rest, h.rest', h.suffix, h.ne_nil, h.last, ?_, h.ended⟩
    simp only [h.reported, List.append_assoc]
  span := by
    rintro c c' t t' ⟨ts, h⟩ ⟨rfl, -⟩
    exact h.spanFrom _
  tooLong _ _ _ := trivial

/-- Up to the end of the source both readings go on behind statements. -/
theorem closed (o : Options) (hend : ∀ t ∈ x.ahead.getLast?, t.kind = .eof) :
    (x.likeness o).Closed where
  ends := False.elim
  pass := by
    rintro c c' t t' us us' ⟨ts, h⟩ hr hr' - hk
    exact h.advance hr hr' hk fun hlast => hk (hend t hlast)

end Shared

/-! ## A statement that is rejected -/

/-- Whether tokens are rejected as a statement. -/
def rejects (o : Options) (ts : List Token) : Bool :=
  match readStatement o (readStatements o ts.length) { rest := ts } with
  | .error (.malformed _) _ => true
  | _ => false

/-- Tokens of a statement that is no block, up to the separator that ends it. -/
structure IsSimple (s : List Token) : Prop where
  ne_nil : s ≠ []
  inner : ∀ t ∈ s, endsStatement t = false ∧ t.kind ≠ .codeEnter ∧ t.kind ≠ .text
  head : ∀ t ∈ s.head?, ∀ word ∈ ["if", "for", "end", "else"], t.isWord word = false

/-- A statement that is rejected in one reading is rejected in the other one, at the same token. -/
theorem Shared.readSimple_error (x : Shared) {ts : List Token} {e : SyntaxError} (h : x.Cursors ts c c')
    (hr : readEnded (readSimple o) c = .error (.malformed e) d) : e.token ∈ x.ahead ∧
      ∃ vs d', readEnded (readSimple o) c' = .error (.malformed e) d' ∧ x.Cursors vs d d' := by
  have halike := (mirrors_readSimple (L := x.likeness o)).alike ⟨ts, h⟩ (Nat.le_succ _)
  rw [readEnded, bind_run] at hr ⊢
  generalize readSimple o c = r at halike hr
  generalize readSimple o c' = r' at halike
  cases halike with
  | @ok n n' d₁ d₁' hn hd =>
    obtain ⟨vs, hd⟩ := hd
    obtain ⟨t, us, -, hrest, hrest', ht⟩ := hd.cons
    dsimp only at hr ⊢
    rw [readStatementEnd_eq, bind_assoc, bind_of_ok (current_run _), Cursor.current_of_rest hrest] at hr
    rw [readStatementEnd_eq, bind_assoc, bind_of_ok (current_run _), Cursor.current_of_rest hrest']
    cases hends : endsStatement t with
    | true =>
      rw [hends, if_pos rfl] at hr
      refine absurd hr (Settles.bind ?_ (fun _ => .pure n) d₁ e d)
      split
      · exact Settles.advance.bind fun _ => .pure _
      · exact .pure _
    | false =>
      rw [hends, if_neg Bool.false_ne_true, bind_of_error (fail_run _ _),
        Cursor.current_of_rest hrest] at hr
      rw [if_neg Bool.false_ne_true, bind_of_error (fail_run _ _), Cursor.current_of_rest hrest']
      cases hr
      exact ⟨ht, vs, d₁', rfl, hd⟩
  | malformed he hd =>
    cases hr
    obtain ⟨rfl, he⟩ := he
    obtain ⟨vs, hd⟩ := hd
    exact ⟨he, vs, _, rfl, hd⟩
  | fault => cases hr

/-- What is skipped ends in front of the first token that ends statements. -/
theorem skipStatement_run {ts us : List Token} {u : Token} (hts : ∀ t ∈ ts, endsStatement t = false)
    (hu : endsStatement u = true) {n : Nat} (hn : ts.length < n) (hr : c.rest = ts ++ u :: us) :
    ∃ d, skipStatement n c = .ok () d ∧ d.rest = u :: us ∧ d.reported = c.reported := by
  obtain ⟨n, rfl⟩ := Nat.exists_eq_add_one_of_ne_zero (Nat.ne_zero_of_lt hn)
  induction ts generalizing c n with
  | nil =>
    rw [skipStatement, bind_of_ok (current_run c), Cursor.current_of_rest hr, hu, Bool.not_true,
      if_neg Bool.false_ne_true]
    exact ⟨c, rfl, hr, rfl⟩
  | cons t ts ih =>
    obtain ⟨ht, hts⟩ := List.forall_mem_cons.mp hts
    have hk : t.kind ≠ .eof := (GoesOn.isBefore ht).ne_eof
    obtain ⟨n, rfl⟩ := Nat.exists_eq_add_one_of_ne_zero (Nat.ne_zero_of_lt (Nat.lt_of_succ_lt_succ hn))
    rw [skipStatement, bind_of_ok (current_run c), Cursor.current_of_rest hr, ht, Bool.not_false,
      if_pos rfl, bind_of_ok (advance_run hr hk)]
    exact ih hts rfl n (Nat.lt_of_succ_lt_succ hn)

theorem readOrSkip_of_malformed {statements : Reader (List Node)} {e : SyntaxError} {ts us : List Token}
    {u : Token} (h : readStatement o statements c = .error (.malformed e) d)
    (hts : ∀ t ∈ ts, endsStatement t = false) (hu : endsStatement u = true) (hr : d.rest = ts ++ u :: us) :
    ∃ f, readOrSkip o statements c = .ok none f ∧ f.rest = u :: us ∧ f.reported = d.reported ++ [e] := by
  have hn : ts.length < d.rest.length := by
    rw [hr, List.length_append, List.length_cons]
    omega
  obtain ⟨f, hskip, hrest, hrep⟩ :=
    skipStatement_run (c := { d with reported := d.reported ++ [e] }) hts hu hn hr
  refine ⟨f, ?_, hrest, hrep⟩
  rw [readOrSkip_run, h]
  dsimp only
  rw [bind_of_ok (report_run e d), bind_of_ok (get_run _), bind_of_ok hskip]
  rfl

/-- A statement is rejected at `c`, and what is behind its separator is still ahead. -/
def StopsIn (o : Options) (statements : Reader (List Node)) (s : List Token) (semi : Token)
    (us : List Token) (e : SyntaxError) (c : Cursor) : Prop :=
  ∃ d ts, readStatement o statements c = .error (.malformed e) d ∧ d.rest = ts ++ semi :: us ∧ ts <:+ s ∧
    d.reported = c.reported

namespace IsSimple

variable {s : List Token} {semi stop : Token} (h : IsSimple s)

include h

/-- The token that such a statement begins with. -/
theorem begins : ∃ t us, s = t :: us ∧ (endsSection t || belongsToBlock t) = false ∧
    isSeparator t = false ∧ (t.kind == .text) = false ∧ t.isWord "if" = false ∧
      t.isWord "for" = false := by
  obtain ⟨t, us, rfl⟩ := List.exists_cons_of_ne_nil h.ne_nil
  obtain ⟨hon, henter, htext⟩ := h.inner t List.mem_cons_self
  have hword (word : String) (hw : word ∈ ["if", "for", "end", "else"]) : t.isWord word = false :=
    h.head t rfl word hw
  have hsection : endsSection t = false := GoesOn.isBefore hon
  have hseparator : isSeparator t = false :=
    Bool.eq_false_iff.mpr fun hsep => not_isBetween hon henter htext (.inl hsep)
  refine ⟨t, us, rfl, ?_, hseparator, beq_false_of_ne htext, hword "if" (by decide),
    hword "for" (by decide)⟩
  rw [hsection, belongsToBlock, hword "end" (by decide), hword "else" (by decide)]
  rfl

/-- A statement that is rejected in front of the end is rejected in front of other tokens, at the
same token, and up to the separator behind it. -/
theorem rejected {statements : Reader (List Node)} {e : SyntaxError} (hsemi : semi.kind = .semicolon)
    (hstop : stop.kind = .eof)
    (hr : readStatement o statements { rest := s ++ [semi, stop] } = .error (.malformed e) d) :
    e.token ∈ s ++ [semi] ∧ ∀ {c : Cursor} {us : List Token} (statements' : Reader (List Node)),
      c.rest = s ++ semi :: us → us ≠ [] → StopsIn o statements' s semi us e c := by
  obtain ⟨t, us₀, hs, -, -, -, hif, hfor⟩ := h.begins
  have hsimple (statements : Reader (List Node)) {c : Cursor} {us : List Token} (hc : c.rest = s ++ us) :
      readStatement o statements c = readEnded (readSimple o) c := by
    have hcur : c.current = t := Cursor.current_of_rest (by rw [hc, hs, List.cons_append])
    exact readStatement_simple (hcur ▸ hif) (hcur ▸ hfor)
  have hends : ∀ t ∈ (s ++ [semi]).getLast?, endsStatement t = true := by
    rw [List.getLast?_concat]
    rintro _ ⟨⟩
    rw [endsStatement, hsemi]
  rw [hsimple statements rfl] at hr
  have hshared (us : List Token) (hus : us ≠ []) (reported : List SyntaxError) :=
    let x : Shared := ⟨s ++ [semi], [stop], us, reported, hends, List.length_pos_of_ne_nil hus⟩
    have hcursors : x.Cursors (s ++ [semi]) { rest := s ++ [semi, stop] }
        { rest := s ++ semi :: us, reported } :=
      ⟨(List.append_assoc s [semi] [stop]).symm, (List.append_assoc s [semi] us).symm, List.suffix_rfl,
        by simp, rfl, (List.append_nil _).symm, ⟨stop, by simp, hstop⟩⟩
    x.readSimple_error hcursors hr
  refine ⟨(hshared [stop] (List.cons_ne_nil _ _) []).1, fun {c us} statements' hc hus => ?_⟩
  obtain ⟨-, vs, d', hr', hd⟩ := hshared us hus c.reported
  have hquiet : d'.reported = c.reported := by
    rw [← after_of_error hr']
    exact advances_quiet.readEnded (advances_quiet.readSimple o) _
  rw [← hsimple statements' rfl] at hr'
  have hrecall : c = ({ rest := s ++ semi :: us, reported := c.reported } : Cursor).recalling c.last := by
    rw [← hc]
    rfl
  obtain hsame | ⟨e', hstay, hstay'⟩ := forgets_readStatement (o := o)
    (c := { rest := s ++ semi :: us, reported := c.reported }) statements' c.last
  · rw [← hrecall] at hsame
    obtain hnil | ⟨ts, rfl, hts⟩ := List.suffix_concat_iff.mp hd.suffix
    · exact absurd hnil hd.ne_nil
    · refine ⟨d', ts, hsame.trans hr', ?_, hts, hquiet⟩
      rw [hd.rest', List.append_assoc]
      rfl
  · rw [hr'] at hstay
    cases hstay
    rw [← hrecall] at hstay'
    exact ⟨c, s, hstay', hc, List.suffix_rfl, rfl⟩

/-- A statement that is rejected adds none to a row of statements, and a complaint. -/
theorem reaches (hsemi : semi.kind = .semicolon) {us : List Token} (hc : c.rest = s ++ semi :: us)
    {e : SyntaxError} (n : Nat) (hr : StopsIn o (readStatements o (n + 1)) s semi us e c) :
    ∃ f, f.rest = us ∧ f.reported = c.reported ++ [e] ∧ Reaches o (n + 2) c [] n f := by
  obtain ⟨d, ts, hread, hrest, hts, hrep⟩ := hr
  obtain ⟨t, us₀, rfl, hstop, hsep, htext, -, -⟩ := h.begins
  have hends : endsStatement semi = true := by rw [endsStatement, hsemi]
  have hseparator : isSeparator semi = true := by rw [isSeparator, hsemi]
  obtain ⟨f, hskip, hf, hfrep⟩ := readOrSkip_of_malformed hread
    (fun t ht => (h.inner t (hts.subset ht)).1) hends hrest
  refine ⟨f.behind semi us, rfl, by rw [← hrep]; exact hfrep, ?_⟩
  exact Reaches.statement hc hstop hsep htext hskip (.separator hf hseparator (.refl o n _))

end IsSimple

/-! ## Sections -/

/-- What is read of tokens as a section: its statements, and the complaints about them. -/
def sectionOf (o : Options) (tokens : List Token) : Except Fault (List Node × List SyntaxError) :=
  outcome (readSectionBody o (tokens.length + 1) { rest := tokens })

/-- A section goes on behind a row of statements as a section that begins there. -/
theorem readSectionTurn_of_reaches {n m fuel : Nat} {nodes : List Node} (h : Reaches o (n + 1) c nodes m d)
    (hd : d.Ended) (hm : d.rest.length ≤ m) (hfuel : d.rest.length ≤ fuel) :
    readSectionTurn o fuel n c =
      (do return nodes ++ (← readSectionBody o (d.rest.length + 1)) : Reader (List Node)) d := by
  have hbound : readStatements o m d = readStatements o (d.rest.length + 1) d :=
    (bounds_suffice o).statements hd (Nat.le_succ _) hm
  rw [readSectionTurn, bind_run, h, bind_run, hbound, bind_run, readSectionBody_succ,
    bind_of_ok (get_run d), readSectionTurn, bind_run]
  have hleads := steps_leads.readStatements o (d.rest.length + 1) d
  generalize hr : readStatements o (d.rest.length + 1) d = r
  cases r with
  | error x g => rfl
  | ok body g =>
    rw [after_of_ok hr] at hleads
    dsimp only [pure_run]
    rw [bind_of_ok (current_run g), bind_of_ok (current_run g)]
    split
    · rfl
    · next hends =>
      have hk : g.current.kind ≠ .eof := IsBefore.ne_eof (Bool.eq_false_iff.mpr hends)
      obtain ⟨us, hg⟩ := Cursor.rest_of_current hk
      have hlen : us.length ≤ d.rest.length := by
        have := hleads.rest.length_le
        rw [hg, List.length_cons] at this
        omega
      let e : SyntaxError := (Problem.unmatched g.current.value).at g.current
      let g' : Cursor := { g with reported := g.reported ++ [e] }
      have htake : advance g' = .ok g.current (g'.behind g.current us) := advance_run hg hk
      have hended : (g'.behind g.current us).Ended :=
        Cursor.Ended.tail (c := g') (d := g'.behind g.current us) (hleads.ended hd) hg hk
      have hsections : readSectionBody o fuel (g'.behind g.current us) =
          readSectionBody o d.rest.length (g'.behind g.current us) :=
        (bounds_suffice o).sections hended hlen (Nat.le_trans hlen hfuel)
      rw [bind_of_ok (report_run e g), bind_of_ok (report_run e g), bind_of_ok htake, bind_of_ok htake,
        bind_run, bind_run, hsections]
      cases readSectionBody o d.rest.length (g'.behind g.current us) with
      | ok rest f => simp only [pure_run, List.append_assoc]
      | error x f => rfl

/-- What ends a section is not among the tokens in front of its end. -/
theorem length_le_one_of_endsSection {ts : List Token} {stop : Token}
    (hts : ∀ t ∈ ts, endsSection t = false) (hd : d.rest <:+ ts ++ [stop])
    (h : endsSection d.current = true) : d.rest.length ≤ 1 := by
  obtain hnil | ⟨vs, hvs, hsuffix⟩ := List.suffix_concat_iff.mp hd
  · simp [hnil]
  cases vs with
  | nil => simp [hvs]
  | cons v vs =>
    rw [Cursor.current_of_rest hvs, hts v (hsuffix.subset List.mem_cons_self)] at h
    cases h

/-- A section without a complaint, up to its end: with other tokens there, the statements are the same
and reading goes on. -/
theorem reaches_of_clean {ts : List Token} (us : List Token) {stop : Token} {nodes : List Node} {n : Nat}
    (hstop : stop.kind = .eof) (hts : ∀ t ∈ ts, endsSection t = false)
    (hlast : ∀ t ∈ ts.getLast?, isSeparator t = true) (h : sectionOf o (ts ++ [stop]) = .ok (nodes, []))
    (hn : (ts ++ us).length ≤ n) : ∃ m e, Reaches o n { rest := ts ++ us } nodes m e ∧ e.rest = us ∧
      e.reported = [] ∧ us.length ≤ m := by
  have hus : ∃ t ∈ [stop], t.kind = .eof := ⟨stop, List.mem_singleton_self stop, hstop⟩
  have hended : Cursor.Ended { rest := ts ++ [stop] } := ⟨stop, by simp, hstop⟩
  rw [sectionOf] at h
  cases hbody : readSectionBody o ((ts ++ [stop]).length + 1) { rest := ts ++ [stop] } with
  | error x d =>
    rw [hbody] at h
    cases x with
    | fault e => cases h
    | malformed e => exact absurd hbody (Settles.readSectionBody o _ _ e d)
  | ok nodes' d =>
    rw [hbody] at h
    obtain ⟨rfl, hrep⟩ := Prod.mk.inj (Except.ok.inj h)
    obtain ⟨hread, hends⟩ := readSectionBody_ok (Nat.succ_pos _) hbody hrep
    have hleads := steps_leads.readStatements o ((ts ++ [stop]).length + 1) { rest := ts ++ [stop] }
    rw [after_of_ok hread] at hleads
    have hd : d.rest.length ≤ [stop].length := length_le_one_of_endsSection hts hleads.rest hends
    have hseparates : Separates o [stop] (ts ++ [stop]) := fun {n c d node?} _ hc hr _ => by
      have hleads : c.Leads d := after_of_ok hr ▸ steps_leads.readOrSkip o (steps_leads.readStatements o n) c
      exact List.length_pos_of_mem (hleads.ended hc).choose_spec.1
    have hbeside : Cursor.Beside True [stop] us ts ts { rest := ts ++ [stop] } { rest := ts ++ us } :=
      ⟨rfl, rfl, List.forall₂_refl _, fun t ht => IsBefore.ne_eof (hts t ht), fun t ht => .inl (hlast t ht),
        fun _ => rfl⟩
    obtain ⟨A, A', m, e, m', e', hr, hr', hlike, -, ⟨he, hrep', -⟩, he', hrep'', hm'⟩ :=
      crosses_row hus _ n hbeside hseparates (Nat.le_succ _) hn hread hrep hd
    obtain ⟨more, rfl, hmore⟩ := hr.ok_inv hread
    have hnone : readStatements o m e = .ok [] e := by
      refine readStatements_stop m ?_
      rw [Cursor.current_of_rest he, endsSection, hstop]
      rfl
    rw [hnone] at hmore
    cases hmore
    refine ⟨m', e', ?_, he', hrep'', hm'⟩
    rwa [List.append_nil, hlike.eq trivial]

/-- What was reported before a section stays in front of the complaints about it. -/
theorem outcome_reported {ts : List Token} {stop : Token} (hstop : stop.kind = .eof)
    (reported : List SyntaxError) {n : Nat} (hn : (ts ++ [stop]).length ≤ n) :
    outcome (readSectionBody o n { rest := ts ++ [stop], reported }) =
      (outcome (readSectionBody o n { rest := ts ++ [stop] })).map fun answer =>
        (answer.1, reported ++ answer.2) := by
  have hend : ∀ t ∈ (ts ++ [stop]).getLast?, t.kind = .eof := by
    rw [List.getLast?_concat]
    rintro _ ⟨⟩
    exact hstop
  let x : Shared := ⟨ts ++ [stop], [], [], reported,
    fun t ht => by rw [endsStatement, hend t ht], Nat.le_refl _⟩
  have hclosed : (x.likeness o).Closed := x.closed o hend
  have hcursors : x.Cursors (ts ++ [stop]) { rest := ts ++ [stop] } { rest := ts ++ [stop], reported } :=
    ⟨(List.append_nil _).symm, (List.append_nil _).symm, List.suffix_rfl, by simp, rfl,
      (List.append_nil _).symm, ⟨stop, by simp, hstop⟩⟩
  have halike := (mirrors_readSectionBody (L := x.likeness o) n n hn hn).alike ⟨_, hcursors⟩
    (Nat.le_refl _)
  generalize readSectionBody o n { rest := ts ++ [stop] } = r at halike
  generalize readSectionBody o n { rest := ts ++ [stop], reported } = r' at halike
  cases halike with
  | ok hnodes hd =>
    obtain ⟨vs, hd⟩ := hd
    rw [outcome, hnodes, hd.reported]
    exact congrArg (fun nodes => Except.ok (nodes, _)) (movedNodes_id _)
  | malformed he hd =>
    obtain ⟨vs, hd⟩ := hd
    rw [outcome, he.1, hd.reported, List.append_assoc]
    rfl
  | fault => rfl

/-- The statements of a section, and those read before it. -/
theorem outcome_append (nodes : List Node) (n : Nat) (c : Cursor) :
    outcome ((do return nodes ++ (← readSectionBody o n) : Reader (List Node)) c) =
      (outcome (readSectionBody o n c)).map fun answer => (nodes ++ answer.1, answer.2) := by
  rw [bind_run]
  cases hr : readSectionBody o n c with
  | ok rest d => rfl
  | error x d =>
    cases x with
    | fault e => rfl
    | malformed e => exact absurd hr (Settles.readSectionBody o n c e d)

/-- A statement of code that is rejected is skipped up to the separator behind it. What stands in front
of it, if it is a row of statements without a complaint, and what stands behind it are read as they
are by themselves; one complaint is made more, about a token of the statement or the separator. -/
theorem sectionOf_broken (o : Options) {before broken : List Token} {semi stop : Token}
    {nodes : List Node} (hsemi : semi.kind = .semicolon) (hstop : stop.kind = .eof)
    (hbefore : ∀ t ∈ before, endsSection t = false)
    (hlast : ∀ t ∈ before.getLast?, isSeparator t = true)
    (hclean : sectionOf o (before ++ [stop]) = .ok (nodes, [])) (hbroken : IsSimple broken)
    (hrejects : rejects o (broken ++ [semi, stop]) = true) :
    ∃ e : SyntaxError, (e.token ∈ broken ∨ e.token = semi) ∧ ∀ behind : List Token,
      sectionOf o (before ++ broken ++ semi :: behind ++ [stop]) =
        (sectionOf o (behind ++ [stop])).map fun answer => (nodes ++ answer.1, e :: answer.2) := by
  obtain ⟨e, d, hread⟩ : ∃ e d, readStatement o (readStatements o (broken ++ [semi, stop]).length)
      { rest := broken ++ [semi, stop] } = .error (.malformed e) d := by
    rw [rejects] at hrejects
    split at hrejects
    · exact ⟨_, _, ‹_›⟩
    · cases hrejects
  obtain ⟨htoken, hrejected⟩ := hbroken.rejected hsemi hstop hread
  refine ⟨e, by simpa using htoken, fun behind => ?_⟩
  have htokens : before ++ broken ++ semi :: behind ++ [stop] =
      before ++ (broken ++ semi :: (behind ++ [stop])) := by simp
  have hbehind : behind ++ [stop] ≠ [] := by simp
  rw [sectionOf, htokens]
  generalize hall : before ++ (broken ++ semi :: (behind ++ [stop])) = all
  obtain ⟨m, c, hreaches, hc, hrep, hm⟩ :=
    reaches_of_clean (broken ++ semi :: (behind ++ [stop])) hstop hbefore hlast hclean
      (hall ▸ Nat.le_succ all.length)
  rw [List.length_append, List.length_cons] at hm
  have hpos := List.length_pos_of_ne_nil hbroken.ne_nil
  obtain ⟨m, rfl⟩ : ∃ k, m = k + 2 := Nat.exists_eq_add_of_le' (by omega)
  obtain ⟨f, hf, hfrep, hskips⟩ := hbroken.reaches hsemi hc m (hrejected _ hc hbehind)
  rw [hrep, List.nil_append] at hfrep
  have hfended : f.Ended := ⟨stop, by simp [hf], hstop⟩
  have hfuel : f.rest.length ≤ all.length := by
    rw [hf, ← hall]
    simp
    omega
  have hturn : readSectionBody o (all.length + 1) { rest := all } = _ :=
    readSectionTurn_of_reaches ((hall ▸ hreaches).trans hskips) hfended (by rw [hf]; omega) hfuel
  have hrecall : f = ({ rest := behind ++ [stop], reported := [e] } : Cursor).recalling f.last := by
    rw [← hf, ← hfrep]
    rfl
  rw [hturn, outcome_append, hrecall, outcome_recalling, ← hrecall, hf,
    outcome_reported hstop [e] (Nat.le_succ _), List.append_nil, sectionOf]
  cases outcome (readSectionBody o ((behind ++ [stop]).length + 1) { rest := behind ++ [stop] }) <;> rfl

/-- The tokens of `x;`, and of `1 2` behind it: the second number is rejected. -/
theorem sectionOf_broken_numbers :
    let x : Token := ⟨.identifier, "x", ⟨1, 0⟩, ⟨1, 1⟩⟩
    let line : Token := ⟨.semicolon, ";", ⟨1, 1⟩, ⟨1, 2⟩⟩
    let one : Token := ⟨.integer, "1", ⟨1, 3⟩, ⟨1, 4⟩⟩
    let two : Token := ⟨.integer, "2", ⟨1, 5⟩, ⟨1, 6⟩⟩
    let semi : Token := ⟨.semicolon, ";", ⟨1, 6⟩, ⟨1, 7⟩⟩
    let stop : Token := .eof ⟨1, 9⟩
    ∃ nodes, sectionOf {} [x, line, stop] = .ok (nodes, []) ∧ rejects {} [one, two, semi, stop] = true ∧
      ∃ e : SyntaxError, (e.token ∈ [one, two] ∨ e.token = semi) ∧ ∀ behind : List Token,
        sectionOf {} ([x, line] ++ [one, two] ++ semi :: behind ++ [stop]) =
          (sectionOf {} (behind ++ [stop])).map fun answer => (nodes ++ answer.1, e :: answer.2) := by
  intro x line one two semi stop
  have hclean : sectionOf {} ([x, line] ++ [stop]) =
      .ok ([.expression ⟨none, ⟨1, 0⟩, ⟨1, 1⟩⟩ (.name ⟨none, ⟨1, 0⟩, ⟨1, 1⟩⟩ "x")], []) := by rfl
  have hrejects : rejects {} ([one, two] ++ [semi, stop]) = true := by decide +kernel
  exact ⟨_, hclean, hrejects, sectionOf_broken {} rfl rfl (by decide) (by decide) hclean
    ⟨by decide, by decide, by decide⟩ hrejects⟩

end Stencil.Grammar

import Stencil.Proofs.Tracking

/-!
# Statements side by side

A statement takes what ends it, so it may take the last of the tokens that two cursors have both.
That one stands between statements, hence nothing of the statement is behind it: `Finishes` is
`Tracks` for readers that end there. In a row of statements, the readers of all but the last one
`Tracks`.
-/

namespace Stencil.Grammar

variable {α β : Type} {placed : Prop} {us us' : List Token} {i j k : Nat} {P : α → α → Prop}
  {Q : β → β → Prop}

/-! ## Readers up to the rest -/

/-- The last token in front of `us` may stand in an expression. -/
def EndsInside (ts us : List Token) : Prop := ∃ before t, ts = before ++ t :: us ∧ IsInner t

theorem Derives.endsInside {ts us : List Token} {e : Node} (h : Derives .disjunction ts e us) :
    EndsInside ts us := by
  obtain ⟨taken, rfl, hinner⟩ := h.consumes
  have hlt := h.length_lt (by decide)
  rcases List.eq_nil_or_concat taken with rfl | ⟨before, t, rfl⟩
  · exact absurd hlt (Nat.lt_irrefl _)
  · rw [List.concat_eq_append] at hinner ⊢
    exact ⟨before, t, List.append_assoc _ _ _, hinner t (List.mem_append_right _ List.mem_cons_self)⟩

theorem EndsInside.behind {ts us vs : List Token} (h : EndsInside ts us) (hs : ts <:+ vs) :
    EndsInside vs us := by
  obtain ⟨before, t, rfl, ht⟩ := h
  obtain ⟨front, rfl⟩ := hs
  exact ⟨front ++ before, t, (List.append_assoc _ _ _).symm, ht⟩

/-- What a statement goes on with is not between statements, but for what opens code, or a text. -/
theorem not_isBetween {t : Token} (h : endsStatement t = false) (henter : t.kind ≠ .codeEnter)
    (htext : t.kind ≠ .text) : ¬ IsBetween t := by
  rintro (hsep | hk)
  · unfold isSeparator at hsep
    split at hsep
    all_goals first
      | next hk => rw [endsStatement, hk] at h; cases h
      | contradiction
  · exact htext hk

/-- A reader that takes a token if it reports nothing. -/
structure Takes (r : Reader α) : Prop where
  leads : Moves Cursor.Leads r
  takes {c d : Cursor} {a : α} : c.Ended → r c = .ok a d → d.reported = c.reported →
    d.rest.length < c.rest.length

namespace Takes

theorem left {r : Reader α} {f : α → Reader β} (h : Takes r) (hf : ∀ a, Moves Cursor.Leads (f a)) :
    Takes (r >>= f) where
  leads := steps_leads.bind h.leads hf
  takes {c d b} hc hr hrep := by
    obtain ⟨a, e, ha, -, -, hed, hrep₁, -⟩ := bind_silent h.leads hf hr hrep
    exact Nat.lt_of_le_of_lt hed.rest.length_le (h.takes hc ha hrep₁)

theorem right {r : Reader α} {f : α → Reader β} (h : Moves Cursor.Leads r) (hf : ∀ a, Takes (f a)) :
    Takes (r >>= f) where
  leads := steps_leads.bind h fun a => (hf a).leads
  takes {c d b} hc hr hrep := by
    obtain ⟨a, e, -, hb, hce, -, -, hrep₂⟩ := bind_silent h (fun a => (hf a).leads) hr hrep
    exact Nat.lt_of_lt_of_le ((hf a).takes (hce.ended hc) hb hrep₂) hce.rest.length_le

theorem fail (problem : Problem) : Takes (fail problem : Reader α) where
  leads := steps_leads.fail problem
  takes _ hr := by
    rw [fail_run] at hr
    cases hr

theorem readExpression (o : Options) : Takes (readExpression o) where
  leads := steps_leads.readExpression o
  takes hc hr _ := (sound_readExpression o hc hr).2.length_lt (by decide)

theorem readBlockEnd (keyword : String) (start : Token) : Takes (readBlockEnd keyword start) where
  leads := steps_leads.readBlockEnd keyword start
  takes hc hr _ := by
    obtain ⟨c', hrest, -, -, hend⟩ := readBlockEnd_ok hc hr
    have hle := hend.consumes.length_le
    rw [hrest, List.length_cons]
    omega

end Takes

/-- The same tokens ahead, `j` at most, in front of others. -/
def Cursor.Near (placed : Prop) (us us' : List Token) (j : Nat) (c c' : Cursor) : Prop :=
  ∃ ts ts', c.Beside placed us us' ts ts' c' ∧ ts.length ≤ j

theorem Cursor.Near.mono {c c' : Cursor} (h : c.Near placed us us' j c') (hj : j ≤ k) :
    c.Near placed us us' k c' := by
  obtain ⟨ts, ts', hbeside, hlen⟩ := h
  exact ⟨ts, ts', hbeside, Nat.le_trans hlen hj⟩

theorem Cursor.Abreast.near {c c' : Cursor} (h : c.Abreast placed us us' j c') :
    c.Near placed us us' j c' := by
  obtain ⟨ts, ts', hbeside, -, hlen⟩ := h
  exact ⟨ts, ts', hbeside, hlen⟩

theorem Cursor.Near.abreast {c c' : Cursor} (h : c.Near placed us us' j c')
    (hlen : us.length < c.rest.length) : c.Abreast placed us us' j c' := by
  obtain ⟨ts, ts', hbeside, hj⟩ := h
  refine ⟨ts, ts', hbeside, ?_, hj⟩
  rintro rfl
  rw [hbeside.rest, List.nil_append] at hlen
  exact Nat.lt_irrefl _ hlen

theorem Cursor.Abreast.length_lt {c c' : Cursor} (h : c.Abreast placed us us' j c') :
    us.length < c.rest.length := by
  obtain ⟨t, ts, -, -, hrest, -⟩ := h.cons
  rw [hrest, List.length_cons, List.length_append]
  omega

/-- Where the last token that was taken may stand in an expression, it was not the last one of
those that both cursors had: that one is between statements. -/
theorem Cursor.Abreast.length_lt_of_endsInside {c c' : Cursor} {vs : List Token}
    (h : c.Abreast placed us us' k c') (hin : EndsInside c.rest vs) (hle : us.length ≤ vs.length) :
    us.length < vs.length := by
  obtain ⟨ts, ts', hbeside, -, -⟩ := h
  obtain ⟨before, t, hrest, ht⟩ := hin
  refine Nat.lt_of_le_of_ne hle fun heq =>
    not_isBetween ht.1 ht.2.1 ht.2.2.1 (hbeside.seam t ?_)
  have hsplit : ts ++ us = (before ++ [t]) ++ vs := by
    rw [← hbeside.rest, hrest, List.append_assoc, List.singleton_append]
  rw [(List.append_inj' hsplit heq).1, List.getLast?_concat]
  rfl

/-- `Tracks`, for readers of which the first may come to the tokens that only it has, but takes none
of them. -/
structure Finishes (placed : Prop) (us us' : List Token) (k j : Nat) (P : α → α → Prop)
    (r r' : Reader α) : Prop where
  leads : Moves Cursor.Leads r
  finishes {c c' d : Cursor} {a : α} : c.Abreast placed us us' k c' → r c = .ok a d →
    d.reported = c.reported → us.length ≤ d.rest.length →
      ∃ a' d', r' c' = .ok a' d' ∧ P a a' ∧ d.Near placed us us' j d' ∧ d'.reported = c'.reported

namespace Finishes

theorem tracks {r r' : Reader α} (h : Finishes placed us us' k j P r r') :
    Tracks placed us us' k j P r r' where
  leads := h.leads
  tracks hc hr hrep hlen := by
    obtain ⟨a', d', hr', ha, hd, hrep'⟩ := h.finishes hc hr hrep (Nat.le_of_lt hlen)
    exact ⟨a', d', hr', ha, hd.abreast hlen, hrep'⟩

theorem mono {k' j' : Nat} {r r' : Reader α} (h : Finishes placed us us' k j P r r') (hk : k' ≤ k)
    (hj : j ≤ j') : Finishes placed us us' k' j' P r r' where
  leads := h.leads
  finishes hc hr hrep hlen := by
    obtain ⟨a', d', hr', ha, hd, hrep'⟩ := h.finishes (hc.mono hk) hr hrep hlen
    exact ⟨a', d', hr', ha, hd.mono hj, hrep'⟩

theorem behind {r r' : Reader α} (h : Finishes placed us us' (k + 1) k P r r') :
    Finishes placed us us' (k + 1) (k + 1) P r r' := h.mono (Nat.le_refl _) (Nat.le_succ k)

theorem front {r r' : Reader α} (h : Finishes placed us us' (k + 1) k P r r') :
    Finishes placed us us' k k P r r' := h.mono (Nat.le_succ k) (Nat.le_refl k)

theorem zero {r r' : Reader α} (h : Moves Cursor.Leads r) : Finishes placed us us' 0 j P r r' where
  leads := h
  finishes hc := by
    obtain ⟨-, _, -, _, -, -, -, -, -, hlen⟩ := hc.cons
    exact absurd hlen (Nat.not_succ_le_zero _)

/-- A reader that does not return. -/
theorem fail (problem problem' : Problem) :
    Finishes placed us us' k j P (fail problem : Reader α) (fail problem') where
  leads := steps_leads.fail problem
  finishes _ hr := by
    rw [fail_run] at hr
    cases hr

/-- A sequence, if the first cursor is not through with what both have where the second part
begins. -/
theorem bind_of [Std.Refl P] {r r' : Reader α} {f f' : α → Reader β}
    (h : Tracks placed us us' k i P r r')
    (hf : ∀ a a', P a a' → Finishes placed us us' i j Q (f a) (f' a'))
    (hmid : ∀ {c c' d e a b}, c.Abreast placed us us' k c' → r c = .ok a e → f a e = .ok b d →
      e.reported = c.reported → d.reported = e.reported → us.length ≤ d.rest.length →
      us.length < e.rest.length) :
    Finishes placed us us' k j Q (r >>= f) (r' >>= f') where
  leads := steps_leads.bind h.leads fun a => (hf a a (Std.Refl.refl a)).leads
  finishes {c c' d b} hc hr hrep hlen := by
    obtain ⟨a, e, ha, hb, -, -, hrep₁, hrep₂⟩ :=
      bind_silent h.leads (fun a => (hf a a (Std.Refl.refl a)).leads) hr hrep
    obtain ⟨a', e', ha', hP, he, hrep'⟩ :=
      h.tracks hc ha hrep₁ (hmid hc ha hb hrep₁ hrep₂ hlen)
    obtain ⟨b', d', hb', hQ, hd, hrep''⟩ := (hf a a' hP).finishes he hb hrep₂ hlen
    exact ⟨b', d', (bind_of_ok ha').trans hb', hQ, hd, hrep''.trans hrep'⟩

/-- The first part stays where it is. -/
theorem still [Std.Refl P] {r r' : Reader α} {f f' : α → Reader β}
    (h : Tracks placed us us' k i P r r') (hstill : ∀ {c d a}, r c = .ok a d → d = c)
    (hf : ∀ a a', P a a' → Finishes placed us us' i j Q (f a) (f' a')) :
    Finishes placed us us' k j Q (r >>= f) (r' >>= f') :=
  bind_of h hf fun hc ha _ _ _ _ => hstill ha ▸ hc.length_lt

theorem current {f f' : Token → Reader β}
    (hf : ∀ t t', SameToken placed t t' → Finishes placed us us' k j Q (f t) (f' t')) :
    Finishes placed us us' k j Q (Grammar.current >>= f) (Grammar.current >>= f') :=
  still Tracks.current (fun h => by cases h; rfl) hf

/-- What is read is returned in a tree with its range. -/
theorem spanned {o : Options} {start start' : Token} (hstart : SameToken placed start start')
    {r r' : Reader α} (h : Finishes placed us us' k j P r r') {g g' : Span → α → β}
    (hg : ∀ s s' a a', SameSpan placed s s' → P a a' → Q (g s a) (g' s' a')) :
    Finishes placed us us' k j Q (do let a ← r; return g (← Grammar.spanFrom o start) a)
      (do let a ← r'; return g' (← Grammar.spanFrom o start') a) where
  leads := steps_leads.bind h.leads fun a =>
    steps_leads.bind (steps_leads.spanFrom o start) fun _ => steps_leads.pure _
  finishes {c c' d b} hc hr hrep hlen := by
    obtain ⟨a, e, ha, hb⟩ := bind_ok hr
    cases hb
    obtain ⟨a', d', hr', hP, hd, hrep'⟩ := h.finishes hc ha hrep hlen
    refine ⟨_, d', bind_of_ok hr', hg _ _ a a' (fun hp => ?_) hP, hd, hrep'⟩
    obtain ⟨_, _, hbeside, -⟩ := hd
    show d.spanFrom o start = d'.spanFrom o start'
    rw [Cursor.spanFrom, Cursor.spanFrom, hbeside.last hp, hstart.same hp]

/-- What is returned was read before. -/
theorem returns {r r' : Reader Unit} {R : Unit → Unit → Prop} (h : Finishes placed us us' k j R r r')
    {a a' : α} (ha : P a a') :
    Finishes placed us us' k j P (do r; return a) (do r'; return a') where
  leads := steps_leads.bind h.leads fun _ => steps_leads.pure a
  finishes hc hr hrep hlen := by
    obtain ⟨_, e, he, hr⟩ := bind_ok hr
    cases hr
    obtain ⟨_, d', hr', -, hd, hrep'⟩ := h.finishes hc he hrep hlen
    exact ⟨a', d', bind_of_ok hr', ha, hd, hrep'⟩

/-- A word is a part of a statement: there are tokens behind it that both cursors have. -/
theorem word {word : String} {f f' : Token → Reader β} {g g' : Reader β}
    (hf : ∀ t t', SameToken placed t t' → Finishes placed us us' k j Q (f t) (f' t'))
    (hg : Finishes placed us us' (k + 1) j Q g g') :
    Finishes placed us us' (k + 1) j Q
      (do if (← Grammar.current).isWord word then (do let t ← advance; f t) else g)
      (do if (← Grammar.current).isWord word then (do let t ← advance; f' t) else g') where
  leads := steps_leads.bind steps_leads.current fun t => by
    split
    · exact steps_leads.bind steps_leads.advance fun t => (hf t t (Std.Refl.refl t)).leads
    · exact hg.leads
  finishes {c c' d b} hc hr hrep hlen := by
    have hcur := hc.current
    rw [bind_of_ok (current_run c)] at hr
    rw [bind_of_ok (current_run c'), hcur.atom.isWord]
    split at hr
    · next hw =>
      rw [if_pos hw]
      obtain ⟨t, ts, t', ts', hrest, hrest', ht, hkind, hbeside, hk⟩ := hc.cons
      rw [Cursor.current_of_rest hrest] at hw
      rw [bind_of_ok (advance_run hrest hkind)] at hr
      rw [bind_of_ok (advance_run hrest' (ht.atom.kind ▸ hkind))]
      have hne : ts ≠ [] := by
        rintro rfl
        obtain ⟨us₀, us₀', h, -, -⟩ := hc
        have hrow : us₀ = [t] := List.append_cancel_right (h.rest.symm.trans hrest)
        exact (h.seam t (by rw [hrow]; rfl)).ne_identifier (kind_of_isWord hw)
      exact (hf t t' ht).finishes ⟨ts, ts', hbeside, hne, Nat.le_of_succ_le_succ hk⟩ hr hrep hlen
    · next hw =>
      rw [if_neg hw]
      exact hg.finishes hc hr hrep hlen

/-- A token is taken, and nothing is read behind it. -/
theorem advance : Finishes placed us us' (k + 1) k Eq (do let _ ← advance; return ())
    (do let _ ← advance; return ()) where
  leads := steps_leads.bind steps_leads.advance fun _ => steps_leads.pure _
  finishes hc hr _ _ := by
    obtain ⟨t, ts, t', ts', hrest, hrest', ht, hkind, hbeside, hk⟩ := hc.cons
    rw [bind_of_ok (advance_run hrest hkind)] at hr
    cases hr
    exact ⟨(), _, bind_of_ok (advance_run hrest' (ht.atom.kind ▸ hkind)), rfl,
      ⟨ts, ts', hbeside, Nat.le_of_succ_le_succ hk⟩, rfl⟩

/-- Nothing is read. -/
theorem stay {a a' : α} (h : P a a') : Finishes placed us us' k k P (pure a : Reader α) (pure a') where
  leads := steps_leads.pure a
  finishes hc hr _ _ := by
    cases hr
    exact ⟨a', _, rfl, h, hc.near, rfl⟩

/-- A loop whose fuel is the number of tokens ahead. -/
theorem sized (f f' : Nat → Reader α)
    (h : ∀ i n n', i ≤ k → i ≤ n → i ≤ n' → Finishes placed us us' i j P (f n) (f' n')) :
    Finishes placed us us' k j P (do f (← get).rest.length) (do f' (← get).rest.length) where
  leads := steps_leads.bind steps_leads.get fun c =>
    (h 0 c.rest.length 0 (Nat.zero_le _) (Nat.zero_le _) (Nat.le_refl _)).leads
  finishes {c c' d a} hc hr hrep hlen := by
    obtain ⟨ts, ts', hbeside, hne, hk⟩ := hc
    obtain ⟨hts, hts'⟩ := hbeside.length_le
    exact (h _ _ _ hk hts hts').finishes ⟨ts, ts', hbeside, hne, Nat.le_refl _⟩ hr hrep hlen

section Ended

variable (hus : ∃ t ∈ us, t.kind = .eof)

include hus

theorem ended {c c' : Cursor} (h : c.Abreast placed us us' k c') : c.Ended := by
  obtain ⟨u, hu, hk⟩ := hus
  obtain ⟨ts, ts', hbeside, -⟩ := h
  exact ⟨u, hbeside.rest ▸ List.mem_append_right ts hu, hk⟩

/-- The second part takes a token. -/
protected theorem bind [Std.Refl P] {r r' : Reader α} {f f' : α → Reader β}
    (h : Tracks placed us us' k i P r r') (htakes : ∀ a, Takes (f a))
    (hf : ∀ a a', P a a' → Finishes placed us us' i j Q (f a) (f' a')) :
    Finishes placed us us' k j Q (r >>= f) (r' >>= f') :=
  bind_of h hf fun {c c' d e a b} hc ha hb _ hrep hlen => by
    have hce : c.Leads e := after_of_ok ha ▸ h.leads c
    exact Nat.lt_of_le_of_lt hlen ((htakes a).takes (hce.ended (ended hus hc)) hb hrep)

/-- The first part is an expression. -/
theorem expression {o : Options} {f f' : Node → Reader β}
    (hf : ∀ e e', e.Like placed e' → Finishes placed us us' k j Q (f e) (f' e')) :
    Finishes placed us us' (k + 1) j Q (readExpression o >>= f) (readExpression o >>= f') :=
  bind_of (tracks_readExpression o) hf fun {c c' d e a b} hc ha hb _ _ hlen => by
    have hin := (sound_readExpression o (ended hus hc) ha).2.endsInside
    have hed : e.Leads d := after_of_ok hb ▸ (hf a a (Std.Refl.refl a)).leads e
    exact hc.length_lt_of_endsInside hin (Nat.le_trans hlen hed.rest.length_le)

end Ended

end Finishes

/-! ## Statements -/

/-- A tree that has a place has one elsewhere. -/
theorem isSome_span?_of_like {n n' : Node} (h : n.Like placed n') : n.span?.isSome = n'.span?.isSome := by
  cases h <;> rfl

theorem readStatementEnd_eq : readStatementEnd = (do
    let t ← current
    if endsStatement t then
      if t.kind == .newline || t.kind == .semicolon then (do let _ ← advance; return ())
      else return ()
    else fail (.expectedEnd t.value)) := by
  funext c
  simp only [readStatementEnd, bind_of_ok (current_run c)]
  cases endsStatement c.current <;> rfl

theorem finishes_readStatementEnd :
    Finishes placed us us' k k Eq readStatementEnd readStatementEnd := by
  rw [readStatementEnd_eq]
  refine .current fun t t' ht => ?_
  rw [ht.atom.endsStatement, ht.atom.kind, ht.atom.value]
  split
  · split
    · exact .front .advance
    · exact .stay rfl
  · exact .fail _ _

theorem tracks_readStatementEnd : Tracks placed us us' k k Eq readStatementEnd readStatementEnd :=
  finishes_readStatementEnd.tracks

theorem tracks_readName (role : NameRole) :
    Tracks placed us us' (k + 1) k Eq (readName role) (readName role) := by
  refine (Tracks.expect _ _ _).bind fun t t' ht => ?_
  rw [ht.atom.value]
  dsimp only
  split
  · exact Tracks.bind (P := Eq) (.throw _ _) fun _ _ _ => .pure rfl
  · exact .pure rfl

theorem readBlockEnd_eq (keyword : String) (start : Token) : readBlockEnd keyword start = (do
    if (← current).isWord "end" then (do let _ ← advance; readStatementEnd)
    else fail (.missingEnd keyword start.start.line)) := by
  funext c
  simp only [readBlockEnd, bind_of_ok (current_run c)]
  cases c.current.isWord "end" <;> rfl

theorem finishes_readBlockEnd (keyword : String) (start start' : Token) :
    Finishes placed us us' (k + 1) k Eq (readBlockEnd keyword start) (readBlockEnd keyword start') := by
  rw [readBlockEnd_eq, readBlockEnd_eq]
  exact .word (fun _ _ _ => finishes_readStatementEnd) (.fail _ _)

variable (o : Options)

/-- Reads the body of a block behind its head, and the end of the block. -/
def readBlock (statements : Reader (List Node)) (keyword : String) (start : Token)
    (make : Span → Node → Node) : Reader Node := do
  readStatementEnd
  let body ← readBody o statements
  readBlockEnd keyword start
  return make (← spanFrom o start) body

theorem readLoop_eq (statements : Reader (List Node)) : readLoop o statements = (do
    let start ← advance
    let target ← readName .variable
    if (← current).isWord "in" then (do
      let _ ← advance
      let source ← readExpression o
      readBlock o statements "for" start fun span body => .loop span target source body)
    else fail .expectedIn) := by
  unfold readLoop readBlock
  refine bind_congr fun start => bind_congr fun target => bind_congr fun t => ?_
  cases t.isWord "in" <;> rfl

theorem tracks_readAssigned :
    Tracks placed us us' (k + 1) k (Node.Like placed) (readAssigned o) (readAssigned o) := by
  refine Tracks.current.bind fun start start' hstart =>
    (tracks_readName .target).bind fun name name' hname => ?_
  subst hname
  exact Tracks.advance.front.bind fun _ _ _ => (tracks_readExpression o).front.bind fun _ _ he =>
    (tracks_spanFrom o hstart).bind fun _ _ hspan => .pure (.assign hspan he)

theorem tracks_readAlone :
    Tracks placed us us' (k + 1) k (Node.Like placed) (readAlone o) (readAlone o) :=
  Tracks.current.bind fun _ _ hstart => (tracks_readExpression o).bind fun _ _ he =>
    (tracks_spanFrom o hstart).bind fun _ _ hspan => .pure (.expression hspan he)

theorem tracks_readSimple :
    Tracks placed us us' (k + 1) k (Node.Like placed) (readSimple o) (readSimple o) := by
  refine .ahead fun t t' u u' ht hu => ?_
  have hassign : (t'.kind == .identifier && u'.kind == .assign) =
      (t.kind == .identifier && u.kind == .assign) := by
    rw [ht.atom.kind]
    cases hk : t.kind == .identifier with
    | false => rfl
    | true => rw [(hu (beq_iff_eq.mp hk)).kind]
  rw [hassign]
  split
  · exact tracks_readAssigned o
  · exact tracks_readAlone o

/-- A statement that is no block ends with an expression. -/
theorem readSimple_endsInside {c d : Cursor} {n : Node} (hc : c.Ended) (h : readSimple o c = .ok n d) :
    EndsInside c.rest d.rest := by
  obtain ⟨u, hu⟩ := following_total c
  rw [readSimple, bind_of_ok (current_run c), bind_of_ok hu] at h
  split at h
  · next hassign =>
    rw [readAssigned, bind_of_ok (current_run c)] at h
    obtain ⟨name, c₁, h₁, h⟩ := bind_ok h
    obtain ⟨t, hr₁, ht, -, -, -⟩ := readName_ok h₁
    have hc₁ : c₁.Ended := hc.tail hr₁ (by rw [ht]; decide)
    obtain ⟨v, c₂, h₂, h⟩ := bind_ok h
    have hleads : c₁.Leads c₂ := after_of_ok h₂ ▸ steps_leads.advance c₁
    obtain ⟨e, c₃, h₃, h⟩ := bind_ok h
    cases h
    have hin := (sound_readExpression o (hleads.ended hc₁) h₃).2.endsInside
    exact hin.behind (hleads.rest.trans (hr₁ ▸ List.suffix_cons t c₁.rest))
  · rw [readAlone, bind_of_ok (current_run c)] at h
    obtain ⟨e, c₁, h₁, h⟩ := bind_ok h
    cases h
    exact (sound_readExpression o hc h₁).2.endsInside

section Statements

variable {statements statements' : Reader (List Node)}

theorem Takes.readBlock (hs : Moves Cursor.Leads statements) (keyword : String) (start : Token)
    (make : Span → Node → Node) : Takes (readBlock o statements keyword start make) :=
  .right steps_leads.readStatementEnd fun _ => .right (steps_leads.readBody o hs) fun _ =>
    (Takes.readBlockEnd keyword start).left fun _ =>
      steps_leads.bind (steps_leads.spanFrom o start) fun _ => steps_leads.pure _

/-- What is behind the body of a condition begins with a word. -/
theorem Takes.readBranchTail (hs : Moves Cursor.Leads statements) (n : Nat) (start : Token)
    (test body : Node) : Takes (readBranchTail o statements n start test body) where
  leads := steps_leads.readBranchTail o hs (steps_leads.readBranch o hs n) start test body
  takes {c d node} hc hr hrep := by
    rw [Grammar.readBranchTail, bind_of_ok (current_run c)] at hr
    split at hr
    · next hw =>
      have hne : c.current.kind ≠ .eof := by rw [kind_of_isWord hw]; decide
      obtain ⟨us, hrest⟩ := Cursor.rest_of_current hne
      rw [bind_of_ok (advance_run hrest hne)] at hr
      have hleads : (c.behind c.current us).Leads d := by
        rw [← after_of_ok hr]
        refine steps_leads.bind steps_leads.current (fun u => ?_) _
        split
        · exact steps_leads.bind (steps_leads.readBranch o hs n) fun _ =>
            steps_leads.bind (steps_leads.spanFrom o start) fun _ => steps_leads.pure _
        · exact (Takes.readBlock o hs "if" start _).leads
      rw [hrest, List.length_cons]
      exact Nat.lt_succ_of_le hleads.rest.length_le
    · exact ((Takes.readBlockEnd "if" start).left fun _ =>
        steps_leads.bind (steps_leads.spanFrom o start) fun _ => steps_leads.pure _).takes hc hr hrep

variable (hus : ∃ t ∈ us, t.kind = .eof)
  (hs : Tracks placed us us' k k (NodesLike placed) statements statements')

include hs

theorem tracks_readBody :
    Tracks placed us us' k k (Node.Like placed) (readBody o statements) (readBody o statements') :=
  Tracks.current.bind fun _ _ hstart => hs.bind fun _ _ hnodes =>
    (tracks_spanFrom o hstart).bind fun _ _ hspan => .pure (.block hspan hnodes)

include hus

theorem finishes_readBlock (keyword : String) {start start' : Token}
    (hstart : SameToken placed start start') {make make' : Span → Node → Node}
    (hmake : ∀ s s' b b', SameSpan placed s s' → b.Like placed b' → (make s b).Like placed (make' s' b')) :
    Finishes placed us us' k k (Node.Like placed) (readBlock o statements keyword start make)
      (readBlock o statements' keyword start' make') := by
  have htakes (body : Node) : Takes (do
      readBlockEnd keyword start
      return make (← spanFrom o start) body : Reader Node) :=
    (Takes.readBlockEnd keyword start).left fun _ =>
      steps_leads.bind (steps_leads.spanFrom o start) fun _ => steps_leads.pure _
  exact .bind hus tracks_readStatementEnd
    (fun _ => .right (steps_leads.readBody o hs.leads) htakes) fun _ _ _ =>
      .bind hus (tracks_readBody o hs) htakes fun body body' hbody =>
        .spanned hstart (finishes_readBlockEnd keyword start start').front
          fun s s' _ _ hspan _ => hmake s s' body body' hspan hbody

theorem finishes_readBranchTail {n n' : Nat} (hf : Finishes placed us us' k k (Node.Like placed)
      (readBranch o statements n) (readBranch o statements' n')) {start start' : Token}
    (hstart : SameToken placed start start') {test test' body body' : Node}
    (htest : test.Like placed test') (hbody : body.Like placed body') :
    Finishes placed us us' k k (Node.Like placed) (readBranchTail o statements n start test body)
      (readBranchTail o statements' n' start' test' body') := by
  refine .front (.word (fun _ _ _ => .current fun u u' hu => ?_) (.spanned hstart
    (finishes_readBlockEnd "if" start start') fun _ _ _ _ hspan _ => .branch hspan htest hbody .absent))
  rw [hu.atom.isWord]
  split
  · refine .spanned hstart hf fun s s' nested nested' hspan hnested => .branch hspan htest hbody ?_
    have hplace := isSome_span?_of_like hnested
    cases hn : nested.span? <;> cases hn' : nested'.span? <;> rw [hn, hn'] at hplace
    · exact .absent
    · cases hplace
    · cases hplace
    · refine .block (fun hp => Option.some.inj ?_) (.cons hnested .nil)
      rw [← hn, ← hn', hnested.span? hp]
  · exact finishes_readBlock o hus hs "if" hstart fun _ _ _ _ hspan hother =>
      .branch hspan htest hbody hother

/-- One condition of a chain. -/
theorem finishes_readBranch_succ {n n' : Nat} (hf : Finishes placed us us' k k (Node.Like placed)
      (readBranch o statements n) (readBranch o statements' n')) :
    Finishes placed us us' (k + 1) k (Node.Like placed) (readBranch o statements (n + 1))
      (readBranch o statements' (n' + 1)) := by
  have htail (start : Token) (test : Node) : Takes (do
      let body ← readBody o statements
      readBranchTail o statements n start test body : Reader Node) :=
    .right (steps_leads.readBody o hs.leads) fun body => .readBranchTail o hs.leads n start test body
  rw [readBranch_succ, readBranch_succ]
  refine .bind hus .advance (fun start => (Takes.readExpression o).left fun test =>
    steps_leads.bind steps_leads.readStatementEnd fun _ => (htail start test).leads)
    fun start start' hstart => .front (.expression hus fun test test' htest => ?_)
  exact .bind hus tracks_readStatementEnd (fun _ => htail start test) fun _ _ _ =>
    .bind hus (tracks_readBody o hs) (fun body => .readBranchTail o hs.leads n start test body)
      fun body body' hbody => finishes_readBranchTail o hus hs hf hstart htest hbody

theorem finishes_readLoop :
    Finishes placed us us' (k + 1) k (Node.Like placed) (readLoop o statements)
      (readLoop o statements') := by
  have htakes (start : Token) (target : String) : Takes (do
      if (← current).isWord "in" then (do
        let _ ← advance
        let source ← readExpression o
        readBlock o statements "for" start fun span body => .loop span target source body)
      else fail .expectedIn : Reader Node) := by
    refine .right steps_leads.current fun t => ?_
    split
    · exact .right steps_leads.advance fun _ => (Takes.readExpression o).left fun _ =>
        (Takes.readBlock o hs.leads "for" start _).leads
    · exact .fail _
  rw [readLoop_eq, readLoop_eq]
  refine .bind hus .advance (fun start => .right (steps_leads.readName .variable) (htakes start))
    fun start start' hstart => .front (.bind hus (tracks_readName .variable) (htakes start)
      fun name name' hname => ?_)
  subst hname
  exact .front (.word (fun _ _ _ => .front (.expression hus fun source source' hsource =>
    finishes_readBlock o hus hs "for" hstart fun _ _ _ _ hspan hbody => .loop hspan hsource hbody))
    (.fail _ _))

end Statements

section Rows

variable (hus : ∃ t ∈ us, t.kind = .eof)

include hus

theorem finishes_readBranch {statements statements' : Reader (List Node)}
    (hs : ∀ j, j ≤ k → Tracks placed us us' j j (NodesLike placed) statements statements')
    (n n' : Nat) (hn : k < n) (hn' : k < n') :
    Finishes placed us us' (k + 1) k (Node.Like placed) (readBranch o statements n)
      (readBranch o statements' n') := by
  obtain ⟨n, rfl⟩ := Nat.exists_eq_add_one_of_ne_zero (Nat.ne_zero_of_lt hn)
  obtain ⟨n', rfl⟩ := Nat.exists_eq_add_one_of_ne_zero (Nat.ne_zero_of_lt hn')
  refine finishes_readBranch_succ o hus (hs k (Nat.le_refl k)) ?_
  induction k generalizing n n' with
  | zero => exact .zero (steps_leads.readBranch o (hs 0 (Nat.le_refl 0)).leads n)
  | succ k ih =>
    obtain ⟨n, rfl⟩ := Nat.exists_eq_add_one_of_ne_zero (Nat.ne_zero_of_lt (Nat.lt_of_succ_lt_succ hn))
    obtain ⟨n', rfl⟩ :=
      Nat.exists_eq_add_one_of_ne_zero (Nat.ne_zero_of_lt (Nat.lt_of_succ_lt_succ hn'))
    refine .behind (finishes_readBranch_succ o hus (hs k (Nat.le_succ k)) ?_)
    exact ih (fun j hj => hs j (Nat.le_succ_of_le hj)) n (Nat.lt_of_succ_lt_succ hn) n'
      (Nat.lt_of_succ_lt_succ hn')

theorem finishes_readSimple :
    Finishes placed us us' (k + 1) k (Node.Like placed) (readEnded (readSimple o))
      (readEnded (readSimple o)) :=
  .bind_of (tracks_readSimple o) (fun _ _ hn => finishes_readStatementEnd.returns hn)
    fun {c c' d e n b} hc hn hb _ _ hlen => by
      have hed : e.Leads d := after_of_ok hb ▸
        steps_leads.bind steps_leads.readStatementEnd (fun _ => steps_leads.pure n) e
      exact hc.length_lt_of_endsInside (readSimple_endsInside o (Finishes.ended hus hc) hn)
        (Nat.le_trans hlen hed.rest.length_le)

theorem finishes_readStatement {statements statements' : Reader (List Node)}
    (hs : ∀ j, j ≤ k → Tracks placed us us' j j (NodesLike placed) statements statements') :
    Finishes placed us us' (k + 1) k (Node.Like placed) (readStatement o statements)
      (readStatement o statements') := by
  rw [readStatement_eq, readStatement_eq]
  refine .current fun t t' ht => ?_
  rw [ht.atom.isWord, ht.atom.isWord]
  split
  · refine .sized (readBranch o statements) (readBranch o statements') fun i n n' hi hn hn' => ?_
    cases i with
    | zero => exact .zero (steps_leads.readBranch o (hs 0 (Nat.zero_le k)).leads n)
    | succ i =>
      have hle := Nat.le_of_succ_le_succ hi
      exact (finishes_readBranch o hus (fun j hj => hs j (Nat.le_trans hj hle)) n n' hn hn').mono
        (Nat.le_refl _) hle
  split
  · exact finishes_readLoop o hus (hs k (Nat.le_refl k))
  · exact finishes_readSimple o hus

theorem finishes_readOrSkip {statements statements' : Reader (List Node)}
    (hs : ∀ j, j ≤ k → Tracks placed us us' j j (NodesLike placed) statements statements') :
    Finishes placed us us' (k + 1) k (fun n n' => NodesLike placed n.toList n'.toList)
      (readOrSkip o statements) (readOrSkip o statements') where
  leads := steps_leads.readOrSkip o (hs 0 (Nat.zero_le k)).leads
  finishes {c c' d n?} hc hr hrep hlen := by
    have hextends : Moves Cursor.Extends statements := fun c =>
      ((hs 0 (Nat.zero_le k)).leads c).reported
    obtain ⟨n, rfl, hn⟩ := readOrSkip_ok hextends hr hrep
    obtain ⟨n', d', hn', hlike, hd, hrep'⟩ :=
      (finishes_readStatement o hus hs).finishes hc hn hrep hlen
    exact ⟨some n', d', by rw [readOrSkip_run, hn'], .cons hlike .nil, hd, hrep'⟩

theorem tracks_readStatements (n n' : Nat) (hn : k ≤ n) (hn' : k ≤ n') :
    Tracks placed us us' k k (NodesLike placed) (readStatements o n) (readStatements o n') := by
  induction k using Nat.strong_induction_on generalizing n n' with
  | _ k ih =>
    cases k with
    | zero => exact .zero (steps_leads.readStatements o n)
    | succ k =>
      obtain ⟨n, rfl⟩ := Nat.exists_eq_add_one_of_ne_zero (Nat.ne_zero_of_lt hn)
      obtain ⟨n', rfl⟩ := Nat.exists_eq_add_one_of_ne_zero (Nat.ne_zero_of_lt hn')
      have hle := Nat.le_of_succ_le_succ hn
      have hle' := Nat.le_of_succ_le_succ hn'
      have hs (j : Nat) (hj : j ≤ k) :
          Tracks placed us us' j j (NodesLike placed) (readStatements o n) (readStatements o n') :=
        ih j (Nat.lt_succ_of_le hj) n n' (Nat.le_trans hj hle) (Nat.le_trans hj hle')
      refine Tracks.current.bind fun t t' ht => ?_
      rw [ht.atom.endsSection, ht.atom.belongsToBlock, ht.atom.isSeparator, ht.atom.kind]
      split
      · exact .pure .nil
      split
      · exact .behind (Tracks.advance.bind fun _ _ _ => hs k (Nat.le_refl k))
      split
      · rw [ht.atom.value]
        exact .behind (Tracks.advance.bind fun _ _ _ => (tracks_spanFrom o ht).bind fun _ _ hspan =>
          (hs k (Nat.le_refl k)).bind fun _ _ hrest => .pure (.cons (.text hspan) hrest))
      · exact .behind ((finishes_readOrSkip o hus hs).tracks.bind fun _ _ hn =>
          (hs k (Nat.le_refl k)).bind fun _ _ hrest => .pure (hn.append hrest))

end Rows

end Stencil.Grammar

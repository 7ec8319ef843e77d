import Stencil.Proofs.Printing
import Stencil.Proofs.Simulation
import Stencil.Proofs.Soundness

/-!
# Readers side by side

Two cursors are abreast if the same tokens are ahead of them, up to their places, and
different ones behind those. What a reader makes of the tokens that both have, it
makes at both cursors: a tree that is the same up to its places. `Tracks` says so of
two readers that start abreast, as long as nothing is reported and the first does not
get to the tokens that only it has.

Readers are put together from a few steps, and `Tracks` is a congruence for these.
Its two numbers bound the tokens ahead that both cursors have, before and after: a
reader that takes a token lowers the bound, which is what the fuel of loops is
compared with.
-/

namespace Stencil.Grammar

variable {α β : Type}

/-! ## Cursors -/

/-- What a cursor becomes: tokens are taken, and problems are reported. -/
structure Cursor.Leads (c d : Cursor) : Prop where
  rest : d.rest <:+ c.rest
  reported : c.Extends d
  ended : c.Ended → d.Ended

theorem steps_leads : Steps Cursor.Leads where
  refl c := ⟨List.suffix_rfl, steps_extends.refl c, id⟩
  trans h k := ⟨k.rest.trans h.rest, h.reported.trans k.reported, fun hc => k.ended (h.ended hc)⟩
  report e c := ⟨List.suffix_rfl, steps_extends.report e c, id⟩
  advance c := by
    obtain hstay | ⟨us, hr, hk, hnext⟩ := after_advance c
    · rw [hstay]
      exact ⟨List.suffix_rfl, steps_extends.refl c, id⟩
    · refine ⟨?_, steps_extends.advance c, fun hc => ?_⟩
      · rw [hnext, hr]
        exact List.suffix_cons _ us
      · rw [hnext]
        exact hc.tail (d := c.behind c.current us) hr hk

/-- A sequence that reports nothing, cut where its second part begins: neither part reports. -/
theorem bind_silent {r : Reader α} {f : α → Reader β} {c d : Cursor} {b : β}
    (h : Moves Cursor.Leads r) (hf : ∀ a, Moves Cursor.Leads (f a)) (hr : (r >>= f) c = .ok b d)
    (hrep : d.reported = c.reported) :
    ∃ a e, r c = .ok a e ∧ f a e = .ok b d ∧ c.Leads e ∧ e.Leads d ∧
      e.reported = c.reported ∧ d.reported = e.reported := by
  obtain ⟨a, e, ha, hb⟩ := bind_ok hr
  have hce : c.Leads e := after_of_ok ha ▸ h c
  have hed : e.Leads d := after_of_ok hb ▸ hf a e
  exact ⟨a, e, ha, hb, hce, hed, hce.reported.antisymm hed.reported hrep⟩

/-- The same token, up to its place. -/
def SameAtom (t t' : Token) : Prop := t'.atom = t.atom

instance : Std.Refl SameAtom := ⟨fun _ => rfl⟩

theorem SameAtom.kind {t t' : Token} (h : SameAtom t t') : t'.kind = t.kind :=
  congrArg Atom.kind h

theorem SameAtom.value {t t' : Token} (h : SameAtom t t') : t'.value = t.value :=
  congrArg Atom.value h

theorem SameAtom.isWord {t t' : Token} (h : SameAtom t t') (word : String) :
    t'.isWord word = t.isWord word := by
  rw [Token.isWord, h.kind, h.value, Token.isWord]

theorem SameAtom.endsStatement {t t' : Token} (h : SameAtom t t') :
    endsStatement t' = endsStatement t := by
  rw [Grammar.endsStatement, h.kind, Grammar.endsStatement]

theorem SameAtom.endsSection {t t' : Token} (h : SameAtom t t') :
    endsSection t' = endsSection t := by
  rw [Grammar.endsSection, h.kind, Grammar.endsSection]

theorem SameAtom.isSeparator {t t' : Token} (h : SameAtom t t') :
    isSeparator t' = isSeparator t := by
  rw [Grammar.isSeparator, h.kind, Grammar.isSeparator]

theorem SameAtom.belongsToBlock {t t' : Token} (h : SameAtom t t') :
    belongsToBlock t' = belongsToBlock t := by
  rw [Grammar.belongsToBlock, h.isWord, h.isWord, Grammar.belongsToBlock]

/-- The same token, up to its place unless `placed`. -/
structure SameToken (placed : Prop) (t t' : Token) : Prop where
  atom : SameAtom t t'
  same : placed → t = t'

instance {placed : Prop} : Std.Refl (SameToken placed) := ⟨fun _ => ⟨rfl, fun _ => rfl⟩⟩

/-- A token that stands between statements of code. -/
def IsBetween (t : Token) : Prop := isSeparator t = true ∨ t.kind = .text

theorem IsBetween.ne_identifier {t : Token} (h : IsBetween t) : t.kind ≠ .identifier := by
  intro hk
  obtain h | h := h
  · rw [isSeparator, hk] at h
    cases h
  · rw [hk] at h
    cases h

/-- The tokens `ts` ahead of `us`, and the same ones ahead of `us'`. The last of them is no part of a
statement, so that none goes on with what is behind. -/
structure Cursor.Beside (placed : Prop) (us us' ts ts' : List Token) (c c' : Cursor) : Prop where
  rest : c.rest = ts ++ us
  rest' : c'.rest = ts' ++ us'
  tokens : List.Forall₂ (SameToken placed) ts ts'
  before : ∀ t ∈ ts, t.kind ≠ .eof
  seam : ∀ t ∈ ts.getLast?, IsBetween t
  last : placed → c.last = c'.last

/-- The same tokens ahead, one at least and `k` at most, in front of others. -/
def Cursor.Abreast (placed : Prop) (us us' : List Token) (k : Nat) (c c' : Cursor) : Prop :=
  ∃ ts ts', c.Beside placed us us' ts ts' c' ∧ ts ≠ [] ∧ ts.length ≤ k

section Abreast

variable {placed : Prop} {us us' ts ts' : List Token} {k j : Nat} {c c' : Cursor}

theorem Cursor.Abreast.mono (h : c.Abreast placed us us' k c') (hk : k ≤ j) :
    c.Abreast placed us us' j c' := by
  obtain ⟨ts, ts', hbeside, hne, hlen⟩ := h
  exact ⟨ts, ts', hbeside, hne, Nat.le_trans hlen hk⟩

/-- The token ahead, and the cursors behind it. -/
theorem Cursor.Beside.cons {t : Token} (h : c.Beside placed us us' (t :: ts) ts' c') : ∃ t' vs,
    c'.rest = t' :: (vs ++ us') ∧ ts' = t' :: vs ∧ SameToken placed t t' ∧ t.kind ≠ .eof ∧
      (c.behind t (ts ++ us)).Beside placed us us' ts vs (c'.behind t' (vs ++ us')) := by
  obtain ⟨hrest, hrest', htokens, hbefore, hseam, -⟩ := h
  obtain _ | @⟨_, t', _, vs, ht, hvs⟩ := htokens
  obtain ⟨hkind, hbefore⟩ := List.forall_mem_cons.mp hbefore
  refine ⟨t', vs, hrest', rfl, ht, hkind, rfl, rfl, hvs, hbefore, fun u hu => ?_, fun hp => ?_⟩
  · exact hseam u (by simp [List.getLast?_cons, Option.mem_def.mp hu])
  · exact congrArg some (ht.same hp)

/-- The token ahead. -/
theorem Cursor.Abreast.cons (h : c.Abreast placed us us' k c') : ∃ t ts t' ts',
    c.rest = t :: (ts ++ us) ∧ c'.rest = t' :: (ts' ++ us') ∧ SameToken placed t t' ∧ t.kind ≠ .eof ∧
      (c.behind t (ts ++ us)).Beside placed us us' ts ts' (c'.behind t' (ts' ++ us')) ∧
      ts.length + 1 ≤ k := by
  obtain ⟨ts, ts', h, hne, hlen⟩ := h
  obtain ⟨t, ts, rfl⟩ := List.exists_cons_of_ne_nil hne
  obtain ⟨t', vs, hrest', rfl, ht, hkind, hbehind⟩ := h.cons
  exact ⟨t, ts, t', vs, h.rest, hrest', ht, hkind, hbehind, hlen⟩

theorem Cursor.Beside.length_le (h : c.Beside placed us us' ts ts' c') :
    ts.length ≤ c.rest.length ∧ ts.length ≤ c'.rest.length := by
  rw [h.rest, h.rest', List.length_append, List.length_append, h.tokens.length_eq]
  omega

theorem Cursor.Abreast.current (h : c.Abreast placed us us' k c') :
    SameToken placed c.current c'.current := by
  obtain ⟨t, ts, t', ts', hc, hc', ht, -⟩ := h.cons
  rw [Cursor.current_of_rest hc, Cursor.current_of_rest hc']
  exact ht

end Abreast

/-! ## Readers -/

/-- From cursors that are abreast, two readers come to things that are related by `P`, and
are abreast again, if the first one reports nothing and stops in front of `us`. -/
structure Tracks (placed : Prop) (us us' : List Token) (k j : Nat) (P : α → α → Prop)
    (r r' : Reader α) : Prop where
  leads : Moves Cursor.Leads r
  tracks {c c' d : Cursor} {a : α} : c.Abreast placed us us' k c' → r c = .ok a d →
    d.reported = c.reported → us.length < d.rest.length →
      ∃ a' d', r' c' = .ok a' d' ∧ P a a' ∧ d.Abreast placed us us' j d' ∧ d'.reported = c'.reported

variable {placed : Prop} {us us' : List Token} {i j k : Nat} {P : α → α → Prop} {Q : β → β → Prop}

namespace Tracks

theorem mono {k' j' : Nat} {r r' : Reader α} (h : Tracks placed us us' k j P r r') (hk : k' ≤ k)
    (hj : j ≤ j') : Tracks placed us us' k' j' P r r' where
  leads := h.leads
  tracks hc hr hrep hlen := by
    obtain ⟨a', d', hr', ha, hd, hrep'⟩ := h.tracks (hc.mono hk) hr hrep hlen
    exact ⟨a', d', hr', ha, hd.mono hj, hrep'⟩

/-- That a token was taken need not be told behind. -/
theorem behind {r r' : Reader α} (h : Tracks placed us us' (k + 1) k P r r') :
    Tracks placed us us' (k + 1) (k + 1) P r r' := h.mono (Nat.le_refl _) (Nat.le_succ k)

/-- That a token is taken need not be known in front. -/
theorem front {r r' : Reader α} (h : Tracks placed us us' (k + 1) k P r r') :
    Tracks placed us us' k k P r r' := h.mono (Nat.le_succ k) (Nat.le_refl k)

/-- Without tokens ahead there is nothing to show. -/
theorem zero {r r' : Reader α} (h : Moves Cursor.Leads r) : Tracks placed us us' 0 j P r r' where
  leads := h
  tracks hc := by
    obtain ⟨-, _, -, _, -, -, -, -, -, hlen⟩ := hc.cons
    exact absurd hlen (Nat.not_succ_le_zero _)

protected theorem pure {a a' : α} (h : P a a') :
    Tracks placed us us' k k P (pure a : Reader α) (pure a') where
  leads := steps_leads.pure a
  tracks hc hr _ _ := by
    cases hr
    exact ⟨a', _, rfl, h, hc, rfl⟩

protected theorem bind [Std.Refl P] {r r' : Reader α} {f f' : α → Reader β}
    (h : Tracks placed us us' k i P r r')
    (hf : ∀ a a', P a a' → Tracks placed us us' i j Q (f a) (f' a')) :
    Tracks placed us us' k j Q (r >>= f) (r' >>= f') where
  leads := steps_leads.bind h.leads fun a => (hf a a (Std.Refl.refl a)).leads
  tracks {c c' d b} hc hr hrep hlen := by
    obtain ⟨a, e, ha, hb, -, hed, hrep₁, hrep₂⟩ :=
      bind_silent h.leads (fun a => (hf a a (Std.Refl.refl a)).leads) hr hrep
    obtain ⟨a', e', ha', hP, he, hrep'⟩ :=
      h.tracks hc ha hrep₁ (Nat.lt_of_lt_of_le hlen hed.rest.length_le)
    obtain ⟨b', d', hb', hQ, hd, hrep''⟩ := (hf a a' hP).tracks he hb hrep₂ hlen
    exact ⟨b', d', (bind_of_ok ha').trans hb', hQ, hd, hrep''.trans hrep'⟩

/-- A reader that does not return. -/
theorem stops {r r' : Reader α} (h : Moves Cursor.Leads r) (hr : ∀ c a d, r c ≠ .ok a d) :
    Tracks placed us us' k j P r r' where
  leads := h
  tracks _ h := absurd h (hr _ _ _)

theorem throw (x x' : Stop) : Tracks placed us us' k j P (throw x : Reader α) (throw x') :=
  stops (steps_leads.throw x) fun c a d h => by
    rw [throw_run] at h
    cases h

theorem fail (problem problem' : Problem) :
    Tracks placed us us' k j P (fail problem : Reader α) (fail problem') :=
  stops (steps_leads.fail problem) fun c a d h => by
    rw [fail_run] at h
    cases h

theorem current : Tracks placed us us' k k (SameToken placed) current current where
  leads := steps_leads.current
  tracks hc hr _ _ := by
    cases hr
    exact ⟨_, _, rfl, hc.current, hc, rfl⟩

theorem advance : Tracks placed us us' (k + 1) k (SameToken placed) advance advance where
  leads := steps_leads.advance
  tracks hc hr _ hlen := by
    obtain ⟨t, ts, t', ts', hrest, hrest', ht, hkind, hbeside, hk⟩ := hc.cons
    rw [advance_run hrest hkind] at hr
    cases hr
    refine ⟨t', _, advance_run hrest' (ht.atom.kind ▸ hkind), ht, ?_, rfl⟩
    refine ⟨ts, ts', hbeside, ?_, Nat.le_of_succ_le_succ hk⟩
    rintro rfl
    exact absurd hlen (Nat.lt_irrefl _)

/-- A reader that looks at the token ahead and at the one behind it, which is known if the first is
a name: names are parts of statements. -/
theorem ahead {f f' : Token → Token → Reader β}
    (hf : ∀ t t' u u', SameToken placed t t' → (t.kind = .identifier → SameAtom u u') →
      Tracks placed us us' k j Q (f t u) (f' t' u')) :
    Tracks placed us us' k j Q (do let t ← Grammar.current; let u ← following; f t u)
      (do let t ← Grammar.current; let u ← following; f' t u) where
  leads := steps_leads.bind steps_leads.current fun t => steps_leads.bind steps_leads.following fun u =>
    (hf t t u u (Std.Refl.refl t) fun _ => rfl).leads
  tracks {c c' d b} hc hr hrep hlen := by
    obtain ⟨u, hu⟩ := following_total c
    obtain ⟨u', hu'⟩ := following_total c'
    rw [bind_of_ok (current_run c), bind_of_ok hu] at hr
    rw [bind_of_ok (current_run c'), bind_of_ok hu']
    refine (hf _ _ u u' hc.current fun hk => ?_).tracks hc hr hrep hlen
    obtain ⟨ts, ts', h, hne, -⟩ := hc
    obtain ⟨t, ts, rfl⟩ := List.exists_cons_of_ne_nil hne
    obtain ⟨t', vs, hrest', rfl, -, -, hbehind⟩ := h.cons
    have hrest : c.rest = t :: (ts ++ us) := h.rest
    rw [Cursor.current_of_rest hrest] at hk
    cases ts with
    | nil => exact absurd hk (h.seam t rfl).ne_identifier
    | cons v ts =>
      obtain ⟨v', ws, -, rfl, hv, -⟩ := hbehind.cons
      rw [following_run hrest] at hu
      rw [following_run hrest'] at hu'
      cases hu
      cases hu'
      exact hv.atom

/-- A loop whose fuel is the number of tokens ahead. -/
theorem sized (f f' : Nat → Reader α)
    (h : ∀ i n n', i ≤ k → i ≤ n → i ≤ n' → Tracks placed us us' i j P (f n) (f' n')) :
    Tracks placed us us' k j P (do f (← get).rest.length) (do f' (← get).rest.length) where
  leads := steps_leads.bind steps_leads.get fun c =>
    (h 0 c.rest.length 0 (Nat.zero_le _) (Nat.zero_le _) (Nat.le_refl _)).leads
  tracks {c c' d a} hc hr hrep hlen := by
    obtain ⟨ts, ts', hbeside, hne, hk⟩ := hc
    obtain ⟨hts, hts'⟩ := hbeside.length_le
    exact (h _ _ _ hk hts hts').tracks ⟨ts, ts', hbeside, hne, Nat.le_refl _⟩ hr hrep hlen

/-- A loop that needs its fuel for the tokens ahead, with as much as there are. -/
theorem loop (f f' : Nat → Reader α)
    (h : ∀ i n n', i ≤ n → i ≤ n' → Tracks placed us us' i i P (f n) (f' n')) :
    Tracks placed us us' k k P (do f (← get).rest.length) (do f' (← get).rest.length) :=
  .sized f f' fun i n n' hi hn hn' => (h i n n' hn hn').mono (Nat.le_refl i) hi

theorem expect (kind : TokenKind) (problem problem' : Problem) :
    Tracks placed us us' (k + 1) k (SameToken placed) (expect kind problem) (expect kind problem') := by
  refine current.bind fun t t' ht => ?_
  rw [ht.atom.kind]
  split
  · exact advance
  · exact fail _ _

end Tracks

/-- The same range, if there are to be the same ones. -/
def SameSpan (placed : Prop) (span span' : Span) : Prop := placed → span = span'

instance {placed : Prop} : Std.Refl (SameSpan placed) := ⟨fun _ _ => rfl⟩

instance {placed : Prop} : Std.Refl (Node.Like placed) := ⟨.refl⟩

instance {placed : Prop} : Std.Refl (NodesLike placed) := ⟨.refl⟩

instance {placed : Prop} :
    Std.Refl (fun n n' : Option Node => NodesLike placed n.toList n'.toList) := ⟨fun _ => .refl _⟩

/-! ## Expressions -/

theorem tracks_spanFrom (o : Options) {start start' : Token} (h : SameToken placed start start') :
    Tracks placed us us' k k (SameSpan placed) (spanFrom o start) (spanFrom o start') where
  leads := steps_leads.spanFrom o start
  tracks {c c' d span} hc hr _ _ := by
    cases hr
    refine ⟨_, _, spanFrom_run o start' _, fun hp => ?_, hc, rfl⟩
    obtain ⟨_, _, hbeside, -, -⟩ := hc
    show c.spanFrom o start = c'.spanFrom o start'
    rw [Cursor.spanFrom, Cursor.spanFrom, hbeside.last hp, h.same hp]

theorem tracks_numberOf {t t' : Token} (ht : SameToken placed t t') :
    Tracks placed us us' k k Eq (numberOf t) (numberOf t') := by
  unfold numberOf
  rw [ht.atom.value]
  split
  · exact .pure rfl
  · exact .throw _ _

/-- A combination of trees that does not look at their places. -/
def CombinesTrees (placed : Prop) (combine : Span → α → Node → Node → Node) : Prop :=
  ∀ span span' a left left' right right', SameSpan placed span span' → left.Like placed left' →
    right.Like placed right' → (combine span a left right).Like placed (combine span' a left' right')

/-- A chain of operands, with a token for each sign and more for each operand. -/
theorem tracks_chainFrom {o : Options} {sign? : Token → Option α}
    (hsign : ∀ t t', SameAtom t t' → sign? t' = sign? t) {operand : Reader Node}
    (ho : ∀ k, Tracks placed us us' (k + 1) k (Node.Like placed) operand operand)
    {combine : Span → α → Node → Node → Node} (hcombine : CombinesTrees placed combine)
    {start start' : Token} (hstart : SameToken placed start start') {left left' : Node}
    (hleft : left.Like placed left') (n n' : Nat) (hn : k ≤ n) (hn' : k ≤ n') :
    Tracks placed us us' k k (Node.Like placed) (chainFrom o start sign? operand combine n left)
      (chainFrom o start' sign? operand combine n' left') := by
  induction k generalizing n n' left left' with
  | zero => exact .zero (steps_leads.chainFrom (ho 0).leads n left)
  | succ k ih =>
    obtain ⟨n, rfl⟩ := Nat.exists_eq_add_one_of_ne_zero (Nat.ne_zero_of_lt hn)
    obtain ⟨n', rfl⟩ := Nat.exists_eq_add_one_of_ne_zero (Nat.ne_zero_of_lt hn')
    refine Tracks.current.bind fun t t' ht => ?_
    rw [hsign t t' ht.atom]
    split
    · exact .pure hleft
    · refine .behind (Tracks.advance.bind fun _ _ _ => (ho k).front.bind fun right right' hright =>
        (tracks_spanFrom o hstart).bind fun _ _ hspan => ?_)
      exact ih (hcombine _ _ _ _ _ _ _ hspan hleft hright) n n' (Nat.le_of_succ_le_succ hn)
        (Nat.le_of_succ_le_succ hn')

theorem tracks_chain {o : Options} {sign? : Token → Option α}
    (hsign : ∀ t t', SameAtom t t' → sign? t' = sign? t) {operand : Reader Node}
    (ho : ∀ k, Tracks placed us us' (k + 1) k (Node.Like placed) operand operand)
    {combine : Span → α → Node → Node → Node} (hcombine : CombinesTrees placed combine) :
    Tracks placed us us' (k + 1) k (Node.Like placed) (chain o sign? operand combine)
      (chain o sign? operand combine) :=
  Tracks.current.bind fun start start' hstart => (ho k).bind fun left left' hleft =>
    .loop (chainFrom o start sign? operand combine · left)
      (chainFrom o start' sign? operand combine · left')
      fun _ n n' => tracks_chainFrom hsign ho hcombine hstart hleft n n'

theorem SameAtom.comparison? {t t' : Token} (h : SameAtom t t') : comparison? t' = comparison? t := by
  rw [Grammar.comparison?, h.kind, Grammar.comparison?]

theorem SameAtom.additive? {t t' : Token} (h : SameAtom t t') : additive? t' = additive? t := by
  rw [Grammar.additive?, h.kind, Grammar.additive?]

theorem SameAtom.multiplicative? {t t' : Token} (h : SameAtom t t') :
    multiplicative? t' = multiplicative? t := by
  rw [Grammar.multiplicative?, h.kind, Grammar.multiplicative?]

theorem SameAtom.word? {t t' : Token} (word : String) (h : SameAtom t t') :
    word? word t' = word? word t := by
  rw [Grammar.word?, h.isWord, Grammar.word?]

section Expressions

variable (o : Options) {inner : Inner}
  (hi : ∀ entry k, Tracks placed us us' (k + 1) k (Node.Like placed) (inner entry) (inner entry))

include hi

theorem tracks_readItems (closing : Closing) (n n' : Nat) (hn : k ≤ n) (hn' : k ≤ n') :
    Tracks placed us us' k k (NodesLike placed) (readItems inner closing n)
      (readItems inner closing n') := by
  induction k generalizing n n' with
  | zero => exact .zero (steps_leads.readItems (fun entry => (hi entry 0).leads) closing n)
  | succ k ih =>
    obtain ⟨n, rfl⟩ := Nat.exists_eq_add_one_of_ne_zero (Nat.ne_zero_of_lt hn)
    obtain ⟨n', rfl⟩ := Nat.exists_eq_add_one_of_ne_zero (Nat.ne_zero_of_lt hn')
    refine .behind ((hi .expression k).bind fun item item' hitem =>
      Tracks.current.bind fun t t' ht => ?_)
    rw [ht.atom.kind]
    split
    · refine Tracks.advance.front.bind fun _ _ _ => ?_
      refine (ih n n' (Nat.le_of_succ_le_succ hn) (Nat.le_of_succ_le_succ hn')).bind fun _ _ hitems => ?_
      exact .pure (.cons hitem hitems)
    · exact (Tracks.expect _ _ _).front.bind fun _ _ _ => .pure (.cons hitem .nil)

theorem tracks_readSequence (closing : Closing) :
    Tracks placed us us' k k (NodesLike placed) (readSequence inner closing)
      (readSequence inner closing) := by
  refine Tracks.current.bind fun t t' ht => ?_
  rw [ht.atom.kind]
  split
  · exact Tracks.advance.front.bind fun _ _ _ => .pure .nil
  · exact .loop (readItems inner closing) (readItems inner closing)
      fun _ n n' => tracks_readItems hi closing n n'

omit hi in
theorem tracks_readWord {t t' : Token} (ht : SameToken placed t t') :
    Tracks placed us us' (k + 1) k (Node.Like placed) (readWord o t) (readWord o t') := by
  unfold readWord
  rw [ht.atom.value]
  split
  · exact Tracks.advance.bind fun _ _ _ => (tracks_spanFrom o ht).bind fun _ _ hspan =>
      .pure (.const hspan)
  · split
    · exact .fail _ _
    · exact Tracks.advance.bind fun _ _ _ =>
        (tracks_spanFrom o ht).bind fun _ _ hspan => .pure (.name hspan)

omit hi in
theorem tracks_readArgument {t t' : Token} (ht : SameToken placed t t') :
    Tracks placed us us' (k + 1) k (Node.Like placed) (readArgument o t) (readArgument o t') := by
  refine Tracks.advance.bind fun _ _ _ => (tracks_spanFrom o ht).bind fun _ _ hspan => ?_
  rw [ht.atom.value]
  split
  · exact .pure (.name hspan)
  · refine (tracks_numberOf ht).bind fun n n' hn => ?_
    subst hn
    exact .pure (.argument hspan)

theorem tracks_readPrimary :
    Tracks placed us us' (k + 1) k (Node.Like placed) (readPrimary o inner) (readPrimary o inner) := by
  refine Tracks.current.bind fun t t' ht => ?_
  have hspan : Tracks placed us us' k k (SameSpan placed) (spanFrom o t) (spanFrom o t') :=
    tracks_spanFrom o ht
  rw [ht.atom.kind]
  split
  · refine Tracks.advance.bind fun _ _ _ => hspan.bind fun _ _ hspan =>
      (tracks_numberOf ht).bind fun n n' hn => ?_
    subst hn
    exact .pure (.const hspan)
  · rw [ht.atom.value]
    exact Tracks.advance.bind fun _ _ _ => hspan.bind fun _ _ hspan => .pure (.const hspan)
  · rw [ht.atom.value]
    exact Tracks.advance.bind fun _ _ _ => hspan.bind fun _ _ hspan => .pure (.const hspan)
  · exact tracks_readArgument o ht
  · exact tracks_readWord o ht
  · exact Tracks.advance.bind fun _ _ _ => (hi .expression k).front.bind fun _ _ he =>
      (Tracks.expect _ _ _).front.bind fun _ _ _ => .pure he
  · exact Tracks.advance.bind fun _ _ _ => (tracks_readSequence hi .bracket).bind fun _ _ hitems =>
      hspan.bind fun _ _ hspan => .pure (.list hspan hitems)
  all_goals exact .fail _ _

theorem tracks_readSuffixes {start start' : Token} (hstart : SameToken placed start start')
    {e e' : Node} (he : e.Like placed e') (n n' : Nat) (hn : k ≤ n) (hn' : k ≤ n') :
    Tracks placed us us' k k (Node.Like placed) (readSuffixes o inner start n e)
      (readSuffixes o inner start' n' e') := by
  induction k generalizing n n' e e' with
  | zero => exact .zero (steps_leads.readSuffixes o (fun entry => (hi entry 0).leads) start n e)
  | succ k ih =>
    obtain ⟨n, rfl⟩ := Nat.exists_eq_add_one_of_ne_zero (Nat.ne_zero_of_lt hn)
    obtain ⟨n', rfl⟩ := Nat.exists_eq_add_one_of_ne_zero (Nat.ne_zero_of_lt hn')
    have hspan : Tracks placed us us' k k (SameSpan placed) (spanFrom o start) (spanFrom o start') :=
      tracks_spanFrom o hstart
    have hrest {e e' : Node} (he : e.Like placed e') :=
      ih he n n' (Nat.le_of_succ_le_succ hn) (Nat.le_of_succ_le_succ hn')
    refine Tracks.current.bind fun t t' ht => ?_
    rw [ht.atom.kind]
    split
    · refine .behind (Tracks.advance.bind fun _ _ _ => (Tracks.expect _ _ _).front.bind fun u u' hu =>
        hspan.bind fun _ _ hspan => ?_)
      rw [hu.atom.value]
      exact hrest (.member hspan he)
    · exact .behind (Tracks.advance.bind fun _ _ _ => (hi .expression k).front.bind fun _ _ hkey =>
        (Tracks.expect _ _ _).front.bind fun _ _ _ => hspan.bind fun _ _ hspan =>
          hrest (.item hspan he hkey))
    · exact .behind (Tracks.advance.bind fun _ _ _ =>
        (tracks_readSequence hi .paren).bind fun _ _ harguments => hspan.bind fun _ _ hspan =>
          hrest (.call hspan he harguments))
    · exact .pure he

theorem tracks_readPostfix :
    Tracks placed us us' (k + 1) k (Node.Like placed) (readPostfix o inner) (readPostfix o inner) :=
  Tracks.current.bind fun start start' hstart => (tracks_readPrimary o hi).bind fun e e' he =>
    .loop (readSuffixes o inner start · e) (readSuffixes o inner start' · e')
      fun _ n n' => tracks_readSuffixes o hi hstart he n n'

theorem tracks_readSign :
    Tracks placed us us' (k + 1) k (Node.Like placed) (readSign o inner) (readSign o inner) := by
  refine Tracks.current.bind fun t t' ht => ?_
  rw [ht.atom.kind]
  split
  · exact Tracks.advance.bind fun _ _ _ => (hi .sign k).front.bind fun _ _ he =>
      (tracks_spanFrom o ht).bind fun _ _ hspan => .pure (.unary hspan he)
  · exact tracks_readPostfix o hi

theorem tracks_readProduct :
    Tracks placed us us' (k + 1) k (Node.Like placed) (readProduct o inner) (readProduct o inner) :=
  tracks_chain (fun _ _ => SameAtom.multiplicative?) (fun _ => tracks_readSign o hi)
    fun _ _ _ _ _ _ _ => .arithmetic

theorem tracks_readSum :
    Tracks placed us us' (k + 1) k (Node.Like placed) (readSum o inner) (readSum o inner) :=
  tracks_chain (fun _ _ => SameAtom.additive?) (fun _ => tracks_readProduct o hi)
    fun _ _ _ _ _ _ _ => .arithmetic

theorem tracks_readComparison :
    Tracks placed us us' (k + 1) k (Node.Like placed) (readComparison o inner)
      (readComparison o inner) := by
  refine Tracks.current.bind fun t t' ht => (tracks_readSum o hi).bind fun left left' hleft =>
    Tracks.current.bind fun u u' hu => ?_
  rw [hu.atom.comparison?]
  split
  · exact .pure hleft
  · exact Tracks.advance.front.bind fun _ _ _ => (tracks_readSum o hi).front.bind fun _ _ hright =>
      (tracks_spanFrom o ht).bind fun _ _ hspan => .pure (.compare hspan hleft hright)

theorem tracks_readNegation :
    Tracks placed us us' (k + 1) k (Node.Like placed) (readNegation o inner) (readNegation o inner) := by
  refine Tracks.current.bind fun t t' ht => ?_
  rw [ht.atom.isWord]
  split
  · exact Tracks.advance.bind fun _ _ _ => (hi .negation k).front.bind fun _ _ he =>
      (tracks_spanFrom o ht).bind fun _ _ hspan => .pure (.unary hspan he)
  · exact tracks_readComparison o hi

theorem tracks_readAnd :
    Tracks placed us us' (k + 1) k (Node.Like placed) (readAnd o inner) (readAnd o inner) :=
  tracks_chain (fun _ _ => SameAtom.word? "and") (fun _ => tracks_readNegation o hi)
    fun _ _ _ _ _ _ _ => .logic

theorem tracks_readOr :
    Tracks placed us us' (k + 1) k (Node.Like placed) (readOr o inner) (readOr o inner) :=
  tracks_chain (fun _ _ => SameAtom.word? "or") (fun _ => tracks_readAnd o hi)
    fun _ _ _ _ _ _ _ => .logic

end Expressions

/-- The levels that are left are the same at both cursors. -/
theorem tracks_readLevel (o : Options) (levels : Nat) (entry : Entry) (k : Nat) :
    Tracks placed us us' (k + 1) k (Node.Like placed) (readLevel o levels entry)
      (readLevel o levels entry) := by
  induction levels generalizing entry k with
  | zero => exact .fail _ _
  | succ levels ih =>
    cases entry with
    | expression => exact tracks_readOr o ih
    | negation => exact tracks_readNegation o ih
    | sign => exact tracks_readSign o ih

theorem tracks_readExpression (o : Options) :
    Tracks placed us us' (k + 1) k (Node.Like placed) (readExpression o) (readExpression o) :=
  tracks_readLevel o _ .expression k

end Stencil.Grammar

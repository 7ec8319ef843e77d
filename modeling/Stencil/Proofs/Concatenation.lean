import Stencil.Proofs.Crossing
import Stencil.Proofs.Seam

/-!
# Statements behind each other

Where a source without a complaint ends, or a text in it begins, no code is open, and as
a statement of code ends inside code, none goes on beyond that place. So the statements
in front of it are read by themselves: they are the same whatever stands behind
(`crosses_row`), and a source that is put behind another one adds its statements to
those of the first (`Template.parse_append`), but for a text that goes on over the seam.
-/

namespace Stencil.Grammar

/-! ## How statements end -/

theorem Consumes.suffix {p : Token → Prop} {ts us : List Token} (h : Consumes p ts us) : us <:+ ts := by
  obtain ⟨taken, rfl, -⟩ := h
  exact List.suffix_append _ _

theorem Parses.suffix {p : Part} {ts us : List Token} {n : Node} (h : Parses p ts n us) : us <:+ ts :=
  h.consumes.suffix

theorem EndsInside.of_isWord {t : Token} {word : String} (h : t.isWord word = true) (us : List Token) :
    EndsInside (t :: us) us := ⟨[], t, rfl, .of_kind (kind_of_isWord h) rfl⟩

/-- A statement ends with an expression, or with the word `end`. -/
theorem Parses.endsInside {p : Part} {ts us : List Token} {n : Node} (h : Parses p ts n us)
    (hp : p ≠ .statements) : EndsInside ts us := by
  induction h with
  | expression h => exact h.endsInside
  | assign _ _ _ h => exact h.endsInside.behind (List.suffix_append [_, _] _)
  | @loop t u v w ts us vs _ _ _ _ _ _ hs _ hb hw =>
    exact (EndsInside.of_isWord hw vs).behind
      ((hb.suffix.trans hs.consumes.suffix).trans (List.suffix_append [t, u, v] ts))
  | conditions _ ih => exact ih (by decide)
  | @when t u ts us vs _ _ _ htest _ hb hu =>
    exact (EndsInside.of_isWord hu vs).behind
      ((hb.suffix.trans htest.consumes.suffix).trans (List.suffix_cons t ts))
  | @whenElse t u v ts us vs ws _ _ _ _ htest _ hb _ _ ho hv =>
    exact (EndsInside.of_isWord hv ws).behind ((ho.suffix.trans ((List.suffix_cons u vs).trans
      (hb.suffix.trans htest.consumes.suffix))).trans (List.suffix_cons t ts))
  | @whenElseWhen t u ts us vs ws _ _ _ _ htest _ hb _ _ _ ih =>
    exact (ih (by decide)).behind (((List.suffix_cons u vs).trans
      (hb.suffix.trans htest.consumes.suffix)).trans (List.suffix_cons t ts))
  | nothing | separator | text | statement => exact absurd rfl hp

theorem IsInner.closes {t : Token} (h : IsInner t) : t.kind.closes = false := by
  obtain ⟨hends, -, htext, -⟩ := h
  unfold TokenKind.closes
  split
  · contradiction
  · next hk =>
    rw [endsStatement, hk] at hends
    cases hends
  · rfl

/-- The last token of a statement leaves code open. -/
theorem SoundPart.leavesOpen {c d : Cursor} {n : Node} (h : SoundPart .statement c d n) :
    ∃ before t, c.rest = before ++ t :: d.rest ∧ t.kind.closes = false := by
  obtain ⟨e, hn, hend⟩ := h
  obtain ⟨before, t, hr, ht⟩ := hn.endsInside (by decide)
  obtain hrest | ⟨u, hu, hrest⟩ := hend.rest
  · exact ⟨before, t, hrest ▸ hr, ht.closes⟩
  · refine ⟨before ++ [t], u, ?_, ?_⟩
    · rw [hr, hrest, List.append_assoc, List.singleton_append]
    · obtain hu | hu := hu <;> rw [hu] <;> rfl

/-- Code is closed in front of `us`: behind a token that leaves it open, there is more. -/
def ClosedBefore (us ts : List Token) : Prop :=
  ∀ before t after, ts = before ++ t :: after → after ≠ [] → t.kind.closes = false →
    us.length < after.length

theorem ClosedBefore.suffix {us ts vs : List Token} (h : ClosedBefore us ts) (hs : vs <:+ ts) :
    ClosedBefore us vs := by
  obtain ⟨front, rfl⟩ := hs
  rintro before t after rfl
  exact h (front ++ before) t after (List.append_assoc _ _ _).symm

/-- Code is closed if it is at the end of what stands in front, and nowhere open behind. -/
theorem closedBefore_append {ts us : List Token} (hts : ∀ t ∈ ts.getLast?, t.kind.closes = true)
    (hus : ∀ t ∈ us.dropLast, t.kind.closes = true) : ClosedBefore us (ts ++ us) := by
  intro before t after heq hne hopen
  rcases List.append_eq_append_iff.mp heq with ⟨more, rfl, rfl⟩ | ⟨more, rfl, hmore⟩
  · rw [List.dropLast_append_of_ne_nil (List.cons_ne_nil _ _), List.dropLast_cons_of_ne_nil hne] at hus
    rw [hus t (List.mem_append_right _ List.mem_cons_self)] at hopen
    cases hopen
  · cases more with
    | nil =>
      obtain rfl : us = t :: after := hmore.symm
      rw [List.dropLast_cons_of_ne_nil hne] at hus
      rw [hus t List.mem_cons_self] at hopen
      cases hopen
    | cons u more =>
      obtain ⟨rfl, rfl⟩ := List.cons.inj hmore
      cases more with
      | nil =>
        rw [hts t (by simp)] at hopen
        cases hopen
      | cons v more =>
        show us.length < (v :: more ++ us).length
        rw [List.length_append, List.length_cons]
        omega

/-- A statement of which nothing was reported leaves some of what stands in front of `us`, if
code is closed there. -/
theorem ClosedBefore.separates {o : Options} {us ts : List Token} (h : ClosedBefore us ts) :
    Separates o us ts := by
  intro n c d node? hc hended hread hrep
  obtain ⟨node, rfl, hnode⟩ := readOrSkip_ok (steps_extends.readStatements o n) hread hrep
  have hsound := sound_readStatement (steps_extends.readStatements o n)
    (fun hc h hrep => sound_readStatements n hc h hrep) hended hnode hrep
  obtain ⟨before, t, hr, ht⟩ := hsound.leavesOpen
  obtain ⟨e, hn, hend⟩ := hsound
  have hne : d.rest ≠ [] := by
    obtain ⟨u, hu, -⟩ := hend.ended (hn.ended hended)
    exact List.ne_nil_of_mem hu
  exact Nat.le_of_lt (h.suffix hc before t d.rest hr hne ht)

theorem IsBetween.of_closes {t : Token} (h : t.kind.closes = true) : IsBetween t := by
  unfold TokenKind.closes at h
  split at h
  · exact .inr ‹_›
  · next hk => exact .inl (by rw [isSeparator, hk])
  · cases h

/-- Tokens that are the same up to their places. -/
theorem forall₂_sameToken {ts ts' : List Token} (h : ts'.map Token.atom = ts.map Token.atom) :
    List.Forall₂ (SameToken False) ts ts' := by
  have hrel : List.Forall₂ Eq (ts.map Token.atom) (ts'.map Token.atom) := h ▸ List.forall₂_refl _
  rw [List.forall₂_map_left_iff, List.forall₂_map_right_iff] at hrel
  exact hrel.imp fun t t' ht => ⟨ht.symm, False.elim⟩

/-! ## Whole sources -/

/-- All statements ahead are read, up to the end, and nothing is reported. -/
def ReadsAll (o : Options) (n : Nat) (c : Cursor) (nodes : List Node) : Prop :=
  c.rest.length ≤ n ∧ ∃ d t, readStatements o n c = .ok nodes d ∧ d.reported = c.reported ∧
    d.rest = [t] ∧ t.kind = .eof

namespace ReadsAll

variable {o : Options} {n m : Nat} {c e : Cursor} {nodes more : List Node} {t : Token}

theorem stop (hc : c.rest = [t]) (ht : t.kind = .eof) :
    readStatements o n c = .ok [] c :=
  readStatements_stop n (by rw [Cursor.current_of_rest hc, endsSection, ht]; rfl)

/-- At the end, there is nothing to read. -/
theorem nil (hn : 1 ≤ n) (hc : c.rest = [t]) (ht : t.kind = .eof) : ReadsAll o n c [] :=
  ⟨by rwa [hc], c, t, stop hc ht, rfl, hc, ht⟩

theorem eq_nil (h : ReadsAll o n c nodes) (hc : c.rest = [t]) (ht : t.kind = .eof) : nodes = [] := by
  obtain ⟨-, d, u, hread, -⟩ := h
  rw [stop hc ht] at hread
  cases hread
  rfl

theorem text {us : List Token} (hc : c.rest = t :: us) (ht : t.kind = .text)
    (h : ReadsAll o n (c.behind t us) more) :
    ReadsAll o (n + 1) c (.text ((c.behind t us).spanFrom o t) t.value :: more) := by
  obtain ⟨hn, d, u, hread, hrep, hd⟩ := h
  refine ⟨by rw [hc]; exact Nat.succ_le_succ hn, d, u, ?_, hrep, hd⟩
  rw [readStatements_text hc n ht, bind_of_ok hread, pure_run]

theorem text_inv {us : List Token} (h : ReadsAll o n c nodes) (hc : c.rest = t :: us)
    (ht : t.kind = .text) : ∃ m more, n = m + 1 ∧ ReadsAll o m (c.behind t us) more ∧
      nodes = .text ((c.behind t us).spanFrom o t) t.value :: more := by
  obtain ⟨hn, d, u, hread, hrep, hd⟩ := h
  rw [hc, List.length_cons] at hn
  obtain ⟨m, rfl⟩ := Nat.exists_eq_add_one_of_ne_zero (Nat.ne_zero_of_lt hn)
  rw [readStatements_text hc m ht] at hread
  obtain ⟨more, d', hread, hd'⟩ := bind_ok hread
  cases hd'
  exact ⟨m, more, rfl, ⟨Nat.le_of_succ_le_succ hn, d, u, hread, hrep, hd⟩, rfl⟩

theorem across (hn : c.rest.length ≤ n) (h : Reaches o n c nodes m e) (hrep : e.reported = c.reported)
    (hm : ReadsAll o m e more) : ReadsAll o n c (nodes ++ more) := by
  obtain ⟨-, d, u, hread, hrep', hd⟩ := hm
  exact ⟨hn, d, u, h.ok hread, hrep'.trans hrep, hd⟩

/-- What is read in front of a place where code is closed, and what is read from there: at
another cursor, only the second changes. -/
theorem seam {placed : Prop} {us us' ts ts' : List Token} {n' : Nat} {c' : Cursor}
    (h : ReadsAll o n c nodes) (hended : ∃ t ∈ us, t.kind = .eof)
    (hbeside : c.Beside placed us us' ts ts' c') (hclosed : ClosedBefore us c.rest)
    (hn' : c'.rest.length ≤ n') :
    ∃ A A' B m e m' e', nodes = A ++ B ∧ NodesLike placed A A' ∧ ReadsAll o m e B ∧ e.rest = us ∧
      e'.rest = us' ∧ us'.length ≤ m' ∧
      ∀ more, ReadsAll o m' e' more → ReadsAll o n' c' (A' ++ more) := by
  obtain ⟨hn, d, u, hread, hrep, hd, hu⟩ := h
  have hlength : d.rest.length ≤ us.length := by
    obtain ⟨v, hv, -⟩ := hended
    rw [hd]
    exact List.length_pos_of_mem hv
  obtain ⟨A, A', m, e, m', e', hr, hr', hlike, -, ⟨he, hrep₁, hm⟩, he', hrep₁', hm'⟩ :=
    crosses_row hended n n' hbeside hclosed.separates hn hn' hread hrep hlength
  obtain ⟨B, hnodes, hB⟩ := hr.ok_inv hread
  exact ⟨A, A', B, m, e, m', e', hnodes, hlike, ⟨he ▸ hm, d, u, hB, hrep.trans hrep₁.symm, hd, hu⟩,
    he, he', hm', fun more => across hn' hr' hrep₁'⟩

end ReadsAll

/-- The tokens of a source that was cut, with the end behind them. -/
structure IsSource (ts : List Token) (t : Token) : Prop where
  cut : ∃ cs, Cut false cs (ts.map Token.atom)
  stop : t.kind = .eof

namespace IsSource

variable {o : Options} {ts : List Token} {t : Token} (h : IsSource ts t)

include h

theorem isBefore {u : Token} (hu : u ∈ ts) : u.kind ≠ .eof ∧ u.kind ≠ .frontMatterMarker := by
  obtain ⟨cs, hcut⟩ := h.cut
  exact hcut.isBefore u.atom (List.mem_map_of_mem hu)

theorem framed : Framed (ts ++ [t]) := by
  refine ⟨⟨ts, t, rfl, h.stop, fun u hu => (h.isBefore hu).1⟩, .inl ?_⟩
  refine List.filter_eq_nil_iff.mpr fun u hu => ?_
  rw [beq_iff_eq]
  rcases List.mem_append.mp hu with hu | hu
  · exact (h.isBefore hu).2
  · rw [List.mem_singleton.mp hu, h.stop]
    decide

theorem current_ne_marker :
    (({ rest := ts ++ [t] } : Cursor).current.kind == .frontMatterMarker) = false := by
  have hcurrent (u : Token) (us : List Token) : ({ rest := u :: us } : Cursor).current = u :=
    Cursor.current_of_rest rfl
  rw [beq_eq_false_iff_ne]
  cases ts with
  | nil =>
    rw [List.nil_append, hcurrent, h.stop]
    decide
  | cons u us =>
    rw [List.cons_append, hcurrent]
    exact (h.isBefore List.mem_cons_self).2

/-- In front of texts at its end, a source leaves no code open. -/
theorem closes {before after : List Token} (hts : ts = before ++ after)
    (hafter : ∀ u ∈ after, u.kind = .text) : ∀ u ∈ before.getLast?, u.kind.closes = true := by
  obtain ⟨cs, hcut⟩ := h.cut
  rw [hts, List.map_append] at hcut
  have hcloses : Closes false (before.map Token.atom) := hcut.closes rfl fun a ha => by
    obtain ⟨u, hu, rfl⟩ := List.mem_map.mp (List.mem_of_mem_head? ha)
    exact hafter u hu
  refine fun u hu => hcloses.last u.atom ?_
  rw [List.getLast?_map, hu]
  rfl

theorem closedBefore {before after : List Token} (hts : ts = before ++ after)
    (hafter : ∀ u ∈ after, u.kind = .text) :
    ClosedBefore (after ++ [t]) (ts ++ [t]) := by
  have hcloses := h.closes hts hafter
  rw [hts, List.append_assoc]
  refine closedBefore_append hcloses fun u hu => ?_
  rw [List.dropLast_concat] at hu
  rw [hafter u hu]
  rfl

/-- A page that was read without a complaint is a row of statements. -/
theorem readsAll {page : Page} (hpage : pageOf o (ts ++ [t]) = .ok (page, [])) :
    ∃ span inner nodes, page = ⟨span, .block inner nodes, .absent⟩ ∧
      ReadsAll o ((ts ++ [t]).length + 1) { rest := ts ++ [t] } nodes := by
  obtain ⟨d, hrun, hrep⟩ := readPage_of_pageOf hpage
  obtain ⟨u, hu, hd, -⟩ := h.framed.read_to_end hrun hrep
  rw [readPage_eq, bind_of_ok (current_run _)] at hrun
  simp only [h.current_ne_marker, Bool.false_eq_true, if_false] at hrun
  obtain ⟨body, e, hbody, hrun⟩ := bind_ok hrun
  obtain ⟨span, e', hspan, hrun⟩ := bind_ok hrun
  obtain rfl := spanFrom_ok hspan
  cases hrun
  obtain ⟨inner, nodes, rfl, hread, -⟩ := readSection_ok hbody hrep
  exact ⟨span, inner, nodes, rfl, Nat.le_succ _, d, u, hread, hrep, hd, hu⟩

theorem pageOf_of_readsAll {nodes : List Node}
    (hread : ReadsAll o ((ts ++ [t]).length + 1) { rest := ts ++ [t] } nodes) :
    ∃ span inner, pageOf o (ts ++ [t]) = .ok (⟨span, .block inner nodes, .absent⟩, []) := by
  obtain ⟨-, d, u, hread, hrep, hd, hu⟩ := hread
  have hends : endsSection d.current = true := by
    rw [Cursor.current_of_rest hd, endsSection, hu]
  exact ⟨_, _, pageOf_of_readPage (readPage_run h.current_ne_marker hread hends) hrep⟩

/-- What is read in front of texts at the end of a source, at the cursor of another one. -/
theorem seam {placed : Prop} {n n' : Nat} {c c' : Cursor} {nodes : List Node}
    {before before' us' : List Token} (after : List Token)
    (hread : ReadsAll o n c nodes) (hc : c.rest = before ++ (after ++ [t]))
    (hsuffix : before ++ after <:+ ts) (hafter : ∀ u ∈ after, u.kind = .text)
    (hc' : c'.rest = before' ++ us') (hsame : List.Forall₂ (SameToken placed) before before')
    (hlast : placed → c.last = c'.last) (hn' : c'.rest.length ≤ n') :
    ∃ A A' B m e m' e', nodes = A ++ B ∧ NodesLike placed A A' ∧ ReadsAll o m e B ∧
      e.rest = after ++ [t] ∧ e'.rest = us' ∧ us'.length ≤ m' ∧
      ∀ more, ReadsAll o m' e' more → ReadsAll o n' c' (A' ++ more) := by
  obtain ⟨front, rfl⟩ := hsuffix
  have hts : front ++ (before ++ after) = (front ++ before) ++ after :=
    (List.append_assoc _ _ _).symm
  have hclosed : ClosedBefore (after ++ [t]) c.rest := by
    refine (h.closedBefore hts hafter).suffix ?_
    rw [hc, List.append_assoc, List.append_assoc]
    exact List.suffix_append _ _
  have hbeside : c.Beside placed (after ++ [t]) us' before before' c' := by
    refine ⟨hc, hc', hsame, fun u hu => (h.isBefore (by simp [hu])).1,
      fun u hu => IsBetween.of_closes (h.closes hts hafter u ?_), hlast⟩
    rw [List.getLast?_append, Option.mem_def.mp hu]
    rfl
  exact hread.seam ⟨t, by simp, h.stop⟩ hbeside hclosed hn'

/-- All that is read up to the end of a source is read at the cursor of another one. -/
theorem toEnd {placed : Prop} {n n' : Nat} {c c' : Cursor} {nodes : List Node}
    {before before' us' : List Token}
    (hread : ReadsAll o n c nodes) (hc : c.rest = before ++ [t]) (hsuffix : before <:+ ts)
    (hc' : c'.rest = before' ++ us') (hsame : List.Forall₂ (SameToken placed) before before')
    (hlast : placed → c.last = c'.last) (hn' : c'.rest.length ≤ n') :
    ∃ nodes' m' e', NodesLike placed nodes nodes' ∧ e'.rest = us' ∧ us'.length ≤ m' ∧
      ∀ more, ReadsAll o m' e' more → ReadsAll o n' c' (nodes' ++ more) := by
  obtain ⟨A, A', B, m, e, m', e', rfl, hlike, hB, he, he', hm', hall⟩ :=
    h.seam [] hread hc (by rwa [List.append_nil]) nofun hc' hsame hlast hn'
  obtain rfl := hB.eq_nil he h.stop
  exact ⟨A', m', e', by rwa [List.append_nil], he', hm', hall⟩

end IsSource

/-- Statements behind each other, up to their places; a text at the end of the first ones goes
on into one behind it. The texts have no numbers yet, if they are `fresh`. -/
inductive NodesJoin (fresh : Prop) : List Node → List Node → List Node → Prop
  | behind {as bs nodes : List Node} : NodesLike False (as ++ bs) nodes → NodesJoin fresh as bs nodes
  | merged {as bs nodes : List Node} {span span' place : Span} {a b : List Char} {i j k : Nat} :
      a ≠ [] → b ≠ [] → (fresh → j = 0 ∧ k = 0) →
      NodesLike False (as ++ .text place (String.ofList (a ++ b)) k :: bs) nodes →
      NodesJoin fresh (as ++ [.text span (String.ofList a) i]) (.text span' (String.ofList b) j :: bs)
        nodes

/-- Sources that are put behind each other are read as their statements behind each other. -/
theorem IsSource.join {o : Options} {ts₁ ts₂ ts : List Token} {t₁ t₂ t : Token}
    {nodes₁ nodes₂ : List Node} (h₁ : IsSource ts₁ t₁) (h₂ : IsSource ts₂ t₂) (h : IsSource ts t)
    (hjoins : Joins (ts₁.map Token.atom) (ts₂.map Token.atom) (ts.map Token.atom)) {n₁ n₂ n : Nat}
    (hread₁ : ReadsAll o n₁ { rest := ts₁ ++ [t₁] } nodes₁)
    (hread₂ : ReadsAll o n₂ { rest := ts₂ ++ [t₂] } nodes₂) (hn : (ts ++ [t]).length ≤ n) :
    ∃ nodes, ReadsAll o n { rest := ts ++ [t] } nodes ∧ NodesJoin True nodes₁ nodes₂ nodes := by
  generalize hatoms₁ : ts₁.map Token.atom = as at hjoins
  generalize hatoms₂ : ts₂.map Token.atom = bs at hjoins
  generalize hatoms : ts.map Token.atom = cs at hjoins
  cases hjoins with
  | behind =>
    obtain ⟨us, vs, rfl, hus, hvs⟩ := List.map_eq_append_iff.mp hatoms
    have hc : ({ rest := us ++ vs ++ [t] } : Cursor).rest = us ++ (vs ++ [t]) :=
      List.append_assoc us vs [t]
    obtain ⟨A, m, e, hA, he, hm, hall⟩ := h₁.toEnd hread₁ rfl (List.suffix_refl _) hc
      (forall₂_sameToken (hus.trans hatoms₁.symm)) False.elim hn
    obtain ⟨B, k, d, hB, hd, hk, hall'⟩ := h₂.toEnd hread₂ rfl (List.suffix_refl _) he
      (forall₂_sameToken (hvs.trans hatoms₂.symm)) False.elim (he ▸ hm)
    refine ⟨_, hall _ (hall' [] (.nil hk hd h.stop)), .behind ?_⟩
    rw [List.append_nil]
    exact hA.append hB
  | @merged before after a b ha hb =>
    obtain ⟨us₁, last, rfl, hus₁, hlast⟩ := List.map_eq_append_iff.mp hatoms₁
    obtain ⟨u₁, none, rfl, hu₁, hnone⟩ := List.map_eq_cons_iff.mp hlast
    obtain rfl := List.map_eq_nil_iff.mp hnone
    obtain ⟨u₂, vs₂, rfl, hu₂, hvs₂⟩ := List.map_eq_cons_iff.mp hatoms₂
    obtain ⟨us, rest, rfl, hus, hrest⟩ := List.map_eq_append_iff.mp hatoms
    obtain ⟨u, vs, rfl, hu, hvs⟩ := List.map_eq_cons_iff.mp hrest
    have htext {v : Token} {value : String} (hv : v.atom = ⟨.text, value⟩) :
        v.kind = .text ∧ v.value = value := ⟨congrArg Atom.kind hv, congrArg Atom.value hv⟩
    obtain ⟨hk₁, hvalue₁⟩ := htext hu₁
    obtain ⟨hk₂, hvalue₂⟩ := htext hu₂
    obtain ⟨hk, hvalue⟩ := htext hu
    -- the text at the end of the first source
    have hc : ({ rest := us ++ u :: vs ++ [t] } : Cursor).rest = us ++ u :: (vs ++ [t]) :=
      List.append_assoc us (u :: vs) [t]
    obtain ⟨A, A', B, m, e, m', e', rfl, hA, hB, he, he', hm', hall⟩ :=
      h₁.seam [u₁] hread₁ (List.append_assoc us₁ [u₁] [t₁]) (List.suffix_refl _)
        (fun v hv => by rwa [List.mem_singleton.mp hv]) hc (forall₂_sameToken (hus.trans hus₁.symm))
        False.elim hn
    obtain ⟨k, none, rfl, hnone, rfl⟩ := hB.text_inv he hk₁
    obtain rfl := hnone.eq_nil rfl h₁.stop
    -- the text at the beginning of the second one
    obtain ⟨k₂, more, rfl, hmore, rfl⟩ := hread₂.text_inv rfl hk₂
    obtain ⟨k', rfl⟩ := Nat.exists_eq_add_one_of_ne_zero (Nat.ne_zero_of_lt hm')
    have hc' : (e'.behind u (vs ++ [t])).rest = vs ++ [t] := rfl
    obtain ⟨more', m₂, e₂, hmore', he₂, hm₂, hall₂⟩ := h₂.toEnd hmore rfl (List.suffix_cons _ _) hc'
      (forall₂_sameToken (hvs.trans hvs₂.symm)) False.elim (Nat.le_of_succ_le_succ hm')
    have htail := hall₂ [] (.nil hm₂ he₂ h.stop)
    refine ⟨_, hall _ (.text he' hk htail), ?_⟩
    rw [List.append_nil, hvalue₁, hvalue₂, hvalue]
    exact .merged ha hb (fun _ => ⟨rfl, rfl⟩) (hA.append (.cons (.refl _) hmore'))

end Stencil.Grammar

namespace Stencil

open Grammar

/-- A template without a complaint is a row of statements. -/
structure Template.IsRow (t : Template) (path : Option String) (nodes : List Node) : Prop where
  path : t.path = path
  clean : t.diagnostics = []
  page : ∃ span inner, t.page = some ⟨span, .block inner nodes, .absent⟩

/-- What the parser is told of the options. -/
def TemplateOptions.grammar (options : TemplateOptions) (path : Option String) : Grammar.Options :=
  { file := path, depthLimit := options.depthLimit }

variable {options : TemplateOptions} {path : Option String}

/-- A source that is read without a complaint. -/
theorem Template.parse_inv {source : String} {t : Template} (hmode : options.lexer.mode = .default)
    (hsource : source ≠ "") (h : Template.parse options path source = .ok t)
    (hclean : t.diagnostics = []) :
    ∃ ts p nodes, (lex options.lexer source.toList).tokens = ts ++ [.eof p] ∧
      Cut false source.toList (ts.map Token.atom) ∧ t.IsRow path nodes ∧
      ReadsAll (options.grammar path) ((ts ++ [.eof p]).length + 1) { rest := ts ++ [.eof p] }
        nodes := by
  rw [Template.parse, if_neg hsource] at h
  cases hpage : pageOf (options.grammar path) (lex options.lexer source.toList).tokens with
  | error e =>
    rw [TemplateOptions.grammar] at hpage
    simp only [hpage, bind, Except.bind] at h
    cases h
  | ok answer =>
    rw [TemplateOptions.grammar] at hpage
    simp only [hpage, bind, Except.bind, pure, Except.pure, Except.ok.injEq] at h
    subst h
    obtain ⟨hlexed, herrors⟩ := List.append_eq_nil_iff.mp hclean
    obtain ⟨ts, p, htokens, hcuts⟩ := cuts_of_clean hlexed
    rw [lex_default hmode] at hcuts
    have hcut : Cut false source.toList (ts.map Token.atom) :=
      cut_of_lexFrom _ .start (Nat.le_refl _) hcuts
    have hsourced : IsSource ts (.eof p) := ⟨⟨_, hcut⟩, rfl⟩
    obtain ⟨page, errors⟩ := answer
    obtain rfl := List.map_eq_nil_iff.mp herrors
    rw [htokens] at hpage
    obtain ⟨span, inner, nodes, rfl, hread⟩ := hsourced.readsAll hpage
    exact ⟨ts, p, nodes, htokens, hcut, ⟨rfl, hclean, span, inner, rfl⟩, hread⟩

/-- A source that is cut is read without a complaint, if its tokens are. -/
theorem Template.parse_of_cut (path : Option String) {source : String} {atoms : List Atom}
    (hmode : options.lexer.mode = .default) (hsource : source ≠ "") (hcut : Cut false source.toList atoms) :
    ∃ ts p, (lex options.lexer source.toList).tokens = ts ++ [.eof p] ∧ ts.map Token.atom = atoms ∧
      IsSource ts (.eof p) ∧ ∀ nodes,
        ReadsAll (options.grammar path) ((ts ++ [Token.eof p]).length + 1) { rest := ts ++ [.eof p] } nodes →
          ∃ t, Template.parse options path source = .ok t ∧ t.IsRow path nodes := by
  have hcuts : (lexFrom options.lexer .text .start source.toList).Cuts atoms := hcut.lexes .start .start
  rw [← lex_default hmode] at hcuts
  obtain ⟨hclean, ts, p, htokens, rfl⟩ := hcuts.clean path
  have h : IsSource ts (.eof p) := ⟨⟨_, hcut⟩, rfl⟩
  refine ⟨ts, p, htokens, rfl, h, fun nodes hread => ?_⟩
  obtain ⟨span, inner, hpage⟩ := h.pageOf_of_readsAll hread
  refine ⟨⟨some ⟨span, .block inner nodes, .absent⟩, path, [], source⟩, ?_, rfl, rfl, span, inner, rfl⟩
  rw [TemplateOptions.grammar] at hpage
  rw [Template.parse, if_neg hsource]
  dsimp only
  rw [htokens, hpage, hclean]
  rfl

/-- Two sources behind each other are read without a complaint. -/
theorem Template.parse_append {source₁ source₂ : String} {t₁ t₂ : Template}
    (hmode : options.lexer.mode = .default) (hsource₁ : source₁ ≠ "") (hsource₂ : source₂ ≠ "")
    (h₁ : Template.parse options path source₁ = .ok t₁) (hclean₁ : t₁.diagnostics = [])
    (h₂ : Template.parse options path source₂ = .ok t₂) (hclean₂ : t₂.diagnostics = [])
    (hseam : ¬ (source₁.toList.getLast? = some '\x7b' ∧ source₂.toList.head? = some '\x7b')) :
    ∃ t nodes₁ nodes₂ nodes, Template.parse options path (source₁ ++ source₂) = .ok t ∧
      t₁.IsRow path nodes₁ ∧ t₂.IsRow path nodes₂ ∧ t.IsRow path nodes ∧
      NodesJoin True nodes₁ nodes₂ nodes := by
  obtain ⟨ts₁, p₁, nodes₁, -, hcut₁, hrow₁, hread₁⟩ := parse_inv hmode hsource₁ h₁ hclean₁
  obtain ⟨ts₂, p₂, nodes₂, -, hcut₂, hrow₂, hread₂⟩ := parse_inv hmode hsource₂ h₂ hclean₂
  obtain ⟨atoms, hjoins, hcut⟩ := hcut₁.append hcut₂ hseam
  rw [← String.toList_append] at hcut
  have hsource : source₁ ++ source₂ ≠ "" := fun h => hsource₁ (String.append_eq_empty_iff.mp h).1
  obtain ⟨ts, p, -, rfl, h, hparse⟩ := parse_of_cut path hmode hsource hcut
  obtain ⟨nodes, hread, hjoin⟩ := IsSource.join ⟨⟨_, hcut₁⟩, rfl⟩ ⟨⟨_, hcut₂⟩, rfl⟩ h hjoins hread₁
    hread₂ (Nat.le_succ _)
  obtain ⟨t, ht, hrow⟩ := hparse nodes hread
  exact ⟨t, nodes₁, nodes₂, nodes, ht, hrow₁, hrow₂, hrow, hjoin⟩

end Stencil

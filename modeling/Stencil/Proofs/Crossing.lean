import Stencil.Proofs.Acceptance
import Stencil.Proofs.Finishing

/-!
# Rows of statements

What stands in front of a place where no statement goes on is read by itself: the statements are
the same whatever stands behind that place (`crosses_row`), and reading goes on there as it would
from the place alone (`Reaches`).
-/

namespace Stencil.Grammar

/-- Statements are read from `c` up to `e`, and then those from there. -/
def Reaches (o : Options) (n : Nat) (c : Cursor) (nodes : List Node) (m : Nat) (e : Cursor) : Prop :=
  readStatements o n c = (do return nodes ++ (← readStatements o m) : Reader (List Node)) e

namespace Reaches

variable {o : Options} {n m : Nat} {c d e : Cursor} {nodes more all : List Node}

theorem refl (o : Options) (n : Nat) (c : Cursor) : Reaches o n c [] n c := by
  rw [Reaches, bind_run]
  cases readStatements o n c <;> rfl

theorem ok (h : Reaches o n c nodes m e) (hm : readStatements o m e = .ok more d) :
    readStatements o n c = .ok (nodes ++ more) d := by
  rw [h, bind_of_ok hm, pure_run]

theorem ok_inv (h : Reaches o n c nodes m e) (hn : readStatements o n c = .ok all d) :
    ∃ more, all = nodes ++ more ∧ readStatements o m e = .ok more d := by
  rw [h] at hn
  obtain ⟨more, d', hm, hd⟩ := bind_ok hn
  cases hd
  exact ⟨more, rfl, hm⟩

theorem separator {t : Token} {us : List Token} (hr : c.rest = t :: us) (ht : isSeparator t = true)
    (h : Reaches o n (c.behind t us) nodes m e) : Reaches o (n + 1) c nodes m e :=
  (readStatements_separator hr n ht).trans h

/-- What is read in front of a row. -/
theorem front (h : Reaches o n c nodes m e) (more : List Node) :
    (do return more ++ (← readStatements o n) : Reader (List Node)) c =
      (do return (more ++ nodes) ++ (← readStatements o m) : Reader (List Node)) e := by
  rw [bind_run, h, bind_run, bind_run]
  cases readStatements o m e with
  | ok nodes' d => simp only [pure_run, List.append_assoc]
  | error x d => rfl

protected theorem trans {k : Nat} (h : Reaches o n c nodes m e) (h' : Reaches o m e more k d) :
    Reaches o n c (nodes ++ more) k d := Eq.trans h (h'.front nodes)

theorem text {t : Token} {us : List Token} (hr : c.rest = t :: us) (ht : t.kind = .text)
    (h : Reaches o n (c.behind t us) nodes m e) :
    Reaches o (n + 1) c (.text ((c.behind t us).spanFrom o t) t.value :: nodes) m e :=
  (readStatements_text hr n ht).trans (h.front [_])

theorem statement {t : Token} {us : List Token} {node? : Option Node} (hr : c.rest = t :: us)
    (hstop : (endsSection t || belongsToBlock t) = false) (hsep : isSeparator t = false)
    (htext : (t.kind == .text) = false)
    (hn : readOrSkip o (readStatements o n) c = .ok node? d) (h : Reaches o n d nodes m e) :
    Reaches o (n + 1) c (node?.toList ++ nodes) m e := by
  rw [Reaches, readStatements_statement hr n hstop hsep htext, bind_of_ok hn]
  exact h.front _

end Reaches

/-- From two cursors, the same statements are read up to `us` and up to `us'`. -/
def Crosses (placed : Prop) (o : Options) (us us' : List Token) (n : Nat) (c : Cursor) (n' : Nat)
    (c' : Cursor) : Prop :=
  ∃ nodes nodes' m e m' e', Reaches o n c nodes m e ∧ Reaches o n' c' nodes' m' e' ∧
    NodesLike placed nodes nodes' ∧ (placed → e.last = e'.last) ∧
    (e.rest = us ∧ e.reported = c.reported ∧ us.length ≤ m) ∧
    e'.rest = us' ∧ e'.reported = c'.reported ∧ us'.length ≤ m'

namespace Crosses

variable {placed : Prop} {o : Options} {us us' vs vs' : List Token} {n n' : Nat} {c c' d d' : Cursor}
  {t t' : Token}

/-- Both cursors are there already. -/
theorem refl (hc : c.rest = us) (hc' : c'.rest = us') (hlast : placed → c.last = c'.last)
    (hn : us.length ≤ n) (hn' : us'.length ≤ n') : Crosses placed o us us' n c n' c' :=
  ⟨[], [], n, c, n', c', .refl o n c, .refl o n' c', .nil, hlast, ⟨hc, rfl, hn⟩, hc', rfl, hn'⟩

theorem separator (hc : c.rest = t :: vs) (hc' : c'.rest = t' :: vs') (ht : isSeparator t = true)
    (ht' : isSeparator t' = true) (h : Crosses placed o us us' n (c.behind t vs) n' (c'.behind t' vs')) :
    Crosses placed o us us' (n + 1) c (n' + 1) c' := by
  obtain ⟨A, A', m, e, m', e', hr, hr', hlike, hlast, hend, hend'⟩ := h
  exact ⟨A, A', m, e, m', e', hr.separator hc ht, hr'.separator hc' ht', hlike, hlast, hend, hend'⟩

theorem text (hc : c.rest = t :: vs) (hc' : c'.rest = t' :: vs') (ht : t.kind = .text)
    (hsame : SameToken placed t t')
    (hlast : placed → (c.behind t vs).last = (c'.behind t' vs').last)
    (h : Crosses placed o us us' n (c.behind t vs) n' (c'.behind t' vs')) :
    Crosses placed o us us' (n + 1) c (n' + 1) c' := by
  obtain ⟨A, A', m, e, m', e', hr, hr', hlike, hlast', hend, hend'⟩ := h
  have hnode' := hr'.text hc' (hsame.atom.kind.trans ht)
  rw [hsame.atom.value] at hnode'
  refine ⟨_, _, m, e, m', e', hr.text hc ht, hnode', .cons (.text fun hp => ?_) hlike, hlast', hend, hend'⟩
  rw [Cursor.spanFrom, Cursor.spanFrom, hlast hp, hsame.same hp]

/-- A statement is read from both cursors, and then what is behind it. -/
theorem statement {node? node?' : Option Node} (hc : c.rest = t :: vs) (hc' : c'.rest = t' :: vs')
    (ht : SameAtom t t') (hstop : (endsSection t || belongsToBlock t) = false)
    (hsep : isSeparator t = false) (htext : (t.kind == .text) = false)
    (hnode : readOrSkip o (readStatements o n) c = .ok node? d)
    (hnode' : readOrSkip o (readStatements o n') c' = .ok node?' d')
    (hlike : NodesLike placed node?.toList node?'.toList) (hrep : d.reported = c.reported)
    (hrep' : d'.reported = c'.reported) (h : Crosses placed o us us' n d n' d') :
    Crosses placed o us us' (n + 1) c (n' + 1) c' := by
  obtain ⟨A, A', m, e, m', e', hr, hr', hbehind, hlast, ⟨he, hrepₑ, hm⟩, he', hrepₑ', hm'⟩ := h
  have hstop' : (endsSection t' || belongsToBlock t') = false := by
    rwa [ht.endsSection, ht.belongsToBlock]
  exact ⟨_, _, m, e, m', e', hr.statement hc hstop hsep htext hnode,
    hr'.statement hc' hstop' (ht.isSeparator.trans hsep) (by rwa [ht.kind]) hnode',
    hlike.append hbehind, hlast, ⟨he, hrepₑ.trans hrep, hm⟩, he', hrepₑ'.trans hrep', hm'⟩

end Crosses

/-- No statement of which nothing is reported takes tokens of `us`. -/
def Separates (o : Options) (us all : List Token) : Prop :=
  ∀ {n : Nat} {c d : Cursor} {node? : Option Node}, c.rest <:+ all → c.Ended →
    readOrSkip o (readStatements o n) c = .ok node? d → d.reported = c.reported →
      us.length ≤ d.rest.length

theorem Separates.suffix {o : Options} {us ts vs : List Token} (h : Separates o us ts) (hs : vs <:+ ts) :
    Separates o us vs := fun hc => h (hc.trans hs)

section Rows

variable {placed : Prop} {o : Options} {us us' ts ts' : List Token} (hus : ∃ t ∈ us, t.kind = .eof)
  {c c' d : Cursor}

include hus

/-- A statement in front of that place is read from both cursors, and leaves them beside each other. -/
theorem Separates.readOrSkip {n : Nat} (n' : Nat) (h : Separates o us c.rest)
    (hbeside : c.Beside placed us us' ts ts' c') (hne : ts ≠ []) (hn : ts.length ≤ n + 1)
    (hn' : ts.length ≤ n' + 1) {node? : Option Node}
    (hnode : readOrSkip o (readStatements o n) c = .ok node? d) (hrep : d.reported = c.reported) :
    ∃ node?' d' vs vs', Grammar.readOrSkip o (readStatements o n') c' = .ok node?' d' ∧
      NodesLike placed node?.toList node?'.toList ∧ d.Beside placed us us' vs vs' d' ∧
      vs.length < ts.length ∧ d'.reported = c'.reported := by
  obtain ⟨k, hk⟩ := Nat.exists_eq_add_one_of_ne_zero (List.length_pos_of_ne_nil hne).ne'
  have habreast : c.Abreast placed us us' (k + 1) c' := ⟨ts, ts', hbeside, hne, Nat.le_of_eq hk⟩
  have hs (j : Nat) (hj : j ≤ k) :
      Tracks placed us us' j j (NodesLike placed) (readStatements o n) (readStatements o n') :=
    tracks_readStatements o hus n n' (by omega) (by omega)
  obtain ⟨node?', d', hnode', hlike, ⟨vs, vs', hnear, hlen⟩, hrep'⟩ :=
    (finishes_readOrSkip o hus hs).finishes habreast hnode hrep
      (h List.suffix_rfl (Finishes.ended hus habreast) hnode hrep)
  exact ⟨node?', d', vs, vs', hnode', hlike, hnear, by omega, hrep'⟩

/-- What stands in front of a place where no statement goes on is read by itself: it is the same
whatever stands behind that place. By induction on the bound, which each turn lowers. -/
theorem crosses_row (n n' : Nat) {nodes : List Node} (hbeside : c.Beside placed us us' ts ts' c')
    (hseparates : Separates o us c.rest) (hn : c.rest.length ≤ n) (hn' : c'.rest.length ≤ n')
    (h : readStatements o n c = .ok nodes d) (hrep : d.reported = c.reported)
    (hd : d.rest.length ≤ us.length) : Crosses placed o us us' n c n' c' := by
  have hc := hbeside.rest
  induction n generalizing n' c c' d ts ts' nodes with
  | zero =>
    obtain ⟨t, ht, -⟩ := hus
    have := List.length_pos_of_mem ht
    rw [hc, List.length_append] at hn
    omega
  | succ n ih =>
    cases ts with
    | nil =>
      obtain rfl := List.forall₂_nil_left_iff.mp hbeside.tokens
      have hc' := hbeside.rest'
      rw [List.nil_append] at hc hc'
      exact .refl hc hc' hbeside.last (hc ▸ hn) (hc' ▸ hn')
    | cons t ts =>
      obtain ⟨t', vs, hc', rfl, ht, hne, hbehind⟩ := hbeside.cons
      rw [List.cons_append] at hc
      have hlen := hbehind.tokens.length_eq
      simp only [hc, hc', List.length_cons, List.length_append] at hn hn'
      obtain ⟨n', rfl⟩ := Nat.exists_eq_add_one_of_ne_zero (Nat.ne_zero_of_lt hn')
      have hsuffix : (c.behind t (ts ++ us)).rest <:+ c.rest := hc ▸ List.suffix_cons _ _
      -- the row behind the token ahead, which is read with less fuel
      have hrest {more : List Node} (hread : readStatements o n (c.behind t (ts ++ us)) = .ok more d) :
          Crosses placed o us us' n (c.behind t (ts ++ us)) n' (c'.behind t' (vs ++ us')) :=
        ih n' hbehind (hseparates.suffix hsuffix) (by simp [Cursor.behind]; omega)
          (by simp [Cursor.behind]; omega) hread hrep hd rfl
      cases hstop : endsSection t || belongsToBlock t with
      | true =>
        rw [readStatements_stop _ (by rwa [Cursor.current_of_rest hc])] at h
        cases h
        rw [hc, List.length_cons, List.length_append] at hd
        omega
      | false =>
        cases hsep : isSeparator t with
        | true =>
          rw [readStatements_separator hc n hsep] at h
          exact (hrest h).separator hc hc' hsep (ht.atom.isSeparator.trans hsep)
        | false =>
          cases htext : t.kind == .text with
          | true =>
            have hk : t.kind = .text := by simpa using htext
            rw [readStatements_text hc n hk] at h
            obtain ⟨more, d', hread, h⟩ := bind_ok h
            cases h
            exact (hrest hread).text hc hc' hk ht hbehind.last
          | false =>
            rw [readStatements_statement hc n hstop hsep htext] at h
            obtain ⟨node?, c₁, hnode, h⟩ := bind_ok h
            obtain ⟨more, d', hread, h⟩ := bind_ok h
            cases h
            have hleads : c.Leads c₁ :=
              after_of_ok hnode ▸ steps_leads.readOrSkip o (steps_leads.readStatements o n) c
            have hextends : c₁.Extends d := after_of_ok hread ▸ steps_extends.readStatements o n c₁
            obtain ⟨hrep₁, hrep₂⟩ := hleads.reported.antisymm hextends hrep
            obtain ⟨node?', c₁', ts₁, ts₁', hnode', hlike, hbeside₁, hlen₁, hrep'⟩ :=
              hseparates.readOrSkip hus n' hbeside (List.cons_ne_nil t ts) (by simp; omega)
                (by simp; omega) hnode hrep₁
            have hlen₁' := hbeside₁.tokens.length_eq
            rw [List.length_cons] at hlen₁
            exact (ih n' hbeside₁ (hseparates.suffix hleads.rest)
              (by rw [hbeside₁.rest, List.length_append]; omega)
              (by rw [hbeside₁.rest', List.length_append]; omega) hread hrep₂ hd hbeside₁.rest).statement
                hc hc' ht.atom hstop hsep htext hnode hnode' hlike hrep₁ hrep'

end Rows

end Stencil.Grammar
